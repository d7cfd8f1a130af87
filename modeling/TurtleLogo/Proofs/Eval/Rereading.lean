import TurtleLogo.Proofs.Eval.Definitions
import TurtleLogo.Proofs.Lexer.Trimmed
import TurtleLogo.Proofs.Parser.Margin

/-!
# Reading a line again

A line that is collected is kept as text without the white space around it, and as expressions. Reading the text again
gives the expressions, if the parts of the line were fed with their ends and no backslash has lost its character.

* `Continuation.Coherent` : the tokens that are held are those of the text that is held;
* `Continuation.Coherent.hold` : a line that goes on is held so;
* `Continuation.Coherent.cutsEscape_append` : what is held does not matter for the end of the text;
* `parseText_trim` : the text of a line that was read, read again.
-/

namespace TurtleLogo

open Lexer Parsing Text

/-! ## What is held -/

/-- The tokens that are held are those of the text that is held, up to columns, and the text ends in a backslash and a
line end. -/
structure Continuation.Coherent (c : Continuation) : Prop where
  tokens : ∃ ts, scan true 0 c.text.toList = .ok ts ∧ ts.map Token.kind = c.tokens.map Token.kind
  ends : c.text.toList = [] ∨ ['\\', '\n'] <:+ c.text.toList

namespace Continuation.Coherent

variable {c : Continuation}

theorem empty : Coherent {} where
  tokens := ⟨[], scan_nil true 0, rfl⟩
  ends := .inl rfl

theorem text_eq (h : c.Coherent) : c.text.toList = [] ∨ ∃ front, c.text.toList = (front ++ ['\\']) ++ ['\n'] := by
  rcases h.ends with hnil | ⟨front, hfront⟩
  · exact .inl hnil
  · refine .inr ⟨front, ?_⟩
    rw [← hfront, List.append_assoc]
    rfl

theorem scan_append (h : c.Coherent) {line : List Char} {fresh : List Token} (hline : scan true 0 line = .ok fresh) :
    ∃ ts, scan true 0 (c.text.toList ++ line) = .ok ts ∧ ts.map Token.kind = (c.tokens ++ fresh).map Token.kind := by
  obtain ⟨held, hheld, hkinds⟩ := h.tokens
  rcases h.text_eq with hnil | ⟨front, hfront⟩
  · rw [hnil, scan_nil] at hheld
    cases hheld
    have htokens : c.tokens = [] := List.map_eq_nil_iff.mp hkinds.symm
    rw [hnil, htokens]
    exact ⟨fresh, hline, rfl⟩
  · rw [hfront] at hheld
    rw [hfront, List.append_assoc, List.singleton_append, scan_lines, hheld]
    rcases sayings_cases (scan_kinds true (0 + (front ++ ['\\']).length + 1) 0 line) with
      ⟨ts, us, ht, hu, hline'⟩ | ⟨e, e', -, he, -⟩
    · rw [hline] at hu
      cases hu
      rw [ht]
      refine ⟨held ++ ts, rfl, ?_⟩
      rw [List.map_append, List.map_append, hkinds, hline']
    · rw [hline] at he
      cases he

/-- A line that goes on is held coherently if it was fed with its end. -/
theorem hold (h : c.Coherent) {line : String} {fresh : List Token} (hline : tokenize line = .ok fresh)
    (hgoes : endsInCont fresh = true) (hend : ['\n'] <:+ line.toList) :
    Coherent ⟨c.tokens ++ fresh, c.text ++ line⟩ := by
  have hscan := scan_of_endsInCont hline hgoes
  refine ⟨?_, .inr ?_⟩
  · obtain ⟨ts, hts, hkinds⟩ := h.scan_append hscan
    refine ⟨ts, ?_, hkinds⟩
    rw [String.toList_append]
    exact hts
  · obtain ⟨front, hfront⟩ := hend
    rw [← hfront] at hscan
    rcases scan_ended true 0 front fresh hscan with ⟨t, hlast, hkind⟩ | ⟨more, hmore⟩
    · rw [endsInCont, hlast] at hgoes
      simp [hkind] at hgoes
    · refine List.IsSuffix.trans ?_ (String.toList_append ▸ List.suffix_append c.text.toList line.toList)
      rw [← hfront, ← hmore, List.append_assoc]
      exact List.suffix_append more ['\\', '\n']

/-- Whether the text loses a character is decided by its last line. -/
theorem cutsEscape_append (h : c.Coherent) {line : List Char} (hline : cutsEscape line = false) :
    cutsEscape (c.text.toList ++ line) = false := by
  rcases h.text_eq with hnil | ⟨front, hfront⟩
  · rw [hnil]
    exact hline
  · by_cases hwhite : line.rdropWhile isWhite = []
    · -- Only white space follows, and the text ends in the backslash before the line end.
      have hall : ∀ d ∈ ('\n' :: line).reverse, isWhite d = true := by
        intro d hd
        rcases List.mem_cons.mp (List.mem_reverse.mp hd) with rfl | hd
        · decide
        · exact List.rdropWhile_eq_nil_iff.mp hwhite d hd
      have htake : (c.text.toList ++ line).rtakeWhile isWhite = '\n' :: line := by
        have hreverse : (c.text.toList ++ line).reverse = ('\n' :: line).reverse ++ ('\\' :: front.reverse) := by
          rw [hfront]
          simp
        have hstop : ('\\' :: front.reverse).takeWhile isWhite = [] := List.takeWhile_cons_of_neg (by decide)
        rw [List.rtakeWhile, hreverse, List.takeWhile_append_of_pos hall, hstop, List.append_nil, List.reverse_reverse]
      rw [cutsEscape, htake]
      simp
    · obtain ⟨hcore, htail⟩ := rdropWhile_append c.text.toList hwhite
      have hescape : endsInEscape false (c.text.toList ++ line.rdropWhile isWhite) =
          endsInEscape false (line.rdropWhile isWhite) := by
        rw [hfront, List.append_assoc, List.singleton_append]
        exact endsInEscape_line false _ _
      rw [cutsEscape, hcore, htail, hescape]
      exact hline

end Continuation.Coherent

/-! ## Reading again -/

/-- A line of tokens that begins with a line end has no expressions. -/
theorem head_of_parseLine {ts : List Token} {items : List Node} (h : parseLine ts = .ok items) (hitems : items ≠ [])
    {t : Token} (ht : ts.head? = some t) : t.kind ≠ .lineEnd := by
  intro hkind
  cases ts with
  | nil => cases ht
  | cons u rest =>
    cases ht
    have hskip : skipSpaces (t :: rest) = t :: rest :=
      List.dropWhile_cons_of_neg (by simp [Token.isSpace, hkind, Lexeme.isSpace])
    rw [parseLine_cons hskip] at h
    simp only [hkind] at h
    split at h
    · exact hitems (Except.ok.inj h).symm
    · cases h

theorem getLast?_of_whole {ts : List Token} (hclosed : isClosed ts = true) (hwhole : endsInCont ts = false) :
    ∃ t, ts.getLast? = some t ∧ t.kind = .lineEnd := by
  rw [isClosed] at hclosed
  rw [endsInCont] at hwhole
  cases hlast : ts.getLast? with
  | none =>
    rw [hlast] at hclosed
    cases hclosed
  | some t =>
    rw [hlast] at hclosed hwhole
    refine ⟨t, rfl, ?_⟩
    obtain ⟨kind, col⟩ := t
    cases kind with
    | lineEnd => rfl
    | lineCont => cases hwhole
    | _ => cases hclosed

theorem toList_trim (text : String) :
    (trim isWhite text).toList = (text.toList.dropWhile isWhite).rdropWhile isWhite := by
  simp only [trim, trimRight, String.toList_ofList, List.rdropWhile]

theorem isMargin_of_kind {t : Token} (h : t.kind = .blank ∨ t.kind = .lineEnd) : t.isMargin = true := by
  rcases h with h | h
  · simp [Token.isMargin, Token.isSpace, h, Lexeme.isSpace]
  · simp [Token.isMargin, h]

/-- Tokens that end in a line end lose only margin when what stands behind `ts` goes, and the line is closed again. -/
theorem trims_closed {ts more : List Token} (hmore : ∀ t ∈ more, t.kind = .blank ∨ t.kind = .lineEnd)
    (hlast : ∃ t, (ts ++ more).getLast? = some t ∧ t.kind = .lineEnd) (col : Nat) :
    Trims (ts ++ more) (if isClosed ts then ts else ts ++ [⟨.lineEnd, col⟩]) := by
  have hmargin : ∀ t ∈ more, t.isMargin = true := fun t ht => isMargin_of_kind (hmore t ht)
  cases hclosed : isClosed ts with
  | true =>
    have hoff := Trims.append ts (Trims.off hmargin)
    rw [List.append_nil] at hoff
    exact hoff
  | false =>
    obtain ⟨t, ht, hkind⟩ := hlast
    have hmem : t ∈ more := by
      by_cases hnil : more = []
      · subst hnil
        rw [List.append_nil] at ht
        rw [isClosed, ht] at hclosed
        simp [hkind, Lexeme.endsLine] at hclosed
      · rw [List.getLast?_append, List.getLast?_eq_some_getLast hnil] at ht
        cases ht
        exact List.getLast_mem hnil
    exact Trims.append ts (Trims.cut hmargin ⟨t, hmem, hkind⟩ col)

theorem tokenize_cases {line : String} {fresh : List Token} (h : tokenize line = .ok fresh) :
    ∃ raw close, scan true 0 line.toList = .ok raw ∧ fresh = raw ++ close ∧ ∀ t ∈ close, t.kind = .lineEnd := by
  obtain ⟨raw, hraw, rfl⟩ := tokenize_ok h
  cases isClosed raw with
  | true => exact ⟨raw, [], hraw, (List.append_nil raw).symm, by simp⟩
  | false => exact ⟨raw, [⟨.lineEnd, _⟩], hraw, rfl, by simp⟩

/-- **Reading again.** A line that was read behind what is held, and that has expressions, gives them again when its whole
text is read without the white space around it. -/
theorem parseText_trim {c : Continuation} (hc : c.Coherent) {line : String} {fresh : List Token} {items : List Node}
    (hline : tokenize line = .ok fresh) (hwhole : endsInCont (c.tokens ++ fresh) = false)
    (hparse : parseLine (c.tokens ++ fresh) = .ok items) (hitems : items ≠ []) (hcut : cutsEscape line.toList = false) :
    parseText (trim isWhite (c.text ++ line)) = .ok items := by
  obtain ⟨raw, close, hraw, rfl, hclose⟩ := tokenize_cases hline
  obtain ⟨ts, hts, hkinds⟩ := hc.scan_append hraw
  have hall : (c.tokens ++ (raw ++ close)).map Token.kind = (ts ++ close).map Token.kind := by
    rw [← List.append_assoc, List.map_append, ← hkinds, ← List.map_append]
  have hread := parseLine_ok_of_kinds hall hparse
  have hhead : ∀ t, ts.head? = some t → t.kind ≠ .lineEnd := by
    intro t ht
    refine head_of_parseLine hread hitems ?_
    rw [List.head?_append, ht]
    rfl
  obtain ⟨core, more, hcore, hmore, hwhite⟩ := scan_trim hts (hc.cutsEscape_append hcut) hhead
  have hsplit : (ts ++ close).map Token.kind = (core ++ (more ++ close)).map Token.kind := by
    rw [← List.append_assoc, List.map_append, hmore, ← List.map_append]
  have hbehind : ∀ t ∈ more ++ close, t.kind = .blank ∨ t.kind = .lineEnd := by
    intro t ht
    exact (List.mem_append.mp ht).elim (hwhite t) fun h => .inr (hclose t h)
  have hlast : ∃ t, (core ++ (more ++ close)).getLast? = some t ∧ t.kind = .lineEnd := by
    have hsame := hall.trans hsplit
    refine getLast?_of_whole ?_ ?_
    · rw [← isClosed_kinds hsame, isClosed_append]
      · exact isClosed_tokenize hline
      · intro hnil
        have hclosed := isClosed_tokenize hline
        rw [hnil] at hclosed
        cases hclosed
    · rw [← endsInCont_kinds hsame]
      exact hwhole
  have htokens : tokenize (trim isWhite (c.text ++ line)) =
      .ok (if isClosed core then core else core ++ [⟨.lineEnd, (trim isWhite (c.text ++ line)).toList.length⟩]) := by
    rw [tokenize_eq, toList_trim, String.toList_append, hcore]
    rfl
  refine parseText_of htokens ?_
  exact parseLine_trims (trims_closed hbehind hlast _) (parseLine_ok_of_kinds hsplit hread)

end TurtleLogo
