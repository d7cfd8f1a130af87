import TurtleLogo.Proofs.Eval.Continuation
import TurtleLogo.Proofs.Lexer.Endings
import TurtleLogo.Proofs.Lexer.Shape
import TurtleLogo.Proofs.Lexer.Strangers
import TurtleLogo.Proofs.Parser.Blame
import TurtleLogo.Report

/-!
# Carets

A line that cannot be read fails with a fault that shows the line and a caret below one of its characters: a strange
character, or the first one of the token that is to blame. The line end that is put behind a line is never to blame.

* `Fault.PointsAt` : a fault shows one character of a line;
* `tokenize_strange`, `exists_blamed` : where the lexer and the parser fail;
* `diagnosed`, `Fault.PointsAt.diagnosed_eq` : the diagnosis of such a fault;
* `caret_in_line` : the fault of a line that cannot be read.
-/

namespace TurtleLogo

open Exec Lexer Parsing Text

structure Fault.PointsAt (f : Fault) (line : String) (col : Nat) : Prop where
  expr : f.expr = line
  shown : f.diagnosis = true
  within : col < line.length
  reported : f.col = some (col : Int)
  start : f.start = col
  stop : f.stop = col + 1

/-! ## Diagnoses -/

/-- The line to blame and a caret below it, with the part to blame and the caret marked in some way. -/
def diagnosed (mark : String → String) (f : Fault) : String :=
  let stop := f.markEnd
  "  " ++ slice f.expr 0 f.start ++ mark (slice f.expr f.start stop) ++ sliceFrom f.expr stop ++ "\n" ++
    "  " ++ times " " f.start ++ mark ("^" ++ times "~" (stop - f.start - 1))

theorem diagnose_eq (colour : Colour) (f : Fault) : diagnose colour f = diagnosed (bright colour) f := rfl

theorem position_natCast {length k : Nat} (h : k ≤ length) : position length k = k := by
  rw [position, if_neg (by omega), Int.toNat_natCast, Nat.min_eq_left h]

theorem slice_natCast (s : String) {i j : Nat} (hi : i ≤ s.length) (hj : j ≤ s.length) :
    slice s i j = String.ofList ((s.toList.take j).drop i) := by
  rw [slice, String.length_toList, position_natCast hi, position_natCast hj]

/-- A text is put together from what stands before a column, at it and behind it. -/
theorem slice_append_slice (s : String) {k : Nat} (hk : k < s.length) :
    slice s 0 k ++ slice s k (k + 1 : Nat) ++ sliceFrom s (k + 1 : Nat) = s := by
  have hbefore := slice_natCast s (Nat.zero_le s.length) hk.le
  have hall : s.toList.take s.length = s.toList := List.take_of_length_le (le_of_eq String.length_toList)
  have htake : (s.toList.take (k + 1)).take k = s.toList.take k := by rw [List.take_take, Nat.min_eq_left k.le_succ]
  rw [Nat.cast_zero, List.drop_zero] at hbefore
  rw [sliceFrom, slice_natCast s hk le_rfl, slice_natCast s hk.le hk, hbefore, hall, ← String.ofList_append,
    ← String.ofList_append, ← htake, List.take_append_drop, List.take_append_drop, String.ofList_toList]

theorem times_succ (s : String) (n : Nat) : times s (n + 1 : Nat) = s ++ times s n := by
  rw [times, times, Int.toNat_natCast, Int.toNat_natCast, List.replicate_succ, String.join_cons]

variable {f : Fault} {line : String} {col : Nat}

theorem Fault.PointsAt.diagnosed_eq (h : f.PointsAt line col) (mark : String → String) :
    diagnosed mark f = "  " ++ slice line 0 col ++ mark (slice line col (col + 1 : Nat)) ++
      sliceFrom line (col + 1 : Nat) ++ "\n" ++ "  " ++ times " " col ++ mark "^" := by
  have hwithin := h.within
  have hmark : f.markEnd = (col + 1 : Nat) := by
    rw [Fault.markEnd, h.stop, h.start, h.expr]
    omega
  have hone : ((col + 1 : Nat) : Int) - col - 1 = 0 := by omega
  rw [diagnosed, hmark, h.start, h.expr, hone]
  rfl

/-- Without marks it is the line, and below it a caret behind two blanks more than there are characters before. -/
theorem Fault.PointsAt.diagnosed_id (h : f.PointsAt line col) :
    diagnosed id f = "  " ++ line ++ "\n" ++ times " " (col + 2 : Nat) ++ "^" := by
  have hline := slice_append_slice line h.within
  have hblanks : times " " (col + 2 : Nat) = "  " ++ times " " col := by
    rw [times_succ, times_succ, ← String.append_assoc]
    rfl
  rw [h.diagnosed_eq, hblanks]
  conv_rhs => rw [← hline]
  simp only [id, String.append_assoc]

/-! ## Where reading fails -/

theorem tokenize_strange {c : Char} (h : tokenize line = .error (.strange c col)) : line.toList[col]? = some c := by
  have hexplained := scan_explained true 0 line.toList
  rw [tokenize_eq] at h
  cases hscan : scan true 0 line.toList with
  | ok ts =>
    rw [hscan] at h
    cases h
  | error e =>
    rw [hscan] at h hexplained
    cases h
    cases hexplained with
    | strange hhead =>
      obtain ⟨i, hi, hget⟩ := mem_strangers (List.mem_of_head? hhead)
      rwa [hi, Nat.zero_add]

/-- The tokens of a line without line ends that does not go on: those of its characters, none of which ends a line, and
a line end behind them. -/
theorem exists_tokens_of_line {ts : List Token} (hline : '\n' ∉ line.toList) (hts : tokenize line = .ok ts)
    (hcont : endsInCont ts = false) :
    ∃ own, ts = own ++ [⟨.lineEnd, line.toList.length⟩] ∧ Scanned true 0 line.toList own ∧
      ∀ t ∈ own, t.kind.endsLine = false := by
  obtain ⟨own, hown, rfl⟩ := tokenize_ok hts
  have hscanned := scanned_of_scan hown
  have hclosed := hscanned.isClosed_eq hline
  have hescape : endsInEscape false line.toList = false := by
    rw [Bool.eq_false_iff]
    intro hescape
    obtain ⟨t, hlast, hkind⟩ := hscanned.getLast?_of_escape hescape
    rw [hclosed, hescape, if_pos rfl, endsInCont, hlast] at hcont
    simp [hkind] at hcont
  rw [hclosed, hescape, if_neg Bool.false_ne_true]
  exact ⟨own, rfl, hscanned, hscanned.endsLine_eq_false hline hescape⟩

theorem ParseError.not_fits_lineEnd (e : ParseError) : ¬ e.fits .lineEnd := by
  cases e <;> simp [ParseError.fits, Lexeme.isOperator]

/-- The token to blame stands at a character of the line. -/
theorem exists_blamed {ts : List Token} {e : ParseError} (hline : '\n' ∉ line.toList) (hts : tokenize line = .ok ts)
    (hcont : endsInCont ts = false) (he : parseLine ts = .error e) :
    ∃ t ∈ ts, e.token? = some t ∧ t.col < line.length := by
  obtain ⟨own, rfl, hscanned, hown⟩ := exists_tokens_of_line hline hts hcont
  have hwithin : ∀ t ∈ own, t.col < line.length := by
    intro t ht
    obtain ⟨i, c, hcol, hc, -⟩ := hscanned.placed t ht
    have hi := (List.getElem?_eq_some_iff.mp hc).1
    rw [String.length_toList] at hi
    omega
  cases parseLine_blames _ e he with
  | inside h =>
    obtain ⟨t, ht, htoken, hfits⟩ := h
    rcases List.mem_append.mp ht with hmem | hmem
    · exact ⟨t, ht, htoken, hwithin t hmem⟩
    · rw [List.mem_singleton.mp hmem] at hfits
      exact absurd hfits e.not_fits_lineEnd
  | @behind before after t u hsplit hend hmem _ =>
    obtain rfl | ⟨after, v, rfl⟩ := List.eq_nil_or_concat after
    · cases hmem
    · rw [List.concat_eq_append, ← List.cons_append, ← List.append_assoc] at hsplit
      have hends := hown t ((List.append_inj' hsplit rfl).1 ▸ List.mem_append_right _ List.mem_cons_self)
      rw [hend] at hends
      cases hends

/-! ## The fault -/

theorem trimRight_eq (hline : '\n' ∉ line.toList) : trimRight isNewline line = line := by
  have hkeep : line.toList.reverse.dropWhile isNewline = line.toList.reverse := by
    rw [List.dropWhile_eq_self_iff]
    intro hlength hlast
    refine hline (List.mem_reverse.mp ?_)
    have hmem := List.getElem_mem hlength
    rwa [beq_iff_eq.mp hlast] at hmem
  rw [trimRight, hkeep, List.reverse_reverse, String.ofList_toList]

theorem pointsAt_of_strange {c : Char} (hline : '\n' ∉ line.toList) (hc : line.toList[col]? = some c)
    (hf : ((Misspelling.strange c col).failure line).inLine line false = .fault f) :
    f.PointsAt line col ∧ f.cause = .strangeCharacter c.toString := by
  have hwithin : col < line.length := by
    rw [← String.length_toList]
    exact (List.getElem?_eq_some_iff.mp hc).1
  have hne : line.isEmpty = false := by
    rw [Bool.eq_false_iff, Ne, String.isEmpty_iff]
    rintro rfl
    cases hwithin
  simp only [Misspelling.failure, Failure.inLine, Fault.strange, Fault.locate, trimRight_eq hline, hne,
    Bool.false_eq_true, if_false, Failure.fault.injEq] at hf
  subst hf
  exact ⟨⟨rfl, rfl, hwithin, rfl, rfl, rfl⟩, rfl⟩

theorem pointsAt_of_blamed {ts : List Token} {e : ParseError} {t : Token} (hline : '\n' ∉ line.toList)
    (ht : e.token? = some t) (hwithin : t.col < line.length) (hf : (e.failure ts).inLine line false = .fault f) :
    f.PointsAt line t.col ∧ f.cause = .misread e := by
  have hcol : e.col ts = t.col := by rw [ParseError.col, ht]
  have hfault : e.failure ts = .fault (.reading (.misread e) (some (t.col : Int))) := by
    rw [← hcol]
    cases e with
    | tooLarge => cases hf
    | _ => rfl
  have hempty : ("" : String).isEmpty = true := rfl
  rw [hfault] at hf
  simp only [Failure.inLine, Fault.reading, Fault.locate, trimRight_eq hline, hempty, if_true,
    Failure.fault.injEq] at hf
  subst hf
  exact ⟨⟨rfl, rfl, hwithin, rfl, rfl, rfl⟩, rfl⟩

theorem pointsAt_of_readLine {w : Workspace} (hline : '\n' ∉ line.toList) (hw : w.continuation = {})
    (hread : (readLine line w).1 = .error (.fault f)) :
    ∃ col, f.PointsAt line col ∧
      ((∃ c, line.toList[col]? = some c ∧ f.cause = .strangeCharacter c.toString) ∨
        ∃ ts t e, tokenize line = .ok ts ∧ t ∈ ts ∧ t.col = col ∧ e.token? = some t ∧ f.cause = .misread e) := by
  rw [readLine_alone hw] at hread
  cases hts : tokenize line with
  | error e =>
    rw [hts] at hread
    injection hread with hf
    cases e with
    | tooManyDigits count => cases hf
    | strange c col =>
      have hc := tokenize_strange hts
      obtain ⟨hpoints, hcause⟩ := pointsAt_of_strange hline hc hf
      exact ⟨col, hpoints, .inl ⟨c, hc, hcause⟩⟩
  | ok ts =>
    rw [hts] at hread
    cases hcont : endsInCont ts with
    | true =>
      simp only [hcont, if_true] at hread
      cases hread
    | false =>
      simp only [hcont, Bool.false_eq_true, if_false] at hread
      cases he : parseLine ts with
      | ok items =>
        rw [he] at hread
        cases hread
      | error e =>
        rw [he] at hread
        injection hread with hf
        obtain ⟨t, hmem, htoken, hwithin⟩ := exists_blamed hline hts hcont he
        obtain ⟨hpoints, hcause⟩ := pointsAt_of_blamed hline htoken hwithin hf
        exact ⟨t.col, hpoints, .inr ⟨ts, t, e, rfl, hmem, rfl, htoken, hcause⟩⟩

theorem feed_of_readLine_error (ev : Evaluator) {w : Workspace} {e : Failure} (hw : w.continuation = {})
    (hread : (readLine line w).1 = .error e) : feed ev line w = (.error e, w) := by
  have hkept : readLine line w = (.error e, w) := by
    rcases readLine_cases line w with ⟨e', h⟩ | ⟨_, _, h⟩ | ⟨_, _, h⟩
    · rw [h] at hread
      cases hread
      rw [h, w.hold_eq_self hw]
    · rw [h] at hread
      cases hread
    · rw [h] at hread
      cases hread
  rw [feed, bind_apply, hkept]

/-- **Carets point at a real character.** Let a line without line ends fail while it is read, where no line goes on.

Then feeding it fails with the same fault and changes nothing. The fault shows one character of the line, which is
either a strange one, or the first one of the token that the error of the parser names. Without the colours, the
diagnosis is the line behind two blanks, and below it one caret under this character. -/
theorem caret_in_line (ev : Evaluator) {w : Workspace} (hline : '\n' ∉ line.toList) (hw : w.continuation = {})
    (hread : (readLine line w).1 = .error (.fault f)) :
    feed ev line w = (.error (.fault f), w) ∧
      ∃ col, f.PointsAt line col ∧
        ((∃ c, line.toList[col]? = some c ∧ f.cause = .strangeCharacter c.toString) ∨
          ∃ ts t e, tokenize line = .ok ts ∧ t ∈ ts ∧ t.col = col ∧ e.token? = some t ∧ f.cause = .misread e) ∧
        (∀ colour, diagnose colour f = diagnosed (bright colour) f) ∧
        diagnosed id f = "  " ++ line ++ "\n" ++ times " " (col + 2 : Nat) ++ "^" := by
  obtain ⟨col, hpoints, hcause⟩ := pointsAt_of_readLine hline hw hread
  exact ⟨feed_of_readLine_error ev hw hread, col, hpoints, hcause, fun colour => diagnose_eq colour f,
    hpoints.diagnosed_id⟩

/-- A bracket of the wrong kind, in a line of a procedure's body. -/
theorem caret_in_line_wrong_bracket :
    let w : Workspace := { definition := some { name := "P", formals := ["N"] } }
    ∃ f : Fault, feed (eval {} depthLimit) "FD [(:N]" w = (.error (.fault f), w) ∧
      diagnosed id f = "  FD [(:N]\n         ^" := by
  intro w
  have htokens : tokenize "FD [(:N]" = .ok [⟨.name "FD", 0⟩, ⟨.blank, 2⟩, ⟨.opener .square, 3⟩, ⟨.opener .round, 4⟩,
      ⟨.var "N", 5⟩, ⟨.closer .square, 7⟩, ⟨.lineEnd, 8⟩] := by decide +kernel
  have hparse : parseLine [⟨.name "FD", 0⟩, ⟨.blank, 2⟩, ⟨.opener .square, 3⟩, ⟨.opener .round, 4⟩, ⟨.var "N", 5⟩,
      ⟨.closer .square, 7⟩, ⟨.lineEnd, 8⟩] = .error (.wrongCloser .round ⟨.closer .square, 7⟩) := by cbv
  obtain ⟨f, hread, hstart⟩ : ∃ f : Fault, (readLine "FD [(:N]" w).1 = .error (.fault f) ∧ f.start = 7 := by
    rw [readLine_whole htokens rfl]
    dsimp only [w, List.nil_append]
    rw [hparse]
    exact ⟨_, rfl, rfl⟩
  obtain ⟨hfed, col, hpoints, -, -, hshown⟩ :=
    caret_in_line (eval {} depthLimit) (by decide) (rfl : w.continuation = {}) hread
  obtain rfl : col = 7 := by
    have hcol := hpoints.start.symm.trans hstart
    omega
  exact ⟨f, hfed, hshown⟩

end TurtleLogo
