import Mathlib
import TurtleLogo.Proofs.Lexer.Escapes
import TurtleLogo.Text.Trim

/-!
# Lines without the white space around them

Of white space the scan knows blanks and line ends. Text without the white space around it has the same tokens but for
those that blanks and line ends gave, unless the last backslash of the text has lost the character that it stood before.

* `stepped_white` : a step from white space;
* `Margin` : white space behind text, whose border it stands at (`Margin.border`);
* `step_trimmed`, `scan_trimmed` : a step, and the scan, of text without the white space behind it;
* `cutsEscape` : whether a backslash loses its character, `scan_trim` : the scan of text without the white space around it;
* `scan_ended` : the last token of text that ends in a line end.
-/

namespace TurtleLogo

namespace Lexer

open Text

/-! ## White space -/

theorem isWhite_of_isBlank {c : Char} (h : isBlank c = true) : isWhite c = true := by
  simp only [isBlank, Bool.or_eq_true, beq_iff_eq] at h
  rcases h with rfl | rfl
  · decide
  · decide

theorem isWordChar_of_isWhite {c : Char} (h : isWhite c = true) : isWordChar c = false := by
  rw [Bool.eq_false_iff]
  intro hword
  have hwhite := h
  simp only [isWhite, Bool.or_eq_true, Bool.and_eq_true, decide_eq_true_eq, beq_iff_eq] at hwhite
  simp only [isWordChar, Char.isAlphanum, Char.isAlpha, Char.isUpper, Char.isLower, Char.isDigit, Bool.or_eq_true,
    Bool.and_eq_true, decide_eq_true_eq, ge_iff_le, UInt32.le_iff_toNat_le, beq_iff_eq] at hword
  rcases hword with ((((hc | hc) | hc) | rfl) | rfl) | rfl
  · have hupper : 65 ≤ c.toNat ∧ c.toNat ≤ 90 := hc
    omega
  · have hlower : 97 ≤ c.toNat ∧ c.toNat ≤ 122 := hc
    omega
  · have hdigit : 48 ≤ c.toNat ∧ c.toNat ≤ 57 := hc
    omega
  · cases h
  · cases h
  · cases h

theorem ne_of_isWhite {c d : Char} (h : isWhite c = true) (hd : isWhite d = false) : c ≠ d := by
  rintro rfl
  rw [h] at hd
  cases hd

theorem stepped_white {fresh : Bool} {col : Nat} {c : Char} {rest : List Char} {s : Step} (hc : isWhite c = true)
    (h : step fresh col c rest = .ok s) :
    (isBlank c = true ∧ s = ⟨if fresh then none else some .blank, (rest.takeWhile isBlank).length⟩) ∨
      (c = '\n' ∧ s = ⟨some .lineEnd, 0⟩) := by
  have hne {d : Char} (hd : isWhite d = false) : c ≠ d := ne_of_isWhite hc hd
  cases stepped_of_step h with
  | blank hb => exact .inl ⟨hb, rfl⟩
  | lineEnd hn => exact .inr ⟨hn, rfl⟩
  | lineCont hd _ | comment hd | less hd | greater hd | var hd | word hd => exact absurd hd (hne (by decide))
  | symbol hk =>
    unfold symbol? at hk
    split at hk
    all_goals first | exact absurd hc (by decide) | cases hk
  | bare hw _ =>
    rw [readWord_stop (hne (by decide)) (isWordChar_of_isWhite hc)] at hw
    cases hw

theorem Scanned.white {fresh : Bool} {col : Nat} {line : List Char} {ts : List Token} (h : Scanned fresh col line ts)
    (hline : ∀ c ∈ line, isWhite c = true) : ∀ t ∈ ts, t.kind = .blank ∨ t.kind = .lineEnd := by
  induction h with
  | nil => simp
  | @cons fresh col c rest s tokens hs _ ih =>
    intro t htoken
    rcases List.mem_append.mp htoken with hfirst | hmore
    · rcases stepped_white (hline c List.mem_cons_self) hs with ⟨-, rfl⟩ | ⟨-, rfl⟩
      · cases fresh with
        | true => cases hfirst
        | false =>
          obtain rfl := List.mem_singleton.mp hfirst
          exact .inl rfl
      · obtain rfl := List.mem_singleton.mp hfirst
        exact .inr rfl
    · exact ih (fun d hd => hline d (List.mem_cons_of_mem _ (List.mem_of_mem_drop hd))) t hmore

/-! ## White space behind text -/

/-- White space behind text where no escape is cut. -/
structure Margin (core tail : List Char) : Prop where
  last : ∀ c, core.getLast? = some c → isWhite c = false
  white : ∀ c ∈ tail, isWhite c = true
  whole : endsInEscape false core = true → ∀ c, tail.head? = some c → c = '\n'

theorem Margin.border {core tail : List Char} (h : Margin core tail) : Border core tail where
  stops c hc := by
    have hwhite := h.white c (List.mem_of_mem_head? hc)
    exact ⟨isWordChar_of_isWhite hwhite, ne_of_isWhite hwhite (by decide), ne_of_isWhite hwhite (by decide)⟩
  blanks c _ hc _ hb := by
    have hwhite := isWhite_of_isBlank hb
    rw [h.last c hc] at hwhite
    cases hwhite
  whole := h.whole

/-- A step from text with white space behind it reads the same without that, or reaches the end of the text. -/
theorem step_trimmed {fresh : Bool} {col : Nat} {c : Char} {core tail : List Char} {s : Step}
    (hmargin : Margin (c :: core) tail) (h : step fresh col c (core ++ tail) = .ok s) :
    (step fresh col c core = .ok s ∧ (c = '\\' → core ≠ [])) ∨
      ∃ s', step fresh col c core = .ok s' ∧ s'.lexeme = s.lexeme ∧ s'.more = core.length ∧ core.length ≤ s.more := by
  by_cases hcomment : c = ';'
  · subst hcomment
    rw [step_comment_eq] at h
    cases h
    rw [List.takeWhile_append]
    split
    · next hall =>
      refine .inr ⟨_, step_comment_eq fresh col core, rfl, hall, ?_⟩
      rw [List.length_append]
      exact Nat.le_add_right _ _
    · exact .inl ⟨step_comment_eq fresh col core, fun hc => absurd hc (by decide)⟩
  · by_cases hc : c = '\\'
    · subst hc
      cases core with
      | cons d core =>
        have hcore : '\\' = '\\' → d :: core ≠ [] := fun _ => List.cons_ne_nil d core
        rw [step_border fresh col hmargin.border hcomment hcore] at h
        exact .inl ⟨h, hcore⟩
      | nil =>
        have hcont : continues tail = true := by
          cases tail with
          | nil => rfl
          | cons d tail =>
            obtain rfl := hmargin.whole rfl d rfl
            rfl
        rw [List.nil_append, step_cont_eq fresh col hcont] at h
        cases h
        exact .inr ⟨_, step_cont_eq fresh col rfl, rfl, rfl, Nat.zero_le _⟩
    · have hcore : c = '\\' → core ≠ [] := fun heq => absurd heq hc
      rw [step_border fresh col hmargin.border hcomment hcore] at h
      exact .inl ⟨h, hcore⟩

/-- What a step leaves of the text has the same white space behind it. -/
theorem Margin.drop {fresh : Bool} {col : Nat} {c : Char} {core tail : List Char} {s : Step}
    (hmargin : Margin (c :: core) tail) (h : step fresh col c core = .ok s) (hlast : c = '\\' → core ≠ []) :
    Margin (core.drop s.more) tail where
  last d hd := by
    refine hmargin.last d ?_
    rw [List.getLast?_drop] at hd
    split at hd
    · cases hd
    · rw [List.getLast?_cons, hd]
      rfl
  white := hmargin.white
  whole := (hmargin.border.drop h hlast).whole

/-- **The scan of text with white space behind it** is that of the text, and then blanks and line ends. -/
theorem scan_trimmed : ∀ (fresh : Bool) (col : Nat) (core tail : List Char) (ts : List Token), Margin core tail →
    scan fresh col (core ++ tail) = .ok ts →
    ∃ ts' more, scan fresh col core = .ok ts' ∧ ts = ts' ++ more ∧ ∀ t ∈ more, t.kind = .blank ∨ t.kind = .lineEnd
  | fresh, col, [], tail, ts, hmargin, h =>
    ⟨[], ts, scan_nil fresh col, rfl, (scanned_of_scan h).white hmargin.white⟩
  | fresh, col, c :: core, tail, ts, hmargin, h => by
    rw [List.cons_append] at h
    obtain ⟨s, tokens, hs, ht, rfl⟩ := scan_cons_ok h
    rcases step_trimmed hmargin hs with ⟨hstep, hlast⟩ | ⟨s', hstep, hlexeme, hmore, hle⟩
    · rw [List.drop_append_of_le_length (more_le_of_step hstep)] at ht
      obtain ⟨ts', more, hscan, rfl, hwhite⟩ := scan_trimmed _ _ _ _ _ (hmargin.drop hstep hlast) ht
      exact ⟨_, more, scan_cons_of_step hstep hscan, (List.append_assoc _ _ _).symm, hwhite⟩
    · have hend : scan s'.endsLine (col + s'.more + 1) (core.drop s'.more) = .ok [] := by
        rw [hmore, List.drop_length, scan_nil]
      refine ⟨_, tokens, scan_cons_of_step hstep hend, ?_, (scanned_of_scan ht).white fun d hd => ?_⟩
      · rw [hlexeme, List.append_nil]
      · rw [List.drop_append, List.drop_eq_nil_of_le hle, List.nil_append] at hd
        exact hmargin.white d (List.mem_of_mem_drop hd)
termination_by _ _ core => core.length
decreasing_by simp only [List.length_drop, List.length_cons]; omega

/-! ## White space around text -/

/-- A scan that begins with no blank may as well begin a line. -/
theorem scan_fresh {col : Nat} {line : List Char} (h : ∀ c, line.head? = some c → isBlank c = false) :
    scan false col line = scan true col line := by
  cases line with
  | nil => rw [scan_nil, scan_nil]
  | cons c rest =>
    have hstep : step false col c rest = step true col c rest := by
      unfold step
      simp only [h c rfl, Bool.false_eq_true, if_false]
    rw [scan_cons, scan_cons, hstep]

/-- White space before text is blanks, which say nothing, or the scan begins with a line end. -/
theorem scan_leading {col : Nat} {lead body : List Char} {ts : List Token} (hlead : ∀ c ∈ lead, isWhite c = true)
    (hbody : ∀ c, body.head? = some c → isWhite c = false) (h : scan true col (lead ++ body) = .ok ts) :
    (∃ t, ts.head? = some t ∧ t.kind = .lineEnd) ∨ ∃ col', scan true col' body = .ok ts := by
  have hblank : ∀ c, body.head? = some c → isBlank c = false := by
    intro c hc
    rw [Bool.eq_false_iff]
    intro hb
    have hwhite := isWhite_of_isBlank hb
    rw [hbody c hc] at hwhite
    cases hwhite
  cases lead with
  | nil => exact .inr ⟨col, h⟩
  | cons c lead =>
    rw [List.cons_append] at h
    obtain ⟨s, tokens, hs, ht, rfl⟩ := scan_cons_ok h
    rcases stepped_white (hlead c List.mem_cons_self) hs with ⟨-, rfl⟩ | ⟨-, rfl⟩
    · simp only [if_true, Option.map_none, Option.toList_none, List.nil_append, Step.endsLine, Option.any_none] at ht ⊢
      rw [drop_takeWhile, List.dropWhile_append] at ht
      cases hrest : lead.dropWhile isBlank with
      | nil =>
        have hdrop : body.dropWhile isBlank = body := by
          cases body with
          | nil => rfl
          | cons b body => exact List.dropWhile_cons_of_neg (by simp [hblank b rfl])
        rw [hrest, hdrop] at ht
        simp only [List.isEmpty_nil, if_true] at ht
        exact .inr ⟨_, (scan_fresh hblank).symm.trans ht⟩
      | cons d rest =>
        have hd : isBlank d = false := by
          have hhead := List.head?_dropWhile_not isBlank lead
          rw [hrest] at hhead
          simpa using hhead
        have hmem : d ∈ lead := (List.dropWhile_suffix isBlank).subset (by
          rw [hrest]
          exact List.mem_cons_self)
        rw [hrest] at ht
        simp only [List.isEmpty_cons, Bool.false_eq_true, if_false, List.cons_append] at ht
        obtain ⟨s, more, hs, -, rfl⟩ := scan_cons_ok ht
        rcases stepped_white (hlead d (List.mem_cons_of_mem _ hmem)) hs with ⟨hb, -⟩ | ⟨-, rfl⟩
        · rw [hd] at hb
          cases hb
        · exact .inl ⟨_, rfl, rfl⟩
    · exact .inl ⟨_, rfl, rfl⟩

theorem endsInEscape_leading {lead : List Char} (h : ∀ c ∈ lead, isWhite c = true) (rest : List Char) :
    endsInEscape false (lead ++ rest) = endsInEscape false rest := by
  induction lead with
  | nil => rfl
  | cons c lead ih =>
    have hc := h c List.mem_cons_self
    rw [List.cons_append, endsInEscape_cons (ne_of_isWhite hc (by decide)) (ne_of_isWhite hc (by decide))]
    exact ih fun d hd => h d (List.mem_cons_of_mem _ hd)

/-- Text that has more than white space behind `front` ends as that does. -/
theorem rdropWhile_append (front : List Char) {back : List Char} (h : back.rdropWhile isWhite ≠ []) :
    (front ++ back).rdropWhile isWhite = front ++ back.rdropWhile isWhite ∧
      (front ++ back).rtakeWhile isWhite = back.rtakeWhile isWhite := by
  have hne : back.reverse.dropWhile isWhite ≠ [] := by
    intro hnil
    exact h (by rw [List.rdropWhile, hnil]; rfl)
  have hempty : (back.reverse.dropWhile isWhite).isEmpty = false := by simpa using hne
  have hsplit := List.takeWhile_append_dropWhile (p := isWhite) (l := back.reverse)
  constructor
  · rw [List.rdropWhile, List.reverse_append, List.dropWhile_append, hempty, List.rdropWhile]
    simp
  · rw [List.rtakeWhile, List.reverse_append, List.takeWhile_append, if_neg, List.rtakeWhile]
    intro hall
    rw [List.Sublist.eq_of_length (List.takeWhile_sublist _) hall] at hsplit
    simp only [List.append_right_eq_self] at hsplit
    exact hne hsplit

end Lexer

open Lexer Text

/-- Whether a line without the white space behind it ends in a backslash that has lost the character it stood before. -/
def cutsEscape (line : List Char) : Bool :=
  endsInEscape false (line.rdropWhile isWhite) && (line.rtakeWhile isWhite).head?.any (· != '\n')

namespace Lexer

theorem margin_of_cutsEscape {line : List Char} (h : cutsEscape line = false) :
    Margin (line.rdropWhile isWhite) (line.rtakeWhile isWhite) where
  last c hc := by
    have hne : line.rdropWhile isWhite ≠ [] := by
      intro hnil
      rw [hnil] at hc
      cases hc
    rw [List.getLast?_eq_some_getLast hne] at hc
    cases hc
    simpa using List.rdropWhile_last_not isWhite line hne
  white c hc := List.mem_rtakeWhile_imp hc
  whole hescape c hc := by
    rw [cutsEscape, hescape, hc] at h
    simpa using h

/-- What is cut does not depend on the white space before the text. -/
theorem cutsEscape_dropWhile (line : List Char) : cutsEscape (line.dropWhile isWhite) = cutsEscape line := by
  have hsplit := List.takeWhile_append_dropWhile (p := isWhite) (l := line)
  have hlead : ∀ c ∈ line.takeWhile isWhite, isWhite c = true := fun c hc => List.mem_takeWhile_imp hc
  by_cases h : (line.dropWhile isWhite).rdropWhile isWhite = []
  · have hnil : line.rdropWhile isWhite = [] := by
      rw [List.rdropWhile_eq_nil_iff] at h ⊢
      intro c hc
      rw [← hsplit] at hc
      exact (List.mem_append.mp hc).elim (hlead c) (h c)
    rw [cutsEscape, cutsEscape, h, hnil]
    rfl
  · obtain ⟨hcore, htail⟩ := rdropWhile_append (line.takeWhile isWhite) h
    rw [hsplit] at hcore htail
    rw [cutsEscape, cutsEscape, hcore, htail, endsInEscape_leading hlead]

/-- **The scan of text without the white space around it**, where no escape is cut and no line end comes first: the same
up to columns, but for blanks and line ends behind it. -/
theorem scan_trim {line : List Char} {ts : List Token} (h : scan true 0 line = .ok ts) (hcut : cutsEscape line = false)
    (hhead : ∀ t, ts.head? = some t → t.kind ≠ .lineEnd) :
    ∃ ts' more, scan true 0 ((line.dropWhile isWhite).rdropWhile isWhite) = .ok ts' ∧
      ts.map Token.kind = (ts' ++ more).map Token.kind ∧ ∀ t ∈ more, t.kind = .blank ∨ t.kind = .lineEnd := by
  have hbody : ∀ c, (line.dropWhile isWhite).head? = some c → isWhite c = false := by
    intro c hc
    have hnot := List.head?_dropWhile_not isWhite line
    rw [hc] at hnot
    simpa using hnot
  rw [← List.takeWhile_append_dropWhile (p := isWhite) (l := line)] at h
  rcases scan_leading (fun c hc => List.mem_takeWhile_imp hc) hbody h with ⟨t, ht, hkind⟩ | ⟨col, hscan⟩
  · exact absurd hkind (hhead t ht)
  · have hmargin := margin_of_cutsEscape ((cutsEscape_dropWhile line).trans hcut)
    rw [← List.rdropWhile_append_rtakeWhile (p := isWhite) (l := line.dropWhile isWhite)] at hscan
    obtain ⟨ts', more, hcore, rfl, hmore⟩ := scan_trimmed true col _ _ ts hmargin hscan
    rcases sayings_cases (scan_kinds true 0 col ((line.dropWhile isWhite).rdropWhile isWhite)) with
      ⟨us, us', hu, hu', hkinds⟩ | ⟨e, e', -, he, -⟩
    · rw [hcore] at hu'
      cases hu'
      exact ⟨us, more, hu, by rw [List.map_append, List.map_append, hkinds], hmore⟩
    · rw [hcore] at he
      cases he

/-! ## Text that ends in a line end -/

/-- The step that takes a line end without being one is that of a continuation. -/
theorem eq_backslash_of_step {fresh : Bool} {col : Nat} {c : Char} {s : Step}
    (h : step fresh col c ['\n'] = .ok s) (hmore : s.more = 1) : c = '\\' := by
  cases stepped_of_step h with
  | lineCont hc _ => exact hc
  | bare hw _ =>
    have hle := (readWord_line [c] []).2
    rw [List.cons_append, List.nil_append, hw] at hle
    simp only [List.length_singleton] at hle hmore
    omega
  | less _ | greater _ | var _ | word _ | blank _ | comment _ | lineEnd _ | symbol _ => cases hmore

theorem scan_ended : ∀ (fresh : Bool) (col : Nat) (line : List Char) (ts : List Token),
    scan fresh col (line ++ ['\n']) = .ok ts →
    (∃ t, ts.getLast? = some t ∧ t.kind = .lineEnd) ∨ ['\\'] <:+ line
  | fresh, col, [], ts, h => by
    obtain ⟨s, tokens, hs, ht, rfl⟩ := scan_cons_ok h
    cases hs
    simp only [List.drop_nil, scan_nil] at ht
    cases ht
    exact .inl ⟨_, rfl, rfl⟩
  | fresh, col, c :: line, ts, h => by
    rw [List.cons_append] at h
    obtain ⟨s, tokens, hs, ht, rfl⟩ := scan_cons_ok h
    rcases step_more_le hs with hle | ⟨rfl, hcont⟩
    · rw [List.drop_append_of_le_length hle] at ht
      rcases scan_ended _ _ (line.drop s.more) tokens ht with ⟨t, hlast, hkind⟩ | hsuffix
      · refine .inl ⟨t, ?_, hkind⟩
        rw [List.getLast?_append, hlast]
        rfl
      · exact .inr ((hsuffix.trans (List.drop_suffix _ _)).trans (List.suffix_cons c line))
    · obtain rfl := eq_backslash_of_step hs (by rw [hcont])
      exact .inr (List.suffix_refl _)
termination_by _ _ line => line.length
decreasing_by simp only [List.length_drop, List.length_cons]; omega

end Lexer

end TurtleLogo
