import Mathlib
import TurtleLogo.Fault
import TurtleLogo.Proofs.Lexer.Escapes

/-!
# How a line ends

A line is closed by a line end in the text, by a last backslash, or else by a line end that is put behind its last
character. A line end and a comment behind the text choose between these, and leave the tokens as they are.

* `step_newline`, `scan_newline` : a step, and the scan, of text with a line end behind it;
* `step_comment`, `scan_comment` : a step, and the scan, of text with a comment behind it;
* `Scanned.isClosed_eq` : whether the tokens that were scanned are closed;
* `line_ending_irrelevant` : a line end or a comment behind a line changes none of its tokens.
-/

namespace TurtleLogo

open Text

namespace Lexer

/-! ## A line end behind the text -/

theorem border_newline (core : List Char) : Border core ['\n'] where
  stops c hc := by
    cases hc
    decide
  blanks _ d _ hd _ := by
    cases hd
    decide
  whole _ c hc := by
    cases hc
    rfl

theorem step_newline (fresh : Bool) (col : Nat) {c : Char} {rest : List Char} (hlast : c = '\\' → rest ≠ []) :
    step fresh col c (rest ++ ['\n']) = step fresh col c rest := by
  by_cases hcomment : c = ';'
  · subst hcomment
    rw [step_comment_eq, step_comment_eq, takeWhile_line (by decide)]
  · exact step_border fresh col (border_newline _) hcomment hlast

/-- **The scan of text with a line end behind it** has that for its last token, unless a backslash waits for it. -/
theorem scan_newline : ∀ (fresh : Bool) (col : Nat) (line : List Char),
    scan fresh col (line ++ ['\n']) = (scan fresh col line).map fun ts =>
      if endsInEscape false line then ts else ts ++ [⟨.lineEnd, col + line.length⟩]
  | fresh, col, [] => by
    rw [List.nil_append, scan_nil, scan_cons_of_step (step_newline_eq fresh col []) (scan_nil _ _)]
    rfl
  | fresh, col, c :: rest => by
    by_cases hend : c = '\\' ∧ rest = []
    · obtain ⟨rfl, rfl⟩ := hend
      rw [List.cons_append, List.nil_append, scan_cons_of_step (step_cont_eq fresh col rfl) (scan_nil _ _),
        scan_cons_of_step (step_cont_eq fresh col rfl) (scan_nil _ _)]
      rfl
    · have hlast : c = '\\' → rest ≠ [] := fun hc hrest => hend ⟨hc, hrest⟩
      rw [List.cons_append, scan_cons, scan_cons, step_newline fresh col hlast]
      cases hs : step fresh col c rest with
      | error e => rfl
      | ok s =>
        have hle := more_le_of_step hs
        have hcol : col + s.more + 1 + (rest.drop s.more).length = col + (c :: rest).length := by
          rw [List.length_drop, List.length_cons]
          omega
        have ih := scan_newline s.endsLine (col + s.more + 1) (rest.drop s.more)
        rw [endsInEscape_step hs hlast, hcol] at ih
        simp only [bind, Except.bind, List.drop_append_of_le_length hle, ih]
        cases scan s.endsLine (col + s.more + 1) (rest.drop s.more) with
        | error e => rfl
        | ok tokens =>
          refine congrArg Except.ok ?_
          split
          · rfl
          · exact (List.append_assoc _ _ _).symm
termination_by _ _ line => line.length
decreasing_by simp only [List.length_drop, List.length_cons]; omega

/-! ## A comment behind the text -/

theorem border_comment {core : List Char} (h : endsInEscape false core = false) (comment : List Char) :
    Border core (';' :: comment) where
  stops c hc := by
    cases hc
    decide
  blanks _ d _ hd _ := by
    cases hd
    decide
  whole hescape := by
    rw [h] at hescape
    cases hescape

theorem step_semicolon (fresh : Bool) (col : Nat) {comment : List Char} (h : '\n' ∉ comment) :
    step fresh col ';' comment = .ok ⟨none, comment.length⟩ := by
  have hall : comment.takeWhile (· != '\n') = comment := by
    refine List.takeWhile_eq_self_iff.mpr fun d hd => bne_iff_ne.mpr ?_
    rintro rfl
    exact h hd
  rw [step_comment_eq, hall]

/-- A step stops before a comment behind the text, or is itself a comment that takes that in. -/
theorem step_comment (fresh : Bool) (col : Nat) {c : Char} {rest comment : List Char} (hcomment : '\n' ∉ comment)
    (h : endsInEscape false (c :: rest) = false) :
    step fresh col c (rest ++ ';' :: comment) = step fresh col c rest ∨
      step fresh col c rest = .ok ⟨none, rest.length⟩ ∧
        step fresh col c (rest ++ ';' :: comment) = .ok ⟨none, (rest ++ ';' :: comment).length⟩ := by
  by_cases hc : c = ';'
  · subst hc
    by_cases hrest : '\n' ∈ rest
    · obtain ⟨line, more, rfl⟩ := List.append_of_mem hrest
      refine .inl ?_
      rw [List.append_assoc, List.cons_append, step_line, ← step_line fresh col ';' line more]
    · refine .inr ⟨step_semicolon fresh col hrest, step_semicolon fresh col ?_⟩
      simp [hrest, hcomment]
  · refine .inl (step_border fresh col (border_comment h comment) hc ?_)
    rintro rfl rfl
    cases h

/-- **The scan of text with a comment behind it** is that of the text, unless a backslash takes the semicolon. -/
theorem scan_comment {comment : List Char} (hcomment : '\n' ∉ comment) : ∀ (fresh : Bool) (col : Nat) (line : List Char),
    endsInEscape false line = false → scan fresh col (line ++ ';' :: comment) = scan fresh col line
  | fresh, col, [], _ => by
    have hend : scan false (col + comment.length + 1) (comment.drop comment.length) = .ok [] := by
      rw [List.drop_length, scan_nil]
    rw [List.nil_append, scan_nil, scan_cons_of_step (step_semicolon fresh col hcomment) hend]
    rfl
  | fresh, col, c :: rest, hescape => by
    rw [List.cons_append, scan_cons, scan_cons]
    rcases step_comment fresh col hcomment hescape with hsame | ⟨hshort, hlong⟩
    · rw [hsame]
      cases hs : step fresh col c rest with
      | error e => rfl
      | ok s =>
        have hlast : c = '\\' → rest ≠ [] := by
          rintro rfl rfl
          cases hescape
        rw [← endsInEscape_step hs hlast] at hescape
        have ih := scan_comment hcomment s.endsLine (col + s.more + 1) (rest.drop s.more) hescape
        simp only [bind, Except.bind, List.drop_append_of_le_length (more_le_of_step hs), ih]
    · rw [hshort, hlong]
      simp only [bind, Except.bind, List.drop_length, scan_nil]
termination_by _ _ line => line.length
decreasing_by simp only [List.length_drop, List.length_cons]; omega

/-! ## Closed tokens -/

theorem eq_of_endsLine {fresh : Bool} {col : Nat} {c : Char} {rest : List Char} {s : Step}
    (h : step fresh col c rest = .ok s) (hend : s.endsLine = true) : c = '\n' ∨ c = '\\' ∧ continues rest = true := by
  cases stepped_of_step h with
  | blank _ => cases fresh <;> cases hend
  | lineEnd hc => exact .inl hc
  | lineCont hc hcont => exact .inr ⟨hc, hcont⟩
  | comment _ | var _ | word _ => cases hend
  | less _ | greater _ =>
    unfold comparison at hend
    split at hend <;> cases hend
  | symbol hk =>
    unfold symbol? at hk
    split at hk <;> cases hk <;> cases hend
  | bare _ hk => rcases bareWord_cases hk with ⟨_, rfl⟩ | ⟨_, rfl⟩ | rfl <;> cases hend

variable {fresh : Bool} {col : Nat} {line : List Char} {ts : List Token}

/-- Text that ends in an escape goes on: its last token is a continuation. -/
theorem Scanned.getLast?_of_escape (h : Scanned fresh col line ts) (hescape : endsInEscape false line = true) :
    ∃ t, ts.getLast? = some t ∧ t.kind = .lineCont := by
  induction h with
  | nil => cases hescape
  | @cons fresh col c rest s tokens hs ht ih =>
    by_cases hend : c = '\\' ∧ rest = []
    · obtain ⟨rfl, rfl⟩ := hend
      cases hs
      cases ht
      exact ⟨_, rfl, rfl⟩
    · rw [← endsInEscape_step hs fun hc hrest => hend ⟨hc, hrest⟩] at hescape
      obtain ⟨t, hlast, hkind⟩ := ih hescape
      refine ⟨t, ?_, hkind⟩
      rw [List.getLast?_append, hlast]
      rfl

/-- Text without line ends that ends in no escape has no token that ends a line. -/
theorem Scanned.endsLine_eq_false (h : Scanned fresh col line ts) (hline : '\n' ∉ line)
    (hescape : endsInEscape false line = false) : ∀ t ∈ ts, t.kind.endsLine = false := by
  induction h with
  | nil => simp
  | @cons fresh col c rest s tokens hs _ ih =>
    have hlast : c = '\\' → rest ≠ [] := by
      rintro rfl rfl
      cases hescape
    have hstep : s.endsLine = false := by
      rw [Bool.eq_false_iff]
      intro hend
      rcases eq_of_endsLine hs hend with rfl | ⟨hc, hcont⟩
      · exact hline List.mem_cons_self
      · cases rest with
        | nil => exact hlast hc rfl
        | cons d rest =>
          obtain rfl : d = '\n' := by simpa [continues] using hcont
          exact hline (List.mem_cons_of_mem _ List.mem_cons_self)
    intro t htoken
    rcases List.mem_append.mp htoken with hfirst | hmore
    · cases hk : s.lexeme with
      | none => simp [hk] at hfirst
      | some k =>
        rw [Step.endsLine, hk] at hstep
        rw [hk] at hfirst
        obtain rfl := List.mem_singleton.mp hfirst
        exact hstep
    · rw [← endsInEscape_step hs hlast] at hescape
      exact ih (fun hmem => hline (List.mem_cons_of_mem _ (List.mem_of_mem_drop hmem))) hescape t hmore

/-- Text without line ends is closed by its scan iff it ends in an escape. -/
theorem Scanned.isClosed_eq (h : Scanned fresh col line ts) (hline : '\n' ∉ line) :
    isClosed ts = endsInEscape false line := by
  cases hescape : endsInEscape false line with
  | true =>
    obtain ⟨t, hlast, hkind⟩ := h.getLast?_of_escape hescape
    rw [isClosed, hlast]
    simp [hkind, Lexeme.endsLine]
  | false =>
    rw [isClosed, Option.any_eq_false]
    intro t hlast
    simp [h.endsLine_eq_false hline hescape t (List.mem_of_getLast? hlast)]

end Lexer

/-! ## Lines -/

open Lexer

theorem tokenize_newline {s : String} (hs : '\n' ∉ s.toList) : tokenize (s ++ "\n") = tokenize s := by
  have htext : (s ++ "\n").toList = s.toList ++ ['\n'] := String.toList_append
  rw [tokenize_eq, tokenize_eq, htext, scan_newline]
  cases hscan : scan true 0 s.toList with
  | error e => rfl
  | ok ts =>
    have hclosed := (scanned_of_scan hscan).isClosed_eq hs
    refine congrArg Except.ok ?_
    cases hescape : endsInEscape false s.toList with
    | true =>
      rw [hescape] at hclosed
      simp only [hclosed, if_true]
    | false =>
      rw [hescape] at hclosed
      have hend : isClosed (ts ++ [⟨.lineEnd, s.toList.length⟩]) = true := isClosed_append (by simp)
      simp only [hclosed, hend, Bool.false_eq_true, if_false, if_true, Nat.zero_add]

theorem failure_newline (e : Misspelling) (s : String) : e.failure (s ++ "\n") = e.failure s := by
  have htext : (s ++ "\n").toList.reverse = '\n' :: s.toList.reverse := by
    rw [String.toList_append]
    exact List.reverse_append
  have htrim : trimRight isNewline (s ++ "\n") = trimRight isNewline s := by
    rw [trimRight, htext, List.dropWhile_cons_of_pos (by decide)]
    rfl
  cases e with
  | strange c col => simp only [Misspelling.failure, htrim]
  | tooManyDigits count => rfl

/-- A line that is no continuation is closed by a line end behind it, whether a comment stands there or not. -/
theorem tokenize_comment {s comment : String} (hs : '\n' ∉ s.toList) (hcomment : '\n' ∉ comment.toList)
    {ts : List Token} (h : tokenize s = .ok ts) (hlast : ∀ t, ts.getLast? = some t → t.kind ≠ .lineCont) :
    ∃ front, ts = front ++ [⟨.lineEnd, s.length⟩] ∧
      tokenize (s ++ ";" ++ comment) = .ok (front ++ [⟨.lineEnd, (s ++ ";" ++ comment).length⟩]) := by
  obtain ⟨front, hfront, rfl⟩ := tokenize_ok h
  have hclosed := (scanned_of_scan hfront).isClosed_eq hs
  have hescape : endsInEscape false s.toList = false := by
    rw [Bool.eq_false_iff]
    intro hescape
    obtain ⟨t, ht, hkind⟩ := (scanned_of_scan hfront).getLast?_of_escape hescape
    rw [hclosed, hescape, if_pos rfl] at hlast
    exact hlast t ht hkind
  rw [hescape] at hclosed
  have htext : (s ++ ";" ++ comment).toList = s.toList ++ ';' :: comment.toList := by
    rw [String.toList_append, String.toList_append, List.append_assoc]
    rfl
  refine ⟨front, ?_, ?_⟩
  · rw [hclosed, String.length_toList]
    rfl
  · rw [tokenize_eq, htext, scan_comment hcomment true 0 s.toList hescape, hfront, ← htext, String.length_toList]
    simp only [bind, Except.bind, hclosed, Bool.false_eq_true, if_false]

/-- **A line end and a comment behind a line are irrelevant.** A line has the same tokens, at the same columns, or fails
in the same way, with and without a line end; and one that does not go on has the same tokens with a comment behind it,
only that the line end stands behind that. -/
theorem line_ending_irrelevant (s : String) (hs : '\n' ∉ s.toList) :
    tokenize (s ++ "\n") = tokenize s ∧ (∀ e : Misspelling, e.failure (s ++ "\n") = e.failure s) ∧
      ∀ ts, tokenize s = .ok ts → (∀ t, ts.getLast? = some t → t.kind ≠ .lineCont) →
        ∀ comment : String, '\n' ∉ comment.toList →
          ∃ front, ts = front ++ [⟨.lineEnd, s.length⟩] ∧
            tokenize (s ++ ";" ++ comment) = .ok (front ++ [⟨.lineEnd, (s ++ ";" ++ comment).length⟩]) := by
  refine ⟨tokenize_newline hs, fun e => failure_newline e s, ?_⟩
  intro ts hts hlast comment hcomment
  exact tokenize_comment hs hcomment hts hlast

/-- A line with an escaped semicolon and a blank at its end, and a comment that ends in a backslash. -/
theorem line_ending_irrelevant_escaped :
    tokenize "FD \\; \n" = tokenize "FD \\; " ∧
      tokenize "FD \\; ;up \\" = .ok [⟨.name "FD", 0⟩, ⟨.blank, 2⟩, ⟨.name ";", 3⟩, ⟨.blank, 5⟩, ⟨.lineEnd, 11⟩] := by
  have hline : '\n' ∉ "FD \\; ".toList := by decide
  obtain ⟨hsame, -, hcomment⟩ := line_ending_irrelevant "FD \\; " hline
  have htokens : tokenize "FD \\; " =
      .ok [⟨.name "FD", 0⟩, ⟨.blank, 2⟩, ⟨.name ";", 3⟩, ⟨.blank, 5⟩, ⟨.lineEnd, 6⟩] := by cbv
  obtain ⟨front, hfront, hresult⟩ := hcomment _ htokens (by simp) "up \\" (by decide)
  have hlist : [⟨.name "FD", 0⟩, ⟨.blank, 2⟩, ⟨.name ";", 3⟩, ⟨.blank, 5⟩] = front :=
    (congrArg List.dropLast hfront).trans List.dropLast_concat
  have htext : "FD \\; " ++ ";" ++ "up \\" = "FD \\; ;up \\" := by decide
  rw [htext, ← hlist] at hresult
  exact ⟨hsame, hresult⟩

end TurtleLogo
