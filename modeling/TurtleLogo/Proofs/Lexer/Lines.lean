import TurtleLogo.Proofs.Lexer.Steps

/-!
# Scanning line by line

No step of the scan looks past a line end, so the tokens of several physical lines are those of the first ones and those
of the rest. What the tokens say does not depend on the column that the scan begins at.

* `readWord_line`, `step_line` : a word and a step do not read past a line end;
* `scan_lines` : the scan of text that goes on after a line end;
* `Misspelling.uncol`, `scan_kinds` : the scan without columns;
* `isSilent`, `scan_ne_nil` : text without tokens.
-/

namespace TurtleLogo

namespace Lexer

/-! ## A line end stops every step -/

theorem readWord_line : ∀ (line rest : List Char),
    readWord (line ++ '\n' :: rest) = readWord (line ++ ['\n']) ∧
      (readWord (line ++ '\n' :: rest)).2 ≤ line.length
  | [], rest => by
    rw [List.nil_append, List.nil_append, readWord_newline, readWord_newline]
    exact ⟨rfl, Nat.le_refl 0⟩
  | c :: line, rest => by
    obtain ⟨heq, hle⟩ := readWord_line line rest
    cases hw : isWordChar c with
    | true =>
      rw [List.cons_append, List.cons_append, readWord_wordChar hw, readWord_wordChar hw, heq]
      exact ⟨rfl, by rw [← heq]; simpa using hle⟩
    | false =>
      by_cases hc : c = '\\'
      · subst hc
        cases line with
        | nil => exact ⟨by rw [List.cons_append, List.nil_append, readWord_cont]; rfl, by simp [readWord_cont]⟩
        | cons d line =>
          by_cases hd : d = '\n'
          · subst hd
            simp only [List.cons_append, readWord_cont, List.length_cons]
            exact ⟨trivial, Nat.zero_le _⟩
          · obtain ⟨heq', hle'⟩ := readWord_line line rest
            simp only [List.cons_append, readWord_escape hd, List.length_cons]
            exact ⟨by rw [heq'], by omega⟩
      · rw [List.cons_append, List.cons_append, readWord_stop hc hw, readWord_stop hc hw]
        exact ⟨rfl, Nat.zero_le _⟩

theorem takeWhile_line {p : Char → Bool} (hp : p '\n' = false) (line rest : List Char) :
    (line ++ '\n' :: rest).takeWhile p = line.takeWhile p := by
  induction line with
  | nil => simp [hp]
  | cons c line ih => simp only [List.cons_append, List.takeWhile_cons, ih]

theorem comparison_line (alone withEqual : Operator) (line rest : List Char) :
    comparison alone withEqual (line ++ '\n' :: rest) = comparison alone withEqual (line ++ ['\n']) := by
  cases line with
  | nil => rfl
  | cons c line => rw [List.cons_append, List.cons_append, comparison_cons, comparison_cons]

theorem comparison_more_le (alone withEqual : Operator) (line rest : List Char) :
    (comparison alone withEqual (line ++ '\n' :: rest)).more ≤ line.length := by
  cases line with
  | nil => exact Nat.le_refl 0
  | cons c line =>
    rw [List.cons_append, comparison_cons]
    split <;> simp

theorem continues_line (line rest : List Char) : continues (line ++ '\n' :: rest) = continues (line ++ ['\n']) := by
  cases line <;> rfl

theorem step_line (fresh : Bool) (col : Nat) (c : Char) (line rest : List Char) :
    step fresh col c (line ++ '\n' :: rest) = step fresh col c (line ++ ['\n']) := by
  have hb (r : List Char) := takeWhile_line (p := isBlank) (by decide) line r
  have hn (r : List Char) := takeWhile_line (p := (· != '\n')) (by decide) line r
  have hl (r : List Char) : min 1 (line ++ '\n' :: r).length = 1 := by
    rw [List.length_append, List.length_cons]
    omega
  have hw := (readWord_line (c :: line) rest).1
  rw [List.cons_append, List.cons_append] at hw
  unfold step
  rw [hb, hb, hn, hn, hl, hl, hw, (readWord_line line rest).1, comparison_line .less, comparison_line .greater,
    continues_line]

/-- A step stays within the line, unless it is the continuation that ends it. -/
theorem step_more_le {fresh : Bool} {col : Nat} {c : Char} {line rest : List Char} {s : Step}
    (h : step fresh col c (line ++ '\n' :: rest) = .ok s) :
    s.more ≤ line.length ∨ line = [] ∧ s = ⟨some .lineCont, 1⟩ := by
  have hn (p : Char → Bool) : (line.takeWhile p).length ≤ line.length := (List.takeWhile_sublist p).length_le
  cases stepped_of_step h with
  | blank _ | comment _ =>
    rw [takeWhile_line (by decide)]
    exact .inl (hn _)
  | lineCont _ _ =>
    cases line with
    | nil => exact .inr ⟨rfl, by simp⟩
    | cons d line => exact .inl (by simp)
  | less _ | greater _ => exact .inl (comparison_more_le _ _ _ _)
  | var _ | word _ => exact .inl (readWord_line line rest).2
  | bare hw _ =>
    have hle := (readWord_line (c :: line) rest).2
    rw [List.cons_append, hw, List.length_cons] at hle
    exact .inl (Nat.le_of_succ_le_succ hle)
  | lineEnd _ | symbol _ => exact .inl (Nat.zero_le _)

/-! ## The scan of several lines -/

/-- The scan of text that goes on after a line end: first the line, then the rest as if it began a line. -/
theorem scan_lines (fresh : Bool) (col : Nat) (line rest : List Char) :
    scan fresh col (line ++ '\n' :: rest) = scan fresh col (line ++ ['\n']) >>= fun tokens =>
      scan true (col + line.length + 1) rest >>= fun more => .ok (tokens ++ more) := by
  -- On the length of the line: a step leaves a shorter line, or is the continuation that ends it.
  cases line with
  | nil =>
    rw [List.nil_append, List.nil_append, scan_cons, scan_cons, step_newline_eq, step_newline_eq]
    simp [bind, Except.bind, Step.endsLine, Lexeme.endsLine, scan_nil]
  | cons c line =>
    rw [List.cons_append, List.cons_append, scan_cons, scan_cons, step_line]
    cases hs : step fresh col c (line ++ ['\n']) with
    | error e => rfl
    | ok s =>
      rw [← step_line fresh col c line rest] at hs
      rcases step_more_le hs with hle | ⟨rfl, rfl⟩
      · have hd (r : List Char) : (line ++ r).drop s.more = line.drop s.more ++ r := List.drop_append_of_le_length hle
        have hcol : col + s.more + 1 + (line.drop s.more).length + 1 = col + (c :: line).length + 1 := by
          rw [List.length_drop, List.length_cons]
          omega
        have ih := scan_lines s.endsLine (col + s.more + 1) (line.drop s.more) rest
        simp only [bind, Except.bind, hcol] at ih
        simp only [bind, Except.bind, hd, ih]
        cases scan s.endsLine (col + s.more + 1) (line.drop s.more ++ ['\n']) with
        | error e => rfl
        | ok tokens =>
          cases scan true (col + (c :: line).length + 1) rest with
          | error e => rfl
          | ok more => simp only [List.append_assoc]
      · simp only [bind, Except.bind, Step.endsLine, Option.any, Lexeme.endsLine, List.nil_append, List.drop_succ_cons,
          List.drop_zero, scan_nil, List.length_singleton, List.append_nil]
termination_by line.length
decreasing_by simp only [List.length_drop, List.length_cons]; omega

end Lexer

/-! ## Columns -/

theorem mapError_cases {ε δ α : Type} {x y : Except ε α} {f : ε → δ} (h : x.mapError f = y.mapError f) :
    (∃ a, x = .ok a ∧ y = .ok a) ∨ ∃ e e', x = .error e ∧ y = .error e' ∧ f e = f e' := by
  cases x with
  | error e =>
    cases y with
    | error e' => exact .inr ⟨e, e', rfl, rfl, Except.error.inj h⟩
    | ok b => cases h
  | ok a =>
    cases y with
    | error e' => cases h
    | ok b => exact .inl ⟨a, rfl, congrArg Except.ok (Except.ok.inj h).symm⟩

def Misspelling.uncol : Misspelling → Misspelling
  | .strange c _ => .strange c 0
  | .tooManyDigits count => .tooManyDigits count

namespace Lexer

/-- What scanned tokens say, or what is wrong, without columns. -/
def sayings (r : Except Misspelling (List Token)) : Except Misspelling (List Lexeme) :=
  (r.map (·.map Token.kind)).mapError Misspelling.uncol

theorem sayings_cases {x y : Except Misspelling (List Token)} (h : sayings x = sayings y) :
    (∃ ts us, x = .ok ts ∧ y = .ok us ∧ ts.map Token.kind = us.map Token.kind) ∨
      ∃ e e', x = .error e ∧ y = .error e' ∧ e.uncol = e'.uncol := by
  cases x with
  | error e =>
    cases y with
    | error e' => exact .inr ⟨e, e', rfl, rfl, Except.error.inj h⟩
    | ok us => cases h
  | ok ts =>
    cases y with
    | error e' => cases h
    | ok us => exact .inl ⟨ts, us, rfl, rfl, Except.ok.inj h⟩

theorem uncol_ite {α : Type} {p : Prop} [Decidable p] (x : Except Misspelling α) {y y' : Except Misspelling α}
    (h : y.mapError Misspelling.uncol = y'.mapError Misspelling.uncol) :
    (if p then x else y).mapError Misspelling.uncol = (if p then x else y').mapError Misspelling.uncol := by
  split
  · rfl
  · exact h

theorem step_uncol (fresh : Bool) (col col' : Nat) (c : Char) (rest : List Char) :
    (step fresh col c rest).mapError Misspelling.uncol = (step fresh col' c rest).mapError Misspelling.uncol := by
  unfold step
  iterate 8 refine uncol_ite _ ?_
  cases symbol? c with
  | some lexeme => rfl
  | none =>
    rcases readWord (c :: rest) with ⟨word, _ | n⟩
    · rfl
    · rfl

/-- What the tokens say does not depend on the column that the scan begins at. -/
theorem scan_kinds (fresh : Bool) (col col' : Nat) (line : List Char) :
    sayings (scan fresh col line) = sayings (scan fresh col' line) := by
  cases line with
  | nil => rw [scan_nil, scan_nil]
  | cons c rest =>
    rw [scan_cons, scan_cons]
    rcases mapError_cases (step_uncol fresh col col' c rest) with ⟨s, h, h'⟩ | ⟨e, e', h, h', he⟩
    · have ih := scan_kinds s.endsLine (col + s.more + 1) (col' + s.more + 1) (rest.drop s.more)
      rw [h, h']
      simp only [bind, Except.bind]
      rcases sayings_cases ih with ⟨ts, us, ht, hu, hk⟩ | ⟨e, e', ht, hu, he⟩
      · rw [ht, hu]
        refine congrArg Except.ok ?_
        simp only [List.map_append, hk]
        cases s.lexeme <;> rfl
      · rw [ht, hu]
        exact congrArg Except.error he
    · rw [h, h']
      exact congrArg Except.error he
termination_by line.length
decreasing_by simp only [List.length_drop, List.length_cons]; omega

/-! ## Text without tokens -/

/-- Whether text has nothing but blanks and a comment that nothing ends. -/
def isSilent (line : List Char) : Bool :=
  match line.dropWhile isBlank with
  | [] => true
  | c :: rest => c == ';' && !rest.contains '\n'

theorem isSilent_dropWhile (line : List Char) : isSilent (line.dropWhile isBlank) = isSilent line := by
  have hd : (line.dropWhile isBlank).dropWhile isBlank = line.dropWhile isBlank := by
    induction line with
    | nil => rfl
    | cons c line ih =>
      rw [List.dropWhile_cons]
      split
      · exact ih
      · next h => rw [List.dropWhile_cons_of_neg h]
  unfold isSilent
  rw [hd]

theorem drop_takeWhile (p : Char → Bool) (line : List Char) :
    line.drop (line.takeWhile p).length = line.dropWhile p := by
  conv => lhs; arg 2; rw [← List.takeWhile_append_dropWhile (p := p) (l := line)]
  exact List.drop_left

theorem comparison_isSome (alone withEqual : Operator) (rest : List Char) :
    (comparison alone withEqual rest).lexeme.isSome := by
  cases rest with
  | nil => rfl
  | cons c rest =>
    rw [comparison_cons]
    split <;> rfl

theorem scan_cons_ne_nil {fresh : Bool} {col : Nat} {c : Char} {rest : List Char}
    (h : ∀ s, step fresh col c rest = .ok s →
      s.lexeme.isSome ∨ scan s.endsLine (col + s.more + 1) (rest.drop s.more) ≠ .ok []) :
    scan fresh col (c :: rest) ≠ .ok [] := by
  rw [scan_cons]
  cases hs : step fresh col c rest with
  | error e => exact nofun
  | ok s =>
    have h' := h s hs
    simp only [bind, Except.bind]
    cases ht : scan s.endsLine (col + s.more + 1) (rest.drop s.more) with
    | error e => exact nofun
    | ok tokens =>
      rw [ht] at h'
      intro heq
      obtain ⟨hl, rfl⟩ := List.append_eq_nil_iff.mp (Except.ok.inj heq)
      cases hx : s.lexeme with
      | none => simp [hx] at h'
      | some lexeme => simp [hx] at hl

theorem scan_ne_nil : ∀ (fresh : Bool) (col : Nat) (line : List Char), isSilent line = false →
    scan fresh col line ≠ .ok []
  | _, _, [], h => by cases h
  | fresh, col, c :: rest, h => by
    refine scan_cons_ne_nil fun s hs => ?_
    cases stepped_of_step hs with
    | blank hb =>
      rw [← isSilent_dropWhile, List.dropWhile_cons_of_pos hb] at h
      have := (List.dropWhile_suffix (l := rest) isBlank).length_le
      refine .inr ?_
      rw [drop_takeWhile]
      exact scan_ne_nil _ _ _ h
    | comment hc =>
      subst hc
      have hmem : '\n' ∈ rest := by simpa [isSilent, isBlank] using h
      refine .inr ?_
      rw [drop_takeWhile]
      rcases hd : rest.dropWhile (· != '\n') with _ | ⟨d, rest'⟩
      · rw [List.dropWhile_eq_nil_iff] at hd
        exact absurd (hd _ hmem) (by decide)
      · have hd' := List.head?_dropWhile_not (· != '\n') rest
        rw [hd] at hd'
        obtain rfl : d = '\n' := by simpa using hd'
        refine scan_cons_ne_nil fun s hs => ?_
        cases hs
        exact .inl rfl
    | less _ | greater _ => exact .inl (comparison_isSome _ _ _)
    | _ => exact .inl rfl
termination_by _ _ line => line.length
decreasing_by simp only [List.length_cons]; omega

end Lexer

end TurtleLogo
