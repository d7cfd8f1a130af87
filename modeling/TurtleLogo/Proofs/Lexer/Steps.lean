import Mathlib.Data.List.TakeWhile
import TurtleLogo.Token.Lexer

/-!
# Steps of the scan

What one step of the scan can read, and the scan as a row of such steps.

* `readWord_wordChar`, `readWord_escape`, `readWord_stop` : the characters of a word one by one;
* `step_newline_eq` to `step_blank_eq`, `step_of_readWord` : the step from each character;
* `Stepped` : everything that a step can read, `stepped_of_step` : there is nothing else;
* `scan_cons_ok`, `scan_cons_error` : a scan that succeeds, and one that fails, by its first step;
* `Scanned` : a scan that succeeds, step by step;
* `tokenize_ok`, `isClosed_tokenize` : the tokens of a line, which are closed.
-/

namespace TurtleLogo

namespace Lexer

/-! ## Words -/

theorem readWord_wordChar {c : Char} (h : isWordChar c = true) (rest : List Char) :
    readWord (c :: rest) = (Text.upper c ++ (readWord rest).1, (readWord rest).2 + 1) := by
  have hc : c ≠ '\\' := by
    rintro rfl
    exact absurd h (by decide)
  rw [readWord.eq_def]
  simp only [hc, h, if_false, if_true]

theorem readWord_stop {c : Char} (hc : c ≠ '\\') (h : isWordChar c = false) (rest : List Char) :
    readWord (c :: rest) = ([], 0) := by
  rw [readWord.eq_def]
  simp only [hc, h, if_false, Bool.false_eq_true]

theorem readWord_escape {d : Char} (h : d ≠ '\n') (rest : List Char) :
    readWord ('\\' :: d :: rest) = (Text.upper d ++ (readWord rest).1, (readWord rest).2 + 2) := by
  simp [readWord, h]

theorem readWord_cont (rest : List Char) : readWord ('\\' :: '\n' :: rest) = ([], 0) := by
  simp [readWord]

theorem readWord_newline (rest : List Char) : readWord ('\n' :: rest) = ([], 0) :=
  readWord_stop (by decide) (by decide) rest

theorem readWord_le : ∀ line : List Char, (readWord line).2 ≤ line.length
  | [] => Nat.le_refl 0
  | c :: line => by
    have ih := readWord_le line
    cases hw : isWordChar c with
    | true =>
      rw [readWord_wordChar hw, List.length_cons]
      omega
    | false =>
      by_cases hc : c = '\\'
      · subst hc
        cases line with
        | nil => exact Nat.zero_le _
        | cons d line =>
          by_cases hd : d = '\n'
          · subst hd
            rw [readWord_cont]
            exact Nat.zero_le _
          · have ih := readWord_le line
            rw [readWord_escape hd, List.length_cons, List.length_cons]
            omega
      · rw [readWord_stop hc hw]
        exact Nat.zero_le _

/-! ## The step from each character -/

theorem comparison_cons (alone withEqual : Operator) (c : Char) (rest : List Char) :
    comparison alone withEqual (c :: rest) =
      if c = '=' then ⟨some (.op withEqual), 1⟩ else ⟨some (.op alone), 0⟩ := by
  unfold comparison
  split
  · next h => rw [if_pos (List.cons.inj h).1]
  · next hne => rw [if_neg fun h => hne rest (congrArg (· :: rest) h)]

theorem step_newline_eq (fresh : Bool) (col : Nat) (rest : List Char) :
    step fresh col '\n' rest = .ok ⟨some .lineEnd, 0⟩ := rfl

theorem step_cont_eq (fresh : Bool) (col : Nat) {rest : List Char} (h : continues rest = true) :
    step fresh col '\\' rest = .ok ⟨some .lineCont, min 1 rest.length⟩ := by
  unfold step
  rw [h]
  rfl

theorem step_comment_eq (fresh : Bool) (col : Nat) (rest : List Char) :
    step fresh col ';' rest = .ok ⟨none, (rest.takeWhile (· != '\n')).length⟩ := rfl

theorem step_less_eq (fresh : Bool) (col : Nat) (rest : List Char) :
    step fresh col '<' rest = .ok (comparison .less .lessEq rest) := rfl

theorem step_greater_eq (fresh : Bool) (col : Nat) (rest : List Char) :
    step fresh col '>' rest = .ok (comparison .greater .greaterEq rest) := rfl

theorem step_var_eq (fresh : Bool) (col : Nat) (rest : List Char) :
    step fresh col ':' rest = .ok ⟨some (.var (String.ofList (readWord rest).1)), (readWord rest).2⟩ := rfl

theorem step_word_eq (fresh : Bool) (col : Nat) (rest : List Char) :
    step fresh col '"' rest = .ok ⟨some (.word (String.ofList (readWord rest).1)), (readWord rest).2⟩ := rfl

theorem step_symbol_eq (fresh : Bool) (col : Nat) {c : Char} {k : Lexeme} (hc : symbol? c = some k) (rest : List Char) :
    step fresh col c rest = .ok ⟨some k, 0⟩ := by
  unfold symbol? at hc
  split at hc <;> cases hc <;> rfl

theorem step_blank_eq (fresh : Bool) (col : Nat) {c : Char} (hc : isBlank c = true) (rest : List Char) :
    step fresh col c rest = .ok ⟨if fresh then none else some .blank, (rest.takeWhile isBlank).length⟩ := by
  unfold step
  rw [if_pos hc]

theorem isWordChar_or_of_readWord {c : Char} {rest word : List Char} {n : Nat}
    (h : readWord (c :: rest) = (word, n + 1)) : isWordChar c = true ∨ c = '\\' ∧ continues rest = false := by
  cases hw : isWordChar c with
  | true => exact .inl rfl
  | false =>
    by_cases hc : c = '\\'
    · subst hc
      cases rest with
      | nil => cases h
      | cons d rest =>
        by_cases hd : d = '\n'
        · subst hd
          rw [readWord_cont] at h
          cases h
        · exact .inr ⟨rfl, beq_false_of_ne hd⟩
    · rw [readWord_stop hc hw] at h
      cases h

theorem step_of_readWord (fresh : Bool) (col : Nat) {c : Char} {rest word : List Char} {n : Nat}
    (h : readWord (c :: rest) = (word, n + 1)) :
    step fresh col c rest = (bareWord word).map fun k => ⟨some k, n⟩ := by
  have hbegins := isWordChar_or_of_readWord h
  have hne {d : Char} (hd : isWordChar d = false) (hd' : d ≠ '\\') : c ≠ d := by
    rintro rfl
    rcases hbegins with hw | ⟨hc, -⟩
    · rw [hd] at hw
      cases hw
    · exact hd' hc
  have hblank : isBlank c = false := by
    simp [isBlank, hne (d := ' ') (by decide) (by decide), hne (d := '\t') (by decide) (by decide)]
  have hcont : ¬(decide (c = '\\') && continues rest) = true := by
    rw [Bool.and_eq_true, decide_eq_true_eq]
    rintro ⟨rfl, hcont⟩
    rcases hbegins with hw | ⟨-, hnot⟩
    · exact absurd hw (by decide)
    · rw [hnot] at hcont
      cases hcont
  have hsymbol : symbol? c = none := by
    unfold symbol?
    split
    all_goals first | rfl | exact absurd rfl (hne (by decide) (by decide))
  unfold step
  rw [hblank, if_neg Bool.false_ne_true, if_neg (hne (by decide) (by decide)), if_neg hcont,
    if_neg (hne (by decide) (by decide)), if_neg (hne (by decide) (by decide)), if_neg (hne (by decide) (by decide)),
    if_neg (hne (by decide) (by decide)), if_neg (hne (by decide) (by decide)), hsymbol, h]

/-! ## Steps -/

/-- What a step from `c`, followed by `rest`, can read. -/
inductive Stepped (fresh : Bool) (c : Char) (rest : List Char) : Step → Prop
  | blank (hc : isBlank c = true) :
      Stepped fresh c rest ⟨if fresh then none else some .blank, (rest.takeWhile isBlank).length⟩
  | lineEnd (hc : c = '\n') : Stepped fresh c rest ⟨some .lineEnd, 0⟩
  | lineCont (hc : c = '\\') (h : continues rest = true) : Stepped fresh c rest ⟨some .lineCont, min 1 rest.length⟩
  | comment (hc : c = ';') : Stepped fresh c rest ⟨none, (rest.takeWhile (· != '\n')).length⟩
  | less (hc : c = '<') : Stepped fresh c rest (comparison .less .lessEq rest)
  | greater (hc : c = '>') : Stepped fresh c rest (comparison .greater .greaterEq rest)
  | var (hc : c = ':') : Stepped fresh c rest ⟨some (.var (String.ofList (readWord rest).1)), (readWord rest).2⟩
  | word (hc : c = '"') : Stepped fresh c rest ⟨some (.word (String.ofList (readWord rest).1)), (readWord rest).2⟩
  | symbol {k : Lexeme} (hc : symbol? c = some k) : Stepped fresh c rest ⟨some k, 0⟩
  | bare {word : List Char} {n : Nat} {k : Lexeme} (hw : readWord (c :: rest) = (word, n + 1))
      (hk : bareWord word = .ok k) : Stepped fresh c rest ⟨some k, n⟩

theorem stepped_of_step {fresh : Bool} {col : Nat} {c : Char} {rest : List Char} {s : Step}
    (h : step fresh col c rest = .ok s) : Stepped fresh c rest s := by
  unfold step at h
  rcases ite_eq_iff.mp h with ⟨hc, h⟩ | ⟨-, h⟩
  · cases h
    exact .blank hc
  rcases ite_eq_iff.mp h with ⟨hc, h⟩ | ⟨-, h⟩
  · cases h
    exact .lineEnd hc
  rcases ite_eq_iff.mp h with ⟨hc, h⟩ | ⟨-, h⟩
  · cases h
    rw [Bool.and_eq_true, decide_eq_true_eq] at hc
    exact .lineCont hc.1 hc.2
  rcases ite_eq_iff.mp h with ⟨hc, h⟩ | ⟨-, h⟩
  · cases h
    exact .comment hc
  rcases ite_eq_iff.mp h with ⟨hc, h⟩ | ⟨-, h⟩
  · cases h
    exact .less hc
  rcases ite_eq_iff.mp h with ⟨hc, h⟩ | ⟨-, h⟩
  · cases h
    exact .greater hc
  rcases ite_eq_iff.mp h with ⟨hc, h⟩ | ⟨-, h⟩
  · cases h
    exact .var hc
  rcases ite_eq_iff.mp h with ⟨hc, h⟩ | ⟨-, h⟩
  · cases h
    exact .word hc
  split at h
  · next hc =>
    cases h
    exact .symbol hc
  split at h
  · cases h
  · next hw =>
    cases hk : bareWord _ with
    | error e =>
      rw [hk] at h
      cases h
    | ok k =>
      rw [hk] at h
      cases h
      exact .bare hw hk

theorem bareWord_cases {word : List Char} {k : Lexeme} (h : bareWord word = .ok k) :
    (∃ n, k = .integer n) ∨ (∃ x, k = .float x) ∨ k = .name (String.ofList word) := by
  unfold bareWord at h
  split at h
  · split at h
    · cases h
    · cases h
      exact .inl ⟨_, rfl⟩
  · cases h
    exact .inr (.inl ⟨_, rfl⟩)
  · cases h
    exact .inr (.inr rfl)

theorem more_le_of_step {fresh : Bool} {col : Nat} {c : Char} {rest : List Char} {s : Step}
    (h : step fresh col c rest = .ok s) : s.more ≤ rest.length := by
  cases stepped_of_step h with
  | blank _ | comment _ => exact (List.takeWhile_sublist _).length_le
  | lineCont _ _ => exact Nat.min_le_right _ _
  | less _ | greater _ =>
    unfold comparison
    split
    · simp
    · exact Nat.zero_le _
  | var _ | word _ => exact readWord_le rest
  | bare hw _ =>
    have hle := readWord_le (c :: rest)
    rw [hw] at hle
    exact Nat.le_of_succ_le_succ hle
  | lineEnd _ | symbol _ => exact Nat.zero_le _

/-! ## The scan -/

theorem scan_cons (fresh : Bool) (col : Nat) (c : Char) (rest : List Char) :
    scan fresh col (c :: rest) = step fresh col c rest >>= fun s =>
      scan s.endsLine (col + s.more + 1) (rest.drop s.more) >>= fun tokens =>
        .ok ((s.lexeme.map (Token.mk · col)).toList ++ tokens) := by
  rw [scan]
  rfl

theorem scan_nil (fresh : Bool) (col : Nat) : scan fresh col [] = .ok [] := by
  rw [scan]

theorem scan_cons_ok {fresh : Bool} {col : Nat} {c : Char} {rest : List Char} {ts : List Token}
    (h : scan fresh col (c :: rest) = .ok ts) :
    ∃ s tokens, step fresh col c rest = .ok s ∧
      scan s.endsLine (col + s.more + 1) (rest.drop s.more) = .ok tokens ∧
      ts = (s.lexeme.map (Token.mk · col)).toList ++ tokens := by
  rw [scan_cons] at h
  cases hs : step fresh col c rest with
  | error e =>
    rw [hs] at h
    cases h
  | ok s =>
    rw [hs] at h
    simp only [bind, Except.bind] at h
    cases ht : scan s.endsLine (col + s.more + 1) (rest.drop s.more) with
    | error e =>
      rw [ht] at h
      cases h
    | ok tokens =>
      rw [ht] at h
      cases h
      exact ⟨s, tokens, rfl, ht, rfl⟩

theorem scan_cons_error {fresh : Bool} {col : Nat} {c : Char} {rest : List Char} {e : Misspelling}
    (h : scan fresh col (c :: rest) = .error e) :
    step fresh col c rest = .error e ∨
      ∃ s, step fresh col c rest = .ok s ∧ scan s.endsLine (col + s.more + 1) (rest.drop s.more) = .error e := by
  rw [scan_cons] at h
  cases hs : step fresh col c rest with
  | error e' =>
    rw [hs] at h
    cases h
    exact .inl rfl
  | ok s =>
    rw [hs] at h
    simp only [bind, Except.bind] at h
    cases ht : scan s.endsLine (col + s.more + 1) (rest.drop s.more) with
    | error e' =>
      rw [ht] at h
      cases h
      exact .inr ⟨s, rfl, ht⟩
    | ok tokens =>
      rw [ht] at h
      cases h

theorem scan_cons_of_step {fresh : Bool} {col : Nat} {c : Char} {rest : List Char} {s : Step} {tokens : List Token}
    (hs : step fresh col c rest = .ok s)
    (ht : scan s.endsLine (col + s.more + 1) (rest.drop s.more) = .ok tokens) :
    scan fresh col (c :: rest) = .ok ((s.lexeme.map (Token.mk · col)).toList ++ tokens) := by
  rw [scan_cons, hs]
  simp only [bind, Except.bind, ht]

inductive Scanned : (fresh : Bool) → (col : Nat) → (line : List Char) → List Token → Prop
  | nil {fresh : Bool} {col : Nat} : Scanned fresh col [] []
  | cons {fresh : Bool} {col : Nat} {c : Char} {rest : List Char} {s : Step} {tokens : List Token}
      (hs : step fresh col c rest = .ok s) (ht : Scanned s.endsLine (col + s.more + 1) (rest.drop s.more) tokens) :
      Scanned fresh col (c :: rest) ((s.lexeme.map (Token.mk · col)).toList ++ tokens)

theorem scanned_of_scan : ∀ {fresh : Bool} {col : Nat} {line : List Char} {ts : List Token},
    scan fresh col line = .ok ts → Scanned fresh col line ts
  | fresh, col, [], ts, h => by
    rw [scan_nil] at h
    cases h
    exact .nil
  | fresh, col, c :: rest, ts, h => by
    obtain ⟨s, tokens, hs, ht, rfl⟩ := scan_cons_ok h
    exact .cons hs (scanned_of_scan ht)
termination_by _ _ line => line.length
decreasing_by simp only [List.length_drop, List.length_cons]; omega

end Lexer

open Lexer in
theorem tokenize_eq (line : String) :
    tokenize line = scan true 0 line.toList >>= fun tokens =>
      .ok (if isClosed tokens then tokens else tokens ++ [⟨.lineEnd, line.toList.length⟩]) := rfl

open Lexer in
theorem isClosed_append {ts us : List Token} (h : us ≠ []) : isClosed (ts ++ us) = isClosed us := by
  unfold isClosed
  rw [List.getLast?_append, List.getLast?_eq_some_getLast h]
  rfl

open Lexer in
/-- The tokens of a line are those scanned, closed with a line end if they are not. -/
theorem tokenize_ok {line : String} {ts : List Token} (h : tokenize line = .ok ts) :
    ∃ raw, scan true 0 line.toList = .ok raw ∧
      ts = if isClosed raw then raw else raw ++ [⟨.lineEnd, line.toList.length⟩] := by
  rw [tokenize_eq] at h
  cases hs : scan true 0 line.toList with
  | error e =>
    rw [hs] at h
    cases h
  | ok raw =>
    rw [hs] at h
    exact ⟨raw, rfl, (Except.ok.inj h).symm⟩

open Lexer in
theorem isClosed_tokenize {line : String} {ts : List Token} (h : tokenize line = .ok ts) : isClosed ts = true := by
  obtain ⟨raw, -, rfl⟩ := tokenize_ok h
  split
  · next hclosed => exact hclosed
  · exact isClosed_append (by simp)

end TurtleLogo
