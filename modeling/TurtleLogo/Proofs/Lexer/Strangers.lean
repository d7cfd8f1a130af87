import Mathlib
import TurtleLogo.Proofs.Lexer.Steps
import TurtleLogo.Proofs.Number.Patterns

/-!
# Strange characters

A line is scanned in steps that each read a word, a comment or some blanks. Which characters it stumbles over can be told
by going from one character to the next in one of three modes, since escapes and comments alone take characters that mean
nothing. The scan fails at the first strange character that is met in normal mode, unless a whole number that is too long
comes first.

* `Mode`, `Mode.next` : the modes in which characters are met;
* `strangers` : the strange characters that are met in normal mode, `strangers_step` : what a step leaves of them;
* `bareWords` : the words of a line that stand alone, `bareWords_step` : what a step leaves of them;
* `Explained`, `scan_explained` : the outcome of a scan, told by the strangers and the bare words;
* `step_take`, `scan_take` : a step, and the scan, of text that is cut off behind what was read;
* `strange_iff_first` : which lines fail at a strange character, and where.
-/

namespace TurtleLogo

namespace Lexer

/-! ## Modes -/

/-- How a character is met. -/
inductive Mode where
  /-- Outside of comments, and not behind a backslash. -/
  | normal
  /-- Between a semicolon and the line end. -/
  | comment
  /-- Behind a backslash. -/
  | escaped
  deriving DecidableEq, Repr

/-- How the character behind `c` is met, if `c` is met in the given mode and `rest` stands behind it. A backslash before a
line end escapes nothing. -/
def Mode.next : Mode → Char → List Char → Mode
  | .normal, ';', _ => .comment
  | .normal, '\\', d :: _ => if d = '\n' then .normal else .escaped
  | .normal, _, _ => .normal
  | .comment, '\n', _ => .normal
  | .comment, _, _ => .comment
  | .escaped, _, _ => .normal

/-- A character that means something in normal mode: a letter, a digit, or one of the marks of the language. -/
def isNative (c : Char) : Bool :=
  c.isAlphanum || " \t\n\\;:\"_.?+-*/%=<>()[]\x7b\x7d".toList.contains c

/-- The strange characters that are met in normal mode, in their order, each with its column. The text begins in the given
mode at column `col`. -/
def strangers : Mode → (col : Nat) → List Char → List (Char × Nat)
  | _, _, [] => []
  | m, col, c :: rest =>
    let later := strangers (m.next c rest) (col + 1) rest
    if m = .normal ∧ isNative c = false then (c, col) :: later else later

theorem Mode.next_normal {c : Char} (hcomment : c ≠ ';') (hc : c ≠ '\\') (rest : List Char) :
    Mode.normal.next c rest = .normal := by
  unfold Mode.next
  split <;> first | rfl | contradiction

theorem strangers_cons (m : Mode) (col : Nat) {c : Char} (h : m ≠ .normal ∨ isNative c = true) (rest : List Char) :
    strangers m col (c :: rest) = strangers (m.next c rest) (col + 1) rest := by
  rw [strangers]
  refine if_neg fun ⟨hm, hc⟩ => ?_
  rcases h with h | h
  · exact h hm
  · rw [hc] at h
    cases h

theorem strangers_plain (col : Nat) {c : Char} (hc : isNative c = true) (hcomment : c ≠ ';') (hescape : c ≠ '\\')
    (rest : List Char) : strangers .normal col (c :: rest) = strangers .normal (col + 1) rest := by
  rw [strangers_cons .normal col (.inr hc), Mode.next_normal hcomment hescape]

theorem strangers_backslash (col : Nat) (d : Char) (rest : List Char) :
    strangers .normal col ('\\' :: d :: rest) = strangers .normal (col + 2) rest := by
  have hnative : isNative '\\' = true := by decide
  rw [strangers_cons .normal col (.inr hnative)]
  by_cases hd : d = '\n'
  · subst hd
    exact strangers_plain (col + 1) (by decide) (by decide) (by decide) rest
  · have hnext : Mode.normal.next '\\' (d :: rest) = .escaped := if_neg hd
    rw [hnext, strangers_cons .escaped (col + 1) (.inl (by decide))]
    rfl

theorem strangers_inside : ∀ (col : Nat) (line : List Char),
    strangers .comment col line =
      strangers .normal (col + (line.takeWhile (· != '\n')).length) (line.drop (line.takeWhile (· != '\n')).length)
  | _, [] => rfl
  | col, c :: rest => by
    rw [strangers_cons .comment col (.inl (by decide))]
    by_cases hc : c = '\n'
    · subst hc
      exact (strangers_plain col (by decide) (by decide) (by decide) rest).symm
    · have hnext : Mode.comment.next c rest = .comment := by
        unfold Mode.next
        split <;> first | rfl | contradiction
      have htake : (c :: rest).takeWhile (· != '\n') = c :: rest.takeWhile (· != '\n') :=
        List.takeWhile_cons_of_pos (bne_iff_ne.mpr hc)
      rw [hnext, strangers_inside (col + 1) rest, htake, List.length_cons, List.drop_succ_cons, Nat.add_right_comm,
        Nat.add_assoc]

theorem strangers_blanks : ∀ (col : Nat) (line : List Char),
    strangers .normal col line =
      strangers .normal (col + (line.takeWhile isBlank).length) (line.drop (line.takeWhile isBlank).length)
  | _, [] => rfl
  | col, c :: rest => by
    cases hc : isBlank c with
    | false => rw [List.takeWhile_cons_of_neg (by simp [hc]), List.length_nil, List.drop_zero, Nat.add_zero]
    | true =>
      have hplain : isNative c = true ∧ c ≠ ';' ∧ c ≠ '\\' := by
        simp only [isBlank, Bool.or_eq_true, beq_iff_eq] at hc
        rcases hc with rfl | rfl <;> decide
      rw [strangers_plain col hplain.1 hplain.2.1 hplain.2.2, strangers_blanks (col + 1) rest,
        List.takeWhile_cons_of_pos hc, List.length_cons, List.drop_succ_cons, Nat.add_right_comm, Nat.add_assoc]

theorem isNative_of_isWordChar {c : Char} (h : isWordChar c = true) : isNative c = true := by
  unfold isWordChar at h
  unfold isNative
  simp only [Bool.or_eq_true, beq_iff_eq] at h
  rcases h with ((hc | rfl) | rfl) | rfl
  · rw [hc, Bool.true_or]
  all_goals decide

theorem strangers_readWord : ∀ (col : Nat) (line : List Char),
    strangers .normal col line = strangers .normal (col + (readWord line).2) (line.drop (readWord line).2)
  | _, [] => rfl
  | col, c :: rest => by
    cases hw : isWordChar c with
    | true =>
      have hne {d : Char} (hd : isWordChar d = false) : c ≠ d := by
        rintro rfl
        rw [hw] at hd
        cases hd
      rw [strangers_plain col (isNative_of_isWordChar hw) (hne (by decide)) (hne (by decide)),
        strangers_readWord (col + 1) rest, readWord_wordChar hw, List.drop_succ_cons, Nat.add_right_comm, Nat.add_assoc]
    | false =>
      by_cases hc : c = '\\'
      · subst hc
        cases rest with
        | nil => rfl
        | cons d rest =>
          by_cases hd : d = '\n'
          · subst hd
            rw [readWord_cont]
            rfl
          · rw [strangers_backslash, strangers_readWord (col + 2) rest, readWord_escape hd, List.drop_succ_cons,
              List.drop_succ_cons, Nat.add_right_comm, Nat.add_assoc]
      · rw [readWord_stop hc hw]
        rfl

theorem strangers_step {fresh : Bool} {col : Nat} {c : Char} {rest : List Char} {s : Step}
    (h : step fresh col c rest = .ok s) :
    strangers .normal col (c :: rest) = strangers .normal (col + s.more + 1) (rest.drop s.more) := by
  have hplain {d : Char} (hc : c = d) (hd : isNative d = true ∧ d ≠ ';' ∧ d ≠ '\\') :
      strangers .normal col (c :: rest) = strangers .normal (col + 1) rest := by
    subst hc
    exact strangers_plain col hd.1 hd.2.1 hd.2.2 rest
  rw [Nat.add_right_comm]
  cases stepped_of_step h with
  | blank hb =>
    have hblanks := strangers_blanks col (c :: rest)
    rw [List.takeWhile_cons_of_pos hb, List.length_cons, List.drop_succ_cons] at hblanks
    rw [hblanks, Nat.add_right_comm, Nat.add_assoc]
  | lineEnd hc => exact hplain hc (by decide)
  | lineCont hc hcont =>
    subst hc
    cases rest with
    | nil => rfl
    | cons d rest =>
      rw [strangers_backslash]
      simp
  | comment hc =>
    subst hc
    have hnative : isNative ';' = true := by decide
    rw [strangers_cons .normal col (.inr hnative)]
    exact strangers_inside (col + 1) rest
  | less hc | greater hc =>
    rw [hplain hc (by decide)]
    cases rest with
    | nil => rfl
    | cons d rest =>
      rw [comparison_cons]
      split
      · next hd =>
        subst hd
        exact strangers_plain (col + 1) (by decide) (by decide) (by decide) rest
      · rfl
  | var hc | word hc =>
    rw [hplain hc (by decide)]
    exact strangers_readWord (col + 1) rest
  | symbol hk =>
    have hc : isNative c = true ∧ c ≠ ';' ∧ c ≠ '\\' := by
      unfold symbol? at hk
      split at hk <;> first | decide | cases hk
    exact strangers_plain col hc.1 hc.2.1 hc.2.2 rest
  | bare hw _ =>
    have hword := strangers_readWord col (c :: rest)
    rw [hw, List.drop_succ_cons] at hword
    rw [hword, Nat.add_right_comm, Nat.add_assoc]

/-! ## Bare words -/

/-- The words of a line, in capitals, that stand alone: not behind a colon or a quote, and not in a comment. -/
def bareWords (line : List Char) : List (List Char) :=
  match line with
  | [] => []
  | c :: rest =>
    if c = ';' then bareWords (rest.drop (rest.takeWhile (· != '\n')).length)
    else if c = ':' ∨ c = '"' then bareWords (rest.drop (readWord rest).2)
    else
      match readWord (c :: rest) with
      | (_, 0) => bareWords rest
      | (word, n + 1) => word :: bareWords (rest.drop n)
termination_by line.length
decreasing_by all_goals simp only [List.length_drop, List.length_cons]; omega

theorem bareWords_comment (rest : List Char) :
    bareWords (';' :: rest) = bareWords (rest.drop (rest.takeWhile (· != '\n')).length) := by
  rw [bareWords]
  simp only [if_true]

theorem bareWords_sigil {c : Char} (hc : c = ':' ∨ c = '"') (rest : List Char) :
    bareWords (c :: rest) = bareWords (rest.drop (readWord rest).2) := by
  have hcomment : c ≠ ';' := by rcases hc with rfl | rfl <;> decide
  rw [bareWords, if_neg hcomment, if_pos hc]

theorem bareWords_word {c : Char} {rest word : List Char} {n : Nat} (h : readWord (c :: rest) = (word, n + 1)) :
    bareWords (c :: rest) = word :: bareWords (rest.drop n) := by
  have hne : c ≠ ';' ∧ ¬(c = ':' ∨ c = '"') := by
    rcases isWordChar_or_of_readWord h with hc | ⟨rfl, -⟩
    · refine ⟨?_, ?_⟩
      · rintro rfl
        exact absurd hc (by decide)
      · rintro (rfl | rfl) <;> exact absurd hc (by decide)
    · decide
  rw [bareWords, if_neg hne.1, if_neg hne.2, h]

theorem bareWords_other {c : Char} {rest : List Char} (hcomment : c ≠ ';') (hsigil : ¬(c = ':' ∨ c = '"'))
    (h : (readWord (c :: rest)).2 = 0) : bareWords (c :: rest) = bareWords rest := by
  rw [bareWords, if_neg hcomment, if_neg hsigil]
  split
  · rfl
  · next heq =>
    rw [heq] at h
    cases h

theorem bareWords_between {c : Char} (hc : isWordChar c = false) (hescape : c ≠ '\\') (hcomment : c ≠ ';')
    (hsigil : ¬(c = ':' ∨ c = '"')) (rest : List Char) : bareWords (c :: rest) = bareWords rest :=
  bareWords_other hcomment hsigil (by rw [readWord_stop hescape hc])

theorem bareWords_blanks (line : List Char) :
    bareWords (line.drop (line.takeWhile isBlank).length) = bareWords line := by
  induction line with
  | nil => rfl
  | cons c rest ih =>
    cases hc : isBlank c with
    | false => rw [List.takeWhile_cons_of_neg (by simp [hc]), List.length_nil, List.drop_zero]
    | true =>
      have hbetween : bareWords (c :: rest) = bareWords rest := by
        simp only [isBlank, Bool.or_eq_true, beq_iff_eq] at hc
        rcases hc with rfl | rfl <;> exact bareWords_between (by decide) (by decide) (by decide) (by decide) rest
      rw [List.takeWhile_cons_of_pos hc, List.length_cons, List.drop_succ_cons, ih, hbetween]

/-- What a step leaves of the text has no other bare words than the text. -/
theorem bareWords_step {fresh : Bool} {col : Nat} {c : Char} {rest : List Char} {s : Step}
    (h : step fresh col c rest = .ok s) : bareWords (rest.drop s.more) ⊆ bareWords (c :: rest) := by
  have hbetween {d : Char} (hc : c = d)
      (hd : isWordChar d = false ∧ d ≠ '\\' ∧ d ≠ ';' ∧ ¬(d = ':' ∨ d = '"')) :
      bareWords (c :: rest) = bareWords rest := by
    subst hc
    exact bareWords_between hd.1 hd.2.1 hd.2.2.1 hd.2.2.2 rest
  cases stepped_of_step h with
  | blank hb =>
    have hblanks := bareWords_blanks (c :: rest)
    rw [List.takeWhile_cons_of_pos hb, List.length_cons, List.drop_succ_cons] at hblanks
    rw [hblanks]
    exact List.Subset.refl _
  | lineEnd hc =>
    rw [hbetween hc (by decide)]
    exact List.Subset.refl _
  | lineCont hc hcont =>
    subst hc
    cases rest with
    | nil =>
      have hnil : bareWords [] = [] := by rw [bareWords]
      rw [List.drop_nil, hnil]
      exact List.nil_subset _
    | cons d rest =>
      obtain rfl : d = '\n' := by simpa [continues] using hcont
      have hnewline := bareWords_between (c := '\n') (by decide) (by decide) (by decide) (by decide) rest
      rw [bareWords_other (by decide) (by decide) (by rw [readWord_cont]), hnewline]
      simp
  | comment hc =>
    subst hc
    rw [bareWords_comment]
    exact List.Subset.refl _
  | less hc | greater hc =>
    rw [hbetween hc (by decide)]
    cases rest with
    | nil => exact List.Subset.refl _
    | cons d rest =>
      rw [comparison_cons]
      split
      · next hd =>
        subst hd
        rw [bareWords_between (by decide) (by decide) (by decide) (by decide)]
        exact List.Subset.refl _
      · exact List.Subset.refl _
  | var hc =>
    rw [bareWords_sigil (.inl hc)]
    exact List.Subset.refl _
  | word hc =>
    rw [bareWords_sigil (.inr hc)]
    exact List.Subset.refl _
  | symbol hk =>
    have hc : isWordChar c = false ∧ c ≠ '\\' ∧ c ≠ ';' ∧ ¬(c = ':' ∨ c = '"') := by
      unfold symbol? at hk
      split at hk <;> first | decide | cases hk
    rw [hbetween rfl hc]
    exact List.Subset.refl _
  | bare hw _ =>
    rw [bareWords_word hw]
    exact List.subset_cons_self _ _

/-! ## The outcome of a scan -/

/-- Only digits, and more of them than can be read, are no bare word. -/
theorem bareWord_error {word : List Char} {e : Misspelling} (h : bareWord word = .error e) :
    word.all Char.isDigit = true ∧ digitLimit < word.length ∧ e = .tooManyDigits word.length := by
  unfold bareWord at h
  split at h
  · next ds hread =>
    cases Number.Numeral.Pattern.of_read? hread with
    | integer hdigits _ =>
      split at h
      · next hlong =>
        cases h
        exact ⟨List.all_eq_true.mpr hdigits, hlong, rfl⟩
      · cases h
  · cases h
  · cases h

theorem isNative_cases {c : Char} (h : isNative c = true) :
    isWordChar c = true ∨ isBlank c = true ∨ c = '\n' ∨ c = '\\' ∨ c = ';' ∨ c = '<' ∨ c = '>' ∨ c = ':' ∨ c = '"' ∨
      (symbol? c).isSome = true := by
  unfold isNative at h
  rw [Bool.or_eq_true] at h
  rcases h with h | h
  · refine .inl ?_
    unfold isWordChar
    rw [h]
    rfl
  · have hmarks : " \t\n\\;:\"_.?+-*/%=<>()[]\x7b\x7d".toList.all (fun d => decide (isWordChar d = true ∨
        isBlank d = true ∨ d = '\n' ∨ d = '\\' ∨ d = ';' ∨ d = '<' ∨ d = '>' ∨ d = ':' ∨ d = '"' ∨
          (symbol? d).isSome = true)) = true := by
      decide
    exact of_decide_eq_true (List.all_eq_true.mp hmarks c (List.contains_iff_mem.mp h))

theorem step_strange (fresh : Bool) (col : Nat) {c : Char} (hc : isNative c = false) (rest : List Char) :
    step fresh col c rest = .error (.strange c col) := by
  have hne {d : Char} (hd : isNative d = true) : c ≠ d := by
    rintro rfl
    rw [hc] at hd
    cases hd
  have hblank : isBlank c = false := by
    simp [isBlank, hne (d := ' ') (by decide), hne (d := '\t') (by decide)]
  have hcont : ¬(decide (c = '\\') && continues rest) = true := by
    simp [hne (d := '\\') (by decide)]
  have hsymbol : symbol? c = none := by
    unfold symbol?
    split
    all_goals first | rfl | exact absurd hc (by decide)
  have hword : isWordChar c = false := by
    rw [Bool.eq_false_iff]
    intro hword
    rw [isNative_of_isWordChar hword] at hc
    cases hc
  unfold step
  rw [hblank, if_neg Bool.false_ne_true, if_neg (hne (by decide)), if_neg hcont, if_neg (hne (by decide)),
    if_neg (hne (by decide)), if_neg (hne (by decide)), if_neg (hne (by decide)), if_neg (hne (by decide)), hsymbol,
    readWord_stop (hne (by decide)) hword]

theorem step_native (fresh : Bool) (col : Nat) {c : Char} (hc : isNative c = true) (rest : List Char) :
    (∃ s, step fresh col c rest = .ok s) ∨ ∃ word n, readWord (c :: rest) = (word, n + 1) := by
  rcases isNative_cases hc with hword | hblank | rfl | rfl | rfl | rfl | rfl | rfl | rfl | hsymbol
  · exact .inr ⟨_, _, readWord_wordChar hword rest⟩
  · exact .inl ⟨_, step_blank_eq fresh col hblank rest⟩
  · exact .inl ⟨_, rfl⟩
  · cases rest with
    | nil => exact .inl ⟨_, rfl⟩
    | cons d rest =>
      by_cases hd : d = '\n'
      · subst hd
        exact .inl ⟨_, rfl⟩
      · exact .inr ⟨_, _, readWord_escape hd rest⟩
  · exact .inl ⟨_, rfl⟩
  · exact .inl ⟨_, rfl⟩
  · exact .inl ⟨_, rfl⟩
  · exact .inl ⟨_, rfl⟩
  · exact .inl ⟨_, rfl⟩
  · obtain ⟨k, hk⟩ := Option.isSome_iff_exists.mp hsymbol
    exact .inl ⟨_, step_symbol_eq fresh col hk rest⟩

/-- A step fails at a strange character, or where a word does. -/
theorem step_error {fresh : Bool} {col : Nat} {c : Char} {rest : List Char} {e : Misspelling}
    (h : step fresh col c rest = .error e) :
    (isNative c = false ∧ e = .strange c col) ∨
      ∃ word n, readWord (c :: rest) = (word, n + 1) ∧ bareWord word = .error e := by
  cases hc : isNative c with
  | false =>
    rw [step_strange fresh col hc] at h
    cases h
    exact .inl ⟨rfl, rfl⟩
  | true =>
    rcases step_native fresh col hc rest with ⟨s, hs⟩ | ⟨word, n, hw⟩
    · rw [hs] at h
      cases h
    · rw [step_of_readWord fresh col hw] at h
      cases hk : bareWord word with
      | ok k =>
        rw [hk] at h
        cases h
      | error e' =>
        rw [hk] at h
        cases h
        exact .inr ⟨word, n, hw, hk⟩

/-- The outcome of a scan from column `col`, told by the strangers and the bare words of the text. -/
inductive Explained (col : Nat) (line : List Char) : Except Misspelling (List Token) → Prop
  | tokens {ts : List Token} (h : strangers .normal col line = []) : Explained col line (.ok ts)
  | strange {c : Char} {k : Nat} (h : (strangers .normal col line).head? = some (c, k)) :
      Explained col line (.error (.strange c k))
  /-- A whole number that is too long. -/
  | tooManyDigits {word : List Char} (hmem : word ∈ bareWords line) (hdigits : word.all Char.isDigit = true)
      (hlong : digitLimit < word.length) : Explained col line (.error (.tooManyDigits word.length))

/-- **Every scan is explained** by the strangers and the bare words of the text. -/
theorem scan_explained : ∀ (fresh : Bool) (col : Nat) (line : List Char), Explained col line (scan fresh col line)
  | fresh, col, [] => by
    rw [scan_nil]
    exact .tokens rfl
  | fresh, col, c :: rest => by
    cases hscan : scan fresh col (c :: rest) with
    | ok ts =>
      obtain ⟨s, tokens, hs, ht, rfl⟩ := scan_cons_ok hscan
      have ih := scan_explained s.endsLine (col + s.more + 1) (rest.drop s.more)
      rw [ht] at ih
      cases ih with
      | tokens h => exact .tokens (by rw [strangers_step hs, h])
    | error e =>
      rcases scan_cons_error hscan with hs | ⟨s, hs, ht⟩
      · rcases step_error hs with ⟨hc, rfl⟩ | ⟨word, n, hw, hk⟩
        · refine .strange ?_
          rw [strangers]
          simp [hc]
        · obtain ⟨hdigits, hlong, rfl⟩ := bareWord_error hk
          refine .tooManyDigits ?_ hdigits hlong
          rw [bareWords_word hw]
          exact List.mem_cons_self
      · have ih := scan_explained s.endsLine (col + s.more + 1) (rest.drop s.more)
        rw [ht] at ih
        cases ih with
        | strange h => exact .strange (by rw [strangers_step hs, h])
        | tooManyDigits hmem hdigits hlong => exact .tooManyDigits (bareWords_step hs hmem) hdigits hlong
termination_by _ _ line => line.length
decreasing_by all_goals simp only [List.length_drop, List.length_cons]; omega

/-! ## Text that is cut off -/

theorem readWord_take : ∀ (line : List Char) {m : Nat}, (readWord line).2 ≤ m → readWord (line.take m) = readWord line
  | [], _, _ => by rw [List.take_nil]
  | c :: rest, m, hm => by
    cases hw : isWordChar c with
    | true =>
      rw [readWord_wordChar hw] at hm ⊢
      obtain ⟨m, rfl⟩ := Nat.exists_eq_add_of_le' (Nat.le_trans (Nat.le_add_left 1 _) hm)
      rw [List.take_succ_cons, readWord_wordChar hw, readWord_take rest (Nat.le_of_succ_le_succ hm)]
    | false =>
      by_cases hc : c = '\\'
      · subst hc
        cases rest with
        | nil =>
          cases m with
          | zero => rfl
          | succ m => rw [List.take_succ_cons, List.take_nil]
        | cons d rest =>
          by_cases hd : d = '\n'
          · subst hd
            rw [readWord_cont]
            match m with
            | 0 | 1 => rfl
            | m + 2 => exact readWord_cont _
          · rw [readWord_escape hd] at hm ⊢
            obtain ⟨m, rfl⟩ := Nat.exists_eq_add_of_le' (Nat.le_trans (Nat.le_add_left 2 _) hm)
            rw [List.take_succ_cons, List.take_succ_cons, readWord_escape hd,
              readWord_take rest (Nat.le_of_add_le_add_right hm)]
      · rw [readWord_stop hc hw]
        cases m with
        | zero => rfl
        | succ m => exact readWord_stop hc hw _

theorem takeWhile_take (p : Char → Bool) {line : List Char} {m : Nat} (hm : (line.takeWhile p).length ≤ m) :
    (line.take m).takeWhile p = line.takeWhile p := by
  rw [← List.take_takeWhile, List.take_of_length_le hm]

theorem comparison_take (alone withEqual : Operator) {rest : List Char} {m : Nat}
    (hm : (comparison alone withEqual rest).more ≤ m) :
    comparison alone withEqual (rest.take m) = comparison alone withEqual rest := by
  cases rest with
  | nil => rw [List.take_nil]
  | cons d rest =>
    cases m with
    | zero =>
      rw [comparison_cons] at hm ⊢
      split at hm
      · cases hm
      · next hd => rw [if_neg hd]; rfl
    | succ m => rw [List.take_succ_cons, comparison_cons, comparison_cons]

/-- A step does not look at more of the text than it reads, and whether that goes on. -/
theorem step_take {fresh : Bool} {col : Nat} {c : Char} {rest : List Char} {s : Step}
    (h : step fresh col c rest = .ok s) {m : Nat} (hm : s.more ≤ m) : step fresh col c (rest.take m) = .ok s := by
  cases stepped_of_step h with
  | blank hb => rw [step_blank_eq fresh col hb, takeWhile_take isBlank hm]
  | lineEnd hc => rw [hc, step_newline_eq]
  | lineCont hc hcont =>
    subst hc
    cases rest with
    | nil => rwa [List.take_nil]
    | cons d rest =>
      obtain rfl : d = '\n' := by simpa [continues] using hcont
      obtain ⟨m, rfl⟩ : ∃ m', m = m' + 1 := Nat.exists_eq_add_of_le' (Nat.le_trans (by simp) hm)
      rw [List.take_succ_cons, step_cont_eq fresh col rfl]
      simp
  | comment hc => rw [hc, step_comment_eq, takeWhile_take _ hm]
  | less hc => rw [hc, step_less_eq, comparison_take _ _ hm]
  | greater hc => rw [hc, step_greater_eq, comparison_take _ _ hm]
  | var hc => rw [hc, step_var_eq, readWord_take rest hm]
  | word hc => rw [hc, step_word_eq, readWord_take rest hm]
  | symbol hk => exact step_symbol_eq fresh col hk _
  | bare hw hk =>
    have htake := readWord_take (c :: rest) (m := m + 1) (by rw [hw]; exact Nat.succ_le_succ hm)
    rw [List.take_succ_cons, hw] at htake
    rw [step_of_readWord fresh col htake, hk]
    rfl

theorem mem_strangers {d : Char} {k : Nat} : ∀ {m : Mode} {col : Nat} {text : List Char},
    (d, k) ∈ strangers m col text → ∃ i, k = col + i ∧ text[i]? = some d
  | _, _, [], h => by cases h
  | m, col, c :: rest, h => by
    have hlater (h : (d, k) ∈ strangers (m.next c rest) (col + 1) rest) :
        ∃ i, k = col + i ∧ (c :: rest)[i]? = some d := by
      obtain ⟨i, rfl, hi⟩ := mem_strangers h
      exact ⟨i + 1, by omega, hi⟩
    rw [strangers] at h
    split at h
    · rcases List.mem_cons.mp h with heq | h
      · cases heq
        exact ⟨0, rfl, rfl⟩
      · exact hlater h
    · exact hlater h

/-- The text of a scan before the strange character that it fails at is scanned without a mistake. -/
theorem scan_take : ∀ {fresh : Bool} {col i : Nat} {line : List Char} {d : Char},
    scan fresh col line = .error (.strange d (col + i)) → ∃ ts, scan fresh col (line.take i) = .ok ts
  | fresh, col, _, [], _, h => by
    rw [scan_nil] at h
    cases h
  | fresh, col, i, c :: rest, d, h => by
    rcases scan_cons_error h with hs | ⟨s, hs, hrest⟩
    · rcases step_error hs with ⟨-, he⟩ | ⟨word, n, -, hk⟩
      · obtain rfl : i = 0 := by
          injection he
          omega
        exact ⟨[], scan_nil fresh col⟩
      · obtain ⟨-, -, he⟩ := bareWord_error hk
        cases he
    · obtain ⟨j, hj⟩ : ∃ j, i = s.more + j + 1 := by
        have hexplained := scan_explained s.endsLine (col + s.more + 1) (rest.drop s.more)
        rw [hrest] at hexplained
        cases hexplained with
        | strange hhead =>
          obtain ⟨j, hj, -⟩ := mem_strangers (List.mem_of_head? hhead)
          exact ⟨j, by omega⟩
      subst hj
      have hcol : col + (s.more + j + 1) = col + s.more + 1 + j := by omega
      rw [hcol] at hrest
      obtain ⟨ts, hts⟩ := scan_take hrest
      have hdrop : (rest.take (s.more + j)).drop s.more = (rest.drop s.more).take j := by
        rw [List.drop_take, Nat.add_sub_cancel_left]
      rw [← hdrop] at hts
      exact ⟨_, scan_cons_of_step (step_take hs (Nat.le_add_right _ _)) hts⟩
termination_by _ _ _ line => line.length
decreasing_by simp only [List.length_drop, List.length_cons]; omega

end Lexer

open Lexer in
/-- **A line fails at the first strange character** that is met in normal mode, if all of its whole numbers can be read:
it fails so if there is one, the error tells which it is and where, and the text before it has tokens. -/
theorem strange_iff_first (line : String)
    (hwords : ∀ word ∈ bareWords line.toList, word.all Char.isDigit = true → word.length ≤ 4300) :
    ((∃ c col, tokenize line = .error (.strange c col)) ↔ strangers .normal 0 line.toList ≠ []) ∧
      ∀ c col, tokenize line = .error (.strange c col) →
        (strangers .normal 0 line.toList).head? = some (c, col) ∧ line.toList[col]? = some c ∧
          ∃ ts, tokenize (String.ofList (line.toList.take col)) = .ok ts := by
  have hexplained := scan_explained true 0 line.toList
  rw [tokenize_eq]
  cases hscan : scan true 0 line.toList with
  | ok ts =>
    rw [hscan] at hexplained
    cases hexplained with
    | tokens hnone =>
      refine ⟨⟨?_, fun h => absurd hnone h⟩, nofun⟩
      rintro ⟨_, _, h⟩
      cases h
  | error e =>
    rw [hscan] at hexplained
    cases hexplained with
    | tooManyDigits hmem hdigits hlong => exact absurd (hwords _ hmem hdigits) (Nat.not_le_of_lt hlong)
    | @strange c k hhead =>
      refine ⟨⟨fun _ h => ?_, fun _ => ⟨c, k, rfl⟩⟩, fun d col h => ?_⟩
      · rw [h] at hhead
        cases hhead
      · cases h
        obtain ⟨i, hi, hget⟩ := mem_strangers (List.mem_of_head? hhead)
        obtain rfl : k = i := by omega
        obtain ⟨ts, hts⟩ := scan_take (i := k) (by rw [Nat.zero_add]; exact hscan)
        refine ⟨hhead, hget, if isClosed ts then ts else ts ++ [⟨.lineEnd, (line.toList.take k).length⟩], ?_⟩
        rw [tokenize_eq, String.toList_ofList, hts]
        rfl

open Lexer in
/-- Neither the escaped characters nor those of a comment are strange, and the number `12` can be read. -/
theorem strange_iff_first_commented :
    (∀ word ∈ bareWords "FD \\& 12 ;&\n:X & ~".toList, word.all Char.isDigit = true → word.length ≤ 4300) ∧
      tokenize "FD \\& 12 ;&\n:X & ~" = .error (.strange '&' 15) ∧
      strangers .normal 0 "FD \\& 12 ;&\n:X & ~".toList = [('&', 15), ('~', 17)] ∧
      ∃ ts, tokenize "FD \\& 12 ;&\n:X " = .ok ts := by
  have hwords : ∀ word ∈ bareWords "FD \\& 12 ;&\n:X & ~".toList, word.all Char.isDigit = true → word.length ≤ 4300 := by
    have hbare : bareWords "FD \\& 12 ;&\n:X & ~".toList = ["FD".toList, "&".toList, "12".toList] := by cbv
    rw [hbare]
    decide
  have hstrange : tokenize "FD \\& 12 ;&\n:X & ~" = .error (.strange '&' 15) := by cbv
  have hall : strangers .normal 0 "FD \\& 12 ;&\n:X & ~".toList = [('&', 15), ('~', 17)] := by decide
  have hbefore := ((strange_iff_first _ hwords).2 '&' 15 hstrange).2.2
  exact ⟨hwords, hstrange, hall, hbefore⟩

end TurtleLogo
