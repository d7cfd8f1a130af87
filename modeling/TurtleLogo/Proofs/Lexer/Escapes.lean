import TurtleLogo.Proofs.Lexer.Lines

/-!
# Escapes, and where a step ends

A backslash waits for the character that it stands before, except in a comment. Where text can be cut so that no backslash
loses its character and no word, run of blanks or operator is cut in two, each step before the cut reads the same
without what stands behind it; only a comment goes on across the cut.

* `endsInEscape` : whether text ends in a backslash that waits for a character, `endsInEscape_step` : it is the scan that
  it follows;
* `Border` : such a cut, `Border.drop` : it stays one when a step has been read;
* `readWord_border`, `step_border` : a word, and a step, before a border.
-/

namespace TurtleLogo

namespace Lexer

/-! ## Escapes -/

/-- Whether text ends in a backslash that waits for the character it stands before; `comment` says that the text begins
inside a comment. -/
def endsInEscape : (comment : Bool) → List Char → Bool
  | _, [] => false
  | true, c :: rest => endsInEscape (c != '\n') rest
  | false, c :: rest =>
    if c = '\\' then
      match rest with
      | [] => true
      | _ :: rest' => endsInEscape false rest'
    else endsInEscape (c == ';') rest

theorem endsInEscape_inside (c : Char) (rest : List Char) :
    endsInEscape true (c :: rest) = endsInEscape (c != '\n') rest := by
  rw [endsInEscape.eq_def]

theorem endsInEscape_outside {c : Char} (hc : c ≠ '\\') (rest : List Char) :
    endsInEscape false (c :: rest) = endsInEscape (c == ';') rest := by
  rw [endsInEscape.eq_def]
  simp only [hc, if_false]

theorem endsInEscape_pair (d : Char) (rest : List Char) :
    endsInEscape false ('\\' :: d :: rest) = endsInEscape false rest := by
  rw [endsInEscape.eq_def]
  simp only [if_true]

theorem endsInEscape_cons {c : Char} (hc : c ≠ '\\') (hcomment : c ≠ ';') (rest : List Char) :
    endsInEscape false (c :: rest) = endsInEscape false rest := by
  rw [endsInEscape_outside hc, beq_false_of_ne hcomment]

theorem endsInEscape_comment (rest : List Char) :
    endsInEscape false (';' :: rest) = endsInEscape false (rest.dropWhile (· != '\n')) := by
  have hinside : endsInEscape true rest = endsInEscape false (rest.dropWhile (· != '\n')) := by
    induction rest with
    | nil => rfl
    | cons c rest ih =>
      rw [endsInEscape_inside, List.dropWhile_cons]
      by_cases hc : c = '\n'
      · subst hc
        exact (endsInEscape_cons (by decide) (by decide) rest).symm
      · have htrue : (c != '\n') = true := bne_iff_ne.mpr hc
        simp only [htrue, if_true]
        exact ih
  rw [endsInEscape_outside (by decide), ← hinside]
  rfl

theorem endsInEscape_blank {c : Char} (hc : isBlank c = true) (rest : List Char) :
    endsInEscape false (c :: rest) = endsInEscape false rest := by
  refine endsInEscape_cons ?_ ?_ rest
  · rintro rfl
    exact absurd hc (by decide)
  · rintro rfl
    exact absurd hc (by decide)

theorem endsInEscape_line : ∀ (comment : Bool) (line rest : List Char),
    endsInEscape comment (line ++ '\n' :: rest) = endsInEscape false rest
  | true, [], rest => endsInEscape_inside '\n' rest
  | false, [], rest => endsInEscape_cons (by decide) (by decide) rest
  | true, c :: line, rest => by
    rw [List.cons_append, endsInEscape_inside]
    exact endsInEscape_line _ line rest
  | false, c :: line, rest => by
    by_cases hc : c = '\\'
    · subst hc
      cases line with
      | nil => exact endsInEscape_pair '\n' rest
      | cons d line =>
        rw [List.cons_append, List.cons_append, endsInEscape_pair]
        exact endsInEscape_line false line rest
    · rw [List.cons_append, endsInEscape_outside hc]
      exact endsInEscape_line _ line rest

theorem endsInEscape_readWord : ∀ line : List Char,
    endsInEscape false (line.drop (readWord line).2) = endsInEscape false line
  | [] => rfl
  | c :: line => by
    cases hw : isWordChar c with
    | true =>
      have hne {d : Char} (hd : isWordChar d = false) : c ≠ d := by
        rintro rfl
        rw [hw] at hd
        cases hd
      rw [readWord_wordChar hw, endsInEscape_cons (hne (by decide)) (hne (by decide))]
      exact endsInEscape_readWord line
    | false =>
      by_cases hc : c = '\\'
      · subst hc
        cases line with
        | nil => rfl
        | cons d line =>
          by_cases hd : d = '\n'
          · subst hd
            rw [readWord_cont]
            rfl
          · rw [readWord_escape hd, endsInEscape_pair]
            exact endsInEscape_readWord line
      · rw [readWord_stop hc hw]
        rfl

/-- Every step but the last backslash of the text leaves the escape that the text ends in. -/
theorem endsInEscape_step {fresh : Bool} {col : Nat} {c : Char} {rest : List Char} {s : Step}
    (h : step fresh col c rest = .ok s) (hlast : c = '\\' → rest ≠ []) :
    endsInEscape false (rest.drop s.more) = endsInEscape false (c :: rest) := by
  have hcons {d : Char} (hc : c = d) (hd : d ≠ '\\' ∧ d ≠ ';') :
      endsInEscape false (c :: rest) = endsInEscape false rest := by
    subst hc
    exact endsInEscape_cons hd.1 hd.2 rest
  cases stepped_of_step h with
  | blank hb =>
    rw [drop_takeWhile, endsInEscape_blank hb]
    clear h hlast hcons
    induction rest with
    | nil => rfl
    | cons d rest ih =>
      rw [List.dropWhile_cons]
      split
      · next hd => rw [ih, endsInEscape_blank hd]
      · rfl
  | lineEnd hc => exact (hcons hc (by decide)).symm
  | lineCont hc _ =>
    subst hc
    cases rest with
    | nil => exact absurd rfl (hlast rfl)
    | cons d rest =>
      rw [endsInEscape_pair]
      simp
  | comment hc =>
    subst hc
    rw [drop_takeWhile, endsInEscape_comment]
  | less hc | greater hc =>
    rw [hcons hc (by decide)]
    cases rest with
    | nil => rfl
    | cons d rest =>
      rw [comparison_cons]
      split
      · next hd =>
        subst hd
        exact (endsInEscape_cons (by decide) (by decide) rest).symm
      · rfl
  | var hc | word hc =>
    rw [hcons hc (by decide)]
    exact endsInEscape_readWord rest
  | symbol hk =>
    have hc : c ≠ '\\' ∧ c ≠ ';' := by
      constructor
      · rintro rfl
        cases hk
      · rintro rfl
        cases hk
    exact (endsInEscape_cons hc.1 hc.2 rest).symm
  | bare hw _ =>
    have hescape := endsInEscape_readWord (c :: rest)
    rw [hw] at hescape
    exact hescape

/-! ## Borders -/

/-- A place where no step but a comment goes on from one part of the text to the other. -/
structure Border (core tail : List Char) : Prop where
  stops : ∀ c, tail.head? = some c → isWordChar c = false ∧ c ≠ '\\' ∧ c ≠ '='
  blanks : ∀ c d, core.getLast? = some c → tail.head? = some d → isBlank c = true → isBlank d = false
  whole : endsInEscape false core = true → ∀ c, tail.head? = some c → c = '\n'

theorem readWord_border : ∀ {core tail : List Char},
    (∀ c, tail.head? = some c → isWordChar c = false ∧ c ≠ '\\' ∧ c ≠ '=') →
    (endsInEscape false core = true → ∀ c, tail.head? = some c → c = '\n') →
    readWord (core ++ tail) = readWord core
  | [], tail, hstops, _ => by
    cases tail with
    | nil => rfl
    | cons c tail => exact readWord_stop (hstops c rfl).2.1 (hstops c rfl).1 tail
  | c :: core, tail, hstops, hwhole => by
    cases hw : isWordChar c with
    | true =>
      have hne {d : Char} (hd : isWordChar d = false) : c ≠ d := by
        rintro rfl
        rw [hw] at hd
        cases hd
      rw [endsInEscape_cons (hne (by decide)) (hne (by decide))] at hwhole
      rw [List.cons_append, readWord_wordChar hw, readWord_wordChar hw, readWord_border hstops hwhole]
    | false =>
      by_cases hc : c = '\\'
      · subst hc
        cases core with
        | nil =>
          cases tail with
          | nil => rfl
          | cons d tail =>
            obtain rfl := hwhole rfl d rfl
            exact readWord_cont tail
        | cons d core =>
          by_cases hd : d = '\n'
          · subst hd
            rw [readWord_cont]
            exact readWord_cont (core ++ tail)
          · rw [endsInEscape_pair] at hwhole
            simp only [List.cons_append, readWord_escape hd, readWord_border hstops hwhole]
      · rw [List.cons_append, readWord_stop hc hw, readWord_stop hc hw]

theorem comparison_border (alone withEqual : Operator) {core tail : List Char}
    (h : ∀ c, tail.head? = some c → c ≠ '=') :
    comparison alone withEqual (core ++ tail) = comparison alone withEqual core := by
  cases core with
  | cons c core => rw [List.cons_append, comparison_cons, comparison_cons]
  | nil =>
    cases tail with
    | nil => rfl
    | cons d tail =>
      rw [List.nil_append, comparison_cons, if_neg (h d rfl)]
      rfl

/-- Blanks that begin with `c` end where the text does, if they reach so far. -/
theorem takeWhile_border {c : Char} (hc : isBlank c = true) {core tail : List Char}
    (h : ∀ a d, (c :: core).getLast? = some a → tail.head? = some d → isBlank a = true → isBlank d = false) :
    (core ++ tail).takeWhile isBlank = core.takeWhile isBlank := by
  rw [List.takeWhile_append]
  split
  · next hall =>
    have hsame : core.takeWhile isBlank = core := List.Sublist.eq_of_length (List.takeWhile_sublist _) hall
    have hlast : isBlank ((c :: core).getLast (List.cons_ne_nil c core)) = true := by
      rcases List.mem_cons.mp (List.getLast_mem (List.cons_ne_nil c core)) with heq | hmem
      · rw [heq]
        exact hc
      · exact List.takeWhile_eq_self_iff.mp hsame _ hmem
    have hstop : tail.takeWhile isBlank = [] := by
      cases tail with
      | nil => rfl
      | cons d tail =>
        have hd := h _ d (List.getLast?_eq_some_getLast _) rfl hlast
        exact List.takeWhile_cons_of_neg (by simp [hd])
    rw [hstop, List.append_nil, hsame]
  · rfl

/-- A step before a border reads the same without what stands behind it, unless it is a comment or the last
backslash. -/
theorem step_border (fresh : Bool) (col : Nat) {c : Char} {core tail : List Char} (hborder : Border (c :: core) tail)
    (hcomment : c ≠ ';') (hlast : c = '\\' → core ≠ []) :
    step fresh col c (core ++ tail) = step fresh col c core := by
  have hbare := readWord_border hborder.stops hborder.whole
  rw [List.cons_append] at hbare
  by_cases hc : c = '\\'
  · subst hc
    cases core with
    | nil => exact absurd rfl (hlast rfl)
    | cons d core =>
      have hcont (rest : List Char) : continues (d :: rest) = (d == '\n') := rfl
      have hlength (rest : List Char) : min 1 (d :: rest).length = 1 := by
        rw [List.length_cons]
        omega
      simp only [List.cons_append] at hbare ⊢
      unfold step
      rw [hcont, hcont, hbare, hlength, hlength]
      cases d == '\n' <;> rfl
  · have hwhole := hborder.whole
    rw [endsInEscape_cons hc hcomment] at hwhole
    have hword := readWord_border hborder.stops hwhole
    have hcomparison (alone withEqual : Operator) :
        comparison alone withEqual (core ++ tail) = comparison alone withEqual core :=
      comparison_border alone withEqual fun d hd => (hborder.stops d hd).2.2
    unfold step
    simp only [hc, hcomment, decide_false, Bool.false_and, Bool.false_eq_true, if_false, hword, hbare, hcomparison]
    cases hb : isBlank c with
    | true => rw [takeWhile_border hb hborder.blanks]
    | false => rfl

/-- What a step leaves of the text ends at the same border. -/
theorem Border.drop {fresh : Bool} {col : Nat} {c : Char} {core tail : List Char} {s : Step}
    (hborder : Border (c :: core) tail) (h : step fresh col c core = .ok s) (hlast : c = '\\' → core ≠ []) :
    Border (core.drop s.more) tail where
  stops := hborder.stops
  blanks a d ha := by
    rw [List.getLast?_drop] at ha
    split at ha
    · cases ha
    · refine hborder.blanks a d ?_
      rw [List.getLast?_cons, ha]
      rfl
  whole := by
    rw [endsInEscape_step h hlast]
    exact hborder.whole

end Lexer

end TurtleLogo
