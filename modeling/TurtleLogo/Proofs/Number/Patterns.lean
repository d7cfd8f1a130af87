import Mathlib.Data.List.TakeWhile
import TurtleLogo.Number.Numeral

/-!
# How numerals are written

The words that are numerals, as patterns: digits; digits with a point before, between or behind them, and an exponent
perhaps; digits with an exponent. Reading a numeral takes apart the words of these patterns and no others.

* `Numeral.Pattern` : a word and the numeral that it is, `IsNumeral` : a word that is one;
* `read?_eq_some_iff` : what reading a numeral gives;
* `read?_integer`, `read?_fractional` : numerals of digits, and of digits with a point.
-/

namespace TurtleLogo.Number

/-- An exponent with its mark, or nothing, and its digits. -/
inductive ExponentPattern (mark : Char) : List Char → List Char → Prop
  | none : ExponentPattern mark [] []
  | digits {ds : List Char} (h : ∀ c ∈ ds, c.isDigit = true) (hne : ds ≠ []) : ExponentPattern mark (mark :: ds) ds

/-- A word that is written like a number, and the numeral that it is. -/
inductive Numeral.Pattern (mark : Char) : List Char → Numeral → Prop
  | integer {ds : List Char} (h : ∀ c ∈ ds, c.isDigit = true) (hne : ds ≠ []) : Pattern mark ds (.integer ds)
  /-- Digits with a point, of which there is one at least, on either side of it. -/
  | point {whole fraction exponent ds : List Char} (hwhole : ∀ c ∈ whole, c.isDigit = true)
      (hfraction : ∀ c ∈ fraction, c.isDigit = true) (hne : whole ≠ [] ∨ fraction ≠ [])
      (he : ExponentPattern mark exponent ds) :
      Pattern mark (whole ++ '.' :: (fraction ++ exponent)) (.fractional whole fraction ds)
  /-- Digits with an exponent and no point. -/
  | scaled {whole ds : List Char} (hwhole : ∀ c ∈ whole, c.isDigit = true) (hne : whole ≠ [])
      (h : ∀ c ∈ ds, c.isDigit = true) (hdigits : ds ≠ []) : Pattern mark (whole ++ mark :: ds) (.fractional whole [] ds)

def IsNumeral (word : List Char) : Prop := ∃ n, Numeral.Pattern 'E' word n

/-! ## Reading the patterns -/

variable {mark : Char}

theorem exponent?_eq_some_iff {cs ds : List Char} : exponent? mark cs = some ds ↔ ExponentPattern mark cs ds := by
  constructor
  · intro h
    cases cs with
    | nil =>
      cases h
      exact .none
    | cons c cs =>
      rw [exponent?] at h
      split at h
      · next hc =>
        cases h
        simp only [Bool.and_eq_true, decide_eq_true_eq, Bool.not_eq_true', List.isEmpty_eq_false_iff,
          List.all_eq_true] at hc
        obtain ⟨⟨rfl, hne⟩, hdigits⟩ := hc
        exact .digits hdigits hne
      · cases h
  · rintro (_ | ⟨hdigits, hne⟩)
    · rfl
    · rw [exponent?, if_pos]
      simpa [hne] using hdigits

/-- Digits up to a character that is none. -/
theorem span_digits {ds rest : List Char} (h : ∀ c ∈ ds, c.isDigit = true) (hrest : ∀ c ∈ rest.head?, c.isDigit = false) :
    (ds ++ rest).takeWhile Char.isDigit = ds ∧ (ds ++ rest).dropWhile Char.isDigit = rest := by
  rw [List.takeWhile_append_of_pos h, List.dropWhile_append_of_pos h]
  cases rest with
  | nil => exact ⟨List.append_nil ds, rfl⟩
  | cons c rest =>
    have hc : ¬c.isDigit = true := by
      rw [hrest c rfl]
      exact Bool.false_ne_true
    rw [List.takeWhile_cons_of_neg hc, List.dropWhile_cons_of_neg hc]
    exact ⟨List.append_nil ds, rfl⟩

theorem ExponentPattern.head {cs ds : List Char} (h : ExponentPattern mark cs ds) (hmark : mark.isDigit = false) :
    ∀ c ∈ cs.head?, c.isDigit = false := by
  intro c hc
  cases h with
  | none => cases hc
  | digits _ _ =>
    cases hc
    exact hmark

theorem Numeral.Pattern.read? {word : List Char} {n : Numeral} (h : Numeral.Pattern mark word n)
    (hmark : mark.isDigit = false) (hpoint : mark ≠ '.') : Numeral.read? mark word = some n := by
  unfold Numeral.read?
  cases h with
  | integer hdigits hne =>
    rw [List.takeWhile_eq_self_iff.mpr hdigits, List.dropWhile_eq_nil_iff.mpr hdigits]
    exact if_neg (by simpa using hne)
  | @point whole fraction exponent ds hwhole hfraction hne he =>
    have hhead : ∀ c ∈ ('.' :: (fraction ++ exponent)).head?, c.isDigit = false := by
      intro c hc
      cases hc
      rfl
    obtain ⟨htake, hdrop⟩ := span_digits hwhole hhead
    obtain ⟨htake', hdrop'⟩ := span_digits hfraction (he.head hmark)
    have hsome : ¬(whole.isEmpty && fraction.isEmpty) = true := by
      rw [Bool.and_eq_true, List.isEmpty_iff, List.isEmpty_iff]
      rintro ⟨rfl, rfl⟩
      simp at hne
    rw [htake, hdrop]
    simp only [htake', hdrop', hsome, exponent?_eq_some_iff.mpr he]
    rfl
  | @scaled whole ds hwhole hne hdigits hne' =>
    have hhead : ∀ c ∈ (mark :: ds).head?, c.isDigit = false := by
      intro c hc
      cases hc
      exact hmark
    obtain ⟨htake, hdrop⟩ := span_digits hwhole hhead
    rw [htake, hdrop]
    dsimp only
    split
    · next h => cases h
    · next h => exact absurd (List.cons.inj h).1 hpoint
    · rw [if_neg (by simpa using hne), exponent?_eq_some_iff.mpr (.digits hdigits hne')]
      rfl

theorem Numeral.Pattern.of_read? {word : List Char} {n : Numeral} (h : Numeral.read? mark word = some n) :
    Numeral.Pattern mark word n := by
  have hword := List.takeWhile_append_dropWhile (p := Char.isDigit) (l := word)
  have hdigits (cs : List Char) : ∀ c ∈ cs.takeWhile Char.isDigit, c.isDigit = true := fun c hc => List.mem_takeWhile_imp hc
  unfold Numeral.read? at h
  dsimp only at h
  rw [← hword]
  split at h
  · next htail =>
    rw [htail, List.append_nil]
    split at h
    · cases h
    · next hne =>
      cases h
      exact .integer (hdigits word) (by simpa using hne)
  · next rest htail =>
    rw [htail]
    split at h
    · cases h
    · next hne =>
      obtain ⟨ds, he, rfl⟩ := Option.map_eq_some_iff.mp h
      have hpoint := Pattern.point (hdigits word) (hdigits rest) ?_ (exponent?_eq_some_iff.mp he)
      · rwa [List.takeWhile_append_dropWhile] at hpoint
      · rw [Bool.and_eq_true, List.isEmpty_iff, List.isEmpty_iff] at hne
        exact Classical.not_and_iff_not_or_not.mp hne
  · next hnil _ =>
    split at h
    · cases h
    · next hne =>
      obtain ⟨ds, he, rfl⟩ := Option.map_eq_some_iff.mp h
      generalize word.dropWhile Char.isDigit = tail at hnil he
      cases exponent?_eq_some_iff.mp he with
      | none => exact absurd rfl hnil
      | digits hds hne' => exact .scaled (hdigits word) (by simpa using hne) hds hne'

/-- **Reading a numeral** gives the numeral that a word is, and nothing for other words. -/
theorem read?_eq_some_iff (hmark : mark.isDigit = false) (hpoint : mark ≠ '.') {word : List Char} {n : Numeral} :
    Numeral.read? mark word = some n ↔ Numeral.Pattern mark word n :=
  ⟨.of_read?, fun h => h.read? hmark hpoint⟩

theorem isSome_read?_iff {word : List Char} : (Numeral.read? 'E' word).isSome = true ↔ IsNumeral word := by
  rw [Option.isSome_iff_exists]
  exact exists_congr fun _ => read?_eq_some_iff (by decide) (by decide)

instance (word : List Char) : Decidable (IsNumeral word) := decidable_of_iff _ isSome_read?_iff

/-! ## Digits, and a point -/

theorem read?_integer {ds : List Char} (h : ∀ c ∈ ds, c.isDigit = true) (hne : ds ≠ []) :
    Numeral.read? 'E' ds = some (.integer ds) :=
  (Numeral.Pattern.integer h hne).read? (by decide) (by decide)

theorem read?_fractional {whole fraction : List Char} (h : ∀ c ∈ whole ++ fraction, c.isDigit = true) (hne : whole ≠ []) :
    Numeral.read? 'E' (whole ++ '.' :: fraction) = some (.fractional whole fraction []) := by
  obtain ⟨hwhole, hfraction⟩ := List.forall_mem_append.mp h
  have hpattern : Numeral.Pattern 'E' (whole ++ '.' :: (fraction ++ [])) (.fractional whole fraction []) :=
    .point hwhole hfraction (.inl hne) .none
  rw [List.append_nil] at hpattern
  exact hpattern.read? (by decide) (by decide)

end TurtleLogo.Number
