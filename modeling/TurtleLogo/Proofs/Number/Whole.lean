import TurtleLogo.Proofs.Number.Sums

/-!
# Whole numbers as doubles

Up to `2 ^ 53` every whole number is a double, so that sums of whole numbers are exact as long as they stay there.
Beyond that, one is lost in the rounding.

* `IsWhole x n` : the double `x` is the whole number `n`, `isWhole_iff`;
* `isWhole_ofInt`, `isWhole_normalize` : what is a whole number of at most 53 bits is not rounded;
* `numberText_ofInt` : its text;
* `IsWhole.add`, `IsWhole.le_iff` : sums and comparisons of whole numbers;
* `IsWhole.add_past` : the first sum that is lost.
-/

namespace TurtleLogo.Number

open Float.Model Float.Model.UnpackedFloat

def signedZero (s : Sign) : Float := .ofModel (.pack (.zero s))

/-- A double that is a whole number. -/
inductive IsWhole : Float → Int → Prop
  | zero (s : Sign) : IsWhole (signedZero s) 0
  | normal (d : Normal) (s : Sign) {n : Nat} (h : (n : ℚ) = d.value) : IsWhole (d.float s) (s.apply n)

theorem unpack_signedZero (s : Sign) : (signedZero s).toModel.unpack = .zero s := by
  cases s <;> rfl

/-! ## Whole numbers by their parts -/

theorem Normal.ne_zero_of_value (d : Normal) {n : Nat} (h : (n : ℚ) = d.value) : n ≠ 0 := by
  rintro rfl
  exact d.value_pos.ne h

theorem Normal.isInteger_of_value (d : Normal) (s : Sign) {n : Nat} (h : (n : ℚ) = d.value) :
    isInteger (d.float s) = true := by
  simp only [isInteger, d.shape_float, Bool.or_eq_true, decide_eq_true_eq, beq_iff_eq]
  by_cases he : 0 ≤ d.exponent
  · exact .inl he
  · right
    obtain ⟨k, hk⟩ : ∃ k : Nat, d.exponent = -k := ⟨d.exponent.natAbs, by omega⟩
    have hmantissa : d.mantissa = n * 2 ^ k := by
      have hcast : (d.mantissa : ℚ) = n * 2 ^ k := by
        rw [h, Normal.value, hk, zpow_neg, zpow_natCast, inv_mul_cancel_right₀ (by positivity)]
      exact_mod_cast hcast
    rw [hk, Int.neg_neg, Int.toNat_natCast, hmantissa, twoTo_eq]
    exact Nat.mul_mod_left _ _

theorem IsWhole.isInteger {x : Float} {n : Int} (h : IsWhole x n) : isInteger x = true := by
  cases h with
  | zero s => cases s <;> decide +kernel
  | normal d s h => exact d.isInteger_of_value s h

theorem IsWhole.truncate {x : Float} {n : Int} (h : IsWhole x n) : truncate x = n := by
  cases h with
  | zero s => cases s <;> decide +kernel
  | normal d s h =>
    obtain ⟨m, hpositive, hnegative, -, hm⟩ := d.whole_eq (d.isInteger_of_value .positive h)
    obtain rfl := Nat.cast_injective (hm.trans h.symm)
    cases s with
    | positive => exact hpositive
    | negative => exact hnegative

/-- A double that is a whole number is zero or has all its bits. -/
theorem isWhole_of_isInteger {x : Float} (h : Number.isInteger x = true) : IsWhole x (Number.truncate x) := by
  suffices hx : ∃ n, IsWhole x n by
    obtain ⟨n, hn⟩ := hx
    rwa [hn.truncate]
  cases hx : shape x with
  | nan | infinite _ => simp [Number.isInteger, hx] at h
  | finite negative m e =>
    by_cases hm : m = 0
    · subst hm
      obtain rfl | rfl := zero_of_shape hx
      · exact ⟨0, .zero .positive⟩
      · exact ⟨0, .zero .negative⟩
    · obtain ⟨field, -, -, hcases⟩ := toNat_toBits_of_shape hx
      by_cases he : e = -1074
      · subst he
        rw [isInteger_least hx (Nat.pos_of_ne_zero hm) (by omega)] at h
        cases h
      · obtain ⟨d, -, -, rfl⟩ := exists_normal hx (by omega)
        have hpositive : Number.isInteger (d.float .positive) = true := by
          cases negative with
          | false => exact h
          | true => exact d.isInteger_negative ▸ h
        obtain ⟨n, -, -, -, hn⟩ := d.whole_eq hpositive
        exact ⟨_, .normal d _ hn⟩

theorem isWhole_iff {x : Float} {n : Int} : IsWhole x n ↔ Number.isInteger x = true ∧ Number.truncate x = n := by
  constructor
  · exact fun h => ⟨h.isInteger, h.truncate⟩
  · rintro ⟨h, rfl⟩
    exact isWhole_of_isInteger h

theorem IsWhole.isFinite {x : Float} {n : Int} (h : IsWhole x n) : x.isFinite = true := by
  cases h with
  | zero s => cases s <;> rfl
  | normal d s h => exact d.isFinite_float s

theorem IsWhole.rational_eq {x : Float} {n : Int} (h : IsWhole x n) : rational x = n := by
  cases h with
  | zero s =>
    have hshape : shape (signedZero s) = .finite (s == .negative) 0 (-1074) := by cases s <;> decide +kernel
    rw [rational_of_shape hshape, signed_zero, Int.cast_zero]
  | normal d s h =>
    rw [d.rational_float]
    cases s with
    | positive => exact h.symm
    | negative =>
      show -d.value = _
      rw [← h]
      exact (Int.cast_neg _).symm

/-! ## Rounding -/

/-- Whole numbers of at most 53 bits are doubles, and so is the first one above them. -/
theorem exists_normal_value {n : Nat} (hn : 0 < n) (hbits : n ≤ 2 ^ 53) : ∃ d : Normal, (n : ℚ) = d.value := by
  rcases hbits.lt_or_eq with hlt | rfl
  · obtain ⟨d, -, hd⟩ := exists_normal_toFloat hn hlt
    exact ⟨d, hd.symm⟩
  · refine ⟨⟨2 ^ 52, 1, le_rfl, by decide, by decide, by decide⟩, ?_⟩
    rw [Normal.value]
    norm_num

/-- A whole number of at most 53 bits is made a double without rounding. -/
theorem isWhole_ofInt {n : Int} (h : n.natAbs ≤ 2 ^ 53) : IsWhole (Float.ofInt n) n := by
  cases n with
  | ofNat n =>
    rcases n.eq_zero_or_pos with rfl | hpos
    · exact .zero .positive
    · obtain ⟨d, hd⟩ := exists_normal_value hpos h
      show IsWhole (Float.ofNat n) n
      rw [d.ofNat_eq hd]
      exact .normal d .positive hd
  | negSucc n =>
    obtain ⟨d, hd⟩ := exists_normal_value n.succ_pos h
    show IsWhole (-Float.ofNat n.succ) _
    rw [d.ofNat_eq hd, d.neg_float]
    exact .normal d .negative hd

/-- A whole number that is not too large is written without a fraction. -/
theorem numberText_ofInt {n : Int} (h : n.natAbs < wholeLimit) : numberText (Float.ofInt n) = intText n := by
  have hlimit : wholeLimit ≤ 2 ^ 53 := by decide +kernel
  have hwhole : IsWhole (Float.ofInt n) n := isWhole_ofInt (h.le.trans hlimit)
  rw [numberText, hwhole.isInteger, hwhole.truncate, Bool.true_and, if_pos (decide_eq_true h)]

theorem cast_apply (s : Sign) (n : Nat) : ((s.apply n : Int) : ℚ) = (s.apply 1 : Int) * n := by
  cases s with
  | positive => exact (one_mul _).symm
  | negative =>
    show ((-n : Int) : ℚ) = (-1 : Int) * n
    push_cast
    ring

theorem exists_apply (n : Int) : ∃ s : Sign, n = s.apply n.natAbs := by
  rcases Int.natAbs_eq n with h | h
  · exact ⟨.positive, h⟩
  · exact ⟨.negative, h⟩

/-- A sum that is a whole number of at most 53 bits is not rounded. -/
theorem isWhole_normalize {m t n : Int} (h : (m * 2 ^ t : ℚ) = n) (hn : n.natAbs ≤ 2 ^ 53) :
    IsWhole (.ofModel (.pack (UnpackedFloat.normalize Format.binary64 m t .positive))) n := by
  have ht : (0 : ℚ) < 2 ^ t := zpow_pos two_pos t
  obtain ⟨s, hm⟩ := exists_apply m
  rcases Nat.eq_zero_or_pos m.natAbs with hzero | hpos
  · obtain rfl : m = 0 := Int.natAbs_eq_zero.mp hzero
    rw [Int.cast_zero, zero_mul] at h
    obtain rfl : n = 0 := by exact_mod_cast h.symm
    exact .zero .positive
  · have habs : (n.natAbs : ℚ) = m.natAbs * 2 ^ t := by
      rw [Nat.cast_natAbs, Nat.cast_natAbs, Int.cast_abs, Int.cast_abs, ← h, abs_mul, abs_of_pos ht]
    have hsign : n = s.apply n.natAbs := by
      have hcast : (n : ℚ) = (s.apply n.natAbs : Int) := by
        rw [cast_apply, habs, ← mul_assoc, ← cast_apply, ← hm, h]
      exact_mod_cast hcast
    have hpos' : 0 < n.natAbs := by
      refine Nat.pos_of_ne_zero fun hzero => ?_
      rw [hzero, Nat.cast_zero] at habs
      exact (mul_pos (Nat.cast_pos.mpr hpos) ht).ne habs
    obtain ⟨d, hd⟩ := exists_normal_value hpos' hn
    have hwhole := IsWhole.normal d s hd
    rw [← hsign] at hwhole
    rw [hm, normalize_apply s hpos, d.round_contains s (habs ▸ hd ▸ d.contains_value)]
    exact hwhole

/-! ## Sums -/

variable {x y : Float} {a b : Int}

/-- Sums of whole numbers are exact as long as they have at most 53 bits. -/
theorem IsWhole.add (hx : IsWhole x a) (hy : IsWhole y b) (hab : (a + b).natAbs ≤ 2 ^ 53) :
    IsWhole (x + y) (a + b) := by
  cases hx with
  | zero s =>
    show IsWhole (.ofModel (.pack (UnpackedFloat.add Format.binary64 (signedZero s).toModel.unpack y.toModel.unpack))) _
    rw [Int.zero_add, unpack_signedZero]
    cases hy with
    | zero s' =>
      rw [unpack_signedZero]
      cases s <;> cases s' <;> constructor
    | normal d s' h =>
      rw [d.unpack_float]
      exact .normal d s' h
  | normal d s h =>
    have hx := IsWhole.normal d s h
    cases hy with
    | zero s' =>
      show IsWhole (.ofModel (.pack (UnpackedFloat.add Format.binary64 (d.float s).toModel.unpack
        (signedZero s').toModel.unpack))) _
      rw [d.unpack_float, Int.add_zero, unpack_signedZero]
      exact hx
    | normal d' s' h' =>
      have hy := IsWhole.normal d' s' h'
      obtain ⟨m, t, hsum, hadd⟩ := exists_add_normalize hx.isFinite hy.isFinite (d.rational_ne_zero s)
        (d'.rational_ne_zero s')
      rw [hadd]
      refine isWhole_normalize ?_ hab
      rw [hsum, hx.rational_eq, hy.rational_eq, Int.cast_add]

/-! ## Comparisons -/

/-- Whole numbers compare as they do. -/
theorem IsWhole.le_iff (hx : IsWhole x a) (hy : IsWhole y b) : x ≤ y ↔ a ≤ b := by
  rw [le_iff_rational hx.isFinite hy.isFinite, hx.rational_eq, hy.rational_eq, Int.cast_le]

/-! ## Where counting ends -/

/-- Other than zero a whole number is one double. -/
theorem IsWhole.unique (hx : IsWhole x a) (hy : IsWhole y a) (ha : a ≠ 0) : x = y := by
  generalize hb : a = b at hy
  cases hx with
  | zero s => exact absurd rfl ha
  | normal d s h =>
    cases hy with
    | zero s' => exact absurd hb ha
    | normal d' s' h' =>
      have hn := d.ne_zero_of_value h
      have hn' := d'.ne_zero_of_value h'
      cases s <;> cases s' <;> simp only [Sign.apply] at hb
      case negative.negative | positive.positive =>
        have heq : d = d' := Normal.eq_of_value (by rw [← h, ← h']; congr 1; omega)
        rw [heq]
      all_goals omega

/-- One is lost in the sum with `2 ^ 53`. -/
theorem IsWhole.add_past (hx : IsWhole x (2 ^ 53)) : IsWhole (x + 1) (2 ^ 53) := by
  have hpower : IsWhole 9007199254740992 (2 ^ 53) := isWhole_iff.mpr (by decide +kernel)
  rw [hx.unique hpower (by decide)]
  exact isWhole_iff.mpr (by decide +kernel)

theorem IsWhole.add_neg_past (hx : IsWhole x (-2 ^ 53)) : IsWhole (x + -1) (-2 ^ 53) := by
  have hpower : IsWhole (-9007199254740992) (-2 ^ 53) := isWhole_iff.mpr (by decide +kernel)
  rw [hx.unique hpower (by decide)]
  exact isWhole_iff.mpr (by decide +kernel)

end TurtleLogo.Number
