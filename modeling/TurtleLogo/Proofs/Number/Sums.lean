import TurtleLogo.Proofs.Number.Finite

/-!
# Sums

A sum of two doubles is the exact sum of their numbers, rounded once. Rounding keeps the order, so what is no greater
than a double is not rounded to a greater one.

* `exists_contains` : every number of a middling size lies in the interval of a double;
* `Normal.value_le_of_contains` : rounding keeps the order;
* `exists_add_normalize`, `add_eq_round` : a sum is the exact sum rounded;
* `exists_add`, `add_eq_of_contains` : so it is the double in whose interval the exact sum lies.
-/

namespace TurtleLogo.Number

open Float.Model Float.Model.UnpackedFloat

/-! ## Rounding -/

/-- Every number of a middling size lies in the interval of a double. -/
theorem exists_contains {a : Nat} (ha : 0 < a) {t : Int} (hleast : -1022 < t + a.log2)
    (hgreatest : t + a.log2 ≤ 1022) : ∃ d : Normal, d.interval.Contains (a * 2 ^ t) := by
  rcases le_or_gt a.log2 52 with hlog | hlog
  · obtain ⟨d, hd⟩ := exists_value_eq ha hlog hleast hgreatest
    exact ⟨d, hd ▸ d.contains_value⟩
  · obtain ⟨hlow, hhigh⟩ := (Nat.log2_eq_iff ha.ne').mp rfl
    obtain ⟨k, hk⟩ : ∃ k, a.log2 = 52 + k := ⟨a.log2 - 52, by omega⟩
    have hpos : 0 < 2 ^ k := Nat.two_pow_pos k
    have hquarters (n : Nat) (e : Int) (he : t + k = e + n) :
        (a * 2 ^ t : ℚ) * (2 ^ k : Nat) = (a * 2 ^ n : Nat) * 2 ^ e := by
      push_cast
      rw [mul_assoc, ← zpow_natCast, ← zpow_natCast, mul_assoc, ← zpow_add₀ two_ne_zero, ← zpow_add₀ two_ne_zero, he,
        Int.add_comm]
    have hq : 2 ^ 52 ≤ a / 2 ^ k := (Nat.le_div_iff_mul_le hpos).mpr (by rwa [← Nat.pow_add, ← hk])
    have hq' : a / 2 ^ k < 2 ^ 53 := (Nat.div_lt_iff_lt_mul hpos).mpr (by
      rw [← Nat.pow_add]
      rwa [hk, Nat.add_right_comm] at hhigh)
    have hr : a % 2 ^ k < 2 ^ k := Nat.mod_lt a hpos
    have ha' : a / 2 ^ k * 2 ^ k + a % 2 ^ k = a := Nat.div_add_mod' a (2 ^ k)
    generalize a / 2 ^ k = q at *
    generalize a % 2 ^ k = r at *
    generalize 2 ^ k = p at *
    by_cases hdown : 2 * r < p ∨ 2 * r = p ∧ q % 2 = 0
    · let d : Normal := ⟨q, t + k, hq, hq', by omega, by omega⟩
      refine ⟨d, (d.contains_iff hpos (hquarters 2 (t + k - 2) (by omega))).mpr ?_⟩
      dsimp only [d]
      omega
    · rcases Nat.lt_or_ge (q + 1) (2 ^ 53) with hup | hup
      · let d : Normal := ⟨q + 1, t + k, by omega, hup, by omega, by omega⟩
        refine ⟨d, (d.contains_iff hpos (hquarters 2 (t + k - 2) (by omega))).mpr ?_⟩
        dsimp only [d]
        rw [Nat.add_mul]
        omega
      · let d : Normal := ⟨2 ^ 52, t + k + 1, le_rfl, by decide, by omega, by omega⟩
        refine ⟨d, (d.contains_iff hpos (hquarters 1 (t + k + 1 - 2) (by omega))).mpr ?_⟩
        obtain rfl : q = 2 ^ 53 - 1 := by omega
        dsimp only [d]
        omega

/-- What is no greater than a double is not rounded to a greater one. -/
theorem Normal.value_le_of_contains {d d' : Normal} {v : ℚ} (hv : d.interval.Contains v) (hle : v ≤ d'.value) :
    d.value ≤ d'.value := by
  by_contra! hlt
  have hu : (0 : ℚ) < 2 ^ (d.exponent - 2) := zpow_pos two_pos _
  have hexponent : d'.exponent ≤ d.exponent := by
    by_contra! h
    exact hlt.not_gt (value_lt_of_exponent_lt h)
  suffices hbelow : ∃ n : Nat, n < d.interval.low ∧ d'.value ≤ n * 2 ^ (d.exponent - 2) by
    obtain ⟨n, hn, hvalue⟩ := hbelow
    have hlow : (n * 2 ^ (d.exponent - 2) : ℚ) < d.interval.low * 2 ^ (d.exponent - 2) :=
      mul_lt_mul_of_pos_right (Nat.cast_lt.mpr hn) hu
    exact (hvalue.trans_lt (hlow.trans_le hv.ends.1)).not_ge hle
  have hlow := d.low
  have hleast := d.least
  simp only [Normal.interval, Interval.around, twoTo_eq]
  rcases hexponent.lt_or_eq with he | he
  · have hhigh : (d'.mantissa : ℚ) ≤ (2 ^ 53 - 1 : Nat) := Nat.cast_le.mpr (Nat.le_sub_one_of_lt d'.high)
    refine ⟨2 ^ 54 - 2, by split <;> omega, ?_⟩
    calc (d'.mantissa * 2 ^ d'.exponent : ℚ) ≤ (2 ^ 53 - 1 : Nat) * 2 ^ (d.exponent - 2 + 1) :=
          mul_le_mul hhigh (zpow_le_zpow_right₀ one_le_two (by omega)) (zpow_pos two_pos _).le (Nat.cast_nonneg _)
      _ = (2 ^ 54 - 2 : Nat) * 2 ^ (d.exponent - 2) := by
          rw [zpow_add₀ two_ne_zero, zpow_one]
          norm_num
          ring
  · have hmantissa : d'.mantissa < d.mantissa := by
      rw [Normal.value, Normal.value, he] at hlt
      exact_mod_cast lt_of_mul_lt_mul_right hlt (zpow_pos two_pos d.exponent).le
    refine ⟨4 * d'.mantissa, by split <;> omega, le_of_eq ?_⟩
    rw [Normal.value, he, zpow_sub₀ two_ne_zero]
    push_cast
    ring

/-! ## Sums -/

theorem normalize_apply (s : Sign) {k : Nat} (hk : 0 < k) (t : Int) :
    UnpackedFloat.normalize Format.binary64 (s.apply k) t .positive = UnpackedFloat.round Format.binary64 s k t := by
  cases s with
  | positive =>
    have hpos : (0 : Int) < k := by omega
    simp only [UnpackedFloat.normalize, Sign.apply, Int.compare_eq_gt.mpr hpos, Int.toNat_natCast]
  | negative =>
    have hneg : -(k : Int) < 0 := by omega
    simp only [UnpackedFloat.normalize, Sign.apply, Int.compare_eq_lt.mpr hneg, Int.neg_neg, Int.toNat_natCast]

variable {x y : Float}

theorem ne_zero_of_rational {negative : Bool} {m : Nat} {e : Int} (hx : shape x = .finite negative m e)
    (h : rational x ≠ 0) : m ≠ 0 := by
  rintro rfl
  exact h (by rw [rational_of_shape hx, signed_zero])

theorem signed_shift (s : Sign) (m : Nat) {e t : Int} (ht : t ≤ e) :
    ((s.apply (m <<< (e - t).toNat : Nat) : Int) * 2 ^ t : ℚ) = signed s m e := by
  have hshift : ((e - t).toNat : Int) = e - t := Int.toNat_of_nonneg (Int.sub_nonneg_of_le ht)
  have hamount : ((m <<< (e - t).toNat : Nat) * 2 ^ t : ℚ) = m * 2 ^ e := by
    rw [Nat.shiftLeft_eq, Nat.cast_mul, Nat.cast_pow, Nat.cast_ofNat, ← zpow_natCast, hshift, mul_assoc,
      ← zpow_add₀ two_ne_zero, Int.sub_add_cancel]
  cases s with
  | positive => exact hamount
  | negative =>
    show ((-(m <<< (e - t).toNat : Nat) : Int) * 2 ^ t : ℚ) = -(m * 2 ^ e)
    rw [Int.cast_neg, neg_mul, ← hamount]
    rfl

/-- A sum is the exact sum, made a double. -/
theorem exists_add_normalize (hx : x.isFinite = true) (hy : y.isFinite = true) (hx₀ : rational x ≠ 0)
    (hy₀ : rational y ≠ 0) :
    ∃ a t : Int, (a * 2 ^ t : ℚ) = rational x + rational y ∧
      x + y = .ofModel (.pack (UnpackedFloat.normalize Format.binary64 a t .positive)) := by
  obtain ⟨negative, m, e, hx⟩ := isFinite_iff.mp hx
  obtain ⟨negative', n, f, hy⟩ := isFinite_iff.mp hy
  refine ⟨(signOf negative).apply (m <<< (e - min e f).toNat : Nat) +
    (signOf negative').apply (n <<< (f - min e f).toNat : Nat), min e f, ?_, ?_⟩
  · rw [Int.cast_add, add_mul, signed_shift _ _ (min_le_left _ _), signed_shift _ _ (min_le_right _ _),
      rational_of_shape hx, rational_of_shape hy]
  · show Float.ofModel (.pack (UnpackedFloat.add Format.binary64 x.toModel.unpack y.toModel.unpack)) = _
    rw [unpack_eq, unpack_eq, hx, hy, Shape.unpacked, Shape.unpacked, dif_neg (ne_zero_of_rational hx hx₀),
      dif_neg (ne_zero_of_rational hy hy₀)]
    rfl

/-- A positive sum is the exact sum rounded. -/
theorem add_eq_round (hx : x.isFinite = true) (hy : y.isFinite = true) (hx₀ : rational x ≠ 0) (hy₀ : rational y ≠ 0)
    (hpos : 0 < rational x + rational y) :
    ∃ (a : Nat) (t : Int), (a * 2 ^ t : ℚ) = rational x + rational y ∧ 0 < a ∧
      x + y = .ofModel (.pack (UnpackedFloat.round Format.binary64 .positive a t)) := by
  obtain ⟨a, t, hsum, hadd⟩ := exists_add_normalize hx hy hx₀ hy₀
  have ha : 0 < a := by
    rw [← hsum] at hpos
    exact_mod_cast (mul_pos_iff_of_pos_right (zpow_pos two_pos t)).mp hpos
  obtain ⟨k, rfl⟩ := Int.eq_ofNat_of_zero_le ha.le
  have hk : 0 < k := by omega
  refine ⟨k, t, by exact_mod_cast hsum, hk, ?_⟩
  rw [hadd]
  exact congrArg (Float.ofModel ∘ .pack) (normalize_apply .positive hk _)

/-- A sum is the double in whose interval the exact sum lies. -/
theorem add_eq_of_contains (d : Normal) (hx : x.isFinite = true) (hy : y.isFinite = true) (hx₀ : rational x ≠ 0)
    (hy₀ : rational y ≠ 0) (hv : d.interval.Contains (rational x + rational y)) : x + y = d.float .positive := by
  have hpos : 0 < rational x + rational y := (zpow_pos two_pos _).trans_le (d.bounds hv).1
  obtain ⟨a, t, hsum, -, hadd⟩ := add_eq_round hx hy hx₀ hy₀ hpos
  rw [hadd, d.round_contains .positive (hsum ▸ hv)]
  rfl

theorem exists_add (hx : x.isFinite = true) (hy : y.isFinite = true) (hx₀ : rational x ≠ 0) (hy₀ : rational y ≠ 0)
    (hlow : 2 ^ (-1000 : Int) ≤ rational x + rational y) (hhigh : rational x + rational y < 2 ^ (1000 : Int)) :
    ∃ d : Normal, d.interval.Contains (rational x + rational y) ∧ x + y = d.float .positive := by
  obtain ⟨a, t, hsum, ha, -⟩ := add_eq_round hx hy hx₀ hy₀ ((zpow_pos two_pos _).trans_le hlow)
  have hleast := le_log2_add (hsum ▸ hlow)
  have hgreatest := log2_add_lt ha (hsum ▸ hhigh)
  obtain ⟨d, hd⟩ := exists_contains ha (t := t) (by omega) (by omega)
  rw [hsum] at hd
  exact ⟨d, hd, add_eq_of_contains d hx hy hx₀ hy₀ hd⟩

end TurtleLogo.Number
