import Mathlib
import TurtleLogo.Number.Decimal

/-!
# Rounding

Doubles are computed exactly and then rounded: shifted to the right until as many bits are left as a mantissa has, where
one bit more and whether anything is left below it decide the last bit. Said of fractions, a shift is a division, and
what is rounded to a double are the numbers of its interval.

* `residue a b` : the whole part of `a / b` with the two bits; `residue_shiftRight` : shifts;
* `roundedMantissa_residue_eq` : which fractions are rounded to a whole number;
* `Interval.Contains` : the numbers of an interval;
* `Normal` : the doubles with all the bits of a mantissa, each with the interval around it;
* `round_quotient` : what lies in that interval is rounded to the double.
-/

namespace TurtleLogo.Number

open Float.Model Float.Model.UnpackedFloat

/-! ## Fractions and shifts -/

/-- The whole part of the fraction `a / b`, and what rounding has to know of the rest. -/
def residue (a b : Nat) : ExtendedMantissa where
  mantissa := a / b
  roundBit := decide (b ≤ 2 * (a % b))
  stickyBit := decide (2 * (a % b) % b ≠ 0)

variable {a b m : Nat}

theorem ofMantissaAndAccuracy_eq_residue (hb : 0 < b) :
    ExtendedMantissa.ofMantissaAndAccuracy (a / b) (accuracyOfFraction (a % b) b) = residue a b := by
  have hr : a % b < b := Nat.mod_lt a hb
  unfold accuracyOfFraction residue
  by_cases hzero : a % b = 0
  · simp [hzero, ExtendedMantissa.ofMantissaAndAccuracy, hb.ne']
  · rw [if_neg hzero]
    rcases Nat.lt_trichotomy (2 * (a % b)) b with h | h | h
    · rw [Nat.compare_eq_lt.mpr h, Nat.mod_eq_of_lt h]
      simp [ExtendedMantissa.ofMantissaAndAccuracy, h, hzero]
    · rw [Nat.compare_eq_eq.mpr h, h]
      simp [ExtendedMantissa.ofMantissaAndAccuracy]
    · have hmod : 2 * (a % b) % b = 2 * (a % b) - b := by
        rw [Nat.mod_eq_sub_mod h.le, Nat.mod_eq_of_lt (by omega)]
      rw [Nat.compare_eq_gt.mpr h, hmod]
      simp only [ExtendedMantissa.ofMantissaAndAccuracy, ExtendedMantissa.mk.injEq, true_and, Bool.true_eq,
        decide_eq_true_eq]
      omega

/-- Something is left of the fraction iff one of the two bits is set. -/
theorem rest_ne_zero_iff {r : Nat} (hr : r < b) : (b ≤ 2 * r ∨ 2 * r % b ≠ 0) ↔ r ≠ 0 := by
  rcases Nat.lt_or_ge (2 * r) b with h | h
  · rw [Nat.mod_eq_of_lt h]
    omega
  · omega

theorem shiftRightOne_residue (hb : 0 < b) : (residue a b).shiftRightOne = residue a (2 * b) := by
  have hr : a % b < b := Nat.mod_lt a hb
  have hmod : a % (2 * b) = a % b + b * (a / b % 2) := by rw [Nat.mul_comm 2 b, Nat.mod_mul]
  unfold ExtendedMantissa.shiftRightOne residue
  simp only [ExtendedMantissa.mk.injEq]
  refine ⟨by rw [Nat.div_div_eq_div_mul, Nat.mul_comm], ?_, ?_⟩
  · rw [hmod]
    rcases Nat.mod_two_eq_zero_or_one (a / b) with h | h
    · simp only [h, bne_self_eq_false, Bool.false_eq, decide_eq_false_iff_not]
      omega
    · simp [h]
  · rw [Nat.mul_mod_mul_left, Nat.mod_mod_of_dvd a ⟨2, Nat.mul_comm 2 b⟩, ← Bool.decide_or]
    refine decide_eq_decide.mpr ((rest_ne_zero_iff hr).trans ?_)
    omega

theorem residue_shiftRight (hb : 0 < b) (k : Nat) : residue a b >>> k = residue a (2 ^ k * b) := by
  induction k with
  | zero => rw [Nat.pow_zero, Nat.one_mul]; rfl
  | succ k ih =>
    show (residue a b >>> k).shiftRightOne = _
    rw [ih, shiftRightOne_residue (Nat.mul_pos (Nat.two_pow_pos k) hb), Nat.pow_succ', Nat.mul_assoc]

/-- Rounding to the nearest whole number, of two equally near ones to the even one. -/
theorem roundedMantissa_residue (hb : 0 < b) :
    (residue a b).roundedMantissa =
      if 2 * (a % b) < b then a / b else if 2 * (a % b) = b then a / b + a / b % 2 else a / b + 1 := by
  have hr : a % b < b := Nat.mod_lt a hb
  unfold ExtendedMantissa.roundedMantissa residue
  rcases Nat.lt_trichotomy (2 * (a % b)) b with h | h | h
  · rw [if_pos h, decide_eq_false (Nat.not_le_of_lt h)]
    cases decide (2 * (a % b) % b ≠ 0) <;> rfl
  · rw [if_neg h.not_lt, if_pos h, h, decide_eq_true b.le_refl, Nat.mod_self]
    rfl
  · have hmod : 2 * (a % b) % b = 2 * (a % b) - b := by
      rw [Nat.mod_eq_sub_mod h.le, Nat.mod_eq_of_lt (by omega)]
    rw [if_neg h.not_gt, if_neg h.ne', decide_eq_true h.le, hmod, decide_eq_true (by omega)]
    rfl

/-- A fraction within a half of `m` is rounded to `m`; at a half exactly only if `m` is even. -/
theorem roundedMantissa_residue_eq (hb : 0 < b) (hlow : 2 * (m * b) ≤ 2 * a + b) (hhigh : 2 * a ≤ 2 * (m * b) + b)
    (hties : m % 2 = 0 ∨ 2 * (m * b) < 2 * a + b ∧ 2 * a < 2 * (m * b) + b) :
    (residue a b).roundedMantissa = m := by
  have hr : a % b < b := Nat.mod_lt a hb
  have ha : a / b * b + a % b = a := Nat.div_add_mod' a b
  rw [roundedMantissa_residue hb]
  rcases Nat.lt_or_ge (a / b) m with hq | hq
  · have hm : m = a / b + 1 := by
      refine Nat.le_antisymm (Nat.le_of_lt_succ ?_) hq
      refine Nat.lt_of_mul_lt_mul_right (a := b) ?_
      rw [Nat.succ_mul (a / b).succ, Nat.succ_mul (a / b)]
      omega
    rw [hm, Nat.succ_mul (a / b)] at hlow hties
    split_ifs <;> omega
  · have hm : m = a / b := by
      refine Nat.le_antisymm hq (Nat.le_of_lt_succ ?_)
      refine Nat.lt_of_mul_lt_mul_right (a := b) ?_
      rw [Nat.succ_mul]
      omega
    rw [hm] at hhigh hties
    split_ifs <;> omega

/-! ## Rounding a fraction to a mantissa -/

/-- The first of two shifts, which leaves as many bits as a mantissa has. -/
theorem shiftToTargetExponent_quotient (hb : 0 < b) {k : Nat} {t e : Int} (hbits : (a / b).log2 = 52 + k)
    (ht : t + k = e) (he : -1074 ≤ e) :
    shiftToTargetExponent Format.binary64 (a / b) t (accuracyOfFraction (a % b) b) = (residue a (2 ^ k * b), e) := by
  have htarget : Format.binary64.targetExponent (totalExponent (a / b) t) = e := by
    simp only [Format.targetExponent, totalExponent, hbits, Format.mantissaBits, Format.minExponent]
    norm_num
    omega
  have hshift : (e - t).toNat = k := by omega
  rw [shiftToTargetExponent, htarget, shiftToExponent, hshift, ofMantissaAndAccuracy_eq_residue hb,
    residue_shiftRight hb, ht]

theorem shiftToTargetExponent_exact {k : Nat} {t e : Int} (hbits : m.log2 = 52 + k) (ht : t + k = e)
    (he : -1074 ≤ e) : shiftToTargetExponent Format.binary64 m t .exact = (residue m (2 ^ k), e) := by
  have h := shiftToTargetExponent_quotient (a := m) (b := 1) Nat.one_pos (by rwa [Nat.div_one]) ht he
  rw [Nat.div_one, Nat.mod_one, Nat.mul_one] at h
  exact h

theorem log2_quotient (hb : 0 < b) {k : Nat} (hlow : 2 ^ 52 * (2 ^ k * b) ≤ a) (hhigh : a < 2 ^ 53 * (2 ^ k * b)) :
    (a / b).log2 = 52 + k := by
  rw [← Nat.mul_assoc, ← Nat.pow_add] at hlow hhigh
  have hle : 2 ^ (52 + k) ≤ a / b := (Nat.le_div_iff_mul_le hb).mpr hlow
  have hlt : a / b < 2 ^ (52 + k + 1) := by
    rw [Nat.add_right_comm]
    exact (Nat.div_lt_iff_lt_mul hb).mpr hhigh
  exact (Nat.log2_eq_iff (Nat.lt_of_lt_of_le (Nat.two_pow_pos _) hle).ne').mpr ⟨hle, hlt⟩

/-- A fraction is shifted, rounded and shifted again, by `k` and then by `j` bits. -/
theorem roundWithAccuracy_quotient (s : Sign) (hb : 0 < b) {k j : Nat} {t e : Int} (hbits : (a / b).log2 = 52 + k)
    (hbits' : (residue a (2 ^ k * b)).roundedMantissa.log2 = 52 + j) (he : -1074 ≤ t + k) (ht : t + k + j = e)
    (hm : (residue a (2 ^ k * b)).roundedMantissa / 2 ^ j = m) (hpos : 0 < m) :
    roundWithAccuracy Format.binary64 s (a / b) t (accuracyOfFraction (a % b) b) = .finite s m e hpos := by
  unfold roundWithAccuracy
  rw [shiftToTargetExponent_quotient hb hbits rfl he]
  dsimp only
  rw [shiftToTargetExponent_exact hbits' ht (by omega)]
  subst hm
  exact dif_neg hpos.ne'

/-! ## Intervals -/

def Interval.Contains (i : Interval) (v : ℚ) : Prop :=
  if i.closed then i.low * 2 ^ i.exponent ≤ v ∧ v ≤ i.high * 2 ^ i.exponent
  else i.low * 2 ^ i.exponent < v ∧ v < i.high * 2 ^ i.exponent

theorem Interval.Contains.ends {i : Interval} {v : ℚ} (h : i.Contains v) :
    i.low * 2 ^ i.exponent ≤ v ∧ v ≤ i.high * 2 ^ i.exponent := by
  unfold Interval.Contains at h
  split at h
  · exact h
  · exact ⟨h.1.le, h.2.le⟩

theorem Interval.low_around_pos {e : Int} (hm : 0 < m) : 0 < (Interval.around m e).low := by
  simp only [Interval.around]
  split <;> omega

/-- A multiple in an interval of positive numbers is not the zeroth. -/
theorem Interval.Contains.pos {i : Interval} {n : Nat} {x : ℚ} (h : i.Contains (n * x)) (hlow : 0 < i.low) : 0 < n := by
  refine Nat.pos_of_ne_zero fun hn => ?_
  have hends := h.ends.1
  rw [hn, Nat.cast_zero, zero_mul] at hends
  exact absurd hends (not_le.mpr (mul_pos (Nat.cast_pos.mpr hlow) (zpow_pos two_pos _)))

/-- A number in an interval's own unit over a denominator. -/
theorem Interval.contains_iff {i : Interval} {v : ℚ} {n c : Nat} (hc : 0 < c) (hv : v * c = n * 2 ^ i.exponent) :
    i.Contains v ↔ if i.closed then i.low * c ≤ n ∧ n ≤ i.high * c else i.low * c < n ∧ n < i.high * c := by
  have hc' : (0 : ℚ) < c := Nat.cast_pos.mpr hc
  have hu : (0 : ℚ) < 2 ^ i.exponent := zpow_pos two_pos _
  have hv' : v = n * 2 ^ i.exponent / c := by rw [← hv, mul_div_cancel_right₀ _ hc'.ne']
  have hle (x : Nat) : x * 2 ^ i.exponent ≤ v ↔ x * c ≤ n := by
    rw [hv', le_div_iff₀ hc', mul_right_comm, mul_le_mul_iff_left₀ hu]
    norm_cast
  have hge (x : Nat) : v ≤ x * 2 ^ i.exponent ↔ n ≤ x * c := by
    rw [hv', div_le_iff₀ hc', mul_right_comm, mul_le_mul_iff_left₀ hu]
    norm_cast
  unfold Interval.Contains
  split
  · rw [hle, hge]
  · rw [← not_le, ← not_le, hle, hge, not_le, not_le]

/-! ## Doubles with all their bits -/

/-- A positive double whose mantissa has all its bits, less the smallest of these, which have the least exponent. -/
structure Normal where
  mantissa : Nat
  exponent : Int
  low : 2 ^ 52 ≤ mantissa
  high : mantissa < 2 ^ 53
  least : -1074 < exponent
  greatest : exponent ≤ 971

namespace Normal

variable (d : Normal)

theorem mantissa_pos : 0 < d.mantissa := Nat.lt_of_lt_of_le (Nat.two_pow_pos 52) d.low

theorem log2_mantissa : d.mantissa.log2 = 52 := (Nat.log2_eq_iff d.mantissa_pos.ne').mpr ⟨d.low, d.high⟩

def unpacked (s : Sign) : UnpackedFloat := .finite s d.mantissa d.exponent d.mantissa_pos

def interval : Interval := .around d.mantissa d.exponent

end Normal

/-- How a number compares with the ends of an interval, in quarters. -/
theorem Normal.contains_iff (d : Normal) {c n : Nat} {v : ℚ} (hc : 0 < c) (hn : v * c = n * 2 ^ (d.exponent - 2)) :
    d.interval.Contains v ↔
      (4 * (d.mantissa * c) ≤ n + 2 * c ∧ n ≤ 4 * (d.mantissa * c) + 2 * c) ∧
        (d.mantissa % 2 = 0 ∨ 4 * (d.mantissa * c) < n + 2 * c ∧ n < 4 * (d.mantissa * c) + 2 * c) ∧
        (d.mantissa = 2 ^ 52 → 4 * (d.mantissa * c) ≤ n + c) := by
  have hleast := d.least
  have hpos : c ≤ d.mantissa * c := Nat.le_mul_of_pos_left c d.mantissa_pos
  rw [Interval.contains_iff hc hn]
  simp only [Normal.interval, Interval.around, hleast, and_true, beq_iff_eq, Nat.sub_mul, Nat.add_mul, Nat.mul_assoc]
  by_cases hm : d.mantissa = twoTo 52
  · have heven : d.mantissa % 2 = 0 := by rw [hm]; decide
    have hpower : d.mantissa = 2 ^ 52 := hm
    rw [if_pos hm, if_pos heven]
    omega
  · have hnot : d.mantissa ≠ 2 ^ 52 := hm
    rw [if_neg hm]
    split <;> omega

/-- A fraction that is no less than the power of two of its double needs one shift. -/
theorem round_above (d : Normal) (s : Sign) (hb : 0 < b) {k : Nat} (hpower : 2 ^ 52 * (2 ^ k * b) ≤ a)
    (hlow : 4 * (d.mantissa * (2 ^ k * b)) ≤ 4 * a + 2 * (2 ^ k * b))
    (hhigh : 4 * a ≤ 4 * (d.mantissa * (2 ^ k * b)) + 2 * (2 ^ k * b))
    (hties : d.mantissa % 2 = 0 ∨ 4 * (d.mantissa * (2 ^ k * b)) < 4 * a + 2 * (2 ^ k * b) ∧
      4 * a < 4 * (d.mantissa * (2 ^ k * b)) + 2 * (2 ^ k * b)) :
    roundWithAccuracy Format.binary64 s (a / b) (d.exponent - k) (accuracyOfFraction (a % b) b) = d.unpacked s := by
  have hleast := d.least
  have hc : 0 < 2 ^ k * b := Nat.mul_pos (Nat.two_pow_pos k) hb
  have hmax : (d.mantissa + 1) * (2 ^ k * b) ≤ 2 ^ 53 * (2 ^ k * b) := Nat.mul_le_mul_right _ d.high
  rw [Nat.succ_mul d.mantissa] at hmax
  have hlog : (a / b).log2 = 52 + k := log2_quotient hb hpower (by omega)
  have hround : (residue a (2 ^ k * b)).roundedMantissa = d.mantissa :=
    roundedMantissa_residue_eq hc (by omega) (by omega) (by omega)
  refine roundWithAccuracy_quotient s hb hlog (j := 0) ?_ ?_ ?_ ?_ d.mantissa_pos
  · rw [hround, d.log2_mantissa]
  · omega
  · omega
  · rw [hround, Nat.pow_zero, Nat.div_one]

/-- A fraction just below the power of two of its double is rounded up to it, and then has a bit too many. -/
theorem round_below (d : Normal) (s : Sign) (hb : 0 < b) {j : Nat} (hm : d.mantissa = 2 ^ 52)
    (hpower : a < 2 ^ 53 * (2 ^ j * b)) (hlow : 2 ^ 55 * (2 ^ j * b) ≤ 4 * a + 2 * (2 ^ j * b)) :
    roundWithAccuracy Format.binary64 s (a / b) (d.exponent - (j + 1 : Nat)) (accuracyOfFraction (a % b) b) =
      d.unpacked s := by
  have hleast := d.least
  have hc : 0 < 2 ^ j * b := Nat.mul_pos (Nat.two_pow_pos j) hb
  have hlog : (a / b).log2 = 52 + j := log2_quotient hb (by omega) hpower
  have hround : (residue a (2 ^ j * b)).roundedMantissa = 2 ^ 53 :=
    roundedMantissa_residue_eq hc (by omega) (by omega) (.inl (by decide))
  refine roundWithAccuracy_quotient s hb hlog (j := 1) ?_ ?_ ?_ ?_ d.mantissa_pos
  · rw [hround, Nat.log2_two_pow]
  · omega
  · omega
  · rw [hround, hm]
    decide

/-- **Rounding.** A fraction over a power of two is rounded to the double in whose interval it lies, if it has enough
bits for it: just below a power of two that is one more. -/
theorem round_quotient (d : Normal) (s : Sign) (hb : 0 < b) {k : Nat}
    (hv : d.interval.Contains (a / b * 2 ^ (d.exponent - k))) (hk : a < 2 ^ 52 * (2 ^ k * b) → 0 < k) :
    roundWithAccuracy Format.binary64 s (a / b) (d.exponent - k) (accuracyOfFraction (a % b) b) = d.unpacked s := by
  have hc : 0 < 2 ^ k * b := Nat.mul_pos (Nat.two_pow_pos k) hb
  have hb' : (b : ℚ) ≠ 0 := Nat.cast_ne_zero.mpr hb.ne'
  have hn : (a / b * 2 ^ (d.exponent - k) : ℚ) * (2 ^ k * b : Nat) = (4 * a : Nat) * 2 ^ (d.exponent - 2) := by
    rw [zpow_sub₀ two_ne_zero, zpow_sub₀ two_ne_zero, zpow_natCast]
    push_cast
    field_simp
  obtain ⟨⟨hlow, hhigh⟩, hties, hleft⟩ := (d.contains_iff hc hn).mp hv
  -- below a power of two the mantissa would have a bit less, so it is rounded where the doubles are twice as dense
  rcases Nat.lt_or_ge a (2 ^ 52 * (2 ^ k * b)) with ha | ha
  · obtain ⟨j, rfl⟩ : ∃ j, k = j + 1 := Nat.exists_eq_succ_of_ne_zero (hk ha).ne'
    have hm : d.mantissa = 2 ^ 52 := by
      refine Nat.le_antisymm (Nat.le_of_lt_succ ?_) d.low
      refine Nat.lt_of_mul_lt_mul_right (a := 2 ^ (j + 1) * b) ?_
      omega
    have hpow : 2 ^ (j + 1) * b = 2 * (2 ^ j * b) := by rw [Nat.pow_succ', Nat.mul_assoc]
    have hleft := hleft hm
    rw [hm] at hleft
    exact round_below d s hb hm (by omega) (by omega)
  · exact round_above d s hb ha hlow hhigh hties

end TurtleLogo.Number
