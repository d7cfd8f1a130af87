import TurtleLogo.Proofs.Number.Rounding

/-!
# Doubles and decimals

A double is packed into bits and unpacked again, and products and quotients of doubles are rounded from exact ones. So
is a decimal that is read, whichever of the ways to compute it its size calls for.

* `Normal.float` : a double with all its bits, as a number; `exists_normal` : which numbers are such doubles;
* `Normal.value` : the rational number that it stands for;
* `Normal.div_float`, `Normal.mul_float` : quotients and products;
* `ofScientific_eq`, `ofDecimal_eq` : a decimal is read as the double in whose interval it lies.
-/

namespace TurtleLogo.Number

open Float.Model Float.Model.UnpackedFloat

/-! ## Bits -/

theorem targetExponent_eq (t : Int) : Format.binary64.targetExponent t = max (t - 53) (-1074) := rfl

namespace Normal

variable (d : Normal)

def float (s : Sign) : Float := .ofModel (.pack (d.unpacked s))

def field : Nat := (d.exponent + 1075).toNat

theorem field_bounds : (d.field : Int) = d.exponent + 1075 ∧ 0 < d.field ∧ d.field < 2047 := by
  have hleast := d.least
  have hgreatest := d.greatest
  unfold field
  omega

theorem pack_unpacked (s : Sign) :
    UnpackedFloat.pack Format.binary64 (d.unpacked s) =
      packComponents Format.binary64 s (BitVec.ofNat 11 d.field) (BitVec.ofNat 52 d.mantissa) := by
  obtain ⟨hfield, -, hlt⟩ := d.field_bounds
  have hbias : (d.exponent + Format.binary64.exponentBias + Format.binary64.mantissaBitsWithoutImplicit).toNat =
      d.field := by
    show (d.exponent + (1023 : Nat) + (52 : Nat)).toNat = _
    omega
  unfold unpacked UnpackedFloat.pack
  dsimp only
  rw [hbias, d.log2_mantissa, if_neg, if_pos]
  · rfl
  · show ¬ 2 ^ 11 ≤ _
    omega

theorem unpack_float (s : Sign) : (d.float s).toModel.unpack = d.unpacked s := by
  show UnpackedFloat.unpack Format.binary64 (UnpackedFloat.pack Format.binary64 (d.unpacked s)) = _
  obtain ⟨hfield, hpos, hlt⟩ := d.field_bounds
  have hlow := d.low
  have hhigh := d.high
  have hinfinite : BitVec.ofNat 11 d.field ≠ -1#11 := by
    intro h
    have h' : d.field % 2 ^ 11 = 2047 := congrArg BitVec.toNat h
    omega
  have hzero : BitVec.ofNat 11 d.field ≠ 0#11 := by
    intro h
    have h' : d.field % 2 ^ 11 = 0 := congrArg BitVec.toNat h
    omega
  have hmantissa : (1#1 ++ BitVec.ofNat 52 d.mantissa).toNat = d.mantissa := by
    rw [BitVec.toNat_append, ← Nat.shiftLeft_add_eq_or_of_lt (BitVec.isLt _), BitVec.toNat_ofNat]
    show 2 ^ 52 + d.mantissa % 2 ^ 52 = _
    omega
  rw [pack_unpacked, UnpackedFloat.unpack]
  simp only [unpackExponent_packComponents, unpackMantissa_packComponents, unpackSign_packComponents,
    Sign.ofBitVec_toBitVec]
  rw [if_neg hinfinite, if_neg hzero]
  unfold unpacked
  congr 1
  show ((d.field % 2 ^ 11 : Nat) : Int) - ((1023 : Nat) + (52 : Nat)) = _
  omega

theorem neg_float (s : Sign) : -d.float s = d.float (-s) := by
  show Float.ofModel (.pack (d.float s).toModel.unpack.neg) = _
  rw [unpack_float]
  rfl

theorem toNat_toBits_float (s : Sign) :
    (d.float s).toBits.toNat = s.toBitVec.toNat * 2 ^ 63 + d.field * 2 ^ 52 + (d.mantissa - 2 ^ 52) := by
  obtain ⟨-, -, hlt⟩ := d.field_bounds
  have hlow := d.low
  have hhigh := d.high
  show (UInt64.ofBitVec (UnpackedFloat.pack Format.binary64 (d.unpacked s))).toNat = _
  rw [UInt64.toNat_ofBitVec, pack_unpacked, packComponents, BitVec.toNat_append, BitVec.toNat_append,
    ← Nat.shiftLeft_add_eq_or_of_lt (BitVec.isLt _), ← Nat.shiftLeft_add_eq_or_of_lt (BitVec.isLt _),
    BitVec.toNat_ofNat, BitVec.toNat_ofNat, Nat.shiftLeft_eq, Nat.shiftLeft_eq]
  show (s.toBitVec.toNat * 2 ^ 11 + d.field % 2 ^ 11) * 2 ^ 52 + d.mantissa % 2 ^ 52 = _
  omega

theorem shape_float (s : Sign) : shape (d.float s) = .finite (s == .negative) d.mantissa d.exponent := by
  obtain ⟨hfield, hpos, hlt⟩ := d.field_bounds
  have hlow := d.low
  have hhigh := d.high
  have hbits := d.toNat_toBits_float s
  have hsign : s.toBitVec.toNat < 2 ^ 1 := BitVec.isLt _
  have hfraction : (d.float s).toBits.toNat % twoTo 52 = d.mantissa - 2 ^ 52 := by
    show _ % 2 ^ 52 = _
    omega
  have hexponent : (d.float s).toBits.toNat / twoTo 52 % twoTo 11 = d.field := by
    show _ / 2 ^ 52 % 2 ^ 11 = _
    omega
  have hnegative : decide (twoTo 63 ≤ (d.float s).toBits.toNat) = (s == .negative) := by
    rw [hbits]
    cases s with
    | negative =>
      refine decide_eq_true ?_
      show 2 ^ 63 ≤ 1 * 2 ^ 63 + _ + _
      omega
    | positive =>
      refine decide_eq_false ?_
      show ¬ 2 ^ 63 ≤ 0 * 2 ^ 63 + _ + _
      omega
  have hmantissa : d.mantissa - 2 ^ 52 + twoTo 52 = d.mantissa := Nat.sub_add_cancel hlow
  unfold shape
  dsimp only
  rw [hexponent, hfraction, hnegative, if_neg (by omega), if_neg (by omega), hfield, hmantissa, Int.add_sub_cancel]

end Normal

theorem twoTo_eq (n : Nat) : twoTo n = 2 ^ n := rfl

theorem toNat_toBits_of_shape {x : Float} {negative : Bool} {m : Nat} {e : Int} (hx : shape x = .finite negative m e) :
    ∃ field < 2047, x.toBits.toNat = negative.toNat * 2 ^ 63 + field * 2 ^ 52 + m % 2 ^ 52 ∧
      (field = 0 ∧ m < 2 ^ 52 ∧ e = -1074 ∨ 0 < field ∧ 2 ^ 52 ≤ m ∧ m < 2 ^ 53 ∧ e = field - 1075) := by
  have hbits : x.toBits.toNat < 2 ^ 64 := x.toBits.toNat_lt
  have hsign : (decide (2 ^ 63 ≤ x.toBits.toNat)).toNat = x.toBits.toNat / 2 ^ 63 := by
    by_cases h : 2 ^ 63 ≤ x.toBits.toNat
    · rw [decide_eq_true h, Bool.toNat_true]
      omega
    · rw [decide_eq_false h, Bool.toNat_false]
      omega
  simp only [shape, twoTo_eq] at hx
  split at hx
  · split at hx <;> cases hx
  · refine ⟨x.toBits.toNat / 2 ^ 52 % 2 ^ 11, by omega, ?_⟩
    split at hx
    · next hzero =>
      cases hx
      rw [hsign]
      exact ⟨by omega, .inl ⟨hzero, by omega, rfl⟩⟩
    · cases hx
      rw [hsign]
      exact ⟨by omega, .inr ⟨by omega, by omega, by omega, rfl⟩⟩

theorem eq_of_toBits {x y : Float} (h : x.toBits.toNat = y.toBits.toNat) : x = y :=
  Float.toBits_inj.mp (UInt64.toNat_inj.mp h)

theorem exists_normal {x : Float} {negative : Bool} {m : Nat} {e : Int} (hx : shape x = .finite negative m e)
    (he : -1074 < e) :
    ∃ d : Normal, d.mantissa = m ∧ d.exponent = e ∧ x = d.float (if negative then .negative else .positive) := by
  obtain ⟨field, hfield, hbits, ⟨-, -, he'⟩ | ⟨hpos, hlow, hhigh, he'⟩⟩ := toNat_toBits_of_shape hx
  · omega
  · refine ⟨⟨m, e, hlow, hhigh, he, by omega⟩, rfl, rfl, eq_of_toBits ?_⟩
    rw [Normal.toNat_toBits_float, hbits]
    have hfield' : (e + 1075).toNat = field := by omega
    cases negative with
    | true =>
      show 1 * 2 ^ 63 + _ + _ = 1 * 2 ^ 63 + (e + 1075).toNat * 2 ^ 52 + (m - 2 ^ 52)
      omega
    | false =>
      show 0 * 2 ^ 63 + _ + _ = 0 * 2 ^ 63 + (e + 1075).toNat * 2 ^ 52 + (m - 2 ^ 52)
      omega

/-! ## Arithmetic -/

theorem two_pow_log2_le {m : Nat} (hm : 0 < m) : (2 : ℚ) ^ (m.log2 : Int) ≤ m := by
  exact_mod_cast Nat.log2_self_le hm.ne'

theorem lt_two_pow_log2 (m : Nat) : (m : ℚ) < 2 ^ (m.log2 + 1 : Int) := by
  exact_mod_cast Nat.lt_log2_self

theorem log2_add_lt {m : Nat} (hm : 0 < m) {t p : Int} (h : (m * 2 ^ t : ℚ) < 2 ^ p) : m.log2 + t < p := by
  refine (zpow_lt_zpow_iff_right₀ (one_lt_two (α := ℚ))).mp ?_
  calc (2 : ℚ) ^ (m.log2 + t : Int) = 2 ^ (m.log2 : Int) * 2 ^ t := zpow_add₀ two_ne_zero _ _
    _ ≤ m * 2 ^ t := mul_le_mul_of_nonneg_right (two_pow_log2_le hm) (zpow_pos two_pos t).le
    _ < _ := h

theorem le_log2_add {m : Nat} {t p : Int} (h : (2 ^ p : ℚ) ≤ m * 2 ^ t) : p ≤ m.log2 + t := by
  refine Int.le_of_lt_add_one ((zpow_lt_zpow_iff_right₀ (one_lt_two (α := ℚ))).mp ?_)
  calc (2 : ℚ) ^ p ≤ m * 2 ^ t := h
    _ < 2 ^ (m.log2 + 1 : Int) * 2 ^ t := mul_lt_mul_of_pos_right (lt_two_pow_log2 m) (zpow_pos two_pos t)
    _ = 2 ^ (m.log2 + t + 1 : Int) := by
      rw [← zpow_add₀ two_ne_zero]
      congr 1
      omega

namespace Normal

variable (d x y : Normal)

def value : ℚ := d.mantissa * 2 ^ d.exponent

theorem value_pos : 0 < d.value := mul_pos (Nat.cast_pos.mpr d.mantissa_pos) (zpow_pos two_pos _)

theorem interval_low_pos : 0 < d.interval.low := Interval.low_around_pos d.mantissa_pos

theorem le_interval_low : 2 ^ 53 ≤ d.interval.low := by
  have h := d.low
  simp only [interval, Interval.around]
  split <;> omega

theorem interval_high_lt : d.interval.high < 2 ^ 55 := by
  have h := d.high
  simp only [interval, Interval.around]
  omega

/-- What is rounded to a double is about as large. -/
theorem bounds {v : ℚ} (hv : d.interval.Contains v) : 2 ^ (d.exponent + 51) ≤ v ∧ v < 2 ^ (d.exponent + 53) := by
  have hlow : (2 ^ 53 : ℚ) ≤ d.interval.low := by exact_mod_cast d.le_interval_low
  have hhigh : (d.interval.high : ℚ) < 2 ^ 55 := by exact_mod_cast d.interval_high_lt
  have hu : (0 : ℚ) < 2 ^ (d.exponent - 2) := zpow_pos two_pos _
  have hends : d.interval.low * 2 ^ (d.exponent - 2) ≤ v ∧ v ≤ d.interval.high * 2 ^ (d.exponent - 2) := hv.ends
  have hpow (n : Nat) : (2 : ℚ) ^ (d.exponent - 2 + n) = 2 ^ n * 2 ^ (d.exponent - 2) := by
    rw [zpow_add₀ two_ne_zero, zpow_natCast, mul_comm]
  constructor
  · calc (2 : ℚ) ^ (d.exponent + 51) = 2 ^ 53 * 2 ^ (d.exponent - 2) := by rw [← hpow]; congr 1; omega
      _ ≤ d.interval.low * 2 ^ (d.exponent - 2) := mul_le_mul_of_nonneg_right hlow hu.le
      _ ≤ v := hends.1
  · calc v ≤ d.interval.high * 2 ^ (d.exponent - 2) := hends.2
      _ < 2 ^ 55 * 2 ^ (d.exponent - 2) := mul_lt_mul_of_pos_right hhigh hu
      _ = 2 ^ (d.exponent + 53) := by rw [← hpow]; congr 1; omega

theorem contains_value : d.interval.Contains d.value := by
  have hn : d.value * (1 : Nat) = (4 * d.mantissa : Nat) * 2 ^ (d.exponent - 2) := by
    rw [value, zpow_sub₀ two_ne_zero]
    push_cast
    ring
  have hlow : d.interval.low < 4 * d.mantissa := by
    have h := d.low
    simp only [interval, Interval.around]
    split <;> omega
  have hhigh : 4 * d.mantissa < d.interval.high := by
    simp only [interval, Interval.around]
    omega
  rw [Interval.contains_iff Nat.one_pos hn, Nat.mul_one, Nat.mul_one]
  split
  · exact ⟨hlow.le, hhigh.le⟩
  · exact ⟨hlow, hhigh⟩

/-- A double is rounded to itself. -/
theorem round_self :
    roundWithAccuracy Format.binary64 .positive d.mantissa d.exponent .exact = d.unpacked .positive := by
  have hlow := d.low
  have hvalue : ((d.mantissa : Nat) / (1 : Nat) * 2 ^ (d.exponent - (0 : Nat)) : ℚ) = d.value := by
    rw [Nat.cast_one, div_one, Nat.cast_zero, Int.sub_zero, value]
  have h := round_quotient d .positive Nat.one_pos (hvalue ▸ d.contains_value) (by omega)
  rw [Nat.div_one, Nat.mod_one, Nat.cast_zero, Int.sub_zero] at h
  exact h

/-- Rounding to a double needs a number of bits that the number's size decides. -/
theorem round_of_lt (s : Sign) {a b : Nat} (hb : 0 < b) {t : Int} (hv : d.interval.Contains (a / b * 2 ^ t))
    (ht : t ≤ d.exponent) (ht' : (a / b * 2 ^ t : ℚ) < 2 ^ (d.exponent + 52) → t < d.exponent) :
    roundWithAccuracy Format.binary64 s (a / b) t (accuracyOfFraction (a % b) b) = d.unpacked s := by
  obtain ⟨k, hk⟩ := Int.eq_ofNat_of_zero_le (Int.sub_nonneg_of_le ht)
  obtain rfl : t = d.exponent - k := by omega
  refine round_quotient d s hb hv fun ha => ?_
  have hlt : (a / b * 2 ^ (d.exponent - k) : ℚ) < 2 ^ (d.exponent + 52) := by
    have hb' : (0 : ℚ) < b := Nat.cast_pos.mpr hb
    have ha' : (a : ℚ) < 2 ^ 52 * (2 ^ k * b) := by exact_mod_cast ha
    calc (a / b * 2 ^ (d.exponent - k) : ℚ) < 2 ^ 52 * 2 ^ k * 2 ^ (d.exponent - k) := by
          refine mul_lt_mul_of_pos_right ?_ (zpow_pos two_pos _)
          rw [div_lt_iff₀ hb', mul_assoc]
          exact ha'
      _ = 2 ^ (d.exponent + 52) := by
          rw [zpow_sub₀ two_ne_zero, zpow_add₀ two_ne_zero, zpow_natCast, zpow_ofNat]
          field_simp
  have := ht' hlt
  omega

/-- What lies in the interval of a double is rounded to it. -/
theorem round_contains (s : Sign) {a : Nat} {t : Int} (hv : d.interval.Contains (a * 2 ^ t)) :
    UnpackedFloat.round Format.binary64 s a t = d.unpacked s := by
  have hleast := d.least
  have ha : 0 < a := hv.pos d.interval_low_pos
  have hlow := le_log2_add (d.bounds hv).1
  have hhigh := log2_add_lt ha (d.bounds hv).2
  unfold UnpackedFloat.round decreaseExponent
  dsimp only
  rw [Nat.shiftLeft_eq, targetExponent_eq, totalExponent]
  generalize hj : (t - max ((a.log2 : Int) + 1 + t - 53) (-1074)).toNat = j
  have hvalue : ((a * 2 ^ j : Nat) / (1 : Nat) * 2 ^ (t - j) : ℚ) = a * 2 ^ t := by
    rw [zpow_sub₀ two_ne_zero, zpow_natCast, Nat.cast_one, div_one]
    push_cast
    field_simp
  have hround := d.round_of_lt s Nat.one_pos (hvalue ▸ hv) (by omega) fun hlt => by
    have hlt' := log2_add_lt ha (hvalue ▸ hlt)
    omega
  rw [Nat.div_one, Nat.mod_one] at hround
  exact hround

/-- A quotient is rounded from the exact one, which is computed to enough bits. -/
theorem div_finite {m₁ m₂ : Nat} {e₁ e₂ : Int} {h₁ : 0 < m₁} {h₂ : 0 < m₂}
    (hv : d.interval.Contains (m₁ * 2 ^ e₁ / (m₂ * 2 ^ e₂))) :
    UnpackedFloat.div Format.binary64 (.finite .positive m₁ e₁ h₁) (.finite .positive m₂ e₂ h₂) =
      d.unpacked .positive := by
  have hleast := d.least
  have h₂' : (0 : ℚ) < m₂ := Nat.cast_pos.mpr h₂
  have hsize : (2 : ℚ) ^ ((m₁.log2 : Int) + e₁ - (m₂.log2 + 1 + e₂)) < m₁ * 2 ^ e₁ / (m₂ * 2 ^ e₂) := by
    have hpos : (0 : ℚ) < 2 ^ ((m₁.log2 : Int) + e₁ - (m₂.log2 + 1 + e₂)) := zpow_pos two_pos _
    have he₁ : (0 : ℚ) < 2 ^ e₁ := zpow_pos two_pos _
    have he₂ : (0 : ℚ) < 2 ^ e₂ := zpow_pos two_pos _
    rw [lt_div_iff₀ (mul_pos h₂' he₂)]
    calc (2 : ℚ) ^ ((m₁.log2 : Int) + e₁ - (m₂.log2 + 1 + e₂)) * (m₂ * 2 ^ e₂)
        < 2 ^ ((m₁.log2 : Int) + e₁ - (m₂.log2 + 1 + e₂)) * (2 ^ (m₂.log2 + 1 : Int) * 2 ^ e₂) :=
          mul_lt_mul_of_pos_left (mul_lt_mul_of_pos_right (lt_two_pow_log2 m₂) he₂) hpos
      _ = 2 ^ (m₁.log2 : Int) * 2 ^ e₁ := by
          rw [← zpow_add₀ two_ne_zero, ← zpow_add₀ two_ne_zero, ← zpow_add₀ two_ne_zero, Int.sub_add_cancel]
      _ ≤ m₁ * 2 ^ e₁ := mul_le_mul_of_nonneg_right (two_pow_log2_le h₁) he₁.le
  have hupper := (zpow_lt_zpow_iff_right₀ (one_lt_two (α := ℚ))).mp (hsize.trans (d.bounds hv).2)
  unfold UnpackedFloat.div divCore
  dsimp only
  rw [Nat.shiftLeft_eq]
  generalize htarget : min (e₁ - e₂) (Format.binary64.targetExponent (totalExponent m₁ e₁ - totalExponent m₂ e₂)) = t
  have ht : t ≤ max ((m₁.log2 : Int) + e₁ - (m₂.log2 + e₂) - 53) (-1074) := by
    rw [← htarget, targetExponent_eq, totalExponent, totalExponent]
    omega
  have hshift : ((e₁ - e₂ - t).toNat : Int) = e₁ - e₂ - t := by omega
  have hvalue : ((m₁ * 2 ^ (e₁ - e₂ - t).toNat : Nat) / m₂ * 2 ^ t : ℚ) = m₁ * 2 ^ e₁ / (m₂ * 2 ^ e₂) := by
    push_cast
    rw [← zpow_natCast, hshift, zpow_sub₀ two_ne_zero, zpow_sub₀ two_ne_zero]
    field_simp
  refine d.round_of_lt .positive h₂ (hvalue ▸ hv) (by omega) fun hlt => ?_
  rw [hvalue] at hlt
  have hupper := (zpow_lt_zpow_iff_right₀ (one_lt_two (α := ℚ))).mp (hsize.trans hlt)
  omega

theorem mul_finite {m₁ m₂ : Nat} {e₁ e₂ : Int} {h₁ : 0 < m₁} {h₂ : 0 < m₂} (hbits : 2 ^ 53 ≤ m₁ * m₂)
    (hv : d.interval.Contains (m₁ * 2 ^ e₁ * (m₂ * 2 ^ e₂))) :
    UnpackedFloat.mul Format.binary64 (.finite .positive m₁ e₁ h₁) (.finite .positive m₂ e₂ h₂) =
      d.unpacked .positive := by
  have hvalue : ((m₁ * m₂ : Nat) / (1 : Nat) * 2 ^ (e₁ + e₂) : ℚ) = m₁ * 2 ^ e₁ * (m₂ * 2 ^ e₂) := by
    rw [zpow_add₀ two_ne_zero]
    push_cast
    ring
  have hsize : (2 : ℚ) ^ (e₁ + e₂ + 53) ≤ m₁ * 2 ^ e₁ * (m₂ * 2 ^ e₂) := by
    have hbits' : (2 ^ 53 : ℚ) ≤ (m₁ * m₂ : Nat) := by exact_mod_cast hbits
    rw [← hvalue, zpow_add₀ two_ne_zero, zpow_ofNat, mul_comm, Nat.cast_one, div_one]
    exact mul_le_mul_of_nonneg_right hbits' (zpow_pos two_pos _).le
  have hupper := (zpow_lt_zpow_iff_right₀ (one_lt_two (α := ℚ))).mp (hsize.trans_lt (d.bounds hv).2)
  have h := d.round_of_lt .positive Nat.one_pos (hvalue ▸ hv) (by omega) (fun _ => by omega)
  rw [Nat.div_one, Nat.mod_one] at h
  exact h

theorem div_float (hv : d.interval.Contains (x.value / y.value)) :
    x.float .positive / y.float .positive = d.float .positive := by
  show Float.ofModel (.pack (UnpackedFloat.div Format.binary64 (x.float .positive).toModel.unpack
    (y.float .positive).toModel.unpack)) = _
  rw [unpack_float, unpack_float, unpacked, unpacked, d.div_finite hv]
  rfl

theorem mul_float (hv : d.interval.Contains (x.value * y.value)) :
    x.float .positive * y.float .positive = d.float .positive := by
  show Float.ofModel (.pack (UnpackedFloat.mul Format.binary64 (x.float .positive).toModel.unpack
    (y.float .positive).toModel.unpack)) = _
  have hbits : 2 ^ 53 ≤ x.mantissa * y.mantissa :=
    le_trans (by decide) (Nat.mul_le_mul x.low y.low)
  rw [unpack_float, unpack_float, unpacked, unpacked, d.mul_finite hbits hv]
  rfl

end Normal

/-! ## Reading decimals -/

theorem log2_mul_two_pow {n : Nat} (hn : 0 < n) (k : Nat) : (n * 2 ^ k).log2 = n.log2 + k := by
  have hpos : n * 2 ^ k ≠ 0 := (Nat.mul_pos hn (Nat.two_pow_pos k)).ne'
  refine (Nat.log2_eq_iff hpos).mpr ⟨?_, ?_⟩
  · rw [Nat.pow_add]
    exact Nat.mul_le_mul_right _ (Nat.log2_self_le hn.ne')
  · rw [Nat.add_right_comm, Nat.pow_add]
    exact Nat.mul_lt_mul_of_pos_right Nat.lt_log2_self (Nat.two_pow_pos k)

theorem exists_normal_toFloat {n : Nat} (hn : 0 < n) (hbits : n < 2 ^ 53) :
    ∃ d : Normal, n.toUInt64.toFloat = d.float .positive ∧ d.value = n := by
  have hlog : n.log2 ≤ 52 := Nat.le_of_lt_succ ((Nat.log2_lt hn.ne').mpr hbits)
  have hmantissa := log2_mul_two_pow hn (52 - n.log2)
  rw [Nat.add_sub_cancel' hlog] at hmantissa
  obtain ⟨hlow, hhigh⟩ := (Nat.log2_eq_iff (Nat.mul_pos hn (Nat.two_pow_pos _)).ne').mp hmantissa
  let d : Normal := ⟨n * 2 ^ (52 - n.log2), -(52 - n.log2 : Nat), hlow, hhigh, by omega, by omega⟩
  refine ⟨d, ?_, ?_⟩
  · have hshift : (0 - Format.binary64.targetExponent (totalExponent n 0)).toNat = 52 - n.log2 := by
      rw [targetExponent_eq, totalExponent]
      omega
    have hround : UnpackedFloat.round Format.binary64 .positive n 0 = d.unpacked .positive := by
      unfold UnpackedFloat.round decreaseExponent
      dsimp only
      rw [hshift, Nat.shiftLeft_eq, Int.zero_sub]
      exact d.round_self
    show Float.ofModel (.pack (UnpackedFloat.normalize Format.binary64 (n.toUInt64.toNat : Int) 0 .positive)) = _
    have hnat : n.toUInt64.toNat = n := UInt64.toNat_ofNat_of_lt' (hbits.trans (by decide))
    rw [hnat, UnpackedFloat.normalize, Int.compare_eq_gt.mpr (by omega)]
    dsimp only
    rw [Int.toNat_natCast, hround]
    rfl
  · show ((n * 2 ^ (52 - n.log2) : Nat) * 2 ^ (-(52 - n.log2 : Nat) : Int) : ℚ) = n
    rw [zpow_neg, zpow_natCast]
    push_cast
    field_simp

/-- The powers of ten in the table are exact: a power of five, moved to 53 bits. -/
theorem shape_powersOfTen : ∀ j : Fin 23,
    shape (Float.exactlyRepresentablePowersOfTen.getD j 0) =
      .finite false (5 ^ j.val * 2 ^ (52 - (5 ^ j.val).log2)) (j - (52 - (5 ^ j.val).log2 : Nat)) := by
  decide +kernel

theorem exists_normal_tenTo {j : Nat} (hj : j < Float.exactlyRepresentablePowersOfTen.size) :
    ∃ d : Normal, Float.exactlyRepresentablePowersOfTen[j] = d.float .positive ∧ d.value = 10 ^ j := by
  have hx := shape_powersOfTen ⟨j, hj⟩
  rw [Array.getD_eq_getD_getElem?, Array.getElem?_eq_getElem hj, Option.getD_some] at hx
  obtain ⟨d, hm, he, hd⟩ := exists_normal hx (by omega)
  refine ⟨d, hd, ?_⟩
  rw [Normal.value, hm, he, zpow_sub₀ two_ne_zero, zpow_natCast, zpow_natCast]
  push_cast
  field_simp
  rw [← mul_pow]
  norm_num

/-- A decimal in the interval of a double is neither too large nor too small to be computed with. -/
theorem Normal.exponent_bounds (d : Normal) {n : Nat} {q : Int} (hn : 0 < n) (hv : d.interval.Contains (n * 10 ^ q)) :
    q ≤ 1024 ∧ -(1024 + n.log2 : Int) ≤ q := by
  obtain ⟨hlow, hhigh⟩ := d.bounds hv
  have hleast := d.least
  have hgreatest := d.greatest
  have hn' : (1 : ℚ) ≤ n := by exact_mod_cast hn
  have hq : (0 : ℚ) < 10 ^ q := zpow_pos (by norm_num) q
  constructor
  · by_contra! h
    have hlt : (2 : ℚ) ^ q < 2 ^ (d.exponent + 53) := by
      calc (2 : ℚ) ^ q ≤ 10 ^ q := zpow_le_zpow_left₀ (by omega) two_pos.le (by norm_num)
        _ ≤ n * 10 ^ q := le_mul_of_one_le_left hq.le hn'
        _ < _ := hhigh
    have := (zpow_lt_zpow_iff_right₀ (one_lt_two (α := ℚ))).mp hlt
    omega
  · by_contra! h
    have hle : (10 : ℚ) ^ q ≤ 2 ^ q := by
      obtain ⟨k, rfl⟩ : ∃ k : Nat, q = -k := ⟨q.natAbs, by omega⟩
      rw [zpow_neg, zpow_neg, zpow_natCast, zpow_natCast]
      exact inv_anti₀ (pow_pos two_pos k) (pow_le_pow_left₀ two_pos.le (by norm_num) k)
    have hlt : (2 : ℚ) ^ (d.exponent + 51) < 2 ^ ((n.log2 + 1 : Int) + q) := by
      calc (2 : ℚ) ^ (d.exponent + 51) ≤ n * 10 ^ q := hlow
        _ < 2 ^ (n.log2 + 1 : Int) * 10 ^ q := mul_lt_mul_of_pos_right (lt_two_pow_log2 n) hq
        _ ≤ 2 ^ (n.log2 + 1 : Int) * 2 ^ q := mul_le_mul_of_nonneg_left hle (zpow_pos two_pos _).le
        _ = _ := (zpow_add₀ two_ne_zero _ _).symm
    have := (zpow_lt_zpow_iff_right₀ (one_lt_two (α := ℚ))).mp hlt
    omega

theorem Normal.ofScientific_unpacked (d : Normal) {n : Nat} {q : Int} (hn : 0 < n)
    (hv : d.interval.Contains (n * 10 ^ q)) :
    UnpackedFloat.ofScientific Format.binary64 n q = d.unpacked .positive := by
  obtain ⟨hlarge, hsmall⟩ := d.exponent_bounds hn hv
  unfold UnpackedFloat.ofScientific
  rw [dif_neg hn.ne', if_neg, if_neg]
  · split
    · next hq =>
      have hshift : n <<< Format.binary64.mantissaBits = n * 2 ^ 53 := Nat.shiftLeft_eq n 53
      have hexponent : (2 : ℚ) ^ (-(Format.binary64.mantissaBits : Int)) = (2 ^ 53)⁻¹ := rfl
      have hpow : (10 : ℚ) ^ q.toNat = 10 ^ q := by rw [← zpow_natCast, Int.toNat_of_nonneg hq]
      refine d.mul_finite ?_ ?_
      · rw [hshift, Nat.mul_assoc, Nat.mul_comm n, Nat.mul_assoc]
        exact Nat.le_mul_of_pos_right _ (Nat.mul_pos (Nat.pow_pos (by decide)) hn)
      · rw [hshift, hexponent]
        have hmantissa : ((n * 2 ^ 53 : Nat) * (2 ^ 53)⁻¹ : ℚ) = n := by
          rw [Nat.cast_mul, Nat.cast_pow, Nat.cast_ofNat]
          exact mul_inv_cancel_right₀ (by norm_num) _
        rw [hmantissa, zpow_zero, mul_one, Nat.cast_pow, Nat.cast_ofNat, hpow]
        exact hv
    · next hq =>
      refine d.div_finite ?_
      have hpow : (10 : ℚ) ^ (-q).toNat = (10 ^ q)⁻¹ := by
        rw [← zpow_natCast, Int.toNat_of_nonneg (by omega), zpow_neg]
      push_cast
      rw [hpow, mul_one, mul_one, div_inv_eq_mul]
      exact hv
  · show ¬ q < -((2 ^ 11 : Int) + n.log2)
    omega
  · show ¬ q > 2 ^ 11
    omega

/-- **Reading decimals.** A decimal is read as the double in whose interval it lies. -/
theorem ofScientific_eq (d : Normal) {n j : Nat} {s : Bool}
    (hv : d.interval.Contains (n * 10 ^ (if s then -j else j : Int))) :
    Float.ofScientific n s j = d.float .positive := by
  have hn : 0 < n := hv.pos d.interval_low_pos
  unfold Float.ofScientific
  split
  · next h =>
    obtain ⟨x, hx, hxv⟩ := exists_normal_toFloat hn h.1
    have hsize : j < Float.exactlyRepresentablePowersOfTen.size := by
      show j < 23
      omega
    obtain ⟨y, hy, hyv⟩ := exists_normal_tenTo hsize
    dsimp only
    rw [hx, hy]
    cases s with
    | true =>
      refine d.div_float x y ?_
      rw [hxv, hyv]
      simpa [div_eq_mul_inv] using hv
    | false =>
      refine d.mul_float x y ?_
      rw [hxv, hyv]
      simpa using hv
  · dsimp only
    show Float.ofModel (.pack (UnpackedFloat.ofScientific _ _ _)) = Float.ofModel (.pack _)
    cases s with
    | true =>
      rw [if_pos rfl] at hv ⊢
      rw [Int.negOfNat_eq]
      exact congrArg (Float.ofModel ∘ Float.Model.pack) (d.ofScientific_unpacked hn hv)
    | false =>
      rw [if_neg Bool.false_ne_true] at hv ⊢
      exact congrArg (Float.ofModel ∘ Float.Model.pack) (d.ofScientific_unpacked hn hv)

theorem Normal.ofNat_eq (d : Normal) {n : Nat} (h : (n : ℚ) = d.value) : Float.ofNat n = d.float .positive := by
  have hv : d.interval.Contains (n * 10 ^ (if false then -(0 : Nat) else (0 : Nat) : Int)) := by
    rw [if_neg Bool.false_ne_true, Nat.cast_zero, zpow_zero, mul_one, h]
    exact d.contains_value
  exact ofScientific_eq d hv

/-- The digits of a positive number say its size. -/
theorem length_toDigits_bounds {n : Nat} (hn : 0 < n) :
    10 ^ ((Nat.toDigits 10 n).length - 1) ≤ n ∧ n < 10 ^ (Nat.toDigits 10 n).length := by
  have hpos : 0 < (Nat.toDigits 10 n).length := Nat.length_toDigits_pos
  constructor
  · by_contra! h
    by_cases hone : (Nat.toDigits 10 n).length = 1
    · rw [hone] at h
      omega
    · have hle := (Nat.length_toDigits_le_iff (by decide) (by omega)).mpr h
      omega
  · exact (Nat.length_toDigits_le_iff (by decide) hpos).mp le_rfl

/-- A decimal lies between two powers of ten that its number of digits decides. -/
theorem decimal_bounds {n : Nat} (hn : 0 < n) (q : Int) :
    (10 : ℚ) ^ (((Nat.toDigits 10 n).length - 1 : Nat) + q) ≤ n * 10 ^ q ∧
      (n * 10 ^ q : ℚ) < 10 ^ ((Nat.toDigits 10 n).length + q) := by
  have hten : (0 : ℚ) < 10 ^ q := zpow_pos (by norm_num) q
  have hpow (k : Nat) : (10 : ℚ) ^ (k + q) = (10 ^ k : Nat) * 10 ^ q := by
    rw [zpow_add₀ (by norm_num), zpow_natCast, Nat.cast_pow, Nat.cast_ofNat]
  obtain ⟨hlow, hhigh⟩ := length_toDigits_bounds hn
  rw [hpow, hpow]
  constructor
  · exact mul_le_mul_of_nonneg_right (Nat.cast_le.mpr hlow) hten.le
  · exact mul_lt_mul_of_pos_right (Nat.cast_lt.mpr hhigh) hten

theorem two_zpow_le (n : Nat) : (2 : ℚ) ^ (3 * n : Int) ≤ 10 ^ (n : Int) := by
  rw [zpow_mul, zpow_natCast, zpow_natCast]
  exact pow_le_pow_left₀ (by norm_num) (by norm_num) n

/-- A decimal in the interval of a double has its point at most 400 places from its digits. -/
theorem Normal.magnitude_bounds (d : Normal) {n : Nat} {q : Int} (hn : 0 < n)
    (hv : d.interval.Contains (n * 10 ^ q)) :
    (Nat.toDigits 10 n).length + q ≤ 400 ∧ -400 ≤ (Nat.toDigits 10 n).length + q := by
  obtain ⟨hlow, hhigh⟩ := d.bounds hv
  have hleast := d.least
  have hgreatest := d.greatest
  have hpos : 0 < (Nat.toDigits 10 n).length := Nat.length_toDigits_pos
  obtain ⟨hdigits, hdigits'⟩ := decimal_bounds hn q
  constructor
  · have hlt : (10 : ℚ) ^ (((Nat.toDigits 10 n).length - 1 : Nat) + q) < 10 ^ ((400 : Nat) : Int) := by
      calc (10 : ℚ) ^ (((Nat.toDigits 10 n).length - 1 : Nat) + q) ≤ n * 10 ^ q := hdigits
        _ < 2 ^ (d.exponent + 53) := hhigh
        _ ≤ 2 ^ (3 * (400 : Nat) : Int) := zpow_le_zpow_right₀ one_le_two (by omega)
        _ ≤ 10 ^ ((400 : Nat) : Int) := two_zpow_le 400
    have := (zpow_lt_zpow_iff_right₀ (by norm_num)).mp hlt
    omega
  · have hlt : (10 : ℚ) ^ (-(400 : Nat) : Int) < 10 ^ ((Nat.toDigits 10 n).length + q) := by
      calc (10 : ℚ) ^ (-(400 : Nat) : Int) ≤ 2 ^ (-(3 * (400 : Nat)) : Int) := by
            rw [zpow_neg, zpow_neg]
            exact inv_anti₀ (zpow_pos two_pos _) (two_zpow_le 400)
        _ ≤ 2 ^ (d.exponent + 51) := zpow_le_zpow_right₀ one_le_two (by omega)
        _ ≤ n * 10 ^ q := hlow
        _ < 10 ^ ((Nat.toDigits 10 n).length + q) := hdigits'
    have := (zpow_lt_zpow_iff_right₀ (by norm_num)).mp hlt
    omega

/-- So is one whose point may be far from its digits, where the size decides before anything is computed. -/
theorem ofDecimal_eq (d : Normal) {x : Decimal} (hv : d.interval.Contains (x.digits * 10 ^ x.exponent)) :
    ofDecimal x = d.float .positive := by
  have hn : 0 < x.digits := hv.pos d.interval_low_pos
  obtain ⟨hlarge, hsmall⟩ := d.magnitude_bounds hn hv
  unfold ofDecimal
  rw [if_neg hn.ne']
  dsimp only
  rw [if_neg (by omega), if_neg (by omega)]
  split
  · next hx =>
    refine ofScientific_eq d ?_
    rw [if_neg Bool.false_ne_true, Int.toNat_of_nonneg hx]
    exact hv
  · next hx =>
    refine ofScientific_eq d ?_
    rw [if_pos rfl, Int.toNat_of_nonneg (by omega), Int.neg_neg]
    exact hv

end TurtleLogo.Number
