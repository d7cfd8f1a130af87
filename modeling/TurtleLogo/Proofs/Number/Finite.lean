import TurtleLogo.Proofs.Number.Numerals

/-!
# Finite doubles as numbers

A double is computed with in parts that are read off its bits. These are the parts of its shape, so that a finite double
stands for a rational number, and finite doubles compare as their numbers do.

* `unpack_eq` : the parts that a double is computed with are those of its shape;
* `Canonical` : the parts of a finite double are the only ones of their number;
* `rational` : the number that a finite double stands for;
* `le_iff_rational`, `lt_iff_rational`, `beq_iff_rational` : comparisons.
-/

namespace TurtleLogo.Number

open Float.Model Float.Model.UnpackedFloat

/-! ## Parts -/

def signOf (negative : Bool) : Sign := if negative then .negative else .positive

/-- The parts of a double, in the form in which doubles are computed with. -/
def Shape.unpacked : Shape → UnpackedFloat
  | .nan => .notANumber
  | .infinite negative => .infinity (signOf negative)
  | .finite negative m e =>
    if h : m = 0 then .zero (signOf negative) else .finite (signOf negative) m e (Nat.pos_of_ne_zero h)

section Fields

variable (b : BitVec Format.binary64.numBits)

theorem toNat_unpackExponent : (unpackExponent b).toNat = b.toNat / 2 ^ 52 % 2 ^ 11 := by
  simp [unpackExponent, BitVec.extractLsb, Nat.shiftRight_eq_div_pow, Format.binary64]

theorem toNat_unpackMantissa : (unpackMantissa b).toNat = b.toNat % 2 ^ 52 := by
  simp [unpackMantissa, BitVec.extractLsb, Format.binary64]

theorem toNat_unpackSign : (unpackSign b).toNat = b.toNat / 2 ^ 63 % 2 := by
  simp [unpackSign, BitVec.extractLsb, Nat.shiftRight_eq_div_pow, Format.binary64]

theorem unpackExponent_eq_iff (n : BitVec 11) : unpackExponent b = n ↔ b.toNat / 2 ^ 52 % 2 ^ 11 = n.toNat := by
  rw [← toNat_unpackExponent]
  exact BitVec.toNat_inj.symm

theorem unpackMantissa_eq_iff (n : BitVec 52) : unpackMantissa b = n ↔ b.toNat % 2 ^ 52 = n.toNat := by
  rw [← toNat_unpackMantissa]
  exact BitVec.toNat_inj.symm

/-- The mantissa with the bit that is not written. -/
theorem toNat_one_append : (1#1 ++ unpackMantissa b).toNat = b.toNat % 2 ^ 52 + 2 ^ 52 := by
  have hlt : b.toNat % 2 ^ 52 < 2 ^ 52 := Nat.mod_lt _ (Nat.two_pow_pos 52)
  have hmantissa := toNat_unpackMantissa b
  generalize unpackMantissa b = mantissa at hmantissa
  change BitVec 52 at mantissa
  change mantissa.toNat = _ at hmantissa
  show (1#1 ++ mantissa).toNat = _
  rw [BitVec.toNat_append, hmantissa, ← Nat.shiftLeft_add_eq_or_of_lt hlt, Nat.add_comm]
  rfl

theorem sign_unpack : Sign.ofBitVec (unpackSign b) = signOf (decide (2 ^ 63 ≤ b.toNat)) := by
  have hb : b.toNat < 2 ^ 64 := b.isLt
  have hsign := toNat_unpackSign b
  unfold Sign.ofBitVec signOf
  by_cases h : 2 ^ 63 ≤ b.toNat
  · have hone : unpackSign b ≠ 0#1 := by
      intro hzero
      rw [hzero, BitVec.toNat_ofNat] at hsign
      omega
    rw [if_neg hone, decide_eq_true h, if_pos rfl]
  · have hzero : unpackSign b = 0#1 := by
      refine BitVec.eq_of_toNat_eq ?_
      rw [hsign, BitVec.toNat_ofNat]
      omega
    rw [if_pos hzero, decide_eq_false h, if_neg Bool.false_ne_true]

end Fields

/-- The parts that a double is computed with are those of its shape. -/
theorem unpack_eq (x : Float) : x.toModel.unpack = (shape x).unpacked := by
  have hbits : x.toBits.toBitVec.toNat = x.toBits.toNat := rfl
  have hexponent := toNat_unpackExponent x.toBits.toBitVec
  have hinfinite := unpackExponent_eq_iff x.toBits.toBitVec (-1#11)
  have hleast := unpackExponent_eq_iff x.toBits.toBitVec 0#11
  have hzero := unpackMantissa_eq_iff x.toBits.toBitVec 0#52
  have hsign := sign_unpack x.toBits.toBitVec
  rw [hbits] at hexponent hinfinite hleast hzero hsign
  show UnpackedFloat.unpack Format.binary64 x.toBits.toBitVec = _
  unfold UnpackedFloat.unpack shape
  dsimp only [twoTo_eq]
  rw [hsign]
  by_cases hi : x.toBits.toNat / 2 ^ 52 % 2 ^ 11 = 2047
  · rw [if_pos (hinfinite.mpr hi), if_pos hi]
    by_cases hz : x.toBits.toNat % 2 ^ 52 = 0
    · rw [if_pos (hzero.mpr hz), if_pos hz, Shape.unpacked]
    · rw [if_neg (hzero.not.mpr hz), if_neg hz, Shape.unpacked]
  · rw [if_neg (hinfinite.not.mpr hi), if_neg hi]
    by_cases hl : x.toBits.toNat / 2 ^ 52 % 2 ^ 11 = 0
    · rw [if_pos (hleast.mpr hl), if_pos hl, Shape.unpacked]
      by_cases hz : x.toBits.toNat % 2 ^ 52 = 0
      · rw [dif_pos (hzero.mpr hz), dif_pos hz]
      · rw [dif_neg (hzero.not.mpr hz), dif_neg hz]
        congr 1
        rw [hexponent, hl]
        rfl
    · have hpos : x.toBits.toNat % 2 ^ 52 + 2 ^ 52 ≠ 0 := by omega
      rw [if_neg (hleast.not.mpr hl), if_neg hl, Shape.unpacked, dif_neg hpos]
      rw [hexponent]
      congr 1
      exact toNat_one_append _

/-! ## Numbers -/

/-- The parts that a finite double can have: all the bits of the mantissa, or the least exponent. -/
structure Canonical (m : Nat) (e : Int) : Prop where
  bits : m < 2 ^ 53
  least : -1074 ≤ e
  wide : e = -1074 ∨ 2 ^ 52 ≤ m

variable {x y : Float} {negative : Bool} {m n : Nat} {e f : Int}

theorem canonical_of_shape (hx : shape x = .finite negative m e) : Canonical m e := by
  obtain ⟨field, hfield, -, ⟨-, hlow, rfl⟩ | ⟨hpos, hlow, hhigh, rfl⟩⟩ := toNat_toBits_of_shape hx
  · exact ⟨by omega, le_rfl, .inl rfl⟩
  · exact ⟨hhigh, by omega, .inr hlow⟩

def signed (s : Sign) (m : Nat) (e : Int) : ℚ :=
  match s with
  | .positive => m * 2 ^ e
  | .negative => -(m * 2 ^ e)

theorem signed_zero (s : Sign) (e : Int) : signed s 0 e = 0 := by cases s <;> simp [signed]

def rational (x : Float) : ℚ :=
  match shape x with
  | .finite negative m e => signed (signOf negative) m e
  | _ => 0

theorem rational_of_shape (hx : shape x = .finite negative m e) : rational x = signed (signOf negative) m e := by
  rw [rational, hx]

theorem isFinite_iff : x.isFinite = true ↔ ∃ negative m e, shape x = .finite negative m e := by
  show x.toModel.unpack.isFinite = true ↔ _
  rw [unpack_eq]
  cases shape x with
  | nan => simp [Shape.unpacked, UnpackedFloat.isFinite]
  | infinite negative => simp [Shape.unpacked, UnpackedFloat.isFinite]
  | finite negative m e =>
    have hfinite : (Shape.finite negative m e).unpacked.isFinite = true := by
      rw [Shape.unpacked]
      split <;> rfl
    simp [hfinite]

theorem isFinite_of_shape (hx : shape x = .finite negative m e) : x.isFinite = true := isFinite_iff.mpr ⟨_, _, _, hx⟩

theorem Normal.isFinite_float (d : Normal) (s : Sign) : (d.float s).isFinite = true :=
  isFinite_of_shape (d.shape_float s)

theorem Normal.rational_float (d : Normal) (s : Sign) : rational (d.float s) = signed s d.mantissa d.exponent := by
  rw [rational_of_shape (d.shape_float s)]
  cases s <;> rfl

theorem Normal.rational_ne_zero (d : Normal) (s : Sign) : rational (d.float s) ≠ 0 := by
  rw [d.rational_float]
  cases s with
  | positive => exact d.value_pos.ne'
  | negative => exact neg_ne_zero.mpr d.value_pos.ne'

/-- A number of at most 53 bits is a double itself. -/
theorem exists_value_eq {a : Nat} (ha : 0 < a) {t : Int} (hlog : a.log2 ≤ 52) (hleast : -1022 < t + a.log2)
    (hgreatest : t + a.log2 ≤ 1022) : ∃ d : Normal, (a * 2 ^ t : ℚ) = d.value := by
  have hmantissa := log2_mul_two_pow ha (52 - a.log2)
  rw [Nat.add_sub_cancel' hlog] at hmantissa
  obtain ⟨hlow, hhigh⟩ := (Nat.log2_eq_iff (Nat.mul_pos ha (Nat.two_pow_pos _)).ne').mp hmantissa
  refine ⟨⟨a * 2 ^ (52 - a.log2), t - (52 - a.log2 : Nat), hlow, hhigh, by omega, by omega⟩, ?_⟩
  show (a * 2 ^ t : ℚ) = (a * 2 ^ (52 - a.log2) : Nat) * 2 ^ (t - (52 - a.log2 : Nat))
  rw [zpow_sub₀ two_ne_zero, zpow_natCast]
  push_cast
  field_simp

/-! ## Comparisons -/

/-- With all the bits of the mantissa, a greater exponent is a greater number. -/
theorem mul_two_pow_lt (hm : m < 2 ^ 53) (hn : 2 ^ 52 ≤ n) (h : e < f) : (m * 2 ^ e : ℚ) < n * 2 ^ f := by
  have hm : (m : ℚ) < 2 ^ 53 := by exact_mod_cast hm
  have hn : (2 ^ 52 : ℚ) ≤ n := by exact_mod_cast hn
  calc (m * 2 ^ e : ℚ) < 2 ^ 53 * 2 ^ e := mul_lt_mul_of_pos_right hm (zpow_pos two_pos _)
    _ = 2 ^ 52 * 2 ^ (e + 1) := by
      rw [zpow_add₀ two_ne_zero, zpow_one]
      ring
    _ ≤ 2 ^ 52 * 2 ^ f := mul_le_mul_of_nonneg_left (zpow_le_zpow_right₀ one_le_two h) (by positivity)
    _ ≤ n * 2 ^ f := mul_le_mul_of_nonneg_right hn (zpow_pos two_pos _).le

theorem Normal.value_lt_of_exponent_lt {d d' : Normal} (h : d.exponent < d'.exponent) : d.value < d'.value :=
  mul_two_pow_lt d.high d'.low h

theorem Normal.eq_of_value {d d' : Normal} (h : d.value = d'.value) : d = d' := by
  have he : d.exponent = d'.exponent := by
    rcases lt_trichotomy d.exponent d'.exponent with he | he | he
    · exact absurd h (value_lt_of_exponent_lt he).ne
    · exact he
    · exact absurd h (value_lt_of_exponent_lt he).ne'
  rw [Normal.value, Normal.value, he] at h
  have hm : d.mantissa = d'.mantissa := by
    exact_mod_cast mul_right_cancel₀ (zpow_pos two_pos d'.exponent).ne' h
  cases d
  cases d'
  simp only [Normal.mk.injEq]
  exact ⟨hm, he⟩

/-- Numbers compare by their exponents and then by their mantissas. -/
theorem Canonical.compare_eq (hm : Canonical m e) (hn : Canonical n f) :
    (compare e f).then (compare m n) = compare (m * 2 ^ e : ℚ) (n * 2 ^ f) := by
  rcases lt_trichotomy e f with h | rfl | h
  · have hwide := hn.wide.resolve_left (hm.least.trans_lt h).ne'
    rw [compare_lt_iff_lt.mpr h, compare_lt_iff_lt.mpr (mul_two_pow_lt hm.bits hwide h)]
    rfl
  · have hmono : StrictMono fun k : Nat => (k * 2 ^ e : ℚ) := fun k l hk =>
      mul_lt_mul_of_pos_right (Nat.cast_lt.mpr hk) (zpow_pos two_pos e)
    rw [compare_eq_iff_eq.mpr rfl, Ordering.eq_then, ← cmp_eq_compare, ← cmp_eq_compare]
    exact (hmono.cmp_map_eq m n).symm
  · have hwide := hm.wide.resolve_left (hn.least.trans_lt h).ne'
    rw [compare_gt_iff_gt.mpr h, compare_gt_iff_gt.mpr (mul_two_pow_lt hn.bits hwide h)]
    rfl

theorem compare_neg_neg (a b : ℚ) : compare (-a) (-b) = (compare a b).swap := by
  rw [← cmp_eq_compare, ← cmp_eq_compare, cmp_swap]
  have hanti : StrictAnti fun c : ℚ => -c := fun _ _ h => neg_lt_neg h
  exact hanti.cmp_map_eq a b

/-- The parts of finite doubles compare as their numbers do. -/
theorem compare_unpack (hx : x.isFinite = true) (hy : y.isFinite = true) :
    UnpackedFloat.compare x.toModel.unpack y.toModel.unpack = some (compare (rational x) (rational y)) := by
  obtain ⟨negative, m, e, hx⟩ := isFinite_iff.mp hx
  obtain ⟨negative', n, f, hy⟩ := isFinite_iff.mp hy
  have hcompare := (canonical_of_shape hx).compare_eq (canonical_of_shape hy)
  rw [unpack_eq, unpack_eq, hx, hy, rational_of_shape hx, rational_of_shape hy, Shape.unpacked, Shape.unpacked]
  have hpos {k : Nat} (e : Int) (hk : k ≠ 0) : (0 : ℚ) < k * 2 ^ e :=
    mul_pos (Nat.cast_pos.mpr (Nat.pos_of_ne_zero hk)) (zpow_pos two_pos e)
  by_cases hm : m = 0
  · subst hm
    rw [dif_pos rfl, signed_zero]
    by_cases hn : n = 0
    · subst hn
      rw [dif_pos rfl, signed_zero]
      rfl
    · rw [dif_neg hn]
      cases signOf negative' with
      | positive => exact congrArg some (compare_lt_iff_lt.mpr (hpos f hn)).symm
      | negative => exact congrArg some (compare_gt_iff_gt.mpr (neg_lt_zero.mpr (hpos f hn))).symm
  · rw [dif_neg hm]
    by_cases hn : n = 0
    · subst hn
      rw [dif_pos rfl, signed_zero]
      cases signOf negative with
      | positive => exact congrArg some (compare_gt_iff_gt.mpr (hpos e hm)).symm
      | negative => exact congrArg some (compare_lt_iff_lt.mpr (neg_lt_zero.mpr (hpos e hm))).symm
    · rw [dif_neg hn]
      cases signOf negative with
      | positive =>
        cases signOf negative' with
        | positive => exact congrArg some hcompare
        | negative => exact congrArg some (compare_gt_iff_gt.mpr ((neg_lt_zero.mpr (hpos f hn)).trans (hpos e hm))).symm
      | negative =>
        cases signOf negative' with
        | positive => exact congrArg some (compare_lt_iff_lt.mpr ((neg_lt_zero.mpr (hpos e hm)).trans (hpos f hn))).symm
        | negative => exact congrArg some ((congrArg Ordering.swap hcompare).trans (compare_neg_neg _ _).symm)

theorem le_iff_unpack : x ≤ y ↔ UnpackedFloat.le x.toModel.unpack y.toModel.unpack = true := by
  show decide (x.toModel ≤ y.toModel) = true ↔ _
  rw [decide_eq_true_iff]
  rfl

theorem lt_iff_unpack : x < y ↔ UnpackedFloat.lt x.toModel.unpack y.toModel.unpack = true := by
  show decide (x.toModel < y.toModel) = true ↔ _
  rw [decide_eq_true_iff]
  rfl

theorem le_iff_rational (hx : x.isFinite = true) (hy : y.isFinite = true) : x ≤ y ↔ rational x ≤ rational y := by
  rw [le_iff_unpack, UnpackedFloat.le, compare_unpack hx hy, Option.any_some]
  exact Ordering.ne_gt_iff_isLE.symm.trans compare_le_iff_le

theorem lt_iff_rational (hx : x.isFinite = true) (hy : y.isFinite = true) : x < y ↔ rational x < rational y := by
  rw [lt_iff_unpack, UnpackedFloat.lt, compare_unpack hx hy, beq_iff_eq, Option.some_inj]
  exact compare_lt_iff_lt

theorem beq_iff_rational (hx : x.isFinite = true) (hy : y.isFinite = true) :
    (x == y) = true ↔ rational x = rational y := by
  show UnpackedFloat.beq x.toModel.unpack y.toModel.unpack = true ↔ _
  rw [UnpackedFloat.beq, compare_unpack hx hy, beq_iff_eq, Option.some_inj]
  exact compare_eq_iff_eq

end TurtleLogo.Number
