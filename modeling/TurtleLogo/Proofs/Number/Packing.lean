import TurtleLogo.Proofs.Number.Finite

/-!
# Packing

A number is packed into a double by moving its mantissa to all its bits, or to the least exponent. It does not matter
over which power of two the number is written, and the parts of a double are packed into that double again.

* `packBits_shift` : a number has the same bits over another power of two;
* `pack_of_shape` : packing the parts of a finite double;
* `Normal.pack_eq` : packing a number that is a double with all its bits.
-/

namespace TurtleLogo.Number

open Float.Model Float.Model.UnpackedFloat

variable {x : Float} {negative : Bool} {m : Nat} {e : Int}

/-! ## Bits -/

theorem toNat_packComponents (s : Sign) (field : BitVec 11) (fraction : BitVec 52) :
    (packComponents Format.binary64 s field fraction).toNat =
      s.toBitVec.toNat * 2 ^ 63 + field.toNat * 2 ^ 52 + fraction.toNat := by
  rw [packComponents, BitVec.toNat_append, BitVec.toNat_append, ← Nat.shiftLeft_add_eq_or_of_lt (BitVec.isLt _),
    ← Nat.shiftLeft_add_eq_or_of_lt (BitVec.isLt _), Nat.shiftLeft_eq, Nat.shiftLeft_eq]
  show (s.toBitVec.toNat * 2 ^ 11 + field.toNat) * 2 ^ 52 + fraction.toNat = _
  omega

theorem toNat_signOf (negative : Bool) : (signOf negative).toBitVec.toNat = negative.toNat := by cases negative <;> rfl

theorem pack_unpacked_of_shape (hx : shape x = .finite negative m e) :
    Float.ofModel (.pack (shape x).unpacked) = x := by
  obtain ⟨field, hfield, hbits, hcases⟩ := toNat_toBits_of_shape hx
  refine eq_of_toBits ?_
  show (UInt64.ofBitVec (UnpackedFloat.pack Format.binary64 (shape x).unpacked)).toNat = _
  rw [UInt64.toNat_ofBitVec, hbits, hx, Shape.unpacked]
  by_cases hm : m = 0
  · rw [dif_pos hm]
    show (packComponents Format.binary64 (signOf negative) 0#11 0#52).toNat = _
    rw [toNat_packComponents, toNat_signOf, BitVec.toNat_ofNat, BitVec.toNat_ofNat]
    omega
  · have hbias : (e + Format.binary64.exponentBias + Format.binary64.mantissaBitsWithoutImplicit).toNat =
        (e + 1075).toNat := by
      show (e + (1023 : Nat) + (52 : Nat)).toNat = _
      omega
    have hwide : m.log2 + 1 = Format.binary64.mantissaBits ↔ 2 ^ 52 ≤ m := by
      show m.log2 + 1 = 53 ↔ _
      rw [← Nat.le_log2 hm]
      have hlog : m.log2 < 53 := (Nat.log2_lt hm).mpr (by omega)
      omega
    have hfinite : ¬ 2 ^ 11 ≤ (e + 1075).toNat + 1 := by omega
    rw [dif_neg hm, UnpackedFloat.pack]
    dsimp only
    rw [hbias, if_neg hfinite]
    rcases hcases with ⟨rfl, hlow, rfl⟩ | ⟨hpos, hlow, hhigh, rfl⟩
    · rw [if_neg (hwide.not.mpr (by omega)), toNat_packComponents, toNat_signOf]
      rfl
    · rw [if_pos (hwide.mpr hlow), toNat_packComponents, toNat_signOf, BitVec.toNat_ofNat, BitVec.toNat_ofNat]
      show _ * 2 ^ 63 + (field - 1075 + 1075 : Int).toNat % 2 ^ 11 * 2 ^ 52 + m % 2 ^ 52 = _
      congr 3
      omega

theorem ofBits_toBits (hx : shape x = .finite negative m e) : Float.ofBits x.toBits = x := by
  show Float.ofModel (.pack x.toModel.unpack) = x
  rw [unpack_eq, pack_unpacked_of_shape hx]

/-! ## Numbers -/

theorem packBits_of_shape (hx : shape x = .finite negative m e) :
    x.toBits.toNat = (if negative then twoTo 63 else 0) + packBits m e := by
  obtain ⟨field, hfield, hbits, hcases⟩ := toNat_toBits_of_shape hx
  have hsign : (if negative then twoTo 63 else 0) = negative.toNat * 2 ^ 63 := by cases negative <;> rfl
  rw [hbits, hsign, packBits, Nat.add_assoc]
  congr 1
  by_cases hm : m = 0
  · rw [if_pos hm, hm]
    omega
  · have htarget : max (e + m.log2 - 52) (-1074) = e := by
      have hlog : 2 ^ 52 ≤ m → 52 ≤ m.log2 := (Nat.le_log2 hm).mpr
      have hlog' : m.log2 < 53 := (Nat.log2_lt hm).mpr (by omega)
      omega
    rw [if_neg hm, htarget]
    dsimp only
    rw [if_pos le_rfl, Int.sub_self]
    show _ = if m * 1 < 2 ^ 52 then m * 1 else (e + 1075).toNat * 2 ^ 52 + (m * 1 - 2 ^ 52)
    split <;> omega

/-- The parts of a finite double are packed into it again. -/
theorem pack_of_shape (hx : shape x = .finite negative m e) : pack negative m e = x := by
  show Float.ofBits ((if negative then twoTo 63 else 0) + packBits m e).toUInt64 = x
  rw [← packBits_of_shape hx]
  nth_rewrite 2 [← ofBits_toBits hx]
  congr 1
  exact UInt64.toNat_inj.mp (UInt64.toNat_ofNat_of_lt' x.toBits.toNat_lt)

/-- A number has the same bits over another power of two. -/
theorem packBits_shift (hm : 0 < m) (e : Int) (k : Nat) : packBits (m * 2 ^ k) (e - k) = packBits m e := by
  have hlog : e - k + ((m * 2 ^ k).log2 : Nat) = e + m.log2 := by
    rw [log2_mul_two_pow hm]
    omega
  unfold packBits
  rw [if_neg (Nat.mul_pos hm (Nat.two_pow_pos k)).ne', if_neg hm.ne', hlog]
  dsimp only
  generalize max (e + (m.log2 : Int) - 52) (-1074) = target
  have hmoved : (if target ≤ e - k then m * 2 ^ k * twoTo (e - k - target).toNat
      else m * 2 ^ k / twoTo (target - (e - k)).toNat) =
      if target ≤ e then m * twoTo (e - target).toNat else m / twoTo (target - e).toNat := by
    simp only [twoTo_eq]
    rcases le_or_gt target (e - k) with h | h
    · have hshift : (e - target).toNat = k + (e - k - target).toNat := by omega
      rw [if_pos h, if_pos (by omega), hshift, Nat.pow_add, Nat.mul_assoc]
    · rw [if_neg h.not_ge]
      rcases le_or_gt target e with h' | h'
      · have hshift : 2 ^ k = 2 ^ (e - target).toNat * 2 ^ (target - (e - k)).toNat := by
          rw [← Nat.pow_add]
          congr 1
          omega
        rw [if_pos h', hshift, ← Nat.mul_assoc, Nat.mul_div_cancel _ (Nat.two_pow_pos _)]
      · have hshift : (target - (e - k)).toNat = (target - e).toNat + k := by omega
        rw [if_neg h'.not_ge, hshift, Nat.pow_add, Nat.mul_div_mul_right _ _ (Nat.two_pow_pos k)]
  rw [hmoved]

theorem packBits_eq_of_le {n : Nat} {f : Int} (hm : 0 < m) (h : (n * 2 ^ f : ℚ) = m * 2 ^ e) (hle : f ≤ e) :
    packBits n f = packBits m e := by
  obtain ⟨k, hk⟩ := Int.eq_ofNat_of_zero_le (Int.sub_nonneg_of_le hle)
  obtain rfl : f = e - k := by omega
  have hn : n = m * 2 ^ k := by
    have hpos : (2 : ℚ) ^ (e - k) ≠ 0 := (zpow_pos two_pos _).ne'
    have hsplit : (2 : ℚ) ^ e = 2 ^ k * 2 ^ (e - k) := by
      rw [← zpow_natCast, ← zpow_add₀ two_ne_zero]
      congr 1
      omega
    rw [hsplit, ← mul_assoc] at h
    exact_mod_cast mul_right_cancel₀ hpos h
  rw [hn, packBits_shift hm]

theorem Normal.pack_eq (d : Normal) (negative : Bool) (h : (m * 2 ^ e : ℚ) = d.value) :
    pack negative m e = d.float (signOf negative) := by
  have hshape : shape (d.float (signOf negative)) = .finite negative d.mantissa d.exponent := by
    rw [d.shape_float]
    cases negative <;> rfl
  have hbits : packBits m e = packBits d.mantissa d.exponent := by
    rcases le_total e d.exponent with he | he
    · exact packBits_eq_of_le d.mantissa_pos h he
    · exact (packBits_eq_of_le (Interval.Contains.pos (h ▸ d.contains_value) d.interval_low_pos) h.symm he).symm
  rw [← pack_of_shape hshape, pack, pack, hbits]

end TurtleLogo.Number
