import TurtleLogo.Proofs.Node.Canonical
import TurtleLogo.Proofs.Number.Doubles
import TurtleLogo.Proofs.Number.Patterns
import TurtleLogo.Proofs.Number.Shortest

/-!
# Numbers read back

The text of a number is read as a numeral. If it has no letters it is digits with a point perhaps, after a minus if the
number is negative, and it reads as the number itself, since the decimal written lies in the interval of the double.

* `positional_eq` : digits with a point, as a numeral and its value;
* `isLetterless` : numbers written without letters; `isLetterless_cases` : they are zero or have all their bits;
* `Normal.reads` : the text of such a number reads as the number.
-/

namespace TurtleLogo.Number

open Float.Model.UnpackedFloat Lexer

/-! ## Digits -/

theorem digitsValue_append (xs ys : List Char) :
    digitsValue (xs ++ ys) = digitsValue xs * 10 ^ ys.length + digitsValue ys := by
  have h : Nat.ofDigitChars 10 ys (digitsValue xs) = 10 ^ ys.length * digitsValue xs + digitsValue ys :=
    Nat.ofDigitChars_eq_ofDigitChars_zero
  rw [Nat.mul_comm, ← h]
  exact Nat.ofDigitChars_append 0

theorem digitsValue_natDigits (n : Nat) : digitsValue (natDigits n) = n := Nat.ofDigitChars_ten_toDigits

theorem digitsValue_zeros (n : Nat) : digitsValue (List.replicate n '0') = 0 := Nat.ofDigitChars_replicate_zero

theorem isDigit_natDigits {n : Nat} {c : Char} (h : c ∈ natDigits n) : c.isDigit = true :=
  Nat.isDigit_of_mem_toDigits (by decide) (by decide) h

theorem intText_natCast (n : Nat) : intText n = natText n := by
  rw [intText, if_neg (Int.not_lt.mpr (Int.natCast_nonneg n)), Int.natAbs_natCast]

/-- The digits of a whole number are read as the number, unless they are too many. -/
theorem bareWord_natDigits {n : Nat} (h : n < 10 ^ digitLimit) : bareWord (natDigits n) = .ok (.integer n) := by
  have hlength : (natDigits n).length ≤ digitLimit := (Nat.length_toDigits_le_iff (by decide) (by decide)).mpr h
  rw [bareWord, read?_integer (fun c hc => isDigit_natDigits hc) Nat.toDigits_ne_nil]
  dsimp only
  rw [if_neg (Nat.not_lt.mpr hlength), digitsValue_natDigits]

/-- A whole number written without a fraction is read as its double. -/
theorem reads_ofNat {n : Nat} (h : n < wholeLimit) :
    bareWord (natDigits n) = .ok (.integer n) ∧ ofInt? n = some (Float.ofInt n) := by
  have hdigits : 15 ≤ digitLimit := by decide
  have hlimit : wholeLimit < integerLimit := by decide +kernel
  constructor
  · exact bareWord_natDigits (Nat.lt_of_lt_of_le (m := 10 ^ 15) h (Nat.pow_le_pow_right (by decide) hdigits))
  · exact if_pos (h.trans hlimit)

/-! ## Positional notation -/

/-- Digits written with a point are a numeral of the same value. -/
theorem positional_eq {ds : List Char} (hds : ∀ c ∈ ds, c.isDigit = true) (point : Int) :
    ∃ whole fraction, positional ds point = whole ++ '.' :: fraction ∧ whole ≠ [] ∧
      (∀ c ∈ whole ++ fraction, c.isDigit = true) ∧
      (digitsValue (whole ++ fraction) * 10 ^ (-fraction.length : Int) : ℚ) =
        digitsValue ds * 10 ^ (point - ds.length) := by
  have hzeros (n : Nat) : ∀ c ∈ List.replicate n '0', c.isDigit = true := by
    intro c hc
    rw [List.eq_of_mem_replicate hc]
    rfl
  unfold positional
  by_cases hp : point ≤ 0
  · rw [if_pos hp]
    refine ⟨['0'], List.replicate (-point).toNat '0' ++ ds, rfl, by simp, ?_, ?_⟩
    · intro c hc
      rcases List.mem_append.mp hc with hc | hc
      · exact hzeros 1 c hc
      · exact (List.mem_append.mp hc).elim (hzeros _ c) (hds c)
    · have hvalue : digitsValue (['0'] ++ (List.replicate (-point).toNat '0' ++ ds)) = digitsValue ds := by
        rw [digitsValue_append, digitsValue_append, digitsValue_zeros]
        simp [digitsValue]
      rw [hvalue, List.length_append, List.length_replicate]
      congr 2
      omega
  · rw [if_neg hp]
    dsimp only
    split
    · next hlen =>
      refine ⟨ds ++ List.replicate (point.toNat - ds.length) '0', ['0'], rfl, ?_, ?_, ?_⟩
      · refine List.ne_nil_of_length_pos ?_
        rw [List.length_append, List.length_replicate]
        omega
      · intro c hc
        rcases List.mem_append.mp hc with hc | hc
        · exact (List.mem_append.mp hc).elim (hds c) (hzeros _ c)
        · exact hzeros 1 c hc
      · have hshift : (point - ds.length : Int) = ((point.toNat - ds.length : Nat) : Int) := by omega
        have hvalue : digitsValue (ds ++ List.replicate (point.toNat - ds.length) '0' ++ ['0']) =
            digitsValue ds * 10 ^ (point.toNat - ds.length) * 10 := by
          rw [digitsValue_append, digitsValue_append, digitsValue_zeros, List.length_replicate]
          rfl
        rw [hvalue, hshift, zpow_natCast]
        push_cast
        exact mul_inv_cancel_right₀ (by norm_num) _
    · next hlen =>
      refine ⟨ds.take point.toNat, ds.drop point.toNat, rfl, ?_, ?_, ?_⟩
      · refine List.ne_nil_of_length_pos ?_
        rw [List.length_take]
        omega
      · rw [List.take_append_drop]
        exact hds
      · rw [List.take_append_drop, List.length_drop]
        congr 2
        omega

/-- A decimal in the interval of a double, written with a point, reads as the double. -/
theorem Normal.bareWord_positional (d : Normal) {n : Nat} {point : Int}
    (hv : d.interval.Contains (n * 10 ^ (point - (natDigits n).length))) :
    bareWord (positional (natDigits n) point) = .ok (.float (d.float .positive)) := by
  obtain ⟨whole, fraction, htext, hne, hdigits, hvalue⟩ :=
    positional_eq (fun c (hc : c ∈ natDigits n) => isDigit_natDigits hc) point
  rw [digitsValue_natDigits] at hvalue
  have hread : ofDecimal (fractionalValue whole fraction [] false) = d.float .positive := by
    refine ofDecimal_eq d ?_
    have hexponent : (fractionalValue whole fraction [] false).exponent = -fraction.length := Int.zero_sub _
    rw [hexponent]
    exact hvalue ▸ hv
  rw [htext, bareWord, read?_fractional hdigits hne]
  exact congrArg (fun x => Except.ok (Lexeme.float x)) hread

/-! ## Doubles with all their bits -/

/-- Whether a number is written without letters: neither with an exponent, nor as an infinity or as no number. -/
def isLetterless (x : Float) : Bool := (numberText x).toList.all fun c => !c.isAlpha

theorem mem_scientific (ds : List Char) (x : Int) : 'e' ∈ scientific ds x := by
  unfold scientific
  simp

/-- The whole part of a double that is a whole number. -/
theorem Normal.whole_eq (d : Normal) (h : isInteger (d.float .positive) = true) :
    ∃ n : Nat, truncate (d.float .positive) = n ∧ truncate (d.float .negative) = -(n : Int) ∧ 0 < n ∧
      (n : ℚ) = d.value := by
  suffices hn : ∃ n : Nat, truncate (d.float .positive) = n ∧ truncate (d.float .negative) = -(n : Int) ∧
      (n : ℚ) = d.value by
    obtain ⟨n, hn, hn', hvalue⟩ := hn
    exact ⟨n, hn, hn', Nat.cast_pos.mp (hvalue ▸ d.value_pos), hvalue⟩
  simp only [isInteger, d.shape_float, Bool.or_eq_true, decide_eq_true_eq, beq_iff_eq] at h
  simp only [truncate, d.shape_float]
  refine ⟨_, rfl, rfl, ?_⟩
  rw [Normal.value]
  split
  · next he => rw [Nat.cast_mul, cast_twoTo, ← zpow_natCast, Int.toNat_of_nonneg he]
  · next he =>
    have hdvd : twoTo (-d.exponent).toNat ∣ d.mantissa := Nat.dvd_of_mod_eq_zero (h.resolve_left he)
    have hcast : (twoTo (-d.exponent).toNat : ℚ) = (2 ^ d.exponent)⁻¹ := by
      rw [cast_twoTo, ← zpow_natCast, Int.toNat_of_nonneg (by omega), zpow_neg]
    rw [Nat.cast_div hdvd (by rw [cast_twoTo]; positivity), hcast, div_inv_eq_mul]

theorem Normal.isInteger_negative (d : Normal) : isInteger (d.float .negative) = isInteger (d.float .positive) := by
  unfold isInteger
  rw [d.shape_float, d.shape_float]

theorem Normal.floatText_positive (d : Normal) :
    floatText (d.float .positive) = String.ofList (shortest d.mantissa d.exponent).text := by
  unfold floatText
  rw [d.shape_float]
  exact congrArg String.ofList (if_neg d.mantissa_pos.ne')

theorem Normal.floatText_negative (d : Normal) :
    floatText (d.float .negative) = "-" ++ floatText (d.float .positive) := by
  rw [d.floatText_positive, ← String.toList_inj, String.toList_append, String.toList_ofList]
  unfold floatText
  rw [d.shape_float]
  dsimp only
  rw [if_neg d.mantissa_pos.ne', String.toList_ofList, String.toList_ofList]
  rfl

theorem Normal.numberText_negative (d : Normal) :
    numberText (d.float .negative) = "-" ++ numberText (d.float .positive) := by
  unfold numberText
  rw [d.isInteger_negative]
  cases h : isInteger (d.float .positive) with
  | true =>
    obtain ⟨n, hn, hn', hpos, -⟩ := d.whole_eq h
    rw [hn, hn', Int.natAbs_neg, Bool.true_and]
    split
    · rw [intText, if_pos (by omega), intText, if_neg (by omega), Int.natAbs_neg]
    · exact d.floatText_negative
  | false => exact d.floatText_negative

theorem Normal.shortest_contains (d : Normal) :
    d.interval.Contains ((shortest d.mantissa d.exponent).digits * 10 ^ (shortest d.mantissa d.exponent).exponent) :=
  Number.shortest_contains d.mantissa_pos d.high d.least.le d.greatest

/-- The shortest decimal in positional notation. -/
theorem Normal.reads_positional (d : Normal) {x : Decimal} (hx : 'e' ∉ x.text)
    (hv : d.interval.Contains (x.digits * 10 ^ x.exponent)) :
    (∀ c ∈ x.text, c.isDigit ∨ c = '.') ∧ bareWord x.text = .ok (.float (d.float .positive)) := by
  unfold Decimal.text at hx ⊢
  dsimp only at hx ⊢
  split at hx
  · next hrange =>
    rw [if_pos hrange]
    have hpoint : x.exponent + (natDigits x.digits).length - 1 + 1 - (natDigits x.digits).length = x.exponent := by
      omega
    refine ⟨?_, d.bareWord_positional (by rw [hpoint]; exact hv)⟩
    obtain ⟨whole, fraction, htext, -, hdigits, -⟩ := positional_eq
      (fun c (hc : c ∈ natDigits x.digits) => isDigit_natDigits hc) (x.exponent + (natDigits x.digits).length - 1 + 1)
    rw [htext]
    intro c hc
    rcases List.mem_append.mp hc with hc | hc
    · exact .inl (hdigits c (List.mem_append_left _ hc))
    · rcases List.mem_cons.mp hc with rfl | hc
      · exact .inr rfl
      · exact .inl (hdigits c (List.mem_append_right _ hc))
  · exact absurd (mem_scientific _ _) hx

/-- **Numbers read back.** A positive number that is written without letters has a text of digits with a point perhaps,
and it is what this text reads as. -/
theorem Normal.reads (d : Normal) (h : isLetterless (d.float .positive) = true) :
    ((numberText (d.float .positive)).toList.all fun c => c.isDigit || c == '.') = true ∧
      (numeral (d.float .positive)).number? = some (d.float .positive) := by
  unfold isLetterless at h
  unfold numeral
  by_cases hwhole :
      (isInteger (d.float .positive) && decide ((truncate (d.float .positive)).natAbs < wholeLimit)) = true
  · rw [numberText, if_pos hwhole]
    rw [Bool.and_eq_true, decide_eq_true_eq] at hwhole
    obtain ⟨n, hn, -, -, hvalue⟩ := d.whole_eq hwhole.1
    rw [hn, Int.natAbs_natCast] at hwhole
    obtain ⟨hword, hread⟩ := reads_ofNat hwhole.2
    have hfloat : Float.ofInt n = d.float .positive := d.ofNat_eq hvalue
    rw [hfloat] at hread
    have htext : (intText n).toList = natDigits n := by
      rw [intText_natCast, natText, String.toList_ofList]
    rw [hn, htext, hword]
    refine ⟨List.all_eq_true.mpr fun c hc => ?_, hread⟩
    rw [isDigit_natDigits hc, Bool.true_or]
  · rw [numberText, if_neg hwhole, d.floatText_positive, String.toList_ofList] at h ⊢
    have hletter : 'e' ∉ (shortest d.mantissa d.exponent).text := fun he => by
      have := List.all_eq_true.mp h 'e' he
      exact absurd this (by decide)
    obtain ⟨hdigits, hword⟩ := d.reads_positional hletter d.shortest_contains
    rw [hword]
    exact ⟨List.all_eq_true.mpr fun c hc => by simpa using hdigits c hc, rfl⟩

/-! ## Every number -/

theorem zero_of_shape {x : Float} {negative : Bool} {e : Int} (hx : shape x = .finite negative 0 e) :
    x = 0 ∨ x = -0 := by
  obtain ⟨field, -, hbits, ⟨rfl, -, -⟩ | ⟨-, hlow, -, -⟩⟩ := toNat_toBits_of_shape hx
  · rw [Nat.zero_mul, Nat.zero_mod, Nat.add_zero] at hbits
    cases negative with
    | false => exact .inl (eq_of_toBits (hbits.trans (by decide +kernel)))
    | true => exact .inr (eq_of_toBits (hbits.trans (by decide +kernel)))
  · omega

/-- The least doubles are written with an exponent. -/
theorem mem_text_shortest_least {m : Nat} (hm : 0 < m) (hm' : m < 2 ^ 53) : 'e' ∈ (shortest m (-1074)).text := by
  have hv := shortest_contains hm hm' le_rfl (by decide)
  have hpos := hv.pos (Interval.low_around_pos hm)
  generalize shortest m (-1074) = x at hv hpos ⊢
  have hlt : (10 : ℚ) ^ (((natDigits x.digits).length - 1 : Nat) + x.exponent) < 10 ^ (-4 : Int) := by
    calc (10 : ℚ) ^ (((natDigits x.digits).length - 1 : Nat) + x.exponent)
        ≤ x.digits * 10 ^ x.exponent := (decimal_bounds hpos x.exponent).1
      _ ≤ (4 * m + 2 : Nat) * 2 ^ (-1074 - 2 : Int) := hv.ends.2
      _ ≤ (2 ^ 55 : Nat) * 2 ^ (-69 : Int) := by
          refine mul_le_mul (Nat.cast_le.mpr (by omega)) (zpow_le_zpow_right₀ one_le_two (by decide)) ?_ ?_
          all_goals positivity
      _ < 10 ^ (-4 : Int) := by norm_num
  have hx := (zpow_lt_zpow_iff_right₀ (by norm_num)).mp hlt
  have hlength : 0 < (natDigits x.digits).length := Nat.length_toDigits_pos
  unfold Decimal.text
  dsimp only
  rw [if_neg (by unfold leastPositional; omega)]
  exact mem_scientific _ _

theorem isInteger_least {x : Float} {negative : Bool} {m : Nat} (hx : shape x = .finite negative m (-1074)) (hm : 0 < m)
    (hm' : m < 2 ^ 53) : isInteger x = false := by
  unfold isInteger
  rw [hx]
  have hlt : m < twoTo (- -1074 : Int).toNat := hm'.trans (by decide +kernel)
  show (false || m % twoTo (- -1074 : Int).toNat == 0) = false
  rw [Nat.mod_eq_of_lt hlt]
  simpa using hm.ne'

theorem isLetterless_least {x : Float} {negative : Bool} {m : Nat} (hx : shape x = .finite negative m (-1074))
    (hm : 0 < m) (hm' : m < 2 ^ 53) : isLetterless x = false := by
  have htext : 'e' ∈ (numberText x).toList := by
    rw [numberText, isInteger_least hx hm hm', Bool.false_and, if_neg Bool.false_ne_true, floatText, hx]
    dsimp only
    rw [if_neg hm.ne', String.toList_ofList]
    have he := mem_text_shortest_least hm hm'
    split
    · exact List.mem_cons_of_mem _ he
    · exact he
  exact List.all_eq_false.mpr ⟨'e', htext, by decide⟩

theorem Normal.float_ne_neg_zero (d : Normal) {s : Sign} : d.float s ≠ -0 := by
  intro h
  have hzero : shape (-0) = .finite true 0 (-1074) := by decide +kernel
  have hshape := d.shape_float s
  rw [h, hzero] at hshape
  injection hshape with _ hm
  exact d.mantissa_pos.ne hm

/-- A number that is written without letters is zero or has all its bits: smaller ones have exponents. -/
theorem isLetterless_cases {x : Float} (h : isLetterless x = true) :
    (x = 0 ∨ x = -0) ∨ ∃ (d : Normal) (s : Sign), x = d.float s := by
  have hletter : ∀ c ∈ (numberText x).toList, c.isAlpha = false := by simpa [isLetterless] using h
  cases hx : shape x with
  | nan =>
    have htext : numberText x = "nan" := by simp [numberText, isInteger, floatText, hx]
    exact absurd (hletter 'n' (by rw [htext]; decide)) (by decide)
  | infinite negative =>
    have htext : numberText x = if negative then "-inf" else "inf" := by simp [numberText, isInteger, floatText, hx]
    exact absurd (hletter 'i' (by rw [htext]; cases negative <;> decide)) (by decide)
  | finite negative m e =>
    by_cases hm : m = 0
    · subst hm
      exact .inl (zero_of_shape hx)
    obtain ⟨field, -, -, hcases⟩ := toNat_toBits_of_shape hx
    by_cases he : e = -1074
    · subst he
      rw [isLetterless_least hx (Nat.pos_of_ne_zero hm) (by omega)] at h
      cases h
    · obtain ⟨d, -, -, hd⟩ := exists_normal hx (by omega)
      exact .inr ⟨d, _, hd⟩

end TurtleLogo.Number
