import TurtleLogo.Proofs.Number.Packing
import TurtleLogo.Proofs.Number.Sums
import TurtleLogo.Proofs.Turtle.Path

/-!
# Headings

An angle is faced by reducing it to a full turn: its exact remainder is taken, and a negative remainder is moved up by a
full turn, in a sum that is rounded. The heading lies between zero and the full turn, and is less than it, unless the
angle is a sliver to the left of north. That the sum rounds to the full turn itself.

* `IsSliver` : the negative numbers that are too small to be told from zero by the full turn;
* `remainder_fullTurn` : the remainder is less than a full turn, and a sliver only if the number is;
* `wrap_fullTurn` : what an angle is reduced to;
* `Drawing.angles` : the angles that are faced, of which the last one is the heading;
* `heading_range` : the headings of a turtle.
-/

namespace TurtleLogo

open Number Float.Model.UnpackedFloat

/-! ## Remainders -/

/-- A negative number that is no further from zero than the full turn is from the middle between it and the next lower
double. -/
def IsSliver (q : ℚ) : Prop := -2 ^ (-45 : Int) ≤ q ∧ q < 0

theorem shape_fullTurn : shape fullTurn = .finite false (360 * 2 ^ 44) (-44) := by decide +kernel

theorem isFinite_fullTurn : fullTurn.isFinite = true := isFinite_of_shape shape_fullTurn

theorem rational_fullTurn : rational fullTurn = 360 := by
  rw [rational_of_shape shape_fullTurn, signOf, if_neg Bool.false_ne_true, signed]
  norm_num

variable {x : Float} {negative : Bool} {m : Nat} {e : Int}

theorem remainder_of_lt (hx : shape x = .finite negative m e) (he : e < -44) : remainder x fullTurn = x := by
  have hm := (canonical_of_shape hx).bits
  rw [remainder, hx, shape_fullTurn]
  dsimp only
  rw [if_neg (by decide), min_eq_left he.le, Int.sub_self, Nat.mod_eq_of_lt]
  · exact (congrArg (pack negative · e) (Nat.mul_one m)).trans (pack_of_shape hx)
  · show m * 1 < 360 * 2 ^ 44 * 2 ^ (-44 - e).toNat
    have htwo : 2 ^ 1 ≤ 2 ^ (-44 - e).toNat := Nat.pow_le_pow_right two_pos (by omega)
    omega

/-- Over other powers of two, the remainder is a multiple of the unit of the full turn. -/
theorem remainder_of_le (hx : shape x = .finite negative m e) (he : -44 ≤ e) :
    ∃ r < 360 * 2 ^ 44, remainder x fullTurn = pack negative r (-44) := by
  rw [remainder, hx, shape_fullTurn]
  dsimp only
  rw [if_neg (by decide), min_eq_right he]
  exact ⟨_, Nat.mod_lt _ (by decide), rfl⟩

/-- A multiple of the unit of the full turn is packed into itself. -/
theorem rational_pack (negative : Bool) {r : Nat} (hr : r < 360 * 2 ^ 44) :
    (pack negative r (-44)).isFinite = true ∧ rational (pack negative r (-44)) = signed (signOf negative) r (-44) := by
  rcases Nat.eq_zero_or_pos r with rfl | hpos
  · have hshape : shape (pack negative 0 (-44)) = .finite negative 0 (-1074) := by cases negative <;> decide +kernel
    rw [isFinite_of_shape hshape, rational_of_shape hshape, signed_zero, signed_zero]
    exact ⟨rfl, rfl⟩
  · have hlog : r.log2 ≤ 52 := Nat.le_of_lt_succ ((Nat.log2_lt hpos.ne').mpr (by omega))
    obtain ⟨d, hd⟩ := exists_value_eq (t := -44) hpos hlog (by omega) (by omega)
    rw [d.pack_eq negative hd, d.rational_float]
    refine ⟨d.isFinite_float _, ?_⟩
    cases signOf negative with
    | positive => exact hd.symm
    | negative => exact congrArg Neg.neg hd.symm

theorem abs_signed (s : Sign) (m : Nat) (e : Int) : |signed s m e| = m * 2 ^ e := by
  have hpos : (0 : ℚ) ≤ m * 2 ^ e := mul_nonneg (Nat.cast_nonneg m) (zpow_pos two_pos e).le
  cases s with
  | positive => exact abs_of_nonneg hpos
  | negative => exact (abs_neg _).trans (abs_of_nonneg hpos)

theorem not_isSliver_of_unit_le {q : ℚ} (h : q = 0 ∨ 2 ^ (-44 : Int) ≤ |q|) : ¬ IsSliver q := by
  rintro ⟨hlow, hneg⟩
  rcases h with rfl | h
  · exact hneg.false
  · rw [abs_of_neg hneg] at h
    norm_num at h hlow
    linarith

theorem not_isSliver_signed (s : Sign) (m : Nat) (he : -44 ≤ e) : ¬ IsSliver (signed s m e) := by
  refine not_isSliver_of_unit_le ?_
  rcases Nat.eq_zero_or_pos m with rfl | hm
  · exact .inl (signed_zero s e)
  · rw [abs_signed]
    have hone : (1 : ℚ) ≤ m := by exact_mod_cast hm
    exact .inr ((zpow_le_zpow_right₀ one_le_two he).trans (le_mul_of_one_le_left (zpow_pos two_pos e).le hone))

/-- The remainder of a finite double is less than a full turn, and a sliver only if the double is. -/
theorem remainder_fullTurn (hx : x.isFinite = true) :
    (remainder x fullTurn).isFinite = true ∧ |rational (remainder x fullTurn)| ≤ 360 - 2 ^ (-44 : Int) ∧
      (IsSliver (rational (remainder x fullTurn)) ↔ IsSliver (rational x)) := by
  have hfinite := hx
  obtain ⟨negative, m, e, hx⟩ := isFinite_iff.mp hx
  rcases lt_or_ge e (-44) with he | he
  · rw [remainder_of_lt hx he]
    refine ⟨hfinite, ?_, Iff.rfl⟩
    have hm : (m : ℚ) ≤ 2 ^ 53 := by exact_mod_cast (canonical_of_shape hx).bits.le
    rw [rational_of_shape hx, abs_signed]
    calc (m * 2 ^ e : ℚ) ≤ 2 ^ 53 * 2 ^ (-45 : Int) :=
          mul_le_mul hm (zpow_le_zpow_right₀ one_le_two (by omega)) (zpow_pos two_pos e).le (by positivity)
      _ ≤ 360 - 2 ^ (-44 : Int) := by norm_num
  · obtain ⟨r, hr, hremainder⟩ := remainder_of_le hx he
    obtain ⟨hpack, hrational⟩ := rational_pack negative hr
    rw [hremainder, hrational, rational_of_shape hx]
    refine ⟨hpack, ?_, iff_of_false (not_isSliver_signed _ r le_rfl) (not_isSliver_signed _ m he)⟩
    have hr' : (r + 1 : ℚ) ≤ 360 * 2 ^ 44 := by exact_mod_cast hr
    have hunit : (0 : ℚ) < 2 ^ (-44 : Int) := zpow_pos two_pos _
    rw [abs_signed]
    calc (r * 2 ^ (-44 : Int) : ℚ) = (r + 1) * 2 ^ (-44 : Int) - 2 ^ (-44 : Int) := by ring
      _ ≤ 360 * 2 ^ 44 * 2 ^ (-44 : Int) - 2 ^ (-44 : Int) :=
          sub_le_sub_right (mul_le_mul_of_nonneg_right hr' hunit.le) _
      _ = 360 - 2 ^ (-44 : Int) := by norm_num

/-! ## Reduced angles -/

theorem exists_normal_fullTurn : ∃ d : Normal, d.mantissa = 360 * 2 ^ 44 ∧ d.exponent = -44 ∧
    fullTurn = d.float .positive ∧ d.value = 360 := by
  obtain ⟨d, hm, he, hd⟩ := exists_normal shape_fullTurn (by decide)
  refine ⟨d, hm, he, hd, ?_⟩
  rw [Normal.value, hm, he]
  norm_num

/-- The numbers that are rounded up to the full turn. -/
theorem contains_fullTurn_iff {d : Normal} (hm : d.mantissa = 360 * 2 ^ 44) (he : d.exponent = -44) {v : ℚ}
    (hv : v ≤ 360) : d.interval.Contains v ↔ 360 - 2 ^ (-45 : Int) ≤ v := by
  have hinterval : d.interval =
      ⟨4 * (360 * 2 ^ 44) - 2, 4 * (360 * 2 ^ 44), 4 * (360 * 2 ^ 44) + 2, true, -46⟩ := by
    rw [Normal.interval, hm, he]
    rfl
  have hlow : ((4 * (360 * 2 ^ 44) - 2 : Nat) * 2 ^ (-46 : Int) : ℚ) = 360 - 2 ^ (-45 : Int) := by norm_num
  have hhigh : (360 : ℚ) ≤ (4 * (360 * 2 ^ 44) + 2 : Nat) * 2 ^ (-46 : Int) := by norm_num
  rw [hinterval, Interval.Contains, if_pos rfl, hlow]
  exact and_iff_left (hv.trans hhigh)

/-- A remainder moved up by a full turn is less than it, unless it is a sliver. -/
theorem add_fullTurn (hx : x.isFinite = true) (hlow : 2 ^ (-44 : Int) - 360 ≤ rational x) (hneg : rational x < 0) :
    (IsSliver (rational x) → x + fullTurn = fullTurn) ∧
      (¬ IsSliver (rational x) → (x + fullTurn).isFinite = true ∧ 0 < rational (x + fullTurn) ∧
        rational (x + fullTurn) < 360) := by
  obtain ⟨d, hm, he, hturn, hvalue⟩ := exists_normal_fullTurn
  have hturn₀ : rational fullTurn ≠ 0 := by
    rw [rational_fullTurn]
    norm_num
  have hsum : rational x + rational fullTurn ≤ 360 := by
    rw [rational_fullTurn]
    linarith
  have hcontains : d.interval.Contains (rational x + rational fullTurn) ↔ IsSliver (rational x) := by
    rw [contains_fullTurn_iff hm he hsum, rational_fullTurn, IsSliver, and_iff_left hneg]
    constructor <;> intro h <;> linarith
  constructor
  · intro h
    rw [add_eq_of_contains d hx isFinite_fullTurn hneg.ne hturn₀ (hcontains.mpr h), hturn]
  · intro h
    have hleast : (2 : ℚ) ^ (-1000 : Int) ≤ 2 ^ (-44 : Int) := zpow_le_zpow_right₀ one_le_two (by omega)
    have hgreatest : (2 : ℚ) ^ (9 : Int) ≤ 2 ^ (1000 : Int) := zpow_le_zpow_right₀ one_le_two (by omega)
    have hnine : (360 : ℚ) < 2 ^ (9 : Int) := by norm_num
    obtain ⟨d', hd', hadd⟩ := exists_add hx isFinite_fullTurn hneg.ne hturn₀
      (by rw [rational_fullTurn]; linarith)
      (hsum.trans_lt (hnine.trans_le hgreatest))
    have hne : d'.value ≠ d.value := fun heq => h (hcontains.mp (Normal.eq_of_value heq ▸ hd'))
    have hle : d'.value ≤ d.value := Normal.value_le_of_contains hd' (hvalue ▸ hsum)
    have hrational : rational (d'.float .positive) = d'.value := d'.rational_float .positive
    rw [hadd, hrational]
    exact ⟨d'.isFinite_float _, d'.value_pos, hvalue ▸ lt_of_le_of_ne hle hne⟩

/-- What a finite angle is reduced to: less than a full turn, unless it is a sliver. -/
theorem wrap_fullTurn (hx : x.isFinite = true) :
    (IsSliver (rational x) → wrap x fullTurn = fullTurn) ∧
      (¬ IsSliver (rational x) → (wrap x fullTurn).isFinite = true ∧ 0 ≤ rational (wrap x fullTurn) ∧
        rational (wrap x fullTurn) < 360) := by
  obtain ⟨hfinite, hbound, hsliver⟩ := remainder_fullTurn hx
  have hzero : (0 : Float).isFinite = true := rfl
  have hzero' : rational 0 = 0 := by decide +kernel
  have hunit : (0 : ℚ) < 2 ^ (-44 : Int) := zpow_pos two_pos _
  rw [← hsliver, wrap]
  generalize remainder x fullTurn = r at hfinite hbound
  obtain ⟨hlow, hhigh⟩ := abs_le.mp hbound
  by_cases hr : rational r = 0
  · rw [if_pos ((beq_iff_rational hfinite hzero).mpr (hr.trans hzero'.symm))]
    refine ⟨fun h => absurd h.2 (by rw [hr]; exact lt_irrefl 0), fun _ => ⟨hzero, ?_⟩⟩
    rw [hzero']
    norm_num
  · rw [if_neg fun h => hr (((beq_iff_rational hfinite hzero).mp h).trans hzero')]
    by_cases hneg : rational r < 0
    · rw [if_pos ((lt_iff_rational hfinite hzero).mpr (hzero' ▸ hneg))]
      obtain ⟨hturn, hless⟩ := add_fullTurn hfinite (by linarith) hneg
      exact ⟨hturn, fun h => ⟨(hless h).1, (hless h).2.1.le, (hless h).2.2⟩⟩
    · rw [if_neg fun h => hneg (hzero' ▸ (lt_iff_rational hfinite hzero).mp h)]
      exact ⟨fun h => absurd h.2 hneg, fun _ => ⟨hfinite, not_lt.mp hneg, by linarith⟩⟩

/-! ## The headings of a turtle -/

def Motion.angle? (heading : Float) : Motion → Option Float
  | .right degrees => some (heading + degrees)
  | .left degrees => some (heading + -degrees)
  | .setHeading degrees => some degrees
  | .home => some 0
  | .forward _ | .back _ | .setPosition _ _ | .penUp | .penDown | .clear => none

/-- The greatest angle to the left that is lost in the sum with a full turn. -/
def sliver : Float := 1 / 35184372088832

theorem isSliver_rational (hx : x.isFinite = true) : IsSliver (rational x) ↔ -sliver ≤ x ∧ x < 0 := by
  have hsliver : shape (-sliver) = .finite true (2 ^ 52) (-97) := by decide +kernel
  have hzero : rational 0 = 0 := by decide +kernel
  have hvalue : rational (-sliver) = -2 ^ (-45 : Int) := by
    rw [rational_of_shape hsliver, signOf, if_pos rfl, signed]
    norm_num
  rw [le_iff_rational (isFinite_of_shape hsliver) hx, lt_iff_rational hx rfl, hvalue, hzero, IsSliver]

namespace Drawing

def angles (d : Drawing) : List Motion → List Float
  | [] => []
  | m :: motions => (m.angle? d.turtle.heading).toList ++ (d.apply m).angles motions

/-- **One motion** turns the turtle to the angle that it faces, or leaves its heading as it is. -/
theorem heading_apply (d : Drawing) (m : Motion) :
    (d.apply m).turtle.heading =
      match m.angle? d.turtle.heading with
      | some angle => wrap angle fullTurn
      | none => d.turtle.heading := by
  have hmove (x y : Float) : (d.moveTo x y).turtle.heading = d.turtle.heading := rfl
  have hface (d : Drawing) (degrees : Float) : (d.face degrees).turtle.heading = wrap degrees fullTurn := rfl
  cases m with
  | forward | back | setPosition => exact hmove _ _
  | left | right | setHeading => exact hface d _
  | home => exact hface _ 0
  | penUp | penDown | clear => rfl

/-- **Many motions** turn it to the last angle that is faced. -/
theorem heading_applyAll (motions : List Motion) (d : Drawing) :
    (d.applyAll motions).turtle.heading =
      match (d.angles motions).getLast? with
      | some angle => wrap angle fullTurn
      | none => d.turtle.heading := by
  induction motions generalizing d with
  | nil => rfl
  | cons m motions ih =>
    rw [applyAll, List.foldl_cons, ← applyAll, ih, angles, List.getLast?_append, heading_apply]
    cases ((d.apply m).angles motions).getLast? with
    | some angle => rfl
    | none => cases m.angle? d.turtle.heading <;> rfl

end Drawing

open Drawing

/-- The last angle faced is to the left of north, by no more than a sliver. -/
def Overturned (motions : List Motion) : Prop :=
  ∃ angle, (angles {} motions).getLast? = some angle ∧ -sliver ≤ angle ∧ angle < 0

theorem angles_append (d : Drawing) (motions motions' : List Motion) :
    d.angles (motions ++ motions') = d.angles motions ++ (d.applyAll motions).angles motions' := by
  induction motions generalizing d with
  | nil => rfl
  | cons m motions ih =>
    rw [List.cons_append, angles, ih, angles, List.append_assoc, applyAll, applyAll, List.foldl_cons]

/-- **Headings** of a new turtle that is told whatever it is told, where every angle that it faces is finite: these are
the arguments of its turns and the sums of its heading and such an argument, so they are if no argument is infinite and
no sum overflows. After every step the heading lies between zero and the full turn, both included. It is the full turn
itself exactly after an angle to the left of north by no more than a sliver, which the sum with the full turn loses, and
else is less. -/
theorem heading_range {motions : List Motion} (hangles : ∀ angle ∈ angles {} motions, angle.isFinite = true)
    {done : List Motion} (hdone : done <+: motions) :
    0 ≤ (applyAll {} done).turtle.heading ∧
      (Overturned done → (applyAll {} done).turtle.heading = fullTurn) ∧
      (¬ Overturned done → (applyAll {} done).turtle.heading < fullTurn) := by
  have hzero : (0 : Float).isFinite = true := rfl
  have hzero' : rational 0 = 0 := by decide +kernel
  rw [heading_applyAll, Overturned]
  cases hlast : (angles {} done).getLast? with
  | none =>
    have hnorth : (0 : Float) ≤ 0 ∧ (0 : Float) < fullTurn := by decide +kernel
    refine ⟨hnorth.1, ?_, fun _ => hnorth.2⟩
    rintro ⟨angle, h, -⟩
    cases h
  | some angle =>
    have hangle : angle.isFinite = true := by
      obtain ⟨rest, rfl⟩ := hdone
      refine hangles angle ?_
      rw [angles_append]
      exact List.mem_append_left _ (List.mem_of_getLast? hlast)
    obtain ⟨hturn, hless⟩ := wrap_fullTurn hangle
    simp only [Option.some.injEq, exists_eq_left', ← isSliver_rational hangle]
    by_cases h : IsSliver (rational angle)
    · have hnorth : (0 : Float) ≤ fullTurn := by decide +kernel
      exact ⟨(hturn h).symm ▸ hnorth, hturn, fun hnot => absurd h hnot⟩
    · obtain ⟨hfinite, hlow, hhigh⟩ := hless h
      refine ⟨?_, hturn, fun _ => ?_⟩
      · exact (le_iff_rational hzero hfinite).mpr (hzero' ▸ hlow)
      · exact (lt_iff_rational hfinite isFinite_fullTurn).mpr (rational_fullTurn ▸ hhigh)

/-- Turns over north and back. -/
theorem heading_range_over_north :
    (∀ angle ∈ angles {} [.right 350, .right 20.5, .left 11], angle.isFinite = true) ∧
      0 ≤ (applyAll {} [.right 350, .right 20.5]).turtle.heading ∧
      (applyAll {} [.right 350, .right 20.5]).turtle.heading < fullTurn := by
  have hangles : ∀ angle ∈ angles {} [.right 350, .right 20.5, .left 11], angle.isFinite = true := by decide +kernel
  have hdone : [.right 350, .right 20.5] <+: [Motion.right 350, .right 20.5, .left 11] := ⟨[.left 11], rfl⟩
  obtain ⟨hlow, -, hhigh⟩ := heading_range hangles hdone
  refine ⟨hangles, hlow, hhigh ?_⟩
  rintro ⟨angle, hlast, -, hneg⟩
  have hright : (angles {} [.right 350, .right 20.5]).getLast? = some 370.5 := by decide +kernel
  obtain rfl := Option.some.inj (hright.symm.trans hlast)
  exact absurd hneg (by decide +kernel)

/-- The heading of a new turtle that turns a little to the left is the full turn itself. -/
theorem heading_left_sliver :
    (∀ angle ∈ angles {} [.left 1e-20], angle.isFinite = true) ∧
      (applyAll {} [.left 1e-20]).turtle.heading = 360 ∧ ¬ (applyAll {} [.left 1e-20]).turtle.heading < 360 := by
  decide +kernel

end TurtleLogo
