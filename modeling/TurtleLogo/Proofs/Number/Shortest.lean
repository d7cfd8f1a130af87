import TurtleLogo.Proofs.Number.Rounding

/-!
# The shortest decimal

The decimal that a double is written as is searched for on coarser and finer grids. The last grid of the search is finer
than the interval of the double is wide, so a point is found, and what is found lies in the interval.

* `Interval.admits_iff` : the points of a grid that the search accepts are those in the interval;
* `Interval.search_contains` : the search, if one of its grids has such a point;
* `shortest_contains` : the shortest decimal lies in the interval of its double.
-/

namespace TurtleLogo.Number

/-! ## Points of a grid -/

theorem Grid.admits_of_nearest? {g : Grid} {closed : Bool} {d : Nat} (h : g.nearest? closed = some d) :
    g.admits closed d = true := by
  unfold Grid.nearest? at h
  dsimp only at h
  split at h
  · next hb ha =>
    split at h
    · cases h; exact hb
    · cases h
      split
      · exact hb
      · exact ha
    · cases h; exact ha
  · next hb _ => cases h; exact hb
  · next _ ha => cases h; exact ha
  · cases h

/-- The point above the value lies in an interval that reaches further than to the next point. -/
theorem Grid.isSome_nearest? {g : Grid} (closed : Bool) (hpos : 0 < g.pitch) (hlow : g.low ≤ g.value)
    (hhigh : g.value + g.pitch < g.high) : (g.nearest? closed).isSome = true := by
  have habove : g.admits closed (g.value / g.pitch + 1) = true := by
    have hlt : g.value < (g.value / g.pitch + 1) * g.pitch := by
      rw [Nat.mul_comm]
      exact Nat.lt_mul_div_succ g.value hpos
    have hle : g.value / g.pitch * g.pitch ≤ g.value := Nat.div_mul_le_self g.value g.pitch
    rw [Nat.succ_mul (g.value / g.pitch)] at hlt
    simp only [Grid.admits, Nat.succ_mul (g.value / g.pitch)]
    split
    all_goals simp only [Bool.and_eq_true, decide_eq_true_eq]; omega
  unfold Grid.nearest?
  dsimp only
  rw [habove]
  cases g.admits closed (g.value / g.pitch) with
  | false => rfl
  | true =>
    dsimp only
    split <;> rfl

/-! ## The grids of an interval -/

theorem cast_twoTo (n : Nat) : (twoTo n : ℚ) = 2 ^ n := Nat.cast_pow 2 n

theorem cast_tenTo (n : Nat) : (tenTo n : ℚ) = 10 ^ n := Nat.cast_pow 10 n

theorem zpow_mul_pow_toNat {x : ℚ} (hx : x ≠ 0) (z : Int) : x ^ z * x ^ (-z).toNat = x ^ z.toNat := by
  rw [← zpow_natCast, ← zpow_natCast, ← zpow_add₀ hx]
  congr 1
  omega

theorem Interval.unit_eq (i : Interval) (k : Int) : (10 : ℚ) ^ k * (i.unit k).1 = (i.unit k).2 * 2 ^ i.exponent := by
  have hten : (10 : ℚ) ^ k * 10 ^ (-k).toNat = 10 ^ k.toNat := zpow_mul_pow_toNat (by norm_num) k
  have htwo : (2 : ℚ) ^ i.exponent * 2 ^ (-i.exponent).toNat = 2 ^ i.exponent.toNat := zpow_mul_pow_toNat two_ne_zero _
  calc (10 : ℚ) ^ k * (i.unit k).1 = 10 ^ k * (2 ^ i.exponent.toNat * 10 ^ (-k).toNat) := by
        rw [Interval.unit, Nat.cast_mul, cast_twoTo, cast_tenTo]
    _ = 2 ^ (-i.exponent).toNat * 10 ^ k.toNat * 2 ^ i.exponent := by rw [← hten, ← htwo]; ring
    _ = (i.unit k).2 * 2 ^ i.exponent := by
        rw [Interval.unit, Nat.cast_mul, cast_twoTo, cast_tenTo]

theorem Interval.unit_pos (i : Interval) (k : Int) : 0 < (i.unit k).1 ∧ 0 < (i.unit k).2 := by
  have hten (n : Nat) : 0 < tenTo n := Nat.pow_pos (by decide)
  exact ⟨Nat.mul_pos (Nat.two_pow_pos _) (hten _), Nat.mul_pos (Nat.two_pow_pos _) (hten _)⟩

/-- A grid is finer than the interval's unit iff its power of ten is less. -/
theorem Interval.unit_le_iff (i : Interval) (k : Int) :
    (i.unit k).2 ≤ (i.unit k).1 ↔ (10 : ℚ) ^ k ≤ 2 ^ i.exponent := by
  have hnum : (0 : ℚ) < (i.unit k).1 := Nat.cast_pos.mpr (i.unit_pos k).1
  have hu : (0 : ℚ) < 2 ^ i.exponent := zpow_pos two_pos _
  rw [← Nat.cast_le (α := ℚ), ← mul_le_mul_iff_left₀ hu, ← i.unit_eq, mul_comm _ (2 ^ i.exponent),
    mul_le_mul_iff_left₀ hnum]

theorem Interval.admits_iff (i : Interval) (k : Int) (d : Nat) :
    (i.grid k).admits i.closed d = true ↔ i.Contains (d * 10 ^ k) := by
  have hpoint : (d * 10 ^ k : ℚ) * (i.unit k).1 = (d * (i.unit k).2 : Nat) * 2 ^ i.exponent := by
    rw [mul_assoc, i.unit_eq, Nat.cast_mul, mul_assoc]
  rw [Interval.contains_iff (i.unit_pos k).1 hpoint]
  unfold Grid.admits Interval.grid
  dsimp only
  split
  all_goals rw [Bool.and_eq_true, decide_eq_true_eq, decide_eq_true_eq]

/-! ## The search -/

/-- The search finds a point of the interval if one of its grids has one. -/
theorem Interval.search_contains {i : Interval} {n : Nat} {k : Int}
    (h : ∃ j < n, ((i.grid (k - j)).nearest? i.closed).isSome = true) :
    i.Contains ((i.search n k).digits * 10 ^ (i.search n k).exponent) := by
  induction n generalizing k with
  | zero =>
    obtain ⟨j, hj, -⟩ := h
    exact absurd hj j.not_lt_zero
  | succ n ih =>
    rw [Interval.search]
    cases hd : (i.grid k).nearest? i.closed with
    | some d => exact (i.admits_iff k d).mp (Grid.admits_of_nearest? hd)
    | none =>
      obtain ⟨j, hj, hsome⟩ := h
      cases j with
      | zero =>
        rw [Nat.cast_zero, Int.sub_zero, hd] at hsome
        cases hsome
      | succ j =>
        refine ih ⟨j, Nat.lt_of_succ_lt_succ hj, ?_⟩
        rw [Int.sub_sub, Int.add_comm 1]
        exact hsome

/-- The last power of ten that the search comes to is less than the unit, for every size of a double. -/
theorem unit_le_last : (List.range 2098).all fun n =>
    let size : Int := n - 1074
    let unit := (Interval.around 1 (size - 52)).unit (size * 30103 / 100000 - 19)
    unit.2 ≤ unit.1 := by
  decide +kernel

theorem tenTo_last_le {size : Int} (hlow : -1074 ≤ size) (hhigh : size ≤ 1023) :
    (10 : ℚ) ^ (size * 30103 / 100000 - 19) ≤ 2 ^ (size - 54) := by
  have h := List.all_eq_true.mp unit_le_last (size + 1074).toNat (List.mem_range.mpr (by omega))
  dsimp only at h
  rw [decide_eq_true_eq, Interval.unit_le_iff, Int.toNat_of_nonneg (by omega), Int.add_sub_cancel] at h
  have hexponent : (Interval.around 1 (size - 52)).exponent = size - 54 := by
    show size - 52 - 2 = size - 54
    omega
  rw [hexponent] at h
  exact h

/-- **The shortest decimal** of a double lies in its interval. -/
theorem shortest_contains {m : Nat} {e : Int} (hm : 0 < m) (hm' : m < 2 ^ 53) (he : -1074 ≤ e) (he' : e ≤ 971) :
    (Interval.around m e).Contains ((shortest m e).digits * 10 ^ (shortest m e).exponent) := by
  have hlog : m.log2 ≤ 52 := Nat.le_of_lt_succ ((Nat.log2_lt hm.ne').mpr hm')
  refine Interval.search_contains ⟨21, by decide, ?_⟩
  have hlast : (10 : ℚ) ^ (exponentAbove m e - (21 : Nat)) ≤ 2 ^ (e - 2) := by
    have hk : exponentAbove m e - (21 : Nat) = (e + m.log2) * 30103 / 100000 - 19 := by
      unfold exponentAbove
      omega
    rw [hk]
    refine (tenTo_last_le (by omega) (by omega)).trans ?_
    exact zpow_le_zpow_right₀ one_le_two (by omega)
  have hunit := ((Interval.around m e).unit_le_iff _).mpr hlast
  obtain ⟨hnum, hden⟩ := (Interval.around m e).unit_pos (exponentAbove m e - (21 : Nat))
  refine Grid.isSome_nearest? _ hden (Nat.mul_le_mul_right _ (Nat.sub_le _ _)) ?_
  show 4 * m * ((Interval.around m e).unit _).1 + ((Interval.around m e).unit _).2 <
    (4 * m + 2) * ((Interval.around m e).unit _).1
  rw [Nat.add_mul]
  omega

end TurtleLogo.Number
