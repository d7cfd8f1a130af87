import TurtleLogo.Proofs.Eval.Listing
import TurtleLogo.Proofs.Number.Whole

/-!
# Counting loops

A loop counts with doubles. These hold every whole number up to `2 ^ 53`, and there one more is no longer another
double, so a loop that starts within these bounds counts exactly iff it has to go no farther than one before them.

* `Rounds` : rounds of a loop that all end normally;
* `countBlock_rounds` : a loop below the bound ends, after the rounds for its values;
* `countBlock_stuck` : a loop to the bound or past it does not end by itself;
* `counting_exact` : both, of `FOR`.
-/

namespace TurtleLogo

open Exec Number

/-! ## Steps -/

/-- One up and one down, as a double and as a number. -/
inductive UnitStep : Float → Int → Prop
  | up : UnitStep 1 1
  | down : UnitStep (-1) (-1)

namespace UnitStep

variable {step stop x : Float} {d b c : Int} (hd : UnitStep step d)

include hd

theorem isWhole : IsWhole step d := by
  cases hd <;> exact isWhole_iff.mpr (by decide +kernel)

theorem within_iff (hx : IsWhole x c) (hstop : IsWhole stop b) :
    (if 0 < step then x ≤ stop else stop ≤ x) ↔ 0 ≤ d * (b - c) := by
  cases hd with
  | up =>
    rw [if_pos (by decide +kernel), hx.le_iff hstop]
    omega
  | down =>
    rw [if_neg (by decide +kernel), hstop.le_iff hx]
    omega

/-- Short of the bound of the whole numbers a step leads to the next of them. -/
theorem next (hx : IsWhole x c) (hc : c.natAbs ≤ 2 ^ 53) (hlt : d * c < 2 ^ 53) :
    IsWhole (x + step) (c + d) ∧ (c + d).natAbs ≤ 2 ^ 53 := by
  have hnext : (c + d).natAbs ≤ 2 ^ 53 := by
    cases hd <;> omega
  exact ⟨hx.add hd.isWhole hnext, hnext⟩

/-- At the bound a step leads nowhere. -/
theorem stays (hx : IsWhole x c) (hc : d * c = 2 ^ 53) : IsWhole (x + step) c := by
  cases hd with
  | up =>
    obtain rfl : c = 2 ^ 53 := by omega
    exact hx.add_past
  | down =>
    obtain rfl : c = -2 ^ 53 := by omega
    exact hx.add_neg_past

/-- What a loop counts as long as it does not come to the bound. -/
theorem isWhole_iterate {n k : Nat} (hx : IsWhole x c) (hc : c.natAbs ≤ 2 ^ 53) (hn : d * c + n ≤ 2 ^ 53) (hk : k ≤ n) :
    ∃ y, (List.iterate (· + step) x (n + 1))[k]? = some y ∧ IsWhole y (c + k * d) := by
  induction n generalizing x c k with
  | zero =>
    obtain rfl : k = 0 := Nat.le_zero.mp hk
    exact ⟨x, rfl, by simpa using hx⟩
  | succ n ih =>
    cases k with
    | zero => exact ⟨x, rfl, by simpa using hx⟩
    | succ k =>
      obtain ⟨hnext, hbound⟩ := hd.next hx hc (by omega)
      have hsum : d * (c + d) + n ≤ 2 ^ 53 := by
        cases hd <;> omega
      obtain ⟨y, hy, hwhole⟩ := ih hnext hbound hsum (Nat.le_of_succ_le_succ hk)
      refine ⟨y, hy, ?_⟩
      rwa [Nat.cast_succ, add_mul, one_mul, add_comm (k * d), ← add_assoc]

end UnitStep

/-! ## Rounds -/

section Loops

variable {ev : Evaluator} {var : String} {block : List Node}

/-- Rounds of a loop that all end normally and give nothing: for each value in turn the variable is set to it, whatever
it was, and then the block runs. -/
inductive Rounds (ev : Evaluator) (var : String) (block : List Node) : List Float → Workspace → Workspace → Prop
  | done (w : Workspace) : Rounds ev var block [] w w
  | round {x : Float} {xs : List Float} {w u w' : Workspace}
      (hrun : runBlock ev block (w.assign var (.num x)) = (.ok none, u)) (hrest : Rounds ev var block xs u w') :
      Rounds ev var block (x :: xs) w w'

/-- If every round that is reached ends normally, then all are reached. -/
theorem exists_rounds {xs : List Float} {w : Workspace}
    (h : ∀ k x u, xs[k]? = some x → Rounds ev var block (xs.take k) w u →
      (runBlock ev block (u.assign var (.num x))).1 = .ok none) : ∃ w', Rounds ev var block xs w w' := by
  induction xs generalizing w with
  | nil => exact ⟨w, .done w⟩
  | cons x xs ih =>
    have hrun : runBlock ev block (w.assign var (.num x)) =
        (.ok none, (runBlock ev block (w.assign var (.num x))).2) := Prod.ext (h 0 x w rfl (.done w)) rfl
    obtain ⟨w', hw'⟩ := ih fun k y u hy hu => h (k + 1) y u hy (.round hrun hu)
    exact ⟨w', .round hrun hw'⟩

section Turns

variable {step stop x : Float} {w : Workspace} (n : Nat)

theorem countBlock_past (h : ¬ if 0 < step then x ≤ stop else stop ≤ x) :
    countBlock ev var block step stop (n + 1) x w = (.ok none, w) := by
  rw [countBlock, if_neg h]
  rfl

theorem countBlock_within (h : if 0 < step then x ≤ stop else stop ≤ x) :
    countBlock ev var block step stop (n + 1) x w =
      (runBlock ev block >>= fun
        | some r => pure (some r)
        | none => countBlock ev var block step stop n (x + step)) (w.assign var (.num x)) := by
  rw [countBlock, if_pos h]
  rfl

end Turns

variable {step stop : Float} {d b : Int} (hd : UnitStep step d) (hstop : IsWhole stop b)

include hd hstop

/-- A loop that stays below the bound of the whole numbers ends, after the rounds for its values. -/
theorem countBlock_rounds {x : Float} {c : Int} {n limit : Nat} {w w' : Workspace} (hx : IsWhole x c)
    (hc : c.natAbs ≤ 2 ^ 53) (hn : d * (b - c) = n) (hb : d * b < 2 ^ 53) (hlimit : n + 2 ≤ limit)
    (h : Rounds ev var block (List.iterate (· + step) x (n + 1)) w w') :
    countBlock ev var block step stop limit x w = (.ok none, w') := by
  induction n generalizing x c w limit with
  | zero =>
    obtain ⟨limit, rfl⟩ := Nat.exists_eq_add_of_le' hlimit
    have hcb : c = b := by
      cases hd <;> omega
    subst hcb
    obtain ⟨hnext, -⟩ := hd.next hx hc hb
    cases h with
    | round hrun hrest =>
      cases hrest
      have hover : ¬ 0 ≤ d * (c - (c + d)) := by
        cases hd <;> omega
      rw [countBlock_within _ ((hd.within_iff hx hstop).mpr (by simp)), bind_apply, hrun]
      exact countBlock_past _ (mt (hd.within_iff hnext hstop).mp hover)
  | succ n ih =>
    obtain ⟨limit, rfl⟩ := Nat.exists_eq_add_of_le' (by omega : 1 ≤ limit)
    have hsteps : d * (b - (c + d)) = n ∧ d * c < 2 ^ 53 := by
      cases hd <;> omega
    obtain ⟨hnext, hbound⟩ := hd.next hx hc hsteps.2
    cases h with
    | round hrun hrest =>
      rw [countBlock_within _ ((hd.within_iff hx hstop).mpr (by omega)), bind_apply, hrun]
      exact ih hnext hbound hsteps.1 (by omega) hrest

/-- A loop to the bound of the whole numbers or past it never comes there, so that it does not end by itself. -/
theorem countBlock_stuck {x : Float} {c : Int} (limit : Nat) {w : Workspace} (hx : IsWhole x c)
    (hc : c.natAbs ≤ 2 ^ 53) (hb : 2 ^ 53 ≤ d * b) :
    (countBlock ev var block step stop limit x w).1 ≠ .ok none := by
  induction limit generalizing x c w with
  | zero => simp [countBlock, crash, Exec.stop]
  | succ limit ih =>
    have hahead : 0 ≤ d * (b - c) := by
      cases hd <;> omega
    have hnext : ∃ c', IsWhole (x + step) c' ∧ c'.natAbs ≤ 2 ^ 53 := by
      rcases lt_or_ge (d * c) (2 ^ 53) with hlt | hge
      · exact ⟨c + d, hd.next hx hc hlt⟩
      · exact ⟨c, hd.stays hx (by cases hd <;> omega), hc⟩
    obtain ⟨c', hx', hc'⟩ := hnext
    rw [countBlock_within _ ((hd.within_iff hx hstop).mpr hahead), bind_apply]
    split
    · split
      · simp [pure_apply]
      · exact ih hx' hc'
    · simp

end Loops

/-! ## From one whole number to another -/

/-- The step from `a` towards `b`. -/
def towards (a b : Int) : Int := if a ≤ b then 1 else -1

def counted (start : Float) (a b : Int) : List Float :=
  List.iterate (· + if a ≤ b then 1 else -1) start ((b - a).natAbs + 1)

theorem unitStep_towards (a b : Int) : UnitStep (if a ≤ b then 1 else -1) (towards a b) := by
  unfold towards
  split
  · exact .up
  · exact .down

theorem towards_mul_sub (a b : Int) : towards a b * (b - a) = (b - a).natAbs := by
  unfold towards
  split <;> omega

section Call

variable {files : FileStore} {ev : Evaluator} {w w₁ w₂ w₃ w₄ : Workspace} {var : String} {start stop : Float}
  {block : List Node} {a b : Int}

theorem forEach_run (files : FileStore) (hvar : pullWord ev "FOR" w = (.ok var, w₁))
    (hstart : pullNumber ev "FOR" w₁ = (.ok start, w₂)) (hstop : pullNumber ev "FOR" w₂ = (.ok stop, w₃))
    (hblock : pullList ev "FOR" w₃ = (.ok block, w₄))
    (ha : IsWhole start a) (hb : IsWhole stop b) :
    Builtin.forEach.run files ev "FOR" w =
      countBlock ev var block (if a ≤ b then 1 else -1) stop roundLimit start w₄ := by
  have hfinite {x : Float} {n : Int} (h : IsWhole x n) : expectFinite "FOR" x = pure x := if_pos h.isFinite
  rw [Builtin.run, bind_apply, hvar]
  dsimp only
  rw [bind_apply, hstart]
  dsimp only
  rw [hfinite ha]
  simp only [bind_apply, pure_apply, hstop, hfinite hb, hblock, ha.le_iff hb]

/-- A bound that lies below that of the whole numbers, seen from the start, leaves room for the steps to it. -/
theorem towards_mul_add (hlow : a.natAbs ≤ 2 ^ 53) (h : towards a b * b < 2 ^ 53) :
    towards a b * a + (b - a).natAbs ≤ 2 ^ 53 ∧ (b - a).natAbs + 2 ≤ roundLimit := by
  have hlimit : roundLimit = 2 ^ 60 := by decide
  by_cases hab : a ≤ b
  · simp only [towards, if_pos hab] at h ⊢
    omega
  · simp only [towards, if_neg hab] at h ⊢
    omega

/-- **Counting is exact below `2 ^ 53`.** Let `FOR` take the name of a variable, two doubles that are the whole numbers
`a` and `b`, and a block, and let `a` be at most `2 ^ 53` in size.

If `b` lies below `2 ^ 53` in the direction of counting, then there are `|b - a| + 1` values, which are `a`, the number
next to it and so on to `b`; and if each run of the block that is reached ends normally without output, then `FOR` ends
normally, and has run the block once for each of these values in turn, each time after setting the variable to it.

If not, then the count stops at `2 ^ 53` for ever: however many rounds are allowed, `FOR` does not end normally. -/
theorem counting_exact {depth : Nat} (hvar : pullWord (eval files depth) "FOR" w = (.ok var, w₁))
    (hstart : pullNumber (eval files depth) "FOR" w₁ = (.ok start, w₂))
    (hstop : pullNumber (eval files depth) "FOR" w₂ = (.ok stop, w₃))
    (hblock : pullList (eval files depth) "FOR" w₃ = (.ok block, w₄))
    (ha : IsWhole start a) (hb : IsWhole stop b) (hlow : a.natAbs ≤ 2 ^ 53) :
    (towards a b * b < 2 ^ 53 →
      (counted start a b).length = (b - a).natAbs + 1 ∧
      (∀ k ≤ (b - a).natAbs, ∃ x, (counted start a b)[k]? = some x ∧ IsWhole x (a + k * towards a b)) ∧
      ((∀ k x u, (counted start a b)[k]? = some x →
          Rounds (eval files depth) var block ((counted start a b).take k) w₄ u →
          (runBlock (eval files depth) block (u.assign var (.num x))).1 = .ok none) →
        ∃ w', Rounds (eval files depth) var block (counted start a b) w₄ w' ∧
          eval files (depth + 1) (.call "FOR") w = (.ok none, w'))) ∧
    (2 ^ 53 ≤ towards a b * b →
      (eval files (depth + 1) (.call "FOR") w).1 ≠ .ok none ∧
      ∀ limit,
        (countBlock (eval files depth) var block (if a ≤ b then 1 else -1) stop limit start w₄).1 ≠ .ok none) := by
  have hd := unitStep_towards a b
  have hrun : eval files (depth + 1) (.call "FOR") w = _ := forEach_run files hvar hstart hstop hblock ha hb
  rw [hrun]
  constructor
  · intro hbelow
    obtain ⟨hroom, hlimit⟩ := towards_mul_add hlow hbelow
    refine ⟨List.length_iterate .., fun k hk => hd.isWhole_iterate ha hlow hroom hk, fun hbody => ?_⟩
    obtain ⟨w', hw'⟩ := exists_rounds hbody
    exact ⟨w', hw', countBlock_rounds hd hb ha hlow (towards_mul_sub a b) hbelow hlimit hw'⟩
  · intro hpast
    exact ⟨countBlock_stuck hd hb roundLimit ha hlow hpast, fun limit => countBlock_stuck hd hb limit ha hlow hpast⟩

end Call

/-- From 2 down to -1 the block runs four times, although it sets the variable to 7 each time. -/
theorem counting_exact_overwritten :
    let block : List Node := [.call "MAKE", .word "V", .num 7]
    let w : Workspace := { pending := [[.word "V", .num 2, .neg (.num 1), .list block]] }
    (counted 2 2 (-1)).length = 4 ∧
      ∃ w', Rounds (eval {} 3) "V" block (counted 2 2 (-1)) { w with pending := [[]] } w' ∧
        eval {} 4 (.call "FOR") w = (.ok none, w') := by
  intro block w
  have hvar : pullWord (eval {} 3) "FOR" w =
      (.ok "V", { w with pending := [[.num 2, .neg (.num 1), .list block]] }) := rfl
  have hstart : pullNumber (eval {} 3) "FOR" { w with pending := [[.num 2, .neg (.num 1), .list block]] } =
      (.ok 2, { w with pending := [[.neg (.num 1), .list block]] }) := rfl
  have hstop : pullNumber (eval {} 3) "FOR" { w with pending := [[.neg (.num 1), .list block]] } =
      (.ok (-1), { w with pending := [[.list block]] }) := rfl
  have hblock : pullList (eval {} 3) "FOR" { w with pending := [[.list block]] } =
      (.ok block, { w with pending := [[]] }) := rfl
  have htwo : IsWhole 2 2 := isWhole_iff.mpr (by decide +kernel)
  have hless : IsWhole (-1) (-1) := isWhole_iff.mpr (by decide +kernel)
  obtain ⟨hcounts, -⟩ := counting_exact hvar hstart hstop hblock htwo hless (by decide)
  obtain ⟨hlength, -, hends⟩ := hcounts (by decide)
  refine ⟨hlength, hends fun k x u _ _ => ?_⟩
  generalize u.assign "V" (.num x) = v
  have hmake : eval {} 3 (.call "MAKE") { v with pending := [.word "V", .num 7] :: v.pending } =
      (.ok none, _) := eval_make rfl (fun _ => rfl) rfl
  show (instructions (eval {} 3) 3 { v with pending := block :: v.pending }).1 = _
  rw [instructions, bind_apply]
  dsimp only [next?, block]
  rw [bind_apply, hmake]
  rfl

/-- From `2 ^ 53 + 2` down to `2 ^ 53` the block runs twice, since the number between them is not a double. -/
theorem counting_skips :
    let w : Workspace := { globals := ⟨[("C", .num 0)]⟩ }
    ((feed (eval {} 8) "FOR \"V 9007199254740994 9007199254740992 [MAKE \"C :C + 1]" w).2.globals.find? "C").map
      Node.display = some "2" := by
  decide +kernel

end TurtleLogo
