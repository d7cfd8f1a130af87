import TurtleLogo.Proofs.Eval.Likeness
import TurtleLogo.Proofs.Eval.Stacks

/-!
# What follows a statement

A call takes its inputs off the innermost queue as it runs, so how much of a line it uses is known only then. Still, what
stands further behind never matters to a statement that succeeds: more expressions at the end of the queue are left
there, and nothing else changes.

* `Workspace.extendAt` : more expressions at the end of one queue;
* `extension` : a workspace and its extension are alike; successes are the same, and below the innermost queue failures
  are too;
* `statements_append` : statements with more behind them;
* `remainder_frame` : an evaluation with more behind it, and a line put together of two.
-/

namespace TurtleLogo

open Exec

/-- The workspace with more expressions at the end of queue number `k`, counted from the innermost one. -/
def Workspace.extendAt (w : Workspace) (k : Nat) (extra : List Node) : Workspace :=
  { w with pending := w.pending.modify k (· ++ extra) }

def Workspace.withPending (w : Workspace) (pending : List (List Node)) : Workspace := { w with pending }

theorem withQueue_apply {α : Type} (items : List Node) (body : Exec α) (w : Workspace) :
    withQueue items body w =
      ((body (w.withPending (items :: w.pending))).1,
        (body (w.withPending (items :: w.pending))).2.withPending
          (body (w.withPending (items :: w.pending))).2.pending.tail) := rfl

theorem withPending_extendAt (w : Workspace) (queue extra : List Node) (outer : List (List Node)) :
    (w.withPending (queue :: outer)).extendAt 0 extra = w.withPending ((queue ++ extra) :: outer) := rfl

theorem extendAt_withPending (w : Workspace) (k : Nat) (extra : List Node) (pending : List (List Node)) :
    (w.extendAt k extra).withPending pending = w.withPending pending := rfl

theorem extendAt_assign (w : Workspace) (k : Nat) (extra : List Node) (name : String) (value : Node) :
    (w.extendAt k extra).assign name value = (w.assign name value).extendAt k extra := by
  have hf : (w.extendAt k extra).frames = w.frames := rfl
  unfold Workspace.assign
  rw [hf]
  split
  · split <;> rfl
  · rfl

/-- Opening a queue makes room for the extension one place further down. -/
theorem extendAt_push (w : Workspace) (k : Nat) (extra items : List Node) :
    { w.extendAt k extra with pending := items :: (w.extendAt k extra).pending } =
      ({ w with pending := items :: w.pending } : Workspace).extendAt (k + 1) extra := rfl

theorem tail_modify_succ {α : Type} (l : List α) (k : Nat) (g : α → α) :
    (l.modify (k + 1) g).tail = l.tail.modify k g := by
  cases l with
  | nil => simp
  | cons a l => rfl

theorem next?_extendAt (w : Workspace) (k : Nat) (extra : List Node) :
    next? (w.extendAt (k + 1) extra) = ((next? w).1, (next? w).2.extendAt (k + 1) extra) := by
  rcases hp : w.pending with _ | ⟨_ | ⟨node, rest⟩, outer⟩ <;> simp [next?, Workspace.extendAt, hp]

theorem isMore_extendAt (w : Workspace) (k : Nat) (extra : List Node) :
    (isMore (w.extendAt (k + 1) extra)).1 = (isMore w).1 := by
  rcases hp : w.pending with _ | ⟨_ | ⟨node, rest⟩, outer⟩ <;> simp [isMore, Workspace.extendAt, hp]

/-- An input that is there is the same with more expressions behind it. Only one that is missing may be found then. -/
theorem nextInput_extendAt (caller : String) (w : Workspace) (k : Nat) (extra : List Node)
    (h : 0 < k ∨ (nextInput caller w).1.isOk = true) :
    nextInput caller (w.extendAt k extra) = ((nextInput caller w).1, (nextInput caller w).2.extendAt k extra) := by
  rcases hp : w.pending with _ | ⟨_ | ⟨node, rest⟩, outer⟩
  · simp [nextInput, Workspace.extendAt, hp, fail, stop]
  · cases k with
    | zero => simp [nextInput, hp, fail, stop, Except.toBool] at h
    | succ k => simp [nextInput, Workspace.extendAt, hp, fail, stop]
  · cases k <;> simp [nextInput, Workspace.extendAt, hp]

/-- A workspace and the one with more expressions at the end of what was its innermost queue when the runs began. -/
def extension (extra : List Node) : Likeness where
  rel q _ w v := v = w.extendAt q extra
  due q s := 0 < q ∨ s = true
  due_success _ := .inr rfl
  due_opened _ := .inl (Nat.succ_pos _)
  locals := by rintro q f w v rfl; rfl
  globals := by rintro q f w v rfl; rfl
  procedures := by rintro q f w v rfl; rfl
  definition := by rintro q f w v rfl; rfl
  continuation := by rintro q f w v rfl; rfl
  position := by rintro q f w v rfl; exact ⟨rfl, rfl, rfl⟩
  assign := by rintro q f w v name value rfl; exact extendAt_assign w q extra name value
  draw := by rintro q f w v m rfl; rfl
  print := by rintro q f w v text rfl; rfl
  setContinuation := by rintro q f w v c rfl; rfl
  setDefinition := by rintro q f w v d rfl; rfl
  setProcedures := by rintro q f w v t rfl; rfl
  openQueue := by rintro q f w v items rfl; exact extendAt_push w q extra items
  closeQueue := by
    rintro q f w v rfl
    simp only [Workspace.extendAt, tail_modify_succ]
  openFrame := by rintro q f w v locals rfl; rfl
  closeFrame := by
    rintro q f w v rfl
    simp only [Workspace.extendAt, tail_modify_succ]
  next := by
    rintro q f w v rfl
    rw [next?_extendAt]
    exact ⟨rfl, rfl⟩
  more := by rintro q f w v rfl; exact isMore_extendAt w q extra
  input := by
    rintro q f w v caller rfl hd
    rw [nextInput_extendAt caller w q extra hd]
    exact ⟨rfl, rfl⟩

theorem eval_extendAt {files : FileStore} {depth : Nat} {node : Node} {w w' : Workspace} {r : Result}
    (h : eval files depth node w = (.ok r, w')) (extra : List Node) :
    eval files depth node (w.extendAt 0 extra) = (.ok r, w'.extendAt 0 extra) := by
  have hd : (extension extra).due 0 (eval files depth node w).1.isOk := by
    rw [h]
    exact .inr rfl
  obtain ⟨h1, h2⟩ := Likeness.eval_same (L := extension extra) files depth 0 0 node w (w.extendAt 0 extra) rfl hd
  rw [h] at h1 h2
  exact Prod.ext h1 h2

/-! ## Statements -/

theorem statements_nil (ev : Evaluator) (n : Nat) {w : Workspace} {outer : List (List Node)}
    (hw : w.pending = [] :: outer) : statements ev n w = (.ok none, w) := by
  cases n with
  | zero => rfl
  | succ n =>
    rw [statements, bind_apply]
    simp only [next?, hw, pure_apply]

theorem statements_cons (ev : Evaluator) (n : Nat) {w : Workspace} {node : Node} {rest : List Node}
    {outer : List (List Node)} (hw : w.pending = (node :: rest) :: outer) :
    statements ev (n + 1) w =
      match ev node (w.withPending (rest :: outer)) with
      | (.ok none, w') => statements ev n w'
      | (.ok (some r), w') => (.ok (some r), w')
      | (.error e, w') => (.error e, w') := by
  rw [statements, bind_apply]
  simp only [next?, hw, bind_apply]
  change _ = match ev node { w with pending := rest :: outer } with
    | (.ok none, w') => statements ev n w'
    | (.ok (some r), w') => (.ok (some r), w')
    | (.error e, w') => (.error e, w')
  rcases ev node { w with pending := rest :: outer } with ⟨_ | _ | r, w'⟩ <;> rfl

/-- As many rounds as there are expressions are enough, since each round takes at least one. -/
theorem statements_rounds {ev : Evaluator} (hk : ∀ node, Keeps Disciplined (ev node)) (n : Nat) :
    ∀ (m : Nat) {w : Workspace} {queue : List Node} {outer : List (List Node)}, w.pending = queue :: outer →
      queue.length ≤ n → queue.length ≤ m → statements ev n w = statements ev m w := by
  induction n with
  | zero =>
    intro m w queue outer hw hn _
    rw [List.length_eq_zero_iff.mp (Nat.le_zero.mp hn)] at hw
    rw [statements_nil ev 0 hw, statements_nil ev m hw]
  | succ n ih =>
    intro m w queue outer hw hn hm
    cases queue with
    | nil => rw [statements_nil ev (n + 1) hw, statements_nil ev m hw]
    | cons node rest =>
      rw [List.length_cons] at hn hm
      obtain ⟨m, rfl⟩ : ∃ m', m = m' + 1 := ⟨m - 1, by omega⟩
      rw [statements_cons ev n hw, statements_cons ev m hw]
      have hd := hk node (w.withPending (rest :: outer))
      rcases he : ev node (w.withPending (rest :: outer)) with ⟨_ | _ | r, w'⟩
      · rfl
      · rw [he] at hd
        obtain ⟨rest', hs, hw'⟩ := hd.pending_eq rfl
        have hlen := hs.length_le
        exact ih m hw' (by omega) (by omega)
      · rfl

theorem extendAt_zero_pending {w : Workspace} {queue : List Node} {outer : List (List Node)}
    (hw : w.pending = queue :: outer) (extra : List Node) :
    (w.extendAt 0 extra).pending = (queue ++ extra) :: outer := by
  rw [Workspace.extendAt, hw]
  rfl

/-- Statements with more behind them: if they all give nothing, what is behind them runs next; if one gives something,
nothing behind it is touched. -/
theorem statements_append {files : FileStore} {depth : Nat} (extra : List Node) (n : Nat) :
    ∀ {m : Nat} {w w' : Workspace} {queue : List Node} {outer : List (List Node)} {r : Result},
      w.pending = queue :: outer → queue.length ≤ n → (queue ++ extra).length ≤ m →
      statements (eval files depth) n w = (.ok r, w') →
      (r = none → w'.pending = [] :: outer) ∧
      statements (eval files depth) m (w.extendAt 0 extra) =
        match r with
        | none => statements (eval files depth) extra.length (w'.extendAt 0 extra)
        | some v => (.ok (some v), w'.extendAt 0 extra) := by
  have hk := eval_disciplined files depth
  have nothing : ∀ {m : Nat} {w : Workspace} {outer : List (List Node)}, w.pending = [] :: outer →
      extra.length ≤ m → statements (eval files depth) m (w.extendAt 0 extra) =
        statements (eval files depth) extra.length (w.extendAt 0 extra) := by
    intro m w outer hw hm
    exact statements_rounds hk m extra.length (extendAt_zero_pending hw extra) hm (Nat.le_refl _)
  induction n with
  | zero =>
    intro m w w' queue outer r hw hn hm h
    rw [List.length_eq_zero_iff.mp (Nat.le_zero.mp hn)] at hw hm
    rw [statements_nil _ 0 hw] at h
    cases h
    exact ⟨fun _ => hw, nothing hw hm⟩
  | succ n ih =>
    intro m w w' queue outer r hw hn hm h
    cases queue with
    | nil =>
      rw [statements_nil _ (n + 1) hw] at h
      cases h
      exact ⟨fun _ => hw, nothing hw hm⟩
    | cons node rest =>
      rw [List.length_cons] at hn
      rw [List.cons_append, List.length_cons] at hm
      obtain ⟨m, rfl⟩ : ∃ m', m = m' + 1 := ⟨m - 1, by omega⟩
      have hx : (w.extendAt 0 extra).pending = (node :: (rest ++ extra)) :: outer := extendAt_zero_pending hw extra
      rw [statements_cons _ n hw] at h
      rw [statements_cons _ m hx]
      have hd := hk node (w.withPending (rest :: outer))
      rw [extendAt_withPending, ← withPending_extendAt]
      rcases he : eval files depth node (w.withPending (rest :: outer)) with ⟨e | _ | v, u⟩
      · rw [he] at h
        cases h
      · rw [he] at h hd
        rw [eval_extendAt he extra]
        obtain ⟨rest', hs, hu⟩ := hd.pending_eq rfl
        have hlen := hs.length_le
        exact ih hu (by omega) (by rw [List.length_append] at hm ⊢; omega) h
      · rw [he] at h
        rw [eval_extendAt he extra]
        cases h
        exact ⟨fun hv => (nomatch hv), rfl⟩

/-! ## Lines -/

/-- Whether a result ends the running procedure, and is no value. -/
def Node.isOutput : Node → Bool
  | .output _ => true
  | _ => false

def Workspace.hasMore (w : Workspace) : Bool := !(w.pending.headD []).isEmpty

theorem isMore_apply (w : Workspace) : isMore w = (.ok w.hasMore, w) := by
  rcases hp : w.pending with _ | ⟨_ | ⟨node, rest⟩, outer⟩ <;> simp [isMore, Workspace.hasMore, hp]

theorem plain_unusedValue (value : String) :
    (Fault.running (.unusedValue value)).message.plain = "You don't say what to do with " ++ value := by
  simp [Fault.message, Fault.running, Cause.message, Text.Message.plain, String.join]

/-- How a line ends, from how its statements end: its queue is closed, and a value may have nothing behind it. -/
def lineOutcome : Except Failure Result × Workspace → Except Failure Result × Workspace
  | (.ok (some v), u) =>
    if !v.isOutput && u.hasMore then
      (.error (.fault (.running (.unusedValue v.source))), u.withPending u.pending.tail)
    else (.ok (some v), u.withPending u.pending.tail)
  | (r, u) => (r, u.withPending u.pending.tail)

theorem evalLine_apply (ev : Evaluator) (items : List Node) (w : Workspace) :
    evalLine ev items w = lineOutcome (statements ev items.length (w.withPending (items :: w.pending))) := by
  unfold evalLine withQueue around
  rw [bind_apply]
  simp only [Workspace.withPending]
  rcases statements ev items.length { w with pending := items :: w.pending } with ⟨e | _ | v, u⟩
  · rfl
  · rfl
  · cases v with
    | output o => rfl
    | _ =>
      simp only [bind_apply, isMore_apply, lineOutcome, Node.isOutput, Bool.not_false, Bool.true_and]
      cases u.hasMore <;> rfl

/-- A line with more behind it, from how its own statements end. -/
theorem evalLine_append {files : FileStore} {depth : Nat} {xs : List Node} {w u : Workspace} {r : Result}
    (h : statements (eval files depth) xs.length (w.withPending (xs :: w.pending)) = (.ok r, u)) (ys : List Node) :
    (r = none → u.pending = [] :: w.pending) ∧
    evalLine (eval files depth) (xs ++ ys) w =
      match r with
      | none => lineOutcome (statements (eval files depth) ys.length (u.extendAt 0 ys))
      | some v => lineOutcome (.ok (some v), u.extendAt 0 ys) := by
  obtain ⟨h1, h2⟩ := statements_append ys xs.length rfl (Nat.le_refl _) (Nat.le_refl _) h
  rw [withPending_extendAt] at h2
  refine ⟨h1, ?_⟩
  rw [evalLine_apply, h2]
  cases r <;> rfl

theorem lineOutcome_ok {p : Except Failure Result × Workspace} {r : Result} {w' : Workspace}
    (h : lineOutcome p = (.ok r, w')) :
    ∃ u, p = (.ok r, u) ∧ w' = u.withPending u.pending.tail ∧
      ∀ v, r = some v → v.isOutput = false → u.hasMore = false := by
  obtain ⟨e | _ | v, u⟩ := p
  · cases h
  · cases h
    exact ⟨u, rfl, rfl, fun v hv => nomatch hv⟩
  · simp only [lineOutcome] at h
    split at h
    · cases h
    · next hc =>
      cases h
      refine ⟨u, rfl, rfl, fun v' hv hval => ?_⟩
      cases hv
      simpa [hval] using hc

theorem evalLine_append_of_none {files : FileStore} {depth : Nat} {xs : List Node} {w w' : Workspace}
    (h : evalLine (eval files depth) xs w = (.ok none, w')) (ys : List Node) :
    evalLine (eval files depth) (xs ++ ys) w = evalLine (eval files depth) ys w' := by
  rw [evalLine_apply] at h
  obtain ⟨u, hu, rfl, -⟩ := lineOutcome_ok h
  obtain ⟨hp, hx⟩ := evalLine_append hu ys
  have hstart : u.extendAt 0 ys = (u.withPending u.pending.tail).withPending (ys :: u.pending.tail) := by
    simp only [Workspace.extendAt, Workspace.withPending, hp rfl]
    rfl
  rw [hx, evalLine_apply]
  exact congrArg (fun v => lineOutcome (statements (eval files depth) ys.length v)) hstart

theorem extendAt_zero_close (u : Workspace) (ys : List Node) :
    (u.extendAt 0 ys).withPending (u.extendAt 0 ys).pending.tail = u.withPending u.pending.tail := by
  rcases hp : u.pending with _ | ⟨queue, outer⟩ <;> simp [Workspace.extendAt, Workspace.withPending, hp]

theorem evalLine_append_of_output {files : FileStore} {depth : Nat} {xs : List Node} {w w' : Workspace} {v : Node}
    (h : evalLine (eval files depth) xs w = (.ok (some (.output v)), w')) (ys : List Node) :
    evalLine (eval files depth) (xs ++ ys) w = (.ok (some (.output v)), w') := by
  rw [evalLine_apply] at h
  obtain ⟨u, hu, rfl, -⟩ := lineOutcome_ok h
  rw [(evalLine_append hu ys).2]
  change (_, _) = _
  rw [extendAt_zero_close]

theorem evalLine_append_of_value {files : FileStore} {depth : Nat} {xs : List Node} {w w' : Workspace} {v : Node}
    (h : evalLine (eval files depth) xs w = (.ok (some v), w')) (hv : v.isOutput = false) {ys : List Node}
    (hys : ys ≠ []) :
    evalLine (eval files depth) (xs ++ ys) w = (.error (.fault (.running (.unusedValue v.source))), w') := by
  rw [evalLine_apply] at h
  obtain ⟨u, hu, rfl, -⟩ := lineOutcome_ok h
  have hd := statements_keeps disciplined_stable (eval_disciplined files depth) xs.length
    (w.withPending (xs :: w.pending))
  rw [hu] at hd
  obtain ⟨rest, -, hp⟩ := hd.pending_eq rfl
  have hmore : (u.extendAt 0 ys).hasMore = true := by
    rw [Workspace.hasMore, extendAt_zero_pending hp]
    simp [hys]
  rw [(evalLine_append hu ys).2]
  simp only [lineOutcome, hv, hmore, Bool.not_false, Bool.and_self, if_true]
  rw [extendAt_zero_close]

/-- **The remainder does not matter, and lines can be put together.** An evaluation that succeeds does the same with
more expressions at the end of the queue that it takes its inputs from, and leaves these there. So a line made of two
goes on with the second if the first gives nothing, ends with the first if that outputs, and fails if the first gives a
value, since nothing can use it. -/
theorem remainder_frame (files : FileStore) (depth : Nat) :
    (∀ (node : Node) (w w' : Workspace) (queue : List Node) (outer : List (List Node)) (r : Result),
      w.pending = queue :: outer → eval files depth node w = (.ok r, w') →
      ∃ rest, w'.pending = rest :: outer ∧ ∀ extra,
        eval files depth node { w with pending := (queue ++ extra) :: outer } =
          (.ok r, { w' with pending := (rest ++ extra) :: outer })) ∧
    (∀ (xs ys : List Node) (w w' : Workspace),
      (evalLine (eval files depth) xs w = (.ok none, w') →
        evalLine (eval files depth) (xs ++ ys) w = evalLine (eval files depth) ys w') ∧
      (∀ v, evalLine (eval files depth) xs w = (.ok (some (.output v)), w') →
        evalLine (eval files depth) (xs ++ ys) w = (.ok (some (.output v)), w')) ∧
      (∀ v, v.isOutput = false → evalLine (eval files depth) xs w = (.ok (some v), w') → ys ≠ [] →
        ∃ fault, evalLine (eval files depth) (xs ++ ys) w = (.error (.fault fault), w') ∧
          fault.kind = .arity ∧ fault.message.plain = "You don't say what to do with " ++ v.source)) := by
  refine ⟨?_, fun xs ys w w' => ⟨?_, ?_, ?_⟩⟩
  · intro node w w' queue outer r hw h
    have hd := eval_disciplined files depth node w
    rw [h] at hd
    obtain ⟨rest, -, (hw' : w'.pending = rest :: outer)⟩ := hd.pending_eq hw
    refine ⟨rest, hw', fun extra => ?_⟩
    have hx := eval_extendAt h extra
    simp only [Workspace.extendAt, hw, hw', List.modify_zero_cons] at hx
    exact hx
  · exact fun h => evalLine_append_of_none h ys
  · exact fun v h => evalLine_append_of_output h ys
  · intro v hv h hys
    exact ⟨_, evalLine_append_of_value h hv hys, rfl, plain_unusedValue v.source⟩

/-- `MAKE` with a call behind its inputs; `PRINT "A` before `OP "B`; and `"A` before a call. -/
theorem remainder_frame_make_print_value :
    (eval {} 3 (.call "MAKE") { pending := [[.word "A", .word "B"] ++ [.call "X"]] } =
      (.ok none, { pending := [[] ++ [.call "X"]], globals := ⟨[("A", .word "B")]⟩ })) ∧
    (evalLine (eval {} 3) ([.call "PRINT", .word "A"] ++ [.call "OP", .word "B"]) {} =
      evalLine (eval {} 3) [.call "OP", .word "B"] { printed := #["A"] }) ∧
    (evalLine (eval {} 3) ([.call "OP", .word "B"] ++ [.call "X"]) {} = (.ok (some (.output (.word "B"))), {})) ∧
    ∃ fault, evalLine (eval {} 3) ([.word "A"] ++ [.call "X"]) {} = (.error (.fault fault), {}) ∧
      fault.kind = .arity ∧ fault.message.plain = "You don't say what to do with " ++ (Node.word "A").source := by
  obtain ⟨frame, lines⟩ := remainder_frame {} 3
  refine ⟨?_, (lines _ _ _ _).1 rfl, (lines _ _ _ _).2.1 _ rfl, (lines _ _ _ _).2.2 _ rfl rfl (by simp)⟩
  obtain ⟨rest, hrest, h⟩ := frame (.call "MAKE") { pending := [[.word "A", .word "B"]] }
    { pending := [[]], globals := ⟨[("A", .word "B")]⟩ } _ _ none rfl rfl
  cases hrest
  exact h [.call "X"]

end TurtleLogo
