import TurtleLogo.Proofs.Eval.Likeness
import TurtleLogo.Proofs.Eval.Stacks
import TurtleLogo.Proofs.Node.Values

/-!
# Sound workspaces

Evaluating mixes values, expressions that have not been evaluated, outputs and nothing. A sound workspace keeps them
apart: its variables hold values, and its queues and procedures hold nodes that can be evaluated. What a run does to such
a workspace is stated together with what it gives, since the one depends on the other.

* `Workspace.Sound` : what a workspace holds;
* `IsResult` : what an evaluation may give; `Failure.Ordinary` : how it may fail;
* `Exec.Ensures k P x` : with `k` queues open, `x` leaves a sound workspace sound and gives something with `P`;
* `Exec.Ensures.bind`, `Exec.Ensures.withQueue`, `Exec.Ensures.withFrame` : how runs are put together.
-/

namespace TurtleLogo

open Exec

/-! ## Workspaces -/

def Procedure.Runs (p : Procedure) : Prop := ∀ line ∈ p.body, ∀ n ∈ line, n.Runs

def Table.HoldsValues (t : Table Node) : Prop := ∀ entry ∈ t.entries, entry.2.IsValue

/-- Variables have values, and what is still to be evaluated can be. -/
structure Workspace.Sound (w : Workspace) : Prop where
  globals : w.globals.HoldsValues
  frames : ∀ frame ∈ w.frames, frame.HoldsValues
  pending : ∀ queue ∈ w.pending, ∀ n ∈ queue, n.Runs
  procedures : ∀ entry ∈ w.procedures.entries, entry.2.Runs
  definition : ∀ p, w.definition = some p → p.Runs

theorem Table.HoldsValues.insert {t : Table Node} (h : t.HoldsValues) (name : String) {v : Node} (hv : v.IsValue) :
    (t.insert name v).HoldsValues := by
  intro entry he
  rcases mem_entries_insert he with rfl | he
  · exact hv
  · exact h entry he

theorem Table.HoldsValues.find? {t : Table Node} (h : t.HoldsValues) {name : String} {v : Node}
    (hv : t.find? name = some v) : v.IsValue := h _ (mem_entries_of_find? hv)

namespace Workspace.Sound

theorem assign {w : Workspace} (h : w.Sound) (name : String) {v : Node} (hv : v.IsValue) :
    (w.assign name v).Sound := by
  unfold Workspace.assign
  split
  · next frame outer hf =>
    obtain ⟨hframe, houter⟩ := List.forall_mem_cons.mp (hf ▸ h.frames)
    split
    · exact { h with frames := List.forall_mem_cons.mpr ⟨hframe.insert name hv, houter⟩ }
    · exact { h with globals := h.globals.insert name hv }
  · exact { h with globals := h.globals.insert name hv }

theorem lookup? {w : Workspace} (h : w.Sound) {name : String} {v : Node} (hv : w.lookup? name = some v) :
    v.IsValue := by
  have hlocals : w.locals.HoldsValues := by
    unfold Workspace.locals
    cases hf : w.frames with
    | nil => exact nofun
    | cons frame outer => exact h.frames frame (hf ▸ List.mem_cons_self)
  unfold Workspace.lookup? at hv
  cases hl : w.locals.find? name with
  | some v' =>
    rw [hl] at hv
    cases hv
    exact hlocals.find? hl
  | none =>
    rw [hl] at hv
    exact h.globals.find? hv

theorem printAll {w : Workspace} (h : w.Sound) (lines : List String) : (w.printAll lines).Sound := by
  unfold Workspace.printAll
  induction lines generalizing w with
  | nil => exact h
  | cons line lines ih => exact ih { h with }

theorem next {w : Workspace} (h : w.Sound) {node : Node} {rest : List Node} {outer : List (List Node)}
    (hp : w.pending = (node :: rest) :: outer) :
    node.Runs ∧ ({ w with pending := rest :: outer } : Workspace).Sound := by
  obtain ⟨hqueue, houter⟩ := List.forall_mem_cons.mp (hp ▸ h.pending)
  obtain ⟨hnode, hrest⟩ := List.forall_mem_cons.mp hqueue
  exact ⟨hnode, { h with pending := List.forall_mem_cons.mpr ⟨hrest, houter⟩ }⟩

end Workspace.Sound

theorem pending_printAll (w : Workspace) (lines : List String) : (w.printAll lines).pending = w.pending := by
  unfold Workspace.printAll
  induction lines generalizing w with
  | nil => rfl
  | cons line lines ih => exact ih (w.print line)

/-! ## Runs -/

/-- What an evaluation may give: nothing, a value, or the output of a value. -/
inductive IsResult : Result → Prop
  | nothing : IsResult none
  | value {v : Node} : v.IsValue → IsResult (some v)
  | output {v : Node} : v.IsValue → IsResult (some (.output v))

theorem IsResult.of_output {v : Node} (h : IsResult (some (.output v))) : v.IsValue := by
  cases h with
  | value hv => exact hv.elim
  | output hv => exact hv

theorem IsResult.of_other {v : Node} (h : IsResult (some v)) (hv : ∀ u, v = .output u → False) : v.IsValue := by
  cases h with
  | value h => exact h
  | output _ => exact (hv _ rfl).elim

/-- A cause other than that no line is being evaluated or that a node has no meaning. -/
def Cause.Ordinary : Cause → Prop
  | .noLine | .meaningless => False
  | _ => True

theorem Cause.Ordinary.ne {cause : Cause} (h : cause.Ordinary) : cause ≠ .noLine ∧ cause ≠ .meaningless := by
  constructor <;>
  · rintro rfl
    exact h

def Failure.Ordinary : Failure → Prop
  | .fault f => f.cause.Ordinary
  | .crash _ => True

/-- A result with `P`, or an ordinary failure. -/
def Yields {α : Type} (P : α → Prop) : Except Failure α → Prop
  | .ok a => P a
  | .error e => e.Ordinary

/-- How a run ends: with `k` queues open on a sound workspace, a result with `P` or an ordinary failure. -/
structure Ends {α : Type} (k : Nat) (P : α → Prop) (y : Except Failure α × Workspace) : Prop where
  sound : y.2.Sound
  queues : y.2.pending.length = k
  outcome : Yields P y.1

namespace Exec

variable {α β : Type} {k : Nat} {P : α → Prop} {Q : β → Prop}

/-- Run with `k` queues open on a sound workspace, `x` ends so, and what it gives has `P`. -/
def Ensures (k : Nat) (P : α → Prop) (x : Exec α) : Prop :=
  ∀ w : Workspace, w.Sound → w.pending.length = k → Ends k P (x w)

theorem Ensures.pure {a : α} (h : P a) : Ensures k P (Pure.pure a) := fun _ hw hk => ⟨hw, hk, h⟩

theorem Ensures.fail {cause : Cause} (h : cause.Ordinary) : Ensures k P (fail cause) := fun _ hw hk => ⟨hw, hk, h⟩

theorem Ensures.crash (c : Crash) : Ensures k P (crash c) := fun _ hw hk => ⟨hw, hk, trivial⟩

theorem Ensures.bind {x : Exec α} {f : α → Exec β} (hx : Ensures k P x) (hf : ∀ a, P a → Ensures k Q (f a)) :
    Ensures k Q (x >>= f) := by
  intro w hw hk
  have hends := hx w hw hk
  rw [bind_apply]
  rcases h : x w with ⟨e | a, w'⟩
  · rw [h] at hends
    exact ⟨hends.sound, hends.queues, hends.outcome⟩
  · rw [h] at hends
    exact hf a hends.outcome w' hends.sound hends.queues

theorem Ensures.get : Ensures k Workspace.Sound get := fun _ hw hk => ⟨hw, hk, hw⟩

theorem Ensures.modify {g : Workspace → Workspace} (hg : ∀ w : Workspace, w.Sound → (g w).Sound)
    (hk : ∀ w, (g w).pending = w.pending) : Ensures k (fun _ => True) (modify g) :=
  fun w hw hp => ⟨hg w hw, (congrArg List.length (hk w)).trans hp, trivial⟩

/-- The body runs with one queue more, and that queue is closed again whatever the outcome. -/
theorem Ensures.withQueue {items : List Node} (hitems : ∀ n ∈ items, n.Runs) {body : Exec α}
    (h : Ensures (k + 1) P body) : Ensures k P (withQueue items body) := by
  intro w hw hk
  have hopen : ({ w with pending := items :: w.pending } : Workspace).Sound :=
    { hw with pending := List.forall_mem_cons.mpr ⟨hitems, hw.pending⟩ }
  have hends := h _ hopen (congrArg Nat.succ hk)
  exact
    { sound := { hends.sound with
        pending := fun queue hq => hends.sound.pending queue (List.mem_of_mem_tail hq) }
      queues := List.length_tail.trans (congrArg Nat.pred hends.queues)
      outcome := hends.outcome }

theorem Ensures.withFrame {frame : Table Node} (hframe : frame.HoldsValues) {body : Exec α}
    (h : Ensures (k + 1) P body) : Ensures k P (withFrame frame body) := by
  intro w hw hk
  have hopen : ({ w with frames := frame :: w.frames, pending := [] :: w.pending } : Workspace).Sound :=
    { hw with
      frames := List.forall_mem_cons.mpr ⟨hframe, hw.frames⟩
      pending := List.forall_mem_cons.mpr ⟨List.forall_mem_nil _, hw.pending⟩ }
  have hends := h _ hopen (congrArg Nat.succ hk)
  exact
    { sound := { hends.sound with
        frames := fun frame hf => hends.sound.frames frame (List.mem_of_mem_tail hf)
        pending := fun queue hq => hends.sound.pending queue (List.mem_of_mem_tail hq) }
      queues := List.length_tail.trans (congrArg Nat.pred hends.queues)
      outcome := hends.outcome }

theorem Ensures.next? : Ensures k (fun node? => ∀ n ∈ node?, n.Runs) next? := by
  intro w hw hk
  unfold Exec.next?
  split
  · next node rest outer hp =>
    obtain ⟨hnode, hrest⟩ := hw.next hp
    exact ⟨hrest, by rw [← hk, hp]; rfl, by rintro _ ⟨⟩; exact hnode⟩
  · refine ⟨hw, hk, ?_⟩
    intro _ h
    cases h

theorem Ensures.isMore : Ensures k (fun _ => True) isMore := by
  intro w hw hk
  unfold Exec.isMore
  split <;> exact ⟨hw, hk, trivial⟩

/-- With a queue open, an input may be missing, but not for want of a line. -/
theorem Ensures.nextInput (caller : String) : Ensures (k + 1) Node.Runs (nextInput caller) := by
  intro w hw hk
  unfold TurtleLogo.nextInput
  split
  · next hp =>
    rw [hp] at hk
    cases hk
  · exact ⟨hw, hk, trivial⟩
  · next node rest outer hp =>
    obtain ⟨hnode, hrest⟩ := hw.next hp
    exact ⟨hrest, by rw [← hk, hp]; rfl, hnode⟩

theorem Ensures.assign (name : String) {v : Node} (hv : v.IsValue) :
    Ensures k (fun _ => True) (Exec.modify (·.assign name v)) :=
  .modify (fun _ hw => hw.assign name hv) fun w => pending_assign w name v

theorem Ensures.print (text : String) : Ensures k (fun _ => True) (print text) :=
  .modify (fun _ hw => { hw with }) fun _ => rfl

theorem Ensures.printAll (lines : Workspace → List String) :
    Ensures k (fun _ => True) (Exec.modify fun w => w.printAll (lines w)) :=
  .modify (fun w hw => hw.printAll (lines w)) fun w => pending_printAll w (lines w)

end Exec

end TurtleLogo
