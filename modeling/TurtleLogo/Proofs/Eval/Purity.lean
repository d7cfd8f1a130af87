import TurtleLogo.Proofs.Eval.Remainder

/-!
# Expressions without calls

Only a call takes expressions off the queue, moves the turtle, prints or assigns. An expression in which nothing is called
therefore leaves the workspace as it is, also when it fails, and depends on nothing but its variables. The queues that its
brackets and its variadic operators open hold their own operands only, and are closed again.

* `Node.isCallFree` : expressions without calls; `Node.vars` : the variables that an expression reads;
* `Exec.Reads names x` : `x` touches nothing and depends on the variables `names` only;
* `evaluate_reads` : one node, given an evaluator for the nodes inside it; `eval_reads` : every node at every depth;
* `callFree_pure` : what that says of two workspaces.
-/

namespace TurtleLogo

open Exec

/-! ## Nodes -/

namespace Node

mutual

/-- Whether a node is an expression in which nothing is called. What stands in a list is not evaluated. -/
def isCallFree : Node → Bool
  | .num _ | .word _ | .list _ | .var _ => true
  | .neg operand => isCallFree operand
  | .binary _ left right => isCallFree left && isCallFree right
  | .nary _ items | .group items => areCallFree items
  | .call _ | .line _ | .output _ | .empty => false

def areCallFree : List Node → Bool
  | [] => true
  | item :: items => isCallFree item && areCallFree items

end

mutual

/-- The variables that occur in an expression, but for those in lists. -/
def vars : Node → List String
  | .var name => [name]
  | .neg operand => vars operand
  | .binary _ left right => vars left ++ vars right
  | .nary _ items | .group items => varsOf items
  | .num _ | .word _ | .list _ | .call _ | .line _ | .output _ | .empty => []

def varsOf : List Node → List String
  | [] => []
  | item :: items => vars item ++ varsOf items

end

theorem areCallFree_iff {items : List Node} : areCallFree items = true ↔ ∀ n ∈ items, n.isCallFree = true := by
  induction items with
  | nil => simp [areCallFree]
  | cons item items ih => rw [areCallFree, Bool.and_eq_true, ih, List.forall_mem_cons]

theorem vars_subset_varsOf {items : List Node} {n : Node} (h : n ∈ items) :
    n.vars ⊆ varsOf items := by
  induction items with
  | nil => cases h
  | cons item items ih =>
    rcases List.mem_cons.mp h with rfl | h
    · exact List.subset_append_left _ _
    · exact List.subset_append_of_subset_right _ (ih h)

end Node

/-! ## Reading -/

namespace Exec

variable {α β : Type} {names : List String}

/-- `x` touches nothing, and has the same outcome wherever the variables `names` have the same values. -/
structure Reads (names : List String) (x : Exec α) : Prop where
  still : ∀ w, (x w).2 = w
  same : ∀ {w v : Workspace}, (∀ name ∈ names, v.lookup? name = w.lookup? name) → (x v).1 = (x w).1

namespace Reads

theorem apply {x : Exec α} (hx : Reads names x) (w : Workspace) : x w = ((x w).1, w) := Prod.ext rfl (hx.still w)

theorem withPending {x : Exec α} (hx : Reads names x) (w : Workspace) (pending : List (List Node)) :
    x (w.withPending pending) = ((x w).1, w.withPending pending) :=
  Prod.ext (hx.same fun _ _ => rfl) (hx.still _)

theorem mono {names' : List String} {x : Exec α} (hx : Reads names x) (h : names ⊆ names') : Reads names' x where
  still := hx.still
  same hwv := hx.same fun name hname => hwv name (h hname)

theorem of_fixed {x : Exec α} (h : Fixed x) : Reads names x := by
  obtain ⟨r, hr⟩ := h
  exact { still := fun w => by rw [hr], same := fun _ => by rw [hr, hr] }

theorem pure (a : α) : Reads names (Pure.pure a : Exec α) := .of_fixed (Fixed.pure a)

theorem bind_apply {x : Exec α} (hx : Reads names x) (f : α → Exec β) (w : Workspace) :
    (x >>= f) w = match (x w).1 with
      | .ok a => f a w
      | .error e => (.error e, w) := by
  rw [Exec.bind_apply, hx.apply]
  cases (x w).1 <;> rfl

theorem bind {x : Exec α} {f : α → Exec β} (hx : Reads names x) (hf : ∀ a, Reads names (f a)) :
    Reads names (x >>= f) where
  still w := by
    rw [hx.bind_apply]
    cases (x w).1 with
    | ok a => exact (hf a).still w
    | error e => rfl
  same {w v} hwv := by
    rw [hx.bind_apply, hx.bind_apply, hx.same hwv]
    cases (x w).1 with
    | ok a => exact (hf a).same hwv
    | error e => rfl

end Reads

end Exec

theorem lookup_apply (name : String) (w : Workspace) :
    lookup name w = ((w.lookup? name).elim (.error (.fault (.running (.unknownVariable name)))) .ok, w) := by
  rw [lookup, bind_apply]
  simp only [Exec.get]
  cases w.lookup? name <;> rfl

theorem lookup_reads (name : String) : Reads [name] (lookup name) where
  still w := by rw [lookup_apply]
  same hwv := by rw [lookup_apply, lookup_apply, hwv name List.mem_cons_self]

section Evaluating

variable {ev : Evaluator} {names : List String}

theorem valueOf_reads (caller : String) {node : Node} (h : Reads names (ev node)) :
    Reads names (valueOf ev caller node) :=
  h.bind fun r => .of_fixed (expectValue_fixed caller node r)

theorem numberOf_reads (caller : String) {node : Node} (h : Reads names (ev node)) :
    Reads names (numberOf ev caller node) :=
  (valueOf_reads caller h).bind fun v => .of_fixed (expectNumber_fixed caller v)

/-! ## Brackets and operators -/

theorem evalGroup_reads {items : List Node} (h : ∀ n ∈ items, Reads names (ev n)) : Reads names (evalGroup ev items) := by
  cases items with
  | nil => exact { still := fun _ => rfl, same := fun _ => rfl }
  | cons node rest =>
    have hnode := h node List.mem_cons_self
    have hgroup (w : Workspace) : evalGroup ev (node :: rest) w = ((ev node w).1, w) := by
      have htaken : evalGroup ev (node :: rest) w = withQueue rest (ev node) w := rfl
      rw [htaken, withQueue_apply, hnode.withPending]
      rfl
    exact { still := fun w => by rw [hgroup], same := fun hwv => by rw [hgroup, hgroup, hnode.same hwv] }

/-- An operand that takes no inputs from the others may as well be evaluated before their queue is opened. -/
theorem evalOperands_cons (caller : String) {node : Node} (h : Reads names (ev node)) (rest : List Node) :
    evalOperands ev caller (node :: rest) =
      numberOf ev caller node >>= fun x => evalOperands ev caller rest >>= fun xs => pure (x :: xs) := by
  funext w
  have hnode := numberOf_reads caller h
  have htaken : evalOperands ev caller (node :: rest) w =
      withQueue rest (numberOf ev caller node >>= fun x => operands ev caller rest.length >>= fun xs =>
        pure (x :: xs)) w := rfl
  rw [htaken, withQueue_apply, hnode.bind_apply, hnode.bind_apply, hnode.withPending]
  rcases (numberOf ev caller node w).1 with e | x
  · rfl
  · dsimp only
    rw [bind_apply, bind_apply, evalOperands, withQueue_apply]
    rcases operands ev caller rest.length (w.withPending (rest :: w.pending)) with ⟨_ | _, _⟩ <;> rfl

theorem evalOperands_reads (caller : String) {items : List Node} (h : ∀ n ∈ items, Reads names (ev n)) :
    Reads names (evalOperands ev caller items) := by
  induction items with
  | nil => exact { still := fun _ => rfl, same := fun _ => rfl }
  | cons node rest ih =>
    obtain ⟨hnode, hrest⟩ := List.forall_mem_cons.mp h
    rw [evalOperands_cons caller hnode]
    exact (numberOf_reads caller hnode).bind fun x => (ih hrest).bind fun xs => .pure (x :: xs)

theorem evalBinary_reads (op : Operator) {left right : Node} (hleft : Reads names (ev left))
    (hright : Reads names (ev right)) : Reads names (evalBinary ev op left right) := by
  unfold evalBinary
  split
  · exact (valueOf_reads op.symbol hleft).bind fun _ => (valueOf_reads op.symbol hright).bind fun _ =>
      .of_fixed (Fixed.ofExcept _)
  · exact (numberOf_reads op.symbol hleft).bind fun _ => (numberOf_reads op.symbol hright).bind fun _ =>
      (Reads.of_fixed (Fixed.ofExcept _)).bind fun x => .pure _

end Evaluating

/-! ## Expressions -/

theorem evaluate_reads (files : FileStore) {ev : Evaluator}
    (hev : ∀ {node : Node}, node.isCallFree = true → Reads node.vars (ev node)) {node : Node}
    (hnode : node.isCallFree = true) : Reads node.vars (evaluate files ev node) := by
  have hitems {items : List Node} (h : Node.areCallFree items = true) :
      ∀ n ∈ items, Reads (Node.varsOf items) (ev n) := fun n hn =>
    (hev (Node.areCallFree_iff.mp h n hn)).mono (Node.vars_subset_varsOf hn)
  cases node with
  | num | word | list => exact .pure _
  | var name => exact (lookup_reads name).bind fun v => .pure (some v)
  | neg operand =>
    have hoperand : operand.isCallFree = true := hnode
    exact (numberOf_reads _ (hev hoperand)).bind fun x => .pure _
  | binary op left right =>
    obtain ⟨hleft, hright⟩ := Bool.and_eq_true_iff.mp hnode
    refine (evalBinary_reads op ?_ ?_).bind fun v => .pure (some v)
    · exact (hev hleft).mono (List.subset_append_left _ _)
    · exact (hev hright).mono (List.subset_append_right _ _)
  | nary op items => exact (evalOperands_reads op.symbol (hitems hnode)).bind fun xs => .pure _
  | group items => exact evalGroup_reads (hitems hnode)
  | call | line | output | empty => cases hnode

theorem eval_reads (files : FileStore) (depth : Nat) {node : Node} (hnode : node.isCallFree = true) :
    Reads node.vars (eval files depth node) := by
  induction depth generalizing node with
  | zero => exact .of_fixed (Fixed.stop _)
  | succ depth ih => exact evaluate_reads files ih hnode

/-- **Expressions without calls are pure.** Evaluating one leaves the workspace as it is, whether it succeeds or fails, and
does the same in any two workspaces in which its variables have the same values. What occurs in lists does not matter,
since that is not evaluated. -/
theorem callFree_pure (files : FileStore) (depth : Nat) {node : Node} (hnode : node.isCallFree = true) :
    (∀ w, (eval files depth node w).2 = w) ∧
    ∀ w v : Workspace, (∀ name ∈ node.vars, v.lookup? name = w.lookup? name) →
      (eval files depth node v).1 = (eval files depth node w).1 :=
  ⟨(eval_reads files depth hnode).still, fun _ _ => (eval_reads files depth hnode).same⟩

/-- A sum in which one operand is a negation of brackets: of these the first expression is evaluated, and the list with a
call and another variable is dropped. One workspace runs a line and has both variables from outside; the other runs a
procedure with one of them as its own, and does not know the variable in the list. -/
theorem callFree_pure_own_variable :
    let node : Node := .group [.nary .plus [.var "A", .neg (.group [.var "B", .list [.call "FD", .var "C"]])]]
    let w : Workspace :=
      { globals := ⟨[("A", .num 1), ("B", .num 2), ("C", .num 3)]⟩, pending := [[.call "FD"]] }
    let v : Workspace := { globals := ⟨[("A", .word "X"), ("B", .num 2)]⟩, frames := [⟨[("A", .num 1)]⟩] }
    node.isCallFree = true ∧ node.vars = ["A", "B"] ∧ (eval {} 6 node w).2 = w ∧ (eval {} 6 node v).2 = v ∧
      (eval {} 6 node v).1 = (eval {} 6 node w).1 := by
  intro node w v
  have hnode : node.isCallFree = true := rfl
  obtain ⟨hstill, hsame⟩ := callFree_pure {} 6 hnode
  have hnames : ∀ name ∈ ["A", "B"], v.lookup? name = w.lookup? name :=
    List.forall_mem_cons.mpr ⟨rfl, List.forall_mem_singleton.mpr rfl⟩
  exact ⟨hnode, rfl, hstill w, hstill v, hsame w v hnames⟩

end TurtleLogo
