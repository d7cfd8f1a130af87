import TurtleLogo.Proofs.Eval.InPlace
import TurtleLogo.Proofs.Eval.Inputs
import TurtleLogo.Proofs.Eval.Purity
import TurtleLogo.Proofs.Eval.Scopes

/-!
# The inputs of a call

A call takes the expressions that follow it one at a time and evaluates each as it is taken, in the scope of the caller.
Only when there is one for every formal does a frame with their values exist, in which the body runs.

* `Table.insertAll` : several names with their values, of which the last value of a name is the one that stays;
* `PureInput files depth w e v` : in `w` the expression `e`, in which nothing is called, has the value `v`;
* `bindInputs_of_enough`, `bindInputs_of_few` : as many inputs as formals, and fewer;
* `inputs_bound` : the call of a procedure, with enough inputs and with too few.
-/

namespace TurtleLogo

open Exec

/-! ## Tables -/

namespace Table

variable {α : Type}

def insertAll (t : Table α) (bindings : List (String × α)) : Table α :=
  bindings.foldl (fun t binding => t.insert binding.1 binding.2) t

/-- A name has the last of the values that it is given. -/
theorem find?_insertAll (t : Table α) (bindings : List (String × α)) (name : String) :
    (t.insertAll bindings).find? name = (bindings.reverse.lookup name).or (t.find? name) := by
  induction bindings generalizing t with
  | nil => rfl
  | cons binding bindings ih =>
    obtain ⟨n, v⟩ := binding
    have hone : (t.insert n v).find? name = ([(n, v)].lookup name).or (t.find? name) := by
      rw [find?_insert, List.lookup_cons]
      by_cases h : name = n
      · simp [h]
      · simp [h, beq_false_of_ne h]
    rw [insertAll, List.foldl_cons, ← insertAll, ih, hone, List.reverse_cons, List.lookup_append, Option.or_assoc]

end Table

/-! ## Inputs without calls -/

/-- In `w` the expression `e`, in which nothing is called, has the value `v`. -/
structure PureInput (files : FileStore) (depth : Nat) (w : Workspace) (e v : Node) : Prop where
  callFree : e.isCallFree = true
  value : v.isOutput = false
  eval : (eval files depth e w).1 = .ok (some v)

section Inputs

variable {files : FileStore} {depth : Nat} {w : Workspace} {es vs : List Node}

theorem PureInput.pullValue {e v : Node} (h : PureInput files depth w e v) (caller : String) (rest : List Node)
    (outer : List (List Node)) :
    pullValue (TurtleLogo.eval files depth) caller (w.withPending ((e :: rest) :: outer)) =
      (.ok v, w.withPending (rest :: outer)) := by
  have heval : TurtleLogo.eval files depth e (w.withPending (rest :: outer)) =
      (.ok (some v), w.withPending (rest :: outer)) := by
    rw [(eval_reads files depth h.callFree).withPending, h.eval]
  refine pullValue_of_eval (w := w.withPending ((e :: rest) :: outer)) rfl heval ?_ caller
  rintro x rfl
  cases h.value

/-- With as many inputs as formals, each formal is given the value of its own, and what is behind them is left. -/
theorem bindInputs_of_enough (h : List.Forall₂ (PureInput files depth w) es vs) (caller : String)
    {formals : List String} (hlen : es.length = formals.length) (locals : Table Node) (rest : List Node)
    (outer : List (List Node)) :
    bindInputs (eval files depth) caller formals locals (w.withPending ((es ++ rest) :: outer)) =
      (.ok (locals.insertAll (formals.zip vs)), w.withPending (rest :: outer)) := by
  induction h generalizing formals locals with
  | nil =>
    obtain rfl := List.eq_nil_of_length_eq_zero hlen.symm
    rfl
  | cons hinput _ ih =>
    obtain _ | ⟨formal, formals⟩ := formals
    · cases hlen
    -- only the queue has changed, so the inputs that follow have in `w` the values they have now
    · rw [bindInputs, bind_apply, List.cons_append, hinput.pullValue]
      exact ih (Nat.succ.inj hlen) (locals.insert formal _)

theorem bindInputs_of_few (h : List.Forall₂ (PureInput files depth w) es vs) (caller : String)
    {formals : List String} (hlen : es.length < formals.length) (locals : Table Node) (outer : List (List Node)) :
    bindInputs (eval files depth) caller formals locals (w.withPending (es :: outer)) =
      (.error (.fault (.running (.moreInputs caller))), w.withPending ([] :: outer)) := by
  induction h generalizing formals locals with
  | nil =>
    obtain _ | ⟨formal, formals⟩ := formals
    · cases hlen
    · rw [bindInputs, bind_apply, pullValue_eq]
      rfl
  | cons hinput _ ih =>
    obtain _ | ⟨formal, formals⟩ := formals
    · cases hlen
    · rw [bindInputs, bind_apply, hinput.pullValue]
      exact ih (Nat.lt_of_succ_lt_succ hlen) (locals.insert formal _)

end Inputs

/-! ## Calls -/

/-- A body leaves the frames and the queues of its caller as they were when it began. -/
theorem withFrame_runBody (files : FileStore) (depth : Nat) (p : Procedure) (locals : Table Node) (w : Workspace) :
    withFrame locals (runBody (eval files depth) p.name p.body) w =
      let body := runBody (eval files depth) p.name p.body
        { w with frames := locals :: w.frames, pending := [] :: w.pending }
      (body.1, { body.2 with frames := w.frames, pending := w.pending }) := by
  have hframes := runBody_keeps scoped_stable (eval_scoped files depth) p.name p.body
    { w with frames := locals :: w.frames, pending := [] :: w.pending }
  have hpending := runBody_keeps disciplined_stable (eval_disciplined files depth) p.name p.body
    { w with frames := locals :: w.frames, pending := [] :: w.pending }
  refine (withFrame_of (Prod.eta _).symm).trans ?_
  rw [hframes.below, hpending.below]
  rfl

theorem plain_moreInputs (caller : String) :
    (Fault.running (.moreInputs caller)).message.plain = caller ++ " needs more inputs" := by
  simp [Fault.message, Fault.running, Cause.message, Text.Message.plain, String.join]

/-- **Inputs are bound in the caller's scope.** Let the queue begin with expressions in which nothing is called and which
have values where the call stands. If there is one for every formal, then just these are taken, and the body runs in a new
frame on top of the caller's: it has the formals as its variables, each with the value of its input, or of the last of them
where a formal is repeated. What the body leaves is left, on the caller's frames and with the rest of its queue. If the
queue holds no more than fewer of them than there are formals, the call fails for want of an input, and all that has
changed is that the queue is empty. -/
theorem inputs_bound {files : FileStore} {depth : Nat} {w : Workspace} {name : String} {p : Procedure}
    {es vs : List Node} (hname : Builtin.isName name = false) (hp : w.procedures.find? name = some p)
    (hes : List.Forall₂ (PureInput files depth w) es vs) (outer : List (List Node)) :
    (∀ rest, w.pending = (es ++ rest) :: outer → es.length = p.formals.length →
      ∃ locals : Table Node, locals.names = p.formals.eraseDups ∧
        (∀ formal, locals.find? formal = (p.formals.zip vs).reverse.lookup formal) ∧
        let body := runBody (eval files depth) p.name p.body
          { w with frames := locals :: w.frames, pending := [] :: rest :: outer }
        eval files (depth + 1) (.call name) w =
          (body.1, { body.2 with frames := w.frames, pending := rest :: outer })) ∧
    (w.pending = es :: outer → es.length < p.formals.length →
      ∃ fault, eval files (depth + 1) (.call name) w = (.error (.fault fault), { w with pending := [] :: outer }) ∧
        fault.kind = .arity ∧ fault.message.plain = p.name ++ " needs more inputs") := by
  have hcall : eval files (depth + 1) (.call name) w = callProcedure (eval files depth) p w :=
    call_of_find? hname hp
  rw [hcall, callProcedure, bind_apply]
  constructor
  · intro rest hw hlen
    have hbind := bindInputs_of_enough hes p.name hlen {} rest outer
    rw [← hw] at hbind
    refine ⟨_, names_of_bindInputs hbind, fun formal => ?_, ?_⟩
    · rw [Table.find?_insertAll]
      exact Option.or_none
    · have hself : w.withPending w.pending = w := rfl
      rw [← hself, hbind]
      exact withFrame_runBody files depth p _ (w.withPending (rest :: outer))
  · intro hw hlen
    have hbind := bindInputs_of_few hes p.name hlen {} outer
    have hself : w.withPending (es :: outer) = w := by rw [← hw]; rfl
    rw [hself] at hbind
    refine ⟨_, ?_, rfl, plain_moreInputs p.name⟩
    rw [hbind]
    rfl

/-- A procedure with a repeated formal, called where there is a variable of the same name: its second input is the caller's
variable, not the first input. With three inputs the call leaves `HOME` on the queue, with two it fails. -/
theorem inputs_bound_repeated_formal :
    let p : Procedure := { name := "P", formals := ["A", "B", "A"], body := [[.call "OP", .var "B"]] }
    let w : Workspace :=
      { procedures := ⟨[("P", p)]⟩, frames := [⟨[("A", .word "X")]⟩],
        pending := [[.word "U", .group [.var "A"], .list [.call "FD"], .call "HOME"]] }
    let v : Workspace := { w with pending := [[.word "U", .group [.var "A"]]] }
    (∃ locals : Table Node, locals.names = ["A", "B"] ∧ locals.find? "A" = some (.list [.call "FD"]) ∧
      locals.find? "B" = some (.word "X") ∧
      let body := runBody (eval {} 5) "P" p.body
        { w with frames := locals :: w.frames, pending := [[], [.call "HOME"]] }
      eval {} 6 (.call "P") w = (body.1, { body.2 with frames := w.frames, pending := [[.call "HOME"]] })) ∧
    ∃ fault, eval {} 6 (.call "P") v = (.error (.fault fault), { v with pending := [[]] }) ∧
      fault.kind = .arity ∧ fault.message.plain = "P" ++ " needs more inputs" := by
  intro p w v
  have hname : Builtin.isName "P" = false := by decide
  have hthree : List.Forall₂ (PureInput {} 5 w) [.word "U", .group [.var "A"], .list [.call "FD"]]
      [.word "U", .word "X", .list [.call "FD"]] :=
    .cons ⟨rfl, rfl, rfl⟩ (.cons ⟨rfl, rfl, rfl⟩ (.cons ⟨rfl, rfl, rfl⟩ .nil))
  have htwo : List.Forall₂ (PureInput {} 5 v) [.word "U", .group [.var "A"]] [.word "U", .word "X"] :=
    .cons ⟨rfl, rfl, rfl⟩ (.cons ⟨rfl, rfl, rfl⟩ .nil)
  obtain ⟨locals, hnames, hfind, hcall⟩ := (inputs_bound (p := p) hname rfl hthree []).1 [.call "HOME"] rfl rfl
  have hfew := (inputs_bound (p := p) hname rfl htwo []).2 rfl (by decide)
  exact ⟨⟨locals, hnames, hfind "A", hfind "B", hcall⟩, hfew⟩

end TurtleLogo
