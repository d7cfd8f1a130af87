import TurtleLogo.Proofs.Eval.Purity

/-!
# Built-in procedures that fail

A built-in procedure takes all its inputs and checks them before it moves the turtle, assigns or prints. If the inputs are
expressions without calls, which touch nothing themselves, a procedure that fails has therefore changed nothing yet, but
for the queue that it has taken inputs from. Only the loops and `LOAD` do more than that, since they run other things.

* `Workspace.Offers` : a workspace with expressions without calls on its innermost queue;
* `Exec.Takes always x` : all that `x` does to such a workspace is to take inputs, always or at least if it fails;
* `Exec.Takes.bind` : a failure comes before everything that could not be taken back;
* `builtin_takes`, `builtin_atomic` : the built-in procedures.
-/

namespace TurtleLogo

open Exec

/-- The innermost queue holds expressions in which nothing is called, on top of the queues `outer`. -/
structure Workspace.Offers (w : Workspace) (queue : List Node) (outer : List (List Node)) : Prop where
  pending : w.pending = queue :: outer
  callFree : ∀ n ∈ queue, n.isCallFree = true

namespace Workspace.Offers

variable {w : Workspace} {queue : List Node} {outer : List (List Node)}

theorem withPending_self (h : w.Offers queue outer) : w.withPending (queue :: outer) = w := by
  rw [← h.pending]
  rfl

/-- What is left of the queue is still of that kind. -/
theorem of_suffix (h : w.Offers queue outer) {rest : List Node} (hrest : rest <:+ queue) :
    (w.withPending (rest :: outer)).Offers rest outer where
  pending := rfl
  callFree n hn := h.callFree n (hrest.subset hn)

end Workspace.Offers

namespace Exec

variable {α β : Type} {always : Prop}

/-- Run with expressions without calls on the queue, `x` takes some of them and changes nothing else. If not `always`, that
is said of failures only. -/
def Takes (always : Prop) (x : Exec α) : Prop :=
  ∀ (w : Workspace) (queue : List Node) (outer : List (List Node)), w.Offers queue outer →
    ((x w).1.isOk = true → always) → ∃ rest, rest <:+ queue ∧ (x w).2 = w.withPending (rest :: outer)

theorem Takes.of_still {x : Exec α} (h : ∀ w, (x w).2 = w) : Takes always x :=
  fun w queue _ hw _ => ⟨queue, List.suffix_refl queue, (h w).trans hw.withPending_self.symm⟩

theorem Takes.of_fixed {x : Exec α} (h : Fixed x) : Takes always x := by
  obtain ⟨r, hr⟩ := h
  exact .of_still fun w => by rw [hr]

theorem Takes.of_isOk {x : Exec α} (h : ∀ w, (x w).1.isOk = true) : Takes False x :=
  fun w _ _ _ hok => (hok (h w)).elim

/-- As long as only inputs are taken, what comes next finds the workspace as it was but for its queue. -/
theorem Takes.bind {x : Exec α} {f : α → Exec β} (hx : Takes True x) (hf : ∀ a, Takes always (f a)) :
    Takes always (x >>= f) := by
  intro w queue outer hw hok
  obtain ⟨rest, hrest, hspace⟩ := hx w queue outer hw fun _ => trivial
  rw [bind_apply] at hok ⊢
  rcases h : x w with ⟨e | a, u⟩
  · rw [h] at hspace
    exact ⟨rest, hrest, hspace⟩
  · rw [h] at hspace hok
    obtain rfl : u = w.withPending (rest :: outer) := hspace
    obtain ⟨rest', hrest', hspace'⟩ := hf a _ rest outer (hw.of_suffix hrest) hok
    exact ⟨rest', hrest'.trans hrest, hspace'⟩

end Exec

section Builtins

variable (files : FileStore) (depth : Nat) (name : String)

/-! ## Inputs -/

theorem pullValue_takes {always : Prop} : Takes always (pullValue (eval files depth) name) := by
  intro w queue outer hw _
  rw [pullValue_eq, bind_apply]
  cases queue with
  | nil =>
    have hnext : nextInput name w = (.error (.fault (.running (.moreInputs name))), w) := by
      simp only [nextInput, hw.pending]
      rfl
    rw [hnext]
    exact ⟨[], List.suffix_refl [], hw.withPending_self.symm⟩
  | cons node rest =>
    have hnext : nextInput name w = (.ok node, w.withPending (rest :: outer)) := by
      simp only [nextInput, hw.pending]
      rfl
    have hnode := eval_reads files depth (hw.callFree node List.mem_cons_self)
    rw [hnext]
    exact ⟨rest, List.suffix_cons node rest, (valueOf_reads name hnode).still _⟩

theorem pullNumber_takes : Takes True (pullNumber (eval files depth) name) :=
  (pullValue_takes files depth name).bind fun v => .of_fixed (expectNumber_fixed name v)

theorem pullWord_takes : Takes True (pullWord (eval files depth) name) :=
  (pullValue_takes files depth name).bind fun v => .of_fixed (expectWord_fixed name v)

theorem pullList_takes : Takes True (pullList (eval files depth) name) :=
  (pullValue_takes files depth name).bind fun v => .of_fixed (expectList_fixed name v)

/-! ## All of them -/

/-- Every built-in procedure but the loops and `LOAD` takes its inputs first, and then does something that cannot fail. -/
theorem builtin_takes {b : Builtin} (hb : b ∉ [Builtin.repeatTimes, .forEach, .load]) :
    Takes False (b.run files (eval files depth) name) := by
  have value : Takes True (pullValue (eval files depth) name) := pullValue_takes files depth name
  have number := pullNumber_takes files depth name
  have word := pullWord_takes files depth name
  have list := pullList_takes files depth name
  have look : Takes True turtle := .of_still fun _ => rfl
  cases b with
  | repeatTimes | forEach | load => simp at hb
  | clearScreen | home | clean | penDown | penUp | getXY | xCor | yCor | heading | printProcedures | printNames =>
    exact .of_isOk fun _ => rfl
  | forward | back | right | left | setHeading => exact number.bind fun _ => .of_isOk fun _ => rfl
  | setXY => exact number.bind fun _ => number.bind fun _ => .of_isOk fun _ => rfl
  | setX | setY => exact look.bind fun _ => number.bind fun _ => .of_isOk fun _ => rfl
  | make => exact word.bind fun _ => value.bind fun _ => .of_isOk fun _ => rfl
  | output | print => exact value.bind fun _ => .of_isOk fun _ => rfl
  | list => exact value.bind fun _ => value.bind fun _ => .of_isOk fun _ => rfl
  | lput => exact value.bind fun _ => list.bind fun _ => .of_isOk fun _ => rfl
  | item =>
    refine number.bind fun index => value.bind fun thing => ?_
    split
    · exact .of_isOk fun _ => rfl
    · exact .of_fixed (Fixed.fail _)
  | title | endTitle => exact .of_fixed (Fixed.fail _)

end Builtins

/-- **Built-in procedures fail atomically.** Call a built-in procedure other than `REPEAT`, `FOR` and `LOAD` where the queue
that it takes its inputs from holds only expressions in which nothing is called. If the call fails, for whatever reason, it
has at most taken expressions off the front of that queue: the turtle, the drawing, what was printed, all variables, the
procedures, the open definition and all other queues are as they were. -/
theorem builtin_atomic {files : FileStore} {depth : Nat} {name : String} {b : Builtin}
    (hname : Builtin.ofName? name = some b) (hb : b ∉ [Builtin.repeatTimes, .forEach, .load]) {w : Workspace}
    {queue : List Node} {outer : List (List Node)} (hw : w.pending = queue :: outer)
    (hqueue : ∀ n ∈ queue, n.isCallFree = true) {e : Failure}
    (he : (eval files depth (.call name) w).1 = .error e) :
    ∃ rest, rest <:+ queue ∧ (eval files depth (.call name) w).2 = { w with pending := rest :: outer } := by
  have htakes : Takes False (eval files depth (.call name)) := by
    cases depth with
    | zero => exact .of_fixed (Fixed.stop _)
    | succ depth =>
      have hcall : eval files (depth + 1) (.call name) = b.run files (eval files depth) name := by
        rw [eval, evaluate, call, hname]
      rw [hcall]
      exact builtin_takes files depth name hb
  refine htakes w queue outer ⟨hw, hqueue⟩ fun hok => ?_
  rw [he] at hok
  cases hok

/-- `SETXY` with a first input that is fine and a second one that asks for an unknown variable; with the pen down, and with
something left of the queue and of an outer one. -/
theorem builtin_atomic_unknown_variable :
    let w : Workspace :=
      { globals := ⟨[("A", .num 1)]⟩, pending := [[.var "A", .neg (.var "X"), .word "Z"], [.call "HOME"]] }
    ∃ rest, rest <:+ [.var "A", .neg (.var "X"), .word "Z"] ∧
      (eval {} 4 (.call "SETXY") w).2 = { w with pending := [rest, [.call "HOME"]] } := by
  intro w
  have he : (eval {} 4 (.call "SETXY") w).1 = .error (.fault (.running (.unknownVariable "X"))) := rfl
  refine builtin_atomic (b := .setXY) (by decide) (by decide) rfl ?_ he
  exact fun n hn => Node.areCallFree_iff.mp (by decide) n hn

end TurtleLogo
