import TurtleLogo.Proofs.Eval.Keeps

/-!
# The stacks

Every open line, list and call has a queue, and every running procedure a frame. Whatever opens one closes it on the
way out, also when it fails, and nothing but the innermost queue is ever touched in between.

* `Disciplined w w'` : how the stacks of `w'` may differ from those of `w`;
* `disciplined_stable` : every step of the evaluator is disciplined;
* `stack_discipline` : so is every evaluation, and a line that begins with empty stacks ends with empty stacks.
-/

namespace TurtleLogo

open Exec

/-- Expressions may have been taken off the front of the innermost queue; every queue below it is as it was, and as
many frames are open. -/
structure Disciplined (w w' : Workspace) : Prop where
  depth : w'.pending.length = w.pending.length
  below : w'.pending.tail = w.pending.tail
  top : w'.pending.headD [] <:+ w.pending.headD []
  frames : w'.frames.length = w.frames.length

theorem Disciplined.of_eq {w w' : Workspace} (hp : w'.pending = w.pending)
    (hf : w'.frames.length = w.frames.length) : Disciplined w w' where
  depth := by rw [hp]
  below := by rw [hp]
  top := hp ▸ List.suffix_refl _
  frames := hf

theorem Disciplined.trans {u v w : Workspace} (h : Disciplined u v) (h' : Disciplined v w) : Disciplined u w where
  depth := h'.depth.trans h.depth
  below := h'.below.trans h.below
  top := h'.top.trans h.top
  frames := h'.frames.trans h.frames

theorem Disciplined.pending_eq {w w' : Workspace} (h : Disciplined w w') {queue : List Node}
    {outer : List (List Node)} (hw : w.pending = queue :: outer) :
    ∃ rest, rest <:+ queue ∧ w'.pending = rest :: outer := by
  have hd := h.depth
  have hb := h.below
  have ht := h.top
  rw [hw] at hd hb ht
  cases hw' : w'.pending with
  | nil => rw [hw'] at hd; cases hd
  | cons rest outer' =>
    rw [hw'] at hb ht
    exact ⟨rest, ht, by rw [show outer' = outer from hb]⟩

theorem length_frames_assign (w : Workspace) (name : String) (value : Node) :
    (w.assign name value).frames.length = w.frames.length := by
  unfold Workspace.assign
  split
  · next h =>
    split
    · simp [h]
    · rfl
  · rfl

theorem pending_assign (w : Workspace) (name : String) (value : Node) :
    (w.assign name value).pending = w.pending := by
  unfold Workspace.assign
  split
  · split <;> rfl
  · rfl

theorem disciplined_stable : Stable Disciplined where
  refl w := .of_eq rfl rfl
  trans := Disciplined.trans
  next {w node rest outer} h :=
    { depth := by rw [h]; rfl
      below := by rw [h]; rfl
      top := by rw [h]; exact List.suffix_cons node rest
      frames := rfl }
  queue items h := by
    obtain ⟨rest, -, hr⟩ := h.pending_eq rfl
    exact .of_eq (by rw [hr]; rfl) h.frames
  frame locals h := by
    obtain ⟨rest, -, hr⟩ := h.pending_eq rfl
    refine .of_eq (by rw [hr]; rfl) ?_
    rw [List.length_tail, h.frames]
    rfl
  assign w name value := .of_eq (pending_assign w name value) (length_frames_assign w name value)
  draw _ _ := .of_eq rfl rfl
  print _ _ := .of_eq rfl rfl
  continuation _ _ := .of_eq rfl rfl
  title _ := .of_eq rfl rfl
  addLine _ _ _ := .of_eq rfl rfl
  drop _ := .of_eq rfl rfl
  define _ := .of_eq rfl rfl

theorem eval_disciplined (files : FileStore) (depth : Nat) (node : Node) :
    Keeps Disciplined (eval files depth node) := eval_keeps disciplined_stable files depth node

theorem Disciplined.isIdle {w w' : Workspace} (h : Disciplined w w') (hw : w.isIdle = true) :
    w'.isIdle = true := by
  simp only [Workspace.isIdle, Bool.and_eq_true, List.isEmpty_iff] at hw ⊢
  have hp := h.depth
  have hf := h.frames
  rw [hw.2] at hp
  rw [hw.1] at hf
  exact ⟨List.length_eq_zero_iff.mp hf, List.length_eq_zero_iff.mp hp⟩

/-- **Stack discipline.** However an evaluation ends, it leaves as many queues as before, all but the innermost one as
they were and of that one a suffix, and as many frames. So a line that is fed when no procedure, line or list is open
leaves none open, whether it fails or not. -/
theorem stack_discipline (files : FileStore) (depth : Nat) :
    (∀ (node : Node) (w : Workspace), Disciplined w (eval files depth node w).2) ∧
    (∀ (line : String) (w : Workspace), w.isIdle = true → (feed (eval files depth) line w).2.isIdle = true) := by
  constructor
  · exact fun node w => eval_disciplined files depth node w
  · intro line w hw
    exact (feed_keeps disciplined_stable (eval_disciplined files depth) line w).isIdle hw

/-- A loop that fails in the middle of its body, with a queue open for the line, one for the body and one for the sum. -/
theorem stack_discipline_failing_loop :
    ({} : Workspace).isIdle = true ∧ (feed (eval {} 8) "REPEAT 2 [FD (+ 1 :X) RT 90]" {}).2.isIdle = true :=
  ⟨rfl, (stack_discipline {} 8).2 _ _ rfl⟩

end TurtleLogo
