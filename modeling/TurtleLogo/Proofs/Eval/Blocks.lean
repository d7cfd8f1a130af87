import TurtleLogo.Proofs.Eval.Remainder

/-!
# The body of a loop as a line

A list that is run as the body of a loop is evaluated like a line of the same expressions, but for a value: a line may
end with one, a body may not. Both evaluate the same statements off a queue of their own, and stop at the same one.

* `blockOutcome` : what a block gives, from what a line gives or its statements give;
* `instructions_apply` : the rounds of a block, from the statements of a line;
* `runBlock_apply` : a block, from a line;
* `block_agrees_with_line` : case by case.
-/

namespace TurtleLogo

open Exec

/-- What a block gives, from what its statements give: an output, and nothing else. -/
def blockOutcome : Except Failure Result → Except Failure Result
  | .ok (some (.output v)) => .ok (some (.output v))
  | .ok (some v) => .error (.fault (.running (.unusedValue v.source)))
  | r => r

theorem blockOutcome_of_value {v : Node} (hv : v.isOutput = false) :
    blockOutcome (.ok (some v)) = .error (.fault (.running (.unusedValue v.source))) := by
  cases v with
  | output => cases hv
  | _ => rfl

/-- A block goes through the statements of a line, and looks at a value as soon as there is one. -/
theorem instructions_apply (ev : Evaluator) (n : Nat) (w : Workspace) :
    instructions ev n w = (blockOutcome (statements ev n w).1, (statements ev n w).2) := by
  induction n generalizing w with
  | zero => rfl
  | succ n ih =>
    rw [instructions, statements, bind_apply, bind_apply]
    rcases next? w with ⟨e | _ | node, u⟩
    · rfl
    · rfl
    · dsimp only
      rw [bind_apply, bind_apply]
      rcases ev node u with ⟨e | _ | v, u'⟩
      · rfl
      · exact ih u'
      · cases v <;> rfl

/-- A value that a line has no use for is one that a block has no use for either. -/
theorem blockOutcome_lineOutcome (p : Except Failure Result × Workspace) :
    blockOutcome (lineOutcome p).1 = blockOutcome p.1 := by
  obtain ⟨e | _ | v, u⟩ := p
  · rfl
  · rfl
  · rw [lineOutcome]
    split
    · next h =>
      have hv : v.isOutput = false := by simpa using (Bool.and_eq_true_iff.mp h).1
      rw [blockOutcome_of_value hv]
      rfl
    · rfl

theorem lineOutcome_snd (p : Except Failure Result × Workspace) :
    (lineOutcome p).2 = p.2.withPending p.2.pending.tail := by
  obtain ⟨e | _ | v, u⟩ := p
  · rfl
  · rfl
  · rw [lineOutcome]
    split <;> rfl

/-- A block leaves what a line leaves, and what it gives is told by what the line gives. -/
theorem runBlock_apply (ev : Evaluator) (items : List Node) (w : Workspace) :
    runBlock ev items w = (blockOutcome (evalLine ev items w).1, (evalLine ev items w).2) := by
  rw [evalLine_apply, blockOutcome_lineOutcome, lineOutcome_snd, runBlock, withQueue_apply, instructions_apply]

/-- **A list run as a body agrees with the same expressions as a line.** Both leave the same workspace. Where the line
gives nothing so does the body, where it outputs the body outputs the same, and where it fails the body fails with the same
fault. Where one of the statements gives a value, the line gives it if nothing is left behind it and else fails for want of
a use for it; the body so fails in either case. Where one of them fails, so do both. -/
theorem block_agrees_with_line (files : FileStore) (depth : Nat) (items : List Node) (w : Workspace) :
    let line := evalLine (eval files depth) items w
    let block := runBlock (eval files depth) items w
    block.2 = line.2 ∧
    (match line.1 with
      | .ok none => block.1 = .ok none
      | .ok (some (.output v)) => block.1 = .ok (some (.output v))
      | .ok (some v) => ∃ fault, block.1 = .error (.fault fault) ∧ fault.kind = .arity ∧
          fault.message.plain = "You don't say what to do with " ++ v.source
      | .error e => block.1 = .error e) ∧
    (∀ v u, v.isOutput = false →
      statements (eval files depth) items.length (w.withPending (items :: w.pending)) = (.ok (some v), u) →
      ∃ fault, fault.kind = .arity ∧ fault.message.plain = "You don't say what to do with " ++ v.source ∧
        line.1 = (if u.hasMore then .error (.fault fault) else .ok (some v)) ∧ block.1 = .error (.fault fault)) ∧
    ∀ e u, statements (eval files depth) items.length (w.withPending (items :: w.pending)) = (.error e, u) →
      line.1 = .error e ∧ block.1 = .error e := by
  intro line block
  have hline : line =
      lineOutcome (statements (eval files depth) items.length (w.withPending (items :: w.pending))) :=
    evalLine_apply (eval files depth) items w
  have hblock : block = (blockOutcome line.1, line.2) := runBlock_apply (eval files depth) items w
  refine ⟨by rw [hblock], ?_, fun v u hv hstatements => ?_, fun e u hstatements => ?_⟩
  · rw [hblock]
    rcases line.1 with e | _ | v
    · rfl
    · rfl
    · cases v with
      | output v => rfl
      | _ => exact ⟨_, rfl, rfl, plain_unusedValue _⟩
  · rw [hstatements] at hline
    refine ⟨_, rfl, plain_unusedValue v.source, ?_, ?_⟩
    · rw [hline, lineOutcome, hv]
      cases u.hasMore <;> rfl
    · rw [hblock, hline, blockOutcome_lineOutcome, blockOutcome_of_value hv]
  · rw [hstatements] at hline
    have herror : line.1 = .error e := by
      rw [hline]
      rfl
    refine ⟨herror, ?_⟩
    rw [hblock, herror]
    rfl

/-- `PRINT "A "B "C`, in which `"B` has something behind it. -/
theorem block_agrees_with_line_left_over :
    let items : List Node := [.call "PRINT", .word "A", .word "B", .word "C"]
    (runBlock (eval {} 3) items {}).2 = (evalLine (eval {} 3) items {}).2 ∧
      ∃ fault, fault.kind = .arity ∧ fault.message.plain = "You don't say what to do with " ++ "\"B" ∧
        (evalLine (eval {} 3) items {}).1 = .error (.fault fault) ∧
        (runBlock (eval {} 3) items {}).1 = .error (.fault fault) := by
  obtain ⟨hspace, -, hvalue, -⟩ := block_agrees_with_line {} 3 [.call "PRINT", .word "A", .word "B", .word "C"] {}
  exact ⟨hspace, hvalue (.word "B") { printed := #["A"], pending := [[.word "C"]] } rfl rfl⟩

end TurtleLogo
