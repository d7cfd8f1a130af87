import TurtleLogo.Proofs.Parser.Contents

/-!
# What an error blames

Every error of a line names one of its tokens, and the token is of the kind that the error is about. Two kinds of errors
never come of a line: the parser asks for an expression only where one can begin, so that a missing operand is reported
at its operator, and a missing bracket at the one that opens.

* `ParseError.fits` : what an error is about, `Blames ts e` : a token among `ts` is to blame for `e`;
* `BlamesLine ts e` : the same for a line, where a token may also stand behind the end;
* `Fails x P` : whatever error `x` ends with has `P`;
* `readExpression_blames` and its companions : each part of the parser;
* `parseLine_blames` : a line.
-/

namespace TurtleLogo

/-- Whether an error inside a line is about such a token. No token of a line makes it end too early, or stand closed
by a bracket in place of an expression. -/
def ParseError.fits : ParseError → Lexeme → Prop
  | .unmatched _ b, k => k = .closer b
  | .missingOperand _, k => k.isOperator = true
  | .unsupported _, k => k = .leftBrace ∨ k = .rightBrace
  | .wrongCloser b _, k => ∃ b', b' ≠ b ∧ k = .closer b'
  | .unclosed _ b, k => k = .opener b
  | .tooLarge _, k => ∃ n, k = .integer n ∧ Number.ofInt? n = none
  | .trailing _, _ | .endOfLine _, _ | .strayCloser _, _ => False

namespace Parsing

/-- One of the tokens is to blame for an error, and it is of the kind that the error is about. -/
def Blames (ts : List Token) (e : ParseError) : Prop := ∃ t ∈ ts, e.token? = some t ∧ e.fits t.kind

theorem Blames.mono {ts us : List Token} {e : ParseError} (h : Blames ts e) (hsub : ts ⊆ us) : Blames us e := by
  obtain ⟨t, ht, he⟩ := h
  exact ⟨t, hsub ht, he⟩

/-- A token of a line is to blame for an error: one inside of it, or one that is not only space behind its end. -/
inductive BlamesLine (ts : List Token) : ParseError → Prop
  | inside {e : ParseError} (h : Blames ts e) : BlamesLine ts e
  | behind {before after : List Token} {t u : Token} (hts : ts = before ++ t :: after) (hend : t.kind = .lineEnd)
      (hmem : u ∈ after) (hspace : u.isSpace = false) : BlamesLine ts (.trailing u)

theorem BlamesLine.of_suffix {ts us : List Token} {e : ParseError} (h : BlamesLine ts e) (hsuffix : ts <:+ us) :
    BlamesLine us e := by
  cases h with
  | inside h => exact .inside (h.mono hsuffix.subset)
  | behind hts hend hmem hspace =>
    obtain ⟨front, rfl⟩ := hsuffix
    exact .behind (by rw [hts, List.append_assoc]) hend hmem hspace

theorem BlamesLine.exists_token {ts : List Token} {e : ParseError} (h : BlamesLine ts e) :
    ∃ t ∈ ts, e.token? = some t := by
  cases h with
  | inside h =>
    obtain ⟨t, ht, he, -⟩ := h
    exact ⟨t, ht, he⟩
  | behind hts _ hmem _ =>
    rw [hts]
    exact ⟨_, List.mem_append_right _ (List.mem_cons_of_mem _ hmem), rfl⟩

def Fails {α : Type} (x : Except ParseError α) (P : ParseError → Prop) : Prop := ∀ e, x = .error e → P e

theorem Fails.ok {α : Type} {P : ParseError → Prop} (a : α) : Fails (.ok a) P := nofun

theorem Fails.error {α : Type} {P : ParseError → Prop} {e : ParseError} (h : P e) :
    Fails (.error e : Except ParseError α) P := by
  rintro _ ⟨⟩
  exact h

theorem Fails.bind {α β : Type} {x : Except ParseError α} {f : α → Except ParseError β} {P : ParseError → Prop}
    (hx : Fails x P) (hf : ∀ a, x = .ok a → Fails (f a) P) : Fails (x >>= f) P := by
  cases x with
  | error e => exact .error (hx e rfl)
  | ok a => exact hf a rfl

theorem Fails.mono {α : Type} {x : Except ParseError α} {ts us : List Token} (h : Fails x (Blames ts)) (hsub : ts ⊆ us) :
    Fails x (Blames us) := fun e he => (h e he).mono hsub

/-! ## Where the tokens come from -/

theorem subset_of_readExpression {floor : Nat} {ts rest : List Token} {node : Node}
    (h : readExpression floor ts = .ok (node, rest)) : rest ⊆ ts := (readExpression_spends floor ts _ h).suffix.subset

theorem subset_of_readPrimary {ts rest : List Token} {node : Node} (h : readPrimary ts = .ok (node, rest)) :
    rest ⊆ ts := (readPrimary_spends ts _ h).suffix.subset

/-- A minus changes the sign of an operand only. -/
theorem endsOperand_of_isNegatable {ts : List Token} (h : isNegatable ts = true) : endsOperand (skipSpaces ts) = false := by
  rcases ts with _ | ⟨⟨kind, col⟩, ts⟩
  · cases h
  · cases kind <;> first | rfl | cases h

/-! ## The parts of the parser -/

-- The recursion is the parser's own. Whatever reads an expression has seen that one can begin there.
mutual

theorem readExpression_blames (floor : Nat) {ts : List Token} (h : endsOperand (skipSpaces ts) = false) :
    Fails (readExpression floor ts) (Blames ts) := by
  rw [readExpression_eq]
  refine .bind (readPrimary_blames h) fun ⟨first, rest⟩ hfirst => ?_
  have := length_lt_of_readPrimary hfirst
  dsimp only
  split
  · exact .ok _
  · exact (readClimb_blames floor first rest).mono (subset_of_readPrimary hfirst)
termination_by 3 * ts.length + 1

theorem readClimb_blames (floor : Nat) (left : Node) (ts : List Token) :
    Fails (readClimb floor left ts) (Blames ts) := by
  cases hn : startsNegation ts with
  | true =>
    rw [readClimb_of_negation hn]
    exact .ok _
  | false =>
    by_cases hop : ∃ o col rest, skipSpaces ts = ⟨.op o, col⟩ :: rest
    · obtain ⟨o, col, rest, ho⟩ := hop
      have := length_lt_of_skipSpaces ho
      obtain ⟨hmem, hrest⟩ := List.cons_subset.mp (suffix_of_skipSpaces ho).subset
      rw [readClimb_of_op hn ho]
      split
      · exact .ok _
      · split
        · exact .error ⟨_, hmem, rfl, rfl⟩
        · next hmore =>
          refine .bind ((readExpression_blames o.level (Bool.eq_false_iff.mpr hmore)).mono hrest) fun ⟨right, rest'⟩ h => ?_
          have := length_lt_of_readExpression h
          exact (readClimb_blames floor _ rest').mono (List.Subset.trans (subset_of_readExpression h) hrest)
    · rw [readClimb_of_other hn fun o col rest ho => hop ⟨o, col, rest, ho⟩]
      exact .ok _
termination_by 3 * ts.length

theorem readPrimary_blames {ts : List Token} (h : endsOperand (skipSpaces ts) = false) :
    Fails (readPrimary ts) (Blames ts) := by
  rcases hs : skipSpaces ts with _ | ⟨⟨kind, col⟩, rest⟩
  · rw [hs] at h
    cases h
  · have := length_lt_of_skipSpaces hs
    have hsub := (suffix_of_skipSpaces hs).subset
    obtain ⟨hmem, hrest⟩ := List.cons_subset.mp hsub
    rw [readPrimary_cons hs]
    cases kind with
    | lineEnd | closer b =>
      rw [hs] at h
      cases h
    | integer n =>
      dsimp only
      cases hx : Number.ofInt? n with
      | some x => exact .ok _
      | none => exact .error ⟨_, hmem, rfl, n, rfl, hx⟩
    | float | var | word | name => exact .ok _
    | leftBrace => exact .error ⟨_, hmem, rfl, .inl rfl⟩
    | rightBrace => exact .error ⟨_, hmem, rfl, .inr rfl⟩
    | blank | lineCont => cases isSpace_of_skipSpaces hs
    | opener b =>
      cases b with
      | square => exact .bind ((readSequence_blames rfl rest).mono hsub) fun _ _ => .ok _
      | round =>
        dsimp only
        cases hv : variadic? (skipSpaces rest) with
        | none => exact .bind ((readSequence_blames rfl rest).mono hsub) fun _ _ => .ok _
        | some found =>
          obtain ⟨o, operands⟩ := found
          have := length_lt_of_variadic? hv
          have := length_skipSpaces_le rest
          obtain ⟨col', ho⟩ := eq_cons_of_variadic? hv
          have hoperands := (List.cons_subset.mp (suffix_of_skipSpaces ho).subset).2
          refine .bind ((readSequence_blames rfl operands).mono ?_) fun _ _ => .ok _
          exact List.cons_subset.mpr ⟨hmem, List.Subset.trans hoperands hrest⟩
    | op o =>
      have hblame : Blames ts (.missingOperand ⟨.op o, col⟩) := ⟨_, hmem, rfl, rfl⟩
      dsimp only
      split
      · next hneg =>
        exact .bind ((readPrimary_blames (endsOperand_of_isNegatable hneg.2)).mono hrest) fun _ _ => .ok _
      · split
        · exact .error hblame
        · next hmore =>
          refine .bind ((readExpression_blames 0 (Bool.eq_false_iff.mpr hmore)).mono hrest) fun ⟨left, rest'⟩ hleft => ?_
          have := length_lt_of_readExpression hleft
          have hrest' := List.Subset.trans (subset_of_readExpression hleft) hrest
          dsimp only
          split
          · exact .error hblame
          · next hmore =>
            exact .bind ((readExpression_blames 0 (Bool.eq_false_iff.mpr hmore)).mono hrest') fun _ _ => .ok _
termination_by 3 * ts.length

theorem readSequence_blames {opener : Token} {bracket : Bracket} (ho : opener.kind = .opener bracket) (ts : List Token) :
    Fails (readSequence opener bracket ts) (Blames (opener :: ts)) := by
  have hunclosed : Blames (opener :: ts) (.unclosed opener bracket) := ⟨opener, List.mem_cons_self, rfl, ho⟩
  rcases hs : skipSpaces ts with _ | ⟨⟨kind, col⟩, rest⟩
  · rw [readSequence_nil hs]
    exact .error hunclosed
  · have hmem := (suffix_of_skipSpaces hs).subset List.mem_cons_self
    rw [readSequence_cons hs]
    have hitems (hmore : endsOperand (skipSpaces ts) = false) : Fails (readExpression 0 ts >>= fun (item, rest') =>
        readSequence opener bracket rest' >>= fun (items, rest'') => .ok (item :: items, rest''))
        (Blames (opener :: ts)) := by
      refine .bind ((readExpression_blames 0 hmore).mono (List.subset_cons_self _ _)) fun ⟨item, rest'⟩ h => ?_
      have := length_lt_of_readExpression h
      refine .bind ((readSequence_blames ho rest').mono ?_) fun _ _ => .ok _
      exact List.cons_subset_cons _ (subset_of_readExpression h)
    cases kind with
    | closer b =>
      dsimp only
      split
      · exact .ok _
      · next hne => exact .error ⟨_, List.mem_cons_of_mem _ hmem, rfl, b, hne, rfl⟩
    | lineEnd => exact .error hunclosed
    | _ => exact hitems (by rw [hs]; rfl)
termination_by 3 * ts.length + 2

end

end Parsing

open Parsing

/-- **Every error of a line blames one of its tokens**, of the kind that the error is about. -/
theorem parseLine_blames (ts : List Token) : Fails (parseLine ts) (BlamesLine ts) := by
  rcases hs : skipSpaces ts with _ | ⟨⟨kind, col⟩, rest⟩
  · rw [parseLine_nil hs]
    exact .ok _
  · have hsuffix := suffix_of_skipSpaces hs
    rw [parseLine_cons hs]
    have hitems (hmore : endsOperand (skipSpaces ts) = false) : Fails (readExpression 0 ts >>= fun (item, rest') =>
        parseLine rest' >>= fun items => .ok (item :: items)) (BlamesLine ts) := by
      refine .bind (fun e he => .inside (readExpression_blames 0 hmore e he)) fun ⟨item, rest'⟩ h => ?_
      have := length_lt_of_readExpression h
      have hrest := (readExpression_spends 0 ts _ h).suffix
      exact .bind (fun e he => (parseLine_blames rest' e he).of_suffix hrest) fun _ _ => .ok _
    cases kind with
    | lineEnd =>
      dsimp only
      split
      · exact .ok _
      · next u more hu =>
        obtain ⟨front, hfront⟩ := hsuffix
        have hmem := (suffix_of_skipSpaces hu).subset List.mem_cons_self
        exact .error (.behind hfront.symm rfl hmem (isSpace_of_skipSpaces hu))
    | closer b => exact .error (.inside ⟨_, hsuffix.subset List.mem_cons_self, rfl, rfl⟩)
    | _ => exact hitems (by rw [hs]; rfl)
termination_by ts.length

end TurtleLogo
