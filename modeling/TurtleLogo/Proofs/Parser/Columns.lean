import TurtleLogo.Proofs.Parser.Equations

/-!
# Columns do not matter

The parser looks at what tokens say, and never at where they stand: columns only go into the errors. Without columns, two
lists of tokens that say the same are the same list, so they parse to the same line or to the same error up to columns.

* `Token.uncol`, `ParseError.uncol` : a token, an error without its columns;
* `readExpression_uncol` and its companions : each part of the parser on tokens without columns;
* `parseLine_uncol` : a line, `parseLine_of_kinds` : two lists of tokens that say the same.
-/

namespace TurtleLogo

def Token.uncol (t : Token) : Token := ⟨t.kind, 0⟩

def ParseError.uncol : ParseError → ParseError
  | .unmatched t b => .unmatched t.uncol b
  | .trailing t => .trailing t.uncol
  | .missingOperand t => .missingOperand t.uncol
  | .endOfLine t => .endOfLine (t.map Token.uncol)
  | .strayCloser t => .strayCloser t.uncol
  | .unsupported t => .unsupported t.uncol
  | .wrongCloser b t => .wrongCloser b t.uncol
  | .unclosed t b => .unclosed t.uncol b
  | .tooLarge t => .tooLarge t.uncol

theorem map_uncol_eq {ts us : List Token} (h : ts.map Token.kind = us.map Token.kind) :
    ts.map Token.uncol = us.map Token.uncol := by
  have he : Token.uncol = (fun k => ⟨k, 0⟩) ∘ Token.kind := rfl
  rw [he, ← List.map_map, ← List.map_map, h]

namespace Parsing

/-! ## Looking ahead -/

theorem skipSpaces_uncol (ts : List Token) :
    skipSpaces (ts.map Token.uncol) = (skipSpaces ts).map Token.uncol := by
  unfold skipSpaces
  rw [List.dropWhile_map]
  rfl

theorem startsNegation_uncol (ts : List Token) : startsNegation (ts.map Token.uncol) = startsNegation ts := by
  rcases ts with _ | ⟨s, _ | ⟨m, _ | ⟨t, ts⟩⟩⟩ <;> rfl

theorem endsOperand_uncol (ts : List Token) : endsOperand (ts.map Token.uncol) = endsOperand ts := by
  cases ts <;> rfl

theorem startsCall_uncol (ts : List Token) : startsCall (ts.map Token.uncol) = startsCall ts := by
  rcases ts with _ | ⟨⟨kind, col⟩, ts⟩
  · rfl
  · cases kind <;> rfl

theorem isNegatable_uncol (ts : List Token) : isNegatable (ts.map Token.uncol) = isNegatable ts := by
  cases ts <;> rfl

theorem variadic?_uncol (ts : List Token) :
    variadic? (ts.map Token.uncol) = (variadic? ts).map fun p => (p.1, p.2.map Token.uncol) := by
  rcases ts with _ | ⟨⟨kind, col⟩, ts⟩
  · rfl
  · cases kind with
    | op o =>
      simp only [List.map_cons, Token.uncol, variadic?]
      split <;> rfl
    | _ => rfl

/-! ## The parts of the parser -/

def uncolResult {α : Type} (r : Except ParseError (α × List Token)) : Except ParseError (α × List Token) :=
  match r with
  | .ok (a, rest) => .ok (a, rest.map Token.uncol)
  | .error e => .error e.uncol

theorem uncolResult_bind {α β : Type} {x : Except ParseError (α × List Token)}
    {f g : α × List Token → Except ParseError (β × List Token)}
    (h : ∀ a rest, x = .ok (a, rest) → g (a, rest.map Token.uncol) = uncolResult (f (a, rest))) :
    uncolResult x >>= g = uncolResult (x >>= f) := by
  rcases x with e | ⟨a, rest⟩
  · rfl
  · exact h a rest rfl

mutual

theorem readExpression_uncol (floor : Nat) (ts : List Token) :
    readExpression floor (ts.map Token.uncol) = uncolResult (readExpression floor ts) := by
  rw [readExpression_eq, readExpression_eq, readPrimary_uncol ts, skipSpaces_uncol, startsCall_uncol]
  refine uncolResult_bind fun first rest h => ?_
  have := length_lt_of_readPrimary h
  dsimp only
  split
  · rfl
  · exact readClimb_uncol floor first rest
termination_by 3 * ts.length + 1

theorem readClimb_uncol (floor : Nat) (left : Node) (ts : List Token) :
    readClimb floor left (ts.map Token.uncol) = uncolResult (readClimb floor left ts) := by
  have hn := startsNegation_uncol ts
  have hs := skipSpaces_uncol ts
  cases h : startsNegation ts with
  | true =>
    rw [readClimb_of_negation h, readClimb_of_negation (hn.trans h)]
    rfl
  | false =>
    by_cases hop : ∃ o col rest, skipSpaces ts = ⟨.op o, col⟩ :: rest
    · obtain ⟨o, col, rest, ho⟩ := hop
      have := length_lt_of_skipSpaces ho
      rw [ho] at hs
      rw [readClimb_of_op h ho, readClimb_of_op (hn.trans h) hs, skipSpaces_uncol, endsOperand_uncol]
      split
      · rfl
      · split
        · rfl
        · rw [readExpression_uncol o.level rest]
          refine uncolResult_bind fun right rest' hr => ?_
          have := length_lt_of_readExpression hr
          exact readClimb_uncol floor (.binary o left right) rest'
    · have hne : ∀ o col rest, skipSpaces ts ≠ ⟨.op o, col⟩ :: rest :=
        fun o col rest ho => hop ⟨o, col, rest, ho⟩
      rw [readClimb_of_other h hne, readClimb_of_other (hn.trans h), hs]
      · rfl
      · intro o col rest ho
        rw [hs] at ho
        rcases hu : skipSpaces ts with _ | ⟨⟨kind, col'⟩, rest'⟩
        · rw [hu] at ho
          cases ho
        · rw [hu] at ho
          cases ho
          exact hne _ _ _ hu
termination_by 3 * ts.length

theorem readPrimary_uncol (ts : List Token) :
    readPrimary (ts.map Token.uncol) = uncolResult (readPrimary ts) := by
  have hs := skipSpaces_uncol ts
  rcases h : skipSpaces ts with _ | ⟨⟨kind, col⟩, rest⟩
  · rw [h] at hs
    rw [readPrimary_nil h, readPrimary_nil hs]
    rfl
  · have := length_lt_of_skipSpaces h
    rw [h] at hs
    rw [readPrimary_cons h, readPrimary_cons hs]
    cases kind with
    | integer n =>
      dsimp only [Token.uncol]
      generalize Number.ofInt? n = x
      cases x <;> rfl
    | opener b =>
      cases b with
      | square =>
        have hq := readSequence_uncol ⟨.opener .square, col⟩ .square rest
        dsimp only [Token.uncol] at hq ⊢
        rw [hq]
        exact uncolResult_bind fun items rest' _ => rfl
      | round =>
        have hv := variadic?_uncol (skipSpaces rest)
        rw [← skipSpaces_uncol] at hv
        cases h' : variadic? (skipSpaces rest) with
        | none =>
          have hq := readSequence_uncol ⟨.opener .round, col⟩ .round rest
          rw [h'] at hv
          dsimp only [Token.uncol, Option.map] at hq hv ⊢
          rw [hv, hq]
          exact uncolResult_bind fun items rest' _ => rfl
        | some found =>
          obtain ⟨o, operands⟩ := found
          have := length_lt_of_variadic? h'
          have := length_skipSpaces_le rest
          have hq := readSequence_uncol ⟨.opener .round, col⟩ .round operands
          rw [h'] at hv
          dsimp only [Token.uncol, Option.map] at hq hv ⊢
          rw [hv]
          dsimp only
          rw [hq]
          exact uncolResult_bind fun items rest' _ => rfl
    | op o =>
      dsimp only [Token.uncol]
      rw [isNegatable_uncol, skipSpaces_uncol, endsOperand_uncol]
      split
      · rw [readPrimary_uncol rest]
        exact uncolResult_bind fun operand rest' _ => rfl
      · split
        · rfl
        · rw [readExpression_uncol 0 rest]
          refine uncolResult_bind fun left rest' hl => ?_
          have := length_lt_of_readExpression hl
          dsimp only
          rw [skipSpaces_uncol, endsOperand_uncol]
          split
          · rfl
          · rw [readExpression_uncol 0 rest']
            exact uncolResult_bind fun right rest'' _ => rfl
    | _ => rfl
termination_by 3 * ts.length

theorem readSequence_uncol (opener : Token) (bracket : Bracket) (ts : List Token) :
    readSequence opener.uncol bracket (ts.map Token.uncol) = uncolResult (readSequence opener bracket ts) := by
  have hs := skipSpaces_uncol ts
  rcases h : skipSpaces ts with _ | ⟨⟨kind, col⟩, rest⟩
  · rw [h] at hs
    rw [readSequence_nil h, readSequence_nil hs]
    rfl
  · rw [h] at hs
    rw [readSequence_cons h, readSequence_cons hs]
    have hitems : (readExpression 0 (ts.map Token.uncol) >>= fun (item, rest') =>
          readSequence opener.uncol bracket rest' >>= fun (items, rest'') => .ok (item :: items, rest'')) =
        uncolResult (readExpression 0 ts >>= fun (item, rest') =>
          readSequence opener bracket rest' >>= fun (items, rest'') => .ok (item :: items, rest'')) := by
      rw [readExpression_uncol 0 ts]
      refine uncolResult_bind fun item rest' hr => ?_
      have := length_lt_of_readExpression hr
      dsimp only
      rw [readSequence_uncol opener bracket rest']
      exact uncolResult_bind fun items rest'' _ => rfl
    cases kind with
    | closer b =>
      dsimp only [Token.uncol]
      split <;> rfl
    | lineEnd => rfl
    | _ => exact hitems
termination_by 3 * ts.length + 2

end

end Parsing

open Parsing

/-- A line of tokens without columns: the same expressions, or the same error without its columns. -/
theorem parseLine_uncol (ts : List Token) :
    parseLine (ts.map Token.uncol) = (parseLine ts).mapError ParseError.uncol := by
  have hs := skipSpaces_uncol ts
  rcases h : skipSpaces ts with _ | ⟨⟨kind, col⟩, rest⟩
  · rw [h] at hs
    rw [parseLine_nil h, parseLine_nil hs]
    rfl
  · rw [h] at hs
    rw [parseLine_cons h, parseLine_cons hs]
    have hitems : (readExpression 0 (ts.map Token.uncol) >>= fun (item, rest') =>
          parseLine rest' >>= fun items => .ok (item :: items)) =
        (readExpression 0 ts >>= fun (item, rest') =>
          parseLine rest' >>= fun items => .ok (item :: items)).mapError ParseError.uncol := by
      rw [readExpression_uncol 0 ts]
      rcases hr : readExpression 0 ts with e | ⟨item, rest'⟩
      · rfl
      · have := length_lt_of_readExpression hr
        have hp := parseLine_uncol rest'
        change (parseLine (rest'.map Token.uncol) >>= fun items => .ok (item :: items)) =
          (parseLine rest' >>= fun items => .ok (item :: items)).mapError ParseError.uncol
        rw [hp]
        cases parseLine rest' <;> rfl
    cases kind with
    | lineEnd =>
      dsimp only [Token.uncol]
      rw [skipSpaces_uncol]
      cases skipSpaces rest <;> rfl
    | closer b => rfl
    | _ => exact hitems
termination_by ts.length

theorem parseLine_of_kinds {ts us : List Token} (h : ts.map Token.kind = us.map Token.kind) :
    (parseLine ts).mapError ParseError.uncol = (parseLine us).mapError ParseError.uncol := by
  rw [← parseLine_uncol, ← parseLine_uncol, map_uncol_eq h]

theorem parseLine_ok_of_kinds {ts us : List Token} {items : List Node} (h : ts.map Token.kind = us.map Token.kind)
    (hts : parseLine ts = .ok items) : parseLine us = .ok items := by
  have hkinds := parseLine_of_kinds h
  rw [hts] at hkinds
  cases hus : parseLine us with
  | error e =>
    rw [hus] at hkinds
    cases hkinds
  | ok others =>
    rw [hus] at hkinds
    exact hkinds.symm

end TurtleLogo
