import TurtleLogo.Proofs.Parser.Equations

/-!
# Runs of spaces

Blanks and continuations separate tokens, and the parser mostly skips them. It looks at them in one place only: after an
operand, a single space before a minus that the next token leans on begins a new, negated expression. So a run of spaces
reads like a single blank, unless it is longer than one token and stands in that place.

* `Blind R A` : relations between tokens that the parser cannot tell apart, anywhere and after an operand;
* `Agree A` : the same outcome, with related rests; `readExpression_blind` and its companions : each part of the parser;
* `parseLine_blind` : a line;
* `collapse` : every run of spaces as one blank, `splitsMinus` : a longer run stands before such a minus;
* `parseLine_collapse` : a line with its runs of spaces collapsed, `parseLine_collapse_split` : the exception.
-/

namespace TurtleLogo

/-- Whether an operand may end with a lexeme. -/
def Lexeme.closesOperand : Lexeme → Bool
  | .name _ | .var _ | .word _ | .integer _ | .float _ | .closer _ => true
  | _ => false

namespace Parsing

/-! ## What the parser cannot tell apart -/

/-- Relations that the parser is blind to: `R` between tokens anywhere, and `A` between tokens after an operand. The same
token comes next in both, spaces apart, and behind a minus both look the same to what tells a change of sign. -/
structure Blind (R A : List Token → List Token → Prop) : Prop where
  anywhere : ∀ {ts us}, A ts us → R ts us
  next : ∀ {ts us}, R ts us → (skipSpaces ts = [] ∧ skipSpaces us = []) ∨
    ∃ t rest rest', skipSpaces ts = t :: rest ∧ skipSpaces us = t :: rest' ∧ R rest rest' ∧
      (t.kind.closesOperand = true → A rest rest') ∧ (t.kind = .op .minus → isNegatable rest = isNegatable rest')
  skip : ∀ {ts us}, A ts us → A (skipSpaces ts) (skipSpaces us)
  negation : ∀ {ts us}, A ts us → startsNegation ts = startsNegation us

/-- The same error, or the same value with related rests. -/
inductive Agree {α : Type} (A : List Token → List Token → Prop) :
    Except ParseError (α × List Token) → Except ParseError (α × List Token) → Prop
  | error (e : ParseError) : Agree A (.error e) (.error e)
  | ok (a : α) {rest rest' : List Token} (h : A rest rest') : Agree A (.ok (a, rest)) (.ok (a, rest'))

theorem Agree.bind {α β : Type} {A B : List Token → List Token → Prop} {x y : Except ParseError (α × List Token)}
    {f g : α × List Token → Except ParseError (β × List Token)} (h : Agree A x y)
    (hf : ∀ a rest rest', x = .ok (a, rest) → A rest rest' → Agree B (f (a, rest)) (g (a, rest'))) :
    Agree B (x >>= f) (y >>= g) := by
  cases h with
  | error e => exact .error e
  | ok a h => exact hf a _ _ rfl h

section Blind

variable {R A : List Token → List Token → Prop} (hR : Blind R A)

include hR

theorem Blind.endsOperand_eq {ts us : List Token} (h : R ts us) :
    endsOperand (skipSpaces ts) = endsOperand (skipSpaces us) := by
  obtain ⟨hs, hs'⟩ | ⟨t, rest, rest', hs, hs', -⟩ := hR.next h
  · rw [hs, hs']
  · rw [hs, hs']
    rfl

theorem Blind.startsCall_eq {ts us : List Token} (h : R ts us) :
    startsCall (skipSpaces ts) = startsCall (skipSpaces us) := by
  obtain ⟨hs, hs'⟩ | ⟨⟨kind, col⟩, rest, rest', hs, hs', -⟩ := hR.next h
  · rw [hs, hs']
  · rw [hs, hs']
    cases kind <;> rfl

/-- Both begin with the same variadic operator, or neither with one. -/
theorem Blind.variadic?_cases {ts us : List Token} (h : R ts us) :
    (variadic? (skipSpaces ts) = none ∧ variadic? (skipSpaces us) = none) ∨
      ∃ o rest rest', variadic? (skipSpaces ts) = some (o, rest) ∧ variadic? (skipSpaces us) = some (o, rest') ∧
        R rest rest' := by
  obtain ⟨hs, hs'⟩ | ⟨⟨kind, col⟩, rest, rest', hs, hs', hrest, -⟩ := hR.next h
  · rw [hs, hs']
    exact .inl ⟨rfl, rfl⟩
  · rw [hs, hs']
    cases kind with
    | op o =>
      simp only [variadic?]
      split
      · exact .inr ⟨o, rest, rest', rfl, rfl, hrest⟩
      · exact .inl ⟨rfl, rfl⟩
    | _ => exact .inl ⟨rfl, rfl⟩

/-! ## The parts of the parser -/

mutual

theorem readExpression_blind (floor : Nat) {ts us : List Token} (h : R ts us) :
    Agree A (readExpression floor ts) (readExpression floor us) := by
  rw [readExpression_eq, readExpression_eq, hR.startsCall_eq h]
  refine (readPrimary_blind h).bind fun first rest rest' hfirst hrest => ?_
  have := length_lt_of_readPrimary hfirst
  dsimp only
  split
  · exact .ok first hrest
  · exact readClimb_blind floor first hrest
termination_by 3 * ts.length + 1

theorem readClimb_blind (floor : Nat) (left : Node) {ts us : List Token} (h : A ts us) :
    Agree A (readClimb floor left ts) (readClimb floor left us) := by
  have hn := hR.negation h
  cases hneg : startsNegation ts with
  | true =>
    rw [readClimb_of_negation hneg, readClimb_of_negation (hn.symm.trans hneg)]
    exact .ok left h
  | false =>
    have hneg' := hn.symm.trans hneg
    have hskip := hR.skip h
    by_cases hop : ∃ o col rest, skipSpaces ts = ⟨.op o, col⟩ :: rest
    · obtain ⟨o, col, rest, hs⟩ := hop
      obtain ⟨hnil, -⟩ | ⟨t, rest₁, rest', hs₁, hs', hrest, -⟩ := hR.next (hR.anywhere h)
      · rw [hs] at hnil
        cases hnil
      · obtain ⟨rfl, rfl⟩ := List.cons.inj (hs₁.symm.trans hs)
        have := length_lt_of_skipSpaces hs
        rw [hs, hs'] at hskip
        rw [readClimb_of_op hneg hs, readClimb_of_op hneg' hs', hR.endsOperand_eq hrest]
        split
        · exact .ok left hskip
        · split
          · exact .error _
          · refine (readExpression_blind o.level hrest).bind fun right more more' hright hmore => ?_
            have := length_lt_of_readExpression hright
            exact readClimb_blind floor (.binary o left right) hmore
    · have hne : ∀ o col rest, skipSpaces ts ≠ ⟨.op o, col⟩ :: rest := fun o col rest hs => hop ⟨o, col, rest, hs⟩
      have hne' : ∀ o col rest, skipSpaces us ≠ ⟨.op o, col⟩ :: rest := by
        intro o col rest' hs'
        obtain ⟨-, hnil⟩ | ⟨t, rest, rest₁, hs, hs₁, -⟩ := hR.next (hR.anywhere h)
        · rw [hs'] at hnil
          cases hnil
        · obtain ⟨rfl, -⟩ := List.cons.inj (hs₁.symm.trans hs')
          exact hne o col rest hs
      rw [readClimb_of_other hneg hne, readClimb_of_other hneg' hne']
      exact .ok left hskip
termination_by 3 * ts.length

theorem readPrimary_blind {ts us : List Token} (h : R ts us) : Agree A (readPrimary ts) (readPrimary us) := by
  obtain ⟨hs, hs'⟩ | ⟨⟨kind, col⟩, rest, rest', hs, hs', hrest, hafter, hminus⟩ := hR.next h
  · rw [readPrimary_nil hs, readPrimary_nil hs']
    exact .error _
  · have := length_lt_of_skipSpaces hs
    rw [readPrimary_cons hs, readPrimary_cons hs']
    cases kind with
    | integer n =>
      dsimp only
      generalize Number.ofInt? n = x
      cases x with
      | none => exact .error _
      | some x => exact .ok _ (hafter rfl)
    | float | var | word | name => exact .ok _ (hafter rfl)
    | opener b =>
      cases b with
      | square =>
        refine (readSequence_blind _ .square hrest).bind fun items more more' _ hmore => ?_
        exact .ok _ hmore
      | round =>
        obtain ⟨hv, hv'⟩ | ⟨o, operands, operands', hv, hv', hoperands⟩ := hR.variadic?_cases hrest
        · dsimp only
          simp only [hv, hv']
          refine (readSequence_blind _ .round hrest).bind fun items more more' _ hmore => ?_
          exact .ok _ hmore
        · have := length_lt_of_variadic? hv
          have := length_skipSpaces_le rest
          dsimp only
          simp only [hv, hv']
          refine (readSequence_blind _ .round hoperands).bind fun items more more' _ hmore => ?_
          exact .ok _ hmore
    | op o =>
      have hneg : (o = .minus ∧ isNegatable rest = true) ↔ (o = .minus ∧ isNegatable rest' = true) :=
        and_congr_right fun ho => by rw [hminus (congrArg Lexeme.op ho)]
      dsimp only
      simp only [hneg]
      rw [hR.endsOperand_eq hrest]
      split
      · exact (readPrimary_blind hrest).bind fun operand more more' _ hmore => .ok _ hmore
      · split
        · exact .error _
        · refine (readExpression_blind 0 hrest).bind fun left more more' hleft hmore => ?_
          have := length_lt_of_readExpression hleft
          dsimp only
          rw [hR.endsOperand_eq (hR.anywhere hmore)]
          split
          · exact .error _
          · exact (readExpression_blind 0 (hR.anywhere hmore)).bind fun right last last' _ hlast => .ok _ hlast
    | _ => exact .error _
termination_by 3 * ts.length

theorem readSequence_blind (opener : Token) (bracket : Bracket) {ts us : List Token} (h : R ts us) :
    Agree A (readSequence opener bracket ts) (readSequence opener bracket us) := by
  obtain ⟨hs, hs'⟩ | ⟨⟨kind, col⟩, rest, rest', hs, hs', -, hafter, -⟩ := hR.next h
  · rw [readSequence_nil hs, readSequence_nil hs']
    exact .error _
  · rw [readSequence_cons hs, readSequence_cons hs']
    have hitems : Agree A
        (readExpression 0 ts >>= fun (item, rest') =>
          readSequence opener bracket rest' >>= fun (items, rest'') => .ok (item :: items, rest''))
        (readExpression 0 us >>= fun (item, rest') =>
          readSequence opener bracket rest' >>= fun (items, rest'') => .ok (item :: items, rest'')) := by
      refine (readExpression_blind 0 h).bind fun item more more' hitem hmore => ?_
      have := length_lt_of_readExpression hitem
      refine (readSequence_blind opener bracket (hR.anywhere hmore)).bind fun items last last' _ hlast => ?_
      exact .ok _ hlast
    cases kind with
    | closer b =>
      dsimp only
      split
      · exact .ok _ (hafter rfl)
      · exact .error _
    | lineEnd => exact .error _
    | _ => exact hitems
termination_by 3 * ts.length + 2

end

/-- Lines that the parser cannot tell apart have the same expressions, or the same error. -/
theorem parseLine_blind {ts us : List Token} (h : R ts us) : parseLine ts = parseLine us := by
  obtain ⟨hs, hs'⟩ | ⟨⟨kind, col⟩, rest, rest', hs, hs', hrest, -⟩ := hR.next h
  · rw [parseLine_nil hs, parseLine_nil hs']
  · rw [parseLine_cons hs, parseLine_cons hs']
    have hitems : (readExpression 0 ts >>= fun (item, rest') => parseLine rest' >>= fun items => .ok (item :: items)) =
        (readExpression 0 us >>= fun (item, rest') => parseLine rest' >>= fun items => .ok (item :: items)) := by
      have hagree := readExpression_blind hR 0 h
      rcases hread : readExpression 0 ts with e | ⟨item, more⟩
      · rw [hread] at hagree
        generalize readExpression 0 us = y at hagree ⊢
        cases hagree
        rfl
      · have := length_lt_of_readExpression hread
        rw [hread] at hagree
        generalize readExpression 0 us = y at hagree ⊢
        cases hagree with
        | ok _ hmore =>
          show (parseLine more >>= fun items => .ok (item :: items)) = (parseLine _ >>= fun items => .ok (item :: items))
          rw [parseLine_blind (hR.anywhere hmore)]
    cases kind with
    | lineEnd =>
      dsimp only
      obtain ⟨hnil, hnil'⟩ | ⟨u, more, more', hmore, hmore', -⟩ := hR.next hrest
      · rw [hnil, hnil']
      · rw [hmore, hmore']
    | closer b => rfl
    | _ => exact hitems
termination_by ts.length

end Blind

/-! ## Collapsed runs -/

/-- Tokens with every run of spaces as one blank, at the column where the run begins. -/
def collapse : List Token → List Token
  | [] => []
  | t :: ts => if t.isSpace then ⟨.blank, t.col⟩ :: skipSpaces (collapse ts) else t :: collapse ts

/-- Whether a run of at least two spaces comes first, and then a minus that the next token leans on. -/
def splitsHere : List Token → Bool
  | s :: ts => s.isSpace && (startsNegation ts || splitsHere ts)
  | [] => false

/-- Whether such a run stands directly behind a token that an operand may end with. -/
def splitsMinus : List Token → Bool
  | t :: ts => (t.kind.closesOperand && splitsHere ts) || splitsMinus ts
  | [] => false

theorem collapse_space {t : Token} (ts : List Token) (h : t.isSpace = true) :
    collapse (t :: ts) = ⟨.blank, t.col⟩ :: skipSpaces (collapse ts) := by
  rw [collapse, if_pos h]

theorem collapse_other {t : Token} (ts : List Token) (h : t.isSpace = false) : collapse (t :: ts) = t :: collapse ts := by
  rw [collapse, if_neg (by simp [h])]

theorem skipSpaces_collapse (ts : List Token) : skipSpaces (collapse ts) = collapse (skipSpaces ts) := by
  induction ts with
  | nil => rfl
  | cons t ts ih =>
    cases h : t.isSpace with
    | true => rw [collapse_space ts h, skipSpaces_space _ rfl, skipSpaces_skipSpaces, skipSpaces_space ts h, ih]
    | false => rw [collapse_other ts h, skipSpaces_other _ h, skipSpaces_other ts h, collapse_other ts h]

theorem splitsHere_skipSpaces (ts : List Token) : splitsHere (skipSpaces ts) = false := by
  cases h : skipSpaces ts with
  | nil => rfl
  | cons t rest => rw [splitsHere, isSpace_of_skipSpaces h, Bool.false_and]

theorem splitsMinus_skipSpaces {ts : List Token} (h : splitsMinus ts = false) : splitsMinus (skipSpaces ts) = false := by
  induction ts with
  | nil => rfl
  | cons t ts ih =>
    cases hs : t.isSpace with
    | true =>
      rw [skipSpaces_space ts hs]
      simp only [splitsMinus, Bool.or_eq_false_iff] at h
      exact ih h.2
    | false => rwa [skipSpaces_other ts hs]

/-- Of the first token it only matters whether it is a space. -/
theorem startsNegation_congr {s s' : Token} (ts : List Token) (h : s.isSpace = s'.isSpace) :
    startsNegation (s :: ts) = startsNegation (s' :: ts) := by
  rcases ts with _ | ⟨m, _ | ⟨t, ts⟩⟩
  · rfl
  · rfl
  · simp only [startsNegation, h]

/-- No minus comes second if a space does. -/
theorem startsNegation_of_spaces {s m : Token} (ts : List Token) (h : m.isSpace = true) :
    startsNegation (s :: m :: ts) = false := by
  refine startsNegation_of_not_minus (fun hm => ?_) s ts
  rw [Token.isSpace, hm] at h
  cases h

/-- Behind a space and another token, only the first token of what follows matters. -/
theorem startsNegation_collapse_third (s m : Token) (ts : List Token) :
    startsNegation (s :: m :: collapse ts) = startsNegation (s :: m :: ts) := by
  cases ts with
  | nil => rfl
  | cons t ts =>
    cases h : t.isSpace with
    | true =>
      rw [collapse_space ts h]
      have hblank : (⟨.blank, t.col⟩ : Token).isSpace = true := rfl
      simp only [startsNegation, h, hblank, Bool.not_true, Bool.and_false, Bool.false_and]
    | false =>
      rw [collapse_other ts h]
      rfl

/-- Where no longer run splits a minus from what is before it, a minus begins a negation behind the collapsed run iff
it did behind the run. -/
theorem startsNegation_collapse {ts : List Token} (h : splitsHere ts = false) :
    startsNegation (collapse ts) = startsNegation ts := by
  induction ts with
  | nil => rfl
  | cons s ts ih =>
    cases hs : s.isSpace with
    | false => rw [collapse_other ts hs, startsNegation_of_not_space _ hs, startsNegation_of_not_space _ hs]
    | true =>
      rw [collapse_space ts hs]
      simp only [splitsHere, hs, Bool.true_and, Bool.or_eq_false_iff] at h
      cases ts with
      | nil => rfl
      | cons m ts =>
        cases hm : m.isSpace with
        | true =>
          have hrun := ih h.2
          rw [collapse_space ts hm] at hrun ⊢
          rw [skipSpaces_space _ rfl, skipSpaces_skipSpaces, startsNegation_of_spaces ts hm]
          have hcol : startsNegation (⟨.blank, s.col⟩ :: skipSpaces (collapse ts)) =
              startsNegation (⟨.blank, m.col⟩ :: skipSpaces (collapse ts)) := startsNegation_congr _ rfl
          rw [hcol, hrun, h.1]
        | false =>
          rw [collapse_other ts hm, skipSpaces_other _ hm, startsNegation_collapse_third]
          exact startsNegation_congr (m :: ts) hs.symm

theorem isNegatable_collapse (ts : List Token) : isNegatable (collapse ts) = isNegatable ts := by
  cases ts with
  | nil => rfl
  | cons t ts =>
    cases h : t.isSpace with
    | false =>
      rw [collapse_other ts h]
      rfl
    | true =>
      rw [collapse_space ts h]
      obtain ⟨kind, col⟩ := t
      cases kind <;> first | rfl | cases h

/-- The parser is blind to the length of a run of spaces, if no longer run stands before a minus that splits off. -/
theorem blind_collapse :
    Blind (fun ts us => splitsMinus ts = false ∧ us = collapse ts)
      (fun ts us => splitsHere ts = false ∧ splitsMinus ts = false ∧ us = collapse ts) where
  anywhere := fun ⟨_, h⟩ => h
  next := by
    rintro ts us ⟨h, rfl⟩
    have hskip := splitsMinus_skipSpaces h
    rw [skipSpaces_collapse]
    cases hs : skipSpaces ts with
    | nil => exact .inl ⟨rfl, rfl⟩
    | cons t rest =>
      have ht : t.isSpace = false := isSpace_of_skipSpaces hs
      rw [hs] at hskip
      simp only [splitsMinus, Bool.or_eq_false_iff, Bool.and_eq_false_iff] at hskip
      refine .inr ⟨t, rest, collapse rest, rfl, collapse_other rest ht, ⟨hskip.2, rfl⟩, fun hclose => ?_, fun _ => ?_⟩
      · exact ⟨hskip.1.resolve_left (by simp [hclose]), hskip.2, rfl⟩
      · exact (isNegatable_collapse rest).symm
  skip := by
    rintro ts us ⟨-, h, rfl⟩
    exact ⟨splitsHere_skipSpaces ts, splitsMinus_skipSpaces h, skipSpaces_collapse ts⟩
  negation := by
    rintro ts us ⟨h, -, rfl⟩
    exact (startsNegation_collapse h).symm

end Parsing

open Parsing

/-- **Spaces and continuations only separate.** With every run of blanks and continuations made one blank, a line has
the same expressions, or is refused with the same error, unless a run of two or more of them stands between the end of an
operand and a minus that the next token leans on. -/
theorem parseLine_collapse {ts : List Token} (h : splitsMinus ts = false) : parseLine (collapse ts) = parseLine ts :=
  (parseLine_blind blind_collapse ⟨h, rfl⟩).symm

/-- A product that goes on in the next line, behind a negation that a single blank sets off: `3 -2 \`, ` * :X`. -/
theorem parseLine_collapse_product :
    splitsMinus [⟨.integer 3, 0⟩, ⟨.blank, 1⟩, ⟨.op .minus, 2⟩, ⟨.integer 2, 3⟩, ⟨.blank, 4⟩, ⟨.lineCont, 5⟩, ⟨.blank, 0⟩,
      ⟨.op .times, 1⟩, ⟨.blank, 2⟩, ⟨.var "X", 3⟩, ⟨.lineEnd, 5⟩] = false ∧
    collapse [⟨.integer 3, 0⟩, ⟨.blank, 1⟩, ⟨.op .minus, 2⟩, ⟨.integer 2, 3⟩, ⟨.blank, 4⟩, ⟨.lineCont, 5⟩, ⟨.blank, 0⟩,
      ⟨.op .times, 1⟩, ⟨.blank, 2⟩, ⟨.var "X", 3⟩, ⟨.lineEnd, 5⟩] =
      [⟨.integer 3, 0⟩, ⟨.blank, 1⟩, ⟨.op .minus, 2⟩, ⟨.integer 2, 3⟩, ⟨.blank, 4⟩, ⟨.op .times, 1⟩, ⟨.blank, 2⟩,
        ⟨.var "X", 3⟩, ⟨.lineEnd, 5⟩] ∧
    parseLine (collapse [⟨.integer 3, 0⟩, ⟨.blank, 1⟩, ⟨.op .minus, 2⟩, ⟨.integer 2, 3⟩, ⟨.blank, 4⟩, ⟨.lineCont, 5⟩,
      ⟨.blank, 0⟩, ⟨.op .times, 1⟩, ⟨.blank, 2⟩, ⟨.var "X", 3⟩, ⟨.lineEnd, 5⟩]) =
      parseLine [⟨.integer 3, 0⟩, ⟨.blank, 1⟩, ⟨.op .minus, 2⟩, ⟨.integer 2, 3⟩, ⟨.blank, 4⟩, ⟨.lineCont, 5⟩, ⟨.blank, 0⟩,
        ⟨.op .times, 1⟩, ⟨.blank, 2⟩, ⟨.var "X", 3⟩, ⟨.lineEnd, 5⟩] :=
  ⟨by decide, by decide, parseLine_collapse (by decide)⟩

/-- Behind a blank and a continuation, `-:B` is subtracted; behind a single blank it is an expression of its own:
`:A \`, `-:B`. -/
theorem parseLine_collapse_split :
    parseLine [⟨.var "A", 0⟩, ⟨.blank, 2⟩, ⟨.lineCont, 3⟩, ⟨.op .minus, 0⟩, ⟨.var "B", 1⟩, ⟨.lineEnd, 3⟩] =
      .ok [.binary .minus (.var "A") (.var "B")] ∧
    parseLine (collapse [⟨.var "A", 0⟩, ⟨.blank, 2⟩, ⟨.lineCont, 3⟩, ⟨.op .minus, 0⟩, ⟨.var "B", 1⟩, ⟨.lineEnd, 3⟩]) =
      .ok [.var "A", .neg (.var "B")] := by
  constructor
  · cbv
  · cbv

end TurtleLogo
