import Mathlib.Data.List.TakeWhile
import TurtleLogo.Proofs.Parser.Equations

/-!
# The margin of a line

Spaces and line ends behind the last expression of a line say nothing. A line that can be read is read just so when they
are taken off, or when one line end is left of them.

* `Token.isMargin` : a space or a line end;
* `Trims ts us` : `us` is `ts` with less margin, `Trims.skipSpaces_cases` : what comes next in both;
* `Follows` : what is read of the one is read of the other;
* `readExpression_follows` and its companions : each part of the parser;
* `parseLine_trims` : a line.
-/

namespace TurtleLogo

def Token.isMargin (t : Token) : Bool := t.isSpace || t.kind == .lineEnd

namespace Parsing

/-- The second list is the first with the margin that ends it taken off, or cut down to a line end if it has one. -/
inductive Trims : List Token → List Token → Prop
  | off {ts : List Token} (h : ∀ t ∈ ts, t.isMargin = true) : Trims ts []
  | cut {ts : List Token} (h : ∀ t ∈ ts, t.isMargin = true) (hend : ∃ t ∈ ts, t.kind = .lineEnd) (col : Nat) :
      Trims ts [⟨.lineEnd, col⟩]
  | same (t : Token) {ts us : List Token} (h : Trims ts us) : Trims (t :: ts) (t :: us)

theorem Trims.append (core : List Token) {ts us : List Token} (h : Trims ts us) : Trims (core ++ ts) (core ++ us) := by
  induction core with
  | nil => exact h
  | cons t core ih => exact .same t ih

/-! ## Looking ahead -/

/-- Whether no token, or a line end, comes first. -/
def atEnd : List Token → Bool
  | [] => true
  | t :: _ => t.kind == .lineEnd

theorem atEnd_skipSpaces {ts : List Token} (h : ∀ t ∈ ts, t.isMargin = true) : atEnd (skipSpaces ts) = true := by
  cases hs : skipSpaces ts with
  | nil => rfl
  | cons t rest =>
    have hmargin := h t ((suffix_of_skipSpaces hs).subset List.mem_cons_self)
    simp only [Token.isMargin, isSpace_of_skipSpaces hs, Bool.false_or] at hmargin
    exact hmargin

theorem mem_skipSpaces {ts : List Token} {t : Token} (h : t ∈ ts) (ht : t.kind = .lineEnd) : t ∈ skipSpaces ts := by
  rw [← List.takeWhile_append_dropWhile (p := Token.isSpace) (l := ts)] at h
  rcases List.mem_append.mp h with h | h
  · have hspace := List.mem_takeWhile_imp h
    rw [Token.isSpace, ht] at hspace
    cases hspace
  · exact h

theorem Trims.skipSpaces_cases {ts us : List Token} (h : Trims ts us) :
    (∃ t rest rest', skipSpaces ts = t :: rest ∧ skipSpaces us = t :: rest' ∧ Trims rest rest') ∨
      (atEnd (skipSpaces ts) = true ∧ (skipSpaces us = [] ∨ ∃ col, skipSpaces us = [⟨.lineEnd, col⟩]) ∧
        Trims (skipSpaces ts) (skipSpaces us)) := by
  induction h with
  | off h =>
    refine .inr ⟨atEnd_skipSpaces h, .inl rfl, .off fun t ht => ?_⟩
    exact h t ((List.dropWhile_suffix _).subset ht)
  | cut h hend col =>
    obtain ⟨t, ht, hkind⟩ := hend
    refine .inr ⟨atEnd_skipSpaces h, .inr ⟨col, rfl⟩, .cut (fun t ht => ?_) ⟨t, mem_skipSpaces ht hkind, hkind⟩ col⟩
    exact h t ((List.dropWhile_suffix _).subset ht)
  | @same t ts us h ih =>
    cases hspace : t.isSpace with
    | true =>
      rw [skipSpaces_space ts hspace, skipSpaces_space us hspace]
      exact ih
    | false =>
      rw [skipSpaces_other ts hspace, skipSpaces_other us hspace]
      exact .inl ⟨t, ts, us, rfl, rfl, h⟩

theorem kind_of_isMargin {t : Token} (h : t.isMargin = true) : t.isSpace = true ∨ t.kind = .lineEnd := by
  simpa [Token.isMargin] using h

theorem Trims.startsNegation_eq {ts us : List Token} (h : Trims ts us) : startsNegation ts = startsNegation us := by
  have hminus (t : Token) (ht : t.isMargin = true) : (t.kind == .op .minus) = false := by
    rcases kind_of_isMargin ht with hs | hk
    · obtain ⟨kind, col⟩ := t
      cases kind <;> first | rfl | cases hs
    · rw [hk]
      rfl
  have hnext (t : Token) (ht : t.isMargin = true) : (!t.isSpace && t.kind != .lineEnd) = false := by
    rcases kind_of_isMargin ht with hs | hk
    · simp [hs]
    · simp [hk]
  have hmargin {s : Token} {ts : List Token} (h : ∀ t ∈ ts, t.isMargin = true) : startsNegation (s :: ts) = false := by
    rcases ts with _ | ⟨m, _ | ⟨t, ts⟩⟩
    · rfl
    · rfl
    · simp only [startsNegation, hminus m (h m List.mem_cons_self), Bool.and_false, Bool.false_and]
  have hpair {s m : Token} {ts : List Token} (h : ∀ t ∈ ts, t.isMargin = true) :
      startsNegation (s :: m :: ts) = false := by
    cases ts with
    | nil => rfl
    | cons t ts =>
      have ht := hnext t (h t List.mem_cons_self)
      simp only [startsNegation, Bool.and_assoc, ht, Bool.and_false]
  have hnone {ts : List Token} (h : ∀ t ∈ ts, t.isMargin = true) : startsNegation ts = false := by
    cases ts with
    | nil => rfl
    | cons s ts => exact hmargin fun t ht => h t (List.mem_cons_of_mem _ ht)
  cases h with
  | off h => exact hnone h
  | cut h _ _ => exact hnone h
  | same s h =>
    cases h with
    | off h => exact hmargin h
    | cut h _ _ => exact hmargin h
    | same m h =>
      cases h with
      | off h => exact hpair h
      | cut h _ _ =>
        rw [hpair h]
        simp [startsNegation]
      | same t h => rfl

theorem Trims.endsOperand_eq {ts us : List Token} (h : Trims ts us) :
    endsOperand (skipSpaces ts) = endsOperand (skipSpaces us) := by
  rcases h.skipSpaces_cases with ⟨t, rest, rest', hs, hs', -⟩ | ⟨hend, hu, -⟩
  · rw [hs, hs']
    rfl
  · have htrue : endsOperand (skipSpaces ts) = true := by
      cases hs : skipSpaces ts with
      | nil => rfl
      | cons t rest =>
        rw [hs] at hend
        simp only [endsOperand, eq_of_beq hend]
    rcases hu with hu | ⟨col, hu⟩
    · rw [htrue, hu]
      rfl
    · rw [htrue, hu]
      rfl

theorem Trims.isNegatable_eq {ts us : List Token} (h : Trims ts us) : isNegatable ts = isNegatable us := by
  have hmargin {ts : List Token} (h : ∀ t ∈ ts, t.isMargin = true) : isNegatable ts = false := by
    cases ts with
    | nil => rfl
    | cons t ts =>
      obtain ⟨kind, col⟩ := t
      rcases kind_of_isMargin (h _ List.mem_cons_self) with hs | hk
      · cases kind <;> first | rfl | cases hs
      · cases hk
        rfl
  cases h with
  | off h => exact hmargin h
  | cut h _ _ => exact hmargin h
  | same t h => rfl

theorem Trims.startsCall_eq {ts us : List Token} (h : Trims ts us) :
    startsCall (skipSpaces ts) = startsCall (skipSpaces us) := by
  rcases h.skipSpaces_cases with ⟨t, rest, rest', hs, hs', -⟩ | ⟨hend, hu, -⟩
  · rw [hs, hs']
    obtain ⟨kind, col⟩ := t
    cases kind <;> rfl
  · have hfalse : startsCall (skipSpaces ts) = false := by
      rcases hs : skipSpaces ts with _ | ⟨⟨kind, col⟩, rest⟩
      · rfl
      · rw [hs] at hend
        cases kind <;> first | rfl | cases hend
    rcases hu with hu | ⟨col, hu⟩
    · rw [hfalse, hu]
      rfl
    · rw [hfalse, hu]
      rfl

/-- Both begin with the same variadic operator, or neither with one. -/
theorem Trims.variadic?_cases {ts us : List Token} (h : Trims ts us) :
    (variadic? (skipSpaces ts) = none ∧ variadic? (skipSpaces us) = none) ∨
      ∃ o rest rest', variadic? (skipSpaces ts) = some (o, rest) ∧ variadic? (skipSpaces us) = some (o, rest') ∧
        Trims rest rest' := by
  rcases h.skipSpaces_cases with ⟨⟨kind, col⟩, rest, rest', hs, hs', htrims⟩ | ⟨hend, hu, -⟩
  · rw [hs, hs']
    cases kind with
    | op o =>
      simp only [variadic?]
      split
      · exact .inr ⟨o, rest, rest', rfl, rfl, htrims⟩
      · exact .inl ⟨rfl, rfl⟩
    | _ => exact .inl ⟨rfl, rfl⟩
  · have hnone : variadic? (skipSpaces ts) = none := by
      rcases hs : skipSpaces ts with _ | ⟨⟨kind, col⟩, rest⟩
      · rfl
      · rw [hs] at hend
        cases kind <;> first | rfl | cases hend
    rcases hu with hu | ⟨col, hu⟩
    · exact .inl ⟨hnone, by rw [hu]; rfl⟩
    · exact .inl ⟨hnone, by rw [hu]; rfl⟩

/-! ## The parts of the parser -/

/-- What the first reads the second reads too, and they leave the same up to margin. -/
def Follows {α : Type} (x y : Except ParseError (α × List Token)) : Prop :=
  ∀ a rest, x = .ok (a, rest) → ∃ rest', y = .ok (a, rest') ∧ Trims rest rest'

section Follows

variable {α β : Type}

theorem Follows.error (e : ParseError) (y : Except ParseError (α × List Token)) : Follows (.error e) y := by
  intro a rest h
  cases h

theorem Follows.ok (a : α) {rest rest' : List Token} (h : Trims rest rest') :
    Follows (.ok (a, rest)) (.ok (a, rest')) := by
  rintro _ _ ⟨⟩
  exact ⟨rest', rfl, h⟩

theorem Follows.bind {x y : Except ParseError (α × List Token)}
    {f g : α × List Token → Except ParseError (β × List Token)} (h : Follows x y)
    (hf : ∀ a rest rest', x = .ok (a, rest) → Trims rest rest' → Follows (f (a, rest)) (g (a, rest'))) :
    Follows (x >>= f) (y >>= g) := by
  rcases x with e | ⟨a, rest⟩
  · exact Follows.error e _
  · obtain ⟨rest', rfl, htrims⟩ := h a rest rfl
    exact hf a rest rest' rfl htrims

end Follows

theorem readPrimary_atEnd {ts : List Token} (h : atEnd (skipSpaces ts) = true) : ∃ e, readPrimary ts = .error e := by
  cases hs : skipSpaces ts with
  | nil => exact ⟨_, readPrimary_nil hs⟩
  | cons t rest =>
    rw [hs] at h
    rw [readPrimary_cons hs]
    simp only [eq_of_beq h]
    exact ⟨_, rfl⟩

theorem readSequence_atEnd {opener : Token} {bracket : Bracket} {ts : List Token}
    (h : atEnd (skipSpaces ts) = true) : ∃ e, readSequence opener bracket ts = .error e := by
  cases hs : skipSpaces ts with
  | nil => exact ⟨_, readSequence_nil hs⟩
  | cons t rest =>
    rw [hs] at h
    rw [readSequence_cons hs]
    simp only [eq_of_beq h]
    exact ⟨_, rfl⟩

mutual

theorem readExpression_follows (floor : Nat) {ts us : List Token} (h : Trims ts us) :
    Follows (readExpression floor ts) (readExpression floor us) := by
  rw [readExpression_eq, readExpression_eq, h.startsCall_eq]
  refine (readPrimary_follows h).bind fun first rest rest' hfirst htrims => ?_
  have := length_lt_of_readPrimary hfirst
  dsimp only
  split
  · exact .ok first htrims
  · exact readClimb_follows floor first htrims
termination_by 3 * ts.length + 1

theorem readClimb_follows (floor : Nat) (left : Node) {ts us : List Token} (h : Trims ts us) :
    Follows (readClimb floor left ts) (readClimb floor left us) := by
  have hn := h.startsNegation_eq
  cases hneg : startsNegation ts with
  | true =>
    rw [readClimb_of_negation hneg, readClimb_of_negation (hn.symm.trans hneg)]
    exact .ok left h
  | false =>
    have hneg' := hn.symm.trans hneg
    rcases h.skipSpaces_cases with ⟨⟨kind, col⟩, rest, rest', hs, hs', htrims⟩ | ⟨hend, hu, htrims⟩
    · by_cases hop : ∃ o, kind = .op o
      · obtain ⟨o, rfl⟩ := hop
        have := length_lt_of_skipSpaces hs
        rw [readClimb_of_op hneg hs, readClimb_of_op hneg' hs', htrims.endsOperand_eq]
        split
        · exact .ok left (.same _ htrims)
        · split
          · exact .error _ _
          · refine (readExpression_follows o.level htrims).bind fun right more more' hr htrims => ?_
            have := length_lt_of_readExpression hr
            exact readClimb_follows floor (.binary o left right) htrims
      · have hne (l more : List Token) (hl : skipSpaces l = ⟨kind, col⟩ :: more) :
            ∀ o col rest, skipSpaces l ≠ ⟨.op o, col⟩ :: rest := by
          intro o col' rest'' heq
          rw [hl] at heq
          cases heq
          exact hop ⟨o, rfl⟩
        rw [readClimb_of_other hneg (hne ts rest hs), readClimb_of_other hneg' (hne us rest' hs'), hs, hs']
        exact .ok left (.same _ htrims)
    · have hne : ∀ o col rest, skipSpaces ts ≠ ⟨.op o, col⟩ :: rest := by
        intro o col rest heq
        rw [heq] at hend
        cases hend
      have hne' : ∀ o col rest, skipSpaces us ≠ ⟨.op o, col⟩ :: rest := by
        intro o col rest heq
        rw [heq] at hu
        rcases hu with hu | ⟨col', hu⟩
        · cases hu
        · cases hu
      rw [readClimb_of_other hneg hne, readClimb_of_other hneg' hne']
      exact .ok left htrims
termination_by 3 * ts.length

theorem readPrimary_follows {ts us : List Token} (h : Trims ts us) : Follows (readPrimary ts) (readPrimary us) := by
  rcases h.skipSpaces_cases with ⟨⟨kind, col⟩, rest, rest', hs, hs', htrims⟩ | ⟨hend, -, -⟩
  · have := length_lt_of_skipSpaces hs
    rw [readPrimary_cons hs, readPrimary_cons hs']
    cases kind with
    | integer n =>
      dsimp only
      generalize Number.ofInt? n = x
      cases x with
      | none => exact .error _ _
      | some x => exact .ok _ htrims
    | float | var | word | name => exact .ok _ htrims
    | opener b =>
      cases b with
      | square =>
        refine (readSequence_follows _ .square htrims).bind fun items more more' _ htrims => ?_
        exact .ok _ htrims
      | round =>
        rcases htrims.variadic?_cases with ⟨hv, hv'⟩ | ⟨o, operands, operands', hv, hv', hoperands⟩
        · dsimp only
          simp only [hv, hv']
          refine (readSequence_follows _ .round htrims).bind fun items more more' _ htrims => ?_
          exact .ok _ htrims
        · have := length_lt_of_variadic? hv
          have := length_skipSpaces_le rest
          dsimp only
          simp only [hv, hv']
          refine (readSequence_follows _ .round hoperands).bind fun items more more' _ htrims => ?_
          exact .ok _ htrims
    | op o =>
      dsimp only
      rw [htrims.isNegatable_eq, htrims.endsOperand_eq]
      split
      · exact (readPrimary_follows htrims).bind fun operand more more' _ htrims => .ok _ htrims
      · split
        · exact .error _ _
        · refine (readExpression_follows 0 htrims).bind fun left more more' hl htrims => ?_
          have := length_lt_of_readExpression hl
          dsimp only
          rw [htrims.endsOperand_eq]
          split
          · exact .error _ _
          · exact (readExpression_follows 0 htrims).bind fun right last last' _ htrims => .ok _ htrims
    | _ => exact .error _ _
  · obtain ⟨e, he⟩ := readPrimary_atEnd hend
    rw [he]
    exact .error e _
termination_by 3 * ts.length

theorem readSequence_follows (opener : Token) (bracket : Bracket) {ts us : List Token} (h : Trims ts us) :
    Follows (readSequence opener bracket ts) (readSequence opener bracket us) := by
  rcases h.skipSpaces_cases with ⟨⟨kind, col⟩, rest, rest', hs, hs', htrims⟩ | ⟨hend, -, -⟩
  · rw [readSequence_cons hs, readSequence_cons hs']
    have hitems : Follows
        (readExpression 0 ts >>= fun (item, rest') =>
          readSequence opener bracket rest' >>= fun (items, rest'') => .ok (item :: items, rest''))
        (readExpression 0 us >>= fun (item, rest') =>
          readSequence opener bracket rest' >>= fun (items, rest'') => .ok (item :: items, rest'')) := by
      refine (readExpression_follows 0 h).bind fun item more more' hr htrims => ?_
      have := length_lt_of_readExpression hr
      refine (readSequence_follows opener bracket htrims).bind fun items last last' _ htrims => ?_
      exact .ok _ htrims
    cases kind with
    | closer b =>
      dsimp only
      split
      · exact .ok _ htrims
      · exact .error _ _
    | lineEnd => exact .error _ _
    | _ => exact hitems
  · obtain ⟨e, he⟩ := readSequence_atEnd hend
    rw [he]
    exact .error e _
termination_by 3 * ts.length + 2

end

end Parsing

open Parsing

/-- **A line without its margin** reads as it does with it. -/
theorem parseLine_trims {ts us : List Token} (h : Trims ts us) {items : List Node} (hts : parseLine ts = .ok items) :
    parseLine us = .ok items := by
  rcases h.skipSpaces_cases with ⟨⟨kind, col⟩, rest, rest', hs, hs', htrims⟩ | ⟨hend, hu, -⟩
  · rw [parseLine_cons hs] at hts
    rw [parseLine_cons hs']
    have hitems (hts : (readExpression 0 ts >>= fun (item, rest') =>
          parseLine rest' >>= fun items => .ok (item :: items)) = .ok items) :
        (readExpression 0 us >>= fun (item, rest') =>
          parseLine rest' >>= fun items => .ok (item :: items)) = .ok items := by
      rcases hr : readExpression 0 ts with e | ⟨item, more⟩
      · rw [hr] at hts
        cases hts
      · have := length_lt_of_readExpression hr
        obtain ⟨more', hr', htrims⟩ := readExpression_follows 0 h item more hr
        rw [hr] at hts
        rw [hr']
        change (parseLine more >>= fun items => .ok (item :: items)) = .ok items at hts
        change (parseLine more' >>= fun items => .ok (item :: items)) = .ok items
        cases hmore : parseLine more with
        | error e =>
          rw [hmore] at hts
          cases hts
        | ok others =>
          rw [hmore] at hts
          rw [parseLine_trims htrims hmore]
          exact hts
    cases kind with
    | lineEnd =>
      dsimp only at hts ⊢
      cases hrest : skipSpaces rest with
      | cons u more =>
        rw [hrest] at hts
        cases hts
      | nil =>
        rw [hrest] at hts
        have hrest' : skipSpaces rest' = [] := by
          rcases htrims.skipSpaces_cases with ⟨t, more, more', hmore, -, -⟩ | ⟨-, hu | ⟨col', hu⟩, hless⟩
          · rw [hrest] at hmore
            cases hmore
          · exact hu
          · rw [hrest, hu] at hless
            cases hless with
            | cut _ hmem _ =>
              obtain ⟨t, ht, -⟩ := hmem
              cases ht
        rw [hrest']
        exact hts
    | closer b => cases hts
    | _ => exact hitems hts
  · have hnil : items = [] := by
      cases hs : skipSpaces ts with
      | nil =>
        rw [parseLine_nil hs] at hts
        exact (Except.ok.inj hts).symm
      | cons t rest =>
        rw [hs] at hend
        rw [parseLine_cons hs] at hts
        simp only [eq_of_beq hend] at hts
        split at hts
        · exact (Except.ok.inj hts).symm
        · cases hts
    subst hnil
    rcases hu with hu | ⟨col, hu⟩
    · exact parseLine_nil hu
    · rw [parseLine_cons hu]
      rfl
termination_by ts.length

end TurtleLogo
