import TurtleLogo.Proofs.Parser.Blame

/-!
# How far the parser looks

Behind an operand the parser looks ahead over a space, a minus and one more token. So it sees past no token that is
neither a space nor a minus, and what stands in brackets is read in the same way whatever follows the closing bracket.

* `Firm` : tokens with one among them that the parser does not look past;
* `Extends` : what is read does not change with more tokens behind the rest;
* `readExpression_append` and its companions : each part of the parser.
-/

namespace TurtleLogo

namespace Parsing

/-- Tokens with one among them that is neither a space nor a minus. -/
def Firm (ts : List Token) : Prop := ∃ t ∈ ts, t.isSpace = false ∧ t.kind ≠ .op .minus

theorem Firm.mono {ts us : List Token} (h : Firm ts) (hsuffix : ts <:+ us) : Firm us := by
  obtain ⟨t, ht, hfirm⟩ := h
  exact ⟨t, hsuffix.subset ht, hfirm⟩

/-! ## Looking ahead -/

variable {ts rest : List Token} {t : Token}

theorem skipSpaces_append (hs : skipSpaces ts = t :: rest) (more : List Token) :
    skipSpaces (ts ++ more) = t :: (rest ++ more) := by
  rw [skipSpaces] at hs ⊢
  rw [List.dropWhile_append, hs]
  rfl

theorem Firm.skipSpaces_cons (h : Firm ts) : ∃ t rest, skipSpaces ts = t :: rest := by
  obtain ⟨t, ht, hspace, -⟩ := h
  refine List.exists_cons_of_ne_nil fun hnil => ?_
  rw [List.dropWhile_eq_nil_iff.mp hnil t ht] at hspace
  cases hspace

theorem endsOperand_append (h : endsOperand (skipSpaces ts) = false) (more : List Token) :
    endsOperand (skipSpaces (ts ++ more)) = false := by
  rcases hs : skipSpaces ts with _ | ⟨t, rest⟩
  · rw [hs] at h
    cases h
  · rw [skipSpaces_append hs]
    rwa [hs] at h

theorem variadic?_append (hs : skipSpaces ts = t :: rest) (more : List Token) :
    variadic? (skipSpaces (ts ++ more)) = (variadic? (skipSpaces ts)).map fun p => (p.1, p.2 ++ more) := by
  rw [skipSpaces_append hs, hs]
  obtain ⟨kind, col⟩ := t
  cases kind with
  | op o =>
    simp only [variadic?]
    split <;> rfl
  | _ => rfl

theorem isNegatable_append (h : endsOperand (skipSpaces ts) = false) (more : List Token) :
    isNegatable (ts ++ more) = isNegatable ts := by
  cases ts with
  | nil => cases h
  | cons t ts => rfl

theorem Firm.startsNegation_append (h : Firm ts) (more : List Token) :
    startsNegation (ts ++ more) = startsNegation ts := by
  obtain ⟨t, ht, hspace, hminus⟩ := h
  rcases ts with _ | ⟨s, _ | ⟨m, _ | ⟨u, ts⟩⟩⟩
  · cases ht
  · obtain rfl := List.mem_singleton.mp ht
    exact startsNegation_of_not_space more hspace
  · rcases List.mem_cons.mp ht with rfl | ht
    · exact startsNegation_of_not_space _ hspace
    · obtain rfl := List.mem_singleton.mp ht
      exact startsNegation_of_not_minus hminus s more
  · rfl

/-! ## The parts of the parser -/

/-- What `x` reads `y` reads too, and leaves `more` behind the rest, wherever the rest has `P`. -/
def Extends {α : Type} (P : List Token → Prop) (more : List Token) (x y : Except ParseError (α × List Token)) : Prop :=
  ∀ a rest, x = .ok (a, rest) → P rest → y = .ok (a, rest ++ more)

section Extends

variable {α β : Type} {P Q : List Token → Prop} {more : List Token}

theorem Extends.ok (a : α) (rest : List Token) : Extends P more (.ok (a, rest)) (.ok (a, rest ++ more)) := by
  rintro _ _ ⟨⟩ -
  rfl

theorem Extends.error (e : ParseError) (y : Except ParseError (α × List Token)) : Extends P more (.error e) y := nofun

theorem Extends.mono {x y : Except ParseError (α × List Token)} (h : Extends P more x y) (hQ : ∀ rest, Q rest → P rest) :
    Extends Q more x y := fun a rest hread hlast => h a rest hread (hQ rest hlast)

theorem Extends.bind {x y : Except ParseError (α × List Token)} {f g : α × List Token → Except ParseError (β × List Token)}
    (h : Extends P more x y) (hrest : ∀ a rest, Gives (f (a, rest)) fun r => Q r.2 → P rest)
    (hf : ∀ a rest, x = .ok (a, rest) → Extends Q more (f (a, rest)) (g (a, rest ++ more))) :
    Extends Q more (x >>= f) (y >>= g) := by
  rcases x with e | ⟨a, rest⟩
  · exact .error e _
  · intro b last hread hlast
    rw [h a rest rfl (hrest a rest _ hread hlast)]
    exact hf a rest rfl b last hread hlast

end Extends

theorem readClimb_suffix (floor : Nat) (left : Node) (ts : List Token) :
    Gives (readClimb floor left ts) fun r => r.2 <:+ ts := by
  intro r hread
  obtain ⟨leaves, count, h, -⟩ := readClimb_spends floor left ts r hread
  exact h.suffix

theorem readExpression_suffix (floor : Nat) (ts : List Token) :
    Gives (readExpression floor ts) fun r => r.2 <:+ ts := fun r hread =>
  (readExpression_spends floor ts r hread).suffix

/-- Brackets that are closed have a token in them that the parser does not look past. -/
theorem firm_of_readSequence {opener : Token} {bracket : Bracket} (ts : List Token) :
    Gives (readSequence opener bracket ts) fun _ => Firm ts := by
  intro r hread
  obtain ⟨used, hts, hused⟩ := readSequence_spends opener bracket ts r hread
  have hmem : .closer bracket ∈ (said used).flatMap Lexeme.leaf := by
    rw [hused.leaves]
    exact List.mem_append_right _ List.mem_cons_self
  obtain ⟨k, hk, hleaf⟩ := List.mem_flatMap.mp hmem
  obtain ⟨t, ht, rfl⟩ := List.mem_map.mp hk
  obtain ⟨ht, hspace⟩ := List.mem_filter.mp ht
  refine ⟨t, hts ▸ List.mem_append_left _ ht, by simpa using hspace, fun hminus => ?_⟩
  rw [hminus] at hleaf
  cases hleaf

mutual

theorem readExpression_append (floor : Nat) (ts more : List Token) :
    Extends Firm more (readExpression floor ts) (readExpression floor (ts ++ more)) := by
  rcases hs : skipSpaces ts with _ | ⟨t, rest⟩
  · rw [readExpression_eq, readPrimary_nil hs]
    exact .error _ _
  · have hcall : startsCall (skipSpaces (ts ++ more)) = startsCall (skipSpaces ts) := by
      rw [skipSpaces_append hs, hs]
      obtain ⟨kind, col⟩ := t
      cases kind <;> rfl
    rw [readExpression_eq, readExpression_eq, hcall]
    refine (readPrimary_append ts more).bind (fun first rest => ?_) fun first rest hfirst => ?_
    · dsimp only
      split
      · exact .ok id
      · exact fun r hread hr => hr.mono (readClimb_suffix floor first rest r hread)
    · have := length_lt_of_readPrimary hfirst
      dsimp only
      split
      · exact .ok first rest
      · exact readClimb_append floor first rest more
termination_by 4 * ts.length + 2

theorem readClimb_append (floor : Nat) (left : Node) (ts more : List Token) :
    Extends Firm more (readClimb floor left ts) (readClimb floor left (ts ++ more)) := by
  by_cases hfirm : Firm ts
  · have hn := hfirm.startsNegation_append more
    obtain ⟨⟨kind, col⟩, rest, hs⟩ := hfirm.skipSpaces_cons
    have hs' := skipSpaces_append hs more
    cases hneg : startsNegation ts with
    | true =>
      rw [readClimb_of_negation hneg, readClimb_of_negation (hn.trans hneg)]
      exact .ok left ts
    | false =>
      have hneg' := hn.trans hneg
      by_cases hop : ∃ o, kind = .op o
      · obtain ⟨o, rfl⟩ := hop
        have := length_lt_of_skipSpaces hs
        rw [readClimb_of_op hneg hs, readClimb_of_op hneg' hs']
        split
        · exact .ok left (⟨.op o, col⟩ :: rest)
        · split
          · exact .error _ _
          · next hmore =>
            rw [endsOperand_append (Bool.eq_false_iff.mpr hmore), if_neg Bool.false_ne_true]
            refine (readExpression_append o.level rest more).bind (fun right rest' r hread hr => ?_)
              fun right rest' hright => ?_
            · exact hr.mono (readClimb_suffix floor (.binary o left right) rest' r hread)
            · have := length_lt_of_readExpression hright
              exact readClimb_append floor (.binary o left right) rest' more
      · have hne {more : List Token} : ∀ o col' rest', (⟨kind, col⟩ : Token) :: more ≠ ⟨.op o, col'⟩ :: rest' := by
          rintro o col' rest' ⟨⟩
          exact hop ⟨o, rfl⟩
        rw [readClimb_of_other hneg (hs ▸ hne), readClimb_of_other hneg' (hs' ▸ hne), hs, hs']
        exact .ok left (⟨kind, col⟩ :: rest)
  · exact fun _ _ hread hlast => (hfirm (hlast.mono (readClimb_suffix floor left ts _ hread))).elim
termination_by 4 * ts.length

theorem readBrackets_append {ts rest : List Token} {b : Bracket} {col : Nat}
    (hs : skipSpaces ts = ⟨.opener b, col⟩ :: rest) (more : List Token) :
    Extends (fun _ => True) more (readPrimary ts) (readPrimary (ts ++ more)) := by
  have := length_lt_of_skipSpaces hs
  rw [readPrimary_cons hs, readPrimary_cons (skipSpaces_append hs more)]
  cases b with
  | square => exact (readSequence_append _ .square rest more).bind (fun _ _ _ _ _ => trivial) fun _ _ _ => .ok _ _
  | round =>
    dsimp only
    rcases hs' : skipSpaces rest with _ | ⟨u, rest'⟩
    · rw [readSequence_nil hs']
      exact .error _ _
    · have hv := variadic?_append hs' more
      rw [← hs']
      cases hv' : variadic? (skipSpaces rest) with
      | none =>
        rw [hv'] at hv
        simp only [hv, Option.map_none]
        exact (readSequence_append _ .round rest more).bind (fun _ _ _ _ _ => trivial) fun _ _ _ => .ok _ _
      | some found =>
        obtain ⟨o, operands⟩ := found
        have := length_lt_of_variadic? hv'
        have := length_skipSpaces_le rest
        rw [hv'] at hv
        simp only [hv, Option.map_some]
        exact (readSequence_append _ .round operands more).bind (fun _ _ _ _ _ => trivial) fun _ _ _ => .ok _ _
termination_by 4 * ts.length

theorem readPrimary_append (ts more : List Token) :
    Extends Firm more (readPrimary ts) (readPrimary (ts ++ more)) := by
  rcases hs : skipSpaces ts with _ | ⟨⟨kind, col⟩, rest⟩
  · rw [readPrimary_nil hs]
    exact .error _ _
  · have := length_lt_of_skipSpaces hs
    have hreads := readPrimary_cons hs
    have hreads' := readPrimary_cons (skipSpaces_append hs more)
    cases kind with
    | opener b => exact (readBrackets_append hs more).mono fun _ _ => trivial
    | integer n =>
      rw [hreads, hreads']
      dsimp only
      generalize Number.ofInt? n = x
      cases x with
      | none => exact .error _ _
      | some x => exact .ok _ rest
    | float | var | word | name =>
      rw [hreads, hreads']
      exact .ok _ rest
    | op o =>
      rw [hreads, hreads']
      dsimp only
      by_cases hmore : endsOperand (skipSpaces rest) = false
      · rw [isNegatable_append hmore, hmore, endsOperand_append hmore]
        split
        · exact (readPrimary_append rest more).bind (fun _ _ => .ok id) fun _ _ _ => .ok _ _
        · rw [if_neg Bool.false_ne_true, if_neg Bool.false_ne_true]
          refine (readExpression_append 0 rest more).bind (fun left rest' => ?_) fun left rest' hleft => ?_
          · dsimp only
            split
            · exact .error _
            · exact .bind (readExpression_suffix 0 rest') fun _ _ hsuffix => .ok fun hfirm => hfirm.mono hsuffix
          · have := length_lt_of_readExpression hleft
            dsimp only
            split
            · exact .error _ _
            · next hmore =>
              rw [endsOperand_append (Bool.eq_false_iff.mpr hmore), if_neg Bool.false_ne_true]
              exact (readExpression_append 0 rest' more).bind (fun _ _ => .ok id) fun _ _ _ => .ok _ _
      · -- Nothing that a minus could change the sign of comes next.
        have hneg : ¬ (o = .minus ∧ isNegatable rest = true) := fun h => hmore (endsOperand_of_isNegatable h.2)
        rw [if_neg hneg, if_pos (by simpa using hmore)]
        exact .error _ _
    | _ =>
      rw [hreads]
      exact .error _ _
termination_by 4 * ts.length + 1

theorem readSequence_append (opener : Token) (bracket : Bracket) (ts more : List Token) :
    Extends (fun _ => True) more (readSequence opener bracket ts) (readSequence opener bracket (ts ++ more)) := by
  rcases hs : skipSpaces ts with _ | ⟨⟨kind, col⟩, rest⟩
  · rw [readSequence_nil hs]
    exact .error _ _
  · rw [readSequence_cons hs, readSequence_cons (skipSpaces_append hs more)]
    have hitems : Extends (fun _ => True) more
        (readExpression 0 ts >>= fun (item, rest') =>
          readSequence opener bracket rest' >>= fun (items, rest'') => .ok (item :: items, rest''))
        (readExpression 0 (ts ++ more) >>= fun (item, rest') =>
          readSequence opener bracket rest' >>= fun (items, rest'') => .ok (item :: items, rest'')) := by
      refine (readExpression_append 0 ts more).bind (fun item rest' => ?_) fun item rest' hitem => ?_
      · exact .bind (firm_of_readSequence rest') fun _ _ hfirm => .ok fun _ => hfirm
      · have := length_lt_of_readExpression hitem
        exact (readSequence_append opener bracket rest' more).bind (fun _ _ _ _ _ => trivial) fun _ _ _ => .ok _ _
    cases kind with
    | closer b =>
      dsimp only
      split
      · exact .ok _ rest
      · exact .error _ _
    | lineEnd => exact .error _ _
    | _ => exact hitems
termination_by 4 * ts.length + 3

end

end Parsing

end TurtleLogo
