import TurtleLogo.Proofs.Parser.Equations

/-!
# What the parser gives

The nodes that can be read have an induction principle of their own: a property that every way of building a node keeps
holds of all of them. Inside brackets the nodes are not only built so but read themselves, which is what makes a list of
read expressions different from any list of nodes.

* `Node.IsRead` : a node that some tokens are read as;
* `Gives x P` : everything that `x` can give has `P`;
* `ReadClosed P` : every way of building a node keeps `P`;
* `readExpression_gives`, `Node.IsRead.induct` : then all nodes that can be read have `P`;
* `parseLine_gives` : the items of a line are read.
-/

namespace TurtleLogo

open Parsing

def Node.IsRead (n : Node) : Prop := ∃ ts rest, readExpression 0 ts = .ok (n, rest)

/-- Everything that `x` can give has `P`. -/
def Gives {ε α : Type} (x : Except ε α) (P : α → Prop) : Prop := ∀ a, x = .ok a → P a

theorem Gives.ok {ε α : Type} {P : α → Prop} {a : α} (h : P a) : Gives (.ok a : Except ε α) P := by
  rintro _ ⟨⟩
  exact h

theorem Gives.error {ε α : Type} {P : α → Prop} (e : ε) : Gives (.error e : Except ε α) P := nofun

theorem Gives.bind {ε α β : Type} {x : Except ε α} {f : α → Except ε β} {P : α → Prop} {Q : β → Prop}
    (hx : Gives x P) (hf : ∀ a, x = .ok a → P a → Gives (f a) Q) : Gives (x >>= f) Q := by
  cases x with
  | error e => exact .error e
  | ok a => exact hf a rfl (hx a rfl)

/-- What a second step gives was given to it by a first one. -/
theorem exists_of_bind_ok {ε α β : Type} {x : Except ε α} {f : α → Except ε β} {b : β} (h : x >>= f = .ok b) :
    ∃ a, x = .ok a ∧ f a = .ok b := by
  cases x with
  | error e => cases h
  | ok a => exact ⟨a, rfl, h⟩

/-- Every way in which the parser builds a node keeps `P`. -/
structure ReadClosed (P : Node → Prop) : Prop where
  num : ∀ x, P (.num x)
  word : ∀ s, P (.word s)
  var : ∀ name, P (.var name)
  call : ∀ name, P (.call name)
  list : ∀ {items}, (∀ n ∈ items, n.IsRead ∧ P n) → P (.list items)
  group : ∀ {items}, (∀ n ∈ items, n.IsRead ∧ P n) → P (.group items)
  variadic : ∀ {op items}, (∀ n ∈ items, n.IsRead ∧ P n) → P (.group [.nary op items])
  neg : ∀ {operand}, P operand → P (.neg operand)
  binary : ∀ {op left right}, P left → P right → P (.binary op left right)

section Closed

variable {P : Node → Prop}

mutual

theorem readExpression_gives (hP : ReadClosed P) (floor : Nat) (ts : List Token) :
    Gives (readExpression floor ts) fun r => P r.1 := by
  rw [readExpression_eq]
  refine .bind (readPrimary_gives hP ts) fun ⟨first, rest⟩ h hfirst => ?_
  have := length_lt_of_readPrimary h
  dsimp only
  split
  · exact .ok hfirst
  · exact readClimb_gives hP floor hfirst rest
termination_by 3 * ts.length + 1

theorem readClimb_gives (hP : ReadClosed P) (floor : Nat) {left : Node} (hleft : P left) (ts : List Token) :
    Gives (readClimb floor left ts) fun r => P r.1 := by
  cases hn : startsNegation ts with
  | true =>
    rw [readClimb_of_negation hn]
    exact .ok hleft
  | false =>
    by_cases hop : ∃ o col rest, skipSpaces ts = ⟨.op o, col⟩ :: rest
    · obtain ⟨o, col, rest, ho⟩ := hop
      have := length_lt_of_skipSpaces ho
      rw [readClimb_of_op hn ho]
      split
      · exact .ok hleft
      · split
        · exact .error _
        · refine .bind (readExpression_gives hP o.level rest) fun ⟨right, rest'⟩ h hright => ?_
          have := length_lt_of_readExpression h
          exact readClimb_gives hP floor (hP.binary hleft hright) rest'
    · rw [readClimb_of_other hn fun o col rest ho => hop ⟨o, col, rest, ho⟩]
      exact .ok hleft
termination_by 3 * ts.length

theorem readPrimary_gives (hP : ReadClosed P) (ts : List Token) : Gives (readPrimary ts) fun r => P r.1 := by
  rcases hs : skipSpaces ts with _ | ⟨⟨kind, col⟩, rest⟩
  · rw [readPrimary_nil hs]
    exact .error _
  · have := length_lt_of_skipSpaces hs
    rw [readPrimary_cons hs]
    cases kind with
    | integer n =>
      dsimp only
      cases Number.ofInt? n with
      | some x => exact .ok (hP.num x)
      | none => exact .error _
    | float x => exact .ok (hP.num x)
    | var name => exact .ok (hP.var name)
    | word text => exact .ok (hP.word text)
    | name name => exact .ok (hP.call name)
    | opener b =>
      cases b with
      | square => exact .bind (readSequence_gives hP _ _ rest) fun _ _ hitems => .ok (hP.list hitems)
      | round =>
        dsimp only
        cases hv : variadic? (skipSpaces rest) with
        | none => exact .bind (readSequence_gives hP _ _ rest) fun _ _ hitems => .ok (hP.group hitems)
        | some found =>
          obtain ⟨o, operands⟩ := found
          have := length_lt_of_variadic? hv
          have := length_skipSpaces_le rest
          exact .bind (readSequence_gives hP _ _ operands) fun _ _ hitems => .ok (hP.variadic hitems)
    | op o =>
      dsimp only
      split
      · exact .bind (readPrimary_gives hP rest) fun _ _ hoperand => .ok (hP.neg hoperand)
      · split
        · exact .error _
        · refine .bind (readExpression_gives hP 0 rest) fun ⟨left, rest'⟩ h hleft => ?_
          have := length_lt_of_readExpression h
          dsimp only
          split
          · exact .error _
          · exact .bind (readExpression_gives hP 0 rest') fun _ _ hright => .ok (hP.binary hleft hright)
    | _ => exact .error _
termination_by 3 * ts.length

theorem readSequence_gives (hP : ReadClosed P) (opener : Token) (bracket : Bracket) (ts : List Token) :
    Gives (readSequence opener bracket ts) fun r => ∀ n ∈ r.1, n.IsRead ∧ P n := by
  rcases hs : skipSpaces ts with _ | ⟨⟨kind, col⟩, rest⟩
  · rw [readSequence_nil hs]
    exact .error _
  · rw [readSequence_cons hs]
    have hitems : Gives (readExpression 0 ts >>= fun (item, rest') =>
        readSequence opener bracket rest' >>= fun (items, rest'') => .ok (item :: items, rest''))
        fun r => ∀ n ∈ r.1, n.IsRead ∧ P n := by
      refine .bind (readExpression_gives hP 0 ts) fun ⟨item, rest'⟩ h hitem => ?_
      have := length_lt_of_readExpression h
      refine .bind (readSequence_gives hP opener bracket rest') fun ⟨items, rest''⟩ _ hitems => .ok ?_
      exact List.forall_mem_cons.mpr ⟨⟨⟨ts, rest', h⟩, hitem⟩, hitems⟩
    cases kind with
    | closer b =>
      dsimp only
      split
      · exact .ok nofun
      · exact .error _
    | lineEnd => exact .error _
    | _ => exact hitems
termination_by 3 * ts.length + 2

end

/-- What every way of building a node keeps holds of all nodes that can be read. -/
theorem Node.IsRead.induct (hP : ReadClosed P) {n : Node} (h : n.IsRead) : P n := by
  obtain ⟨ts, rest, h⟩ := h
  exact readExpression_gives hP 0 ts _ h

end Closed

theorem parseLine_gives (ts : List Token) : Gives (parseLine ts) fun items => ∀ n ∈ items, n.IsRead := by
  rcases hs : skipSpaces ts with _ | ⟨⟨kind, col⟩, rest⟩
  · rw [parseLine_nil hs]
    exact .ok nofun
  · rw [parseLine_cons hs]
    have hitems : Gives (readExpression 0 ts >>= fun (item, rest') =>
        parseLine rest' >>= fun items => .ok (item :: items)) fun items => ∀ n ∈ items, n.IsRead := by
      refine .bind (P := fun _ => True) (fun _ _ => trivial) fun ⟨item, rest'⟩ h _ => ?_
      have := length_lt_of_readExpression h
      refine .bind (parseLine_gives rest') fun items _ hitems => .ok ?_
      exact List.forall_mem_cons.mpr ⟨⟨ts, rest', h⟩, hitems⟩
    cases kind with
    | lineEnd =>
      dsimp only
      split
      · exact .ok nofun
      · exact .error _
    | closer b => exact .error _
    | _ => exact hitems
termination_by ts.length

end TurtleLogo
