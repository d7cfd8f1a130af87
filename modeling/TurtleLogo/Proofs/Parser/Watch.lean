import TurtleLogo.Proofs.Parser.Blame

/-!
# The parser under watch

The parser ends because every part of it leaves fewer tokens. How soon it ends, and what it asks of the tokens on its way,
is seen here: the parts of the parser are run again with a limit on how deeply their calls nest and on how often each of
their loops goes round, and every demand for an operand, for a closing bracket or for a primary is noted with the tokens
that come next.

* `Watched` : a run that is limited and takes notes; `Demand` : what is noted;
* `watchExpression`, `watchPrimary`, `watchGroup`, `watchOperator`, `watchSequence` : the parts of the parser, which hand
  less depth to each other, and `watchSpaces`, `watchClimb`, `watchItems`, `watchRest` : their loops;
* `watchLine` : a line, read within limits;
* `Met` : a demand is met, or the parser fails for it;
* `Yields x r` : `x` stays within its limits, ends as `r`, and all its demands are met;
* `watchExpression_yields` and its companions : each part of the parser, with a depth and a number of rounds that are
  linear in the number of tokens;
* `watchLine_yields` : a line.
-/

namespace TurtleLogo

namespace Parsing

/-- What the parser asks of the tokens that come next. -/
inductive Demand where
  | primary
  | operand (op : Token)
  /-- The bracket that closes an opening one, or an expression before it. -/
  | close (opener : Token) (bracket : Bracket)

/-- A run with limits, which notes its demands and the tokens they are made of. There is no outcome, not even an error,
where it goes beyond its limits. -/
abbrev Watched := ExceptT ParseError (StateT (List (Demand × List Token)) Option)

namespace Watched

variable {α : Type}

def exhausted : Watched α := fun _ => none

def ask (d : Demand) (ts : List Token) : Watched Unit := fun asked => some (.ok (), asked ++ [(d, ts)])

def outcome (x : Watched α) : Option (Except ParseError α × List (Demand × List Token)) := x []

end Watched

open Watched

/-! ## Loops -/

def watchSpaces : Nat → List Token → Watched (List Token)
  | 0, _ => exhausted
  | _ + 1, [] => pure []
  | rounds + 1, t :: ts => if t.isSpace then watchSpaces rounds ts else pure (t :: ts)

/-- Makes sure that an operand of `op` can begin. -/
def watchOperand (limit : Nat) (op : Token) (ts : List Token) : Watched Unit := do
  ask (.operand op) ts
  let next ← watchSpaces limit ts
  if endsOperand next then throw (.missingOperand op) else pure ()

/-- Goes on after the operand `left`, where `operand` reads the next one. -/
def watchClimb (operand : Nat → List Token → Watched (Node × List Token)) (limit floor : Nat) :
    Nat → Node → List Token → Watched (Node × List Token)
  | 0, _, _ => exhausted
  | rounds + 1, left, ts =>
    if startsNegation ts then pure (left, ts)
    else do
      match ← watchSpaces limit ts with
      | ⟨.op o, col⟩ :: rest =>
        if o.level ≤ floor then pure (left, ⟨.op o, col⟩ :: rest)
        else do
          watchOperand limit ⟨.op o, col⟩ rest
          let (right, rest') ← operand o.level rest
          watchClimb operand limit floor rounds (.binary o left right) rest'
      | next => pure (left, next)

def watchItems (expression : List Token → Watched (Node × List Token)) (limit : Nat) (opener : Token)
    (bracket : Bracket) : Nat → List Token → Watched (List Node × List Token)
  | 0, _ => exhausted
  | rounds + 1, ts => do
    ask (.close opener bracket) ts
    match ← watchSpaces limit ts with
    | [] => throw (.unclosed opener bracket)
    | t :: rest =>
      match t.kind with
      | .closer b => if b = bracket then pure ([], rest) else throw (.wrongCloser bracket t)
      | .lineEnd => throw (.unclosed opener bracket)
      | _ => do
        let (item, rest') ← expression ts
        let (items, rest'') ← watchItems expression limit opener bracket rounds rest'
        pure (item :: items, rest'')

/-- Goes on up to the end of the line, where `expression` reads the next item. -/
def watchRest (expression : List Token → Watched (Node × List Token)) (limit : Nat) :
    Nat → List Token → Watched (List Node)
  | 0, _ => exhausted
  | rounds + 1, ts => do
    match ← watchSpaces limit ts with
    | [] => pure []
    | t :: rest =>
      match t.kind with
      | .lineEnd => do
        match ← watchSpaces limit rest with
        | [] => pure []
        | u :: _ => throw (.trailing u)
      | .closer b => throw (.unmatched t b)
      | _ => do
        let (item, rest') ← expression ts
        let items ← watchRest expression limit rounds rest'
        pure (item :: items)

/-! ## Calls -/

mutual

def watchExpression (limit : Nat) : Nat → Nat → List Token → Watched (Node × List Token)
  | 0, _, _ => exhausted
  | depth + 1, floor, ts => do
    let next ← watchSpaces limit ts
    let (first, rest) ← watchPrimary limit depth ts
    if startsCall next then pure (first, rest)
    else watchClimb (watchExpression limit depth) limit floor limit first rest

def watchPrimary (limit : Nat) : Nat → List Token → Watched (Node × List Token)
  | 0, _ => exhausted
  | depth + 1, ts => do
    ask .primary ts
    match ← watchSpaces limit ts with
    | [] => throw (.endOfLine none)
    | t :: rest =>
      match t.kind with
      | .lineEnd => throw (.endOfLine (some t))
      | .integer n =>
        match Number.ofInt? n with
        | some x => pure (.num x, rest)
        | none => throw (.tooLarge t)
      | .float x => pure (.num x, rest)
      | .var name => pure (.var name, rest)
      | .word text => pure (.word text, rest)
      | .name name => pure (.call name, rest)
      | .opener .round => watchGroup limit depth t rest
      | .opener .square => do
        let (items, rest') ← watchSequence limit depth t .square rest
        pure (.list items, rest')
      | .op o =>
        if o = .minus ∧ isNegatable rest then do
          let (operand, rest') ← watchPrimary limit depth rest
          pure (.neg operand, rest')
        else watchOperator limit depth o t rest
      | .closer _ => throw (.strayCloser t)
      | .leftBrace | .rightBrace | .blank | .lineCont => throw (.unsupported t)

def watchGroup (limit : Nat) : Nat → Token → List Token → Watched (Node × List Token)
  | 0, _, _ => exhausted
  | depth + 1, opener, ts => do
    match variadic? (← watchSpaces limit ts) with
    | some (o, operands) => do
      let (items, rest) ← watchSequence limit depth opener .round operands
      pure (.group [.nary o items], rest)
    | none => do
      let (items, rest) ← watchSequence limit depth opener .round ts
      pure (.group items, rest)

/-- The two operands of the operator `o` at `op`, which stands before them. -/
def watchOperator (limit : Nat) : Nat → Operator → Token → List Token → Watched (Node × List Token)
  | 0, _, _, _ => exhausted
  | depth + 1, o, op, ts => do
    watchOperand limit op ts
    let (left, rest) ← watchExpression limit depth 0 ts
    watchOperand limit op rest
    let (right, rest') ← watchExpression limit depth 0 rest
    pure (.binary o left right, rest')

def watchSequence (limit : Nat) : Nat → Token → Bracket → List Token → Watched (List Node × List Token)
  | 0, _, _, _ => exhausted
  | depth + 1, opener, bracket, ts =>
    watchItems (watchExpression limit depth 0) limit opener bracket limit ts

end

/-- The expressions of a line, with calls at most `depth` deep in each other and at most `limit` rounds of a loop. -/
def watchLine (limit depth : Nat) (ts : List Token) : Watched (List Node) :=
  watchRest (watchExpression limit depth 0) limit limit ts

/-! ## What a run yields -/

def atLineEnd : List Token → Bool
  | [] | ⟨.lineEnd, _⟩ :: _ => true
  | _ => false

/-- What is asked for is there, or the parser fails for it. A primary is asked for only where one can begin. -/
def Met (failure : Option ParseError) : Demand × List Token → Prop
  | (.primary, ts) => endsOperand (skipSpaces ts) = false
  | (.operand op, ts) => endsOperand (skipSpaces ts) = true → failure = some (.missingOperand op)
  | (.close opener bracket, ts) => atLineEnd (skipSpaces ts) = true → failure = some (.unclosed opener bracket)

theorem Met.of_none {failure : Option ParseError} {d : Demand × List Token} (h : Met none d) : Met failure d := by
  obtain ⟨d, ts⟩ := d
  cases d with
  | primary => exact h
  | operand op =>
    intro hends
    cases h hends
  | close opener bracket =>
    intro hend
    cases h hend

def failure? {α : Type} : Except ParseError α → Option ParseError
  | .ok _ => none
  | .error e => some e

/-- A run stays within its limits, ends as `r`, and all that it asks for is there, or is what it fails for. -/
def Yields {α : Type} (x : Watched α) (r : Except ParseError α) : Prop :=
  ∀ before, ∃ asked, x before = some (r, before ++ asked) ∧ ∀ d ∈ asked, Met (failure? r) d

namespace Watched

variable {α β : Type} {x : Watched α} {before after : List (Demand × List Token)}

theorem bind_ok {a : α} (h : x before = some (.ok a, after)) (f : α → Watched β) : (x >>= f) before = f a after := by
  change Option.bind (x before) _ = _
  rw [h]
  rfl

theorem bind_error {e : ParseError} (h : x before = some (.error e, after)) (f : α → Watched β) :
    (x >>= f) before = some (.error e, after) := by
  change Option.bind (x before) _ = _
  rw [h]
  rfl

end Watched

theorem watchSpaces_eq {ts : List Token} {limit : Nat} (h : ts.length < limit) :
    watchSpaces limit ts = pure (skipSpaces ts) := by
  induction limit generalizing ts with
  | zero => cases h
  | succ limit ih =>
    cases ts with
    | nil => rfl
    | cons t ts =>
      rw [watchSpaces]
      split
      · next hs => rw [skipSpaces_space _ hs, ih (Nat.lt_of_succ_lt_succ h)]
      · next hs => rw [skipSpaces_other _ (Bool.eq_false_iff.mpr hs)]

namespace Yields

variable {α β : Type} {x : Watched α} {r : Except ParseError α} {ts : List Token} {limit : Nat}

theorem pure (a : α) : Yields (Pure.pure a) (.ok a) :=
  fun before => ⟨[], by rw [List.append_nil]; rfl, nofun⟩

theorem throw (e : ParseError) : Yields (MonadExcept.throw e : Watched α) (.error e) :=
  fun before => ⟨[], by rw [List.append_nil]; rfl, nofun⟩

theorem bind {f : α → Watched β} {g : α → Except ParseError β} (hx : Yields x r)
    (hf : ∀ a, r = .ok a → Yields (f a) (g a)) : Yields (x >>= f) (r >>= g) := by
  intro before
  obtain ⟨asked, hrun, hmet⟩ := hx before
  cases r with
  | error e => exact ⟨asked, bind_error hrun f, hmet⟩
  | ok a =>
    obtain ⟨later, hlater, hmet'⟩ := hf a rfl (before ++ asked)
    refine ⟨asked ++ later, ?_, List.forall_mem_append.mpr ⟨fun d hd => (hmet d hd).of_none, hmet'⟩⟩
    rw [bind_ok hrun, hlater, List.append_assoc]
    rfl

theorem ask {d : Demand} (hd : Met (failure? r) (d, ts)) (hx : Yields x r) :
    Yields (do Watched.ask d ts; x) r := by
  intro before
  obtain ⟨asked, hrun, hmet⟩ := hx (before ++ [(d, ts)])
  refine ⟨(d, ts) :: asked, ?_, List.forall_mem_cons.mpr ⟨hd, hmet⟩⟩
  rw [bind_ok rfl, hrun, List.append_assoc]
  rfl

theorem skip {f : List Token → Watched α} (hlimit : ts.length < limit) (hf : Yields (f (skipSpaces ts)) r) :
    Yields (watchSpaces limit ts >>= f) r := by
  rw [watchSpaces_eq hlimit]
  exact hf

theorem operand {op : Token} (hlimit : ts.length < limit) (hx : endsOperand (skipSpaces ts) = false → Yields x r) :
    Yields (do watchOperand limit op ts; x)
      (if endsOperand (skipSpaces ts) then .error (.missingOperand op) else r) := by
  cases h : endsOperand (skipSpaces ts) with
  | true =>
    have hop : Yields (watchOperand limit op ts) (.error (.missingOperand op)) := by
      refine .ask (fun _ => rfl) (.skip hlimit ?_)
      rw [h]
      exact .throw _
    exact .bind (g := fun _ => r) hop nofun
  | false =>
    have hop : Yields (watchOperand limit op ts) (.ok ()) := by
      refine .ask (fun hends => ?_) (.skip hlimit ?_)
      · rw [h] at hends
        cases hends
      · rw [h]
        exact .pure _
    exact .bind (r := .ok ()) (g := fun _ => r) hop fun _ _ => hx h

end Yields

/-! ## The loops -/

section Loops

variable {limit bound : Nat}

theorem watchClimb_yields {operand : Nat → List Token → Watched (Node × List Token)}
    (hoperand : ∀ floor us, us.length < bound → endsOperand (skipSpaces us) = false →
      Yields (operand floor us) (readExpression floor us))
    (hlimit : bound ≤ limit) (floor : Nat) {rounds : Nat} (left : Node) {ts : List Token} (hrounds : ts.length < rounds)
    (hbound : ts.length < bound) :
    Yields (watchClimb operand limit floor rounds left ts) (readClimb floor left ts) := by
  induction rounds generalizing left ts with
  | zero => cases hrounds
  | succ rounds ih =>
    rw [watchClimb]
    cases hn : startsNegation ts with
    | true =>
      rw [readClimb_of_negation hn]
      exact .pure _
    | false =>
      rw [if_neg Bool.false_ne_true]
      refine .skip (hbound.trans_le hlimit) ?_
      by_cases hop : ∃ o col rest, skipSpaces ts = ⟨.op o, col⟩ :: rest
      · obtain ⟨o, col, rest, ho⟩ := hop
        have hrest := length_lt_of_skipSpaces ho
        rw [readClimb_of_op hn ho, ho]
        dsimp only
        split
        · exact .pure _
        · refine .operand (by omega) fun hmore => ?_
          refine .bind (hoperand o.level rest (by omega) hmore) ?_
          rintro ⟨right, rest'⟩ hright
          have hrest' := length_lt_of_readExpression hright
          exact ih _ (hrest'.trans (by omega)) (hrest'.trans (by omega))
      · rw [readClimb_of_other hn fun o col rest ho => hop ⟨o, col, rest, ho⟩]
        split
        · next o col rest ho => exact absurd ⟨o, col, rest, ho⟩ hop
        · exact .pure _

theorem watchItems_yields {expression : List Token → Watched (Node × List Token)}
    (hexpression : ∀ us, us.length < bound → endsOperand (skipSpaces us) = false →
      Yields (expression us) (readExpression 0 us))
    (hlimit : bound ≤ limit) (opener : Token) (bracket : Bracket) {rounds : Nat} {ts : List Token}
    (hrounds : ts.length < rounds) (hbound : ts.length < bound) :
    Yields (watchItems expression limit opener bracket rounds ts) (readSequence opener bracket ts) := by
  induction rounds generalizing ts with
  | zero => cases hrounds
  | succ rounds ih =>
    rw [watchItems]
    rcases hs : skipSpaces ts with _ | ⟨⟨kind, col⟩, rest⟩
    · rw [readSequence_nil hs]
      refine .ask (fun _ => rfl) (.skip (by omega) ?_)
      rw [hs]
      exact .throw _
    · rw [readSequence_cons hs]
      have hitem (hmore : endsOperand (skipSpaces ts) = false) : Yields (do
          let (item, rest') ← expression ts
          let (items, rest'') ← watchItems expression limit opener bracket rounds rest'
          pure (item :: items, rest''))
          (readExpression 0 ts >>= fun (item, rest') =>
            readSequence opener bracket rest' >>= fun (items, rest'') => .ok (item :: items, rest'')) := by
        refine .bind (hexpression ts hbound hmore) ?_
        rintro ⟨item, rest'⟩ h
        have hrest' := length_lt_of_readExpression h
        exact .bind (ih (hrest'.trans_le (by omega)) (hrest'.trans hbound)) fun _ _ => .pure _
      refine .ask ?_ (.skip (hbound.trans_le hlimit) ?_)
      · intro hend
        rw [hs] at hend
        cases kind with
        | lineEnd => rfl
        | _ => cases hend
      · rw [hs]
        cases kind with
        | closer b =>
          dsimp only
          split
          · exact .pure _
          · exact .throw _
        | lineEnd => exact .throw _
        | _ => exact hitem (by rw [hs]; rfl)

theorem watchRest_yields {expression : List Token → Watched (Node × List Token)}
    (hexpression : ∀ us, us.length < bound → endsOperand (skipSpaces us) = false →
      Yields (expression us) (readExpression 0 us))
    (hlimit : bound ≤ limit) {rounds : Nat} {ts : List Token} (hrounds : ts.length < rounds)
    (hbound : ts.length < bound) :
    Yields (watchRest expression limit rounds ts) (parseLine ts) := by
  induction rounds generalizing ts with
  | zero => cases hrounds
  | succ rounds ih =>
    rw [watchRest]
    refine .skip (hbound.trans_le hlimit) ?_
    rcases hs : skipSpaces ts with _ | ⟨⟨kind, col⟩, rest⟩
    · rw [parseLine_nil hs]
      exact .pure _
    · have hrest := length_lt_of_skipSpaces hs
      have hitem (hmore : endsOperand (skipSpaces ts) = false) : Yields (do
          let (item, rest') ← expression ts
          let items ← watchRest expression limit rounds rest'
          pure (item :: items))
          (readExpression 0 ts >>= fun (item, rest') =>
            parseLine rest' >>= fun items => .ok (item :: items)) := by
        refine .bind (hexpression ts hbound hmore) ?_
        rintro ⟨item, rest'⟩ h
        have hrest' := length_lt_of_readExpression h
        exact .bind (ih (hrest'.trans_le (by omega)) (hrest'.trans hbound)) fun _ _ => .pure _
      rw [parseLine_cons hs]
      cases kind with
      | lineEnd =>
        refine .skip (by omega) ?_
        dsimp only
        cases skipSpaces rest with
        | nil => exact .pure _
        | cons u more => exact .throw _
      | closer b => exact .throw _
      | _ => exact hitem (by rw [hs]; rfl)

end Loops

/-! ## The calls -/

mutual

theorem watchExpression_yields {limit depth : Nat} (floor : Nat) {ts : List Token} (hlimit : ts.length < limit)
    (hdepth : 4 * ts.length + 2 ≤ depth) (h : endsOperand (skipSpaces ts) = false) :
    Yields (watchExpression limit depth floor ts) (readExpression floor ts) := by
  cases depth with
  | zero => cases hdepth
  | succ depth =>
    rw [watchExpression, readExpression_eq]
    refine .skip hlimit (.bind (watchPrimary_yields hlimit (by omega) h) ?_)
    rintro ⟨first, rest⟩ hfirst
    have hrest := length_lt_of_readPrimary hfirst
    dsimp only
    split
    · exact .pure _
    · refine watchClimb_yields (fun floor' us hus hmore => ?_) hlimit.le floor first (hrest.trans hlimit) hrest
      exact watchExpression_yields floor' (hus.trans hlimit) (by omega) hmore
termination_by 4 * ts.length + 2

theorem watchPrimary_yields {limit depth : Nat} {ts : List Token} (hlimit : ts.length < limit)
    (hdepth : 4 * ts.length + 1 ≤ depth) (h : endsOperand (skipSpaces ts) = false) :
    Yields (watchPrimary limit depth ts) (readPrimary ts) := by
  cases depth with
  | zero => cases hdepth
  | succ depth =>
    rw [watchPrimary]
    refine .ask h (.skip hlimit ?_)
    rcases hs : skipSpaces ts with _ | ⟨⟨kind, col⟩, rest⟩
    · rw [hs] at h
      cases h
    · have := length_lt_of_skipSpaces hs
      rw [readPrimary_cons hs]
      cases kind with
      | lineEnd | closer b =>
        rw [hs] at h
        cases h
      | integer n =>
        dsimp only
        cases Number.ofInt? n with
        | some x => exact .pure _
        | none => exact .throw _
      | float | var | word | name => exact .pure _
      | leftBrace | rightBrace | blank | lineCont => exact .throw _
      | opener b =>
        cases b with
        | square => exact .bind (watchSequence_yields _ _ (by omega) (by omega)) fun _ _ => .pure _
        | round => exact watchGroup_yields _ (by omega) (by omega)
      | op o =>
        dsimp only
        split
        · next hneg =>
          refine .bind (watchPrimary_yields (by omega) (by omega) ?_) fun _ _ => .pure _
          exact endsOperand_of_isNegatable hneg.2
        · exact watchOperator_yields o _ (by omega) (by omega)
termination_by 4 * ts.length + 1

theorem watchGroup_yields {limit depth : Nat} (opener : Token) {ts : List Token} (hlimit : ts.length < limit)
    (hdepth : 4 * ts.length + 4 ≤ depth) :
    Yields (watchGroup limit depth opener ts)
      (match variadic? (skipSpaces ts) with
      | some (o, operands) => readSequence opener .round operands >>= fun (items, rest) =>
        .ok (.group [.nary o items], rest)
      | none => readSequence opener .round ts >>= fun (items, rest) => .ok (.group items, rest)) := by
  cases depth with
  | zero => cases hdepth
  | succ depth =>
    rw [watchGroup]
    refine .skip hlimit ?_
    cases hv : variadic? (skipSpaces ts) with
    | none => exact .bind (watchSequence_yields _ _ hlimit (by omega)) fun _ _ => .pure _
    | some found =>
      obtain ⟨o, operands⟩ := found
      have := length_lt_of_variadic? hv
      have := length_skipSpaces_le ts
      exact .bind (watchSequence_yields _ _ (by omega) (by omega)) fun _ _ => .pure _
termination_by 4 * ts.length + 4

theorem watchOperator_yields {limit depth : Nat} (o : Operator) (op : Token) {ts : List Token}
    (hlimit : ts.length < limit) (hdepth : 4 * ts.length + 3 ≤ depth) :
    Yields (watchOperator limit depth o op ts)
      (if endsOperand (skipSpaces ts) then .error (.missingOperand op)
      else readExpression 0 ts >>= fun (left, rest) =>
        if endsOperand (skipSpaces rest) then .error (.missingOperand op)
        else readExpression 0 rest >>= fun (right, rest') => .ok (.binary o left right, rest')) := by
  cases depth with
  | zero => cases hdepth
  | succ depth =>
    rw [watchOperator]
    refine .operand hlimit fun hmore => ?_
    refine .bind (watchExpression_yields 0 hlimit (by omega) hmore) ?_
    rintro ⟨left, rest⟩ hleft
    have hrest := length_lt_of_readExpression hleft
    refine .operand (hrest.trans hlimit) fun hmore' => ?_
    exact .bind (watchExpression_yields 0 (hrest.trans hlimit) (by omega) hmore') fun _ _ => .pure _
termination_by 4 * ts.length + 3

theorem watchSequence_yields {limit depth : Nat} (opener : Token) (bracket : Bracket) {ts : List Token}
    (hlimit : ts.length < limit) (hdepth : 4 * ts.length + 3 ≤ depth) :
    Yields (watchSequence limit depth opener bracket ts) (readSequence opener bracket ts) := by
  cases depth with
  | zero => cases hdepth
  | succ depth =>
    rw [watchSequence]
    refine watchItems_yields (fun us hus hmore => ?_) hlimit opener bracket hlimit (Nat.lt_succ_self _)
    exact watchExpression_yields 0 (by omega) (by omega) hmore
termination_by 4 * ts.length + 3

end

/-- A line with `n` tokens nests at most `4 * n + 2` calls, and no loop goes round more than `n + 1` times. -/
theorem watchLine_yields {limit depth : Nat} {ts : List Token} (hlimit : ts.length < limit)
    (hdepth : 4 * ts.length + 2 ≤ depth) : Yields (watchLine limit depth ts) (parseLine ts) := by
  refine watchRest_yields (fun us hus hmore => ?_) hlimit hlimit (Nat.lt_succ_self _)
  exact watchExpression_yields 0 (by omega) (by omega) hmore

end Parsing

end TurtleLogo
