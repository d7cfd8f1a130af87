import TurtleLogo.Node.Parser

/-!
# The parser without its bounds

Every part of the parser gives back the tokens that it left together with a proof that they are fewer. Here the parts are
seen without that proof, and their recursion is stated as plain equations.

* `readExpression`, `readClimb`, `readPrimary`, `readSequence` : the parts of the parser;
* `readExpression_eq`, `readClimb_of_op`, `readPrimary_cons`, `readSequence_cons` : one step of each;
* `length_lt_of_readExpression`, `length_lt_of_readPrimary` : what is left is shorter;
* `parseLine_cons` : one step of a line;
* `readExpression_skipSpaces` and its companions : spaces at the front do not matter.
-/

namespace TurtleLogo

namespace Parsing

def Parsed.pair {α : Type} {bound : Nat} (p : Parsed α bound) : α × List Token := (p.value, p.rest)

def readExpression (floor : Nat) (ts : List Token) : Except ParseError (Node × List Token) :=
  (expression floor ts).map Parsed.pair

def readClimb (floor : Nat) (left : Node) (ts : List Token) : Except ParseError (Node × List Token) :=
  (climb floor left ts).map Parsed.pair

def readPrimary (ts : List Token) : Except ParseError (Node × List Token) :=
  (primary ts).map Parsed.pair

def readSequence (opener : Token) (bracket : Bracket) (ts : List Token) :
    Except ParseError (List Node × List Token) :=
  (sequence opener bracket ts).map Parsed.pair

/-! ## What is left is shorter -/

theorem length_lt_of_map_pair {α : Type} {bound : Nat} {x : Except ParseError (Parsed α bound)} {a : α}
    {rest : List Token} (h : x.map Parsed.pair = .ok (a, rest)) : rest.length < bound := by
  cases x with
  | error e => cases h
  | ok p =>
    cases h
    exact p.shorter

theorem length_lt_of_readExpression {floor : Nat} {ts rest : List Token} {node : Node}
    (h : readExpression floor ts = .ok (node, rest)) : rest.length < ts.length := length_lt_of_map_pair h

theorem length_lt_of_readPrimary {ts rest : List Token} {node : Node} (h : readPrimary ts = .ok (node, rest)) :
    rest.length < ts.length := length_lt_of_map_pair h

/-! ## One step -/

/-- A step that goes on with what an earlier one has read, seen without the bounds of either. -/
theorem map_pair_bind {α β : Type} {n m : Nat} {x : Except ParseError (Parsed α n)}
    {f : Parsed α n → Except ParseError (Parsed β m)}
    {g : α × List Token → Except ParseError (β × List Token)} (h : ∀ p, (f p).map Parsed.pair = g p.pair) :
    (x >>= f).map Parsed.pair = x.map Parsed.pair >>= g := by
  cases x with
  | error e => rfl
  | ok p => exact h p

theorem readExpression_eq (floor : Nat) (ts : List Token) :
    readExpression floor ts = readPrimary ts >>= fun (first, rest) =>
      if startsCall (skipSpaces ts) then .ok (first, rest) else readClimb floor first rest := by
  unfold readExpression
  rw [expression]
  refine map_pair_bind fun first => ?_
  dsimp only [Parsed.pair]
  split
  · rfl
  · unfold readClimb
    cases climb floor first.value first.rest <;> rfl

theorem readClimb_of_negation {floor : Nat} {left : Node} {ts : List Token} (h : startsNegation ts = true) :
    readClimb floor left ts = .ok (left, ts) := by
  unfold readClimb
  rw [climb, if_pos h]
  rfl

theorem readClimb_of_op {floor : Nat} {left : Node} {ts rest : List Token} {o : Operator} {col : Nat}
    (hn : startsNegation ts = false) (hs : skipSpaces ts = ⟨.op o, col⟩ :: rest) :
    readClimb floor left ts =
      if o.level ≤ floor then .ok (left, ⟨.op o, col⟩ :: rest)
      else if endsOperand (skipSpaces rest) then .error (.missingOperand ⟨.op o, col⟩)
      else readExpression o.level rest >>= fun (right, rest') =>
        readClimb floor (.binary o left right) rest' := by
  unfold readClimb
  rw [climb, if_neg (by rw [hn]; decide)]
  split
  · next o' col' rest' h =>
    rw [hs] at h
    cases h
    split
    · rfl
    · split
      · rfl
      · refine map_pair_bind fun right => ?_
        dsimp only [Parsed.pair]
        cases climb floor (.binary o left right.value) right.rest <;> rfl
  · next hne => exact absurd hs (hne o col rest)

theorem readClimb_of_other {floor : Nat} {left : Node} {ts : List Token} (hn : startsNegation ts = false)
    (hs : ∀ o col rest, skipSpaces ts ≠ ⟨.op o, col⟩ :: rest) :
    readClimb floor left ts = .ok (left, skipSpaces ts) := by
  unfold readClimb
  rw [climb, if_neg (by rw [hn]; decide)]
  split
  · next o col rest h => exact absurd h (hs o col rest)
  · rfl

theorem readPrimary_nil {ts : List Token} (hs : skipSpaces ts = []) :
    readPrimary ts = .error (.endOfLine none) := by
  unfold readPrimary
  rw [primary]
  split
  · rfl
  · next h => rw [hs] at h; cases h

/-- A primary, by the token that begins it. -/
theorem readPrimary_cons {ts rest : List Token} {t : Token} (hs : skipSpaces ts = t :: rest) :
    readPrimary ts =
      match t.kind with
      | .lineEnd => .error (.endOfLine (some t))
      | .integer n =>
        match Number.ofInt? n with
        | some x => .ok (.num x, rest)
        | none => .error (.tooLarge t)
      | .float x => .ok (.num x, rest)
      | .var name => .ok (.var name, rest)
      | .word text => .ok (.word text, rest)
      | .name name => .ok (.call name, rest)
      | .opener .round =>
        match variadic? (skipSpaces rest) with
        | some (o, operands) => readSequence t .round operands >>= fun (items, rest') =>
          .ok (.group [.nary o items], rest')
        | none => readSequence t .round rest >>= fun (items, rest') => .ok (.group items, rest')
      | .opener .square => readSequence t .square rest >>= fun (items, rest') => .ok (.list items, rest')
      | .op o =>
        if o = .minus ∧ isNegatable rest then readPrimary rest >>= fun (operand, rest') =>
          .ok (.neg operand, rest')
        else if endsOperand (skipSpaces rest) then .error (.missingOperand t)
        else readExpression 0 rest >>= fun (left, rest') =>
          if endsOperand (skipSpaces rest') then .error (.missingOperand t)
          else readExpression 0 rest' >>= fun (right, rest'') => .ok (.binary o left right, rest'')
      | .closer _ => .error (.strayCloser t)
      | .leftBrace | .rightBrace | .blank | .lineCont => .error (.unsupported t) := by
  conv => lhs; unfold readPrimary
  rw [primary]
  split
  · next h => rw [hs] at h; cases h
  · next t' rest' h =>
    rw [hs] at h
    cases h
    obtain ⟨kind, col⟩ := t
    cases kind with
    | integer n =>
      dsimp only
      generalize Number.ofInt? n = x
      cases x <;> rfl
    | opener b =>
      cases b with
      | square => exact map_pair_bind fun items => rfl
      | round =>
        dsimp only
        split
        · next o operands hv =>
          simp only [hv]
          exact map_pair_bind fun items => rfl
        · next hv =>
          simp only [hv]
          exact map_pair_bind fun items => rfl
    | op o =>
      dsimp only
      split
      · exact map_pair_bind fun operand => rfl
      · split
        · rfl
        · refine map_pair_bind fun left => ?_
          dsimp only [Parsed.pair]
          split
          · rfl
          · exact map_pair_bind fun right => rfl
    | _ => rfl

theorem readSequence_cons {opener t : Token} {bracket : Bracket} {ts rest : List Token}
    (hs : skipSpaces ts = t :: rest) :
    readSequence opener bracket ts =
      match t.kind with
      | .closer b => if b = bracket then .ok ([], rest) else .error (.wrongCloser bracket t)
      | .lineEnd => .error (.unclosed opener bracket)
      | _ => readExpression 0 ts >>= fun (item, rest') =>
        readSequence opener bracket rest' >>= fun (items, rest'') => .ok (item :: items, rest'') := by
  conv => lhs; unfold readSequence
  rw [sequence]
  split
  · next h => rw [hs] at h; cases h
  · next t' rest' h =>
    rw [hs] at h
    cases h
    obtain ⟨kind, col⟩ := t
    cases kind with
    | closer b =>
      dsimp only
      split <;> rfl
    | lineEnd => rfl
    | _ => exact map_pair_bind fun item => map_pair_bind fun items => rfl

theorem readSequence_nil {opener : Token} {bracket : Bracket} {ts : List Token} (hs : skipSpaces ts = []) :
    readSequence opener bracket ts = .error (.unclosed opener bracket) := by
  unfold readSequence
  rw [sequence]
  split
  · rfl
  · next h => rw [hs] at h; cases h

end Parsing

open Parsing

theorem parseLine_nil {ts : List Token} (hs : skipSpaces ts = []) : parseLine ts = .ok [] := by
  rw [parseLine, hs]

theorem parseLine_cons {ts rest : List Token} {t : Token} (hs : skipSpaces ts = t :: rest) :
    parseLine ts =
      match t.kind with
      | .lineEnd =>
        match skipSpaces rest with
        | [] => .ok []
        | u :: _ => .error (.trailing u)
      | .closer b => .error (.unmatched t b)
      | _ => readExpression 0 ts >>= fun (item, rest') =>
        parseLine rest' >>= fun items => .ok (item :: items) := by
  rw [parseLine, hs]
  obtain ⟨kind, col⟩ := t
  unfold readExpression
  cases kind with
  | lineEnd | closer b => rfl
  | _ =>
    dsimp only
    cases expression 0 ts <;> rfl

/-! ## Spaces at the front -/

namespace Parsing

theorem skipSpaces_space {t : Token} (ts : List Token) (h : t.isSpace = true) :
    skipSpaces (t :: ts) = skipSpaces ts := List.dropWhile_cons_of_pos h

theorem skipSpaces_other {t : Token} (ts : List Token) (h : t.isSpace = false) : skipSpaces (t :: ts) = t :: ts :=
  List.dropWhile_cons_of_neg (by simp [h])

theorem isSpace_of_skipSpaces {ts rest : List Token} {t : Token} (h : skipSpaces ts = t :: rest) :
    t.isSpace = false := by
  have hhead := List.head?_dropWhile_not Token.isSpace ts
  rw [show ts.dropWhile Token.isSpace = t :: rest from h] at hhead
  simpa using hhead

theorem suffix_of_skipSpaces {ts rest : List Token} {t : Token} (h : skipSpaces ts = t :: rest) : t :: rest <:+ ts :=
  h ▸ List.dropWhile_suffix _

/-- A negation begins with a minus behind a space. -/
theorem minus_of_startsNegation {ts : List Token} (h : startsNegation ts = true) :
    ∃ col rest, skipSpaces ts = ⟨.op .minus, col⟩ :: rest := by
  rcases ts with _ | ⟨s, _ | ⟨⟨kind, col⟩, _ | ⟨t, ts⟩⟩⟩
  · cases h
  · cases h
  · cases h
  · simp only [startsNegation, Bool.and_eq_true, beq_iff_eq] at h
    obtain ⟨⟨⟨hs, rfl⟩, -⟩, -⟩ := h
    refine ⟨col, t :: ts, ?_⟩
    rw [skipSpaces_space _ hs]
    rfl

theorem startsNegation_of_not_space {s : Token} (ts : List Token) (h : s.isSpace = false) :
    startsNegation (s :: ts) = false := by
  rcases ts with _ | ⟨m, _ | ⟨t, ts⟩⟩
  · rfl
  · rfl
  · simp only [startsNegation, h, Bool.false_and]

theorem startsNegation_of_not_minus {m : Token} (h : m.kind ≠ .op .minus) (s : Token) (ts : List Token) :
    startsNegation (s :: m :: ts) = false := by
  cases ts with
  | nil => rfl
  | cons t ts => simp [startsNegation, h]

@[simp] theorem skipSpaces_skipSpaces (ts : List Token) : skipSpaces (skipSpaces ts) = skipSpaces ts := by
  unfold skipSpaces
  induction ts with
  | nil => rfl
  | cons t ts ih =>
    rw [List.dropWhile_cons]
    split
    · exact ih
    · next h => rw [List.dropWhile_cons_of_neg h]

theorem readPrimary_skipSpaces (ts : List Token) : readPrimary (skipSpaces ts) = readPrimary ts := by
  have hs := skipSpaces_skipSpaces ts
  cases h : skipSpaces ts with
  | nil =>
    rw [h] at hs
    rw [readPrimary_nil h, readPrimary_nil hs]
  | cons t rest =>
    rw [h] at hs
    rw [readPrimary_cons h, readPrimary_cons hs]

theorem readExpression_skipSpaces (floor : Nat) (ts : List Token) :
    readExpression floor (skipSpaces ts) = readExpression floor ts := by
  rw [readExpression_eq, readExpression_eq, readPrimary_skipSpaces, skipSpaces_skipSpaces]

theorem readSequence_skipSpaces (opener : Token) (bracket : Bracket) (ts : List Token) :
    readSequence opener bracket (skipSpaces ts) = readSequence opener bracket ts := by
  have hs := skipSpaces_skipSpaces ts
  have he := readExpression_skipSpaces 0 ts
  cases h : skipSpaces ts with
  | nil =>
    rw [h] at hs
    rw [readSequence_nil h, readSequence_nil hs]
  | cons t rest =>
    rw [h] at hs he
    rw [readSequence_cons h, readSequence_cons hs, he]

end Parsing

theorem parseLine_skipSpaces (ts : List Token) : parseLine (skipSpaces ts) = parseLine ts := by
  have hs := skipSpaces_skipSpaces ts
  have he := readExpression_skipSpaces 0 ts
  cases h : skipSpaces ts with
  | nil =>
    rw [h] at hs
    rw [parseLine_nil h, parseLine_nil hs]
  | cons t rest =>
    rw [h] at hs he
    rw [parseLine_cons h, parseLine_cons hs, he]

end TurtleLogo
