import TurtleLogo.Fault
import TurtleLogo.Proofs.Parser.Blame

/-!
# Brackets

A line that can be read has its brackets closed in order and no braces, since its tree has them so. Where there are no
operators this is all that it takes.

* `closes`, `wellBracketed` : brackets that are closed in order;
* `beforeEnd`, `afterEnd` : the tokens before the first line end, and behind it;
* `parseLine_lossless` : the tokens of a line that was read;
* `Closable` : tokens that close the brackets open before them; `readSequence_closable` and its companions : they can be
  read;
* `parseLine_operatorFree` : the lines without operators that can be read.
-/

namespace TurtleLogo

def Lexeme.isBrace : Lexeme → Bool
  | .leftBrace | .rightBrace => true
  | _ => false

/-- Whether lexemes close the brackets of a stack, the innermost first, and all that they open themselves, each with
one of its own kind. -/
def closes (stack : List Bracket) : List Lexeme → Bool
  | [] => stack.isEmpty
  | .opener b :: ks => closes (b :: stack) ks
  | .closer b :: ks => stack.head? == some b && closes stack.tail ks
  | _ :: ks => closes stack ks

/-- Whether the round and square brackets are balanced and properly nested, and there is no brace. -/
def wellBracketed (ks : List Lexeme) : Bool := closes [] ks && !ks.any Lexeme.isBrace

namespace Parsing

def beforeEnd (ts : List Token) : List Token := ts.takeWhile (·.kind != .lineEnd)

def afterEnd (ts : List Token) : List Token := (ts.dropWhile (·.kind != .lineEnd)).tail

end Parsing

open Parsing

/-! ## Trees have their brackets closed -/

/-- Lexemes that close the brackets which they open, and have no brace. -/
structure Enclosed (ks : List Lexeme) : Prop where
  closes_append : ∀ stack more, closes stack (ks ++ more) = closes stack more
  noBrace : ks.any Lexeme.isBrace = false

namespace Enclosed

theorem nil : Enclosed [] := ⟨fun _ _ => rfl, rfl⟩

theorem append {ks js : List Lexeme} (hk : Enclosed ks) (hj : Enclosed js) : Enclosed (ks ++ js) where
  closes_append := by
    intro stack more
    rw [List.append_assoc, hk.closes_append, hj.closes_append]
  noBrace := by rw [List.any_append, hk.noBrace, hj.noBrace, Bool.or_false]

theorem bracket (b : Bracket) {ks : List Lexeme} (h : Enclosed ks) :
    Enclosed (.opener b :: (ks ++ [.closer b])) where
  closes_append := by
    intro stack more
    rw [List.cons_append, List.append_assoc, closes, h.closes_append]
    simp [closes]
  noBrace := by simp [Lexeme.isBrace, h.noBrace]

end Enclosed

mutual

theorem Node.enclosed_traversal : ∀ n : Node, Enclosed n.traversal
  | .num _ | .word _ | .var _ | .call _ => ⟨fun _ _ => rfl, rfl⟩
  | .list items => (enclosed_traversals items).bracket .square
  | .group items => (enclosed_traversals items).bracket .round
  | .neg operand => operand.enclosed_traversal
  | .binary _ left right => left.enclosed_traversal.append right.enclosed_traversal
  | .nary _ operands => enclosed_traversals operands
  | .line items => enclosed_traversals items
  | .output value => value.enclosed_traversal
  | .empty => .nil

theorem Node.enclosed_traversals : ∀ ns : List Node, Enclosed (Node.traversals ns)
  | [] => .nil
  | n :: ns => n.enclosed_traversal.append (enclosed_traversals ns)

end

/-- Operators do not count, and a number stays one. -/
theorem closes_leaves (ks : List Lexeme) (stack : List Bracket) : closes stack (ks.flatMap Lexeme.leaf) = closes stack ks := by
  induction ks generalizing stack with
  | nil => rfl
  | cons k ks ih =>
    rw [List.flatMap_cons]
    cases k with
    | opener b => exact ih (b :: stack)
    | closer b => exact congrArg (stack.head? == some b && ·) (ih stack.tail)
    | integer n =>
      cases hx : Number.ofInt? n with
      | some x =>
        rw [Lexeme.leaf, Lexeme.asRead_integer hx]
        exact ih stack
      | none =>
        rw [Lexeme.leaf, Lexeme.asRead, hx]
        exact ih stack
    | _ => exact ih stack

theorem any_isBrace_leaves (ks : List Lexeme) : (ks.flatMap Lexeme.leaf).any Lexeme.isBrace = ks.any Lexeme.isBrace := by
  induction ks with
  | nil => rfl
  | cons k ks ih =>
    rw [List.flatMap_cons, List.any_append, List.any_cons, ih]
    cases k with
    | integer n =>
      cases hx : Number.ofInt? n with
      | some x =>
        rw [Lexeme.leaf, Lexeme.asRead_integer hx]
        rfl
      | none =>
        rw [Lexeme.leaf, Lexeme.asRead, hx]
        rfl
    | _ => rfl

theorem flatMap_leaf (ks : List Lexeme) :
    ks.flatMap Lexeme.leaf = (ks.filter (!·.isOperator)).map Lexeme.asRead := by
  induction ks with
  | nil => rfl
  | cons k ks ih =>
    rw [List.flatMap_cons, List.filter_cons, ih, Lexeme.leaf]
    cases k.isOperator <;> rfl

theorem wellBracketed_of_leaves {ks : List Lexeme} {items : List Node} (h : ks.flatMap Lexeme.leaf = Node.traversals items) :
    wellBracketed ks = true := by
  have henclosed := Node.enclosed_traversals items
  have hcloses := henclosed.closes_append [] []
  rw [List.append_nil, ← h, closes_leaves] at hcloses
  have hbrace := henclosed.noBrace
  rw [← h, any_isBrace_leaves] at hbrace
  rw [wellBracketed, hcloses, hbrace]
  rfl

/-! ## A line that was read -/

namespace Parsing

theorem beforeEnd_of_lineEnd {t : Token} (h : t.kind = .lineEnd) (ts : List Token) : beforeEnd (t :: ts) = [] :=
  List.takeWhile_cons_of_neg (by simp [h])

theorem afterEnd_of_lineEnd {t : Token} (h : t.kind = .lineEnd) (ts : List Token) : afterEnd (t :: ts) = ts := by
  rw [afterEnd, List.dropWhile_cons_of_neg (by simp [h]), List.tail_cons]

theorem beforeEnd_append {used : List Token} (h : ∀ t ∈ used, t.kind ≠ .lineEnd) (rest : List Token) :
    beforeEnd (used ++ rest) = used ++ beforeEnd rest :=
  List.takeWhile_append_of_pos fun t ht => by simpa using h t ht

theorem afterEnd_append {used : List Token} (h : ∀ t ∈ used, t.kind ≠ .lineEnd) (rest : List Token) :
    afterEnd (used ++ rest) = afterEnd rest := by
  rw [afterEnd, List.dropWhile_append_of_pos fun t ht => by simpa using h t ht]
  rfl

theorem afterEnd_skipSpaces (ts : List Token) : afterEnd (skipSpaces ts) = afterEnd ts := by
  obtain ⟨used, hts, hused⟩ := Spends.skipSpaces ts
  conv => rhs; rw [hts, afterEnd_append hused.inLine]

/-- The tokens of a line that was read: those up to its end, and only spaces behind it. -/
theorem holds_of_parseLine {ts : List Token} {items : List Node} (h : parseLine ts = .ok items) :
    Holds (beforeEnd ts) (Node.traversals items) (Node.usesAll items) ∧ ∀ t ∈ afterEnd ts, t.isSpace = true := by
  obtain ⟨rest, ⟨used, rfl, hused⟩, hrest⟩ := parseLine_spends ts items h
  rw [beforeEnd_append hused.inLine, afterEnd_append hused.inLine]
  cases rest with
  | nil => exact ⟨by rwa [beforeEnd, List.takeWhile_nil, List.append_nil], nofun⟩
  | cons t more =>
    obtain ⟨hend, hmore⟩ := hrest t more rfl
    rw [beforeEnd_of_lineEnd hend, List.append_nil, afterEnd_of_lineEnd hend]
    exact ⟨hused, hmore⟩

end Parsing

/-- **Reading loses nothing, doubles nothing and keeps the order.** Without its spaces and operators, a line that can be
read is its tree from left to right; it has as many operators of each kind as there are nodes built with one; its brackets
are closed in order, it has no brace, and only spaces follow its end. -/
theorem parseLine_lossless {ts : List Token} {items : List Node} (h : parseLine ts = .ok items) :
    ((said (beforeEnd ts)).filter (!·.isOperator)).map Lexeme.asRead = Node.traversals items ∧
      (∀ op, (said (beforeEnd ts)).count (.op op) = Node.usesAll items op) ∧
      (∀ t ∈ afterEnd ts, t.isSpace = true) ∧ wellBracketed (said (beforeEnd ts)) = true := by
  obtain ⟨⟨-, hleaves, hcount⟩, hspaces⟩ := holds_of_parseLine h
  refine ⟨?_, hcount, hspaces, wellBracketed_of_leaves hleaves⟩
  rw [← flatMap_leaf, hleaves]

/-- A negation, a product and a sum of two operands, with a list behind them: `-:A * (+ "W F) [:B - "C]`. -/
theorem parseLine_lossless_mixed :
    parseLine [⟨.op .minus, 0⟩, ⟨.var "A", 1⟩, ⟨.blank, 3⟩, ⟨.op .times, 4⟩, ⟨.blank, 5⟩, ⟨.opener .round, 6⟩,
        ⟨.op .plus, 7⟩, ⟨.blank, 8⟩, ⟨.word "W", 9⟩, ⟨.blank, 11⟩, ⟨.name "F", 12⟩, ⟨.closer .round, 13⟩, ⟨.blank, 14⟩,
        ⟨.opener .square, 15⟩, ⟨.var "B", 16⟩, ⟨.blank, 18⟩, ⟨.op .minus, 19⟩, ⟨.blank, 20⟩, ⟨.word "C", 21⟩,
        ⟨.closer .square, 23⟩, ⟨.lineEnd, 24⟩, ⟨.blank, 0⟩] =
      .ok [.binary .times (.neg (.var "A")) (.group [.nary .plus [.word "W", .call "F"]]),
        .list [.binary .minus (.var "B") (.word "C")]] ∧
    Node.traversals [.binary .times (.neg (.var "A")) (.group [.nary .plus [.word "W", .call "F"]]),
        .list [.binary .minus (.var "B") (.word "C")]] =
      [.var "A", .opener .round, .word "W", .name "F", .closer .round, .opener .square, .var "B", .word "C",
        .closer .square] ∧
    Node.usesAll [.binary .times (.neg (.var "A")) (.group [.nary .plus [.word "W", .call "F"]]),
        .list [.binary .minus (.var "B") (.word "C")]] .minus = 2 := by
  have h : parseLine [⟨.op .minus, 0⟩, ⟨.var "A", 1⟩, ⟨.blank, 3⟩, ⟨.op .times, 4⟩, ⟨.blank, 5⟩, ⟨.opener .round, 6⟩,
        ⟨.op .plus, 7⟩, ⟨.blank, 8⟩, ⟨.word "W", 9⟩, ⟨.blank, 11⟩, ⟨.name "F", 12⟩, ⟨.closer .round, 13⟩, ⟨.blank, 14⟩,
        ⟨.opener .square, 15⟩, ⟨.var "B", 16⟩, ⟨.blank, 18⟩, ⟨.op .minus, 19⟩, ⟨.blank, 20⟩, ⟨.word "C", 21⟩,
        ⟨.closer .square, 23⟩, ⟨.lineEnd, 24⟩, ⟨.blank, 0⟩] =
      .ok [.binary .times (.neg (.var "A")) (.group [.nary .plus [.word "W", .call "F"]]),
        .list [.binary .minus (.var "B") (.word "C")]] := by cbv
  obtain ⟨hleaves, hcount, -, -⟩ := parseLine_lossless h
  exact ⟨h, hleaves.symm.trans rfl, (hcount .minus).symm.trans rfl⟩

/-! ## Lines without operators -/

/-- Whether a lexeme is no whole number beyond the range of numbers. -/
def Lexeme.inRange : Lexeme → Bool
  | .integer n => (Number.ofInt? n).isSome
  | _ => true

theorem Lexeme.exists_of_inRange {n : Int} (h : (Lexeme.integer n).inRange = true) : ∃ x, Number.ofInt? n = some x := by
  rw [inRange] at h
  exact Option.isSome_iff_exists.mp h

/-- Lexemes that stand for an operand or are a bracket, a space or a line end. -/
structure Lexeme.IsPlain (k : Lexeme) : Prop where
  noOperator : k.isOperator = false
  noBrace : k.isBrace = false
  inRange : k.inRange = true

/-- Plain tokens up to the end of the line, which close the brackets of a stack. -/
structure Closable (stack : List Bracket) (ts : List Token) : Prop where
  plain : ∀ t ∈ beforeEnd ts, t.kind.IsPlain
  closes : closes stack ((beforeEnd ts).map Token.kind) = true

namespace Closable

variable {stack : List Bracket} {ts rest : List Token} {t : Token}

theorem stack_nil (h : Closable stack ts) (hend : beforeEnd ts = []) : stack = [] := by
  have hcloses := h.closes
  rw [hend] at hcloses
  exact List.isEmpty_iff.mp hcloses

theorem uncons (h : Closable stack (t :: rest)) (ht : t.kind ≠ .lineEnd) :
    t.kind.IsPlain ∧ (∀ u ∈ beforeEnd rest, u.kind.IsPlain) ∧
      TurtleLogo.closes stack (t.kind :: (beforeEnd rest).map Token.kind) = true := by
  obtain ⟨hplain, hcloses⟩ := h
  rw [show beforeEnd (t :: rest) = t :: beforeEnd rest from @beforeEnd_append [t] (by simpa using ht) rest]
    at hplain hcloses
  obtain ⟨ht, hrest⟩ := List.forall_mem_cons.mp hplain
  exact ⟨ht, hrest, hcloses⟩

theorem skipSpaces (h : Closable stack ts) : Closable stack (skipSpaces ts) := by
  induction ts with
  | nil => exact h
  | cons t ts ih =>
    cases hs : t.isSpace with
    | false => rwa [skipSpaces_other ts hs]
    | true =>
      rw [skipSpaces_space ts hs]
      apply ih
      obtain ⟨kind, col⟩ := t
      cases kind with
      | blank | lineCont =>
        obtain ⟨-, hplain, hcloses⟩ := h.uncons (by simp)
        exact ⟨hplain, hcloses⟩
      | _ => cases hs

theorem noOperator (h : Closable stack ts) (o : Operator) (col : Nat) (rest : List Token) :
    Parsing.skipSpaces ts ≠ ⟨.op o, col⟩ :: rest := by
  intro hs
  have hskip := h.skipSpaces
  rw [hs] at hskip
  cases (hskip.uncons (by simp)).1.noOperator

theorem readClimb_eq (h : Closable stack ts) (floor : Nat) (left : Node) :
    readClimb floor left ts = .ok (left, Parsing.skipSpaces ts) := by
  refine readClimb_of_other (Bool.eq_false_iff.mpr fun hn => ?_) h.noOperator
  obtain ⟨col, rest, hs⟩ := minus_of_startsNegation hn
  exact h.noOperator .minus col rest hs

end Closable

/-! ## They can be read -/

namespace Parsing

/-- A result, and a rest that closes the brackets of a stack. -/
def Reaches {α : Type} (x : Except ParseError (α × List Token)) (stack : List Bracket) : Prop :=
  ∃ a rest, x = .ok (a, rest) ∧ Closable stack rest

mutual

theorem readPrimary_closable {stack : List Bracket} {ts : List Token} (h : Closable stack ts)
    (hmore : endsOperand (skipSpaces ts) = false) : Reaches (readPrimary ts) stack := by
  have hskip := h.skipSpaces
  rcases hs : skipSpaces ts with _ | ⟨⟨kind, col⟩, rest⟩
  · rw [hs] at hmore
    cases hmore
  · have := length_lt_of_skipSpaces hs
    rw [hs] at hskip hmore
    rw [readPrimary_cons hs]
    cases kind with
    | lineEnd | closer b => cases hmore
    | blank | lineCont => cases isSpace_of_skipSpaces hs
    | op o => cases (hskip.uncons nofun).1.noOperator
    | leftBrace | rightBrace => cases (hskip.uncons nofun).1.noBrace
    | integer n =>
      obtain ⟨hplain, hrest, hcloses⟩ := hskip.uncons nofun
      obtain ⟨x, hx⟩ := Lexeme.exists_of_inRange hplain.inRange
      dsimp only
      rw [hx]
      exact ⟨.num x, rest, rfl, hrest, hcloses⟩
    | float | var | word | name =>
      obtain ⟨-, hrest, hcloses⟩ := hskip.uncons nofun
      exact ⟨_, rest, rfl, hrest, hcloses⟩
    | opener b =>
      obtain ⟨-, hrest, hcloses⟩ := hskip.uncons nofun
      have hinside : Closable (b :: stack) rest := ⟨hrest, hcloses⟩
      cases b with
      | square =>
        obtain ⟨items, rest', hread, hrest'⟩ := readSequence_closable ⟨.opener .square, col⟩ hinside
        dsimp only
        rw [hread]
        exact ⟨_, rest', rfl, hrest'⟩
      | round =>
        obtain ⟨items, rest', hread, hrest'⟩ := readSequence_closable ⟨.opener .round, col⟩ hinside
        have hnone : variadic? (skipSpaces rest) = none := by
          cases hv : variadic? (skipSpaces rest) with
          | none => rfl
          | some found =>
            obtain ⟨col', ho⟩ := eq_cons_of_variadic? hv
            exact (hinside.noOperator _ _ _ ho).elim
        dsimp only
        simp only [hnone]
        rw [hread]
        exact ⟨_, rest', rfl, hrest'⟩
termination_by 3 * ts.length

theorem readExpression_closable {stack : List Bracket} {ts : List Token} (h : Closable stack ts)
    (hmore : endsOperand (skipSpaces ts) = false) : Reaches (readExpression 0 ts) stack := by
  obtain ⟨first, rest, hread, hrest⟩ := readPrimary_closable h hmore
  rw [readExpression_eq, hread]
  change Reaches (if startsCall (skipSpaces ts) then .ok (first, rest) else readClimb 0 first rest) stack
  split
  · exact ⟨first, rest, rfl, hrest⟩
  · exact ⟨first, skipSpaces rest, hrest.readClimb_eq 0 first, hrest.skipSpaces⟩
termination_by 3 * ts.length + 1

theorem readSequence_closable (opener : Token) {bracket : Bracket} {stack : List Bracket} {ts : List Token}
    (h : Closable (bracket :: stack) ts) : Reaches (readSequence opener bracket ts) stack := by
  have hskip := h.skipSpaces
  rcases hs : skipSpaces ts with _ | ⟨⟨kind, col⟩, rest⟩
  · rw [hs] at hskip
    cases hskip.stack_nil rfl
  · rw [readSequence_cons hs]
    have hitems (hmore : endsOperand (skipSpaces ts) = false) : Reaches (readExpression 0 ts >>= fun (item, rest') =>
        readSequence opener bracket rest' >>= fun (items, rest'') => .ok (item :: items, rest'')) stack := by
      obtain ⟨item, rest', hread, hrest'⟩ := readExpression_closable h hmore
      have := length_lt_of_readExpression hread
      obtain ⟨items, rest'', hreads, hrest''⟩ := readSequence_closable opener hrest'
      rw [hread]
      change Reaches (readSequence opener bracket rest' >>= fun (items, rest'') => .ok (item :: items, rest'')) stack
      rw [hreads]
      exact ⟨_, rest'', rfl, hrest''⟩
    cases kind with
    | closer b =>
      rw [hs] at hskip
      obtain ⟨-, hrest, hcloses⟩ := hskip.uncons nofun
      simp only [TurtleLogo.closes, List.head?_cons, List.tail_cons, Bool.and_eq_true, beq_iff_eq, Option.some.injEq] at hcloses
      obtain ⟨rfl, hcloses⟩ := hcloses
      exact ⟨[], rest, if_pos rfl, hrest, hcloses⟩
    | lineEnd =>
      rw [hs] at hskip
      cases hskip.stack_nil (beforeEnd_of_lineEnd rfl rest)
    | _ => exact hitems (by rw [hs]; rfl)
termination_by 3 * ts.length + 2

end

/-- Reading an expression stops before the end of the line. -/
theorem afterEnd_of_readExpression {floor : Nat} {ts rest : List Token} {node : Node}
    (h : readExpression floor ts = .ok (node, rest)) : afterEnd rest = afterEnd ts := by
  obtain ⟨used, hts, hused⟩ := readExpression_spends floor ts _ h
  rw [hts, afterEnd_append hused.inLine]

theorem parseLine_closable {ts : List Token} (h : Closable [] ts) (hend : ∀ t ∈ afterEnd ts, t.isSpace = true) :
    ∃ items, parseLine ts = .ok items := by
  have hskip := h.skipSpaces
  rcases hs : skipSpaces ts with _ | ⟨⟨kind, col⟩, rest⟩
  · exact ⟨[], parseLine_nil hs⟩
  · rw [parseLine_cons hs]
    have hitems (hmore : endsOperand (skipSpaces ts) = false) : ∃ items, (readExpression 0 ts >>= fun (item, rest') =>
        parseLine rest' >>= fun items => .ok (item :: items)) = .ok items := by
      obtain ⟨item, rest', hread, hrest'⟩ := readExpression_closable h hmore
      have := length_lt_of_readExpression hread
      obtain ⟨items, hparse⟩ := parseLine_closable hrest' (by rwa [afterEnd_of_readExpression hread])
      refine ⟨item :: items, ?_⟩
      rw [hread]
      change (parseLine rest' >>= fun items => .ok (item :: items)) = .ok (item :: items)
      rw [hparse]
      rfl
    cases kind with
    | lineEnd =>
      have hspaces : afterEnd ts = rest := by
        rw [← afterEnd_skipSpaces, hs, afterEnd_of_lineEnd rfl]
      rw [hspaces] at hend
      have hnil : skipSpaces rest = [] := List.dropWhile_eq_nil_iff.mpr hend
      dsimp only
      rw [hnil]
      exact ⟨[], rfl⟩
    | closer b =>
      rw [hs] at hskip
      cases (hskip.uncons nofun).2.2
    | _ => exact hitems (by rw [hs]; rfl)
termination_by ts.length

end Parsing

theorem closes_said (ts : List Token) (stack : List Bracket) :
    closes stack (said ts) = closes stack (ts.map Token.kind) := by
  induction ts generalizing stack with
  | nil => rfl
  | cons t ts ih =>
    obtain ⟨kind, col⟩ := t
    cases kind with
    | opener b => exact ih (b :: stack)
    | closer b => exact congrArg (stack.head? == some b && ·) (ih stack.tail)
    | _ => exact ih stack

theorem any_isBrace_said (ts : List Token) :
    (said ts).any Lexeme.isBrace = (ts.map Token.kind).any Lexeme.isBrace := by
  induction ts with
  | nil => rfl
  | cons t ts ih =>
    obtain ⟨kind, col⟩ := t
    cases kind with
    | blank | lineCont => exact ih
    | _ => exact congrArg (_ || ·) ih

theorem wellBracketed_said (ts : List Token) : wellBracketed (said ts) = wellBracketed (ts.map Token.kind) := by
  rw [wellBracketed, wellBracketed, closes_said, any_isBrace_said]

theorem kind_of_parseError {ts : List Token} {e : ParseError} (hts : ∀ t ∈ ts, t.kind.inRange = true)
    (h : parseLine ts = .error e) : ∃ f, e.failure ts = .fault f ∧ f.kind = .parse := by
  cases parseLine_blames ts e h with
  | behind => exact ⟨_, rfl, rfl⟩
  | inside hblames =>
    obtain ⟨t, ht, -, hfits⟩ := hblames
    cases e with
    | tooLarge u =>
      obtain ⟨n, hn, hnone⟩ := hfits
      have hrange := hts t ht
      rw [hn, Lexeme.inRange, hnone] at hrange
      cases hrange
    | _ => exact ⟨_, rfl, rfl⟩

/-- **Without operators, a line can be read iff its brackets are closed in order**, it has no brace, and only spaces follow
its end. Otherwise it is refused with an error of the parser. -/
theorem parseLine_operatorFree {ts : List Token} (hops : ∀ t ∈ ts, t.kind.isOperator = false)
    (hrange : ∀ t ∈ ts, t.kind.inRange = true) :
    ((∃ items, parseLine ts = .ok items) ↔
      wellBracketed ((beforeEnd ts).map Token.kind) = true ∧ ∀ t ∈ afterEnd ts, t.isSpace = true) ∧
    (¬ (wellBracketed ((beforeEnd ts).map Token.kind) = true ∧ ∀ t ∈ afterEnd ts, t.isSpace = true) →
      ∃ e f, parseLine ts = .error e ∧ e.failure ts = .fault f ∧ f.kind = .parse) := by
  have hiff : (∃ items, parseLine ts = .ok items) ↔
      wellBracketed ((beforeEnd ts).map Token.kind) = true ∧ ∀ t ∈ afterEnd ts, t.isSpace = true := by
    constructor
    · rintro ⟨items, h⟩
      obtain ⟨⟨-, hleaves, -⟩, hspaces⟩ := holds_of_parseLine h
      rw [← wellBracketed_said]
      exact ⟨wellBracketed_of_leaves hleaves, hspaces⟩
    · rintro ⟨hbrackets, hspaces⟩
      rw [wellBracketed, Bool.and_eq_true, Bool.not_eq_true', List.any_eq_false] at hbrackets
      obtain ⟨hcloses, hbraces⟩ := hbrackets
      refine parseLine_closable ⟨fun t ht => ⟨?_, ?_, ?_⟩, hcloses⟩ hspaces
      · exact hops t ((List.takeWhile_prefix _).subset ht)
      · exact Bool.eq_false_iff.mpr (hbraces _ (List.mem_map_of_mem ht))
      · exact hrange t ((List.takeWhile_prefix _).subset ht)
  refine ⟨hiff, fun hnot => ?_⟩
  cases h : parseLine ts with
  | ok items => exact (hnot (hiff.mp ⟨items, h⟩)).elim
  | error e =>
    obtain ⟨f, hf, hkind⟩ := kind_of_parseError hrange h
    exact ⟨e, f, rfl, hf, hkind⟩

/-- A list in round brackets that goes on in the next line, and a space behind the end: `F ([1 \`, `"A] :X)`. -/
theorem parseLine_operatorFree_continued :
    (∃ items, parseLine [⟨.name "F", 0⟩, ⟨.blank, 1⟩, ⟨.opener .round, 2⟩, ⟨.opener .square, 3⟩, ⟨.integer 1, 4⟩,
      ⟨.blank, 5⟩, ⟨.lineCont, 6⟩, ⟨.word "A", 0⟩, ⟨.closer .square, 2⟩, ⟨.blank, 3⟩, ⟨.var "X", 4⟩, ⟨.closer .round, 6⟩,
      ⟨.lineEnd, 7⟩, ⟨.blank, 0⟩] = .ok items) ∧
    ∃ e f, parseLine [⟨.opener .round, 0⟩, ⟨.opener .square, 1⟩, ⟨.integer 1, 2⟩, ⟨.closer .round, 3⟩,
      ⟨.closer .square, 4⟩] = .error e ∧
      e.failure [⟨.opener .round, 0⟩, ⟨.opener .square, 1⟩, ⟨.integer 1, 2⟩, ⟨.closer .round, 3⟩,
        ⟨.closer .square, 4⟩] = .fault f ∧ f.kind = .parse := by
  constructor
  · exact (parseLine_operatorFree (by decide) (by decide +kernel)).1.mpr ⟨by decide, by decide⟩
  · exact (parseLine_operatorFree (by decide) (by decide +kernel)).2 (by decide)

end TurtleLogo
