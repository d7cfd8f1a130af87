import Mathlib.Data.List.Chain
import TurtleLogo.Proofs.Parser.Columns
import TurtleLogo.Proofs.Parser.Printed

/-!
# Chains of operators

Operands of one token with operators between them, such as `1 + :X * F < 2`. The levels of the operators leave one way
to put brackets: an operator takes what binds at least as tightly on its left, and what binds tighter on its right. The
parser finds this tree by climbing, with one exception. A call ends the right operand that it begins, so that the operator
behind it takes all that was read so far as its left operand.

* `Operand`, `linkLexemes` : operands of one token, and the lexemes of operators with an operand after each;
* `Node.inorder`, `Node.Nested` : the operands and operators of a tree from left to right, and the trees that the levels
  allow; `Nested.eq_of_inorder` : there is one for each chain;
* `Climbs` : climbing, where some operands end at once; `Climbs.nested_iff` : when it gives a nested tree;
* `parseLine_chain` : the tree of a chain, `parseLine_chain_call` : a call that an operator does not bind.
-/

namespace TurtleLogo

open Number Parsing

/-! ## Trees -/

namespace Node

/-- The first operand of a tree of operators, and then each operator with the operand after it, from left to right. -/
def inorder : Node → Node × List (Operator × Node)
  | .binary op left right => (left.inorder.1, left.inorder.2 ++ (op, right.inorder.1) :: right.inorder.2)
  | n => (n, [])

/-- The trees that the levels of their operators allow without brackets: a higher level binds tighter, and equal levels
associate to the left. -/
inductive Nested : Node → Prop
  | operand {n : Node} (h : n.isBinary = false) : Nested n
  | binary {op : Operator} {left right : Node} (hl : Nested left) (hr : Nested right) (left_le : op.level ≤ left.level)
      (lt_right : op.level < right.level) : Nested (.binary op left right)

theorem inorder_of_not_binary {n : Node} (h : n.isBinary = false) : n.inorder = (n, []) := by
  cases n <;> first | rfl | cases h

theorem Nested.binary_inv {op : Operator} {left right : Node} (h : (Node.binary op left right).Nested) :
    left.Nested ∧ right.Nested ∧ op.level ≤ left.level ∧ op.level < right.level := by
  cases h with
  | operand h => cases h
  | binary hl hr left_le lt_right => exact ⟨hl, hr, left_le, lt_right⟩

/-- No operator of a nested tree binds looser than the one at its root. -/
theorem Nested.level_le {n : Node} (h : n.Nested) : ∀ p ∈ n.inorder.2, n.level ≤ p.1.level := by
  induction h with
  | operand h =>
    intro p hp
    rw [inorder_of_not_binary h] at hp
    cases hp
  | @binary op left right _ _ left_le lt_right ihl ihr =>
    intro p hp
    show op.level ≤ p.1.level
    rw [inorder] at hp
    rcases List.mem_append.mp hp with hp | hp
    · exact Nat.le_trans left_le (ihl p hp)
    · rcases List.mem_cons.mp hp with rfl | hp
      · exact Nat.le_refl _
      · exact Nat.le_trans (Nat.le_of_lt lt_right) (ihr p hp)

/-- The operator at the root is the last one of the least level: further to the left it would be bound by the one at the
root of the other tree. -/
theorem Nested.root_not_left {op op' : Operator} {left right left' right' : Node}
    (h : (Node.binary op left right).Nested) (h' : (Node.binary op' left' right').Nested)
    {between : List (Operator × Node)} (hl : left'.inorder.2 = left.inorder.2 ++ (op, right.inorder.1) :: between)
    (hr : right.inorder.2 = between ++ (op', right'.inorder.1) :: right'.inorder.2) : False := by
  obtain ⟨-, hright, -, hlt⟩ := h.binary_inv
  obtain ⟨hleft', -, hle', -⟩ := h'.binary_inv
  have hle : op'.level ≤ op.level := by
    apply Nat.le_trans hle'
    apply hleft'.level_le (op, right.inorder.1)
    simp [hl]
  have hgt : op.level < op'.level := by
    apply Nat.lt_of_lt_of_le hlt
    apply hright.level_le (op', right'.inorder.1)
    simp [hr]
  omega

/-- Operands and operators in a row have one nested tree at most. -/
theorem Nested.eq_of_inorder {s t : Node} (hs : s.Nested) (ht : t.Nested) (h : s.inorder = t.inorder) : s = t := by
  induction hs generalizing t with
  | @operand s hs =>
    rw [inorder_of_not_binary hs] at h
    cases ht with
    | operand ht =>
      rw [inorder_of_not_binary ht] at h
      exact (Prod.mk.inj h).1
    | binary => simp [inorder] at h
  | @binary op left right hl hr left_le lt_right ihl ihr =>
    have hs := Nested.binary hl hr left_le lt_right
    cases ht with
    | operand ht =>
      rw [inorder_of_not_binary ht] at h
      simp [inorder] at h
    | @binary op' left' right' hl' hr' left_le' lt_right' =>
      have ht := Nested.binary hl' hr' left_le' lt_right'
      obtain ⟨hfirst, hlinks⟩ := Prod.mk.inj h
      rcases List.append_eq_append_iff.mp hlinks with ⟨between, hleft, hright⟩ | ⟨between, hleft, hright⟩
      · cases between with
        | nil =>
          obtain ⟨hop, hrest⟩ := List.cons.inj hright
          obtain ⟨rfl, hsecond⟩ := Prod.mk.inj hop
          rw [ihl hl' (Prod.ext hfirst (by simpa using hleft.symm)), ihr hr' (Prod.ext hsecond hrest)]
        | cons link between =>
          obtain ⟨rfl, hbetween⟩ := List.cons.inj hright
          exact (hs.root_not_left ht hleft hbetween).elim
      · cases between with
        | nil =>
          obtain ⟨hop, hrest⟩ := List.cons.inj hright
          obtain ⟨rfl, hsecond⟩ := Prod.mk.inj hop
          rw [ihl hl' (Prod.ext hfirst (by simpa using hleft)), ihr hr' (Prod.ext hsecond.symm hrest.symm)]
        | cons link between =>
          obtain ⟨rfl, hbetween⟩ := List.cons.inj hright
          exact (ht.root_not_left hs hleft hbetween).elim

end Node

/-! ## Chains -/

/-- The operand that a single token stands for. -/
def Lexeme.operand? : Lexeme → Option Node
  | .integer n => (ofInt? n).map .num
  | .float x => some (.num x)
  | .var s => some (.var s)
  | .word s => some (.word s)
  | .name s => some (.call s)
  | _ => none

/-- A number, variable, word or call, with the token that stands for it. -/
structure Operand where
  lexeme : Lexeme
  node : Node
  reads : lexeme.operand? = some node

/-- Operators with an operand after each, and a blank before and after each operator. -/
def linkLexemes : List (Operator × Operand) → List Lexeme
  | [] => []
  | (op, e) :: links => .blank :: .op op :: .blank :: e.lexeme :: linkLexemes links

def linkNodes (links : List (Operator × Operand)) : List (Operator × Node) := links.map fun p => (p.1, p.2.node)

theorem Operand.not_binary (e : Operand) : e.node.isBinary = false := by
  obtain ⟨lexeme, node, reads⟩ := e
  cases lexeme with
  | integer n =>
    simp only [Lexeme.operand?, Option.map_eq_some_iff] at reads
    obtain ⟨x, -, rfl⟩ := reads
    rfl
  | float | var | word | name =>
    cases reads
    rfl
  | _ => cases reads

theorem Operator.level_pos (op : Operator) : 0 < op.level := by
  cases op <;> exact Nat.succ_pos _

theorem Operand.level_lt (e : Operand) (op : Operator) : op.level < e.node.level := by
  have hop : op.level < 4 := by cases op <;> decide
  have he := e.not_binary
  generalize e.node = n at he ⊢
  cases n with
  | binary => cases he
  | _ => exact hop

/-! ## Climbing -/

/-- Climbing from the operand `left` over operators above `floor`, to a tree and the links that are left. A right operand
goes on to what binds tighter than the operator before it, unless it is `alone`. -/
inductive Climbs (alone : Node → Bool) :
    Nat → Node → List (Operator × Operand) → Node → List (Operator × Operand) → Prop
  | done {floor : Nat} {left : Node} : Climbs alone floor left [] left []
  | stop {floor : Nat} {left : Node} {op : Operator} {e : Operand} {links : List (Operator × Operand)}
      (h : op.level ≤ floor) : Climbs alone floor left ((op, e) :: links) left ((op, e) :: links)
  | alone {floor : Nat} {left tree : Node} {op : Operator} {e : Operand} {links rest : List (Operator × Operand)}
      (h : floor < op.level) (he : alone e.node = true) (more : Climbs alone floor (.binary op left e.node) links tree rest) :
      Climbs alone floor left ((op, e) :: links) tree rest
  | operand {floor : Nat} {left right tree : Node} {op : Operator} {e : Operand}
      {links between rest : List (Operator × Operand)} (h : floor < op.level) (he : alone e.node = false)
      (inner : Climbs alone op.level e.node links right between)
      (more : Climbs alone floor (.binary op left right) between tree rest) :
      Climbs alone floor left ((op, e) :: links) tree rest

namespace Climbs

variable {alone : Node → Bool}

theorem exists_tree (alone : Node → Bool) (floor : Nat) (left : Node) (links : List (Operator × Operand)) :
    ∃ tree rest, Climbs alone floor left links tree rest ∧ rest.length ≤ links.length := by
  match links with
  | [] => exact ⟨left, [], .done, Nat.le_refl _⟩
  | (op, e) :: links =>
    by_cases hop : op.level ≤ floor
    · exact ⟨left, (op, e) :: links, .stop hop, Nat.le_refl _⟩
    · have hlt : floor < op.level := Nat.lt_of_not_le hop
      cases he : alone e.node with
      | true =>
        obtain ⟨tree, rest, h, hle⟩ := exists_tree alone floor (.binary op left e.node) links
        exact ⟨tree, rest, .alone hlt he h, Nat.le_succ_of_le hle⟩
      | false =>
        obtain ⟨right, between, hinner, hle⟩ := exists_tree alone op.level e.node links
        obtain ⟨tree, rest, h, hle'⟩ := exists_tree alone floor (.binary op left right) between
        exact ⟨tree, rest, .operand hlt he hinner h, Nat.le_succ_of_le (Nat.le_trans hle' hle)⟩
termination_by links.length

variable {floor : Nat} {left tree : Node} {links rest : List (Operator × Operand)}

/-- Climbing goes on as long as it can. -/
theorem head_le (h : Climbs alone floor left links tree rest) : ∀ p ∈ rest.head?, p.1.level ≤ floor := by
  induction h with
  | done => exact fun p hp => nomatch hp
  | stop h =>
    intro p hp
    cases hp
    exact h
  | alone _ _ _ ih => exact ih
  | operand _ _ _ _ _ ih => exact ih

theorem rest_nil (h : Climbs alone 0 left links tree rest) : rest = [] := by
  cases rest with
  | nil => rfl
  | cons p rest =>
    have hle := h.head_le p rfl
    have hpos := p.1.level_pos
    omega

/-- The tree holds, from left to right, what climbing began with and what it has read. -/
theorem inorder_eq (h : Climbs alone floor left links tree rest) :
    ∃ read, links = read ++ rest ∧ tree.inorder = (left.inorder.1, left.inorder.2 ++ linkNodes read) := by
  induction h with
  | done => exact ⟨[], rfl, by simp [linkNodes]⟩
  | stop _ => exact ⟨[], rfl, by simp [linkNodes]⟩
  | @alone _ _ _ op e _ _ _ _ _ ih =>
    obtain ⟨read, rfl, hinorder⟩ := ih
    refine ⟨(op, e) :: read, rfl, ?_⟩
    simp [hinorder, Node.inorder, Node.inorder_of_not_binary e.not_binary, linkNodes]
  | @operand _ _ _ _ op e _ _ _ _ _ _ _ ihinner ih =>
    obtain ⟨inner, rfl, hinner⟩ := ihinner
    obtain ⟨read, rfl, hinorder⟩ := ih
    refine ⟨(op, e) :: inner ++ read, by simp, ?_⟩
    simp [hinorder, Node.inorder, hinner, Node.inorder_of_not_binary e.not_binary, linkNodes]

theorem inorder_first {first : Operand} (h : Climbs alone floor first.node links tree []) :
    tree.inorder = (first.node, linkNodes links) := by
  obtain ⟨read, hread, hinorder⟩ := h.inorder_eq
  rw [List.append_nil] at hread
  rw [hinorder, hread, Node.inorder_of_not_binary first.not_binary, List.nil_append]

theorem suffix (h : Climbs alone floor left links tree rest) : rest <:+ links := by
  obtain ⟨read, hlinks, -⟩ := h.inorder_eq
  exact ⟨read, hlinks.symm⟩

end Climbs

/-- The operator behind an operand that stands alone does not bind it tighter than the one before it. -/
def NoTighter (alone : Node → Bool) (p q : Operator × Operand) : Prop := alone p.2.node = true → q.1.level ≤ p.1.level

namespace Climbs

variable {alone : Node → Bool} {floor : Nat} {left tree : Node} {links rest : List (Operator × Operand)}

/-- Climbing from a nested tree gives one, where no operator binds an operand that stands alone tighter than the one
before it. -/
theorem nested (h : Climbs alone floor left links tree rest) (hleft : left.Nested)
    (hhead : ∀ p ∈ links.head?, p.1.level ≤ left.level) (hlooser : links.IsChain (NoTighter alone)) :
    tree.Nested ∧ (floor < left.level → floor < tree.level) := by
  induction h with
  | done => exact ⟨hleft, id⟩
  | stop _ => exact ⟨hleft, id⟩
  | @alone floor left tree op e links rest hop he _ ih =>
    obtain ⟨hnext, hlinks⟩ := List.isChain_cons.mp hlooser
    have hroot : (Node.binary op left e.node).Nested :=
      .binary hleft (.operand e.not_binary) (hhead _ rfl) (e.level_lt op)
    obtain ⟨htree, hlt⟩ := ih hroot (fun p hp => hnext p hp he) hlinks
    exact ⟨htree, fun _ => hlt hop⟩
  | @operand floor left right tree op e links between rest hop _ hinner _ ihinner ih =>
    have hlinks := (List.isChain_cons.mp hlooser).2
    obtain ⟨hright, hlt⟩ := ihinner (.operand e.not_binary) (fun p _ => Nat.le_of_lt (e.level_lt p.1)) hlinks
    have hroot : (Node.binary op left right).Nested := .binary hleft hright (hhead _ rfl) (hlt (e.level_lt op))
    obtain ⟨htree, hlt'⟩ := ih hroot hinner.head_le (hlinks.suffix hinner.suffix)
    exact ⟨htree, fun _ => hlt' hop⟩

/-- If climbing gives a nested tree, then it began with one, and no operator binds an operand that stands alone tighter than
the one before it. -/
theorem of_nested (h : Climbs alone floor left links tree rest) (htree : tree.Nested)
    (hrest : rest.IsChain (NoTighter alone)) :
    left.Nested ∧ (∀ p ∈ links.head?, floor < p.1.level → p.1.level ≤ left.level) ∧ links.IsChain (NoTighter alone) := by
  induction h with
  | done =>
    refine ⟨htree, fun p hp => ?_, hrest⟩
    cases hp
  | stop h =>
    refine ⟨htree, fun p hp hlt => ?_, hrest⟩
    cases hp
    exact absurd h (Nat.not_le.mpr hlt)
  | @alone floor left tree op e links rest hop _ _ ih =>
    obtain ⟨hroot, hnext, hlinks⟩ := ih htree hrest
    obtain ⟨hleft, -, hle, -⟩ := hroot.binary_inv
    refine ⟨hleft, fun p hp _ => ?_, List.isChain_cons.mpr ⟨fun p hp _ => ?_, hlinks⟩⟩
    · cases hp
      exact hle
    · by_cases hlt : floor < p.1.level
      · exact hnext p hp hlt
      · show p.1.level ≤ op.level
        omega
  | @operand floor left right tree op e links between rest hop he _ _ ihinner ih =>
    obtain ⟨hroot, -, hbetween⟩ := ih htree hrest
    obtain ⟨hleft, hright, hle, -⟩ := hroot.binary_inv
    obtain ⟨-, -, hlinks⟩ := ihinner hright hbetween
    refine ⟨hleft, fun p hp _ => ?_, List.isChain_cons.mpr ⟨fun p _ halone => ?_, hlinks⟩⟩
    · cases hp
      exact hle
    · rw [show alone e.node = true from halone] at he
      cases he

/-- A whole chain becomes a nested tree iff no operator binds an operand that stands alone tighter than the one before
it. -/
theorem nested_iff {first : Operand} (h : Climbs alone 0 first.node links tree []) :
    tree.Nested ↔ links.IsChain (NoTighter alone) := by
  constructor
  · intro htree
    exact (h.of_nested htree .nil).2.2
  · intro hlooser
    exact (h.nested (.operand first.not_binary) (fun p _ => Nat.le_of_lt (first.level_lt p.1)) hlooser).1

end Climbs

/-- Every chain has a nested tree: the one that climbing finds if no operand stands alone. -/
theorem exists_nested (first : Operand) (links : List (Operator × Operand)) :
    ∃ tree : Node, tree.Nested ∧ tree.inorder = (first.node, linkNodes links) := by
  obtain ⟨tree, rest, h, -⟩ := Climbs.exists_tree (fun _ => false) 0 first.node links
  obtain rfl := h.rest_nil
  refine ⟨tree, h.nested_iff.mpr ?_, h.inorder_first⟩
  exact List.Pairwise.isChain (List.pairwise_of_forall fun _ _ halone => nomatch halone)

/-! ## Reading a chain -/

namespace Parsing

/-- The tokens of operators and operands, all at column 0. -/
def linkTokens (links : List (Operator × Operand)) : List Token := unplaced (linkLexemes links)

theorem linkTokens_cons (op : Operator) (e : Operand) (links : List (Operator × Operand)) (rest : List Token) :
    linkTokens ((op, e) :: links) ++ rest =
      ⟨.blank, 0⟩ :: ⟨.op op, 0⟩ :: ⟨.blank, 0⟩ :: ⟨e.lexeme, 0⟩ :: (linkTokens links ++ rest) := rfl

theorem Operand.starts (e : Operand) (ts : List Token) : Starts (⟨e.lexeme, 0⟩ :: ts) := by
  apply Starts.operand
  have he := e.reads
  generalize e.lexeme = k at he ⊢
  cases k <;> first | rfl | cases he

/-- An operand begins an expression, which goes on behind it unless it is a call. -/
theorem readExpression_operand (floor : Nat) (e : Operand) (ts : List Token) :
    readExpression floor (⟨e.lexeme, 0⟩ :: ts) =
      if e.node.isCall then .ok (e.node, ts) else readClimb floor e.node ts := by
  have hs := (Operand.starts e ts).skipSpaces_eq
  have he := e.reads
  rw [readExpression_eq, readPrimary_cons hs, hs]
  generalize e.lexeme = k, e.node = n at he ⊢
  cases k with
  | integer i =>
    simp only [Lexeme.operand?, Option.map_eq_some_iff] at he
    obtain ⟨x, hx, rfl⟩ := he
    dsimp only
    rw [hx]
    rfl
  | float | var | word | name =>
    cases he
    rfl
  | _ => cases he

/-- Climbing reads a link whose operator is above the floor, and goes on with both sides joined. -/
theorem readClimb_link {floor : Nat} {op : Operator} (h : floor < op.level) (left : Node) (e : Operand)
    (links : List (Operator × Operand)) (rest : List Token) :
    readClimb floor left (linkTokens ((op, e) :: links) ++ rest) =
      readExpression op.level (⟨e.lexeme, 0⟩ :: (linkTokens links ++ rest)) >>= fun (right, rest') =>
        readClimb floor (.binary op left right) rest' := by
  have hstarts := Operand.starts e (linkTokens links ++ rest)
  have hmore : endsOperand (skipSpaces (⟨.blank, 0⟩ :: ⟨e.lexeme, 0⟩ :: (linkTokens links ++ rest))) = false :=
    (congrArg endsOperand hstarts.skipSpaces_eq).trans hstarts.endsOperand_eq
  have hneg : startsNegation (⟨.blank, 0⟩ :: ⟨.op op, 0⟩ :: ⟨.blank, 0⟩ :: ⟨e.lexeme, 0⟩ :: (linkTokens links ++ rest)) =
      false := by
    simp [startsNegation, Token.isSpace, Lexeme.isSpace]
  rw [linkTokens_cons, readClimb_of_op hneg rfl, if_neg (Nat.not_le.mpr h), hmore, if_neg Bool.false_ne_true,
    Node.readExpression_blank]

/-- The parser climbs, with calls that stand alone. -/
theorem readClimb_of_climbs {floor : Nat} {left tree : Node} {links more : List (Operator × Operand)}
    (h : Climbs Node.isCall floor left links tree more) {rest : List Token} (hstop : Stops 0 rest) :
    readClimb floor left (linkTokens links ++ rest) = .ok (tree, settle (linkTokens more ++ rest)) := by
  induction h with
  | done => exact readClimb_of_stops (hstop.mono (Nat.zero_le _)) _
  | stop h =>
    refine readClimb_of_stops (.inr fun o col ts hs => ?_) _
    cases hs
    exact h
  | alone h he _ ih =>
    rw [readClimb_link h, readExpression_operand, if_pos he]
    exact ih
  | operand h he _ _ ihinner ih =>
    rw [readClimb_link h, readExpression_operand, if_neg (by rw [he]; decide), ihinner]
    exact (readClimb_settle _ _ _).trans ih

end Parsing

def chainLexemes (first : Operand) (links : List (Operator × Operand)) : List Lexeme := first.lexeme :: linkLexemes links

/-- A chain whose first operand is no call reads as one tree. -/
theorem parseLine_of_climbs {first : Operand} {links : List (Operator × Operand)} {tree : Node}
    (hfirst : first.node.isCall = false) (h : Climbs Node.isCall 0 first.node links tree []) {rest : List Token}
    (hstop : Stops 0 rest) (hrest : parseLine rest = .ok []) :
    parseLine (unplaced (chainLexemes first links) ++ rest) = .ok [tree] := by
  have hread : readExpression 0 (⟨first.lexeme, 0⟩ :: (linkTokens links ++ rest)) = .ok (tree, settle rest) := by
    rw [readExpression_operand, hfirst]
    exact readClimb_of_climbs h hstop
  rw [show unplaced (chainLexemes first links) ++ rest = ⟨first.lexeme, 0⟩ :: (linkTokens links ++ rest) from rfl,
    (Operand.starts first _).parseLine_eq, hread]
  show (parseLine (settle rest) >>= fun items => .ok (tree :: items)) = .ok [tree]
  rw [parseLine_settle, hrest]
  rfl

/-- **Precedence, for operands of every kind.** Operands and operators in a row, with a blank on each side of each operator
and no call in front, have exactly one tree that the levels allow. The line reads as one tree with these operands and
operators from left to right, and it is that tree iff no operator right behind a call binds tighter than the one before the
call. -/
theorem parseLine_chain (first : Operand) (links : List (Operator × Operand)) (hfirst : first.node.isCall = false)
    (ts : List Token) (hts : ts.map Token.kind = chainLexemes first links ∨
      ts.map Token.kind = chainLexemes first links ++ [.lineEnd]) :
    (∃! tree : Node, tree.Nested ∧ tree.inorder = (first.node, linkNodes links)) ∧
      ∃ tree : Node, parseLine ts = .ok [tree] ∧ tree.inorder = (first.node, linkNodes links) ∧
        (tree.Nested ↔ links.IsChain (NoTighter Node.isCall)) := by
  constructor
  · obtain ⟨tree, htree, hinorder⟩ := exists_nested first links
    refine ⟨tree, ⟨htree, hinorder⟩, fun other ⟨hother, hinorder'⟩ => ?_⟩
    exact hother.eq_of_inorder htree (hinorder'.trans hinorder.symm)
  · obtain ⟨tree, rest, hclimbs, -⟩ := Climbs.exists_tree Node.isCall 0 first.node links
    obtain rfl := hclimbs.rest_nil
    refine ⟨tree, ?_, hclimbs.inorder_first, hclimbs.nested_iff⟩
    have hend (rest : List Token) (hstop : Stops 0 rest) (hrest : parseLine rest = .ok [])
        (hkinds : ts.map Token.kind = chainLexemes first links ++ rest.map Token.kind) : parseLine ts = .ok [tree] := by
      refine parseLine_ok_of_kinds ?_ (parseLine_of_climbs hfirst hclimbs hstop hrest)
      rw [List.map_append, map_kind_unplaced, hkinds]
    rcases hts with hts | hts
    · exact hend [] (.inr fun _ _ _ h => nomatch h) (parseLine_nil rfl) (by rw [hts]; simp)
    · refine hend [⟨.lineEnd, 0⟩] (.inr fun _ _ _ h => nomatch h) ?_ hts
      rw [parseLine_cons rfl]
      rfl

/-- Calls among other operands, each before an operator that binds no tighter than the last: `:A + F - :B * G < "C`. -/
theorem parseLine_chain_mixed :
    ∃ tree : Node, parseLine [⟨.var "A", 0⟩, ⟨.blank, 2⟩, ⟨.op .plus, 3⟩, ⟨.blank, 4⟩, ⟨.name "F", 5⟩, ⟨.blank, 6⟩,
        ⟨.op .minus, 7⟩, ⟨.blank, 8⟩, ⟨.var "B", 9⟩, ⟨.blank, 11⟩, ⟨.op .times, 12⟩, ⟨.blank, 13⟩, ⟨.name "G", 14⟩,
        ⟨.blank, 15⟩, ⟨.op .less, 16⟩, ⟨.blank, 17⟩, ⟨.word "C", 18⟩, ⟨.lineEnd, 20⟩] = .ok [tree] ∧ tree.Nested ∧
      tree.inorder = (.var "A", [(.plus, .call "F"), (.minus, .var "B"), (.times, .call "G"), (.less, .word "C")]) := by
  obtain ⟨-, tree, hparse, hinorder, hnested⟩ := parseLine_chain ⟨.var "A", .var "A", rfl⟩
    [(.plus, ⟨.name "F", .call "F", rfl⟩), (.minus, ⟨.var "B", .var "B", rfl⟩), (.times, ⟨.name "G", .call "G", rfl⟩),
      (.less, ⟨.word "C", .word "C", rfl⟩)] rfl
    [⟨.var "A", 0⟩, ⟨.blank, 2⟩, ⟨.op .plus, 3⟩, ⟨.blank, 4⟩, ⟨.name "F", 5⟩, ⟨.blank, 6⟩, ⟨.op .minus, 7⟩, ⟨.blank, 8⟩,
      ⟨.var "B", 9⟩, ⟨.blank, 11⟩, ⟨.op .times, 12⟩, ⟨.blank, 13⟩, ⟨.name "G", 14⟩, ⟨.blank, 15⟩, ⟨.op .less, 16⟩,
      ⟨.blank, 17⟩, ⟨.word "C", 18⟩, ⟨.lineEnd, 20⟩] (.inr rfl)
  refine ⟨tree, hparse, hnested.mpr ?_, hinorder⟩
  simp [NoTighter, Node.isCall, Operator.level]

/-- In `:A + F * :B` the product takes the whole sum, although the levels put the product into the sum. -/
theorem parseLine_chain_call :
    parseLine [⟨.var "A", 0⟩, ⟨.blank, 2⟩, ⟨.op .plus, 3⟩, ⟨.blank, 4⟩, ⟨.name "F", 5⟩, ⟨.blank, 6⟩, ⟨.op .times, 7⟩,
        ⟨.blank, 8⟩, ⟨.var "B", 9⟩, ⟨.lineEnd, 11⟩] =
      .ok [.binary .times (.binary .plus (.var "A") (.call "F")) (.var "B")] ∧
    (Node.binary .plus (.var "A") (.binary .times (.call "F") (.var "B"))).Nested ∧
    (Node.binary .plus (.var "A") (.binary .times (.call "F") (.var "B"))).inorder =
      (Node.binary .times (.binary .plus (.var "A") (.call "F")) (.var "B")).inorder := by
  refine ⟨by cbv, ?_, rfl⟩
  exact .binary (.operand rfl) (.binary (.operand rfl) (.operand rfl) (by decide) (by decide)) (by decide) (by decide)

end TurtleLogo
