import Mathlib.Data.List.TakeWhile
import TurtleLogo.Proofs.Parser.Nodes

/-!
# What a line holds

Reading a line neither loses nor adds a token. The tree of a line, read from left to right, gives the tokens of the line
back, apart from its operators, which a tree does not keep in place: there are as many of each as nodes built with it.

* `Lexeme.asRead`, `Lexeme.leaf` : what a token becomes in a tree;
* `Node.traversal` : a tree from left to right, `Node.uses` : how many nodes in it are built with an operator;
* `Holds` : the tokens that a tree was made of, `Spends` : they stand between two places of a line;
* `readExpression_spends` and its companions : each part of the parser;
* `parseLine_spends` : a line up to its end.
-/

namespace TurtleLogo

namespace Lexeme

def isOperator : Lexeme → Bool
  | .op _ => true
  | _ => false

/-- A lexeme as it is read: a whole number is the double that it stands for. -/
def asRead : Lexeme → Lexeme
  | .integer n => ((Number.ofInt? n).map .float).getD (.integer n)
  | k => k

/-- What a lexeme leaves in a tree read from left to right. Operators leave nothing. -/
def leaf (k : Lexeme) : List Lexeme := if k.isOperator then [] else [k.asRead]

theorem asRead_integer {n : Int} {x : Float} (h : Number.ofInt? n = some x) : (Lexeme.integer n).asRead = .float x := by
  rw [asRead, h, Option.map_some, Option.getD_some]

end Lexeme

namespace Node

mutual

/-- The tokens of a node from left to right, apart from its operators. -/
def traversal : Node → List Lexeme
  | .num x => [.float x]
  | .word s => [.word s]
  | .list items => .opener .square :: (traversals items ++ [.closer .square])
  | .var name => [.var name]
  | .call name => [.name name]
  | .neg operand => traversal operand
  | .binary _ left right => traversal left ++ traversal right
  | .nary _ operands => traversals operands
  | .group items => .opener .round :: (traversals items ++ [.closer .round])
  | .line items => traversals items
  | .output value => traversal value
  | .empty => []

def traversals : List Node → List Lexeme
  | [] => []
  | item :: items => traversal item ++ traversals items

end

mutual

def subnodes : Node → List Node
  | .list items => .list items :: subnodesAll items
  | .neg operand => .neg operand :: subnodes operand
  | .binary op left right => .binary op left right :: (subnodes left ++ subnodes right)
  | .nary op operands => .nary op operands :: subnodesAll operands
  | .group items => .group items :: subnodesAll items
  | .line items => .line items :: subnodesAll items
  | .output value => .output value :: subnodes value
  | n => [n]

def subnodesAll : List Node → List Node
  | [] => []
  | item :: items => subnodes item ++ subnodesAll items

end

/-- Whether a node is an operator with its operands; a negation is one of minus. -/
def isBuiltWith (op : Operator) : Node → Bool
  | .binary op' _ _ | .nary op' _ => op' == op
  | .neg _ => .minus == op
  | _ => false

/-- How many nodes in a node are built with an operator. -/
def uses (n : Node) (op : Operator) : Nat := n.subnodes.countP (·.isBuiltWith op)

def usesAll (ns : List Node) (op : Operator) : Nat := (subnodesAll ns).countP (·.isBuiltWith op)

theorem traversal_variadic (op : Operator) (operands : List Node) :
    (Node.group [.nary op operands]).traversal = .opener .round :: (traversals operands ++ [.closer .round]) := by
  rw [traversal, traversals, traversals, traversal, List.append_nil]

theorem usesAll_cons (n : Node) (ns : List Node) (op : Operator) : usesAll (n :: ns) op = n.uses op + usesAll ns op := by
  rw [usesAll, subnodesAll, List.countP_append]
  rfl

theorem uses_binary (op' : Operator) (left right : Node) (op : Operator) :
    (Node.binary op' left right).uses op = (if op' = op then 1 else 0) + left.uses op + right.uses op := by
  simp only [uses, subnodes, List.countP_cons, List.countP_append, isBuiltWith, beq_iff_eq]
  omega

theorem uses_neg (operand : Node) (op : Operator) :
    (Node.neg operand).uses op = (if Operator.minus = op then 1 else 0) + operand.uses op := by
  simp only [uses, subnodes, List.countP_cons, isBuiltWith, beq_iff_eq]
  omega

theorem uses_group (items : List Node) (op : Operator) : (Node.group items).uses op = usesAll items op := by
  simp [uses, usesAll, subnodes, isBuiltWith]

theorem uses_list (items : List Node) (op : Operator) : (Node.list items).uses op = usesAll items op := by
  simp [uses, usesAll, subnodes, isBuiltWith]

theorem uses_nary (op' : Operator) (operands : List Node) (op : Operator) :
    (Node.nary op' operands).uses op = (if op' = op then 1 else 0) + usesAll operands op := by
  simp only [uses, usesAll, subnodes, List.countP_cons, isBuiltWith, beq_iff_eq]
  omega

end Node

namespace Parsing

/-! ## Tokens that were read -/

def said (ts : List Token) : List Lexeme := (ts.filter (!·.isSpace)).map Token.kind

theorem said_append (ts us : List Token) : said (ts ++ us) = said ts ++ said us := by
  rw [said, List.filter_append, List.map_append]
  rfl

/-- Tokens within a line that leave `leaves` in a tree, and `count` operators of each kind. -/
structure Holds (ts : List Token) (leaves : List Lexeme) (count : Operator → Nat) : Prop where
  inLine : ∀ t ∈ ts, t.kind ≠ .lineEnd
  leaves : (said ts).flatMap Lexeme.leaf = leaves
  count : ∀ op, (said ts).count (.op op) = count op

/-- What was read between two places of a line. -/
def Spends (ts rest : List Token) (leaves : List Lexeme) (count : Operator → Nat) : Prop :=
  ∃ used, ts = used ++ rest ∧ Holds used leaves count

namespace Spends

variable {ts mid rest : List Token} {leaves leaves' : List Lexeme} {count count' : Operator → Nat}

theorem refl (ts : List Token) : Spends ts ts [] fun _ => 0 := ⟨[], rfl, ⟨nofun, rfl, fun _ => rfl⟩⟩

theorem trans (h : Spends ts mid leaves count) (h' : Spends mid rest leaves' count') :
    Spends ts rest (leaves ++ leaves') fun op => count op + count' op := by
  obtain ⟨used, rfl, hl, hleaves, hcount⟩ := h
  obtain ⟨used', rfl, hl', hleaves', hcount'⟩ := h'
  refine ⟨used ++ used', (List.append_assoc ..).symm, fun t ht => ?_, ?_, fun op => ?_⟩
  · rcases List.mem_append.mp ht with ht | ht
    · exact hl t ht
    · exact hl' t ht
  · rw [said_append, List.flatMap_append, hleaves, hleaves']
  · rw [said_append, List.count_append, hcount, hcount']

theorem of_eq (h : Spends ts rest leaves count) (hleaves : leaves = leaves') (hcount : ∀ op, count op = count' op) :
    Spends ts rest leaves' count' := by
  rw [← hleaves, ← (funext hcount : count = count')]
  exact h

theorem suffix (h : Spends ts rest leaves count) : rest <:+ ts := by
  obtain ⟨used, rfl, -⟩ := h
  exact List.suffix_append used rest

theorem skipSpaces (ts : List Token) : Spends ts (skipSpaces ts) [] fun _ => 0 := by
  refine ⟨ts.takeWhile Token.isSpace, List.takeWhile_append_dropWhile.symm, fun t ht hend => ?_, ?_, fun op => ?_⟩
  · have hspace := List.mem_takeWhile_imp ht
    rw [Token.isSpace, hend] at hspace
    cases hspace
  all_goals
    have hnone : said (ts.takeWhile Token.isSpace) = [] := by
      rw [said, List.filter_eq_nil_iff.mpr]
      · rfl
      · intro t ht
        simp [List.mem_takeWhile_imp ht]
    rw [hnone]
    rfl

theorem next {t : Token} (hs : Parsing.skipSpaces ts = t :: rest) (hend : t.kind ≠ .lineEnd) (ht : t.isSpace = false) :
    Spends ts rest t.kind.leaf fun op => if t.kind = .op op then 1 else 0 := by
  have htoken : Spends (t :: rest) rest t.kind.leaf fun op => if t.kind = .op op then 1 else 0 := by
    refine ⟨[t], rfl, ?_, ?_, fun op => ?_⟩
    · simpa using hend
    · simp [said, ht]
    · simp [said, ht, List.count_singleton]
  have hskip := skipSpaces ts
  rw [hs] at hskip
  exact (hskip.trans htoken).of_eq rfl fun op => Nat.zero_add _

end Spends

theorem eq_cons_of_variadic? {ts rest : List Token} {o : Operator} (h : variadic? ts = some (o, rest)) :
    ∃ col, ts = ⟨.op o, col⟩ :: rest := by
  rcases ts with _ | ⟨⟨kind, col⟩, ts⟩
  · cases h
  · cases kind with
    | op o' =>
      simp only [variadic?] at h
      split at h
      · cases h
        exact ⟨col, rfl⟩
      · cases h
    | _ => cases h

def SpendsOn (ts : List Token) (r : Node × List Token) : Prop := Spends ts r.2 r.1.traversal r.1.uses

/-! ## The parts of the parser -/

mutual

theorem readExpression_spends (floor : Nat) (ts : List Token) :
    Gives (readExpression floor ts) (SpendsOn ts) := by
  rw [readExpression_eq]
  refine .bind (readPrimary_spends ts) fun ⟨first, rest⟩ h hfirst => ?_
  have := length_lt_of_readPrimary h
  dsimp only
  split
  · exact .ok hfirst
  · intro ⟨tree, rest'⟩ hread
    obtain ⟨leaves, count, hrest, hleaves, hcount⟩ := readClimb_spends floor first rest _ hread
    exact (hfirst.trans hrest).of_eq hleaves.symm fun op => (hcount op).symm
termination_by 3 * ts.length + 1

/-- Climbing puts what it reads behind the operand that it began with. -/
theorem readClimb_spends (floor : Nat) (left : Node) (ts : List Token) :
    Gives (readClimb floor left ts) fun r => ∃ leaves count, Spends ts r.2 leaves count ∧
      r.1.traversal = left.traversal ++ leaves ∧ ∀ op, r.1.uses op = left.uses op + count op := by
  have hstop {rest : List Token} (h : Spends ts rest [] fun _ => 0) :
      Gives (.ok (left, rest) : Except ParseError (Node × List Token)) fun r => ∃ leaves count,
        Spends ts r.2 leaves count ∧ r.1.traversal = left.traversal ++ leaves ∧
          ∀ op, r.1.uses op = left.uses op + count op :=
    .ok ⟨[], fun _ => 0, h, (List.append_nil _).symm, fun _ => rfl⟩
  cases hn : startsNegation ts with
  | true =>
    rw [readClimb_of_negation hn]
    exact hstop (.refl ts)
  | false =>
    by_cases hop : ∃ o col rest, skipSpaces ts = ⟨.op o, col⟩ :: rest
    · obtain ⟨o, col, rest, ho⟩ := hop
      have := length_lt_of_skipSpaces ho
      rw [readClimb_of_op hn ho]
      split
      · rw [← ho]
        exact hstop (.skipSpaces ts)
      · split
        · exact .error _
        · refine .bind (readExpression_spends o.level rest) fun ⟨right, rest'⟩ h hright => ?_
          have := length_lt_of_readExpression h
          intro ⟨tree, rest''⟩ hread
          obtain ⟨leaves, count, hrest, hleaves, hcount⟩ := readClimb_spends floor (.binary o left right) rest' _ hread
          refine ⟨_, _, ((Spends.next ho nofun rfl).trans hright).trans hrest, ?_, fun op => ?_⟩
          · rw [hleaves]
            simp [Node.traversal, Lexeme.leaf, Lexeme.isOperator]
          · rw [hcount, Node.uses_binary]
            simp only [Lexeme.op.injEq]
            omega
    · rw [readClimb_of_other hn fun o col rest ho => hop ⟨o, col, rest, ho⟩]
      exact hstop (.skipSpaces ts)
termination_by 3 * ts.length

theorem readPrimary_spends (ts : List Token) : Gives (readPrimary ts) (SpendsOn ts) := by
  rcases hs : skipSpaces ts with _ | ⟨⟨kind, col⟩, rest⟩
  · rw [readPrimary_nil hs]
    exact .error _
  · have := length_lt_of_skipSpaces hs
    rw [readPrimary_cons hs]
    cases kind with
    | integer n =>
      dsimp only
      cases hx : Number.ofInt? n with
      | some x =>
        exact .ok ((Spends.next hs nofun rfl).of_eq (congrArg ([·]) (Lexeme.asRead_integer hx)) fun _ => rfl)
      | none => exact .error _
    | float | var | word | name => exact .ok ((Spends.next hs nofun rfl).of_eq rfl fun _ => rfl)
    | opener b =>
      have hopen := Spends.next hs nofun rfl
      cases b with
      | square =>
        refine .bind (readSequence_spends _ _ rest) fun _ _ hitems => .ok ?_
        refine (hopen.trans hitems).of_eq rfl fun op => ?_
        rw [Node.uses_list]
        exact Nat.zero_add _
      | round =>
        dsimp only
        cases hv : variadic? (skipSpaces rest) with
        | none =>
          refine .bind (readSequence_spends _ _ rest) fun _ _ hitems => .ok ?_
          refine (hopen.trans hitems).of_eq rfl fun op => ?_
          rw [Node.uses_group]
          exact Nat.zero_add _
        | some found =>
          obtain ⟨o, operands⟩ := found
          have := length_lt_of_variadic? hv
          have := length_skipSpaces_le rest
          refine .bind (readSequence_spends _ _ operands) fun ⟨items, rest'⟩ _ hitems => .ok ?_
          obtain ⟨col', ho⟩ := eq_cons_of_variadic? hv
          refine ((hopen.trans (.next ho nofun rfl)).trans hitems).of_eq (Node.traversal_variadic o items).symm fun op => ?_
          rw [Node.uses_group, Node.usesAll_cons, Node.uses_nary]
          simp [Node.usesAll, Node.subnodesAll]
    | op o =>
      have hsign := Spends.next hs nofun rfl
      dsimp only
      split
      · next hneg =>
        obtain ⟨rfl, -⟩ := hneg
        refine .bind (readPrimary_spends rest) fun _ _ hoperand => .ok ?_
        refine (hsign.trans hoperand).of_eq rfl fun op => ?_
        rw [Node.uses_neg]
        simp only [Lexeme.op.injEq]
      · split
        · exact .error _
        · refine .bind (readExpression_spends 0 rest) fun ⟨left, rest'⟩ h hleft => ?_
          have := length_lt_of_readExpression h
          dsimp only
          split
          · exact .error _
          · refine .bind (readExpression_spends 0 rest') fun _ _ hright => .ok ?_
            refine ((hsign.trans hleft).trans hright).of_eq rfl fun op => ?_
            rw [Node.uses_binary]
            simp only [Lexeme.op.injEq]
    | _ => exact .error _
termination_by 3 * ts.length

theorem readSequence_spends (opener : Token) (bracket : Bracket) (ts : List Token) :
    Gives (readSequence opener bracket ts) fun r =>
      Spends ts r.2 (Node.traversals r.1 ++ [.closer bracket]) (Node.usesAll r.1) := by
  rcases hs : skipSpaces ts with _ | ⟨⟨kind, col⟩, rest⟩
  · rw [readSequence_nil hs]
    exact .error _
  · rw [readSequence_cons hs]
    have hitems : Gives (readExpression 0 ts >>= fun (item, rest') =>
        readSequence opener bracket rest' >>= fun (items, rest'') => .ok (item :: items, rest''))
        fun r => Spends ts r.2 (Node.traversals r.1 ++ [.closer bracket]) (Node.usesAll r.1) := by
      refine .bind (readExpression_spends 0 ts) fun ⟨item, rest'⟩ h hitem => ?_
      have := length_lt_of_readExpression h
      refine .bind (readSequence_spends opener bracket rest') fun ⟨items, rest''⟩ _ hitems => .ok ?_
      refine (hitem.trans hitems).of_eq (List.append_assoc ..).symm fun op => ?_
      exact (Node.usesAll_cons item items op).symm
    cases kind with
    | closer b =>
      dsimp only
      split
      · next hb =>
        subst hb
        exact .ok ((Spends.next hs nofun rfl).of_eq rfl fun _ => rfl)
      · exact .error _
    | lineEnd => exact .error _
    | _ => exact hitems
termination_by 3 * ts.length + 2

end

end Parsing

open Parsing

/-- The items of a line stand for its tokens up to its end, and only spaces follow the end. -/
theorem parseLine_spends (ts : List Token) : Gives (parseLine ts) fun items => ∃ rest,
    Spends ts rest (Node.traversals items) (Node.usesAll items) ∧
      ∀ t more, rest = t :: more → t.kind = .lineEnd ∧ ∀ u ∈ more, u.isSpace = true := by
  rcases hs : skipSpaces ts with _ | ⟨⟨kind, col⟩, rest⟩
  · rw [parseLine_nil hs]
    have hskip := Spends.skipSpaces ts
    rw [hs] at hskip
    exact .ok ⟨[], hskip, nofun⟩
  · rw [parseLine_cons hs]
    have hitems : Gives (readExpression 0 ts >>= fun (item, rest') =>
        parseLine rest' >>= fun items => .ok (item :: items)) fun items => ∃ rest,
          Spends ts rest (Node.traversals items) (Node.usesAll items) ∧
            ∀ t more, rest = t :: more → t.kind = .lineEnd ∧ ∀ u ∈ more, u.isSpace = true := by
      refine .bind (readExpression_spends 0 ts) fun ⟨item, rest'⟩ h hitem => ?_
      have := length_lt_of_readExpression h
      refine .bind (parseLine_spends rest') fun items _ ⟨last, hitems, hlast⟩ => .ok ⟨last, ?_, hlast⟩
      exact (hitem.trans hitems).of_eq rfl fun op => (Node.usesAll_cons item items op).symm
    cases kind with
    | lineEnd =>
      dsimp only
      split
      · next hnil =>
        have hskip := Spends.skipSpaces ts
        rw [hs] at hskip
        refine .ok ⟨_, hskip, ?_⟩
        rintro _ _ ⟨⟩
        exact ⟨rfl, by simpa [skipSpaces] using hnil⟩
      · exact .error _
    | closer b => exact .error _
    | _ => exact hitems
termination_by ts.length

end TurtleLogo
