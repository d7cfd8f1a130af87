import TurtleLogo.Eval.Primitive
import TurtleLogo.Proofs.Parser.Nodes

/-!
# Values

Programs and values are made of the same nodes. A value is a number, a word or a list, and a list holds what can be read
or values again: what was typed in brackets, and what was put there later. Nothing else ever gets into one, in particular
no line, no output and no empty node.

* `Node.IsElement` : what a list may hold;
* `Node.IsValue` : numbers, words, and lists of elements;
* `Node.Plain` : nodes without lines, outputs and empty nodes anywhere inside, with `Node.IsValue.plain`;
* `Node.Runs` : nodes that can be evaluated, and whose lists are values, with `Node.IsElement.runs`;
* `item?_isValue` : what is taken out of a value is a value.
-/

namespace TurtleLogo

namespace Node

/-- What a list may hold: a node that can be read, or a value. -/
inductive IsElement : Node → Prop
  | read {n : Node} : n.IsRead → IsElement n
  | num (x : Float) : IsElement (.num x)
  | word (s : String) : IsElement (.word s)
  | list {items : List Node} : (∀ n ∈ items, IsElement n) → IsElement (.list items)

/-- A number, a word, or a list of elements. -/
def IsValue : Node → Prop
  | .num _ | .word _ => True
  | .list items => ∀ n ∈ items, n.IsElement
  | _ => False

/-- A node in which no line, no output and no empty node occurs at any depth. -/
inductive Plain : Node → Prop
  | num (x : Float) : Plain (.num x)
  | word (s : String) : Plain (.word s)
  | var (name : String) : Plain (.var name)
  | call (name : String) : Plain (.call name)
  | list {items : List Node} : (∀ n ∈ items, Plain n) → Plain (.list items)
  | neg {operand : Node} : Plain operand → Plain (.neg operand)
  | binary {op : Operator} {left right : Node} : Plain left → Plain right → Plain (.binary op left right)
  | nary {op : Operator} {items : List Node} : (∀ n ∈ items, Plain n) → Plain (.nary op items)
  | group {items : List Node} : (∀ n ∈ items, Plain n) → Plain (.group items)

/-- A node that can be evaluated where a queue is open. Its lists, which evaluate to themselves, are values. -/
inductive Runs : Node → Prop
  | num (x : Float) : Runs (.num x)
  | word (s : String) : Runs (.word s)
  | var (name : String) : Runs (.var name)
  | call (name : String) : Runs (.call name)
  | list {items : List Node} : (∀ n ∈ items, n.IsElement) → Runs (.list items)
  | neg {operand : Node} : Runs operand → Runs (.neg operand)
  | binary {op : Operator} {left right : Node} : Runs left → Runs right → Runs (.binary op left right)
  | nary {op : Operator} {items : List Node} : (∀ n ∈ items, Runs n) → Runs (.nary op items)
  | group {items : List Node} : (∀ n ∈ items, Runs n) → Runs (.group items)

theorem IsRead.plain {n : Node} (h : n.IsRead) : n.Plain :=
  h.induct
    { num := .num, word := .word, var := .var, call := .call
      list := fun h => .list fun n hn => (h n hn).2
      group := fun h => .group fun n hn => (h n hn).2
      variadic := fun h => .group (List.forall_mem_singleton.mpr (.nary fun n hn => (h n hn).2))
      neg := .neg, binary := .binary }

theorem IsRead.runs {n : Node} (h : n.IsRead) : n.Runs :=
  h.induct
    { num := .num, word := .word, var := .var, call := .call
      list := fun h => .list fun n hn => .read (h n hn).1
      group := fun h => .group fun n hn => (h n hn).2
      variadic := fun h => .group (List.forall_mem_singleton.mpr (.nary fun n hn => (h n hn).2))
      neg := .neg, binary := .binary }

theorem IsElement.plain {n : Node} (h : n.IsElement) : n.Plain := by
  induction h with
  | read h => exact h.plain
  | num x => exact .num x
  | word s => exact .word s
  | list _ ih => exact .list ih

theorem IsElement.runs {n : Node} (h : n.IsElement) : n.Runs := by
  cases h with
  | read h => exact h.runs
  | num x => exact .num x
  | word s => exact .word s
  | list h => exact .list h

theorem IsValue.plain {v : Node} (h : v.IsValue) : v.Plain := by
  cases v with
  | num x => exact .num x
  | word s => exact .word s
  | list items => exact .list fun n hn => (h n hn).plain
  | _ => exact h.elim

theorem IsValue.isElement {v : Node} (h : v.IsValue) : v.IsElement := by
  cases v with
  | num x => exact .num x
  | word s => exact .word s
  | list items => exact .list h
  | _ => exact h.elim

theorem Runs.isElement_of_list {items : List Node} (h : (Node.list items).Runs) : ∀ n ∈ items, n.IsElement := by
  cases h with
  | list h => exact h

/-- An element taken out of a list is a value. -/
theorem IsElement.asValue {n : Node} (h : n.IsElement) : n.asValue.IsValue := by
  cases n with
  | list items => exact h.runs.isElement_of_list
  | _ => trivial

end Node

theorem elements_isElement {v : Node} (h : v.IsValue) : ∀ n ∈ elements v, n.IsElement := by
  cases v with
  | list items => exact h
  | num x | word s =>
    intro n hn
    obtain ⟨c, -, rfl⟩ := List.mem_map.mp hn
    exact .word _
  | _ => exact h.elim

theorem item?_isValue {index : Float} {thing v : Node} (hthing : thing.IsValue) (h : item? index thing = some v) :
    v.IsValue := by
  unfold item? at h
  dsimp only at h
  split at h
  · obtain ⟨n, hn, rfl⟩ := Option.map_eq_some_iff.mp h
    exact (elements_isElement hthing n (List.mem_of_getElem? hn)).asValue
  · cases h

end TurtleLogo
