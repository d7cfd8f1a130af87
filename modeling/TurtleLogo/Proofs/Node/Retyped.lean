import TurtleLogo.Proofs.Number.Numerals

/-!
# Typing values again

The source of a value, typed in again, is read as a node, and not always as the value itself: in a list the quotes of
words are not printed, a negative number reads as a negation, and operators have lost the order that brackets would
show. Where nothing like this happens, the value is canonical but for the sign of a zero.

* `Node.retyped` : a node with no sign at its zeros;
* `Node.isRetypable` : whether the source of a node reads as the node;
* `Node.canonical_retyped` : then the node read is canonical.
-/

namespace TurtleLogo

open Number Lexer

/-- What the text of a number reads as: zero has no sign. -/
def Number.retyped (x : Float) : Float := if x = -0 then 0 else x

theorem Number.numberText_retyped (x : Float) : numberText (retyped x) = numberText x := by
  unfold retyped
  split
  · next h =>
    subst h
    decide +kernel
  · rfl

theorem isAlpha_of_isDigit {c : Char} (h : c.isDigit = true) : c.isAlpha = false := by
  grind [Char.isDigit, Char.isAlpha, Char.isUpper, Char.isLower]

/-- A number whose text is digits, with a point perhaps, is read back. -/
theorem Number.reads_retyped {x : Float} (h : (numberText x).toList.all fun c => c.isDigit || c == '.') :
    (numeral (retyped x)).number? = some (retyped x) := by
  have hletter : isLetterless x = true := by
    refine List.all_eq_true.mpr fun c hc => ?_
    have hdigit := List.all_eq_true.mp h c hc
    rw [Bool.or_eq_true, beq_iff_eq] at hdigit
    rcases hdigit with hdigit | rfl
    · rw [isAlpha_of_isDigit hdigit]
      rfl
    · rfl
  rcases isLetterless_cases hletter with (rfl | rfl) | ⟨d, s, rfl⟩
  · decide +kernel
  · decide +kernel
  · cases s with
    | positive =>
      rw [retyped, if_neg d.float_ne_neg_zero]
      exact (d.reads hletter).2
    | negative =>
      rw [d.numberText_negative, String.toList_append] at h
      exact absurd (List.all_eq_true.mp h '-' (List.mem_append_left _ (by decide))) (by decide)

namespace Node

mutual

/-- A node as it is read when its source is typed again: zero has no sign. -/
def retyped : Node → Node
  | .num x => .num (Number.retyped x)
  | .list items => .list (retypeds items)
  | .neg operand => .neg operand.retyped
  | .binary op left right => .binary op left.retyped right.retyped
  | .nary op operands => .nary op (retypeds operands)
  | .group items => .group (retypeds items)
  | .line items => .line (retypeds items)
  | .output value => .output value.retyped
  | n => n

def retypeds : List Node → List Node
  | [] => []
  | item :: items => item.retyped :: retypeds items

end

mutual

/-- Whether the source of a node, typed in a list, is read as the node itself. -/
def isRetypable : Node → Bool
  | .num x => (numberText x).toList.all fun c => c.isDigit || c == '.'
  | .word s => s.toList.all isPlain
  | .var s => s.toList.all isPlain
  | .call s => s.toList.all isPlain && s != "" && (Numeral.read? 'E' s.toList).isNone
  | .neg operand => operand.isNegatable && operand.isRetypable
  | .binary op left right =>
    !left.isCall && op.level ≤ left.level && op.level < right.level && left.isRetypable && right.isRetypable
  | .list items => items.all (!·.isWord) && areRetypable items
  | .group [.nary op operands] => op.isVariadic && areRetypable operands
  | .group items => areRetypable items
  | _ => false

def areRetypable : List Node → Bool
  | [] => true
  | item :: items => item.isRetypable && areRetypable items

end

mutual

theorem text_retyped (quoted : Bool) : ∀ n : Node, n.retyped.text quoted = n.text quoted
  | .num x => by rw [retyped, text, text, numberText_retyped]
  | .list items => by rw [retyped, text, text, texts_retypeds]
  | .neg operand => by rw [retyped, text, text, text_retyped]
  | .binary op left right => by rw [retyped, text, text, text_retyped, text_retyped]
  | .nary op operands => by rw [retyped, text, text, texts_retypeds]
  | .group items => by rw [retyped, text, text, texts_retypeds]
  | .line items => by rw [retyped, text, text, texts_retypeds]
  | .output value => by rw [retyped, text, text, text_retyped]
  | .word _ | .var _ | .call _ | .empty => rfl

theorem texts_retypeds (quoted : Bool) : ∀ items : List Node, texts quoted (retypeds items) = texts quoted items
  | [] => rfl
  | item :: items => by rw [retypeds, texts, texts, text_retyped, texts_retypeds]

end

theorem level_retyped (n : Node) : n.retyped.level = n.level := by
  cases n <;> rfl

theorem isCall_retyped (n : Node) : n.retyped.isCall = n.isCall := by
  cases n <;> rfl

theorem isWord_retyped (n : Node) : n.retyped.isWord = n.isWord := by
  cases n <;> rfl

theorem isNegatable_retyped (n : Node) : n.retyped.isNegatable = n.isNegatable := by
  cases n <;> rfl

theorem forall_mem_retypeds {P : Node → Prop} {items : List Node} (h : ∀ item ∈ items, P item.retyped) :
    ∀ item ∈ retypeds items, P item := by
  induction items with
  | nil => exact fun _ h => nomatch h
  | cons item items ih =>
    obtain ⟨hitem, hitems⟩ := List.forall_mem_cons.mp h
    exact List.forall_mem_cons.mpr ⟨hitem, ih hitems⟩

theorem isRetypable_group {items : List Node} (h : (Node.group items).isRetypable = true) :
    areRetypable items = true ∨
      ∃ op operands, items = [.nary op operands] ∧ op.isVariadic = true ∧ areRetypable operands = true := by
  by_cases hnary : ∃ op operands, items = [.nary op operands]
  · obtain ⟨op, operands, rfl⟩ := hnary
    rw [isRetypable, Bool.and_eq_true] at h
    exact .inr ⟨op, operands, rfl, h.1, h.2⟩
  · rw [isRetypable] at h
    · exact .inl h
    · rintro op operands rfl
      exact hnary ⟨op, operands, rfl⟩

mutual

theorem canonical_retyped : ∀ {n : Node}, n.isRetypable = true → n.retyped.Canonical
  | .num x, h => by
    rw [isRetypable] at h
    refine .num ?_ (reads_retyped h)
    rw [numberText_retyped]
    exact h
  | .word s, h => .word h
  | .var s, h => .var h
  | .call s, h => by
    simp only [isRetypable, Bool.and_eq_true, bne_iff_ne, Option.isNone_iff_eq_none] at h
    exact .call h.1.1 h.1.2 h.2
  | .neg operand, h => by
    rw [isRetypable, Bool.and_eq_true] at h
    exact .neg (canonical_retyped h.2) (operand.isNegatable_retyped ▸ h.1)
  | .binary op left right, h => by
    simp only [isRetypable, Bool.and_eq_true, Bool.not_eq_true', decide_eq_true_eq] at h
    obtain ⟨⟨⟨⟨hcall, hle⟩, hlt⟩, hl⟩, hr⟩ := h
    exact .binary (canonical_retyped hl) (canonical_retyped hr) (left.isCall_retyped.trans hcall)
      (left.level_retyped ▸ hle) (right.level_retyped ▸ hlt)
  | .list items, h => by
    rw [isRetypable, Bool.and_eq_true] at h
    refine .list (canonical_retypeds h.2) (forall_mem_retypeds fun item hm => ?_)
    rw [isWord_retyped]
    simpa using List.all_eq_true.mp h.1 item hm
  | .group items, h => by
    rcases isRetypable_group h with hitems | ⟨op, operands, rfl, hop, hoperands⟩
    · exact .group (canonical_retypeds hitems)
    · exact .variadic (canonical_retypeds hoperands) hop

theorem canonical_retypeds : ∀ {items : List Node}, areRetypable items = true →
    ∀ item ∈ retypeds items, item.Canonical
  | [], _ => fun _ h => nomatch h
  | item :: items, h => by
    rw [areRetypable, Bool.and_eq_true] at h
    exact List.forall_mem_cons.mpr ⟨canonical_retyped h.1, canonical_retypeds h.2⟩

end

end Node

end TurtleLogo
