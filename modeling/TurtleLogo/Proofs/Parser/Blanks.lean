import Mathlib.Data.List.Chain
import TurtleLogo.Proofs.Parser.Blame
import TurtleLogo.Proofs.Parser.Spaces

/-!
# Blanks away from a minus

Blanks matter next to a minus only: before it they tell a new expression from a difference, and behind it a difference
from a change of sign. Any other blank can be left out, and the line has the same expressions, or is refused with the same
error at the same column.

* `Drops` : one list of tokens is the other with blanks left out that stand next to no minus;
* `blind_drops` : the parser cannot tell them apart;
* `parseLine_erase_blank` : a line with one blank left out.
-/

namespace TurtleLogo

namespace Parsing

/-- The second list is the first with spaces left out. None of them stands next to a minus or before another space. -/
inductive Drops : List Token → List Token → Prop
  | same (ts : List Token) : Drops ts ts
  | here {t : Token} {ts : List Token} (space : t.isSpace = true)
      (next : ∀ u ∈ ts.head?, u.isSpace = false ∧ u.kind ≠ .op .minus) : Drops (t :: ts) ts
  | later (t : Token) {ts us : List Token} (h : Drops ts us) (minus : t.kind = .op .minus → ts.head? = us.head?) :
      Drops (t :: ts) (t :: us)

namespace Drops

variable {ts us : List Token}

theorem skipSpaces (h : Drops ts us) : Drops (skipSpaces ts) (skipSpaces us) := by
  induction h with
  | same ts => exact .same _
  | here space _ =>
    rw [skipSpaces_space _ space]
    exact .same _
  | @later t ts us h minus ih =>
    cases hs : t.isSpace with
    | true => rwa [skipSpaces_space _ hs, skipSpaces_space _ hs]
    | false =>
      rw [skipSpaces_other _ hs, skipSpaces_other _ hs]
      exact .later t h minus

/-- Where neither list begins with a space, the same token comes next. -/
theorem next (h : Drops ts us) (hs : Parsing.skipSpaces ts = ts) : (ts = [] ∧ us = []) ∨
    ∃ t rest rest', ts = t :: rest ∧ us = t :: rest' ∧ Drops rest rest' ∧
      (t.kind = .op .minus → rest.head? = rest'.head?) := by
  cases h with
  | same =>
    cases ts with
    | nil => exact .inl ⟨rfl, rfl⟩
    | cons t rest => exact .inr ⟨t, rest, rest, rfl, rfl, .same rest, fun _ => rfl⟩
  | here space _ =>
    rw [isSpace_of_skipSpaces hs] at space
    cases space
  | @later t ts us h minus => exact .inr ⟨t, ts, us, rfl, rfl, h, minus⟩

/-- A minus that comes second has the same token behind it, if any token has been left out before it. -/
theorem startsNegation_eq (h : Drops ts us) : startsNegation ts = startsNegation us := by
  have hspace {t : Token} (ht : t.isSpace = true) : t.kind ≠ .op .minus := by
    intro hk
    rw [Token.isSpace, hk] at ht
    cases ht
  cases h with
  | same => rfl
  | @here b _ space next =>
    cases us with
    | nil => rfl
    | cons u us =>
      obtain ⟨hu, hminus⟩ := next u rfl
      rw [startsNegation_of_not_minus hminus, startsNegation_of_not_space us hu]
  | @later s ts us h _ =>
    cases h with
    | same => rfl
    | here space next =>
      rw [startsNegation_of_not_minus (hspace space)]
      cases us with
      | nil => rfl
      | cons u us => rw [startsNegation_of_not_minus (next u rfl).2]
    | @later m ts us _ minus =>
      by_cases hm : m.kind = .op .minus
      · have hhead := minus hm
        cases ts <;> cases us <;> first
          | rfl
          | cases hhead
        rfl
      · rw [startsNegation_of_not_minus hm, startsNegation_of_not_minus hm]

end Drops

theorem isNegatable_of_head? {ts us : List Token} (h : ts.head? = us.head?) : isNegatable ts = isNegatable us := by
  cases ts <;> cases us <;> cases h <;> rfl

/-- The parser is blind to blanks that stand next to no minus. -/
theorem blind_drops : Blind Drops Drops where
  anywhere := id
  next := by
    intro ts us h
    obtain ⟨hts, hus⟩ | ⟨t, rest, rest', hts, hus, hrest, hminus⟩ := h.skipSpaces.next (skipSpaces_skipSpaces ts)
    · exact .inl ⟨hts, hus⟩
    · exact .inr ⟨t, rest, rest', hts, hus, hrest, fun _ => hrest, fun ht => isNegatable_of_head? (hminus ht)⟩
  skip := Drops.skipSpaces
  negation := Drops.startsNegation_eq

theorem drops_blank {before after : List Token} {b : Token} (hb : b.kind = .blank)
    (hcont : ∀ t ∈ before ++ b :: after, t.kind ≠ .lineCont)
    (hruns : (before ++ b :: after).IsChain fun t u => ¬ (t.kind = .blank ∧ u.kind = .blank))
    (hleft : ∀ t ∈ before.getLast?, t.kind ≠ .op .minus) (hright : ∀ t ∈ after.head?, t.kind ≠ .op .minus) :
    Drops (before ++ b :: after) (before ++ after) := by
  induction before with
  | nil =>
    refine .here (by rw [Token.isSpace, hb]; rfl) fun u hu => ⟨?_, hright u hu⟩
    have hblank : u.kind ≠ .blank := fun h => (List.isChain_cons.mp hruns).1 u hu ⟨hb, h⟩
    have hline : u.kind ≠ .lineCont := hcont u (List.mem_cons_of_mem _ (List.mem_of_mem_head? hu))
    obtain ⟨kind, col⟩ := u
    cases kind <;> first | rfl | contradiction
  | cons t before ih =>
    refine .later t (ih ?_ (List.isChain_cons.mp hruns).2 ?_) fun ht => ?_
    · exact (List.forall_mem_cons.mp hcont).2
    · intro u hu
      exact hleft u (by rw [List.getLast?_cons, Option.mem_def.mp hu]; rfl)
    · cases before with
      | nil => exact (hleft t rfl ht).elim
      | cons u before => rfl

theorem col_of_blames {ts : List Token} {e : ParseError} (h : BlamesLine ts e) (us vs : List Token) :
    e.col us = e.col vs := by
  obtain ⟨t, -, ht⟩ := h.exists_token
  rw [ParseError.col, ParseError.col, ht]

end Parsing

open Parsing

/-- **Blanks matter next to a minus only.** In a line without continuations and without neighbouring blanks, any blank that
does not stand next to a minus can be left out: the line has the same expressions, or is refused with the same error at
the same column. -/
theorem parseLine_erase_blank {before after : List Token} {b : Token} (hb : b.kind = .blank)
    (hcont : ∀ t ∈ before ++ b :: after, t.kind ≠ .lineCont)
    (hruns : (before ++ b :: after).IsChain fun t u => ¬ (t.kind = .blank ∧ u.kind = .blank))
    (hleft : ∀ t ∈ before.getLast?, t.kind ≠ .op .minus) (hright : ∀ t ∈ after.head?, t.kind ≠ .op .minus) :
    parseLine (before ++ after) = parseLine (before ++ b :: after) ∧
      ∀ e, parseLine (before ++ b :: after) = .error e → e.col (before ++ after) = e.col (before ++ b :: after) := by
  refine ⟨(parseLine_blind blind_drops (drops_blank hb hcont hruns hleft hright)).symm, fun e he => ?_⟩
  exact col_of_blames (parseLine_blames _ e he) _ _

/-- The blank behind a plus, before a negation that a blank sets off and a bracket that nothing closes: `+ :A -(:B`. -/
theorem parseLine_erase_blank_plus :
    parseLine [⟨.op .plus, 0⟩, ⟨.var "A", 2⟩, ⟨.blank, 4⟩, ⟨.op .minus, 5⟩, ⟨.opener .round, 6⟩, ⟨.var "B", 7⟩] =
      parseLine [⟨.op .plus, 0⟩, ⟨.blank, 1⟩, ⟨.var "A", 2⟩, ⟨.blank, 4⟩, ⟨.op .minus, 5⟩, ⟨.opener .round, 6⟩,
        ⟨.var "B", 7⟩] ∧
    parseLine [⟨.op .plus, 0⟩, ⟨.blank, 1⟩, ⟨.var "A", 2⟩, ⟨.blank, 4⟩, ⟨.op .minus, 5⟩, ⟨.opener .round, 6⟩,
        ⟨.var "B", 7⟩] = .error (.unclosed ⟨.opener .round, 6⟩ .round) := by
  refine ⟨(@parseLine_erase_blank [⟨.op .plus, 0⟩] _ ⟨.blank, 1⟩ rfl ?_ ?_ ?_ ?_).1, by cbv⟩
  all_goals decide

end TurtleLogo
