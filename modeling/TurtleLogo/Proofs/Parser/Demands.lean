import TurtleLogo.Proofs.Parser.Watch

/-!
# Demands of the parser

The parser asks for a primary only where one can begin: behind the spaces that come next stands a token that neither ends
the line nor closes a bracket. So what is missing is noticed before, and reported at the token that needs it: a missing
operand at its operator, and a missing bracket at the one that opens.

* `RefusedAt ts t message` : a line is refused with a message at one of its tokens;
* `IsUnexpected message` : something stands in place of an expression, which is never said of a line;
* `exists_cons_of_endsOperand` : where an operand can begin;
* `parseLine_demands` : what the parser asks for.
-/

namespace TurtleLogo

open Parsing Watched Text

namespace Parsing

/-- A line is refused with a message at the column of one of its tokens. -/
def RefusedAt (ts : List Token) (t : Token) (message : Message) : Prop :=
  t ∈ ts ∧ ∃ e, parseLine ts = .error e ∧ e.message = message ∧ e.col ts = t.col

theorem RefusedAt.of_error {ts : List Token} {e : ParseError} {t : Token} (h : parseLine ts = .error e)
    (ht : e.token? = some t) : RefusedAt ts t e.message := by
  obtain ⟨u, hu, htoken⟩ := (parseLine_blames ts e h).exists_token
  cases ht.symm.trans htoken
  refine ⟨hu, e, h, rfl, ?_⟩
  rw [ParseError.col, ht]

/-- What is said where the line ends, or a bracket closes, in place of an expression. -/
def IsUnexpected (message : Message) : Prop :=
  message = (["unexpected end of line"] : Message) ∨ ∃ text, message = (["unexpected '", .part text, "'"] : Message)

theorem not_isUnexpected_of_parseLine {ts : List Token} {e : ParseError} (h : parseLine ts = .error e) :
    ¬ IsUnexpected e.message := by
  cases parseLine_blames ts e h with
  | inside hblames =>
    obtain ⟨t, -, -, hfits⟩ := hblames
    cases e with
    | endOfLine t' => exact hfits.elim
    | strayCloser t' => exact hfits.elim
    | _ => simp [IsUnexpected, ParseError.message]
  | behind => simp [IsUnexpected, ParseError.message]

/-- An operand can begin where a token comes next that neither ends the line nor closes a bracket. -/
theorem exists_cons_of_endsOperand {ts : List Token} (h : endsOperand ts = false) :
    ∃ t rest, ts = t :: rest ∧ t.kind ≠ .lineEnd ∧ ∀ b, t.kind ≠ .closer b := by
  rcases ts with _ | ⟨⟨kind, col⟩, rest⟩
  · cases h
  · refine ⟨_, rest, rfl, ?_, fun b => ?_⟩
    all_goals
      rintro rfl
      cases h

end Parsing

/-- **Primaries are asked for only where they begin.** Wherever the parser asks for a primary, the next token but spaces
neither ends the line nor closes a bracket. Where it asks for an operand and none can begin, the line is refused at the
operator, and where the line ends before a bracket is closed, it is refused at this bracket. So no line is refused because
it ends, or because a bracket closes, in place of an expression. -/
theorem parseLine_demands (ts : List Token) :
    ∃ asked, (watchLine (ts.length + 1) (4 * ts.length + 2) ts).outcome = some (parseLine ts, asked) ∧
      (∀ us, (Demand.primary, us) ∈ asked →
        ∃ t rest, skipSpaces us = t :: rest ∧ t.kind ≠ .lineEnd ∧ ∀ b, t.kind ≠ .closer b) ∧
      (∀ op us, (Demand.operand op, us) ∈ asked → endsOperand (skipSpaces us) = true →
        RefusedAt ts op ["'", .part op.kind.text, "' needs more inputs"]) ∧
      (∀ opener bracket us, (Demand.close opener bracket, us) ∈ asked → atLineEnd (skipSpaces us) = true →
        RefusedAt ts opener ["'", .part opener.kind.text, "' is missing its '", .part bracket.closing, "'"]) ∧
      ∀ e, parseLine ts = .error e → ¬ IsUnexpected e.message := by
  obtain ⟨asked, hrun, hmet⟩ := watchLine_yields (Nat.lt_succ_self ts.length) le_rfl []
  have herror {e : ParseError} (h : failure? (parseLine ts) = some e) : parseLine ts = .error e := by
    cases hline : parseLine ts with
    | ok items =>
      rw [hline] at h
      cases h
    | error e' =>
      rw [hline] at h
      cases h
      rfl
  refine ⟨asked, hrun, fun us hus => ?_, fun op us hus hends => ?_, fun opener bracket us hus hend => ?_,
    fun e h => ?_⟩
  · exact exists_cons_of_endsOperand (hmet _ hus)
  · exact .of_error (herror (hmet _ hus hends)) rfl
  · exact .of_error (herror (hmet _ hus hend)) rfl
  · exact not_isUnexpected_of_parseLine h

-- The operand of `(:A +` is noticed first, so that the sum is to blame and not the bracket, which is not closed either.
example : parseLine [⟨.opener .round, 0⟩, ⟨.var "A", 1⟩, ⟨.blank, 3⟩, ⟨.op .plus, 4⟩, ⟨.lineEnd, 5⟩] =
    .error (.missingOperand ⟨.op .plus, 4⟩) := by cbv

end TurtleLogo
