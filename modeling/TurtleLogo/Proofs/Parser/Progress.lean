import TurtleLogo.Fault
import TurtleLogo.Proofs.Parser.Watch

/-!
# Progress

Every part of the parser that reads something goes on to a later token of the line. So the parser ends on any tokens,
however they are out of order: its calls nest no deeper, and its loops go round no more often, than a linear function of
the number of tokens says. It ends with the expressions of a line, with a fault, or with the crash for a whole number out
of range.

* `GoesOn ts p rest` : what is left of `ts` begins behind place `p`;
* `readPrimary_goesOn`, `readExpression_goesOn` : what is read is not empty;
* `failure_of_parseLine` : how a line is refused;
* `parseLine_ends` : the parser ends.
-/

namespace TurtleLogo

open Parsing Watched

namespace Parsing

/-- What is left of `ts` begins behind place `p`, and not past the last token. -/
def GoesOn (ts : List Token) (p : Nat) (rest : List Token) : Prop :=
  ∃ q, p < q ∧ q ≤ ts.length ∧ rest = ts.drop q

theorem GoesOn.of_suffix {ts rest : List Token} {p : Nat} (hsuffix : rest <:+ ts.drop p)
    (hlength : rest.length < (ts.drop p).length) : GoesOn ts p rest := by
  rw [List.length_drop] at hlength
  refine ⟨ts.length - rest.length, by omega, Nat.sub_le _ _, ?_⟩
  exact List.suffix_iff_eq_drop.mp (hsuffix.trans (List.drop_suffix p ts))

theorem readPrimary_goesOn (ts : List Token) (p : Nat) :
    Gives (readPrimary (ts.drop p)) fun r => GoesOn ts p r.2 := fun ⟨_, _⟩ h =>
  .of_suffix (readPrimary_spends _ _ h).suffix (length_lt_of_readPrimary h)

theorem readExpression_goesOn (floor : Nat) (ts : List Token) (p : Nat) :
    Gives (readExpression floor (ts.drop p)) fun r => GoesOn ts p r.2 := fun ⟨_, _⟩ h =>
  .of_suffix (readExpression_spends floor _ _ h).suffix (length_lt_of_readExpression h)

end Parsing

/-- A line is refused with a fault of the parser, or with a crash for one of its whole numbers, which is out of range. -/
theorem failure_of_parseLine {ts : List Token} {e : ParseError} (h : parseLine ts = .error e) :
    (∃ f, e.failure ts = .fault f ∧ f.kind = .parse) ∨
      ∃ t ∈ ts, ∃ n, t.kind = .integer n ∧ Number.integerLimit ≤ n.natAbs ∧ e = .tooLarge t ∧
        e.failure ts = .crash .integerTooLarge := by
  cases e with
  | tooLarge t =>
    cases parseLine_blames ts _ h with
    | inside hblames =>
      obtain ⟨t', ht, htoken, n, hn, hx⟩ := hblames
      cases htoken
      refine .inr ⟨t, ht, n, hn, ?_, rfl, rfl⟩
      by_contra hsmall
      rw [Number.ofInt?, if_pos (Nat.lt_of_not_le hsmall)] at hx
      cases hx
  | _ => exact .inl ⟨_, rfl, rfl⟩

/-- **The parser ends and goes on.** Take any `n` tokens, and let calls nest `4 * n + 2` deep and loops go round `n + 1`
times. Then the parser stays within these limits. It ends with expressions, with a fault of the parser, or with the crash
for a whole number out of range. What a primary or an expression leaves, wherever it begins, begins at a later token. -/
theorem parseLine_ends (ts : List Token) :
    (∀ limit depth, ts.length < limit → 4 * ts.length + 2 ≤ depth →
      ∃ asked, (watchLine limit depth ts).outcome = some (parseLine ts, asked)) ∧
    ((∃ items, parseLine ts = .ok items) ∨
      (∃ e f, parseLine ts = .error e ∧ e.failure ts = .fault f ∧ f.kind = .parse) ∨
      ∃ t ∈ ts, ∃ n, t.kind = .integer n ∧ Number.integerLimit ≤ n.natAbs ∧
        parseLine ts = .error (.tooLarge t) ∧ (ParseError.tooLarge t).failure ts = .crash .integerTooLarge) ∧
    ∀ p, Gives (readPrimary (ts.drop p)) (fun r => GoesOn ts p r.2) ∧
      ∀ floor, Gives (readExpression floor (ts.drop p)) fun r => GoesOn ts p r.2 := by
  refine ⟨fun limit depth hlimit hdepth => ?_, ?_, fun p => ⟨readPrimary_goesOn ts p, fun floor => ?_⟩⟩
  · obtain ⟨asked, hrun, -⟩ := watchLine_yields hlimit hdepth []
    exact ⟨asked, hrun⟩
  · cases h : parseLine ts with
    | ok items => exact .inl ⟨items, rfl⟩
    | error e =>
      rcases failure_of_parseLine h with ⟨f, hf, hkind⟩ | ⟨t, ht, n, hn, hlarge, rfl, hf⟩
      · exact .inr (.inl ⟨e, f, rfl, hf, hkind⟩)
      · exact .inr (.inr ⟨t, ht, n, hn, hlarge, rfl, hf⟩)
  · exact readExpression_goesOn floor ts p

-- Too little depth is no error: a variable takes an expression and a primary inside of it.
example : (watchLine 2 1 [⟨.var "A", 0⟩]).outcome = none := rfl

end TurtleLogo
