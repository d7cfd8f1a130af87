import TurtleLogo.Proofs.Lexer.Printed
import TurtleLogo.Proofs.Parser.Columns
import TurtleLogo.Proofs.Parser.Printed

/-!
# Printing and reading back

A line of canonical nodes, printed, has tokens, and these parse to the same nodes.

* `parse_display` : parsing undoes printing.
-/

namespace TurtleLogo

open Lexer Parsing Node

/-- Tokens that say what the text of a line of canonical nodes says parse to it. -/
theorem parseLine_of_following {items : List Node} (h : ∀ item ∈ items, item.Canonical) {ts rest : List Token}
    (hts : ts.map Token.kind = (following items).tail) (hstop : Stops 0 rest) (hrest : parseLine rest = .ok []) :
    parseLine (ts ++ rest) = .ok items := by
  have hkinds : (ts ++ rest).map Token.kind = (unplaced (following items).tail ++ rest).map Token.kind := by
    rw [List.map_append, List.map_append, hts, map_kind_unplaced]
  exact parseLine_ok_of_kinds hkinds.symm (parseLine_tail hstop hrest fun item hm => (h item hm).parses)

/-- Parsing undoes printing: the text of a line of canonical nodes has tokens, and they parse to these nodes. -/
theorem parse_display {items : List Node} (h : ∀ item ∈ items, item.Canonical) :
    ∃ ts, tokenize (Node.line items).display = .ok ts ∧ parseLine ts = .ok items := by
  have hreading := reading_display h
  unfold reading at hreading
  cases hscan : scan true 0 (Node.line items).display.toList with
  | error e =>
    rw [hscan] at hreading
    cases hreading
  | ok ts =>
    rw [hscan] at hreading
    have hts : ts.map Token.kind = (following items).tail := Except.ok.inj hreading
    refine ⟨_, by rw [tokenize_eq, hscan]; rfl, ?_⟩
    split
    · rw [← List.append_nil ts]
      exact parseLine_of_following h hts (.inr fun _ _ _ h => nomatch h) (parseLine_nil rfl)
    · have hend (col : Nat) : parseLine [⟨.lineEnd, col⟩] = .ok [] := by rw [parseLine_cons rfl]; rfl
      exact parseLine_of_following h hts (.inr fun _ _ _ h => nomatch h) (hend _)

theorem parse_display_nested :
    ∃ ts, tokenize "FD 2.5 * :X - -3 [(+ \"A.B F)]" = .ok ts ∧
      parseLine ts = .ok [.call "FD", .binary .minus (.binary .times (.num 2.5) (.var "X")) (.neg (.num 3)),
        .list [.group [.nary .plus [.word "A.B", .call "F"]]]] := by
  have hnum : (Node.num 2.5).Canonical := .num (by decide +kernel) (by decide +kernel)
  have hnum' : (Node.num 3).Canonical := .num (by decide +kernel) (by decide +kernel)
  have hproduct : (Node.binary .times (.num 2.5) (.var "X")).Canonical :=
    .binary hnum (.var (by decide)) rfl (by decide) (by decide)
  have hsum : (Node.group [.nary .plus [.word "A.B", .call "F"]]).Canonical :=
    .variadic (List.forall_mem_cons.mpr ⟨.word (by decide), List.forall_mem_singleton.mpr
      (.call (by decide) (by decide) (by decide))⟩) rfl
  have hlist : (Node.list [.group [.nary .plus [.word "A.B", .call "F"]]]).Canonical :=
    .list (List.forall_mem_singleton.mpr hsum) (List.forall_mem_singleton.mpr rfl)
  have hdifference : (Node.binary .minus (.binary .times (.num 2.5) (.var "X")) (.neg (.num 3))).Canonical :=
    .binary hproduct (.neg hnum' rfl) rfl (by decide) (by decide)
  have hdisplay : (Node.line [.call "FD", .binary .minus (.binary .times (.num 2.5) (.var "X")) (.neg (.num 3)),
      .list [.group [.nary .plus [.word "A.B", .call "F"]]]]).display = "FD 2.5 * :X - -3 [(+ \"A.B F)]" := by
    decide +kernel
  rw [← hdisplay]
  refine parse_display ?_
  exact List.forall_mem_cons.mpr ⟨.call (by decide) (by decide) (by decide),
    List.forall_mem_cons.mpr ⟨hdifference, List.forall_mem_singleton.mpr hlist⟩⟩

end TurtleLogo
