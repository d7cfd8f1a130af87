import TurtleLogo.Proofs.Eval.Traces
import TurtleLogo.Proofs.Session.Refinement

/-!
# Where a report says that a fault happened

A report begins with places: the line that was added to the session, and then the lines of files that the fault has
passed through, outermost first. A line without any characters, which can fail if it ends a line that went on, is not
named.

* `Fault.verdict`, `reportAt` : a report by its parts;
* `report_places` : the places in the report of a line that fails.
-/

namespace TurtleLogo

open Text

/-- What a report says behind the places. -/
def Fault.verdict (f : Fault) : String :=
  (if f.internal then bright .red "[internal] " else "") ++ bright .red "error: " ++ f.message.styled ++ "\n" ++
    f.shown .red

/-- A report with these places, which are announced if there is more than one. -/
def reportAt (places : List Location) (f : Fault) : String :=
  (if 1 < places.length then "Traceback:\n" else "") ++ String.join (places.map Location.entry) ++ f.verdict

theorem report_eq_reportAt (t : Traceback) (f : Fault) : t.report f = reportAt (t.current ++ f.trace.reverse) f := by
  unfold Traceback.report Traceback.frames reportAt Fault.verdict
  simp only [String.append_assoc]

theorem current_singleton (path text : String) (n : Int) :
    Traceback.current ⟨[(path, some (text, n))]⟩ = if text.isEmpty then [] else [⟨path, n, text⟩] := by
  cases h : text.isEmpty <;>
    simp only [Traceback.current, List.filterMap_cons, List.filterMap_nil, h, if_true, Bool.false_eq_true, if_false]

/-- **A report says where.** Let a line that is added to a session fail with a fault, after any lines whatever.

The session numbers the line, as it was told to or by counting. The session then writes what the line printed and one
report. Its first place is this line under the number and the session's path, unless nothing is left of the line without
the newline that ends it; then there is no such place. The other places are the lines of files that the fault has passed
through, outermost first: `Passes` says how it came through them, and these are the fault's trace and no others. -/
theorem report_places {s : Session} (hs : s.Settled) (adds : List Added) {files : FileStore} {line : String}
    (number : Option Int) {f : Fault}
    (hfault : (feedLine files line (s.addInTurn adds).workspace).1 = .error (.fault f)) :
    let n := number.getD ((s.addInTurn adds).lineNumber + 1)
    let before := (s.addInTurn adds).transcript.toList ++
      printing (fed depthLimit (files, line) (s.addInTurn adds).workspace).printed
    let after := ((s.addInTurn adds).add files line number).2
    after.lineNumber = n ∧
    (∀ places, Passes files depthLimit (fun ev => feed ev line) (s.addInTurn adds).workspace f places ↔
      places = f.trace) ∧
    (trimRight isNewline line ≠ "" →
      after.transcript.toList =
        before ++ [(.report, reportAt (⟨s.path, n, trimRight isNewline line⟩ :: f.trace.reverse) f)]) ∧
    (trimRight isNewline line = "" →
      after.transcript.toList = before ++ [(.report, reportAt f.trace.reverse f)]) := by
  intro n before after
  have hreached := Session.addInTurn_reached hs adds
  obtain ⟨-, htook⟩ := Session.add_took hreached.settled files line number
  rw [Session.feedLine_eq_feed] at hfault
  have houtcome : (fed depthLimit (files, line) (s.addInTurn adds).workspace).outcome = .error (.fault f) := by
    rw [← hfault, fed]
  have htranscript : after.transcript.toList =
      before ++ [(.report, Traceback.report ⟨[(s.path, some (trimRight isNewline line, n))]⟩ f)] := by
    rw [htook.transcript, Fed.output_of_error houtcome, hreached.path, List.append_assoc]
    simp only [Fed.reports, houtcome, Failure.reportedFault, n]
  rw [report_eq_reportAt, current_singleton] at htranscript
  refine ⟨htook.lineNumber, fun places => ?_, fun hline => ?_, fun hline => ?_⟩
  · rw [(Routine.feed line).passes_iff, and_iff_right hfault, eq_comm]
  · rw [if_neg (by rwa [String.isEmpty_iff])] at htranscript
    exact htranscript
  · rw [if_pos (String.isEmpty_iff.mpr hline)] at htranscript
    exact htranscript

/-- The second line of a session loads a file, whose second line loads another in a loop. -/
theorem report_places_nested_files :
    let files : FileStore := ⟨[("F", .ofText "HOME\nREPEAT 2 [LOAD \"G]\n"), ("G", .ofText "FD\n")]⟩
    let s := (Session.new "S").addInTurn [⟨files, "HOME", none⟩]
    ∃ f : Fault, f.trace = [⟨"G", 1, "FD\n"⟩, ⟨"F", 2, "REPEAT 2 [LOAD \"G]\n"⟩] ∧
      Passes files depthLimit (fun ev => feed ev "LOAD \"F") s.workspace f f.trace ∧
      (s.add files "LOAD \"F" none).2.transcript.toList = [(.report, reportAt
        [⟨"S", 2, "LOAD \"F"⟩, ⟨"F", 2, "REPEAT 2 [LOAD \"G]\n"⟩, ⟨"G", 1, "FD\n"⟩] f)] := by
  intro files s
  have htrace : places? (feedLine files "LOAD \"F" s.workspace).1 =
      some [⟨"G", 1, "FD\n"⟩, ⟨"F", 2, "REPEAT 2 [LOAD \"G]\n"⟩] := by
    decide +kernel
  obtain ⟨f, hf, hf'⟩ := exists_fault_of_places? htrace
  have hline : trimRight isNewline "LOAD \"F" = "LOAD \"F" := by decide +kernel
  have hnumber : s.lineNumber = 1 := by decide +kernel
  have hbefore : s.transcript.toList ++ printing (fed depthLimit (files, "LOAD \"F") s.workspace).printed = [] := by
    decide +kernel
  obtain ⟨-, hpasses, hreport, -⟩ := report_places (Session.new_settled "S") [⟨files, "HOME", none⟩] none hf
  have hwritten := hreport (by rw [hline]; decide)
  rw [hbefore, hf', hline, hnumber] at hwritten
  exact ⟨f, hf', (hpasses _).mpr rfl, hwritten⟩

/-- An empty line that ends a line which went on is not named in the report of its fault. -/
theorem report_places_empty_line :
    let s := (Session.new typedSource).addInTurn [⟨{}, "FD \\", none⟩, ⟨{}, "", none⟩]
    s.lineNumber = 2 ∧
      s.transcript.toList = [(.report, "\x1b[1m\x1b[31merror: \x1b[0m\x1b[1mFD\x1b[0m needs more inputs\n")] := by
  decide +kernel

end TurtleLogo
