import TurtleLogo.Proofs.Eval.Traces

/-!
# The traces of loads

A fault that comes out of a load has a trace: one line for every load that it has passed through, the load itself as the
last. Loads are nested when the line of a file loads another one, itself or in a procedure, a loop or whatever else it
runs. A load that is refused adds no line, also when it is the innermost one.

* `LoadPasses` : the lines of files that the fault of a load has passed through, by how it came out;
* `Location.StandsIn` : a line stands in a file that some name resolves to;
* `load_trace` : the lines that the fault of a load has passed through are its trace.
-/

namespace TurtleLogo

/-- With evaluations that are nested up to `depth`, loading the file `name` fails in `w` with the fault `f`, which on
its way out has passed through these lines of files, innermost first. -/
inductive LoadPasses (files : FileStore) (depth : Nat) (name : String) (w : Workspace) : Fault → List Location → Prop
  /-- A file that is refused adds nothing. -/
  | refused {cause : Cause} (hcause : Refuses files (eval files depth) name w cause) :
      LoadPasses files depth name w (.running cause) []
  /-- A file passes on the fault of the line that it feeds, with this line behind those that the fault has passed. -/
  | line {k : Nat} {path line : String} {v : Workspace} {f : Fault} {places : List Location}
      (hpath : files.resolve? name = some path)
      (hto : FedTo (eval files depth) (files.read path).known (w.hold {}) k line v)
      (h : Passes files depth (fun ev => feed ev line) v f places) :
      LoadPasses files depth name w (f.passing ⟨path, (k + 1 : Nat), line⟩) (places ++ [⟨path, (k + 1 : Nat), line⟩])

/-- A name resolves to the path of the place, and its line stands in the file there under its number. -/
def Location.StandsIn (files : FileStore) (place : Location) : Prop :=
  (∃ name, files.resolve? name = some place.path) ∧
    ∃ k : Nat, place.line = (k + 1 : Nat) ∧ (files.read place.path).known[k]? = some place.text

section Loading

variable {files : FileStore} {depth : Nat} {name : String} {w : Workspace} {f : Fault} {places : List Location}

theorem Location.StandsIn.of_fedTo {ev : Evaluator} {path line : String} {k : Nat} {v : Workspace}
    (hpath : files.resolve? name = some path) (hto : FedTo ev (files.read path).known w k line v) :
    (Location.mk path (k + 1 : Nat) line).StandsIn files :=
  ⟨⟨name, hpath⟩, k, rfl, hto.line⟩

/-- Whatever a fault passes through stands in a file. -/
theorem Passes.standsIn {α : Type} {X : Evaluator → Exec α} (h : Passes files depth X w f places) :
    ∀ place ∈ places, place.StandsIn files := by
  induction h with
  | step | refused => exact List.forall_mem_nil _
  | inner _ _ ih | first _ ih | second _ _ _ ih | around _ ih | name _ _ ih => exact ih
  | line _ _ hpath hto _ ih =>
    exact List.forall_mem_append.mpr ⟨ih, List.forall_mem_singleton.mpr (.of_fedTo hpath hto)⟩

theorem LoadPasses.standsIn (h : LoadPasses files depth name w f places) : ∀ place ∈ places, place.StandsIn files := by
  cases h with
  | refused => exact List.forall_mem_nil _
  | line hpath hto h =>
    exact List.forall_mem_append.mpr ⟨h.standsIn, List.forall_mem_singleton.mpr (.of_fedTo hpath hto)⟩

/-- A fault that passes out of a load is what this fails with, and its trace is what it has passed. -/
theorem LoadPasses.fails (h : LoadPasses files depth name w f places) :
    (load files (eval files depth) name w).1 = .error (.fault f) ∧ f.trace = places := by
  cases h with
  | refused hcause => exact ⟨load_fault_iff.mpr (.inl ⟨_, hcause, rfl⟩), rfl⟩
  | line hpath hto h =>
    obtain ⟨hline, htrace⟩ := h.fails
    refine ⟨load_fault_iff.mpr (.inr ⟨_, _, _, _, _, hpath, hto, hline, rfl⟩), ?_⟩
    rw [Fault.passing, htrace]

theorem load_passes (hfault : (load files (eval files depth) name w).1 = .error (.fault f)) :
    LoadPasses files depth name w f f.trace := by
  rcases load_fault_iff.mp hfault with ⟨cause, hcause, rfl⟩ | ⟨path, k, line, v, g, hpath, hto, hline, rfl⟩
  · exact .refused hcause
  · exact .line hpath hto ((Routine.feed line).passes_iff.mpr ⟨hline, rfl⟩)

/-- **The trace of a load.** Let a load fail with a fault.

The lines of files that the fault has passed through are its trace, and no others. By `LoadPasses` and `Passes` there
is one for every load that was feeding a line when the fault came out of this line, be it that the line loads a file
or that something does that the line runs; they stand in the order in which the fault came out of them, innermost
first. Each is the line that this load was feeding, after all the lines before it had been fed, and stands under its
number in the file that the load's name resolves to. A load that is refused, since there is no such file or it cannot
be read to its end or a definition is still open there, adds nothing. -/
theorem load_trace (hfault : (load files (eval files depth) name w).1 = .error (.fault f)) :
    (∀ places, LoadPasses files depth name w f places ↔ places = f.trace) ∧
    (∀ place ∈ f.trace, place.StandsIn files) ∧
    ∀ cause, Refuses files (eval files depth) name w cause → f = .running cause ∧ f.trace = [] := by
  refine ⟨fun places => ⟨fun h => h.fails.2.symm, ?_⟩, (load_passes hfault).standsIn, fun cause hcause => ?_⟩
  · rintro rfl
    exact load_passes hfault
  · have hrefused := hfault.symm.trans (LoadPasses.refused hcause).fails.1
    cases hrefused
    exact ⟨rfl, rfl⟩

end Loading

/-- The procedure that the first file defines and calls loads the second file in a loop, and this one a file that lacks
an end and adds nothing. -/
theorem load_trace_unended_file :
    let files : FileStore := ⟨[("F", .ofText "TO P\nREPEAT 2 [LOAD \"G]\nEND\nHOME\nP\n"),
      ("G", .ofText "PU\nLOAD \"H\n"), ("H", .ofText "TO Q\n")]⟩
    ∃ f : Fault, (load files (eval files depthLimit) "F" {}).1 = .error (.fault f) ∧
      LoadPasses files depthLimit "F" {} f [⟨"G", 2, "LOAD \"H\n"⟩, ⟨"F", 5, "P\n"⟩] := by
  intro files
  have htrace : places? (load files (eval files depthLimit) "F" {}).1 =
      some [⟨"G", 2, "LOAD \"H\n"⟩, ⟨"F", 5, "P\n"⟩] := by
    decide +kernel
  obtain ⟨f, hf, hf'⟩ := exists_fault_of_places? htrace
  obtain ⟨hpasses, -, -⟩ := load_trace hf
  exact ⟨f, hf, (hpasses _).mpr hf'.symm⟩

end TurtleLogo
