import TurtleLogo.Proofs.Eval.Continuation

/-!
# Loading a file

Loading a file is feeding its lines one after the other, up to the first that fails, in a context of its own: the lines
begin with no continuation, and whatever they leave open is closed. Afterwards the continuation is the one from before,
and unless the interpreter has crashed no definition is open.

* `feedPrinting` : lines fed one after the other, with the values that they give printed;
* `Failure.untraced` : a failure without the files that it passed through;
* `feedLines_untraced` : the lines of a file are fed so;
* `loadText` : what happens to a file once it was found, whatever can be read of it;
* `loadText_context` : what it leaves of the context, `loadText_lines` : what it does if it is text;
* `load_line_by_line` : both, for the file that a name stands for.
-/

namespace TurtleLogo

open Exec Text

/-! ## Lines -/

/-- Feeds lines one after the other, up to the first that fails, and prints the value of each that gives one. -/
def feedPrinting (ev : Evaluator) : List String → Exec Unit
  | [], w => (.ok (), w)
  | line :: lines, w =>
    match feed ev line w with
    | (.error e, w') => (.error e, w')
    | (.ok none, w') => feedPrinting ev lines w'
    | (.ok (some v), w') => feedPrinting ev lines (w'.print v.display)

def Failure.untraced : Failure → Failure
  | .fault f => .fault { f with trace := [] }
  | .crash c => .crash c

theorem feedLineOf_ok {ev : Evaluator} {path line : String} {number : Nat} {w w' : Workspace} {r : Result}
    (h : feed ev line w = (.ok r, w')) : feedLineOf ev path number line w = (.ok r, w') := by
  unfold feedLineOf
  rw [h]

theorem feedLineOf_error {ev : Evaluator} {line : String} {w w' : Workspace} {e : Failure}
    (h : feed ev line w = (.error e, w')) (path : String) (number : Nat) :
    ∃ e', feedLineOf ev path number line w = (.error e', w') ∧ e'.untraced = e.untraced := by
  unfold feedLineOf
  rw [h]
  cases e with
  | fault f => exact ⟨_, rfl, rfl⟩
  | crash c => exact ⟨_, rfl, rfl⟩

/-- The lines of a file are fed one after the other; only the place of a fault is added to it. -/
theorem feedLines_untraced (ev : Evaluator) (path : String) (lines : List String) (number : Nat) (w : Workspace) :
    (feedLines ev path number lines w).2 = (feedPrinting ev lines w).2 ∧
      (feedLines ev path number lines w).1.mapError Failure.untraced =
        (feedPrinting ev lines w).1.mapError Failure.untraced := by
  induction lines generalizing number w with
  | nil => exact ⟨rfl, rfl⟩
  | cons line lines ih =>
    rw [feedLines, bind_apply, feedPrinting]
    rcases h : feed ev line w with ⟨e | _ | v, w'⟩
    · obtain ⟨e', he', hsame⟩ := feedLineOf_error h path number
      rw [he']
      exact ⟨rfl, congrArg Except.error hsame⟩
    · rw [feedLineOf_ok h]
      exact ih (number + 1) w'
    · rw [feedLineOf_ok h]
      exact ih (number + 1) (w'.print v.display)

/-! ## Files -/

def loadText (ev : Evaluator) (path : String) (text : FileText) : Exec Unit := do
  inFile (feedText ev path text)
  closeFile path

theorem load_of_resolve {files : FileStore} {ev : Evaluator} {name path : String}
    (h : files.resolve? name = some path) : load files ev name = loadText ev path (files.read path) := by
  funext w
  unfold load resolve
  rw [h]
  rfl

theorem load_of_missing {files : FileStore} {ev : Evaluator} {name : String} (h : files.resolve? name = none) :
    load files ev name = fail (.fileNotFound name) := by
  funext w
  unfold load resolve
  rw [h]
  rfl

/-- How a file ends, from how its lines do: a definition that they leave open is a fault. -/
def fileOutcome (path : String) : Except Failure Unit × Workspace → Except Failure Unit
  | (.error e, _) => .error e
  | (.ok (), w) =>
    match w.definition with
    | some p => .error (.fault (.running (.missingEnd p.name path)))
    | none => .ok ()

def Workspace.undefining (w : Workspace) : Workspace := { w with definition := none }

/-- Every way out of a file, from how what can be read of it was fed. -/
theorem loadText_cases (ev : Evaluator) (path : String) (text : FileText) (w : Workspace) :
    (loadText ev path text w).1 = fileOutcome path (feedText ev path text (w.hold {})) ∧
      (loadText ev path text w).2.undefining =
        ((feedText ev path text (w.hold {})).2.hold w.continuation).undefining ∧
      ((∀ c, (loadText ev path text w).1 ≠ .error (.crash c)) → (loadText ev path text w).2.definition = none) := by
  have hopen : ({ w with continuation := {} } : Workspace) = w.hold {} := rfl
  rw [loadText, bind_apply, inFile, hopen]
  rcases feedText ev path text (w.hold {}) with ⟨(fault | crash) | ⟨⟩, u⟩
  · exact ⟨rfl, rfl, fun _ => rfl⟩
  · exact ⟨rfl, rfl, fun h => absurd rfl (h crash)⟩
  · unfold closeFile fileOutcome
    dsimp only
    cases hd : u.definition with
    | some p => exact ⟨rfl, rfl, fun _ => rfl⟩
    | none => exact ⟨rfl, rfl, fun _ => rfl⟩

/-- The continuation comes back whatever happens, and no definition stays open unless the interpreter crashes. -/
theorem loadText_context (ev : Evaluator) (path : String) (text : FileText) (w : Workspace) :
    (loadText ev path text w).2.continuation = w.continuation ∧
      ((∀ c, (loadText ev path text w).1 ≠ .error (.crash c)) → (loadText ev path text w).2.definition = none) := by
  obtain ⟨-, hspace, hclosed⟩ := loadText_cases ev path text w
  have hcontinuation := congrArg Workspace.continuation hspace
  exact ⟨hcontinuation, hclosed⟩

/-- A file that is text does what its lines do, but for the continuation and the open definition. -/
theorem loadText_lines (ev : Evaluator) (path : String) (lines : List String) (w : Workspace) :
    (loadText ev path (.lines lines) w).2.undefining =
        ((feedPrinting ev lines (w.hold {})).2.hold w.continuation).undefining ∧
      (loadText ev path (.lines lines) w).1.mapError Failure.untraced =
        (fileOutcome path (feedPrinting ev lines (w.hold {}))).mapError Failure.untraced := by
  obtain ⟨hfed, hsame⟩ := feedLines_untraced ev path lines 1 (w.hold {})
  obtain ⟨houtcome, hspace, -⟩ := loadText_cases ev path (.lines lines) w
  have htext : feedText ev path (.lines lines) = feedLines ev path 1 lines := rfl
  rw [houtcome, hspace, htext, hfed]
  refine ⟨rfl, ?_⟩
  rcases hl : feedLines ev path 1 lines (w.hold {}) with ⟨r, u⟩
  rcases hp : feedPrinting ev lines (w.hold {}) with ⟨r', u'⟩
  rw [hl, hp] at hfed hsame
  obtain rfl : u = u' := hfed
  rcases mapError_cases hsame with ⟨⟨⟩, rfl, rfl⟩ | ⟨e, e', rfl, rfl, he⟩
  · rfl
  · exact congrArg Except.error he

/-- **Loading is feeding line by line, in a context of its own.** A file that is text does to the workspace what its
lines do when they are fed with no continuation, one after the other up to the first that fails, with the values that
they give printed; only the continuation is then put back, and the open definition dropped. It ends as the lines do, but
that a definition which they leave open is a fault. Whatever files there are and whatever can be read of them, also
nothing, the continuation afterwards is the one from before, and no definition is open, unless the interpreter
crashes. -/
theorem load_line_by_line (files : FileStore) (ev : Evaluator) :
    (∀ (name path : String) (bytes : List UInt8) (chars : List Char) (w : Workspace),
      files.resolve? name = some path → files.file? path = some bytes → Utf8.decode bytes = .text chars →
      { (load files ev name w).2 with definition := none } =
          ({ (feedPrinting ev (allLines chars) { w with continuation := {} }).2 with
            continuation := w.continuation, definition := none } : Workspace) ∧
        (load files ev name w).1.mapError Failure.untraced =
          (fileOutcome path (feedPrinting ev (allLines chars) { w with continuation := {} })).mapError
            Failure.untraced) ∧
    (∀ (name : String) (w : Workspace), w.definition = none →
      (∀ c, (load files ev name w).1 ≠ .error (.crash c)) →
      (load files ev name w).2.definition = none ∧ (load files ev name w).2.continuation = w.continuation) ∧
    ∀ (path : String) (text : FileText) (w : Workspace),
      (∀ c, (loadText ev path text w).1 ≠ .error (.crash c)) →
      (loadText ev path text w).2.definition = none ∧ (loadText ev path text w).2.continuation = w.continuation := by
  refine ⟨?_, ?_, ?_⟩
  · intro name path bytes chars w hname hfile htext
    have hread : files.read path = .lines (allLines chars) := by
      rw [FileStore.read, hfile]
      simp only [FileText.ofBytes, htext]
    rw [load_of_resolve hname, hread]
    exact loadText_lines ev path (allLines chars) w
  · intro name w hw hcrash
    cases hname : files.resolve? name with
    | none =>
      rw [load_of_missing hname]
      exact ⟨hw, rfl⟩
    | some path =>
      rw [load_of_resolve hname] at hcrash ⊢
      obtain ⟨hcontinuation, hclosed⟩ := loadText_context ev path (files.read path) w
      exact ⟨hclosed hcrash, hcontinuation⟩
  · intro path text w hcrash
    obtain ⟨hcontinuation, hclosed⟩ := loadText_context ev path text w
    exact ⟨hclosed hcrash, hcontinuation⟩

/-- A file with a word on its first line and a title on its second, loaded while a line goes on; the definition has no
end. Another file is no text. -/
theorem load_line_by_line_missing_end :
    let files : FileStore := ⟨[("F", .file [34, 65, 10, 84, 79, 32, 80, 10]), ("G", .file [0x80])]⟩
    let w : Workspace := { continuation := ⟨[⟨.lineCont, 0⟩], "\\\n"⟩ }
    { (load files (eval files 4) "F" w).2 with definition := none } =
        ({ (feedPrinting (eval files 4) ["\"A\n", "TO P\n"] {}).2 with
          continuation := w.continuation, definition := none } : Workspace) ∧
      (load files (eval files 4) "F" w).2.definition = none ∧
      (load files (eval files 4) "G" w).2.continuation = w.continuation := by
  intro files w
  have hcrash : ∀ name ∈ ["F", "G"],
      (load files (eval files 4) name w).1.mapError (·.saying.isLeft) ≠ .error false := by
    decide +kernel +revert
  obtain ⟨lines, context, -⟩ := load_line_by_line files (eval files 4)
  have hname : files.resolve? "F" = some "F" := by decide +kernel
  have hordinary (name : String) (h : name ∈ ["F", "G"]) (c : Crash) :
      (load files (eval files 4) name w).1 ≠ .error (.crash c) := by
    intro hload
    have hc := hcrash name h
    rw [hload] at hc
    exact hc rfl
  refine ⟨(lines "F" "F" _ ['"', 'A', '\n', 'T', 'O', ' ', 'P', '\n'] w hname rfl rfl).1, ?_, ?_⟩
  · exact (context "F" w rfl (hordinary "F" (by simp))).1
  · exact (context "G" w rfl (hordinary "G" (by simp))).2

end TurtleLogo
