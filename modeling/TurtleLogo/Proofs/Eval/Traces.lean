import TurtleLogo.Proofs.Eval.Accounting
import TurtleLogo.Proofs.Eval.Routines

/-!
# What faults pass on their way out

A fault passes unchanged through everything that the evaluator does, loops and procedures among it, until it comes to a
line of a file that is being loaded. This line is added to its trace. A file that is refused adds nothing.

* `FedTo` : the line of a file that is fed after others;
* `Refuses` : why a file is not loaded although none of its lines fails;
* `load_fault_iff` : how loading fails;
* `Passes` : the lines of files that a fault has passed through, by how it came out;
* `Routine.passes_iff` : these are its trace.
-/

namespace TurtleLogo

open Exec

/-! ## Files -/

section Files

variable {files : FileStore} {ev : Evaluator} {name path line : String} {w : Workspace} {f : Fault}

/-- Of lines that are fed to `w` one after the other, the one with index `k` is fed to `u`. -/
structure FedTo (ev : Evaluator) (lines : List String) (w : Workspace) (k : Nat) (line : String) (u : Workspace) :
    Prop where
  line : lines[k]? = some line
  before : feedPrinting ev (lines.take k) w = (.ok (), u)

theorem feedPrinting_cons {u : Workspace} {r : Result} (h : feed ev line w = (.ok r, u)) (lines : List String) :
    feedPrinting ev (line :: lines) w = feedPrinting ev lines (u.showing r) := by
  rw [feedPrinting, h]
  cases r <;> rfl

theorem feedLines_cons {u : Workspace} {r : Result} (h : feed ev line w = (.ok r, u)) (path : String) (number : Nat)
    (lines : List String) :
    feedLines ev path number (line :: lines) w = feedLines ev path (number + 1) lines (u.showing r) := by
  rw [feedLines, bind_apply, feedLineOf_ok h]
  cases r <;> rfl

theorem fedTo_cons_iff {first : String} {lines : List String} {k : Nat} {u : Workspace} :
    FedTo ev (first :: lines) w k line u ↔
      (k = 0 ∧ line = first ∧ u = w) ∨
        ∃ j r v, k = j + 1 ∧ feed ev first w = (.ok r, v) ∧ FedTo ev lines (v.showing r) j line u := by
  constructor
  · rintro ⟨hline, hbefore⟩
    cases k with
    | zero =>
      cases hline
      cases hbefore
      exact .inl ⟨rfl, rfl, rfl⟩
    | succ j =>
      rw [List.take_succ_cons] at hbefore
      rcases hfed : feed ev first w with ⟨e | r, v⟩
      · rw [feedPrinting, hfed] at hbefore
        cases hbefore
      · rw [feedPrinting_cons hfed] at hbefore
        exact .inr ⟨j, r, v, rfl, rfl, hline, hbefore⟩
  · rintro (⟨rfl, rfl, rfl⟩ | ⟨j, r, v, rfl, hfed, hline, hbefore⟩)
    · exact ⟨rfl, rfl⟩
    · refine ⟨hline, ?_⟩
      rw [List.take_succ_cons, feedPrinting_cons hfed]
      exact hbefore

/-- The lines of a file fail at the first line that does, and with its fault, to which this line is added. -/
theorem feedLines_fault_iff {lines : List String} {number : Nat} :
    (feedLines ev path number lines w).1 = .error (.fault f) ↔
      ∃ k line u f', FedTo ev lines w k line u ∧ (feed ev line u).1 = .error (.fault f') ∧
        f = f'.passing ⟨path, (number + k : Nat), line⟩ := by
  induction lines generalizing number w with
  | nil =>
    constructor
    · rintro ⟨⟩
    · rintro ⟨k, line, u, f', ⟨hline, -⟩, -⟩
      cases hline
  | cons first lines ih =>
    rcases hfed : feed ev first w with ⟨e | r, v⟩
    · constructor
      · intro h
        rw [feedLines, bind_apply, feedLineOf, hfed] at h
        cases e with
        | fault f' =>
          cases h
          exact ⟨0, first, w, f', ⟨rfl, rfl⟩, by rw [hfed], rfl⟩
        | crash c => cases h
      · rintro ⟨k, line, u, f', hto, hline, rfl⟩
        rcases fedTo_cons_iff.mp hto with ⟨rfl, rfl, rfl⟩ | ⟨j, r, v, rfl, hok, -⟩
        · rw [hfed] at hline
          cases hline
          rw [feedLines, bind_apply, feedLineOf, hfed]
          rfl
        · rw [hfed] at hok
          cases hok
    · rw [feedLines_cons hfed, ih]
      constructor
      · rintro ⟨k, line, u, f', hto, hline, rfl⟩
        refine ⟨k + 1, line, u, f', fedTo_cons_iff.mpr (.inr ⟨k, r, v, rfl, hfed, hto⟩), hline, ?_⟩
        rw [Nat.add_right_comm, Nat.add_assoc]
      · rintro ⟨k, line, u, f', hto, hline, rfl⟩
        rcases fedTo_cons_iff.mp hto with ⟨rfl, rfl, rfl⟩ | ⟨j, r', v', rfl, hok, hto⟩
        · rw [hfed] at hline
          cases hline
        · rw [hfed] at hok
          cases hok
          refine ⟨j, line, u, f', hto, hline, ?_⟩
          rw [Nat.add_right_comm, Nat.add_assoc]

theorem feedLines_ok_iff {lines : List String} {number : Nat} {u : Workspace} :
    feedLines ev path number lines w = (.ok (), u) ↔ feedPrinting ev lines w = (.ok (), u) := by
  obtain ⟨hspace, hsame⟩ := feedLines_untraced ev path lines number w
  rcases hl : feedLines ev path number lines w with ⟨r, v⟩
  rcases hp : feedPrinting ev lines w with ⟨r', v'⟩
  rw [hl, hp] at hspace hsame
  obtain rfl : v = v' := hspace
  rcases mapError_cases hsame with ⟨a, rfl, rfl⟩ | ⟨e, e', rfl, rfl, -⟩
  · rfl
  · simp

/-- Why a file is not loaded although none of its lines fails. -/
inductive Refuses (files : FileStore) (ev : Evaluator) (name : String) (w : Workspace) : Cause → Prop
  | missing (hpath : files.resolve? name = none) : Refuses files ev name w (.fileNotFound name)
  | unreadable {path : String} {lines : List String} {u : Workspace} (hpath : files.resolve? name = some path)
      (hread : files.read path = .broken lines) (hfed : feedPrinting ev lines (w.hold {}) = (.ok (), u)) :
      Refuses files ev name w (.fileUnreadable path)
  | unended {path : String} {lines : List String} {u : Workspace} {p : Procedure}
      (hpath : files.resolve? name = some path) (hread : files.read path = .lines lines)
      (hfed : feedPrinting ev lines (w.hold {}) = (.ok (), u)) (hopen : u.definition = some p) :
      Refuses files ev name w (.missingEnd p.name path)

theorem feedText_fault_iff {text : FileText} :
    (feedText ev path text w).1 = .error (.fault f) ↔
      (feedLines ev path 1 text.known w).1 = .error (.fault f) ∨
        ∃ lines u, text = .broken lines ∧ feedPrinting ev lines w = (.ok (), u) ∧
          f = .running (.fileUnreadable path) := by
  cases text with
  | lines lines => simp [feedText, FileText.known]
  | broken lines =>
    rw [feedText, bind_apply, FileText.known]
    rcases h : feedLines ev path 1 lines w with ⟨e | ⟨⟩, u⟩
    · have hnot : ∀ v, feedPrinting ev lines w ≠ (.ok (), v) := by
        intro v hv
        rw [feedLines_ok_iff.mpr hv] at h
        cases h
      simp [hnot]
    · have hfed := feedLines_ok_iff.mp h
      simp [hfed, fail, stop, eq_comm]

theorem feedText_ok_iff {text : FileText} {u : Workspace} :
    feedText ev path text w = (.ok (), u) ↔
      ∃ lines, text = .lines lines ∧ feedPrinting ev lines w = (.ok (), u) := by
  cases text with
  | lines lines => simp [feedText, feedLines_ok_iff]
  | broken lines =>
    rw [feedText, bind_apply]
    rcases feedLines ev path 1 lines w with ⟨e | ⟨⟩, v⟩ <;> simp [fail, stop]

theorem fileOutcome_fault_iff {fed : Except Failure Unit × Workspace} :
    fileOutcome path fed = .error (.fault f) ↔
      fed.1 = .error (.fault f) ∨
        ∃ p, fed.1 = .ok () ∧ fed.2.definition = some p ∧ f = .running (.missingEnd p.name path) := by
  obtain ⟨e | ⟨⟩, u⟩ := fed
  · simp [fileOutcome]
  · cases hd : u.definition <;> simp [fileOutcome, hd, eq_comm]

/-- **How loading fails.** A file is refused with a fault of its own, or one of its lines fails, and then this line is
added to its fault. -/
theorem load_fault_iff :
    (load files ev name w).1 = .error (.fault f) ↔
      (∃ cause, Refuses files ev name w cause ∧ f = .running cause) ∨
        ∃ path k line u f', files.resolve? name = some path ∧ FedTo ev (files.read path).known (w.hold {}) k line u ∧
          (feed ev line u).1 = .error (.fault f') ∧ f = f'.passing ⟨path, (k + 1 : Nat), line⟩ := by
  cases hpath : files.resolve? name with
  | none =>
    rw [load_of_missing hpath]
    constructor
    · rintro ⟨⟩
      exact .inl ⟨_, .missing hpath, rfl⟩
    · rintro (⟨cause, hcause, rfl⟩ | ⟨path, k, line, u, f', h, -⟩)
      · cases hcause with
        | missing _ => rfl
        | unreadable h _ _ | unended h _ _ _ => rw [hpath] at h; cases h
      · cases h
  | some path =>
    rw [load_of_resolve hpath, (loadText_cases ev path (files.read path) w).1, fileOutcome_fault_iff,
      feedText_fault_iff, feedLines_fault_iff]
    constructor
    · rintro ((⟨k, line, u, f', hto, hline, rfl⟩ | ⟨lines, u, htext, hfed, rfl⟩) | ⟨p, hok, hopen, rfl⟩)
      · exact .inr ⟨path, k, line, u, f', rfl, hto, hline, by rw [Nat.add_comm]⟩
      · exact .inl ⟨_, .unreadable hpath htext hfed, rfl⟩
      · obtain ⟨lines, htext, hfed⟩ := feedText_ok_iff.mp (Prod.ext hok rfl)
        exact .inl ⟨_, .unended hpath htext hfed hopen, rfl⟩
    · rintro (⟨cause, hcause, rfl⟩ | ⟨_, k, line, u, f', ⟨⟩, hto, hline, rfl⟩)
      · cases hcause with
        | missing h => rw [hpath] at h; cases h
        | unreadable h htext hfed =>
          obtain rfl := Option.some.inj (hpath.symm.trans h)
          exact .inl (.inr ⟨_, _, htext, hfed, rfl⟩)
        | unended h htext hfed hopen =>
          obtain rfl := Option.some.inj (hpath.symm.trans h)
          have hok : feedText ev path (files.read path) (w.hold {}) = (.ok (), _) :=
            feedText_ok_iff.mpr ⟨_, htext, hfed⟩
          exact .inr ⟨_, by rw [hok], by rw [hok]; exact hopen, rfl⟩
      · exact .inl (.inl ⟨k, line, u, f', hto, hline, by rw [Nat.add_comm]⟩)

end Files

/-! ## What a fault passes -/

/-- With evaluations that are nested up to `depth`, `X` fails in `w` with the fault `f`, which on its way out has passed
through these lines of files, innermost first.

What is put together from routines passes the faults of its parts on as they are. So does an evaluation, unless it is a
call of `LOAD`. -/
inductive Passes (files : FileStore) :
    {α : Type} → (depth : Nat) → (X : Evaluator → Exec α) → Workspace → Fault → List Location → Prop
  /-- The fault of a step has passed through nothing. -/
  | step {α : Type} {depth : Nat} {x : Exec α} {w : Workspace} {f : Fault} (hx : Untraced x)
      (hfault : (x w).1 = .error (.fault f)) : Passes files depth (fun _ => x) w f []
  | inner {depth : Nat} {node : Node} {w : Workspace} {f : Fault} {places : List Location} (hnode : node.isLoad = false)
      (h : Passes files depth (fun ev => evaluate files ev node) w f places) :
      Passes files (depth + 1) (fun ev => ev node) w f places
  | first {α β : Type} {depth : Nat} {X : Evaluator → Exec α} {F : α → Evaluator → Exec β} {w : Workspace} {f : Fault}
      {places : List Location} (h : Passes files depth X w f places) :
      Passes files depth (fun ev => X ev >>= fun a => F a ev) w f places
  | second {α β : Type} {depth : Nat} {X : Evaluator → Exec α} {F : α → Evaluator → Exec β} {w u : Workspace} {a : α}
      {f : Fault} {places : List Location} (hX : Routine X) (hok : X (eval files depth) w = (.ok a, u))
      (h : Passes files depth (F a) u f places) : Passes files depth (fun ev => X ev >>= fun a => F a ev) w f places
  | around {α : Type} {depth : Nat} {enter leave : Workspace → Workspace} {X : Evaluator → Exec α} {w : Workspace}
      {f : Fault} {places : List Location} (h : Passes files depth X (enter w) f places) :
      Passes files depth (fun ev => Exec.around enter leave (X ev)) w f places
  /-- A call of `LOAD` that does not get the name of a file. -/
  | name {depth : Nat} {caller : String} {w : Workspace} {f : Fault} {places : List Location}
      (hcaller : Builtin.ofName? caller = some .load)
      (h : Passes files depth (fun ev => pullWord ev caller) w f places) :
      Passes files (depth + 1) (fun ev => ev (.call caller)) w f places
  /-- A file that is refused adds nothing. -/
  | refused {depth : Nat} {caller name : String} {w u : Workspace} {cause : Cause}
      (hcaller : Builtin.ofName? caller = some .load)
      (hname : pullWord (eval files depth) caller w = (.ok name, u))
      (hcause : Refuses files (eval files depth) name u cause) :
      Passes files (depth + 1) (fun ev => ev (.call caller)) w (.running cause) []
  /-- A file passes on the fault of one of its lines, with this line. -/
  | line {depth k : Nat} {caller name path line : String} {w u v : Workspace} {f : Fault} {places : List Location}
      (hcaller : Builtin.ofName? caller = some .load)
      (hname : pullWord (eval files depth) caller w = (.ok name, u))
      (hpath : files.resolve? name = some path)
      (hto : FedTo (eval files depth) (files.read path).known (u.hold {}) k line v)
      (h : Passes files depth (fun ev => feed ev line) v f places) :
      Passes files (depth + 1) (fun ev => ev (.call caller)) w (f.passing ⟨path, (k + 1 : Nat), line⟩)
        (places ++ [⟨path, (k + 1 : Nat), line⟩])

section Passing

variable {files : FileStore} {depth : Nat} {w : Workspace} {f : Fault}

theorem eval_load_error_iff {caller : String} {e : Failure} (hcaller : Builtin.ofName? caller = some .load) :
    (eval files (depth + 1) (.call caller) w).1 = .error e ↔
      (pullWord (eval files depth) caller w).1 = .error e ∨
        ∃ name u, pullWord (eval files depth) caller w = (.ok name, u) ∧
          (load files (eval files depth) name u).1 = .error e := by
  have hcall : eval files (depth + 1) (.call caller) = Builtin.load.run files (eval files depth) caller := by
    funext w
    show call files (eval files depth) caller w = _
    rw [call, hcaller]
  rw [hcall, Builtin.run, bind_error_iff]
  simp only [bind_error_iff, pure_apply, reduceCtorEq, and_false, exists_false, or_false]

/-- A fault that passes out of something is what this fails with, and its trace is what it has passed. -/
theorem Passes.fails {α : Type} {X : Evaluator → Exec α} {places : List Location}
    (h : Passes files depth X w f places) : (X (eval files depth) w).1 = .error (.fault f) ∧ f.trace = places := by
  induction h with
  | step hx hfault => exact ⟨hfault, hx _ _ hfault⟩
  | inner hnode _ ih => exact ih
  | first _ ih => exact ⟨bind_error_iff.mpr (.inl ih.1), ih.2⟩
  | second hX hok _ ih => exact ⟨bind_error_iff.mpr (.inr ⟨_, _, hok, ih.1⟩), ih.2⟩
  | around _ ih => exact ih
  | name hcaller _ ih => exact ⟨(eval_load_error_iff hcaller).mpr (.inl ih.1), ih.2⟩
  | refused hcaller hname hcause =>
    have hload := load_fault_iff.mpr (.inl ⟨_, hcause, rfl⟩)
    exact ⟨(eval_load_error_iff hcaller).mpr (.inr ⟨_, _, hname, hload⟩), rfl⟩
  | line hcaller hname hpath hto _ ih =>
    have hload := load_fault_iff.mpr (.inr ⟨_, _, _, _, _, hpath, hto, ih.1, rfl⟩)
    refine ⟨(eval_load_error_iff hcaller).mpr (.inr ⟨_, _, hname, hload⟩), ?_⟩
    rw [Fault.passing, ih.2]

/-- The fault of a routine passes through it, if those of the evaluations in it do. -/
theorem Routine.passes {α : Type} {X : Evaluator → Exec α} (hX : Routine X)
    (hev : ∀ node w f, (eval files depth node w).1 = .error (.fault f) →
      Passes files depth (fun ev => ev node) w f f.trace) (hfault : (X (eval files depth) w).1 = .error (.fault f)) :
    Passes files depth X w f f.trace := by
  induction hX generalizing w f with
  | step hx =>
    rw [hx w f hfault]
    exact .step hx hfault
  | inner node => exact hev node w f hfault
  | bind hX _ ihX ihF =>
    rcases bind_error_iff.mp hfault with h | ⟨a, u, hok, h⟩
    · exact .first (ihX h)
    · exact .second hX hok (ihF a h)
  | around enter leave _ ih => exact .around (ih hfault)

theorem eval_passes (node : Node) (hfault : (eval files depth node w).1 = .error (.fault f)) :
    Passes files depth (fun ev => ev node) w f f.trace := by
  induction depth generalizing node w f with
  | zero => cases hfault
  | succ depth ih =>
    cases hnode : node.isLoad with
    | false => exact .inner hnode ((Routine.evaluate files hnode).passes (fun n u g => ih n) hfault)
    | true =>
      cases node with
      | call caller =>
        have hcaller : Builtin.ofName? caller = some .load := by simpa [Node.isLoad] using hnode
        rcases (eval_load_error_iff hcaller).mp hfault with h | ⟨name, u, hname, hload⟩
        · exact .name hcaller ((Routine.pullWord caller).passes (fun n u g => ih n) h)
        · rcases load_fault_iff.mp hload with ⟨cause, hcause, rfl⟩ | ⟨path, k, line, v, g, hpath, hto, hline, rfl⟩
          · exact .refused hcaller hname hcause
          · exact .line hcaller hname hpath hto ((Routine.feed line).passes (fun n u g => ih n) hline)
      | _ => cases hnode

/-- **The trace of a fault is what it passed.** -/
theorem Routine.passes_iff {α : Type} {X : Evaluator → Exec α} (hX : Routine X) {places : List Location} :
    Passes files depth X w f places ↔ (X (eval files depth) w).1 = .error (.fault f) ∧ f.trace = places := by
  constructor
  · exact Passes.fails
  · rintro ⟨hfault, rfl⟩
    exact hX.passes (fun node _ _ => eval_passes node) hfault

end Passing

/-- The places that an outcome's fault has passed through, if the outcome is a fault. -/
def places? {α : Type} : Except Failure α → Option (List Location)
  | .error (.fault f) => some f.trace
  | _ => none

theorem exists_fault_of_places? {α : Type} {outcome : Except Failure α} {places : List Location}
    (h : places? outcome = some places) : ∃ f, outcome = .error (.fault f) ∧ f.trace = places := by
  rcases outcome with (f | c) | result
  · exact ⟨f, rfl, Option.some.inj h⟩
  · cases h
  · cases h

end TurtleLogo
