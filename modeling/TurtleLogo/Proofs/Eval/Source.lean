import TurtleLogo.Proofs.Eval.Loading
import TurtleLogo.Proofs.Eval.Rereading
import TurtleLogo.Proofs.Eval.WriteOnly

/-!
# The source of procedures

A procedure keeps the lines of its body twice, as they were typed and as what they say. There are always as many of the
one as of the other, and reading a line as it was typed gives what it says, as long as every line that goes on was fed
with its end and no line ends in white space behind a backslash.

* `Procedure.Rereads`, `Procedure.Matches` : every line, read again, gives what was read; there are as many of each;
* `Workspace.InOrder` : a property of all procedures, also of the one that is being defined, and one of what is held;
* `feed_inOrder`, `load_inOrder`, `feedInTurn_inOrder` : what a line, a file and many lines keep of it;
* `endsLine_of_read` : the lines of a file have ends, but for the last;
* `source_rereads` : the procedures of a workspace that lines have led to;
* `source_rereads_needs_both` : why both conditions are needed.
-/

namespace TurtleLogo

open Exec Lexer Text

/-! ## Procedures -/

/-- Every line of the body, read again as it was typed, gives what it says. -/
def Procedure.Rereads (p : Procedure) : Prop := p.source.map parseText = p.body.map Except.ok

theorem Procedure.Rereads.addLine {p : Procedure} (h : p.Rereads) {items : List Node} {text : String}
    (htext : parseText text = .ok items) : (p.addLine items text).Rereads := by
  simp only [Procedure.Rereads, Procedure.addLine, List.map_append, List.map_cons, List.map_nil, htext]
  rw [h]

theorem lines_of_titled {inputs : List Node} {p : Procedure} (h : titled inputs = .ok p) :
    p.body = [] ∧ p.source = [] := by
  unfold titled at h
  split at h
  · cases h
  · split at h
    · cases h
    · cases hf : formals _ with
      | error cause =>
        rw [hf] at h
        cases h
      | ok inputs =>
        rw [hf] at h
        cases h
        exact ⟨rfl, rfl⟩
  · cases h

def Workspace.stored (w : Workspace) : List Procedure := w.procedures.values ++ w.definition.toList

/-- Something that holds of every procedure, also of the one that is being defined. -/
structure Workspace.Stores (P : Procedure → Prop) (w : Workspace) : Prop where
  procedures : ∀ entry ∈ w.procedures.entries, P entry.2
  definition : ∀ p, w.definition = some p → P p

namespace Workspace.Stores

variable {P : Procedure → Prop} {w w' : Workspace}

theorem of_eq (h : w.Stores P) (hp : w'.procedures = w.procedures) (hd : w'.definition = w.definition) :
    w'.Stores P where
  procedures := by
    rw [hp]
    exact h.procedures
  definition := by
    rw [hd]
    exact h.definition

theorem assign (h : w.Stores P) (name : String) (value : Node) : (w.assign name value).Stores P := by
  unfold Workspace.assign
  split
  · split <;> exact h.of_eq rfl rfl
  · exact h.of_eq rfl rfl

theorem setDefinition (h : w.Stores P) {p : Procedure} (hp : P p) : Stores P { w with definition := some p } where
  procedures := h.procedures
  definition := by
    rintro _ ⟨⟩
    exact hp

theorem drop (h : w.Stores P) : Stores P { w with definition := none } where
  procedures := h.procedures
  definition := nofun

theorem define (h : w.Stores P) {p : Procedure} (hp : P p) :
    Stores P { w with procedures := w.procedures.insert p.name p } where
  procedures := by
    intro entry hentry
    rcases Table.mem_entries_insert hentry with rfl | hentry
    · exact hp
    · exact h.procedures entry hentry
  definition := h.definition

theorem of_mem (h : w.Stores P) {p : Procedure} (hp : p ∈ w.stored) : P p := by
  rcases List.mem_append.mp hp with hp | hp
  · obtain ⟨entry, hentry, rfl⟩ := List.mem_map.mp hp
    exact h.procedures entry hentry
  · rw [Option.mem_toList] at hp
    exact h.definition p hp

end Workspace.Stores

/-! ## Lines that are collected -/

/-- Where every procedure has `P` and what is held has `C`. -/
structure Workspace.InOrder (P : Procedure → Prop) (C : Continuation → Prop) (w : Workspace) : Prop where
  stores : w.Stores P
  holds : C w.continuation

/-- `P` stays true of a procedure that collects the line behind anything with `C`. -/
def Collects (P : Procedure → Prop) (C : Continuation → Prop) (line : String) : Prop :=
  ∀ (c : Continuation) (fresh : List Token) (items : List Node) (p : Procedure), C c → tokenize line = .ok fresh →
    endsInCont (c.tokens ++ fresh) = false → parseLine (c.tokens ++ fresh) = .ok items → items ≠ [] → P p →
    P (p.addLine items (trim isWhite (c.text ++ line)))

/-- If the line goes on, `C` stays true of what is held. -/
def Extends (C : Continuation → Prop) (line : String) : Prop :=
  ∀ (c : Continuation) (fresh : List Token), C c → tokenize line = .ok fresh → endsInCont (c.tokens ++ fresh) = true →
    C ⟨c.tokens ++ fresh, c.text ++ line⟩

/-- A procedure without lines has `P`, and `C` is true when nothing is held. -/
structure Begins (P : Procedure → Prop) (C : Continuation → Prop) : Prop where
  title : ∀ {p : Procedure}, p.body = [] → p.source = [] → P p
  fresh : C {}

section InOrder

variable {P : Procedure → Prop} {C : Continuation → Prop}

theorem Workspace.InOrder.of_eq {w w' : Workspace} (h : w.InOrder P C) (hp : w'.procedures = w.procedures)
    (hd : w'.definition = w.definition) (hc : w'.continuation = w.continuation) : w'.InOrder P C where
  stores := h.stores.of_eq hp hd
  holds := by
    rw [hc]
    exact h.holds

/-- Evaluating touches neither procedures nor what is held, the lines of loaded files apart. -/
theorem inOrder_steady : Steady fun w w' => w.InOrder P C → w'.InOrder P C where
  refl _ h := h
  trans h h' hw := h' (h hw)
  next _ h := h.of_eq rfl rfl rfl
  queue _ h hw := (h (hw.of_eq rfl rfl rfl)).of_eq rfl rfl rfl
  frame _ h hw := (h (hw.of_eq rfl rfl rfl)).of_eq rfl rfl rfl
  assign w name value h := by
    refine ⟨h.stores.assign name value, ?_⟩
    have hsame : (w.assign name value).continuation = w.continuation := by
      unfold Workspace.assign
      split
      · split <;> rfl
      · rfl
    rw [hsame]
    exact h.holds
  draw _ _ h := h.of_eq rfl rfl rfl
  print _ _ h := h.of_eq rfl rfl rfl

/-! ## One line -/

theorem collect_stores {w : Workspace} {p : Procedure} {text : String} {items : List Node} (h : w.Stores P) (hp : P p)
    (hadd : items ≠ [] → P (p.addLine items (trim isWhite text))) :
    (collect p text items w).2.Stores P ∧ (collect p text items w).2.continuation = w.continuation := by
  unfold collect
  split
  · exact ⟨h, rfl⟩
  · split
    · change (define p { w with definition := none }).2.Stores P ∧
        (define p { w with definition := none }).2.continuation = w.continuation
      unfold define
      split
      · exact ⟨h.drop, rfl⟩
      · exact ⟨h.drop.define hp, rfl⟩
    · split
      · exact ⟨h, rfl⟩
      · next hempty =>
        have hne : items ≠ [] := by
          intro hnil
          exact hempty (by rw [hnil]; rfl)
        exact ⟨h.setDefinition (hadd hne), rfl⟩

theorem beginDefinition_stores (hbegins : Begins P C) {w : Workspace} (h : w.Stores P) (inputs : List Node) :
    (beginDefinition inputs w).2.Stores P ∧ (beginDefinition inputs w).2.continuation = w.continuation := by
  unfold beginDefinition
  cases ht : titled inputs with
  | error cause => exact ⟨h, rfl⟩
  | ok p =>
    obtain ⟨hbody, hsource⟩ := lines_of_titled ht
    exact ⟨h.setDefinition (hbegins.title hbody hsource), rfl⟩

variable {ev : Evaluator} (hev : ∀ node, Keeps (fun w w' => w.InOrder P C → w'.InOrder P C) (ev node))

include hev

theorem handleLine_inOrder (hbegins : Begins P C) {w : Workspace} (h : w.InOrder P C) {text : String}
    {items : List Node} (hadd : ∀ p, P p → items ≠ [] → P (p.addLine items (trim isWhite text))) :
    (handleLine ev text items w).2.InOrder P C := by
  have hquiet {x : Exec Unit} (hx : (x w).2.Stores P ∧ (x w).2.continuation = w.continuation) :
      ((x >>= fun _ => pure (none : Result)) w).2.InOrder P C := by
    have hspace : ((x >>= fun _ => pure (none : Result)) w).2 = (x w).2 := by
      rw [bind_apply]
      rcases x w with ⟨r, u⟩
      cases r <;> rfl
    rw [hspace]
    refine ⟨hx.1, ?_⟩
    rw [hx.2]
    exact h.holds
  cases hd : w.definition with
  | some p =>
    have hp := h.stores.definition p hd
    rw [handleLine_of_some ev text items hd]
    exact hquiet (collect_stores h.stores hp (hadd p hp))
  | none =>
    rw [handleLine_of_none ev text items hd]
    split
    · exact hquiet (beginDefinition_stores hbegins h.stores items.tail)
    · exact runLine_keeps inOrder_steady hev items w h

/-- **One line.** Every procedure has `P` afterwards, and what is held has `C` unless it goes on unduly. -/
theorem feed_inOrder (hbegins : Begins P C) {line : String} (hline : Collects P C line) {w : Workspace}
    (h : w.InOrder P C) :
    (feed ev line w).2.Stores P ∧ (Extends C line → (feed ev line w).2.InOrder P C) := by
  have hfresh : (w.hold {}).InOrder P C := ⟨h.stores.of_eq rfl rfl, hbegins.fresh⟩
  rw [feed, bind_apply]
  cases ht : tokenize line with
  | error e =>
    rw [readLine_misspelled ht]
    exact ⟨hfresh.stores, fun _ => hfresh⟩
  | ok fresh =>
    cases hc : endsInCont (w.continuation.tokens ++ fresh) with
    | true =>
      rw [readLine_cont ht hc]
      exact ⟨h.stores.of_eq rfl rfl, fun hext => ⟨h.stores.of_eq rfl rfl, hext _ _ h.holds ht hc⟩⟩
    | false =>
      rw [readLine_whole ht hc]
      cases hp : parseLine (w.continuation.tokens ++ fresh) with
      | error e => exact ⟨hfresh.stores, fun _ => hfresh⟩
      | ok items =>
        have hafter := handleLine_inOrder hev hbegins hfresh fun p hrule hitems =>
          hline _ _ _ p h.holds ht hc hp hitems hrule
        exact ⟨hafter.stores, fun _ => hafter⟩

/-! ## Files -/

/-- **The lines of a file.** Only the last may go on unduly, since nothing is held beyond it. -/
theorem feedPrinting_stores (hbegins : Begins P C) {lines : List String} (hlines : ∀ line ∈ lines, Collects P C line)
    (hlast : ∀ line ∈ lines.dropLast, Extends C line) {w : Workspace} (h : w.InOrder P C) :
    (feedPrinting ev lines w).2.Stores P := by
  induction lines generalizing w with
  | nil => exact h.stores
  | cons line lines ih =>
    obtain ⟨hstores, hnext⟩ := feed_inOrder hev hbegins (hlines line List.mem_cons_self) h
    rw [feedPrinting]
    rcases hf : feed ev line w with ⟨r, u⟩
    rw [hf] at hstores hnext
    by_cases hmore : lines = []
    · subst hmore
      rcases r with e | _ | v
      · exact hstores
      · exact hstores
      · exact hstores.of_eq rfl rfl
    · rw [List.dropLast_cons_of_ne_nil hmore] at hlast
      have hu : u.InOrder P C := hnext (hlast line List.mem_cons_self)
      have hrest {v : Workspace} (hv : v.InOrder P C) : (feedPrinting ev lines v).2.Stores P :=
        ih (fun l hl => hlines l (List.mem_cons_of_mem _ hl)) (fun l hl => hlast l (List.mem_cons_of_mem _ hl)) hv
      rcases r with e | _ | v
      · exact hstores
      · exact hrest hu
      · exact hrest (hu.of_eq rfl rfl rfl)

def FileText.known : FileText → List String
  | .lines texts | .broken texts => texts

omit hev in
theorem feedText_eq (ev : Evaluator) (path : String) (text : FileText) (w : Workspace) :
    (feedText ev path text w).2 = (feedPrinting ev text.known w).2 := by
  rw [← (feedLines_untraced ev path text.known 1 w).1]
  cases text with
  | lines lines => rfl
  | broken lines =>
    rw [feedText, bind_apply, FileText.known]
    rcases feedLines ev path 1 lines w with ⟨r, u⟩
    cases r <;> rfl

/-- **A file.** What is held comes back, and whatever definition the file leaves open has `P`. -/
theorem load_inOrder (hbegins : Begins P C) {files : FileStore}
    (hfiles : ∀ path, (∀ line ∈ (files.read path).known, Collects P C line) ∧
      ∀ line ∈ (files.read path).known.dropLast, Extends C line) (file : String) :
    Keeps (fun w w' => w.InOrder P C → w'.InOrder P C) (load files ev file) := by
  intro w h
  cases hfile : files.resolve? file with
  | none =>
    rw [load_of_missing hfile]
    exact h
  | some path =>
    have hfresh : (w.hold {}).InOrder P C := ⟨h.stores.of_eq rfl rfl, hbegins.fresh⟩
    have hfed := feedPrinting_stores hev hbegins (hfiles path).1 (hfiles path).2 hfresh
    rw [← feedText_eq ev path] at hfed
    have hopen : ({ w with continuation := {} } : Workspace) = w.hold {} := rfl
    rw [load_of_resolve hfile, loadText, bind_apply, inFile, hopen]
    generalize feedText ev path (files.read path) (w.hold {}) = fed at hfed ⊢
    rcases fed with ⟨(fault | crash) | ⟨⟩, u⟩
    · exact ⟨hfed.drop.of_eq rfl rfl, h.holds⟩
    · exact ⟨hfed.of_eq rfl rfl, h.holds⟩
    · unfold closeFile
      dsimp only
      split
      · exact ⟨hfed.drop.of_eq rfl rfl, h.holds⟩
      · exact ⟨hfed.of_eq rfl rfl, h.holds⟩

end InOrder

/-! ## The lines of files have ends -/

theorem endsLine_of_splitLines : ∀ {chars line : List Char}, line ∈ (splitLines chars).1 → ['\n'] <:+ line
  | [], _, h => by cases h
  | c :: rest, line, h => by
    have ih {line : List Char} (hline : line ∈ (splitLines rest).1) := endsLine_of_splitLines hline
    rw [splitLines] at h
    rcases hsplit : splitLines rest with ⟨lines, last⟩
    rw [hsplit] at h ih
    dsimp only at h
    split at h
    · next hc =>
      subst hc
      rcases List.mem_cons.mp h with rfl | h
      · exact List.suffix_refl _
      · exact ih h
    · cases lines with
      | nil => cases h
      | cons first lines =>
        rcases List.mem_cons.mp h with rfl | h
        · exact (ih List.mem_cons_self).trans (List.suffix_cons c first)
        · exact ih (List.mem_cons_of_mem _ h)

theorem endsLine_of_endedLines {chars : List Char} {line : String} (h : line ∈ endedLines chars) :
    ['\n'] <:+ line.toList := by
  obtain ⟨text, htext, rfl⟩ := List.mem_map.mp h
  rw [String.toList_ofList]
  exact endsLine_of_splitLines htext

theorem endsLine_of_allLines {chars : List Char} {line : String} (h : line ∈ (allLines chars).dropLast) :
    ['\n'] <:+ line.toList := by
  unfold allLines at h
  dsimp only at h
  rw [← List.map_dropLast] at h
  obtain ⟨text, htext, rfl⟩ := List.mem_map.mp h
  rw [String.toList_ofList]
  split at htext
  · exact endsLine_of_splitLines ((List.dropLast_prefix _).subset htext)
  · rw [List.dropLast_concat] at htext
    exact endsLine_of_splitLines htext

theorem endsLine_of_read {files : FileStore} {path line : String} (h : line ∈ (files.read path).known.dropLast) :
    ['\n'] <:+ line.toList := by
  unfold FileStore.read at h
  split at h
  · unfold FileText.ofBytes at h
    split at h
    · exact endsLine_of_allLines h
    · exact endsLine_of_endedLines ((List.dropLast_prefix _).subset h)
    · exact endsLine_of_endedLines ((List.dropLast_prefix _).subset h)
  · cases h

/-! ## Line after line -/

section Feeding

variable {P : Procedure → Prop} {C : Continuation → Prop} (hbegins : Begins P C)

include hbegins

theorem eval_inOrder {files : FileStore}
    (hfiles : ∀ path, (∀ line ∈ (files.read path).known, Collects P C line) ∧
      ∀ line ∈ (files.read path).known.dropLast, Extends C line) (depth : Nat) (node : Node) :
    Keeps (fun w w' => w.InOrder P C → w'.InOrder P C) (eval files depth node) :=
  eval_steady inOrder_steady (fun hev file => load_inOrder hev hbegins hfiles file) depth node

/-- **Many lines**, each with the files that there are then. -/
theorem feedInTurn_inOrder (depth : Nat) {inputs : List (FileStore × String)}
    (hlines : ∀ input ∈ inputs, Collects P C input.2 ∧ Extends C input.2)
    (hfiles : ∀ input ∈ inputs, ∀ path, (∀ line ∈ (input.1.read path).known, Collects P C line) ∧
      ∀ line ∈ (input.1.read path).known.dropLast, Extends C line) {w : Workspace} (h : w.InOrder P C) :
    (feedInTurn depth inputs w).InOrder P C := by
  induction inputs generalizing w with
  | nil => exact h
  | cons input inputs ih =>
    have hev := eval_inOrder hbegins (hfiles input List.mem_cons_self) depth
    obtain ⟨hcollects, hextends⟩ := hlines input List.mem_cons_self
    have hnext := (feed_inOrder hev hbegins hcollects h).2 hextends
    exact ih (fun i hi => hlines i (List.mem_cons_of_mem _ hi)) (fun i hi => hfiles i (List.mem_cons_of_mem _ hi)) hnext

theorem inOrder_fresh (drawing : Drawing) : ({ drawing } : Workspace).InOrder P C where
  stores := ⟨nofun, nofun⟩
  holds := hbegins.fresh

end Feeding

/-! ## As many lines of the one as of the other -/

/-- There are as many lines as they were typed as there are lines of the body. -/
def Procedure.Matches (p : Procedure) : Prop := p.source.length = p.body.length

theorem begins_matches : Begins Procedure.Matches fun _ => True where
  title hbody hsource := by rw [Procedure.Matches, hbody, hsource, List.length_nil, List.length_nil]
  fresh := trivial

theorem collects_matches (line : String) : Collects Procedure.Matches (fun _ => True) line := by
  intro c fresh items p _ _ _ _ _ hp
  simp only [Procedure.Matches, Procedure.addLine, List.length_append, List.length_singleton] at hp ⊢
  omega

/-! ## Reading again -/

theorem begins_rereads : Begins Procedure.Rereads Continuation.Coherent where
  title hbody hsource := by
    rw [Procedure.Rereads, hbody, hsource]
    rfl
  fresh := .empty

theorem collects_rereads {line : String} (h : cutsEscape line.toList = false) :
    Collects Procedure.Rereads Continuation.Coherent line := by
  intro c fresh items p hc hline hwhole hparse hitems hp
  exact hp.addLine (parseText_trim hc hline hwhole hparse hitems h)

theorem endsInCont_of_append {held fresh : List Token} (hclosed : isClosed fresh = true)
    (h : endsInCont (held ++ fresh) = true) : endsInCont fresh = true := by
  have hne : fresh ≠ [] := by
    rintro rfl
    cases hclosed
  rw [endsInCont, List.getLast?_append, List.getLast?_eq_some_getLast hne] at h
  rw [endsInCont, List.getLast?_eq_some_getLast hne]
  exact h

theorem extends_coherent {line : String} (h : goesOn line = true → ['\n'] <:+ line.toList) :
    Extends Continuation.Coherent line := by
  intro c fresh hc hline hgoes
  have hfresh := endsInCont_of_append (isClosed_tokenize hline) hgoes
  refine hc.hold hline hfresh (h ?_)
  rw [goesOn, hline]
  exact hfresh

/-- **The source of procedures.** Whatever lines are fed, every procedure and the open definition keep as many lines as
they were typed as lines of their body.

Where every line that goes on is fed with its end, and where no line that is fed or that stands in a file loses the
character behind a backslash with the white space at its end, each line as it was typed gives, when it is read again, the
line of the body that it stands for. It does so with its comments and its escapes, and when it was built from several
lines. -/
theorem source_rereads (depth : Nat) (drawing : Drawing) (inputs : List (FileStore × String)) :
    (∀ p ∈ (feedInTurn depth inputs { drawing }).stored, p.source.length = p.body.length) ∧
    ((∀ input ∈ inputs, (goesOn input.2 = true → ['\n'] <:+ input.2.toList) ∧ cutsEscape input.2.toList = false ∧
        ∀ path, ∀ line ∈ (input.1.read path).known, cutsEscape line.toList = false) →
      ∀ p ∈ (feedInTurn depth inputs { drawing }).stored, p.source.map parseText = p.body.map Except.ok) := by
  constructor
  · have hall : (feedInTurn depth inputs { drawing }).InOrder Procedure.Matches fun _ => True :=
      feedInTurn_inOrder begins_matches depth
      (fun input _ => ⟨collects_matches input.2, fun _ _ _ _ _ => trivial⟩)
      (fun input _ path => ⟨fun line _ => collects_matches line, fun _ _ _ _ _ _ _ => trivial⟩)
      (inOrder_fresh begins_matches drawing)
    intro p hp
    exact hall.stores.of_mem hp
  · intro hinputs
    have hall : (feedInTurn depth inputs { drawing }).InOrder Procedure.Rereads Continuation.Coherent :=
      feedInTurn_inOrder begins_rereads depth
      (fun input hinput => ⟨collects_rereads (hinputs input hinput).2.1, extends_coherent (hinputs input hinput).1⟩)
      (fun input hinput path =>
        ⟨fun line hline => collects_rereads ((hinputs input hinput).2.2 path line hline),
          fun line hline => extends_coherent fun _ => endsLine_of_read hline⟩)
      (inOrder_fresh begins_rereads drawing)
    intro p hp
    exact hall.stores.of_mem hp

theorem known_read_empty (path : String) : (({} : FileStore).read path).known = [] := by
  have hnone : ({} : FileStore).file? path = none := by
    unfold FileStore.file? FileStore.entry?
    have hlookup : ({} : FileStore).entries.lookup path = none := rfl
    rw [hlookup]
    dsimp only
    split
    · rfl
    · cases ({} : FileStore).walk [] (pathParts path) <;> rfl
  rw [FileStore.read, hnone]
  rfl

/-- A line in two parts, with an escaped blank and a comment, fed with their ends. -/
theorem source_rereads_two_parts :
    let lines := ["TO P\n", "  PRINT \\\n", "\"A\\ B ; why \\ \n", "END\n"]
    let inputs : List (FileStore × String) := lines.map ({}, ·)
    (feedInTurn 8 inputs {}).stored.map Procedure.source = [["PRINT \\\n\"A\\ B ; why \\"]] ∧
      ∀ p ∈ (feedInTurn 8 inputs {}).stored, p.source.map parseText = p.body.map Except.ok := by
  intro lines inputs
  have hlines : ∀ line ∈ lines, (goesOn line = true → ['\n'] <:+ line.toList) ∧ cutsEscape line.toList = false := by
    decide +kernel +revert
  refine ⟨by decide +kernel +revert, (source_rereads 8 {} inputs).2 fun input hinput => ?_⟩
  obtain ⟨line, hline, rfl⟩ := List.mem_map.mp hinput
  refine ⟨(hlines line hline).1, (hlines line hline).2, fun path other hother => ?_⟩
  rw [known_read_empty] at hother
  cases hother

/-- Neither condition can go. A line that goes on, fed without its end, is joined to the next so that the backslash
stands before the colon, and a call is read where a variable was. A line that ends in an escaped blank loses the blank
and the word with it. -/
theorem source_rereads_needs_both :
    (∃ p ∈ (feedInTurn 8 [({}, "TO P"), ({}, "PRINT \\"), ({}, ":X"), ({}, "END")] {}).stored,
      p.source.map parseText ≠ p.body.map Except.ok) ∧
    (∃ p ∈ (feedInTurn 8 [({}, "TO P\n"), ({}, "PRINT \"A\\ \n"), ({}, "END\n")] {}).stored,
      p.source.map parseText ≠ p.body.map Except.ok) := by
  constructor
  · have hstored : (feedInTurn 8 [({}, "TO P"), ({}, "PRINT \\"), ({}, ":X"), ({}, "END")] {}).stored =
        [⟨"P", [], [[.call "PRINT", .var "X"]], ["PRINT \\:X"]⟩] := by cbv
    have hread : parseText "PRINT \\:X" = .ok [.call "PRINT", .call ":X"] := by cbv
    rw [hstored]
    refine ⟨_, List.mem_cons_self, ?_⟩
    simp [hread]
  · have hstored : (feedInTurn 8 [({}, "TO P\n"), ({}, "PRINT \"A\\ \n"), ({}, "END\n")] {}).stored =
        [⟨"P", [], [[.call "PRINT", .word "A "]], ["PRINT \"A\\"]⟩] := by cbv
    have hread : parseText "PRINT \"A\\" = .ok [.call "PRINT", .word "A"] := by cbv
    rw [hstored]
    refine ⟨_, List.mem_cons_self, ?_⟩
    simp [hread]

end TurtleLogo
