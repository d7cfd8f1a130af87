import TurtleLogo.Proofs.Eval.Source

/-!
# What becomes of the lines of a file

A file that was loaded without a failure has had its lines carried out: each was run, or was collected into a procedure
that was then put into the workspace. Only lines at the end of the file that go on, with nothing to go on with, are
dropped.

* `Joined` : physical lines that make one line, with its text and expressions;
* `Workspace.showing`, `Workspace.commit` : a value printed, a definition ended;
* `feed_ok_cases`, `handleLine_ok_cases` : every way for a line to succeed;
* `Steps` : lines handled one after the other, `feedPrinting_steps` : the lines of a file are;
* `Body`, `Carried` : the lines of a definition, and lines that were carried out; `Steps.carried`;
* `load_carries_out` : a file, `load_drops_last` : its last line.
-/

namespace TurtleLogo

open Exec Text

/-! ## One line -/

/-- Physical lines that make one line behind what is held: all but the last go on, and together they have a text and say
the expressions. -/
inductive Joined : Continuation → List String → String → List Node → Prop
  | last {c : Continuation} {line : String} {fresh : List Token} {items : List Node} (ht : tokenize line = .ok fresh)
      (whole : endsInCont fresh = false) (hp : parseLine (c.tokens ++ fresh) = .ok items) :
      Joined c [line] (c.text ++ line) items
  | part {c : Continuation} {line text : String} {fresh : List Token} {lines : List String} {items : List Node}
      (ht : tokenize line = .ok fresh) (goesOn : endsInCont fresh = true)
      (more : Joined ⟨c.tokens ++ fresh, c.text ++ line⟩ lines text items) : Joined c (line :: lines) text items

def Workspace.showing (w : Workspace) : Result → Workspace
  | some v => w.print v.display
  | none => w

def Workspace.commit (w : Workspace) (p : Procedure) : Workspace :=
  { w with definition := none, procedures := w.procedures.insert p.name p }

/-- A procedure with a line of its body; an empty one is left out. -/
def Procedure.collected (p : Procedure) (line : String × List Node) : Procedure :=
  if line.2.isEmpty then p else p.addLine line.2 (trim isWhite line.1)

theorem endsInCont_append_tokenize {line : String} {fresh : List Token} (h : tokenize line = .ok fresh)
    (held : List Token) : endsInCont (held ++ fresh) = endsInCont fresh := by
  cases hfresh : endsInCont fresh with
  | true => exact endsInCont_append hfresh
  | false =>
    cases hall : endsInCont (held ++ fresh) with
    | false => rfl
    | true =>
      rw [endsInCont_of_append (isClosed_tokenize h) hall] at hfresh
      cases hfresh

theorem feed_ok_cases {ev : Evaluator} {line : String} {c : Continuation} {w u : Workspace} {r : Result}
    (hw : w.continuation = {}) (h : feed ev line (w.hold c) = (.ok r, u)) :
    ∃ fresh, tokenize line = .ok fresh ∧
      ((endsInCont fresh = true ∧ r = none ∧ u = w.hold ⟨c.tokens ++ fresh, c.text ++ line⟩) ∨
        (endsInCont fresh = false ∧ ∃ items, parseLine (c.tokens ++ fresh) = .ok items ∧
          handleLine ev (c.text ++ line) items w = (.ok r, u))) := by
  have hheld : (w.hold c).hold {} = w := w.hold_eq_self hw
  rw [feed, bind_apply] at h
  cases ht : tokenize line with
  | error e =>
    rw [readLine_misspelled ht] at h
    cases h
  | ok fresh =>
    refine ⟨fresh, rfl, ?_⟩
    cases hc : endsInCont fresh with
    | true =>
      rw [readLine_cont ht ((endsInCont_append_tokenize ht _).trans hc)] at h
      obtain ⟨hr, hu⟩ := Prod.mk.inj h
      exact .inl ⟨rfl, (Except.ok.inj hr).symm, hu.symm⟩
    | false =>
      rw [readLine_whole ht ((endsInCont_append_tokenize ht _).trans hc), hheld] at h
      cases hp : parseLine (c.tokens ++ fresh) with
      | error e =>
        rw [show (w.hold c).continuation.tokens ++ fresh = c.tokens ++ fresh from rfl, hp] at h
        cases h
      | ok items =>
        rw [show (w.hold c).continuation.tokens ++ fresh = c.tokens ++ fresh from rfl, hp] at h
        exact .inr ⟨rfl, items, rfl, h⟩

theorem handleLine_ok_cases {ev : Evaluator} {text : String} {items : List Node} {w u : Workspace} {r : Result}
    (h : handleLine ev text items w = (.ok r, u)) :
    (w.definition = none ∧ startsWith "TO" items = false ∧ runLine ev items w = (.ok r, u)) ∨
    (∃ p, w.definition = none ∧ startsWith "TO" items = true ∧ titled items.tail = .ok p ∧ r = none ∧
      u = w.defining p) ∨
    (∃ p, w.definition = some p ∧ startsWith "TO" items = false ∧ startsWith "END" items = false ∧ r = none ∧
      u = w.defining (p.collected (text, items))) ∨
    ∃ p, w.definition = some p ∧ startsWith "END" items = true ∧ r = none ∧ u = w.commit p := by
  cases hd : w.definition with
  | none =>
    rw [handleLine_of_none ev text items hd] at h
    cases hto : startsWith "TO" items with
    | false =>
      rw [hto] at h
      exact .inl ⟨rfl, rfl, h⟩
    | true =>
      rw [hto, if_pos rfl, bind_apply, beginDefinition] at h
      cases htitle : titled items.tail with
      | error cause =>
        rw [htitle] at h
        cases h
      | ok p =>
        rw [htitle] at h
        obtain ⟨hr, hu⟩ := Prod.mk.inj h
        exact .inr (.inl ⟨p, rfl, rfl, rfl, (Except.ok.inj hr).symm, hu.symm⟩)
  | some p =>
    rw [handleLine_of_some ev text items hd, bind_apply] at h
    unfold collect at h
    cases hto : startsWith "TO" items with
    | true =>
      rw [hto] at h
      cases h
    | false =>
      cases hend : startsWith "END" items with
      | true =>
        rw [hto, hend, if_neg Bool.false_ne_true, if_pos rfl, bind_apply] at h
        refine .inr (.inr (.inr ⟨p, rfl, rfl, ?_⟩))
        unfold define at h
        cases hname : Builtin.isName p.name with
        | true =>
          rw [hname] at h
          cases h
        | false =>
          rw [hname] at h
          obtain ⟨hr, hu⟩ := Prod.mk.inj h
          exact ⟨(Except.ok.inj hr).symm, hu.symm⟩
      | false =>
        rw [hto, hend, if_neg Bool.false_ne_true, if_neg Bool.false_ne_true] at h
        refine .inr (.inr (.inl ⟨p, rfl, rfl, rfl, ?_⟩))
        unfold Procedure.collected
        cases hempty : items.isEmpty with
        | true =>
          rw [hempty] at h
          obtain ⟨hr, hu⟩ := Prod.mk.inj h
          refine ⟨(Except.ok.inj hr).symm, hu.symm.trans ?_⟩
          cases w
          cases hd
          rfl
        | false =>
          rw [hempty] at h
          obtain ⟨hr, hu⟩ := Prod.mk.inj h
          exact ⟨(Except.ok.inj hr).symm, hu.symm⟩

/-! ## Line after line -/

/-- Lines handled one after the other, the first behind what is held, until no definition is open. -/
inductive Steps (ev : Evaluator) : Continuation → Workspace → List String → Workspace → Prop
  | done {c : Continuation} {w : Workspace} (closed : w.definition = none) : Steps ev c w [] w
  | step {c : Continuation} {w u w' : Workspace} {lines more : List String} {text : String} {items : List Node} {r : Result}
      (line : Joined c lines text items) (handled : handleLine ev text items w = (.ok r, u))
      (rest : Steps ev {} (u.showing r) more w') : Steps ev c w (lines ++ more) w'

/-- Evaluating leaves alone what is held: a file that it loads puts it back. -/
theorem continuation_steady : Steady fun w w' => w'.continuation = w.continuation where
  refl _ := rfl
  trans h h' := h'.trans h
  next _ := rfl
  queue _ h := h
  frame _ h := h
  assign w name value := by
    unfold Workspace.assign
    split
    · split <;> rfl
    · rfl
  draw _ _ := rfl
  print _ _ := rfl

theorem eval_continuation (files : FileStore) (depth : Nat) (node : Node) :
    Keeps (fun w w' => w'.continuation = w.continuation) (eval files depth node) := by
  refine eval_steady continuation_steady (fun {ev} _ name w => ?_) depth node
  cases hname : files.resolve? name with
  | none =>
    rw [load_of_missing hname]
    rfl
  | some path =>
    rw [load_of_resolve hname]
    exact (loadText_context ev path (files.read path) w).1

section Steps

variable {ev : Evaluator} (hev : ∀ node, Keeps (fun w w' => w'.continuation = w.continuation) (ev node))

include hev

theorem continuation_of_handleLine {text : String} {items : List Node} {w u : Workspace} {r : Result}
    (h : handleLine ev text items w = (.ok r, u)) : u.continuation = w.continuation := by
  rcases handleLine_ok_cases h with ⟨-, -, hrun⟩ | ⟨p, -, -, -, -, rfl⟩ | ⟨p, -, -, -, -, rfl⟩ | ⟨p, -, -, -, rfl⟩
  · have hkeep := runLine_keeps continuation_steady hev items w
    rw [hrun] at hkeep
    exact hkeep
  · rfl
  · rfl
  · rfl

/-- **The lines of a file** that were all fed and left no definition open: they were handled, up to the lines at the end that
go on with nothing. -/
theorem feedPrinting_steps (lines : List String) {c : Continuation} {w u : Workspace} (hw : w.continuation = {})
    (h : feedPrinting ev lines (w.hold c) = (.ok (), u)) (hclosed : u.definition = none) :
    ∃ done held v, lines = done ++ held ∧ (∀ line ∈ held, goesOn line = true) ∧
      (∀ line ∈ done.getLast?, goesOn line = false) ∧ Steps ev c w done v ∧ u = v.hold u.continuation := by
  have hnone : ∀ line ∈ ([] : List String).getLast?, goesOn line = false := by simp
  induction lines generalizing c w with
  | nil =>
    cases h
    exact ⟨[], [], w, rfl, List.forall_mem_nil _, hnone, .done hclosed, rfl⟩
  | cons line lines ih =>
    rw [feedPrinting] at h
    rcases hfeed : feed ev line (w.hold c) with ⟨e | r, u₁⟩
    · rw [hfeed] at h
      cases h
    · obtain ⟨fresh, ht, ⟨hgo, rfl, rfl⟩ | ⟨hwhole, items, hp, hhandle⟩⟩ := feed_ok_cases hw hfeed
      · -- The line goes on: it joins the first of the lines that are handled, if there is one.
        rw [hfeed] at h
        obtain ⟨done, held, v, rfl, hheld, hlast, hsteps, hu⟩ := ih hw h
        have hline : goesOn line = true := by
          rw [goesOn, ht]
          exact hgo
        cases hsteps with
        | done closed =>
          exact ⟨[], line :: held, w, rfl, List.forall_mem_cons.mpr ⟨hline, hheld⟩, hnone, .done closed, hu⟩
        | @step _ _ _ _ first more _ _ _ joined handled rest =>
          refine ⟨line :: (first ++ more), held, v, rfl, hheld, ?_, .step (.part ht hgo joined) handled rest, hu⟩
          have hne : first ++ more ≠ [] := by cases joined <;> simp
          rw [List.getLast?_cons_of_ne_nil hne]
          exact hlast
      · have hcontinuation : (u₁.showing r).continuation = {} := by
          have hkeep := (continuation_of_handleLine hev hhandle).trans hw
          cases r <;> exact hkeep
        have hrest : feedPrinting ev lines ((u₁.showing r).hold {}) = (.ok (), u) := by
          rw [Workspace.hold_eq_self hcontinuation]
          rw [hfeed] at h
          cases r <;> exact h
        obtain ⟨done, held, v, rfl, hheld, hlast, hsteps, hu⟩ := ih hcontinuation hrest
        refine ⟨line :: done, held, v, rfl, hheld, ?_, .step (.last ht hwhole hp) hhandle hsteps, hu⟩
        have hline : goesOn line = false := by
          rw [goesOn, ht]
          exact hwhole
        cases done with
        | nil =>
          rintro _ ⟨⟩
          exact hline
        | cons first more =>
          rw [List.getLast?_cons_of_ne_nil (List.cons_ne_nil first more)]
          exact hlast

end Steps

/-! ## Carried out -/

/-- Physical lines that make the lines between a title and an end. -/
inductive Body : List String → List (String × List Node) → Prop
  | nil : Body [] []
  | cons {lines more : List String} {text : String} {items : List Node} {body : List (String × List Node)}
      (line : Joined {} lines text items) (noTitle : startsWith "TO" items = false)
      (noEnd : startsWith "END" items = false) (rest : Body more body) : Body (lines ++ more) ((text, items) :: body)

/-- Lines that were carried out, all of them, with what that made of the workspace. -/
inductive Carried (ev : Evaluator) : Workspace → List String → Workspace → Prop
  | done {w : Workspace} (closed : w.definition = none) : Carried ev w [] w
  | run {w u w' : Workspace} {lines more : List String} {text : String} {items : List Node} {r : Result}
      (line : Joined {} lines text items) (outside : w.definition = none) (noTitle : startsWith "TO" items = false)
      (ran : runLine ev items w = (.ok r, u)) (rest : Carried ev (u.showing r) more w') : Carried ev w (lines ++ more) w'
  | title {w w' : Workspace} {lines more : List String} {text : String} {items : List Node} {p : Procedure}
      (line : Joined {} lines text items) (outside : w.definition = none) (isTitle : startsWith "TO" items = true)
      (titled : titled items.tail = .ok p) (rest : Carried ev (w.defining p) more w') : Carried ev w (lines ++ more) w'
  /-- The lines of a definition were collected, in order, and its end put the procedure into the workspace. -/
  | define {w w' : Workspace} {lines ends more : List String} {text : String} {items : List Node} {p : Procedure}
      {body : List (String × List Node)} (inside : w.definition = some p) (collected : Body lines body)
      (line : Joined {} ends text items) (isEnd : startsWith "END" items = true)
      (rest : Carried ev (w.commit (body.foldl Procedure.collected p)) more w') : Carried ev w (lines ++ (ends ++ more)) w'

/-- Behind an open definition comes the rest of its body, its end, and what is carried out then. -/
def Carried.Ending (ev : Evaluator) (w : Workspace) (p : Procedure) (all : List String) (w' : Workspace) : Prop :=
  ∃ lines body ends text items more, all = lines ++ (ends ++ more) ∧ Body lines body ∧ Joined {} ends text items ∧
    startsWith "END" items = true ∧ Carried ev (w.commit (body.foldl Procedure.collected p)) more w'

/-- Lines that were handled until no definition was open were carried out. -/
theorem Steps.carried {ev : Evaluator} {w w' : Workspace} {lines : List String} (h : Steps ev {} w lines w') :
    Carried ev w lines w' := by
  -- While a definition is open, the induction hypothesis has to give its end.
  have hall : Carried ev w lines w' ∧ ∀ p, w.definition = some p → Carried.Ending ev w p lines w' := by
    generalize hc : ({} : Continuation) = c at h
    induction h with
    | done closed =>
      refine ⟨.done closed, fun p hp => ?_⟩
      rw [closed] at hp
      cases hp
    | @step _ w u w' lines more text items r line handled rest ih =>
      subst hc
      obtain ⟨hrest, hending⟩ := ih rfl
      rcases handleLine_ok_cases handled with ⟨hd, hto, hrun⟩ | ⟨p, hd, hto, ht, rfl, rfl⟩ | ⟨p, hd, hto, hend, rfl, rfl⟩ |
        ⟨p, hd, hend, rfl, rfl⟩
      · refine ⟨.run line hd hto hrun hrest, fun p hp => ?_⟩
        rw [hd] at hp
        cases hp
      · refine ⟨.title line hd hto ht hrest, fun q hq => ?_⟩
        rw [hd] at hq
        cases hq
      · obtain ⟨lines', body, ends, text', items', more', rfl, hbody, hends, hisEnd, hcarried⟩ := hending _ rfl
        have hbody' := Body.cons line hto hend hbody
        have hsame : (w.defining (p.collected (text, items))).commit
            (body.foldl Procedure.collected (p.collected (text, items))) =
              w.commit (((text, items) :: body).foldl Procedure.collected p) := rfl
        rw [show (w.defining (p.collected (text, items))).showing none = w.defining (p.collected (text, items)) from rfl,
          hsame] at hcarried
        rw [← List.append_assoc]
        refine ⟨.define hd hbody' hends hisEnd hcarried, fun q hq => ?_⟩
        obtain rfl := Option.some.inj (hd.symm.trans hq)
        exact ⟨_, _, _, _, _, _, rfl, hbody', hends, hisEnd, hcarried⟩
      · refine ⟨?_, fun q hq => ?_⟩
        · exact .define hd .nil line hend hrest
        · obtain rfl := Option.some.inj (hd.symm.trans hq)
          exact ⟨[], [], lines, text, items, more, rfl, .nil, line, hend, hrest⟩
  exact hall.1

/-! ## Files -/

/-- A file that was loaded without a failure is text, its lines were all fed, and they left no definition open. -/
theorem feedPrinting_of_loadText {ev : Evaluator} {path : String} {text : FileText} {w w' : Workspace}
    (h : loadText ev path text w = (.ok (), w')) :
    ∃ lines u, text = .lines lines ∧ feedPrinting ev lines (w.hold {}) = (.ok (), u) ∧ u.definition = none ∧
      w' = u.hold w.continuation := by
  obtain ⟨houtcome, hspace, hclosed⟩ := loadText_cases ev path text w
  rw [h] at houtcome hspace hclosed
  have hdefinition : w'.definition = none := hclosed fun c hc => nomatch hc
  rcases hfed : feedText ev path text (w.hold {}) with ⟨e | ⟨⟩, u⟩
  · rw [hfed] at houtcome
    cases houtcome
  · rw [hfed] at houtcome hspace
    have hu : u.definition = none := by
      cases hu : u.definition with
      | none => rfl
      | some p =>
        rw [fileOutcome] at houtcome
        simp only [hu] at houtcome
        cases houtcome
    have hw' : w' = u.hold w.continuation := by
      have hundefining : w'.undefining = w' := by
        cases w'
        cases hdefinition
        rfl
      have hundefining' : (u.hold w.continuation).undefining = u.hold w.continuation := by
        cases u
        cases hu
        rfl
      rw [← hundefining, hspace, hundefining']
    cases text with
    | broken lines =>
      rw [feedText, bind_apply] at hfed
      rcases hlines : feedLines ev path 1 lines (w.hold {}) with ⟨e | ⟨⟩, v⟩
      · rw [hlines] at hfed
        cases hfed
      · rw [hlines] at hfed
        cases hfed
    | lines lines =>
      refine ⟨lines, u, rfl, ?_, hu, hw'⟩
      obtain ⟨hsame, hresult⟩ := feedLines_untraced ev path lines 1 (w.hold {})
      rw [show feedLines ev path 1 lines (w.hold {}) = (.ok (), u) from hfed] at hsame hresult
      rcases hprinting : feedPrinting ev lines (w.hold {}) with ⟨e | ⟨⟩, v⟩
      · rw [hprinting] at hresult
        cases hresult
      · rw [hprinting] at hsame
        rw [show u = v from hsame]

/-- **Loading loses nothing but a last line that goes on.** If a file was loaded without a failure, then all its lines were
carried out, but for those at the end that go on with nothing: each was run, or collected into a procedure that its end put
into the workspace. Nothing is missing iff the last line does not go on. -/
theorem load_carries_out (files : FileStore) (depth : Nat) {name : String} {w w' : Workspace}
    (h : load files (eval files depth) name w = (.ok (), w')) :
    ∃ path lines done held u, files.resolve? name = some path ∧ files.read path = .lines lines ∧ lines = done ++ held ∧
      (∀ line ∈ held, goesOn line = true) ∧ (held = [] ↔ ∀ line ∈ lines.getLast?, goesOn line = false) ∧
      Carried (eval files depth) (w.hold {}) done u ∧ w' = u.hold w.continuation := by
  cases hname : files.resolve? name with
  | none =>
    rw [load_of_missing hname] at h
    cases h
  | some path =>
    rw [load_of_resolve hname] at h
    obtain ⟨lines, u, hread, hfed, hu, rfl⟩ := feedPrinting_of_loadText h
    obtain ⟨done, held, v, rfl, hheld, hlast, hsteps, hv⟩ :=
      feedPrinting_steps (eval_continuation files depth) lines (w := w.hold {}) rfl hfed hu
    refine ⟨path, done ++ held, done, held, v, rfl, hread, rfl, hheld, ?_, hsteps.carried, ?_⟩
    · constructor
      · rintro rfl
        rw [List.append_nil]
        exact hlast
      · intro hnone
        by_contra hne
        have hmem := List.getLast_mem hne
        have hgo := hheld _ hmem
        rw [hnone (held.getLast hne) (by simp [List.getLast?_append, List.getLast?_eq_some_getLast hne])] at hgo
        cases hgo
    · rw [hv]
      rfl

/-- A file that defines a procedure, with a line in two parts in its body, and calls it. -/
theorem load_carries_out_definition :
    let files : FileStore := ⟨[("F", .ofText "TO P\nOP \\\n\"A\nEND\nPRINT P\n")]⟩
    ∃ u, Carried (eval files 8) {} ["TO P\n", "OP \\\n", "\"A\n", "END\n", "PRINT P\n"] u ∧
      (load files (eval files 8) "F" {}).2 = u.hold {} ∧ (load files (eval files 8) "F" {}).2.printed = #["A"] := by
  intro files
  have hok : (load files (eval files 8) "F" {}).1.isOk = true := by decide +kernel
  have hload : load files (eval files 8) "F" {} = (.ok (), (load files (eval files 8) "F" {}).2) := by
    rcases hr : load files (eval files 8) "F" {} with ⟨e | ⟨⟩, w'⟩
    · rw [hr] at hok
      cases hok
    · rfl
  obtain ⟨path, lines, done, held, u, hpath, hlines, hsplit, -, hheld, hcarried, hu⟩ := load_carries_out files 8 hload
  have hname : files.resolve? "F" = some "F" := by decide +kernel
  obtain rfl : "F" = path := Option.some.inj (hname.symm.trans hpath)
  have hread : files.read "F" = .lines ["TO P\n", "OP \\\n", "\"A\n", "END\n", "PRINT P\n"] := by cbv
  obtain rfl := FileText.lines.inj (hread.symm.trans hlines)
  obtain rfl := hheld.mpr (by decide +kernel)
  rw [List.append_nil] at hsplit
  rw [hsplit]
  refine ⟨u, hcarried, hu, ?_⟩
  decide +kernel

/-- A file whose only line has an expression and goes on: it is loaded without a failure, and nothing is printed. -/
theorem load_drops_last :
    let files : FileStore := ⟨[("F", .ofText "PRINT \"A \\\n")]⟩
    ((load files (eval files 8) "F" {}).1 matches .ok ()) = true ∧ (load files (eval files 8) "F" {}).2.printed = #[] ∧
      files.read "F" = .lines ["PRINT \"A \\\n"] ∧
      parseText "PRINT \"A \\\n" = .ok [.call "PRINT", .word "A"] := by
  refine ⟨by decide +kernel, by decide +kernel, by cbv, ?_⟩
  have ht : tokenize "PRINT \"A \\\n" =
      .ok [⟨.name "PRINT", 0⟩, ⟨.blank, 5⟩, ⟨.word "A", 6⟩, ⟨.blank, 8⟩, ⟨.lineCont, 9⟩] := by decide +kernel
  exact parseText_of ht (by cbv)

end TurtleLogo
