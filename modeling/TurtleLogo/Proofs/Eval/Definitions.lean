import TurtleLogo.Proofs.Eval.Continuation
import TurtleLogo.Proofs.Eval.Keeps

/-!
# Definitions

A title opens a definition, every line after it is collected and none is evaluated, and a line that begins with `END`
puts the procedure into the workspace. A line that cannot be used is refused on its own, and leaves the definition as it
was.

* `Named` : every procedure is kept under its own name, which is no built-in one's; `named_stable`;
* `goesOn`, `begins` : whether a line goes on with the next one, and whether it begins with a name;
* `bodyLine` : what a line adds to the definition that it stands in;
* `feedAll` : lines fed one after the other;
* `feed_title`, `feed_bodyLine`, `feed_end` : the three kinds of lines of a definition;
* `feedAll_body` : the lines between the title and the end;
* `definition_machine` : all of it.
-/

namespace TurtleLogo

open Exec Text

/-! ## Names -/

/-- Every procedure is kept under its own name, and neither that nor the name of the open definition is a built-in
one's. -/
structure Named (w : Workspace) : Prop where
  procedures : ∀ entry ∈ w.procedures.entries, entry.2.name = entry.1 ∧ Builtin.isName entry.1 = false
  definition : ∀ p, w.definition = some p → Builtin.isName p.name = false

theorem isName_of_titled {inputs : List Node} {p : Procedure} (h : titled inputs = .ok p) :
    Builtin.isName p.name = false := by
  unfold titled at h
  split at h
  · cases h
  · next name _ =>
    split at h
    · cases h
    · next hname =>
      cases hf : formals _ with
      | error cause => rw [hf] at h; cases h
      | ok inputs =>
        rw [hf] at h
        cases h
        simpa using hname
  · cases h

theorem named_stable : Stable fun w w' => Named w → Named w' where
  refl _ h := h
  trans h h' hw := h' (h hw)
  next _ h := ⟨h.procedures, h.definition⟩
  queue _ h hw := ⟨(h ⟨hw.procedures, hw.definition⟩).procedures, (h ⟨hw.procedures, hw.definition⟩).definition⟩
  frame _ h hw := ⟨(h ⟨hw.procedures, hw.definition⟩).procedures, (h ⟨hw.procedures, hw.definition⟩).definition⟩
  assign w name value h := by
    unfold Workspace.assign
    split
    · split <;> exact ⟨h.procedures, h.definition⟩
    · exact ⟨h.procedures, h.definition⟩
  draw _ _ h := ⟨h.procedures, h.definition⟩
  print _ _ h := ⟨h.procedures, h.definition⟩
  continuation _ _ h := ⟨h.procedures, h.definition⟩
  title ht h := ⟨h.procedures, by rintro _ ⟨⟩; exact isName_of_titled ht⟩
  addLine {w p} items text hp h := ⟨h.procedures, by rintro _ ⟨⟩; exact h.definition p hp⟩
  drop _ h := ⟨h.procedures, nofun⟩
  define {w p} hname h := by
    refine ⟨fun entry he => ?_, h.definition⟩
    rcases Table.mem_entries_insert he with rfl | he
    · exact ⟨rfl, hname⟩
    · exact h.procedures entry he

theorem Reachable.named {depth : Nat} {w : Workspace} (h : Reachable depth w) : Named w := by
  obtain ⟨drawing, hw⟩ := h.keeps named_stable
  exact hw ⟨nofun, nofun⟩

/-! ## Single lines -/

/-- Whether a line goes on with the next one. -/
def goesOn (line : String) : Bool :=
  match tokenize line with
  | .ok tokens => endsInCont tokens
  | .error _ => false

theorem goesOn_of_lineEnd {line : String} {ts : List Token} {col : Nat}
    (h : tokenize line = .ok (ts ++ [⟨.lineEnd, col⟩])) : goesOn line = false := by
  rw [goesOn, h]
  simp only [endsInCont, List.getLast?_concat]
  rfl

/-- A line on its own is handled if it can be read, and does nothing if not. -/
theorem feed_alone (ev : Evaluator) {w : Workspace} {line : String} (hw : w.continuation = {})
    (hline : goesOn line = false) :
    feed ev line w = match parseText line with
      | .ok items => handleLine ev line items w
      | .error e => (.error (e.inLine line false), w) := by
  rw [feed, bind_apply, readLine_alone hw]
  cases ht : tokenize line with
  | error e => rw [parseText, ht]
  | ok tokens =>
    have hwhole : endsInCont tokens = false := by
      rw [goesOn, ht] at hline
      exact hline
    have hparse : parseText line = (parseLine tokens).mapError (·.failure tokens) := by rw [parseText, ht]
    rw [hparse]
    simp only [hwhole, Bool.false_eq_true, if_false]
    cases parseLine tokens <;> rfl

theorem parseText_of {text : String} {tokens : List Token} {items : List Node} (ht : tokenize text = .ok tokens)
    (hp : parseLine tokens = .ok items) : parseText text = .ok items := by
  rw [parseText, ht]
  simp only [hp]
  rfl

/-- Whether a line can be read and begins with a call of `name`. -/
def begins (name line : String) : Bool :=
  match parseText line with
  | .ok items => startsWith name items
  | .error _ => false

theorem parseText_of_begins {name line : String} (h : begins name line = true) :
    ∃ rest, parseText line = .ok (.call name :: rest) := by
  unfold begins at h
  split at h
  · next items hp =>
    unfold startsWith at h
    split at h
    · next n rest =>
      obtain rfl := eq_of_beq h
      exact ⟨rest, hp⟩
    · cases h
  · cases h

/-- What a line adds to the body of the definition that it stands in: its expressions and its text without the white
space around it, unless it cannot be read, holds nothing, or begins like a title. -/
def bodyLine (line : String) : Option (List Node × String) :=
  match parseText line with
  | .ok items => if items.isEmpty || startsWith "TO" items then none else some (items, trim isWhite line)
  | .error _ => none

def Procedure.takeLine (p : Procedure) (line : String) : Procedure :=
  match bodyLine line with
  | some (items, text) => p.addLine items text
  | none => p

def Workspace.defining (w : Workspace) (p : Procedure) : Workspace := { w with definition := some p }

theorem formals_map_var (names : List String) : formals (names.map .var) = .ok names := by
  induction names with
  | nil => rfl
  | cons name names ih => simp only [List.map_cons, formals, ih]; rfl

theorem feed_title (ev : Evaluator) {w : Workspace} {line name : String} {inputs : List String}
    (hd : w.definition = none) (hw : w.continuation = {}) (hline : goesOn line = false)
    (htitle : parseText line = .ok (.call "TO" :: .call name :: inputs.map .var))
    (hname : Builtin.isName name = false) :
    feed ev line w = (.ok none, w.defining { name, formals := inputs }) := by
  have htitled : titled (.call name :: inputs.map .var) = .ok { name, formals := inputs } := by
    rw [titled, hname, formals_map_var]
    rfl
  have hto : startsWith "TO" (.call "TO" :: .call name :: inputs.map .var) = true := rfl
  rw [feed_alone ev hw hline, htitle]
  simp only
  rw [handleLine_of_none ev line _ hd, if_pos hto, bind_apply, List.tail_cons, beginDefinition, htitled]
  rfl

theorem feed_bodyLine (ev : Evaluator) {w : Workspace} {p : Procedure} {line : String} (hw : w.continuation = {})
    (hline : goesOn line = false) (hend : begins "END" line = false) :
    (feed ev line (w.defining p)).2 = w.defining (p.takeLine line) := by
  rw [feed_alone ev (w := w.defining p) hw hline]
  unfold Procedure.takeLine bodyLine
  cases hp : parseText line with
  | error e => rfl
  | ok items =>
    have hitems : startsWith "END" items = false := by
      rw [begins, hp] at hend
      exact hend
    simp only
    rw [handleLine_of_some ev line items rfl, bind_apply, collect, hitems]
    by_cases hto : startsWith "TO" items = true
    · simp [hto, fail, stop]
    · cases items.isEmpty
      · simp [hto, Exec.modify, Workspace.defining]
      · simp [hto]

theorem feed_end (ev : Evaluator) {w : Workspace} {p : Procedure} {line : String} (hd : w.definition = none)
    (hw : w.continuation = {}) (hline : goesOn line = false) (hend : begins "END" line = true)
    (hname : Builtin.isName p.name = false) :
    feed ev line (w.defining p) = (.ok none, { w with procedures := w.procedures.insert p.name p }) := by
  obtain ⟨rest, hrest⟩ := parseText_of_begins hend
  have hdrop : ({ w.defining p with definition := none } : Workspace) = w := by
    cases w
    cases hd
    rfl
  rw [feed_alone ev (w := w.defining p) hw hline, hrest]
  simp only
  have hcollect : collect p line (.call "END" :: rest) (w.defining p) =
      define p { w.defining p with definition := none } := rfl
  rw [handleLine_of_some ev line _ rfl, bind_apply, hcollect, hdrop, define, hname]
  rfl

/-! ## Whole definitions -/

/-- Lines fed one after the other, whatever becomes of each. -/
def feedAll (ev : Evaluator) (lines : List String) (w : Workspace) : Workspace :=
  lines.foldl (fun w line => (feed ev line w).2) w

theorem feedAll_body (ev : Evaluator) {w : Workspace} (hw : w.continuation = {}) (lines : List String)
    (hlines : ∀ line ∈ lines, goesOn line = false ∧ begins "END" line = false) (p : Procedure) :
    feedAll ev lines (w.defining p) = w.defining (lines.foldl Procedure.takeLine p) := by
  induction lines generalizing p with
  | nil => rfl
  | cons line lines ih =>
    obtain ⟨⟨hgo, hend⟩, hrest⟩ := List.forall_mem_cons.mp hlines
    change feedAll ev lines (feed ev line (w.defining p)).2 = _
    rw [feed_bodyLine ev hw hgo hend]
    exact ih hrest (p.takeLine line)

/-- A procedure takes just the lines that add something, in order. -/
theorem foldl_takeLine (lines : List String) (p : Procedure) :
    lines.foldl Procedure.takeLine p =
      { p with body := p.body ++ (lines.filterMap bodyLine).map Prod.fst,
               source := p.source ++ (lines.filterMap bodyLine).map Prod.snd } := by
  induction lines generalizing p with
  | nil => simp
  | cons line lines ih =>
    rw [List.foldl_cons, ih, Procedure.takeLine]
    cases h : bodyLine line with
    | none => simp [h]
    | some entry => simp [h, Procedure.addLine]

/-- A title that is refused changes nothing, the continuation apart. -/
theorem feed_failing_title (ev : Evaluator) {w : Workspace} {line : String} {e : Failure} (hd : w.definition = none)
    (htitle : ∀ text items u, readLine line w = (.ok (text, some items), u) → startsWith "TO" items = true)
    (he : (feed ev line w).1 = .error e) :
    (feed ev line w).2 = { w with definition := none, continuation := {} } := by
  have hspace : w.hold {} = { w with definition := none, continuation := {} } := by
    rw [Workspace.hold, ← hd]
  rw [feed, bind_apply] at he ⊢
  rcases readLine_cases line w with ⟨_, hr⟩ | ⟨_, _, hr⟩ | ⟨text, items, hr⟩
  · rw [hr]
    exact hspace
  · rw [hr] at he
    cases he
  · have hto := htitle text items _ hr
    have hnone : (w.hold {}).definition = none := hd
    rw [hr] at he ⊢
    simp only [handleLine_of_none ev text items hnone, hto, if_true, bind_apply, beginDefinition] at he ⊢
    cases ht : titled items.tail with
    | error cause => exact hspace
    | ok p =>
      rw [ht] at he
      cases he

/-- **The definition state machine.** Whatever lines are fed to a fresh workspace, every procedure is kept under its own
name, and neither that nor the name of the open definition is a built-in one's. A title, lines of which none goes on or
begins with `END`, and a line that begins with `END` change nothing but the procedure of that name: it has the inputs of
the title, and its body are the lines that can be read, hold something and are no titles, with their texts. A title that
is refused opens no definition. -/
theorem definition_machine (depth : Nat) :
    (∀ w, Reachable depth w → Named w) ∧
    (∀ (ev : Evaluator) (w : Workspace) (title last name : String) (lines inputs : List String),
      w.definition = none → w.continuation = {} →
      goesOn title = false → parseText title = .ok (.call "TO" :: .call name :: inputs.map .var) →
      Builtin.isName name = false →
      (∀ line ∈ lines, goesOn line = false ∧ begins "END" line = false) →
      goesOn last = false → begins "END" last = true →
      feedAll ev (title :: lines ++ [last]) w =
        { w with procedures := (w.procedures.insert name
          { name, formals := inputs, body := (lines.filterMap bodyLine).map Prod.fst,
            source := (lines.filterMap bodyLine).map Prod.snd }) }) ∧
    (∀ (ev : Evaluator) (w : Workspace) (line : String) (e : Failure), w.definition = none →
      (∀ text items u, readLine line w = (.ok (text, some items), u) → startsWith "TO" items = true) →
      (feed ev line w).1 = .error e →
      (feed ev line w).2 = { w with definition := none, continuation := {} }) := by
  refine ⟨fun w => Reachable.named, ?_, fun ev w line e => feed_failing_title ev⟩
  intro ev w title last name lines inputs hd hw htitle hparse hname hlines hlast hend
  have hopen : feedAll ev (title :: lines ++ [last]) w =
      (feed ev last (feedAll ev lines (feed ev title w).2)).2 := by
    simp only [feedAll, List.cons_append, List.foldl_cons, List.foldl_append, List.foldl_nil]
  rw [hopen, feed_title ev hd hw htitle hparse hname, feedAll_body ev hw lines hlines, foldl_takeLine,
    feed_end ev hd hw hlast hend hname]
  simp only [List.nil_append]

/-- A definition with a nested title, an empty line and a line that cannot be read inside it, and a title with a
built-in name. -/
theorem definition_machine_bad_lines :
    Named (feed (eval {} 8) "TO SQ :N" {}).2 ∧
    feedAll (eval {} 8) ["TO SQ :N", " OP :N\n", "TO X", "", "FD (", "END"] {} =
      { procedures := ⟨[("SQ", ⟨"SQ", ["N"], [[.call "OP", .var "N"]], ["OP :N"]⟩)]⟩ } ∧
    (feed (eval {} 8) "TO FD" {}).2 = {} := by
  obtain ⟨named, defined, refused⟩ := definition_machine 8
  refine ⟨named _ (.feed {} _ (.fresh {})), ?_, ?_⟩
  · have htitle : parseText "TO SQ :N" = .ok [.call "TO", .call "SQ", .var "N"] := by
      have ht : tokenize "TO SQ :N" = .ok [⟨.name "TO", 0⟩, ⟨.blank, 2⟩, ⟨.name "SQ", 3⟩, ⟨.blank, 5⟩, ⟨.var "N", 6⟩,
        ⟨.lineEnd, 8⟩] := by decide +kernel
      exact parseText_of ht (by cbv)
    have hline : bodyLine " OP :N\n" = some ([.call "OP", .var "N"], "OP :N") := by
      have ht : tokenize " OP :N\n" = .ok [⟨.name "OP", 1⟩, ⟨.blank, 3⟩, ⟨.var "N", 4⟩, ⟨.lineEnd, 6⟩] := by
        decide +kernel
      have hp : parseText " OP :N\n" = .ok [.call "OP", .var "N"] := parseText_of ht (by cbv)
      rw [bodyLine, hp]
      rfl
    have hbad : ∀ line ∈ ["TO X", "", "FD ("], bodyLine line = none := by
      have h : ∀ line ∈ ["TO X", "", "FD ("], (bodyLine line).isNone = true := by decide +kernel
      exact fun line hl => Option.isNone_iff_eq_none.mp (h line hl)
    have hbody : [" OP :N\n", "TO X", "", "FD ("].filterMap bodyLine = [([.call "OP", .var "N"], "OP :N")] := by
      rw [List.filterMap_cons_some hline, List.filterMap_eq_nil_iff.mpr hbad]
    have hlines : ∀ line ∈ [" OP :N\n", "TO X", "", "FD ("], goesOn line = false ∧ begins "END" line = false := by
      decide +kernel
    have h := defined (eval {} 8) {} "TO SQ :N" "END" "SQ" [" OP :N\n", "TO X", "", "FD ("] ["N"] rfl rfl
      (by decide +kernel) htitle (by decide) hlines (by decide +kernel) (by decide +kernel)
    rw [hbody] at h
    exact h
  · have ht : tokenize "TO FD" = .ok [⟨.name "TO", 0⟩, ⟨.blank, 2⟩, ⟨.name "FD", 3⟩, ⟨.lineEnd, 5⟩] := by
      decide +kernel
    have hp : parseLine [⟨.name "TO", 0⟩, ⟨.blank, 2⟩, ⟨.name "FD", 3⟩, ⟨.lineEnd, 5⟩] =
      .ok [.call "TO", .call "FD"] := by cbv
    have hread : readLine "TO FD" {} = (.ok ("TO FD", some [.call "TO", .call "FD"]), {}) := by
      rw [readLine_whole ht rfl]
      simp only [List.nil_append, hp]
      rfl
    refine refused (eval {} 8) {} "TO FD" (.fault (.running (.nameInUse "FD"))) rfl (fun text items u h => ?_) ?_
    · rw [hread] at h
      cases h
      rfl
    · rw [feed, bind_apply, hread]
      rfl

end TurtleLogo
