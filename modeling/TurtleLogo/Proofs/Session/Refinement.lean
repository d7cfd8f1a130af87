import TurtleLogo.Session
import TurtleLogo.Proofs.Eval.WriteOnly

/-!
# What a session adds to feeding

A session leaves the workspace that feeding its lines leaves. To that it adds a list of results and a transcript, in which
every line has written what it printed, then its value, and if it failed one report that names this line alone.

* `Session.Settled` : no line is registered and nothing waits to be written;
* `Session.Took` : all that one line does to a session, `Session.add_took`;
* `Session.addInTurn`, `written` : lines added one after the other, and what they write;
* `Session.Reached` : all that many lines do, `Session.addInTurn_reached`;
* `Traceback.handleAll_crash` : one of many handlers reports a crash;
* `session_refines_feeding` : the whole of it.
-/

namespace TurtleLogo

open Exec Text

/-! ## Handlers -/

def Failure.reportedFault : Failure → Fault
  | .fault f => f
  | .crash .stackOverflow => .unplaced .tooDeep false
  | .crash c => .unplaced (.internal c.kind c.description) true

theorem reportedFault_crash {c : Crash} (hc : c ≠ .stackOverflow) :
    (Failure.crash c).reportedFault = .unplaced (.internal c.kind c.description) true := by
  cases c with
  | stackOverflow => exact absurd rfl hc
  | _ => rfl

theorem reported?_trouble (e : Failure) : e.trouble.reported? = some e.reportedFault := by
  cases e with
  | fault f => rfl
  | crash c => cases c <;> rfl

/-- A crash that has been reported passes any number of handlers unseen. -/
theorem Traceback.handleAll_reported (t : Traceback) (depth : Nat) {c : Crash} (hc : c ≠ .stackOverflow) :
    t.handleAll depth (.crash c true) = ("", t, some (.crash c true)) := by
  induction depth with
  | zero => rfl
  | succ depth ih =>
    have hstep : t.handle (.crash c true) = ("", t, some (.crash c true)) := by
      cases c with
      | stackOverflow => exact absurd rfl hc
      | _ => rfl
    rw [Traceback.handleAll, hstep]
    simp only [ih, String.append_empty]

/-- The innermost handler reports a crash as internal, and those around it say nothing more. -/
theorem Traceback.handleAll_crash (t : Traceback) (depth : Nat) {c : Crash} (hc : c ≠ .stackOverflow) :
    t.handleAll (depth + 1) (.crash c false) =
      (t.report (.unplaced (.internal c.kind c.description) true), t.forget, some (.crash c true)) := by
  have hstep : t.handle (.crash c false) =
      (t.report (.unplaced (.internal c.kind c.description) true), t.forget, some (.crash c true)) := by
    cases c with
    | stackOverflow => exact absurd rfl hc
    | _ => rfl
  rw [Traceback.handleAll, hstep]
  simp only [Traceback.handleAll_reported _ depth hc, String.append_empty]

/-! ## Tracebacks -/

theorem isEmpty_of_length_pos {text : String} (h : 0 < text.length) : text.isEmpty = false := by
  rw [Bool.eq_false_iff, ne_eq, String.isEmpty_iff]
  rintro rfl
  exact Nat.lt_irrefl 0 h

/-- No line is registered. -/
def Traceback.Blank (t : Traceback) : Prop := ∀ entry ∈ t.entries, entry.2 = none

namespace Traceback

theorem Blank.removeLine {t : Traceback} (h : t.Blank) (path text : String) (line : Int) :
    ((t.registerLine path text line).removeLine path).Blank := by
  obtain ⟨entries⟩ := t
  intro entry hentry
  have hmem : entry ∈ Table.insertEntry path none (Table.insertEntry path (some (text, line)) entries) := hentry
  clear hentry
  induction entries with
  | nil =>
    simp only [Table.insertEntry, if_true, List.mem_singleton] at hmem
    rw [hmem]
  | cons first rest ih =>
    obtain ⟨name, value⟩ := first
    have hrest : Blank ⟨rest⟩ := fun e he => h e (List.mem_cons_of_mem _ he)
    by_cases hname : path = name
    · simp only [Table.insertEntry, hname, if_true, List.mem_cons] at hmem
      rcases hmem with rfl | hmem
      · rfl
      · exact hrest entry hmem
    · simp only [Table.insertEntry, hname, if_false, List.mem_cons] at hmem
      rcases hmem with rfl | hmem
      · exact h _ List.mem_cons_self
      · exact ih hrest hmem

theorem blank_forget (t : Traceback) : t.forget.Blank := by
  intro entry hentry
  obtain ⟨old, -, rfl⟩ := List.mem_map.mp hentry
  rfl

theorem Blank.current {t : Traceback} (h : t.Blank) : t.current = [] := by
  refine List.filterMap_eq_nil_iff.mpr ?_
  rintro ⟨path, value⟩ hentry
  have hvalue : value = none := h _ hentry
  simp only [hvalue]

/-- Of the sources without a line nothing is said. -/
theorem Blank.current_registerLine {t : Traceback} (h : t.Blank) (path text : String) (line : Int) :
    (t.registerLine path text line).current = Traceback.current ⟨[(path, some (text, line))]⟩ := by
  obtain ⟨entries⟩ := t
  change List.filterMap _ (Table.insertEntry path (some (text, line)) entries) = _
  induction entries with
  | nil => rfl
  | cons first rest ih =>
    obtain ⟨name, value⟩ := first
    have hvalue : value = none := h _ List.mem_cons_self
    have hrest : Blank ⟨rest⟩ := fun e he => h e (List.mem_cons_of_mem _ he)
    subst hvalue
    by_cases hname : path = name
    · have hnil : Traceback.current ⟨rest⟩ = [] := hrest.current
      simp only [Traceback.current] at hnil
      simp only [Table.insertEntry, hname, if_true, List.filterMap_cons, hnil, Traceback.current, List.filterMap_nil]
    · simp only [Table.insertEntry, hname, if_false, List.filterMap_cons]
      exact ih hrest

theorem report_congr {t u : Traceback} (h : t.current = u.current) (f : Fault) : t.report f = u.report f := by
  unfold Traceback.report Traceback.frames
  rw [h]

theorem report_ne_empty (t : Traceback) (f : Fault) : (t.report f).isEmpty = false := by
  refine isEmpty_of_length_pos ?_
  simp only [Traceback.report, String.length_append, Text.bright]
  have herror : "error: ".length = 7 := rfl
  omega

end Traceback

/-! ## One line -/

def Fed.value? (r : Fed) : Option Node :=
  match r.outcome with
  | .ok v => v
  | .error _ => none

/-- What a session answers to a line: a fault is over once it is reported, and so is a stack that overflows, but any other
crash goes on. -/
def Fed.answer (r : Fed) : Except Crash Result :=
  match r.outcome with
  | .ok v => .ok v
  | .error (.fault _) | .error (.crash .stackOverflow) => .ok none
  | .error (.crash c) => .error c

theorem Fed.answer_eq_error {r : Fed} {c : Crash} :
    r.answer = .error c ↔ r.outcome = .error (.crash c) ∧ c ≠ .stackOverflow := by
  obtain ⟨outcome, printed⟩ := r
  rcases outcome with (f | d) | v
  · simp [Fed.answer]
  · cases d <;> simp [Fed.answer] <;> rintro rfl <;> simp
  · simp [Fed.answer]

def printing : List String → List (Channel × String)
  | [] => []
  | line :: lines => [(.program, String.join ((line :: lines).map (· ++ "\n")))]

/-- What a line writes as the program: the lines that it printed and, right behind them, its value. -/
def Fed.output (r : Fed) : List (Channel × String) :=
  printing (r.printed ++ r.value?.toList.map Node.display)

theorem Fed.output_of_error {r : Fed} {e : Failure} (h : r.outcome = .error e) : r.output = printing r.printed := by
  simp only [Fed.output, Fed.value?, h, Option.toList_none, List.map_nil, List.append_nil]

/-- What is reported of a line: nothing, or its failure in one report that names no other line. -/
def Fed.reports (path : String) (number : Int) (line : String) (r : Fed) : List (Channel × String) :=
  match r.outcome with
  | .ok _ => []
  | .error e =>
    [(.report, Traceback.report ⟨[(path, some (trimRight isNewline line, number))]⟩ e.reportedFault)]

namespace Session

/-- No line is registered, and all that was printed has been written. -/
structure Settled (s : Session) : Prop where
  traceback : s.traceback.Blank
  printed : s.workspace.printed = #[]

theorem new_settled (path : String) : (Session.new path).Settled where
  traceback := by
    intro entry hentry
    rw [List.mem_singleton.mp hentry]
  printed := rfl

/-- All that a line does to a session, where `r` is what feeding the line gives and `w` the workspace it leaves. -/
structure Took (s : Session) (line : String) (number : Int) (r : Fed) (w : Workspace) (s' : Session) : Prop where
  path : s'.path = s.path
  lineNumber : s'.lineNumber = number
  workspace : s'.workspace = { w with printed := #[] }
  results : s'.results = s.results ++ r.value?.toList
  transcript : s'.transcript.toList = s.transcript.toList ++ (r.output ++ r.reports s.path number line)
  blank : s'.traceback.Blank

theorem transcript_write (s : Session) (channel : Channel) {text : String} (h : text.isEmpty = false) :
    (s.write channel text).transcript.toList = s.transcript.toList ++ [(channel, text)] := by
  rw [write, if_neg (by simp [h])]
  simp

theorem write_eq (s : Session) (channel : Channel) (text : String) :
    s.write channel text = { s with transcript := (s.write channel text).transcript } := by
  unfold write
  split <;> rfl

theorem transcript_flush (s : Session) {lines : List String} (h : s.workspace.printed.toList = lines) :
    s.flush.transcript.toList = s.transcript.toList ++ printing lines := by
  have htext : s.workspace.printedText = String.join (lines.map (· ++ "\n")) := by
    rw [Workspace.printedText, h]
  cases lines with
  | nil =>
    rw [flush, htext]
    simp [write, printing]
  | cons first rest =>
    have hne : s.workspace.printedText.isEmpty = false := by
      refine isEmpty_of_length_pos ?_
      rw [htext, List.map_cons, String.join_cons, String.length_append, String.length_append]
      have hend : "\n".length = 1 := rfl
      omega
    rw [flush, transcript_write _ _ hne, htext, printing]

theorem flush_eq (s : Session) :
    s.flush = { s with workspace := { s.workspace with printed := #[] }, transcript := s.flush.transcript } := by
  unfold flush
  rw [write_eq]

theorem handle_trouble (s : Session) (e : Failure) :
    (s.handle e.trouble).1 =
        (match e with
        | .fault _ | .crash .stackOverflow => .ok ()
        | .crash c => .error c) ∧
      (s.handle e.trouble).2 =
        ({ s with traceback := s.traceback.forget } : Session).write .report (s.traceback.report e.reportedFault) := by
  unfold handle Traceback.handle
  rw [reported?_trouble]
  cases e with
  | fault f => simp only [Failure.trouble, Trouble.remaining?, and_self]
  | crash c => cases c <;> simp only [Failure.trouble, Trouble.remaining?, and_self]

theorem feedLine_eq_feed (files : FileStore) (line : String) :
    feedLine files line = feed (eval files depthLimit) line := by
  rw [feedLine, evaluator]

/-- Once the output of a line that did not fail is written, the session has taken the line. -/
theorem flush_took {s t : Session} {line : String} {n : Int} {r : Fed} {w : Workspace} (hpath : t.path = s.path)
    (hnumber : t.lineNumber = n) (hspace : { t.workspace with printed := #[] } = { w with printed := #[] })
    (hresults : t.results = s.results ++ r.value?.toList) (htranscript : t.transcript = s.transcript)
    (hprinted : t.workspace.printed.toList = r.printed ++ r.value?.toList.map Node.display)
    (hreports : r.reports s.path n line = []) (hblank : t.traceback.Blank) : s.Took line n r w t.flush := by
  refine ⟨?_, ?_, ?_, ?_, ?_, ?_⟩
  · rw [flush_eq]
    exact hpath
  · rw [flush_eq]
    exact hnumber
  · rw [flush_eq]
    exact hspace
  · rw [flush_eq]
    exact hresults
  · rw [transcript_flush t hprinted, htranscript, hreports, List.append_nil, Fed.output]
  · rw [flush_eq]
    exact hblank

/-- The value of a line is printed behind what the line printed itself. -/
theorem finish_ok {s : Session} (hs : s.Settled) (line : String) (number : Option Int) (v : Result)
    {printed : List String} {w : Workspace} (hprinted : w.printed.toList = printed) :
    ((s.begin line number).finish (.ok v, w)).1 = .ok v ∧
      s.Took line (number.getD (s.lineNumber + 1)) ⟨.ok v, printed⟩ w ((s.begin line number).finish (.ok v, w)).2 := by
  have hblank : ((s.begin line number).traceback.removeLine s.path).Blank := hs.traceback.removeLine s.path _ _
  cases v with
  | none =>
    refine ⟨rfl, flush_took rfl rfl rfl (List.append_nil _).symm rfl ?_ rfl hblank⟩
    exact hprinted.trans (List.append_nil _).symm
  | some v =>
    refine ⟨rfl, flush_took rfl rfl rfl rfl rfl ?_ rfl hblank⟩
    change (w.print v.display).printed.toList = printed ++ [v.display]
    rw [Workspace.print, Array.toList_push, hprinted]

/-- What a line printed before it failed comes first. The report then names the line that is registered, and after it every
line is forgotten. -/
theorem finish_error {s : Session} (hs : s.Settled) (line : String) (number : Option Int) (e : Failure)
    {printed : List String} {w : Workspace} (hprinted : w.printed.toList = printed) :
    ((s.begin line number).finish (.error e, w)).1 = (⟨.error e, printed⟩ : Fed).answer ∧
      s.Took line (number.getD (s.lineNumber + 1)) ⟨.error e, printed⟩ w
        ((s.begin line number).finish (.error e, w)).2 := by
  generalize hflushed : ({ s.begin line number with workspace := w } : Session).flush = flushed
  have hwritten := transcript_flush ({ s.begin line number with workspace := w } : Session) hprinted
  have hflush := flush_eq ({ s.begin line number with workspace := w } : Session)
  rw [hflushed] at hwritten hflush
  obtain ⟨hanswer, hspace⟩ := handle_trouble flushed e
  have hfinish : (s.begin line number).finish (.error e, w) =
      ((⟨.error e, printed⟩ : Fed).answer, (flushed.handle e.trouble).2) := by
    rw [finish, hflushed, Fed.answer]
    generalize flushed.handle e.trouble = handled at hanswer
    obtain ⟨answer, s'⟩ := handled
    simp only at hanswer
    subst hanswer
    cases e with
    | fault f => rfl
    | crash c => cases c <;> rfl
  have hreport : flushed.traceback.report e.reportedFault =
      Traceback.report ⟨[(s.path, some (trimRight isNewline line, number.getD (s.lineNumber + 1)))]⟩ e.reportedFault := by
    rw [hflush]
    exact Traceback.report_congr (hs.traceback.current_registerLine s.path _ _) _
  rw [hfinish, hspace, hreport]
  refine ⟨rfl, ?_, ?_, ?_, ?_, ?_, ?_⟩
  · rw [write_eq, hflush]
    rfl
  · rw [write_eq, hflush]
    rfl
  · rw [write_eq, hflush]
  · rw [write_eq, hflush]
    exact (List.append_nil _).symm
  · rw [transcript_write _ _ (Traceback.report_ne_empty _ _), hwritten, List.append_assoc, Fed.output_of_error rfl]
    rfl
  · rw [write_eq]
    exact Traceback.blank_forget _

/-- **One line.** The answer to it is its outcome without what was reported. -/
theorem add_took {s : Session} (hs : s.Settled) (files : FileStore) (line : String) (number : Option Int) :
    (s.add files line number).1 = (fed depthLimit (files, line) s.workspace).answer ∧
      s.Took line (number.getD (s.lineNumber + 1)) (fed depthLimit (files, line) s.workspace)
        (feed (eval files depthLimit) line s.workspace).2 (s.add files line number).2 := by
  have hprinted := printed_feed depthLimit (files, line) s.workspace
  rw [hs.printed] at hprinted
  have hadd : s.add files line number =
      (s.begin line number).finish ((fed depthLimit (files, line) s.workspace).outcome,
        (feed (eval files depthLimit) line s.workspace).2) := by
    have hspace : (s.begin line number).workspace = s.workspace := rfl
    rw [add, hspace, feedLine_eq_feed, fed]
  rw [hadd]
  generalize fed depthLimit (files, line) s.workspace = r at hprinted ⊢
  obtain ⟨e | v, printed⟩ := r
  · exact finish_error hs line number e hprinted
  · exact finish_ok hs line number v hprinted

end Session

/-! ## Line after line -/

/-- A line for a session, with the files that there are then, and with its number if that is not the next one. -/
structure Added where
  files : FileStore
  line : String
  number : Option Int := none

def Added.input (a : Added) : FileStore × String := (a.files, a.line)

def Session.addInTurn (adds : List Added) (s : Session) : Session :=
  adds.foldl (fun s a => (s.add a.files a.line a.number).2) s

/-- What lines write, by what became of each, where the line before them has the number `n`. -/
def written (path : String) : (n : Int) → List Added → List Fed → List (Channel × String)
  | n, a :: adds, r :: log =>
    let number := a.number.getD (n + 1)
    r.output ++ r.reports path number a.line ++ written path number adds log
  | _, _, _ => []

/-- What becomes of lines when they are fed to the workspace of a session. -/
def Session.log (s : Session) (adds : List Added) : List Fed :=
  feedLog depthLimit (adds.map Added.input) s.workspace

/-- All that lines do to a session that they have brought from `s` to `s'`. -/
structure Session.Reached (s : Session) (adds : List Added) (s' : Session) : Prop where
  path : s'.path = s.path
  workspace : s'.workspace =
    { feedInTurn depthLimit (adds.map Added.input) s.workspace with printed := #[] }
  results : s'.results = s.results ++ (s.log adds).filterMap Fed.value?
  transcript : s'.transcript.toList = s.transcript.toList ++ written s.path s.lineNumber adds (s.log adds)
  settled : s'.Settled

/-- Workspaces that differ only in what was printed are equal once it is gone. -/
theorem Workspace.AlikeBut.unprinted {w v : Workspace} (h : w.AlikeBut (· = ·) v) :
    { v with printed := #[] } = { w with printed := #[] } := by
  have hdrawing : w.drawing = v.drawing := h.drawing
  rw [h.globals, h.frames, h.pending, h.procedures, h.definition, h.continuation, hdrawing]

namespace Session

section Lines

variable {s s' : Session}

theorem Took.settled {line : String} {n : Int} {r : Fed} {w : Workspace} (h : s.Took line n r w s') : s'.Settled where
  traceback := h.blank
  printed := by rw [h.workspace]

/-- Nothing that comes later depends on what was printed before. -/
theorem Took.alikeBut {line : String} {n : Int} {r : Fed} {w : Workspace} (h : s.Took line n r w s') :
    w.AlikeBut (· = ·) s'.workspace := by
  rw [h.workspace]
  exact ⟨rfl, rfl, rfl, rfl, rfl, rfl, rfl⟩

theorem Took.log_eq {a : Added} {n : Int} {r : Fed}
    (h : s.Took a.line n r (feed (eval a.files depthLimit) a.line s.workspace).2 s') (adds : List Added) :
    s.log (a :: adds) = fed depthLimit a.input s.workspace :: s'.log adds := by
  rw [log, log, (feedLog_alikeBut Drawing.eq_steady depthLimit _ h.alikeBut).1, List.map_cons, feedLog]
  rfl

/-- **Many lines.** -/
theorem addInTurn_reached (hs : s.Settled) (adds : List Added) : s.Reached adds (s.addInTurn adds) := by
  induction adds generalizing s with
  | nil =>
    refine ⟨rfl, ?_, (List.append_nil _).symm, (List.append_nil _).symm, hs⟩
    exact congrArg (fun printed => { s.workspace with printed }) hs.printed
  | cons a adds ih =>
    obtain ⟨-, htook⟩ := add_took hs a.files a.line a.number
    have hrest := ih htook.settled
    have hlog := htook.log_eq adds
    have hlast := (feedLog_alikeBut Drawing.eq_steady depthLimit (adds.map Added.input) htook.alikeBut).2
    refine ⟨hrest.path.trans htook.path, ?_, ?_, ?_, hrest.settled⟩
    · exact hrest.workspace.trans hlast.unprinted
    · rw [hlog, List.filterMap_cons]
      refine hrest.results.trans ?_
      rw [htook.results, List.append_assoc]
      change s.results ++ ((fed depthLimit a.input s.workspace).value?.toList ++ _) = _
      cases (fed depthLimit a.input s.workspace).value? <;> rfl
    · rw [hlog, written]
      refine hrest.transcript.trans ?_
      rw [htook.transcript, htook.path, htook.lineNumber, List.append_assoc]
      rfl

theorem log_append (hs : s.Settled) (before after : List Added) :
    s.log (before ++ after) = s.log before ++ (s.addInTurn before).log after := by
  induction before generalizing s with
  | nil => rfl
  | cons a before ih =>
    obtain ⟨-, htook⟩ := add_took hs a.files a.line a.number
    rw [List.cons_append, htook.log_eq, htook.log_eq, ih htook.settled]
    rfl

theorem addInTurn_append (before after : List Added) :
    s.addInTurn (before ++ after) = (s.addInTurn before).addInTurn after :=
  List.foldl_append

end Lines

end Session

/-! ## Crashes -/

/-- No line crashes, other than by a stack that overflows. -/
def Calm (log : List Fed) : Prop := ∀ r ∈ log, ∃ v, r.answer = .ok v

/-- The last line crashes, and none before it does. -/
def Crashes (c : Crash) (log : List Fed) : Prop :=
  ∃ before last, log = before ++ [last] ∧ Calm before ∧ last.answer = .error c

theorem Calm.cons {r : Fed} {log : List Fed} {v : Result} (hr : r.answer = .ok v) (h : Calm log) : Calm (r :: log) := by
  intro r' hr'
  rcases List.mem_cons.mp hr' with rfl | hr'
  · exact ⟨v, hr⟩
  · exact h r' hr'

theorem Calm.append_crashes {before log : List Fed} {c : Crash} (hbefore : Calm before) (h : Crashes c log) :
    Crashes c (before ++ log) := by
  obtain ⟨more, last, rfl, hmore, hlast⟩ := h
  refine ⟨before ++ more, last, (List.append_assoc _ _ _).symm, ?_, hlast⟩
  intro r hr
  exact (List.mem_append.mp hr).elim (hbefore r) (hmore r)

namespace Session

section Running

variable {s s' : Session} {c : Crash}

def withFiles (files : FileStore) (lines : List (String × Option Int)) : List Added :=
  lines.map fun (line, number) => ⟨files, line, number⟩

/-- Lines are added up to the first that crashes. -/
theorem addAll_cases (hs : s.Settled) (files : FileStore) (lines : List (String × Option Int)) :
    (s.addAll files lines = (.ok (), s.addInTurn (withFiles files lines)) ∧ Calm (s.log (withFiles files lines))) ∨
      ∃ c adds, adds <+: withFiles files lines ∧ s.addAll files lines = (.error c, s.addInTurn adds) ∧
        Crashes c (s.log adds) := by
  induction lines generalizing s with
  | nil => exact .inl ⟨rfl, fun r hr => absurd hr (List.not_mem_nil)⟩
  | cons entry lines ih =>
    obtain ⟨line, number⟩ := entry
    obtain ⟨hanswer, htook⟩ := add_took hs files line number
    have hlog (adds : List Added) := Took.log_eq (a := ⟨files, line, number⟩) htook adds
    have hpair : s.add files line number =
        ((fed depthLimit (files, line) s.workspace).answer, (s.add files line number).2) := Prod.ext hanswer rfl
    rw [addAll, hpair]
    cases hcase : (fed depthLimit (files, line) s.workspace).answer with
    | ok v =>
      rcases ih htook.settled with ⟨hrun, hcalm⟩ | ⟨c, adds, hprefix, hrun, before, last, hsplit, hcalm, hlast⟩
      · refine .inl ⟨hrun, ?_⟩
        change Calm (s.log (⟨files, line, number⟩ :: withFiles files lines))
        rw [hlog]
        exact hcalm.cons hcase
      · refine .inr ⟨c, ⟨files, line, number⟩ :: adds, ?_, hrun, ?_⟩
        · exact (List.prefix_cons_inj _).mpr hprefix
        · rw [hlog, hsplit]
          exact ⟨_ :: before, last, rfl, hcalm.cons hcase, hlast⟩
    | error c =>
      refine .inr ⟨c, [⟨files, line, number⟩], ?_, rfl, ?_⟩
      · exact (List.prefix_cons_inj _).mpr List.nil_prefix
      · rw [hlog]
        exact ⟨[], _, rfl, fun r hr => absurd hr (List.not_mem_nil), hcase⟩

/-- The lines that a run feeds: commands, and then those of the session's own file. -/
def planned (files : FileStore) (s : Session) (commands : List String) : List Added :=
  withFiles files (commands.map (·, none)) ++
    if s.path = typedSource then []
    else
      match s.ownLines files with
      | .ok lines => withFiles files (numbered lines)
      | .error _ => []

def crashReport (c : Crash) : Channel × String :=
  (.report, Traceback.report {} (.unplaced (.internal c.kind c.description) true))

theorem ownLines_error {files : FileStore} {trouble : Trouble} (h : s.ownLines files = .error trouble) :
    trouble = .crash .nullInPath false ∨ ∃ f, trouble = .fault f := by
  unfold ownLines at h
  split at h
  · cases h
    exact .inl rfl
  · split at h
    · cases h
    · cases h
      exact .inr ⟨_, rfl⟩

/-- A session's own file crashes at one of its lines, or because its path cannot be asked for. -/
theorem addFile_crash (hs : s.Settled) {files : FileStore} (h : s.addFile files = (.error c, s')) :
    (∃ lines adds, s.ownLines files = .ok lines ∧ adds <+: withFiles files (numbered lines) ∧
      Crashes c (s.log adds) ∧ s' = s.addInTurn adds) ∨
    (c ≠ .stackOverflow ∧ (∃ trouble, s.ownLines files = .error trouble) ∧ s'.Settled ∧
      s'.transcript.toList = s.transcript.toList ++ [crashReport c]) := by
  cases hown : s.ownLines files with
  | ok lines =>
    simp only [addFile, hown] at h
    rcases addAll_cases hs files (numbered lines) with ⟨hrun, -⟩ | ⟨d, adds, hprefix, hrun, hadds⟩
    · rw [hrun] at h
      cases h
    · rw [hrun] at h
      cases h
      exact .inl ⟨lines, adds, rfl, hprefix, hadds, rfl⟩
  | error trouble =>
    simp only [addFile, hown] at h
    obtain rfl | ⟨f, rfl⟩ := ownLines_error hown
    · have htrouble := handle_trouble s (.crash .nullInPath)
      simp only [Failure.trouble] at htrouble
      obtain ⟨hanswer, hspace⟩ := htrouble
      obtain ⟨hc, hs'⟩ := Prod.ext_iff.mp h
      dsimp only at hc hs'
      subst hs'
      cases hanswer.symm.trans hc
      have hreport : s.traceback.report (Failure.crash .nullInPath).reportedFault = (crashReport .nullInPath).2 :=
        Traceback.report_congr hs.traceback.current _
      have hspace : (s.handle (.crash .nullInPath false)).2 =
          ({ s with traceback := s.traceback.forget } : Session).write .report (crashReport .nullInPath).2 := by
        rw [← hreport]
        exact hspace
      rw [hspace]
      refine .inr ⟨by simp, ⟨_, rfl⟩, ⟨?_, ?_⟩, ?_⟩
      · rw [write_eq]
        exact Traceback.blank_forget _
      · rw [write_eq]
        exact hs.printed
      · exact transcript_write _ _ (Traceback.report_ne_empty _ _)
    · obtain ⟨hanswer, -⟩ := handle_trouble s (.fault f)
      have hok : (s.handle (.fault f)).1 = .ok () := hanswer
      rw [h] at hok
      cases hok

/-- **A run that crashes** ends at the line that does, or at its own file if the path of that cannot be asked for. -/
theorem run_crash (hs : s.Settled) {files : FileStore} {commands : List String}
    (h : s.run files commands = (.error c, s')) :
    c ≠ .stackOverflow ∧ s'.Settled ∧ ∃ adds, adds <+: s.planned files commands ∧
      ((Crashes c (s.log adds) ∧ s' = s.addInTurn adds) ∨
        (Calm (s.log adds) ∧ s'.transcript.toList = (s.addInTurn adds).transcript.toList ++ [crashReport c])) := by
  have hcrash {adds : List Added} (hadds : Crashes c (s.log adds)) : c ≠ .stackOverflow := by
    obtain ⟨before, last, -, -, hlast⟩ := hadds
    exact (Fed.answer_eq_error.mp hlast).2
  have hfirst := addAll_cases hs files (commands.map (·, none))
  generalize hcommands : withFiles files (commands.map (·, none)) = asked at hfirst
  rcases hfirst with ⟨hrun, hcalm⟩ | ⟨d, adds, hprefix, hrun, hadds⟩
  · have hpath : (s.addInTurn asked).path = s.path := (addInTurn_reached hs asked).path
    have hown : (s.addInTurn asked).ownLines files = s.ownLines files := by
      unfold ownLines
      rw [hpath]
    rw [run, hrun] at h
    simp only [hpath] at h
    split at h
    · cases h
    · rename_i htyped
      have hfile : (s.addInTurn asked).addFile files = (.error c, s') := by
        split at h
        · rename_i d t hfile
          cases h
          exact hfile
        · cases h
      have hsettled := (addInTurn_reached hs asked).settled
      rcases addFile_crash hsettled hfile with
        ⟨lines, adds, hlines, hprefix, hadds, rfl⟩ | ⟨hc, ⟨trouble, htrouble⟩, hsettled', htranscript⟩
      · have hall : Crashes c (s.log (asked ++ adds)) := by
          rw [log_append hs]
          exact hcalm.append_crashes hadds
        rw [← addInTurn_append]
        refine ⟨hcrash hall, (addInTurn_reached hs _).settled, asked ++ adds, ?_, .inl ⟨hall, rfl⟩⟩
        rw [planned, hcommands, if_neg htyped, ← hown, hlines]
        exact (List.prefix_append_right_inj asked).mpr hprefix
      · refine ⟨hc, hsettled', asked, ?_, .inr ⟨hcalm, htranscript⟩⟩
        rw [planned, hcommands]
        exact List.prefix_append _ _
  · rw [run, hrun] at h
    obtain ⟨hd, rfl⟩ := Prod.mk.inj h
    injection hd with hd
    subst hd
    refine ⟨hcrash hadds, (addInTurn_reached hs adds).settled, adds, ?_, .inl ⟨hadds, rfl⟩⟩
    rw [planned, hcommands]
    exact hprefix.trans (List.prefix_append _ _)

end Running

end Session

/-- **A session refines feeding.** Add lines to a settled session, such as a new one.

The workspace is then the one that feeding the lines leaves, whatever became of each, but for the text that was printed.
The results are the values that lines produced, in order. Each line has written what it printed and then its value; a line
that failed has no value, and one report. No line is registered.

If the next line crashes, and not by a stack that overflows, the session reports it once, as internal, and passes the crash
on. So does a run of the session, of commands and a file: no line before the crash has crashed, and none comes after.
Whatever number of handlers such a crash passes, the innermost reports it and the others say nothing. -/
theorem session_refines_feeding {s : Session} (hs : s.Settled) (adds : List Added) :
    s.Reached adds (s.addInTurn adds) ∧
    (∀ files line number,
      ((s.addInTurn adds).add files line number).1 = (fed depthLimit (files, line) (s.addInTurn adds).workspace).answer) ∧
    (∀ files line number c,
      (feedLine files line (s.addInTurn adds).workspace).1 = .error (.crash c) → c ≠ .stackOverflow →
        ((s.addInTurn adds).add files line number).1 = .error c ∧
        ((s.addInTurn adds).add files line number).2.transcript.toList = (s.addInTurn adds).transcript.toList ++
          (printing (fed depthLimit (files, line) (s.addInTurn adds).workspace).printed ++
            [(.report,
              Traceback.report
                ⟨[(s.path, some (trimRight isNewline line, number.getD ((s.addInTurn adds).lineNumber + 1)))]⟩
                (.unplaced (.internal c.kind c.description) true))])) ∧
    (∀ files commands c s', (s.addInTurn adds).run files commands = (.error c, s') →
      c ≠ .stackOverflow ∧ s'.Settled ∧ ∃ more, more <+: (s.addInTurn adds).planned files commands ∧
        ((Crashes c ((s.addInTurn adds).log more) ∧ s' = (s.addInTurn adds).addInTurn more) ∨
          (Calm ((s.addInTurn adds).log more) ∧
            s'.transcript.toList =
              ((s.addInTurn adds).addInTurn more).transcript.toList ++ [Session.crashReport c]))) ∧
    ∀ (t : Traceback) c, c ≠ .stackOverflow → ∀ depth,
      t.handleAll (depth + 1) (.crash c false) =
        (t.report (.unplaced (.internal c.kind c.description) true), t.forget, some (.crash c true)) ∧
      t.handleAll depth (.crash c true) = ("", t, some (.crash c true)) := by
  have hreached := Session.addInTurn_reached hs adds
  have hanswer files line number := (Session.add_took hreached.settled files line number).1
  refine ⟨hreached, hanswer, ?_, ?_, ?_⟩
  · intro files line number c hline hc
    obtain ⟨hanswer, htook⟩ := Session.add_took hreached.settled files line number
    have houtcome : (fed depthLimit (files, line) (s.addInTurn adds).workspace).outcome = .error (.crash c) := by
      rw [← hline, Session.feedLine_eq_feed, fed]
    refine ⟨hanswer.trans (Fed.answer_eq_error.mpr ⟨houtcome, hc⟩), htook.transcript.trans ?_⟩
    rw [Fed.output_of_error houtcome, hreached.path]
    simp only [Fed.reports, houtcome, reportedFault_crash hc]
  · intro files commands c s' hrun
    exact Session.run_crash hreached.settled hrun
  · intro t c hc depth
    exact ⟨t.handleAll_crash depth hc, t.handleAll_reported depth hc⟩

/-- A line that prints, one that has a value and one that fails. -/
theorem session_refines_feeding_unknown_word :
    let s := Session.new typedSource
    let adds : List Added := [⟨{}, "PRINT \"A", none⟩, ⟨{}, "\"B", none⟩, ⟨{}, "FOO", none⟩]
    s.Settled ∧ (s.addInTurn adds).Settled ∧ (s.addInTurn adds).results.map Node.display = ["B"] ∧
      (s.addInTurn adds).transcript.toList.map (·.1) = [.program, .program, .report] := by
  intro s adds
  have hs : s.Settled := Session.new_settled typedSource
  obtain ⟨hreached, -⟩ := session_refines_feeding hs adds
  refine ⟨hs, hreached.settled, ?_, ?_⟩
  · rw [hreached.results]
    clear hreached hs
    decide +kernel +revert
  · rw [hreached.transcript]
    clear hreached hs
    decide +kernel +revert

end TurtleLogo
