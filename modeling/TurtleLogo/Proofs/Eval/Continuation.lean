import TurtleLogo.Eval
import TurtleLogo.Proofs.Lexer.Lines
import TurtleLogo.Proofs.Parser.Columns

/-!
# Lines in parts

A line that ends in a backslash goes on with the next one. The tokens of its parts are joined, and are those of the
joined text up to their columns, so that feeding the parts does what feeding the joined text does. Only the place that a
fault shows may differ.

* `Failure.saying`, `Workspace.uncol`, `observed` : what a run shows apart from columns;
* `tokenize_parts` : the tokens of the parts and of the whole;
* `readLine_alone` : a line where no line goes on, `readLine_parts` : the other part of a line;
* `feed_parts` : a line fed in two parts.
-/

namespace TurtleLogo

open Exec Lexer Text

/-! ## What a run shows -/

def Failure.saying : Failure → (FaultKind × Message) ⊕ Crash
  | .fault f => .inl (f.kind, f.message)
  | .crash c => .inr c

def Workspace.uncol (w : Workspace) : Workspace :=
  { w with continuation := { w.continuation with tokens := w.continuation.tokens.map Token.uncol } }

/-- What a run shows apart from columns: its result or what its failure says, and the workspace it leaves. -/
def observed {α : Type} (x : Except Failure α × Workspace) :
    Except ((FaultKind × Message) ⊕ Crash) α × Workspace :=
  (x.1.mapError Failure.saying, x.2.uncol)

theorem Fault.cause_locate (f : Fault) (line : String) (start stop : Option Int) :
    (f.locate line start stop).cause = f.cause := by
  unfold Fault.locate
  split
  · cases start <;> rfl
  · rfl

theorem Failure.saying_inLine (e : Failure) (text : String) (continued : Bool) :
    (e.inLine text continued).saying = e.saying := by
  cases e with
  | fault f => simp only [Failure.inLine, Failure.saying, Fault.kind, Fault.message, Fault.cause_locate]
  | crash c => rfl

theorem Misspelling.saying_failure (e : Misspelling) (line line' : String) :
    (e.failure line).saying = (e.uncol.failure line').saying := by
  cases e <;> rfl

theorem ParseError.saying_failure (e : ParseError) (ts ts' : List Token) :
    (e.failure ts).saying = (e.uncol.failure ts').saying := by
  cases e <;> rfl

/-! ## The tokens of the parts -/

/-- A line that goes on has no tokens but those scanned. -/
theorem scan_of_endsInCont {line : String} {tokens : List Token} (h : tokenize line = .ok tokens)
    (hc : endsInCont tokens = true) : scan true 0 line.toList = .ok tokens := by
  obtain ⟨raw, hraw, rfl⟩ := tokenize_ok h
  cases hclosed : isClosed raw with
  | true => exact hraw
  | false => simp [hclosed, endsInCont] at hc

theorem isClosed_kinds {ts us : List Token} (h : ts.map Token.kind = us.map Token.kind) :
    isClosed ts = isClosed us := by
  have hc (l : List Token) : isClosed l = (l.map Token.kind).getLast?.any Lexeme.endsLine := by
    rw [List.getLast?_map, Option.any_map]
    rfl
  rw [hc, hc, h]

theorem endsInCont_kinds {ts us : List Token} (h : ts.map Token.kind = us.map Token.kind) :
    endsInCont ts = endsInCont us := by
  have hc (l : List Token) : endsInCont l = (l.map Token.kind).getLast?.any (· == .lineCont) := by
    rw [List.getLast?_map, Option.any_map]
    rfl
  rw [hc, hc, h]

/-- The tokens of a line in two parts are those of the parts, and a misspelling is that of the second part, up to
columns. -/
theorem tokenize_parts {first second : String} {tokens : List Token} (h : tokenize first = .ok tokens)
    (hc : endsInCont tokens = true) (hend : ['\\', '\n'] <:+ first.toList) (hs : isSilent second.toList = false) :
    (∃ ts us, tokenize (first ++ second) = .ok ts ∧ tokenize second = .ok us ∧
      ts.map Token.kind = (tokens ++ us).map Token.kind) ∨
    ∃ e e', tokenize (first ++ second) = .error e ∧ tokenize second = .error e' ∧ e.uncol = e'.uncol := by
  obtain ⟨line, hline⟩ := hend
  have hfirst : first.toList = (line ++ ['\\']) ++ ['\n'] := by
    rw [← hline, List.append_assoc]
    rfl
  have hjoin : (first ++ second).toList = (line ++ ['\\']) ++ '\n' :: second.toList := by
    rw [String.toList_append, hfirst, List.append_assoc]
    rfl
  have hwhole := scan_lines true 0 (line ++ ['\\']) second.toList
  rw [← hfirst, scan_of_endsInCont h hc] at hwhole
  rw [tokenize_eq, tokenize_eq, hjoin, hwhole]
  rcases sayings_cases (scan_kinds true (0 + (line ++ ['\\']).length + 1) 0 second.toList) with
    ⟨ts, us, ht, hu, hkinds⟩ | ⟨e, e', ht, hu, he⟩
  · have hts : ts ≠ [] := by
      rintro rfl
      obtain rfl := List.map_eq_nil_iff.mp hkinds.symm
      exact scan_ne_nil true 0 second.toList hs hu
    rw [ht, hu]
    refine .inl ⟨_, _, rfl, rfl, ?_⟩
    rw [isClosed_append hts, isClosed_kinds hkinds]
    cases isClosed us <;> simp [hkinds]
  · rw [ht, hu]
    exact .inr ⟨e, e', rfl, rfl, he⟩

theorem endsInCont_append {ts us : List Token} (h : endsInCont us = true) : endsInCont (ts ++ us) = true := by
  unfold endsInCont at *
  cases hl : us.getLast? with
  | none => simp [hl] at h
  | some t =>
    rw [hl] at h
    rw [List.getLast?_append, hl]
    exact h

/-! ## Reading -/

def Workspace.hold (w : Workspace) (c : Continuation) : Workspace := { w with continuation := c }

theorem readLine_misspelled {w : Workspace} {line : String} {e : Misspelling} (h : tokenize line = .error e) :
    readLine line w = (.error ((e.failure line).inLine (w.continuation.text ++ line)
      (!w.continuation.tokens.isEmpty)), w.hold {}) := by
  unfold readLine
  simp only [h]
  rfl

theorem readLine_cont {w : Workspace} {line : String} {tokens : List Token} (h : tokenize line = .ok tokens)
    (hc : endsInCont (w.continuation.tokens ++ tokens) = true) :
    readLine line w = (.ok (w.continuation.text ++ line, none),
      w.hold ⟨w.continuation.tokens ++ tokens, w.continuation.text ++ line⟩) := by
  unfold readLine
  simp only [h, hc, if_true]
  rfl

theorem readLine_whole {w : Workspace} {line : String} {tokens : List Token} (h : tokenize line = .ok tokens)
    (hc : endsInCont (w.continuation.tokens ++ tokens) = false) :
    readLine line w = match parseLine (w.continuation.tokens ++ tokens) with
      | .error e => (.error ((e.failure (w.continuation.tokens ++ tokens)).inLine (w.continuation.text ++ line)
          (!w.continuation.tokens.isEmpty)), w.hold {})
      | .ok items => (.ok (w.continuation.text ++ line, some items), w.hold {}) := by
  unfold readLine
  simp only [h, hc, Bool.false_eq_true, if_false]
  cases parseLine (w.continuation.tokens ++ tokens) <;> rfl

theorem Workspace.hold_eq_self {w : Workspace} (h : w.continuation = {}) : w.hold {} = w := by
  cases w
  cases h
  rfl

/-- Where no line goes on, reading a line leaves the workspace as it is unless the line goes on itself. -/
theorem readLine_alone {w : Workspace} (hw : w.continuation = {}) (line : String) :
    readLine line w = match tokenize line with
      | .error e => (.error ((e.failure line).inLine line false), w)
      | .ok tokens =>
        if endsInCont tokens then (.ok (line, none), w.hold ⟨tokens, line⟩)
        else match parseLine tokens with
          | .error e => (.error ((e.failure tokens).inLine line false), w)
          | .ok items => (.ok (line, some items), w) := by
  have hhold : ({ w with continuation := {} } : Workspace) = w := w.hold_eq_self hw
  simp only [readLine, hw, hhold, String.empty_append, List.nil_append, List.isEmpty_nil, Bool.not_true]
  rfl

/-- The workspace that holds `first` after what it held. -/
def Workspace.holding (w : Workspace) (first : String) (tokens : List Token) : Workspace :=
  w.hold ⟨w.continuation.tokens ++ tokens, w.continuation.text ++ first⟩

/-- Once the other part follows, the same is read as if the line had come whole. -/
theorem readLine_parts (w : Workspace) {first second : String} {tokens : List Token}
    (h : tokenize first = .ok tokens) (hc : endsInCont tokens = true) (hend : ['\\', '\n'] <:+ first.toList)
    (hs : isSilent second.toList = false) :
    observed (readLine second (w.holding first tokens)) = observed (readLine (first ++ second) w) := by
  have htext : w.continuation.text ++ first ++ second = w.continuation.text ++ (first ++ second) := String.append_assoc
  rcases tokenize_parts h hc hend hs with ⟨ts, us, ht, hu, hk⟩ | ⟨e, e', ht, hu, he⟩
  · have hkinds : (w.continuation.tokens ++ ts).map Token.kind =
        ((w.holding first tokens).continuation.tokens ++ us).map Token.kind := by
      simp only [Workspace.holding, Workspace.hold, List.append_assoc, List.map_append, hk]
    cases hend' : endsInCont (w.continuation.tokens ++ ts) with
    | true =>
      rw [readLine_cont ht hend', readLine_cont hu ((endsInCont_kinds hkinds).symm.trans hend')]
      refine Prod.ext (congrArg (fun text => Except.ok (text, none)) htext) ?_
      exact congrArg w.hold (congrArg₂ Continuation.mk (map_uncol_eq hkinds.symm) htext)
    | false =>
      rw [readLine_whole ht hend', readLine_whole hu ((endsInCont_kinds hkinds).symm.trans hend')]
      rcases mapError_cases (parseLine_of_kinds hkinds) with ⟨items, hp, hp'⟩ | ⟨e, e', hp, hp', he⟩
      · rw [hp, hp']
        exact Prod.ext (congrArg (fun text => Except.ok (text, some items)) htext) rfl
      · rw [hp, hp']
        refine Prod.ext (congrArg Except.error ?_) rfl
        rw [Failure.saying_inLine, Failure.saying_inLine, e.saying_failure _ [], e'.saying_failure _ [], he]
  · rw [readLine_misspelled ht, readLine_misspelled hu]
    refine Prod.ext (congrArg Except.error ?_) rfl
    rw [Failure.saying_inLine, Failure.saying_inLine, e.saying_failure _ second, e'.saying_failure _ second, he]

/-! ## Feeding -/

/-- Reading a line touches the continuation only, and something is held afterwards only if the line goes on. -/
theorem readLine_cases (line : String) (w : Workspace) :
    (∃ e, readLine line w = (.error e, w.hold {})) ∨
    (∃ text held, readLine line w = (.ok (text, none), w.hold held)) ∨
    (∃ text items, readLine line w = (.ok (text, some items), w.hold {})) := by
  cases ht : tokenize line with
  | error e => exact .inl ⟨_, readLine_misspelled ht⟩
  | ok tokens =>
    cases hc : endsInCont (w.continuation.tokens ++ tokens) with
    | true => exact .inr (.inl ⟨_, _, readLine_cont ht hc⟩)
    | false =>
      rw [readLine_whole ht hc]
      cases parseLine (w.continuation.tokens ++ tokens) with
      | error e => exact .inl ⟨_, rfl⟩
      | ok items => exact .inr (.inr ⟨_, items, rfl⟩)

theorem continuation_of_readLine {w w' : Workspace} {line text : String} {items : List Node}
    (h : readLine line w = (.ok (text, some items), w')) : w'.continuation = {} := by
  rcases readLine_cases line w with ⟨_, hr⟩ | ⟨_, _, hr⟩ | ⟨_, _, hr⟩
  · rw [hr] at h
    cases h
  · rw [hr] at h
    cases h
  · rw [hr] at h
    cases h
    rfl

theorem Workspace.uncol_eq_self {w : Workspace} (h : w.continuation = {}) : w.uncol = w := by
  unfold Workspace.uncol
  rw [h]
  cases w
  cases h
  rfl

theorem observed_feed (ev : Evaluator) {w w' : Workspace} {line line' : String}
    (h : observed (readLine line w) = observed (readLine line' w')) :
    observed (feed ev line w) = observed (feed ev line' w') := by
  unfold feed
  rw [bind_apply, bind_apply]
  obtain ⟨hresult, hspace⟩ := Prod.mk.inj h
  rcases hr : readLine line w with ⟨r, v⟩
  rcases hr' : readLine line' w' with ⟨r', v'⟩
  rw [hr, hr'] at hresult hspace
  rcases mapError_cases hresult with ⟨⟨text, _ | items⟩, rfl, rfl⟩ | ⟨e, e', rfl, rfl, he⟩
  · exact Prod.ext rfl hspace
  · have hv : v = v' := by
      rw [← Workspace.uncol_eq_self (continuation_of_readLine hr), hspace,
        Workspace.uncol_eq_self (continuation_of_readLine hr')]
    rw [hv]
  · exact Prod.ext (congrArg Except.error he) hspace

/-- A line fed in two parts, the first of which goes on, does what it does when it is fed whole. -/
theorem feed_parts (ev : Evaluator) (w : Workspace) {first second : String} {tokens : List Token}
    (h : tokenize first = .ok tokens) (hc : endsInCont tokens = true) (hend : ['\\', '\n'] <:+ first.toList)
    (hs : isSilent second.toList = false) :
    (feed ev first w).1 = .ok none ∧
      observed (feed ev second (feed ev first w).2) = observed (feed ev (first ++ second) w) := by
  have hfirst : feed ev first w = (.ok none, w.holding first tokens) := by
    unfold feed
    rw [bind_apply, readLine_cont h (endsInCont_append hc)]
    rfl
  rw [hfirst]
  exact ⟨rfl, observed_feed ev (readLine_parts w h hc hend hs)⟩

theorem feed_parts_make :
    (feed (eval {} 8) "MAKE \"A \\\n" {}).1 = .ok none ∧
      observed (feed (eval {} 8) "  \"B ; set\n" (feed (eval {} 8) "MAKE \"A \\\n" {}).2) =
        observed (feed (eval {} 8) ("MAKE \"A \\\n" ++ "  \"B ; set\n") {}) := by
  have htokens : tokenize "MAKE \"A \\\n" =
      .ok [⟨.name "MAKE", 0⟩, ⟨.blank, 4⟩, ⟨.word "A", 5⟩, ⟨.blank, 7⟩, ⟨.lineCont, 8⟩] := by decide +kernel
  have hsecond : isSilent "  \"B ; set\n".toList = false := by decide
  exact feed_parts (eval {} 8) {} htokens rfl (by decide) hsecond

end TurtleLogo
