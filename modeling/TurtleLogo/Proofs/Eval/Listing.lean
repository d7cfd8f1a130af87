import TurtleLogo.Proofs.Eval.Remainder
import TurtleLogo.Proofs.Eval.Values
import TurtleLogo.Proofs.Eval.WriteOnly
import TurtleLogo.Proofs.Node.Printing
import TurtleLogo.Proofs.Node.Retyped

/-!
# Listings

`PONS` lists the variables as lines that would give them their values. Fed to a fresh workspace, these lines do so
wherever the text of each value reads as an expression that gives the value.

* `parseText_display` : the text of a line of canonical nodes, read as a line of its own;
* `Node.isRestorable`, `exists_expression` : the values whose text reads so, and the expressions;
* `feed_listed` : one line of a listing; `feedInTurn_listed` : all lines of one;
* `listing_restores` : the global variables are restored.
-/

namespace TurtleLogo

open Exec Lexer Node Number

/-! ## Reading a printed line -/

theorem endsLine_following {items : List Node} (h : ∀ item ∈ items, ∀ k ∈ item.lexemes, k.endsLine = false) :
    ∀ k ∈ following items, k.endsLine = false := by
  induction items with
  | nil => exact fun _ hk => nomatch hk
  | cons item items ih =>
    obtain ⟨hitem, hitems⟩ := List.forall_mem_cons.mp h
    rw [following]
    refine List.forall_mem_cons.mpr ⟨rfl, ?_⟩
    exact List.forall_mem_append.mpr ⟨hitem, ih hitems⟩

theorem endsLine_enclosed {ks : List Lexeme} (b : Bracket) (h : ∀ k ∈ ks, k.endsLine = false) :
    ∀ k ∈ .opener b :: ks ++ [.closer b], k.endsLine = false :=
  List.forall_mem_cons.mpr ⟨rfl, List.forall_mem_append.mpr ⟨h, List.forall_mem_singleton.mpr rfl⟩⟩

theorem Node.Canonical.endsLine_eq {n : Node} (h : n.Canonical) : ∀ k ∈ n.lexemes, k.endsLine = false := by
  induction h with
  | num _ reads =>
    rw [lexemes]
    refine List.forall_mem_singleton.mpr ?_
    rcases numeral_cases reads with ⟨n, hn, -⟩ | hx
    · rw [hn]
      rfl
    · rw [hx]
      rfl
  | word _ | var _ | call _ _ _ =>
    rw [lexemes]
    exact List.forall_mem_singleton.mpr rfl
  | neg _ _ ih =>
    rw [lexemes]
    exact List.forall_mem_cons.mpr ⟨rfl, ih⟩
  | binary _ _ _ _ _ ihl ihr =>
    rw [lexemes]
    refine List.forall_mem_append.mpr ⟨ihl, ?_⟩
    exact List.forall_mem_cons.mpr ⟨rfl, List.forall_mem_cons.mpr ⟨rfl, List.forall_mem_cons.mpr ⟨rfl, ihr⟩⟩⟩
  | list _ _ ih | group _ ih =>
    rw [lexemes]
    exact endsLine_enclosed _ fun k hk => endsLine_following ih k (List.mem_of_mem_tail hk)
  | variadic _ _ ih =>
    rw [lexemes_variadic]
    exact endsLine_enclosed _ (List.forall_mem_cons.mpr ⟨rfl, endsLine_following ih⟩)

theorem parseText_display {items : List Node} (h : ∀ item ∈ items, item.Canonical) :
    goesOn (Node.line items).display = false ∧ parseText (Node.line items).display = .ok items := by
  have hopen : ∀ k ∈ (following items).tail, k.endsLine = false := fun k hk =>
    endsLine_following (fun item hm => (h item hm).endsLine_eq) k (List.mem_of_mem_tail hk)
  obtain ⟨ts, htokens, hts⟩ := tokenize_of_reading (reading_display h) hopen
  refine ⟨goesOn_of_lineEnd htokens, parseText_of htokens (parseLine_of_following h hts (.inr ?_) ?_)⟩
  · intro _ _ _ h
    cases h
  · rw [parseLine_cons rfl]
    rfl

/-! ## One variable -/

/-- Whether the text of a value, at the end of a line, reads as an expression that gives the value. A negative
number, which reads as a negation, does so there, though not in a list. -/
def Node.isRestorable : Node → Bool
  | .num x => isLetterless x
  | v => v.isRetypable

theorem eval_num (files : FileStore) (depth : Nat) (x : Float) (w : Workspace) :
    eval files (depth + 1) (.num x) w = (.ok (some (.num x)), w) := rfl

theorem eval_neg_num (files : FileStore) (depth : Nat) (x : Float) (w : Workspace) :
    eval files (depth + 2) (.neg (.num x)) w = (.ok (some (.num (-x))), w) := rfl

/-- A number without letters is written as an expression that gives it: itself, or the negation of its amount. -/
theorem exists_numeral {x : Float} (h : isLetterless x = true) :
    ∃ n : Node, n.Canonical ∧ n.source = (Node.num x).source ∧
      ∀ files depth w, eval files (depth + 2) n w = (.ok (some (.num (Number.retyped x))), w) := by
  have hzero : (Node.num 0).Canonical := .num (by decide +kernel) (by decide +kernel)
  rcases isLetterless_cases h with (rfl | rfl) | ⟨d, s, rfl⟩
  · refine ⟨.num 0, hzero, rfl, fun files depth w => ?_⟩
    rw [Number.retyped, ite_self]
    rfl
  · have htext := numberText_retyped (-0)
    rw [Number.retyped, if_pos rfl] at htext ⊢
    refine ⟨.num 0, hzero, ?_, fun files depth w => rfl⟩
    rw [source, source, text, text, htext]
  · rw [Number.retyped, if_neg d.float_ne_neg_zero]
    cases s with
    | positive =>
      obtain ⟨hdigits, hreads⟩ := d.reads h
      exact ⟨_, .num hdigits hreads, rfl, fun files depth w => eval_num files (depth + 1) _ w⟩
    | negative =>
      have hletter : isLetterless (d.float .positive) = true := by
        unfold isLetterless at h ⊢
        rw [d.numberText_negative, String.toList_append, List.all_append, Bool.and_eq_true] at h
        exact h.2
      obtain ⟨hdigits, hreads⟩ := d.reads hletter
      refine ⟨.neg (.num (d.float .positive)), .neg (.num hdigits hreads) rfl, ?_, fun files depth w => ?_⟩
      · show (Node.neg (.num (d.float .positive))).text true = (Node.num (d.float .negative)).text true
        rw [text, text, text, d.numberText_negative]
      · rw [eval_neg_num, d.neg_float]
        rfl

theorem exists_expression {v : Node} (hv : v.IsValue) (h : v.isRestorable = true) :
    ∃ n : Node, n.Canonical ∧ n.source = v.source ∧
      ∀ files depth w, eval files (depth + 2) n w = (.ok (some v.retyped), w) := by
  cases v with
  | num x => exact exists_numeral h
  | word s => exact ⟨.word s, canonical_retyped h, rfl, fun _ _ _ => rfl⟩
  | list items =>
    exact ⟨(Node.list items).retyped, canonical_retyped h, text_retyped true _, fun _ _ _ => rfl⟩
  | _ => exact hv.elim

theorem withPending_assign (w : Workspace) (pending : List (List Node)) (name : String) (v : Node) :
    (w.withPending pending).assign name v = (w.assign name v).withPending pending := by
  have hf : (w.withPending pending).frames = w.frames := rfl
  unfold Workspace.assign
  rw [hf]
  split
  · split <;> rfl
  · rfl

section Make

variable {files : FileStore} {depth : Nat} {n v : Node} (hv : v.isOutput = false)
  (hn : ∀ w, eval files (depth + 1) n w = (.ok (some v), w))

include hv hn

theorem eval_make {w : Workspace} {name : String} {rest : List Node} {outer : List (List Node)}
    (hw : w.pending = (.word name :: n :: rest) :: outer) :
    eval files (depth + 2) (.call "MAKE") w = (.ok none, (w.assign name v).withPending (rest :: outer)) := by
  have hword : pullWord (eval files (depth + 1)) "MAKE" w = (.ok name, w.withPending ((n :: rest) :: outer)) := by
    rw [pullWord, pullValue_eq, bind_apply, bind_apply]
    simp only [nextInput, hw]
    rfl
  have hvalue : pullValue (eval files (depth + 1)) "MAKE" (w.withPending ((n :: rest) :: outer)) =
      (.ok v, w.withPending (rest :: outer)) := by
    rw [pullValue_eq, bind_apply]
    show valueOf (eval files (depth + 1)) "MAKE" n (w.withPending (rest :: outer)) = _
    rw [valueOf, bind_apply, hn]
    cases v with
    | output _ => cases hv
    | _ => rfl
  show Builtin.make.run files (eval files (depth + 1)) "MAKE" w = _
  rw [Builtin.run, bind_apply, hword]
  dsimp only
  rw [bind_apply, hvalue, ← withPending_assign]
  rfl

theorem eval_make_line (name : String) (w : Workspace) :
    eval files (depth + 3) (.line [.call "MAKE", .word name, n]) w = (.ok none, w.assign name v) := by
  rw [eval, evaluate, evalLine_apply, List.length_cons, statements_cons _ _ rfl, eval_make hv hn rfl,
    withPending_assign, withPending_assign]
  dsimp only
  rw [statements_nil _ _ rfl]
  show (_, (w.assign name v).withPending w.pending) = _
  rw [← pending_assign w name v]
  rfl

end Make

theorem isOutput_retyped {v : Node} (h : v.IsValue) : v.retyped.isOutput = false := by
  cases v with
  | num _ | word _ | list _ => rfl
  | _ => exact h.elim

theorem display_make (name : String) (n : Node) :
    (Node.line [.call "MAKE", .word name, n]).display = "MAKE \"" ++ name ++ " " ++ n.source := by
  rw [display, text, texts, texts, texts, texts, text, text, if_pos rfl, String.intercalate_cons_cons,
    String.intercalate_cons_cons, String.intercalate_singleton, ← String.append_assoc, ← String.append_assoc,
    ← String.append_assoc]
  rfl

def listed (entry : String × Node) : String := "MAKE \"" ++ entry.1 ++ " " ++ entry.2.source

/-- A variable whose line in a listing gives it its value again. -/
structure Restorable (entry : String × Node) : Prop where
  plain : entry.1.toList.all isPlain = true
  isValue : entry.2.IsValue
  restorable : entry.2.isRestorable = true

/-- **One line of a listing** gives its variable the value again. -/
theorem feed_listed (files : FileStore) (depth : Nat) {w : Workspace} (hd : w.definition = none)
    (hc : w.continuation = {}) {entry : String × Node} (h : Restorable entry) :
    feed (eval files (depth + 4)) (listed entry) w = (.ok none, w.assign entry.1 entry.2.retyped) := by
  obtain ⟨name, v⟩ := entry
  obtain ⟨hname, hv, hrestorable⟩ := h
  obtain ⟨n, hn, htext, heval⟩ := exists_expression hv hrestorable
  have hmake : (Node.call "MAKE").Canonical := .call (by decide) (by decide) (by decide)
  obtain ⟨hgo, hparse⟩ := parseText_display
    (List.forall_mem_cons.mpr ⟨hmake, List.forall_mem_cons.mpr ⟨.word hname, List.forall_mem_singleton.mpr hn⟩⟩)
  have hlisted : (Node.line [.call "MAKE", .word name, n]).display = listed (name, v) := by
    rw [display_make, htext, listed]
  rw [hlisted] at hgo hparse
  rw [feed_alone _ hc hgo, hparse]
  dsimp only
  rw [handleLine_of_none _ _ _ hd, if_neg (by exact Bool.false_ne_true), runLine, bind_apply,
    eval_make_line (isOutput_retyped hv) (heval files depth)]
  rfl

/-! ## All of them -/

theorem nodup_insert {t : Table Node} (h : t.names.Nodup) (name : String) (v : Node) :
    (t.insert name v).names.Nodup := by
  rw [Table.names_insert]
  split
  · exact h
  · next hname => exact List.nodup_append_comm.mp (List.nodup_cons.mpr ⟨hname, h⟩)

theorem nodup_globals_stable : Stable fun w w' => w.globals.names.Nodup → w'.globals.names.Nodup where
  refl _ h := h
  trans h h' hw := h' (h hw)
  next _ h := h
  queue _ h hw := h hw
  frame _ h hw := h hw
  assign w name value h := by
    unfold Workspace.assign
    split
    · split
      · exact h
      · exact nodup_insert h name value
    · exact nodup_insert h name value
  draw _ _ h := h
  print _ _ h := h
  continuation _ _ h := h
  title _ h := h
  addLine _ _ _ h := h
  drop _ h := h
  define _ h := h

/-- Between lines no procedure is running, and each global variable has one entry. -/
theorem Reachable.tables {depth : Nat} {w : Workspace} (h : Reachable depth w) :
    w.frames = [] ∧ w.globals.names.Nodup := by
  constructor
  · obtain ⟨drawing, hw⟩ := h.keeps disciplined_stable
    exact List.length_eq_zero_iff.mp hw.frames
  · obtain ⟨drawing, hw⟩ := h.keeps nodup_globals_stable
    exact hw List.nodup_nil

theorem insertEntry_new {name : String} (v : Node) {entries : List (String × Node)}
    (h : name ∉ entries.map (·.1)) : Table.insertEntry name v entries = entries ++ [(name, v)] := by
  induction entries with
  | nil => rfl
  | cons entry entries ih =>
    rw [List.map_cons, List.mem_cons, not_or] at h
    rw [Table.insertEntry, if_neg h.1, ih h.2]
    rfl

/-- Where no procedure is running, a variable that is new comes last. -/
theorem assign_new {w : Workspace} (hf : w.frames = []) {name : String} (hname : name ∉ w.globals.names) (v : Node) :
    w.assign name v = { w with globals := ⟨w.globals.entries ++ [(name, v)]⟩ } := by
  unfold Workspace.assign
  split
  · next hframes =>
    rw [hf] at hframes
    cases hframes
  · rw [Table.insert, insertEntry_new v hname]

/-- The lines that list variables, fed one after the other where there are none of these names yet, all succeed, print
nothing, and give these variables their values in order. -/
theorem feedInTurn_listed (files : FileStore) (depth : Nat) {entries : List (String × Node)}
    (h : ∀ entry ∈ entries, Restorable entry) (hnames : (entries.map (·.1)).Nodup) {w : Workspace}
    (hd : w.definition = none) (hc : w.continuation = {}) (hf : w.frames = [])
    (hnew : ∀ entry ∈ entries, entry.1 ∉ w.globals.names) :
    let inputs := (entries.map listed).map (files, ·)
    (∀ f ∈ feedLog (depth + 4) inputs w, f.outcome = .ok none ∧ f.printed = []) ∧
    feedInTurn (depth + 4) inputs w =
      { w with globals := ⟨w.globals.entries ++ entries.map fun entry => (entry.1, entry.2.retyped)⟩ } := by
  dsimp only
  -- each line adds a variable, so the workspace is any that lacks the names still to come
  induction entries generalizing w with
  | nil =>
    refine ⟨List.forall_mem_nil _, ?_⟩
    rw [List.map_nil, List.map_nil, List.map_nil, List.append_nil]
    rfl
  | cons entry entries ih =>
    obtain ⟨hentry, hentries⟩ := List.forall_mem_cons.mp h
    obtain ⟨hnotin, hnames⟩ := List.nodup_cons.mp hnames
    obtain ⟨hfresh, hnew⟩ := List.forall_mem_cons.mp hnew
    let w' : Workspace := { w with globals := ⟨w.globals.entries ++ [(entry.1, entry.2.retyped)]⟩ }
    have hfeed : feed (eval files (depth + 4)) (listed entry) w = (.ok none, w') := by
      rw [feed_listed files depth hd hc hentry, assign_new hf hfresh]
    have hrest : ∀ other ∈ entries, other.1 ∉ w'.globals.names := by
      intro other hm
      have hne : other.1 ≠ entry.1 := fun he => hnotin (List.mem_map.mpr ⟨other, hm, he⟩)
      rw [Table.names, List.map_append, List.mem_append, not_or]
      exact ⟨hnew other hm, by simpa using hne⟩
    obtain ⟨hlog, hlast⟩ := ih hentries hnames (w := w') hd hc hf hrest
    constructor
    · rw [List.map_cons, List.map_cons, feedLog]
      refine List.forall_mem_cons.mpr ⟨?_, ?_⟩
      · simp only [fed, hfeed, w', Array.size_eq_length_toList, List.drop_length, and_self]
      · rw [hfeed]
        exact hlog
    · rw [List.map_cons, List.map_cons, feedInTurn, List.foldl_cons, hfeed]
      show feedInTurn (depth + 4) ((entries.map listed).map (files, ·)) w' = _
      rw [hlast, List.append_assoc]
      rfl

/-- **The listing of the global variables restores them.** After any lines, `PONS` lists no local variables, and one
line for each global one. If the names are plain, no number has letters in its text, and words and lists read as
themselves, then these lines, fed to a fresh workspace, all succeed, and leave it with the same variables in the same
order and with the same values, and with nothing else. Only a zero may have lost its sign. -/
theorem listing_restores {depth : Nat} {w : Workspace} (h : Reachable depth w)
    (hnames : ∀ entry ∈ w.globals.entries, entry.1.toList.all isPlain = true)
    (hvalues : ∀ entry ∈ w.globals.entries, entry.2.isRestorable = true) {n : Nat} (hn : 4 ≤ n) :
    (∀ (files : FileStore) (ev : Evaluator), call files ev "PONS" w =
      (.ok none, w.printAll ("Locals:" :: "Globals:" :: w.globals.entries.map listed))) ∧
    ∀ (files : FileStore) (drawing : Drawing),
      let inputs := (w.globals.entries.map listed).map (files, ·)
      (∀ f ∈ feedLog n inputs { drawing }, f.outcome = .ok none) ∧
      feedInTurn n inputs { drawing } = { drawing, globals := w.globals.mapValues Node.retyped } := by
  obtain ⟨hframes, hnodup⟩ := h.tables
  obtain ⟨m, rfl⟩ := Nat.exists_eq_add_of_le' hn
  have hentries : ∀ entry ∈ w.globals.entries, Restorable entry :=
    fun entry hm => ⟨hnames entry hm, h.sound.1.globals entry hm, hvalues entry hm⟩
  refine ⟨fun files ev => ?_, fun files drawing => ?_⟩
  · have hlocals : w.locals = {} := by rw [Workspace.locals, hframes]; rfl
    show (_, w.printAll (variableListing "Locals" w.locals ++ variableListing "Globals" w.globals)) = _
    rw [hlocals]
    rfl
  · obtain ⟨hlog, hlast⟩ := feedInTurn_listed files m hentries hnodup (w := { drawing }) rfl rfl rfl
      (fun _ _ hm => nomatch hm)
    exact ⟨fun f hm => (hlog f hm).1, hlast⟩

/-- A negative number and a list of code. -/
theorem listing_restores_code :
    let w := feedInTurn 4 [({}, "MAKE \"A 0 - 2.5"), ({}, "MAKE \"B [FD :N*2 [-:N]]")] {}
    let inputs : List (FileStore × String) := ["MAKE \"A -2.5", "MAKE \"B [FD :N * 2 [-:N]]"].map ({}, ·)
    (∀ f ∈ feedLog 4 inputs {}, f.outcome = .ok none) ∧
    feedInTurn 4 inputs {} = { globals := w.globals.mapValues Node.retyped } := by
  intro w
  have hlisted : w.globals.entries.map listed = ["MAKE \"A -2.5", "MAKE \"B [FD :N * 2 [-:N]]"] := by decide +kernel
  have hreachable : Reachable 4 w := .feed {} _ (.feed {} _ (.fresh {}))
  rw [← hlisted]
  exact (listing_restores hreachable (by decide +kernel) (by decide +kernel) (Nat.le_refl 4)).2 {} {}

/-- A number with an exponent is listed by a line that cannot be read, and a list that holds a word or a negative number
by one that gives a list of a call or a negation. -/
theorem listing_loses :
    let w := (feed (eval {} 8) "MAKE \"A 1E16" {}).2
    let v := (feed (eval {} 8) "MAKE \"L LIST \"B -3" {}).2
    ((call {} (eval {} 8) "PONS" w).2.printed = #["Locals:", "Globals:", "MAKE \"A 1e+16"] ∧
      (feed (eval {} 8) "MAKE \"A 1e+16" {}).1.isOk = false) ∧
    ((call {} (eval {} 8) "PONS" v).2.printed = #["Locals:", "Globals:", "MAKE \"L [B -3]"] ∧
      (feed (eval {} 8) "MAKE \"L [B -3]" {}).2.globals ≠ v.globals) := by
  intro w v
  refine ⟨by decide +kernel, by decide +kernel, fun h => ?_⟩
  have hwords := congrArg (fun t => t.values.map fun v => (elements v).map Node.isWord) h
  revert hwords
  decide +kernel

end TurtleLogo
