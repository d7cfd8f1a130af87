import TurtleLogo.Proofs.Eval.Inputs
import TurtleLogo.Proofs.Eval.Listing
import TurtleLogo.Proofs.Lexer.Spelling
import TurtleLogo.Proofs.Number.Whole

/-!
# Items of written lists

`ITEM` takes an item out of a list as a value. In a list that is written out nothing is evaluated, so that a negative
number is still the negation that its sign makes of it, and no value: it is taken out as the word of its text.

* `parseLine_call`, `parseLine_integer` : calls and whole numbers of any size at the front of a line;
* `parseText_item`, `eval_item`, `feed_item` : `ITEM` of a list of canonical nodes, read, evaluated, and fed;
* `integerNode` : what a whole number in a list reads as;
* `item_of_integers` : `ITEM` of a list of whole numbers.
-/

namespace TurtleLogo

open Exec Lexer Node Number Parsing

/-! ## Reading -/

namespace Parsing

theorem parseLine_call (s : String) (col : Nat) (rest : List Token) :
    parseLine (⟨.name s, col⟩ :: rest) = parseLine rest >>= fun items => .ok (.call s :: items) := by
  have hread : readExpression 0 (⟨.name s, col⟩ :: rest) = .ok (.call s, rest) := by
    rw [readExpression_eq, readPrimary_cons rfl]
    rfl
  rw [(Starts.operand rfl).parseLine_eq, hread]
  rfl

theorem parseLine_integer {n : Nat} {x : Float} (hx : ofInt? n = some x) (col : Nat) {rest : List Token}
    (hstop : Stops 0 rest) :
    parseLine (⟨.integer n, col⟩ :: rest) = parseLine rest >>= fun items => .ok (.num x :: items) := by
  have hread : readExpression 0 (⟨.integer n, col⟩ :: rest) = .ok (.num x, settle rest) := by
    rw [readExpression_eq, readPrimary_cons rfl]
    simp only [hx]
    exact readClimb_of_stops hstop (.num x)
  rw [(Starts.operand rfl).parseLine_eq, hread]
  show (parseLine (settle rest) >>= _) = _
  rw [parseLine_settle]

end Parsing

/-- The line that takes an item out of a list with items of these texts. -/
def itemLine (i : Nat) (texts : List String) : String := "ITEM " ++ natText i ++ " [" ++ " ".intercalate texts ++ "]"

section Lines

variable {items : List Node} (h : ∀ item ∈ items, item.Canonical) (hw : ∀ item ∈ items, item.isWord = false) {i : Nat}

include h hw

theorem reading_itemLine (hi : i < 10 ^ digitLimit) :
    reading true (itemLine i (items.map display)).toList =
      .ok (.name "ITEM" :: .blank :: .integer i :: following [.list items]) := by
  have hname : Spells "ITEM".toList [.name "ITEM"] :=
    (Canonical.call (by decide) (by decide) (by decide) : (Node.call "ITEM").Canonical).spelled
  have hindex : Spells (natText i).toList [.integer i] := by
    rw [natText, String.toList_ofList]
    exact Lexeme.spells_integer hi
  have hlist : Spells (Node.list items).source.toList (Node.list items).lexemes := (Canonical.list h hw).spelled
  have htext : (itemLine i (items.map display)).toList =
      "ITEM".toList ++ (' ' :: (natText i).toList ++ (' ' :: (Node.list items).source.toList ++ [])) := by
    rw [source, text, texts_eq_map, itemLine]
    simp only [String.toList_append, List.append_assoc, List.append_nil]
    rfl
  have hreads : Reads true _ _ [] :=
    (hname.reads true _ rfl).trans ((hindex.after_blank rfl).trans (hlist.after_blank rfl))
  rw [htext, hreads.to_end, following, following, List.append_nil]
  rfl

theorem parseLine_item {x : Float} (hx : ofInt? i = some x) :
    parseLine (unplaced (.name "ITEM" :: .blank :: .integer i :: following [.list items]) ++ [⟨.lineEnd, 0⟩]) =
      .ok [.call "ITEM", .num x, .list items] := by
  have hparses : ∀ item ∈ [Node.list items], item.Parses := List.forall_mem_singleton.mpr (Canonical.list h hw).parses
  have hstop : Stops 0 [Token.mk .lineEnd 0] := .inr fun _ _ _ h => nomatch h
  have hrest : parseLine [Token.mk .lineEnd 0] = .ok [] := by
    rw [parseLine_cons rfl]
    rfl
  simp only [unplaced_cons, List.cons_append]
  rw [parseLine_call, parseLine_blank, parseLine_integer hx 0 (stops_following hparses hstop),
    parseLine_following hstop hrest hparses]
  rfl

/-- The line does not go on with the next one, and is read as it stands. -/
theorem parseText_item {x : Float} (hx : ofInt? i = some x) (hi : i < 10 ^ digitLimit) :
    goesOn (itemLine i (items.map display)) = false ∧
      parseText (itemLine i (items.map display)) = .ok [.call "ITEM", .num x, .list items] := by
  have hlist : (Node.list items).Canonical := .list h hw
  have hopen : ∀ k ∈ .name "ITEM" :: .blank :: .integer i :: following [.list items], k.endsLine = false := by
    simp only [List.forall_mem_cons]
    exact ⟨rfl, rfl, rfl, endsLine_following (List.forall_mem_singleton.mpr hlist.endsLine_eq)⟩
  obtain ⟨ts, htokens, hts⟩ := tokenize_of_reading (reading_itemLine h hw hi) hopen
  refine ⟨goesOn_of_lineEnd htokens, parseText_of htokens (parseLine_ok_of_kinds ?_ (parseLine_item h hw hx))⟩
  rw [List.map_append, List.map_append, hts, map_kind_unplaced]
  rfl

end Lines

/-! ## Evaluating -/

section Taking

variable {items : List Node} {x : Float} {v : Node} (hv : item? x (.list items) = some v)

include hv

theorem eval_item (files : FileStore) (depth : Nat) {w : Workspace} {rest : List Node} {outer : List (List Node)}
    (hp : w.pending = (.num x :: .list items :: rest) :: outer) :
    eval files (depth + 2) (.call "ITEM") w = (.ok (some v), w.withPending (rest :: outer)) := by
  have hindex : pullNumber (eval files (depth + 1)) "ITEM" w =
      (.ok x, w.withPending ((.list items :: rest) :: outer)) := pullNumber_of_eval hp rfl "ITEM"
  have hlist : pullValue (eval files (depth + 1)) "ITEM" (w.withPending ((.list items :: rest) :: outer)) =
      (.ok (.list items), w.withPending (rest :: outer)) := pullValue_of_eval rfl rfl (by simp) "ITEM"
  show Builtin.item.run files (eval files (depth + 1)) "ITEM" w = _
  rw [Builtin.run, bind_apply, hindex]
  dsimp only
  rw [bind_apply, hlist]
  dsimp only
  rw [hv]
  rfl

theorem eval_item_line (files : FileStore) (depth : Nat) (w : Workspace) :
    eval files (depth + 3) (.line [.call "ITEM", .num x, .list items]) w = (.ok (some v), w) := by
  rw [eval, evaluate, evalLine_apply, List.length_cons, statements_cons _ _ rfl, eval_item hv files depth rfl]
  show lineOutcome (.ok (some v), w.withPending ([] :: w.pending)) = _
  rw [lineOutcome]
  simp [Workspace.hasMore, Workspace.withPending]

end Taking

theorem isOutput_asValue (n : Node) : n.asValue.isOutput = false := by
  cases n <;> rfl

/-- **`ITEM` of a list that is written out.** Outside of definitions it gives the item, made a value, and changes
nothing. -/
theorem feed_item (files : FileStore) (depth : Nat) {w : Workspace} (hc : w.continuation = {})
    (hd : w.definition = none) {items : List Node} (h : ∀ item ∈ items, item.Canonical)
    (hw : ∀ item ∈ items, item.isWord = false) {i : Nat} (hi : 1 ≤ i) (hbits : i ≤ 2 ^ 53) {item : Node}
    (hitem : items[i - 1]? = some item) :
    feed (eval files (depth + 4)) (itemLine i (items.map display)) w = (.ok (some item.asValue), w) := by
  have hlimit : 2 ^ 53 < integerLimit := by decide +kernel
  have hx : ofInt? i = some (Float.ofInt i) := if_pos (Nat.lt_of_le_of_lt hbits hlimit)
  have hdigits : i < 10 ^ digitLimit :=
    calc i < 10 ^ 16 := Nat.lt_of_le_of_lt hbits (by decide)
      _ ≤ 10 ^ digitLimit := Nat.pow_le_pow_right (by decide) (by decide)
  have hwhole : IsWhole (Float.ofInt i) i := isWhole_ofInt hbits
  have htake : item? (Float.ofInt i) (.list items) = some item.asValue := by
    rw [item?, hwhole.isInteger, hwhole.truncate]
    have hpos : (1 : Int) ≤ i := by omega
    simp only [hpos, decide_true, Bool.and_self, if_true, Int.toNat_natCast, elements, hitem, Option.map_some]
  obtain ⟨hgo, hparse⟩ := parseText_item h hw hx hdigits
  rw [feed_alone _ hc hgo, hparse]
  dsimp only
  rw [handleLine_of_none _ _ _ hd, if_neg (by exact Bool.false_ne_true), runLine, bind_apply,
    eval_item_line htake files (depth + 1) w]
  have ho := isOutput_asValue item
  generalize item.asValue = v at ho ⊢
  cases v with
  | output _ => cases ho
  | _ => rfl

/-! ## Whole numbers -/

theorem canonical_ofNat {n : Nat} (h : n < wholeLimit) : (Node.num (Float.ofInt n)).Canonical := by
  have htext : (numberText (Float.ofInt n)).toList = natDigits n := by
    rw [numberText_ofInt (n := n) h, intText_natCast, natText, String.toList_ofList]
  obtain ⟨hword, hread⟩ := reads_ofNat h
  refine .num ?_ ?_
  · rw [htext]
    refine List.all_eq_true.mpr fun c hc => ?_
    rw [isDigit_natDigits hc, Bool.true_or]
  · rw [numeral, htext, hword]
    exact hread

/-- What a whole number in a list reads as: a negative one is the negation of its amount. -/
def integerNode (n : Int) : Node :=
  if n < 0 then .neg (.num (Float.ofInt n.natAbs)) else .num (Float.ofInt n)

section Integers

variable {n : Int} (h : n.natAbs < wholeLimit)

include h

theorem canonical_integerNode : (integerNode n).Canonical := by
  unfold integerNode
  split
  · exact .neg (canonical_ofNat h) rfl
  · next hn =>
    obtain ⟨m, rfl⟩ := Int.eq_ofNat_of_zero_le (Int.not_lt.mp hn)
    exact canonical_ofNat h

theorem text_integerNode (quoted : Bool) : (integerNode n).text quoted = intText n := by
  unfold integerNode
  split
  · next hn => rw [text, text, numberText_ofInt (n := n.natAbs) h, intText_natCast, intText, if_pos hn]
  · rw [text, numberText_ofInt h]

theorem asValue_integerNode :
    (integerNode n).asValue = if n < 0 then .word (intText n) else .num (Float.ofInt n) := by
  have htext := text_integerNode h true
  unfold integerNode at htext ⊢
  split at htext
  · next hn =>
    rw [if_pos hn, if_pos hn]
    exact congrArg Node.word htext
  · next hn =>
    rw [if_neg hn, if_neg hn]
    rfl

end Integers

theorem isWord_integerNode (n : Int) : (integerNode n).isWord = false := by
  unfold integerNode
  split <;> rfl

/-- **Whole numbers in a list.** Outside of definitions, feed a line that takes an item out of a list of whole numbers
of at most 15 digits. If the item is not negative, the line gives this number; if it is, the line gives the word of its
text. The workspace stays as it is. The index goes as far as doubles count, which is up to `2 ^ 53`. -/
theorem item_of_integers (files : FileStore) {w : Workspace} (hc : w.continuation = {}) (hd : w.definition = none)
    {ns : List Int} (h : ∀ n ∈ ns, n.natAbs < 10 ^ 15) {i : Nat} (hi : 1 ≤ i) (hbits : i ≤ 2 ^ 53) {n : Int}
    (hn : ns[i - 1]? = some n) :
    feedLine files ("ITEM " ++ natText i ++ " [" ++ " ".intercalate (ns.map intText) ++ "]") w =
      (.ok (some (if n < 0 then .word (intText n) else .num (Float.ofInt n))), w) := by
  have htexts : (ns.map integerNode).map display = ns.map intText := by
    rw [List.map_map]
    exact List.map_congr_left fun n hm => text_integerNode (h n hm) false
  have hcanonical : ∀ item ∈ ns.map integerNode, item.Canonical :=
    List.forall_mem_map.mpr fun n hm => canonical_integerNode (h n hm)
  have hwords : ∀ item ∈ ns.map integerNode, item.isWord = false :=
    List.forall_mem_map.mpr fun n _ => isWord_integerNode n
  have hitem : (ns.map integerNode)[i - 1]? = some (integerNode n) := by rw [List.getElem?_map, hn, Option.map_some]
  have hfeed := feed_item files 3996 hc hd hcanonical hwords hi hbits hitem
  rw [htexts, asValue_integerNode (h n (List.mem_of_getElem? hn))] at hfeed
  exact hfeed

/-- A number with no sign, and one with a minus. -/
theorem item_of_integers_signs :
    (∀ n ∈ ([7, -12, 0] : List Int), n.natAbs < 10 ^ 15) ∧
      feedLine {} "ITEM 1 [7 -12 0]" {} = (.ok (some (.num (Float.ofInt 7))), {}) ∧
      feedLine {} "ITEM 2 [7 -12 0]" {} = (.ok (some (.word "-12")), {}) := by
  have hns : ∀ n ∈ ([7, -12, 0] : List Int), n.natAbs < 10 ^ 15 := by decide
  have hfirst := item_of_integers {} (w := {}) rfl rfl hns (i := 1) (by decide) (by decide) rfl
  have hsecond := item_of_integers {} (w := {}) rfl rfl hns (i := 2) (by decide) (by decide) rfl
  exact ⟨hns, hfirst, hsecond⟩

/-- Five below zero comes out as a word. -/
theorem item_of_negative :
    (feedLine {} "ITEM 1 [-5]" {}).1 = .ok (some (.word "-5")) ∧
      (feedLine {} "ITEM 1 [-5]" {}).1 ≠ .ok (some (.num (Float.ofInt (-5)))) := by
  have hsmall : (-5 : Int).natAbs < wholeLimit := by decide +kernel
  have hfeed := feed_item {} 3996 (w := {}) rfl rfl (List.forall_mem_singleton.mpr (canonical_integerNode hsmall))
    (List.forall_mem_singleton.mpr (isWord_integerNode (-5))) (i := 1) le_rfl (by decide) rfl
  rw [List.map_singleton, display, text_integerNode hsmall, asValue_integerNode hsmall] at hfeed
  have hitem : (feedLine {} "ITEM 1 [-5]" {}).1 = .ok (some (.word "-5")) := congrArg Prod.fst hfeed
  refine ⟨hitem, ?_⟩
  rw [hitem]
  intro h
  cases h

end TurtleLogo
