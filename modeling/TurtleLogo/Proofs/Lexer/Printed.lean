import TurtleLogo.Proofs.Lexer.Lines
import TurtleLogo.Proofs.Node.Canonical

/-!
# Scanning what is printed

The printed text of a canonical node says its lexemes, before a blank, a closing bracket or the end of the text. Text is
scanned with what follows it present, since a word goes on as long as it can.

* `reading`, `Reads` : what text says, and a part of it at the front;
* `SpellsWord`, `Spells` : text that is a word, or says certain lexemes, wherever a word may end;
* `spells_bare`, `spells_var`, `spells_word`, `spells_op` : words, and operators;
* `reads_intercalate_map` : spellings with blanks between them, `tokenize_of_reading` : the tokens of what is read;
* `Canonical.spelled` : the text of every canonical node, `reading_display` : of a line of them.
-/

namespace TurtleLogo

open Number

namespace Lexer

/-! ## Reading a part of the text -/

def reading (fresh : Bool) (text : List Char) : Except Misspelling (List Lexeme) := sayings (scan fresh 0 text)

/-- Text that says `ks` and goes on with `rest`, inside a line. -/
def Reads (fresh : Bool) (text : List Char) (ks : List Lexeme) (rest : List Char) : Prop :=
  reading fresh text = (reading false rest).map (ks ++ ·)

theorem Reads.trans {fresh : Bool} {text rest rest' : List Char} {ks js : List Lexeme} (h : Reads fresh text ks rest)
    (h' : Reads false rest js rest') : Reads fresh text (ks ++ js) rest' := by
  unfold Reads at *
  rw [h, h']
  cases reading false rest' with
  | error e => rfl
  | ok ls => exact congrArg Except.ok (List.append_assoc ks js ls).symm

theorem Reads.of_step {fresh : Bool} {c : Char} {rest : List Char} {k : Lexeme} {n : Nat}
    (h : step fresh 0 c rest = .ok ⟨some k, n⟩) (hk : k.endsLine = false) : Reads fresh (c :: rest) [k] (rest.drop n) := by
  have he : (⟨some k, n⟩ : Step).endsLine = false := hk
  unfold Reads reading
  rw [scan_cons, h]
  simp only [bind, Except.bind, he]
  rcases sayings_cases (scan_kinds false (0 + n + 1) 0 (rest.drop n)) with ⟨ts, us, ht, hu, hts⟩ | ⟨e, e', ht, hu, hee⟩
  · rw [ht, hu]
    exact congrArg (fun ks => Except.ok (k :: ks)) hts
  · rw [ht, hu]
    exact congrArg Except.error hee

/-! ## Words -/

/-- Whether a word may end before this text: at its end, a blank or a closing bracket. -/
def endsWord : List Char → Bool
  | [] => true
  | c :: _ => c == ' ' || c == ')' || c == ']'

theorem toNat_lt_of_isPlain {c : Char} (h : isPlain c = true) : c.toNat < 'a'.toNat := by
  unfold isPlain at h
  simp only [Bool.or_eq_true, beq_iff_eq] at h
  rcases h with (((hu | hd) | rfl) | rfl) | rfl
  · have hle : c.val ≤ 'Z'.val := (of_decide_eq_true hu).2
    exact Nat.lt_of_le_of_lt (UInt32.le_iff_toNat_le.mp hle) (by decide)
  · exact Nat.lt_of_le_of_lt (Char.isDigit_iff_toNat.mp hd).2 (by decide)
  all_goals decide

theorem upper_plain {c : Char} (h : isPlain c = true) : Text.upper c = [c] := by
  have hlt := toNat_lt_of_isPlain h
  have hlower : ¬('a'.val ≤ c.val ∧ c.val ≤ 'z'.val) := fun hl =>
    absurd (UInt32.le_iff_toNat_le.mp hl.1) (Nat.not_le.mpr hlt)
  unfold Text.upper Char.toUpper
  rw [if_pos (Nat.lt_trans hlt (by decide)), dif_neg hlower]

theorem isWordChar_of_isPlain {c : Char} (h : isPlain c = true) : isWordChar c = true := by
  unfold isPlain at h
  unfold isWordChar Char.isAlphanum Char.isAlpha
  simp only [Bool.or_eq_true] at *
  grind

/-- Text that is read as a certain word wherever a word may end. -/
def SpellsWord (text word : List Char) : Prop :=
  ∀ rest, endsWord rest = true → readWord (text ++ rest) = (word, text.length)

theorem SpellsWord.nil : SpellsWord [] [] := by
  intro rest he
  rw [List.nil_append]
  cases rest with
  | nil => rfl
  | cons c rest =>
    simp only [endsWord, Bool.or_eq_true, beq_iff_eq] at he
    rcases he with (rfl | rfl) | rfl
    all_goals exact readWord_stop (by decide) (by decide) rest

theorem SpellsWord.plain {c : Char} {text word : List Char} (hc : isPlain c = true) (h : SpellsWord text word) :
    SpellsWord (c :: text) (c :: word) := by
  intro rest he
  rw [List.cons_append, readWord_wordChar (isWordChar_of_isPlain hc), h rest he, upper_plain hc]
  rfl

theorem spellsWord_plain : ∀ {word : List Char}, (∀ c ∈ word, isPlain c = true) → SpellsWord word word
  | [], _ => .nil
  | _ :: _, h => .plain (h _ List.mem_cons_self) (spellsWord_plain fun d hd => h d (List.mem_cons_of_mem _ hd))

/-! ## Spellings -/

structure Spells (text : List Char) (ks : List Lexeme) : Prop where
  head : ∃ c cs, text = c :: cs ∧ isBlank c = false
  reads : ∀ fresh rest, endsWord rest = true → Reads fresh (text ++ rest) ks rest

theorem spells_bare {text word : List Char} {k : Lexeme} (h : SpellsWord text word) (hne : word ≠ [])
    (hk : bareWord word = .ok k) : Spells text [k] := by
  have hend : k.endsLine = false := by
    rcases bareWord_cases hk with ⟨n, rfl⟩ | ⟨x, rfl⟩ | rfl <;> rfl
  cases text with
  | nil => exact absurd (congrArg Prod.fst (h [] rfl)).symm hne
  | cons c cs =>
    have hread (rest : List Char) (he : endsWord rest = true) : readWord (c :: (cs ++ rest)) = (word, cs.length + 1) :=
      h rest he
    constructor
    · refine ⟨c, cs, rfl, ?_⟩
      rcases isWordChar_or_of_readWord (hread [] rfl) with hc | ⟨rfl, -⟩
      · unfold isBlank
        rw [Bool.or_eq_false_iff]
        constructor
        all_goals
          refine beq_false_of_ne ?_
          rintro rfl
          exact absurd hc (by decide)
      · decide
    · intro fresh rest he
      have hstep := step_of_readWord fresh 0 (hread rest he)
      rw [hk] at hstep
      have hreads := Reads.of_step hstep hend
      rw [List.drop_left] at hreads
      exact hreads

theorem spells_var {text word : List Char} (h : SpellsWord text word) :
    Spells (':' :: text) [.var (String.ofList word)] where
  head := ⟨':', text, rfl, by decide⟩
  reads := by
    intro fresh rest he
    have hstep := step_var_eq fresh 0 (text ++ rest)
    rw [h rest he] at hstep
    have hreads := Reads.of_step hstep rfl
    rw [List.drop_left] at hreads
    exact hreads

theorem spells_word {text word : List Char} (h : SpellsWord text word) :
    Spells ('"' :: text) [.word (String.ofList word)] where
  head := ⟨'"', text, rfl, by decide⟩
  reads := by
    intro fresh rest he
    have hstep := step_word_eq fresh 0 (text ++ rest)
    rw [h rest he] at hstep
    have hreads := Reads.of_step hstep rfl
    rw [List.drop_left] at hreads
    exact hreads

theorem comparison_endsWord (alone withEqual : Operator) {rest : List Char} (he : endsWord rest = true) :
    comparison alone withEqual rest = ⟨some (.op alone), 0⟩ := by
  cases rest with
  | nil => rfl
  | cons c rest =>
    rw [comparison_cons, if_neg]
    rintro rfl
    exact absurd he Bool.false_ne_true

theorem spells_op (op : Operator) : Spells op.symbol.toList [.op op] where
  head := by cases op <;> exact ⟨_, _, rfl, by decide⟩
  reads := by
    intro fresh rest he
    cases op with
    | less =>
      have hstep := step_less_eq fresh 0 rest
      rw [comparison_endsWord _ _ he] at hstep
      exact .of_step hstep rfl
    | greater =>
      have hstep := step_greater_eq fresh 0 rest
      rw [comparison_endsWord _ _ he] at hstep
      exact .of_step hstep rfl
    | lessEq | greaterEq => exact .of_step (n := 1) rfl rfl
    | _ => exact .of_step (n := 0) rfl rfl

theorem Spells.after_blank {text : List Char} {ks : List Lexeme} (h : Spells text ks) {rest : List Char}
    (he : endsWord rest = true) : Reads false (' ' :: text ++ rest) (.blank :: ks) rest := by
  obtain ⟨c, cs, rfl, hc⟩ := h.head
  have hstep : step false 0 ' ' (c :: cs ++ rest) = .ok ⟨some .blank, 0⟩ := by
    change Except.ok (⟨some .blank, ((c :: (cs ++ rest)).takeWhile isBlank).length⟩ : Step) = _
    rw [List.takeWhile_cons_of_neg (by rw [hc]; exact Bool.false_ne_true)]
    rfl
  exact (Reads.of_step hstep rfl).trans (h.reads false rest he)

theorem Reads.refl (text : List Char) : Reads false text [] text := by
  unfold Reads
  cases reading false text <;> rfl

theorem spells_bracketed (b : Bracket) {text : List Char} {ks : List Lexeme}
    (h : ∀ rest, endsWord rest = true → Reads false (text ++ rest) ks rest) :
    Spells (b.opening.toList ++ text ++ b.closing.toList) (.opener b :: ks ++ [.closer b]) where
  head := by cases b <;> exact ⟨_, _, rfl, by decide⟩
  reads := by
    intro fresh rest he
    have hopen (text : List Char) : Reads fresh (b.opening.toList ++ text) [.opener b] text := by
      cases b <;> exact .of_step (n := 0) rfl rfl
    have hclose : Reads false (b.closing.toList ++ rest) [.closer b] rest := by
      cases b <;> exact .of_step (n := 0) rfl rfl
    have hends : endsWord (b.closing.toList ++ rest) = true := by cases b <;> rfl
    rw [List.append_assoc, List.append_assoc]
    exact (hopen _).trans ((h _ hends).trans hclose)

/-! ## Items -/

def trail (texts : List String) : List Char := texts.flatMap fun text => ' ' :: text.toList

theorem toList_intercalate_cons (text : String) (texts : List String) :
    (" ".intercalate (text :: texts)).toList = text.toList ++ trail texts := by
  induction texts generalizing text with
  | nil => rw [String.intercalate_singleton, trail, List.flatMap_nil, List.append_nil]
  | cons other texts ih =>
    rw [String.intercalate_cons_cons, String.toList_append, String.toList_append, ih, List.append_assoc]
    rfl

theorem endsWord_trail (texts : List String) {rest : List Char} (he : endsWord rest = true) :
    endsWord (trail texts ++ rest) = true := by
  cases texts with
  | nil => exact he
  | cons text texts => rfl

variable {α : Type} {text : α → String} {kinds : α → List Lexeme}

theorem reads_trail_map {rest : List Char} (he : endsWord rest = true) :
    ∀ {xs : List α}, (∀ x ∈ xs, Spells (text x).toList (kinds x)) →
      Reads false (trail (xs.map text) ++ rest) (xs.flatMap fun x => .blank :: kinds x) rest
  | [], _ => .refl rest
  | x :: xs, h => by
    obtain ⟨hx, hxs⟩ := List.forall_mem_cons.mp h
    have ih := reads_trail_map he hxs
    have hfirst := hx.after_blank (endsWord_trail (xs.map text) he)
    have ht : trail ((x :: xs).map text) ++ rest = ' ' :: (text x).toList ++ (trail (xs.map text) ++ rest) := by
      rw [List.map_cons, trail, List.flatMap_cons, List.append_assoc]
      rfl
    rw [ht, List.flatMap_cons]
    exact hfirst.trans ih

/-- Texts that are spellings, of which there is one at least, with a blank between each two. -/
theorem reads_intercalate_map (fresh : Bool) {x : α} {xs : List α} (h : ∀ y ∈ x :: xs, Spells (text y).toList (kinds y))
    {rest : List Char} (he : endsWord rest = true) :
    Reads fresh ((" ".intercalate ((x :: xs).map text)).toList ++ rest) (kinds x ++ xs.flatMap fun y => .blank :: kinds y)
      rest := by
  obtain ⟨hx, hxs⟩ := List.forall_mem_cons.mp h
  rw [List.map_cons, toList_intercalate_cons, List.append_assoc]
  exact (hx.reads fresh _ (endsWord_trail (xs.map text) he)).trans (reads_trail_map he hxs)

/-! ## From what is read to the tokens -/

theorem reading_nil (fresh : Bool) : reading fresh [] = .ok [] := by
  rw [reading, scan_nil]
  rfl

theorem Reads.to_end {fresh : Bool} {text : List Char} {ks : List Lexeme} (h : Reads fresh text ks []) :
    reading fresh text = .ok ks := by
  rw [Reads, reading_nil] at h
  rw [h]
  exact congrArg Except.ok (List.append_nil ks)

theorem exists_scan_of_reading {fresh : Bool} {text : List Char} {ks : List Lexeme} (h : reading fresh text = .ok ks) :
    ∃ ts, scan fresh 0 text = .ok ts ∧ ts.map Token.kind = ks := by
  unfold reading at h
  cases hscan : scan fresh 0 text with
  | error e =>
    rw [hscan] at h
    cases h
  | ok ts =>
    rw [hscan] at h
    exact ⟨ts, rfl, Except.ok.inj h⟩

theorem tokenize_of_reading {line : String} {ks : List Lexeme} (h : reading true line.toList = .ok ks)
    (hopen : ∀ k ∈ ks, k.endsLine = false) :
    ∃ ts, tokenize line = .ok (ts ++ [⟨.lineEnd, line.toList.length⟩]) ∧ ts.map Token.kind = ks := by
  obtain ⟨ts, hscan, rfl⟩ := exists_scan_of_reading h
  have hclosed : isClosed ts = false := by
    unfold isClosed
    cases hlast : ts.getLast? with
    | none => rfl
    | some t => exact hopen _ (List.mem_map_of_mem (List.mem_of_getLast? hlast))
  refine ⟨ts, ?_, rfl⟩
  rw [tokenize_eq, hscan]
  simp only [bind, Except.bind, hclosed, Bool.false_eq_true, if_false]

end Lexer

open Lexer

namespace Node

theorem texts_eq_map (quoted : Bool) : ∀ items : List Node, texts quoted items = items.map (text quoted)
  | [] => rfl
  | item :: items => by rw [texts, List.map_cons, texts_eq_map quoted items]

theorem following_eq_flatMap : ∀ items : List Node, following items = items.flatMap fun item => .blank :: item.lexemes
  | [] => rfl
  | item :: items => by rw [following, List.flatMap_cons, following_eq_flatMap items]

def Spelled (n : Node) : Prop := Spells (n.text true).toList n.lexemes

theorem reads_trail {items : List Node} (h : ∀ item ∈ items, item.Spelled) {rest : List Char}
    (he : endsWord rest = true) : Reads false (trail (texts true items) ++ rest) (following items) rest := by
  rw [texts_eq_map, following_eq_flatMap]
  exact reads_trail_map he h

theorem reads_items_cons (fresh : Bool) {item : Node} {items : List Node} (h : ∀ n ∈ item :: items, n.Spelled)
    {rest : List Char} (he : endsWord rest = true) :
    Reads fresh ((" ".intercalate (texts true (item :: items))).toList ++ rest) (following (item :: items)).tail rest := by
  rw [texts_eq_map, following_eq_flatMap, List.flatMap_cons]
  exact reads_intercalate_map fresh h he

theorem reads_items {items : List Node} (h : ∀ item ∈ items, item.Spelled) {rest : List Char}
    (he : endsWord rest = true) :
    Reads false ((" ".intercalate (texts true items)).toList ++ rest) (following items).tail rest := by
  cases items with
  | nil => exact .refl rest
  | cons item items => exact reads_items_cons false h he

/-! ## Every canonical node -/

theorem spelled_num {x : Float} (digits : (numberText x).toList.all fun c => c.isDigit || c == '.')
    (reads : (numeral x).number? = some x) : (Node.num x).Spelled := by
  have hplain : ∀ c ∈ (numberText x).toList, isPlain c := by
    intro c hc
    have h := List.all_eq_true.mp digits c hc
    unfold isPlain
    simp only [Bool.or_eq_true] at *
    grind
  cases hx : bareWord (numberText x).toList with
  | error e =>
    rw [numeral, hx] at reads
    cases reads
  | ok k =>
    have hk : numeral x = k := by rw [numeral, hx]
    have hne : (numberText x).toList ≠ [] := by
      intro hnil
      rw [hnil] at hx
      cases hx
      rw [hk] at reads
      cases reads
    unfold Spelled
    rw [lexemes, text, hk]
    exact spells_bare (spellsWord_plain hplain) hne hx

theorem spelled_call {s : String} (plain : s.toList.all isPlain) (nonempty : s ≠ "")
    (name : Numeral.read? 'E' s.toList = none) : (Node.call s).Spelled := by
  have hword : bareWord s.toList = .ok (.name s) := by rw [bareWord, name, String.ofList_toList]
  unfold Spelled
  rw [lexemes, text]
  exact spells_bare (spellsWord_plain (List.all_eq_true.mp plain)) (String.toList_eq_nil_iff.not.mpr nonempty) hword

theorem spelled_word {s : String} (plain : s.toList.all isPlain) : (Node.word s).Spelled := by
  have h := spells_word (spellsWord_plain (List.all_eq_true.mp plain))
  rw [String.ofList_toList] at h
  unfold Spelled
  rw [lexemes, text, if_pos rfl, String.toList_append]
  exact h

theorem spelled_var {s : String} (plain : s.toList.all isPlain) : (Node.var s).Spelled := by
  have h := spells_var (spellsWord_plain (List.all_eq_true.mp plain))
  rw [String.ofList_toList] at h
  unfold Spelled
  rw [lexemes, text, String.toList_append]
  exact h

theorem spelled_neg {operand : Node} (h : operand.Spelled) : (Node.neg operand).Spelled := by
  unfold Spelled
  rw [lexemes, text, String.toList_append]
  constructor
  · exact ⟨'-', _, rfl, by decide⟩
  · intro fresh rest he
    have hminus : Reads fresh ('-' :: ((operand.text true).toList ++ rest)) [.op .minus]
        ((operand.text true).toList ++ rest) := .of_step (n := 0) rfl rfl
    exact hminus.trans (h.reads false rest he)

theorem spelled_binary {op : Operator} {left right : Node} (hl : left.Spelled) (hr : right.Spelled) :
    (Node.binary op left right).Spelled := by
  have ht : ((Node.binary op left right).text true).toList =
      (left.text true).toList ++ (' ' :: op.symbol.toList ++ (' ' :: (right.text true).toList)) := by
    simp only [text, String.toList_append, List.append_assoc]
    rfl
  unfold Spelled
  rw [ht, lexemes]
  constructor
  · obtain ⟨c, cs, hc, hb⟩ := hl.head
    exact ⟨c, _, by rw [hc, List.cons_append], hb⟩
  · intro fresh rest he
    rw [List.append_assoc, List.append_assoc]
    have hright := hr.after_blank he
    have hop : Reads false (' ' :: op.symbol.toList ++ (' ' :: (right.text true).toList ++ rest)) [.blank, .op op]
        (' ' :: (right.text true).toList ++ rest) := (spells_op op).after_blank rfl
    exact (hl.reads fresh _ rfl).trans (hop.trans hright)

theorem spelled_group {items : List Node} (h : ∀ item ∈ items, item.Spelled) : (Node.group items).Spelled := by
  unfold Spelled
  rw [text, String.toList_append, String.toList_append, lexemes]
  exact spells_bracketed .round fun rest he => reads_items h he

theorem spelled_variadic {op : Operator} {operands : List Node} (h : ∀ item ∈ operands, item.Spelled) :
    (Node.group [.nary op operands]).Spelled := by
  unfold Spelled
  rw [text, texts, texts, String.intercalate_singleton, text, String.toList_append, String.toList_append,
    toList_intercalate_cons, lexemes_variadic]
  refine spells_bracketed .round fun rest he => ?_
  have hop := (spells_op op).reads false _ (endsWord_trail (texts true operands) he)
  rw [List.append_assoc]
  exact hop.trans (reads_trail h he)

theorem texts_unquoted {items : List Node} (h : ∀ item ∈ items, item.Canonical) (hw : ∀ item ∈ items, item.isWord = false) :
    texts false items = texts true items := by
  induction items with
  | nil => rfl
  | cons item items ih =>
    obtain ⟨hitem, hitems⟩ := List.forall_mem_cons.mp h
    obtain ⟨hword, hwords⟩ := List.forall_mem_cons.mp hw
    rw [texts, texts, hitem.text_unquoted hword, ih hitems hwords]

theorem spelled_list {items : List Node} (h : ∀ item ∈ items, item.Canonical)
    (hw : ∀ item ∈ items, item.isWord = false) (hs : ∀ item ∈ items, item.Spelled) : (Node.list items).Spelled := by
  unfold Spelled
  rw [text, texts_unquoted h hw, String.toList_append, String.toList_append, lexemes]
  exact spells_bracketed .square fun rest he => reads_items hs he

/-- The text of every canonical node says its lexemes. -/
theorem Canonical.spelled {n : Node} (h : n.Canonical) : n.Spelled := by
  induction h with
  | num digits reads => exact spelled_num digits reads
  | word plain => exact spelled_word plain
  | var plain => exact spelled_var plain
  | call plain nonempty name => exact spelled_call plain nonempty name
  | neg _ _ ih => exact spelled_neg ih
  | binary _ _ _ _ _ ihl ihr => exact spelled_binary ihl ihr
  | list h noWord ih => exact spelled_list h noWord ih
  | group _ ih => exact spelled_group ih
  | variadic _ _ ih => exact spelled_variadic ih

theorem reading_display {items : List Node} (h : ∀ item ∈ items, item.Canonical) :
    reading true (Node.line items).display.toList = .ok (following items).tail := by
  rw [display, text]
  cases items with
  | nil => exact reading_nil true
  | cons item items =>
    have hreads : Reads true _ _ [] := reads_items_cons true (fun n hm => (h n hm).spelled) rfl
    rw [List.append_nil] at hreads
    exact hreads.to_end

end Node

end TurtleLogo
