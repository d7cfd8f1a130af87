import TurtleLogo.Proofs.Lexer.Printed
import TurtleLogo.Proofs.Number.Numerals

/-!
# Scanning undoes spelling

Every character but a line end may stand in a name or a word, behind a backslash if it is not plain. Spelled so, and with
blanks between them, lexemes are read back one by one, whichever of them are neighbours.

* `escaped` : a word with its backslashes, `spellsWord_escaped` : it is read as the word;
* `Lexeme.spelling` : how a lexeme is spelled;
* `Lexeme.Spellable` : the lexemes that have a spelling, `Lexeme.Spellable.spells` : it says the lexeme;
* `tokenize_spelling` : the tokens of spelled lexemes are these lexemes.
-/

namespace TurtleLogo

open Number

namespace Lexer

/-! ## Escapes -/

/-- A word as it is spelled, with a backslash before every character that is not plain. -/
def escaped (word : List Char) : List Char :=
  word.flatMap fun c => if isPlain c then [c] else ['\\', c]

/-- A character that comes back as it is when it is escaped: no line end, and its own capital. -/
def isEscapable (c : Char) : Bool := c != '\n' && Text.upper c == [c]

theorem SpellsWord.escape {c : Char} {text word : List Char} (hc : isEscapable c = true) (h : SpellsWord text word) :
    SpellsWord ('\\' :: c :: text) (c :: word) := by
  intro rest he
  rw [isEscapable, Bool.and_eq_true, bne_iff_ne, beq_iff_eq] at hc
  rw [List.cons_append, List.cons_append, readWord_escape hc.1, h rest he, hc.2]
  rfl

theorem spellsWord_escaped : ∀ {word : List Char}, word.all isEscapable = true → SpellsWord (escaped word) word
  | [], _ => .nil
  | c :: word, h => by
    rw [List.all_cons, Bool.and_eq_true] at h
    obtain ⟨hc, hword⟩ := h
    have ih := spellsWord_escaped hword
    rw [escaped, List.flatMap_cons]
    by_cases hplain : isPlain c = true
    · rw [if_pos hplain]
      exact ih.plain hplain
    · rw [if_neg hplain]
      exact ih.escape hc

end Lexer

open Lexer

/-! ## Spellings -/

namespace Lexeme

def spelling : Lexeme → String
  | .name s => String.ofList (escaped s.toList)
  | .var s => String.ofList (':' :: escaped s.toList)
  | .word s => String.ofList ('"' :: escaped s.toList)
  | k => k.text

theorem spelling_integer (n : Nat) : (Lexeme.integer n).spelling = natText n := intText_natCast n

/-- A lexeme that can be spelled: no fraction, and no name that is written like a number. -/
inductive Spellable : Lexeme → Prop
  | op (o : Operator) : Spellable (.op o)
  | opener (b : Bracket) : Spellable (.opener b)
  | closer (b : Bracket) : Spellable (.closer b)
  | leftBrace : Spellable .leftBrace
  | rightBrace : Spellable .rightBrace
  | integer {n : Nat} (h : n < 10 ^ 4300) : Spellable (.integer n)
  | name {s : String} (h : s.toList.all isEscapable) (nonempty : s ≠ "") (notNumeral : ¬IsNumeral s.toList) :
      Spellable (.name s)
  | var {s : String} (h : s.toList.all isEscapable) : Spellable (.var s)
  | word {s : String} (h : s.toList.all isEscapable) : Spellable (.word s)

theorem Spellable.endsLine_eq {k : Lexeme} (h : k.Spellable) : k.endsLine = false := by
  cases h <;> rfl

theorem spells_symbol {c : Char} {k : Lexeme} (hc : symbol? c = some k) : Spells [c] [k] := by
  have hk : isBlank c = false ∧ k.endsLine = false := by
    unfold symbol? at hc
    split at hc <;> cases hc <;> decide
  exact ⟨⟨c, [], rfl, hk.1⟩, fun fresh rest _ => .of_step (step_symbol_eq fresh 0 hc rest) hk.2⟩

theorem spells_integer {n : Nat} (h : n < 10 ^ digitLimit) : Spells (natDigits n) [.integer n] := by
  have hplain : ∀ c ∈ natDigits n, isPlain c = true := by
    intro c hc
    unfold isPlain
    simp only [isDigit_natDigits hc, Bool.or_true, Bool.true_or]
  exact spells_bare (spellsWord_plain hplain) Nat.toDigits_ne_nil (bareWord_natDigits h)

theorem spells_name {s : String} (h : s.toList.all isEscapable) (nonempty : s ≠ "")
    (notNumeral : ¬IsNumeral s.toList) : Spells (escaped s.toList) [.name s] := by
  have hread : Numeral.read? 'E' s.toList = none := by
    rw [← Option.not_isSome_iff_eq_none]
    exact isSome_read?_iff.not.mpr notNumeral
  have hword : bareWord s.toList = .ok (.name s) := by rw [bareWord, hread, String.ofList_toList]
  exact spells_bare (spellsWord_escaped h) (String.toList_eq_nil_iff.not.mpr nonempty) hword

theorem Spellable.spells {k : Lexeme} (h : k.Spellable) : Spells k.spelling.toList [k] := by
  cases h with
  | op o => exact spells_op o
  | opener b => cases b <;> exact spells_symbol rfl
  | closer b => cases b <;> exact spells_symbol rfl
  | leftBrace | rightBrace => exact spells_symbol rfl
  | integer hn =>
    rw [spelling_integer, natText, String.toList_ofList]
    exact spells_integer (by rwa [digitLimit])
  | @name s hs nonempty notNumeral =>
    rw [spelling, String.toList_ofList]
    exact spells_name hs nonempty notNumeral
  | @var s hs =>
    have hspells := spells_var (spellsWord_escaped hs)
    rw [String.ofList_toList] at hspells
    rwa [spelling, String.toList_ofList]
  | @word s hs =>
    have hspells := spells_word (spellsWord_escaped hs)
    rw [String.ofList_toList] at hspells
    rwa [spelling, String.toList_ofList]

end Lexeme

/-! ## Lexemes between blanks -/

theorem intersperse_cons_eq_flatMap {α : Type} (sep x : α) (xs : List α) :
    (x :: xs).intersperse sep = x :: xs.flatMap fun y => [sep, y] := by
  induction xs generalizing x with
  | nil => rfl
  | cons y xs ih =>
    rw [List.intersperse_cons_cons, ih, List.flatMap_cons]
    rfl

/-- **Scanning undoes spelling**: the tokens of spelled lexemes with a blank between each two are these lexemes, with a
blank token between each two, and a line end. -/
theorem tokenize_spelling {ks : List Lexeme} (h : ∀ k ∈ ks, k.Spellable) :
    ∃ ts, tokenize (" ".intercalate (ks.map Lexeme.spelling)) = .ok ts ∧
      ts.map Token.kind = ks.intersperse .blank ++ [.lineEnd] := by
  have hreading : reading true (" ".intercalate (ks.map Lexeme.spelling)).toList = .ok (ks.intersperse .blank) := by
    cases ks with
    | nil => exact reading_nil true
    | cons k ks =>
      have hreads : Reads true ((" ".intercalate ((k :: ks).map Lexeme.spelling)).toList ++ [])
          ([k] ++ ks.flatMap fun y => [.blank, y]) [] := reads_intercalate_map true (fun y hy => (h y hy).spells) rfl
      rw [List.append_nil] at hreads
      rw [intersperse_cons_eq_flatMap]
      exact hreads.to_end
  have hopen : ∀ k ∈ ks.intersperse .blank, k.endsLine = false := by
    cases ks with
    | nil => exact List.forall_mem_nil _
    | cons k ks =>
      obtain ⟨hk, hks⟩ := List.forall_mem_cons.mp h
      rw [intersperse_cons_eq_flatMap, List.forall_mem_cons]
      refine ⟨hk.endsLine_eq, fun j hj => ?_⟩
      obtain ⟨k', hk', hj⟩ := List.mem_flatMap.mp hj
      rcases List.mem_pair.mp hj with rfl | rfl
      · rfl
      · exact (hks j hk').endsLine_eq
  obtain ⟨ts, htokens, hts⟩ := tokenize_of_reading hreading hopen
  refine ⟨_, htokens, ?_⟩
  rw [List.map_append, hts]
  rfl

/-- Blanks, semicolons, quotes, backslashes and capitals of other scripts in names and words, and two operators that would
be one without the blank. -/
theorem tokenize_spelling_escapes :
    (∀ k ∈ ([.name "A B;\"\\", .op .lessEq, .word "", .var ":É", .integer 12, .op .less, .op .equal] : List Lexeme),
        k.Spellable) ∧
      ∃ ts, tokenize "A\\ B\\;\\\"\\\\ <= \" :\\:\\É 12 < =" = .ok ts ∧
        ts.map Token.kind = [.name "A B;\"\\", .blank, .op .lessEq, .blank, .word "", .blank, .var ":É", .blank,
          .integer 12, .blank, .op .less, .blank, .op .equal, .lineEnd] := by
  have hdigits : 12 < 10 ^ 4300 := by
    have hpow (k : Nat) : k < 10 ^ k := Nat.lt_pow_self (by decide)
    exact Nat.lt_trans (by decide) (hpow 4300)
  have hks : ∀ k ∈ ([.name "A B;\"\\", .op .lessEq, .word "", .var ":É", .integer 12, .op .less, .op .equal] :
      List Lexeme), k.Spellable := by
    simp only [List.forall_mem_cons]
    exact ⟨.name (by decide +kernel) (by decide) (by decide), .op _, .word (by decide), .var (by decide +kernel),
      .integer hdigits, .op _, .op _, List.forall_mem_nil _⟩
  have htext : " ".intercalate (([.name "A B;\"\\", .op .lessEq, .word "", .var ":É", .integer 12, .op .less,
      .op .equal] : List Lexeme).map Lexeme.spelling) = "A\\ B\\;\\\"\\\\ <= \" :\\:\\É 12 < =" := by
    decide +kernel
  have htokens := tokenize_spelling hks
  rw [htext] at htokens
  exact ⟨hks, htokens⟩

end TurtleLogo
