import Mathlib
import TurtleLogo.Proofs.Lexer.Lines

/-!
# The shape of the tokens of a line

The tokens of a line stand in the order of their columns, each at a character that may begin it, and the last one ends
the line. Blanks say something only between two tokens of one line: none comes first, or behind another, or behind a
token that ends a line.

* `Lexeme.beginsWith` : the characters that a lexeme may begin with;
* `beginsWith_of_step`, `not_blank_of_silent` : what a step begins with, and what it leaves behind blanks or a comment;
* `Scanned.placed`, `Scanned.increasing` : where the tokens stand;
* `Scanned.head`, `Scanned.blanks` : where no blanks stand;
* `Shaped` : all of this together, `tokenize_shaped` : the tokens of every line are of this shape.
-/

namespace TurtleLogo

/-- Whether a lexeme may begin with a character. -/
def Lexeme.beginsWith : Lexeme → Char → Bool
  | .lineEnd, c => c == '\n'
  | .lineCont, c => c == '\\'
  | .blank, c => c == ' ' || c == '\t'
  | .var _, c => c == ':'
  | .word _, c => c == '"'
  | .name _, c | .integer _, c | .float _, c => Lexer.isWordChar c || c == '\\'
  | k, c => k.text.toList.head? == some c

namespace Lexer

/-! ## Steps -/

theorem beginsWith_of_step {fresh : Bool} {col : Nat} {c : Char} {rest : List Char} {s : Step}
    (h : step fresh col c rest = .ok s) {k : Lexeme} (hk : s.lexeme = some k) : k.beginsWith c = true := by
  cases stepped_of_step h with
  | blank hb =>
    cases fresh with
    | true => cases hk
    | false =>
      cases hk
      exact hb
  | lineEnd hc | lineCont hc _ | var hc | word hc =>
    cases hk
    simp [hc, Lexeme.beginsWith]
  | comment _ => cases hk
  | less hc | greater hc =>
    subst hc
    unfold comparison at hk
    split at hk <;> cases hk <;> decide
  | symbol hsymbol =>
    cases hk
    unfold symbol? at hsymbol
    split at hsymbol <;> cases hsymbol <;> decide
  | bare hw hbare =>
    cases hk
    have hbegins : (isWordChar c || c == '\\') = true := by
      rcases isWordChar_or_of_readWord hw with hc | ⟨rfl, -⟩
      · rw [hc, Bool.true_or]
      · decide
    rcases bareWord_cases hbare with ⟨_, rfl⟩ | ⟨_, rfl⟩ | rfl <;> exact hbegins

/-- Behind blanks, and behind a comment, stands no blank. -/
theorem not_blank_of_silent {fresh : Bool} {col : Nat} {c : Char} {rest : List Char} {s : Step}
    (h : step fresh col c rest = .ok s) (hs : s.lexeme = none ∨ s.lexeme = some .blank) :
    ∀ d, (rest.drop s.more).head? = some d → isBlank d = false := by
  have hdrop (p : Char → Bool) {d : Char} (hd : (rest.drop (rest.takeWhile p).length).head? = some d) : p d = false := by
    have hhead := List.head?_dropWhile_not p rest
    rw [drop_takeWhile] at hd
    rw [hd] at hhead
    simpa using hhead
  intro d hd
  cases stepped_of_step h with
  | blank _ => exact hdrop isBlank hd
  | comment _ =>
    obtain rfl : d = '\n' := by simpa using hdrop (· != '\n') hd
    decide
  | less _ | greater _ =>
    unfold comparison at hs
    split at hs <;> rcases hs with hs | hs <;> cases hs
  | symbol hk =>
    unfold symbol? at hk
    split at hk <;> cases hk <;> rcases hs with hs | hs <;> cases hs
  | bare _ hk =>
    rcases bareWord_cases hk with ⟨_, rfl⟩ | ⟨_, rfl⟩ | rfl <;> rcases hs with hs | hs <;> cases hs
  | _ => rcases hs with hs | hs <;> cases hs

/-! ## Columns -/

variable {fresh : Bool} {col : Nat} {text : List Char} {ts : List Token}

theorem Scanned.placed (h : Scanned fresh col text ts) :
    ∀ t ∈ ts, ∃ i c, t.col = col + i ∧ text[i]? = some c ∧ t.kind.beginsWith c = true := by
  induction h with
  | nil => simp
  | @cons fresh col c rest s tokens hs _ ih =>
    intro t htoken
    rcases List.mem_append.mp htoken with hfirst | hmore
    · obtain ⟨k, hk, rfl⟩ := Option.map_eq_some_iff.mp (Option.mem_toList.mp hfirst)
      exact ⟨0, c, rfl, rfl, beginsWith_of_step hs hk⟩
    · obtain ⟨i, d, hcol, hd, hbegins⟩ := ih t hmore
      rw [List.getElem?_drop] at hd
      exact ⟨s.more + i + 1, d, by omega, hd, hbegins⟩

theorem Scanned.increasing (h : Scanned fresh col text ts) : ts.Pairwise (·.col < ·.col) := by
  induction h with
  | nil => exact .nil
  | @cons fresh col c rest s tokens hs ht ih =>
    cases hk : s.lexeme with
    | none => exact ih
    | some k =>
      refine List.pairwise_cons.mpr ⟨fun t htoken => ?_, ih⟩
      obtain ⟨i, _, hcol, -, -⟩ := ht.placed t htoken
      show col < t.col
      omega

/-! ## Blanks -/

/-- At the begin of a line, and before text that begins with no blank, the first token is no blank. -/
theorem Scanned.head (h : Scanned fresh col text ts) :
    (fresh = true ∨ ∀ c, text.head? = some c → isBlank c = false) → ∀ t, ts.head? = some t → t.kind ≠ .blank := by
  induction h with
  | nil => simp
  | @cons fresh col c rest s tokens hs _ ih =>
    intro hstart t htoken hkind
    cases hk : s.lexeme with
    | none =>
      rw [hk] at htoken
      exact ih (.inr (not_blank_of_silent hs (.inl hk))) t htoken hkind
    | some k =>
      rw [hk] at htoken
      cases htoken
      obtain rfl : k = .blank := hkind
      have hblank : isBlank c = true := beginsWith_of_step hs hk
      rcases hstart with rfl | hhead
      · rw [step_blank_eq true col hblank] at hs
        cases hs
        cases hk
      · rw [hhead c rfl] at hblank
        cases hblank

/-- Blanks stand behind no blanks, and behind no token that ends a line. -/
theorem Scanned.blanks (h : Scanned fresh col text ts) :
    ts.IsChain fun t u => u.kind = .blank → t.kind ≠ .blank ∧ t.kind.endsLine = false := by
  induction h with
  | nil => exact .nil
  | @cons fresh col c rest s tokens hs ht ih =>
    cases hk : s.lexeme with
    | none => exact ih
    | some k =>
      refine List.isChain_cons.mpr ⟨fun u hu hblank => ⟨?_, ?_⟩, ih⟩
      · rintro rfl
        exact ht.head (.inr (not_blank_of_silent hs (.inr hk))) u hu hblank
      · rw [Bool.eq_false_iff]
        intro hend
        have hfresh : s.endsLine = true := by
          rw [Step.endsLine, hk]
          exact hend
        exact ht.head (.inl hfresh) u hu hblank

end Lexer

/-! ## Lines -/

open Lexer

structure Shaped (text : List Char) (ts : List Token) : Prop where
  /-- The last token ends the line. -/
  ended : ∃ t, ts.getLast? = some t ∧ t.kind.endsLine = true
  head : ∀ t, ts.head? = some t → t.kind ≠ .blank
  /-- Blanks do not come directly behind blanks, or behind a token that ends a line. -/
  blanks : ts.IsChain fun t u => u.kind = .blank → t.kind ≠ .blank ∧ t.kind.endsLine = false
  increasing : ts.Pairwise (·.col < ·.col)
  within : ∀ t ∈ ts, t.col ≤ text.length
  /-- Each token stands at a character that may begin it, but for a line end that is put behind the line. -/
  placed : ∃ own, (ts = own ∨ ts = own ++ [⟨.lineEnd, text.length⟩]) ∧
    ∀ t ∈ own, ∃ c, text[t.col]? = some c ∧ t.kind.beginsWith c = true

/-- **The tokens of every line are of this shape.** -/
theorem tokenize_shaped {line : String} {ts : List Token} (h : tokenize line = .ok ts) : Shaped line.toList ts := by
  have hclosed := isClosed_tokenize h
  obtain ⟨raw, hraw, hts⟩ := tokenize_ok h
  have hscanned := scanned_of_scan hraw
  have hcases : ts = raw ∨ ts = raw ++ [⟨.lineEnd, line.toList.length⟩] := by
    rw [hts]
    split
    · exact .inl rfl
    · exact .inr rfl
  have hplaced : ∀ t ∈ raw, ∃ c, line.toList[t.col]? = some c ∧ t.kind.beginsWith c = true := by
    intro t htoken
    obtain ⟨i, c, hcol, hc, hbegins⟩ := hscanned.placed t htoken
    rw [Nat.zero_add] at hcol
    exact ⟨c, by rw [hcol]; exact hc, hbegins⟩
  have hbelow : ∀ t ∈ raw, t.col < line.toList.length := by
    intro t htoken
    obtain ⟨c, hc, -⟩ := hplaced t htoken
    exact (List.getElem?_eq_some_iff.mp hc).1
  have hhead := hscanned.head (.inl rfl)
  have hblanks := hscanned.blanks
  have hincreasing := hscanned.increasing
  clear h hts
  refine ⟨?ended, ?head, ?blanks, ?increasing, ?within, raw, hcases, hplaced⟩
  case ended =>
    rw [isClosed] at hclosed
    cases hlast : ts.getLast? with
    | none =>
      rw [hlast] at hclosed
      cases hclosed
    | some t =>
      rw [hlast] at hclosed
      exact ⟨t, rfl, hclosed⟩
  case head =>
    rcases hcases with rfl | rfl
    · exact hhead
    · intro t ht
      cases raw with
      | nil =>
        cases ht
        exact nofun
      | cons u raw => exact hhead t ht
  case blanks =>
    rcases hcases with rfl | rfl
    · exact hblanks
    · refine List.isChain_append.mpr ⟨hblanks, .singleton _, fun t _ u hu hblank => ?_⟩
      cases hu
      cases hblank
  case increasing =>
    rcases hcases with rfl | rfl
    · exact hincreasing
    · refine List.pairwise_append.mpr ⟨hincreasing, List.pairwise_singleton _ _, fun t ht u hu => ?_⟩
      obtain rfl := List.mem_singleton.mp hu
      exact hbelow t ht
  case within =>
    intro t ht
    rcases hcases with rfl | rfl
    · exact (hbelow t ht).le
    · rcases List.mem_append.mp ht with ht | ht
      · exact (hbelow t ht).le
      · obtain rfl := List.mem_singleton.mp ht
        exact Nat.le_refl _

/-- Two physical lines with blanks at every border, a comment and a continuation. -/
theorem tokenize_shaped_two_lines :
    let line := "  FD :X ;up\n  \"\\; <= \\"
    let ts : List Token := [⟨.name "FD", 2⟩, ⟨.blank, 4⟩, ⟨.var "X", 5⟩, ⟨.blank, 7⟩, ⟨.lineEnd, 11⟩, ⟨.word ";", 14⟩,
      ⟨.blank, 17⟩, ⟨.op .lessEq, 18⟩, ⟨.blank, 20⟩, ⟨.lineCont, 21⟩]
    tokenize line = .ok ts ∧ Shaped line.toList ts := by
  intro line ts
  have hts : tokenize line = .ok ts := by cbv
  exact ⟨hts, tokenize_shaped hts⟩

end TurtleLogo
