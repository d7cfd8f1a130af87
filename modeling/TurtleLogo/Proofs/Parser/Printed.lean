import TurtleLogo.Proofs.Node.Canonical
import TurtleLogo.Proofs.Parser.Equations

/-!
# Parsing what is printed

The lexemes of a canonical node parse back to the node, whatever follows that does not go on with it. An operator that
follows is left alone if it binds no tighter than the node does.

* `Starts` : what the tokens of a canonical node begin with;
* `Stops`, `settle` : tokens that do not go on with an operand, and what an expression leaves of them;
* `Parses` : a node whose tokens parse back to it, `Canonical.parses` : every canonical node;
* `readSequence_following`, `parseLine_following` : items in brackets, and on a line.
-/

namespace TurtleLogo

open Number

/-- Whether a lexeme begins a number, word, variable, call or bracket. -/
def Lexeme.isOperand : Lexeme → Bool
  | .name _ | .var _ | .word _ | .integer _ | .float _ | .opener _ => true
  | _ => false

namespace Parsing

/-- Tokens that say the given lexemes, all at column 0. -/
def unplaced (ks : List Lexeme) : List Token := ks.map (Token.mk · 0)

@[simp] theorem unplaced_nil : unplaced [] = [] := rfl

@[simp] theorem unplaced_cons (k : Lexeme) (ks : List Lexeme) : unplaced (k :: ks) = ⟨k, 0⟩ :: unplaced ks := rfl

@[simp] theorem unplaced_append (ks js : List Lexeme) : unplaced (ks ++ js) = unplaced ks ++ unplaced js :=
  List.map_append

theorem map_kind_unplaced (ks : List Lexeme) : (unplaced ks).map Token.kind = ks := by
  rw [unplaced, List.map_map]
  exact List.map_id _

/-! ## What the tokens of a canonical node begin with -/

inductive Starts : List Token → Prop
  | operand {k : Lexeme} {col : Nat} {ts : List Token} (h : k.isOperand) : Starts (⟨k, col⟩ :: ts)
  | negation {k : Lexeme} {col col' : Nat} {ts : List Token} (h : k.isOperand) :
      Starts (⟨.op .minus, col⟩ :: ⟨k, col'⟩ :: ts)

theorem Starts.append {ts : List Token} (h : Starts ts) (rest : List Token) : Starts (ts ++ rest) := by
  cases h with
  | operand h => exact .operand h
  | negation h => exact .negation h

theorem Starts.skipSpaces_eq {ts : List Token} (h : Starts ts) : skipSpaces ts = ts := by
  cases h with
  | @operand k col ts h => cases k <;> first | rfl | cases h
  | negation h => rfl

theorem Starts.endsOperand_eq {ts : List Token} (h : Starts ts) : endsOperand ts = false := by
  cases h with
  | @operand k col ts h => cases k <;> first | rfl | cases h
  | negation h => rfl

theorem Starts.variadic?_eq {ts : List Token} (h : Starts ts) : variadic? ts = none := by
  cases h with
  | @operand k col ts h => cases k <;> first | rfl | cases h
  | negation h => rfl

theorem Starts.readSequence_eq {ts : List Token} (h : Starts ts) (opener : Token) (bracket : Bracket) :
    readSequence opener bracket ts = readExpression 0 ts >>= fun (item, rest) =>
      readSequence opener bracket rest >>= fun (items, rest') => .ok (item :: items, rest') := by
  have hs := h.skipSpaces_eq
  cases h with
  | @operand k col ts h =>
    rw [readSequence_cons hs]
    cases k <;> first | rfl | cases h
  | negation h => rw [readSequence_cons hs]

theorem Starts.parseLine_eq {ts : List Token} (h : Starts ts) :
    parseLine ts = readExpression 0 ts >>= fun (item, rest) =>
      parseLine rest >>= fun items => .ok (item :: items) := by
  have hs := h.skipSpaces_eq
  cases h with
  | @operand k col ts h =>
    rw [parseLine_cons hs]
    cases k <;> first | rfl | cases h
  | negation h => rw [parseLine_cons hs]

/-! ## What stops an expression -/

/-- Tokens that do not go on with an operand above `level`. -/
def Stops (level : Nat) (ts : List Token) : Prop :=
  startsNegation ts = true ∨ ∀ o col rest, skipSpaces ts = ⟨.op o, col⟩ :: rest → o.level ≤ level

/-- What an expression leaves of the tokens that stop it: spaces are skipped, except before a negation. -/
def settle (ts : List Token) : List Token := if startsNegation ts then ts else skipSpaces ts

theorem Stops.mono {level level' : Nat} {ts : List Token} (h : Stops level ts) (hle : level ≤ level') :
    Stops level' ts := by
  rcases h with hn | ho
  · exact .inl hn
  · exact .inr fun o col rest hs => Nat.le_trans (ho o col rest hs) hle

/-- A blank and the tokens of another node stop every expression. -/
theorem Starts.stops {ts : List Token} (h : Starts ts) (level col : Nat) : Stops level (⟨.blank, col⟩ :: ts) := by
  have hs : skipSpaces (⟨.blank, col⟩ :: ts) = ts := h.skipSpaces_eq
  cases h with
  | @operand k _ _ h =>
    refine .inr fun o col rest ho => ?_
    rw [hs] at ho
    cases ho
    cases h
  | @negation k _ _ _ h =>
    refine .inl ?_
    cases k <;> first | rfl | cases h

theorem stops_of_closer (level : Nat) (bracket : Bracket) (col : Nat) (rest : List Token) :
    Stops level (⟨.closer bracket, col⟩ :: rest) := .inr fun _ _ _ h => nomatch h

theorem readClimb_of_stops {level : Nat} {ts : List Token} (h : Stops level ts) (left : Node) :
    readClimb level left ts = .ok (left, settle ts) := by
  unfold settle
  cases hn : startsNegation ts with
  | true => exact readClimb_of_negation hn
  | false =>
    rcases h with hn' | ho
    · rw [hn] at hn'
      cases hn'
    · by_cases hop : ∃ o col rest, skipSpaces ts = ⟨.op o, col⟩ :: rest
      · obtain ⟨o, col, rest, hs⟩ := hop
        rw [readClimb_of_op hn hs, if_pos (ho o col rest hs), hs]
        rfl
      · exact readClimb_of_other hn fun o col rest hs => hop ⟨o, col, rest, hs⟩

theorem startsNegation_skipSpaces (ts : List Token) : startsNegation (skipSpaces ts) = false := by
  cases h : skipSpaces ts with
  | nil => rfl
  | cons s rest => exact startsNegation_of_not_space rest (isSpace_of_skipSpaces h)

/-- An operand goes on in the same way after the spaces that an inner expression has skipped. -/
theorem readClimb_settle (floor : Nat) (left : Node) (ts : List Token) :
    readClimb floor left (settle ts) = readClimb floor left ts := by
  unfold settle
  cases hn : startsNegation ts with
  | true => rfl
  | false =>
    have hn' := startsNegation_skipSpaces ts
    have hs' := skipSpaces_skipSpaces ts
    by_cases hop : ∃ o col rest, skipSpaces ts = ⟨.op o, col⟩ :: rest
    · obtain ⟨o, col, rest, hs⟩ := hop
      exact (readClimb_of_op hn' (hs'.trans hs)).trans (readClimb_of_op hn hs).symm
    · have hne : ∀ o col rest, skipSpaces ts ≠ ⟨.op o, col⟩ :: rest :=
        fun o col rest hs => hop ⟨o, col, rest, hs⟩
      refine (readClimb_of_other hn' ?_).trans ?_
      · rw [hs']
        exact hne
      · rw [hs', readClimb_of_other hn hne]

theorem readSequence_settle (opener : Token) (bracket : Bracket) (ts : List Token) :
    readSequence opener bracket (settle ts) = readSequence opener bracket ts := by
  unfold settle
  split
  · rfl
  · exact readSequence_skipSpaces opener bracket ts

theorem parseLine_settle (ts : List Token) : parseLine (settle ts) = parseLine ts := by
  unfold settle
  split
  · rfl
  · exact parseLine_skipSpaces ts

end Parsing

open Parsing

/-! ## Nodes -/

namespace Node

def tokens (n : Node) : List Token := unplaced n.lexemes

def isBinary : Node → Bool
  | .binary _ _ _ => true
  | _ => false

/-- A node whose tokens parse back to it: as a primary unless it has an operator, and as an expression, which then goes on
with what follows. -/
structure Parses (n : Node) : Prop where
  starts : Starts n.tokens
  call : ∀ rest, startsCall (n.tokens ++ rest) = n.isCall
  primary : n.isBinary = false → ∀ rest, readPrimary (n.tokens ++ rest) = .ok (n, rest)
  expression : n.isCall = false → ∀ floor rest, floor < n.level → Stops n.level rest →
    readExpression floor (n.tokens ++ rest) = readClimb floor n rest

namespace Parses

variable {n : Node}

theorem of_primary (starts : Starts n.tokens) (call : ∀ rest, startsCall (n.tokens ++ rest) = n.isCall)
    (primary : ∀ rest, readPrimary (n.tokens ++ rest) = .ok (n, rest)) : n.Parses where
  starts := starts
  call := call
  primary := fun _ => primary
  expression := by
    intro hcall floor rest _ _
    rw [readExpression_eq, primary, (starts.append rest).skipSpaces_eq, call, hcall]
    rfl

/-- A node as an operand or as an item: it stops where its operators would have to bind tighter than `floor`. -/
theorem operand (h : n.Parses) {floor : Nat} {rest : List Token} (hf : floor < n.level) (hs : Stops floor rest) :
    ∃ rest', readExpression floor (n.tokens ++ rest) = .ok (n, rest') ∧ (rest' = rest ∨ rest' = settle rest) := by
  cases hcall : n.isCall with
  | true =>
    have hb : n.isBinary = false := by
      cases n <;> first | rfl | cases hcall
    refine ⟨rest, ?_, .inl rfl⟩
    rw [readExpression_eq, h.primary hb, (h.starts.append rest).skipSpaces_eq, h.call, hcall]
    rfl
  | false =>
    refine ⟨settle rest, ?_, .inr rfl⟩
    rw [h.expression hcall floor rest hf (hs.mono (Nat.le_of_lt hf)), readClimb_of_stops hs]

end Parses

theorem level_pos (n : Node) : 0 < n.level := by
  cases n with
  | binary op _ _ => cases op <;> exact Nat.succ_pos _
  | _ => exact Nat.succ_pos _

/-! ## Items -/

theorem readSequence_blank (opener : Token) (bracket : Bracket) (col : Nat) (ts : List Token) :
    readSequence opener bracket (⟨.blank, col⟩ :: ts) = readSequence opener bracket ts := by
  rw [← readSequence_skipSpaces, ← readSequence_skipSpaces opener bracket ts]
  rfl

theorem readExpression_blank (floor col : Nat) (ts : List Token) :
    readExpression floor (⟨.blank, col⟩ :: ts) = readExpression floor ts := by
  rw [← readExpression_skipSpaces, ← readExpression_skipSpaces floor ts]
  rfl

theorem parseLine_blank (col : Nat) (ts : List Token) : parseLine (⟨.blank, col⟩ :: ts) = parseLine ts := by
  rw [← parseLine_skipSpaces, ← parseLine_skipSpaces ts]
  rfl

theorem unplaced_following_cons (item : Node) (items : List Node) (rest : List Token) :
    unplaced (following (item :: items)) ++ rest =
      ⟨.blank, 0⟩ :: (item.tokens ++ (unplaced (following items) ++ rest)) := by
  rw [following, List.cons_append, unplaced_cons, unplaced_append, List.cons_append, List.append_assoc]
  rfl

/-- What follows an item stops it: more items, or what ends them. -/
theorem stops_following {items : List Node} (h : ∀ item ∈ items, item.Parses) {rest : List Token} (hr : Stops 0 rest) :
    Stops 0 (unplaced (following items) ++ rest) := by
  cases items with
  | nil => exact hr
  | cons item items =>
    rw [unplaced_following_cons]
    exact ((h item List.mem_cons_self).starts.append _).stops 0 0

theorem readSequence_following (opener : Token) (bracket : Bracket) (col : Nat) (rest : List Token) :
    ∀ {items : List Node}, (∀ item ∈ items, item.Parses) →
      readSequence opener bracket (unplaced (following items) ++ ⟨.closer bracket, col⟩ :: rest) = .ok (items, rest)
  | [], _ => by
    rw [following, unplaced_nil, List.nil_append, readSequence_cons rfl]
    exact if_pos rfl
  | item :: items, h => by
    obtain ⟨hitem, hitems⟩ := List.forall_mem_cons.mp h
    have ih := readSequence_following opener bracket col rest hitems
    obtain ⟨rest', hread, hrest⟩ :=
      hitem.operand item.level_pos (stops_following hitems (stops_of_closer 0 bracket col rest))
    have hmore : readSequence opener bracket rest' = .ok (items, rest) := by
      rcases hrest with rfl | rfl
      · exact ih
      · rw [readSequence_settle, ih]
    rw [unplaced_following_cons, readSequence_blank, (hitem.starts.append _).readSequence_eq, hread]
    simp only [bind, Except.bind, hmore]

theorem parseLine_following {rest : List Token} (hstop : Stops 0 rest) (hrest : parseLine rest = .ok []) :
    ∀ {items : List Node}, (∀ item ∈ items, item.Parses) →
      parseLine (unplaced (following items) ++ rest) = .ok items
  | [], _ => hrest
  | item :: items, h => by
    obtain ⟨hitem, hitems⟩ := List.forall_mem_cons.mp h
    have ih := parseLine_following hstop hrest hitems
    obtain ⟨rest', hread, hrest'⟩ := hitem.operand item.level_pos (stops_following hitems hstop)
    have hmore : parseLine rest' = .ok items := by
      rcases hrest' with rfl | rfl
      · exact ih
      · rw [parseLine_settle, ih]
    rw [unplaced_following_cons, parseLine_blank, (hitem.starts.append _).parseLine_eq, hread]
    simp only [bind, Except.bind, hmore]

theorem readSequence_tail (opener : Token) (bracket : Bracket) (col : Nat) (rest : List Token) {items : List Node}
    (h : ∀ item ∈ items, item.Parses) :
    readSequence opener bracket (unplaced (following items).tail ++ ⟨.closer bracket, col⟩ :: rest) =
      .ok (items, rest) := by
  rw [← readSequence_following opener bracket col rest h]
  cases items with
  | nil => rfl
  | cons item items => exact (readSequence_blank opener bracket 0 _).symm

theorem parseLine_tail {rest : List Token} (hstop : Stops 0 rest) (hrest : parseLine rest = .ok []) {items : List Node}
    (h : ∀ item ∈ items, item.Parses) : parseLine (unplaced (following items).tail ++ rest) = .ok items := by
  rw [← parseLine_following hstop hrest h]
  cases items with
  | nil => rfl
  | cons item items => exact (parseLine_blank 0 _).symm

/-! ## Every canonical node -/

theorem unplaced_bracketed (opener : Lexeme) (closer : Lexeme) (ks : List Lexeme) (rest : List Token) :
    unplaced (opener :: ks ++ [closer]) ++ rest = ⟨opener, 0⟩ :: (unplaced ks ++ ⟨closer, 0⟩ :: rest) := by
  rw [List.cons_append, unplaced_cons, unplaced_append, List.cons_append, List.append_assoc]
  rfl

theorem isNegatable_tokens {n : Node} (h : n.Canonical) (hn : n.isNegatable) (rest : List Token) :
    Parsing.isNegatable (n.tokens ++ rest) = true := by
  cases h with
  | @num x _ reads =>
    rcases numeral_cases reads with ⟨m, hm, -⟩ | hf
    · rw [tokens, lexemes, hm]
      rfl
    · rw [tokens, lexemes, hf]
      rfl
  | var _ => rfl
  | group _ => rfl
  | variadic _ _ => rfl
  | _ => cases hn

theorem parses_atom {n : Node} {k : Lexeme} (hk : n.lexemes = [k]) (ho : k.isOperand)
    (call : ∀ rest, startsCall (⟨k, 0⟩ :: rest) = n.isCall)
    (primary : ∀ rest, readPrimary (⟨k, 0⟩ :: rest) = .ok (n, rest)) : n.Parses := by
  have ht : n.tokens = [⟨k, 0⟩] := congrArg unplaced hk
  refine .of_primary ?_ ?_ ?_
  · rw [ht]
    exact .operand ho
  · rw [ht]
    exact call
  · rw [ht]
    exact primary

theorem parses_num {x : Float} (reads : (numeral x).number? = some x) : (Node.num x).Parses := by
  have hk : (Node.num x).lexemes = [numeral x] := by rw [lexemes]
  rcases numeral_cases reads with ⟨n, hn, hx⟩ | hf
  · rw [hn] at hk
    refine parses_atom hk rfl (fun _ => rfl) fun rest => ?_
    rw [readPrimary_cons rfl]
    dsimp only
    rw [hx]
  · rw [hf] at hk
    refine parses_atom hk rfl (fun _ => rfl) fun rest => ?_
    rw [readPrimary_cons rfl]

theorem parses_neg {operand : Node} (h : operand.Canonical) (hn : operand.isNegatable) (ih : operand.Parses) :
    (Node.neg operand).Parses := by
  have hb : operand.isBinary = false := by
    cases operand <;> first | rfl | cases hn
  refine .of_primary ?_ (fun _ => rfl) ?_
  · have hneg := isNegatable_tokens h hn []
    rw [List.append_nil] at hneg
    have hs := ih.starts
    rw [tokens, lexemes, unplaced_cons]
    rw [tokens] at hneg hs
    generalize unplaced operand.lexemes = ts at hneg hs
    cases hs with
    | operand h => exact .negation h
    | negation _ => cases hneg
  · intro rest
    rw [tokens, lexemes, unplaced_cons, List.cons_append, readPrimary_cons rfl]
    dsimp only
    rw [if_pos ⟨rfl, isNegatable_tokens h hn rest⟩]
    rw [← tokens, ih.primary hb]
    rfl

theorem parses_list {items : List Node} (h : ∀ item ∈ items, item.Parses) : (Node.list items).Parses := by
  refine .of_primary (.operand rfl) (fun _ => rfl) ?_
  intro rest
  rw [tokens, lexemes, unplaced_bracketed, readPrimary_cons rfl]
  dsimp only
  rw [readSequence_tail _ _ _ _ h]
  rfl

/-- No item begins with an operator that may take any number of operands. -/
theorem variadic?_tail {items : List Node} (h : ∀ item ∈ items, item.Parses) (col : Nat) (rest : List Token) :
    variadic? (skipSpaces (unplaced (following items).tail ++ ⟨.closer .round, col⟩ :: rest)) = none := by
  cases items with
  | nil => rfl
  | cons item items =>
    have hs := (h item List.mem_cons_self).starts.append
      (unplaced (following items) ++ ⟨.closer .round, col⟩ :: rest)
    have ht : unplaced (following (item :: items)).tail ++ ⟨.closer .round, col⟩ :: rest =
        item.tokens ++ (unplaced (following items) ++ ⟨.closer .round, col⟩ :: rest) :=
      congrArg List.tail (unplaced_following_cons item items _)
    rw [ht, hs.skipSpaces_eq, hs.variadic?_eq]

theorem parses_group {items : List Node} (h : ∀ item ∈ items, item.Parses) : (Node.group items).Parses := by
  refine .of_primary (.operand rfl) (fun _ => rfl) ?_
  intro rest
  rw [tokens, lexemes, unplaced_bracketed, readPrimary_cons rfl]
  dsimp only
  rw [variadic?_tail h]
  dsimp only
  rw [readSequence_tail _ _ _ _ h]
  rfl

theorem parses_variadic {op : Operator} {operands : List Node} (h : ∀ item ∈ operands, item.Parses)
    (hop : op.isVariadic) : (Node.group [.nary op operands]).Parses := by
  have hks := lexemes_variadic op operands
  refine .of_primary ?_ ?_ ?_
  · rw [tokens, hks]
    exact .operand rfl
  · intro rest
    rw [tokens, hks]
    rfl
  · intro rest
    have hv (ts : List Token) : variadic? (skipSpaces (⟨.op op, 0⟩ :: ts)) = some (op, ts) := if_pos hop
    rw [tokens, hks, unplaced_bracketed, readPrimary_cons rfl, unplaced_cons, List.cons_append]
    dsimp only
    rw [hv]
    dsimp only
    rw [readSequence_following _ _ _ _ h]
    rfl

/-- An operator between its operands: the left one stops before it, and what stops the whole stops the right one. -/
theorem parses_binary {op : Operator} {left right : Node} (hl : left.Parses) (hr : right.Parses)
    (noCall : left.isCall = false) (left_le : op.level ≤ left.level) (lt_right : op.level < right.level) :
    (Node.binary op left right).Parses := by
  have ht (rest : List Token) : (Node.binary op left right).tokens ++ rest =
      left.tokens ++ ⟨.blank, 0⟩ :: ⟨.op op, 0⟩ :: ⟨.blank, 0⟩ :: (right.tokens ++ rest) := by
    simp only [tokens, lexemes, unplaced_append, unplaced_cons, List.append_assoc, List.cons_append]
  refine ⟨?_, ?_, ?_, ?_⟩
  · rw [tokens, lexemes, unplaced_append]
    exact hl.starts.append _
  · intro rest
    rw [ht, hl.call, noCall]
    rfl
  · intro h
    cases h
  · intro _ floor rest hfloor hstop
    change floor < op.level at hfloor
    change Stops op.level rest at hstop
    have hleft : Stops left.level (⟨.blank, 0⟩ :: ⟨.op op, 0⟩ :: ⟨.blank, 0⟩ :: (right.tokens ++ rest)) := by
      refine .inr fun o col rest' hs => ?_
      cases hs
      exact left_le
    have hneg : startsNegation (⟨.blank, 0⟩ :: ⟨.op op, 0⟩ :: ⟨.blank, 0⟩ :: (right.tokens ++ rest)) = false := by
      simp [startsNegation, Token.isSpace, Lexeme.isSpace]
    have hmore : endsOperand (skipSpaces (⟨.blank, 0⟩ :: (right.tokens ++ rest))) = false := by
      have hs := hr.starts.append rest
      exact (congrArg endsOperand hs.skipSpaces_eq).trans hs.endsOperand_eq
    obtain ⟨rest', hread, hrest⟩ := hr.operand lt_right hstop
    rw [ht, hl.expression noCall floor _ (Nat.lt_of_lt_of_le hfloor left_le) hleft, readClimb_of_op hneg rfl,
      if_neg (Nat.not_le.mpr hfloor), hmore, if_neg Bool.false_ne_true, readExpression_blank, hread]
    rcases hrest with rfl | rfl
    · rfl
    · exact readClimb_settle _ _ _

/-- The tokens of every canonical node parse back to it. -/
theorem Canonical.parses {n : Node} (h : n.Canonical) : n.Parses := by
  induction h with
  | num _ reads => exact parses_num reads
  | word _ | var _ | call _ _ _ =>
    refine parses_atom (by rw [lexemes]) rfl (fun _ => rfl) fun rest => ?_
    rw [readPrimary_cons rfl]
  | neg h negatable ih => exact parses_neg h negatable ih
  | binary _ _ noCall left_le lt_right ihl ihr => exact parses_binary ihl ihr noCall left_le lt_right
  | list _ _ ih => exact parses_list ih
  | group _ ih => exact parses_group ih
  | variadic _ hop ih => exact parses_variadic ih hop

end Node

end TurtleLogo
