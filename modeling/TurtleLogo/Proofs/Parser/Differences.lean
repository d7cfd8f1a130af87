import TurtleLogo.Proofs.Parser.Locality
import TurtleLogo.Proofs.Parser.Printed

/-!
# Differences and negations

Operands with a minus between each two. A minus with a blank before it and none behind it leans on the operand that
follows: it begins a new expression there, and changes the sign of its first operand. Every other minus takes the operand
that follows from what is before it.

* `Term` : a number, a variable or a group, `Dash` : a minus with a blank or none on each side;
* `segments` : operands, cut before each one that a minus leans on, `differences` : the expression of each segment;
* `readPrimary_of_parseLine` : brackets that are a line of their own are one operand, up to the last bracket;
* `parseLine_minuses` : the expressions of a line of operands with a minus between each two.
-/

namespace TurtleLogo

open Parsing

/-! ## Operands and minuses -/

/-- A number, a variable, or tokens in round brackets that read as one group. -/
inductive Term where
  | integer (value : Int) (col : Nat)
  | float (value : Float) (col : Nat)
  | var (name : String) (col : Nat)
  | group (col : Nat) (inner : List Token) (col' : Nat) (items : List Node)
      (reads : parseLine (⟨.opener .round, col⟩ :: (inner ++ [⟨.closer .round, col'⟩])) = .ok [.group items])

namespace Term

def tokens : Term → List Token
  | integer n col => [⟨.integer n, col⟩]
  | float x col => [⟨.float x, col⟩]
  | var name col => [⟨.var name, col⟩]
  | group col inner col' _ _ => ⟨.opener .round, col⟩ :: (inner ++ [⟨.closer .round, col'⟩])

/-- What an operand stands for. A whole number beyond the range of numbers is an error. -/
def node : Term → Except ParseError Node
  | integer n col => ((Number.ofInt? n).map Node.num).elim (.error (.tooLarge ⟨.integer n, col⟩)) .ok
  | float x _ => .ok (.num x)
  | var name _ => .ok (.var name)
  | group _ _ _ items _ => .ok (.group items)

end Term

/-- A minus, with the columns of the blank before it and of the blank behind it if there are any. -/
structure Dash where
  before : Option Nat
  col : Nat
  after : Option Nat

namespace Dash

def tokens (d : Dash) : List Token :=
  d.before.toList.map (⟨.blank, ·⟩) ++ ⟨.op .minus, d.col⟩ :: d.after.toList.map (⟨.blank, ·⟩)

/-- Whether a minus leans on the operand that follows: a blank stands before it and none behind it. -/
def leans (d : Dash) : Bool := d.before.isSome && d.after.isNone

end Dash

/-- The tokens of minuses with an operand after each. -/
def dashTokens (links : List (Dash × Term)) : List Token := links.flatMap fun p => p.1.tokens ++ p.2.tokens

/-- An operand, and those that are taken from it. -/
structure Segment where
  first : Node
  others : List Node

namespace Segment

def difference (s : Segment) : Node := s.others.foldl (.binary .minus) s.first

def negated (s : Segment) : Segment := { s with first := .neg s.first }

end Segment

/-- Operands cut before each one that a minus leans on. -/
def segments (first : Node) : List (Dash × Node) → List Segment
  | [] => [⟨first, []⟩]
  | (d, e) :: links =>
    if d.leans then ⟨first, []⟩ :: segments e links
    else (segments e links).modifyHead fun s => ⟨first, s.first :: s.others⟩

/-- The expressions of segments: all but the first begin with a negation. -/
def differences : List Segment → List Node
  | [] => []
  | s :: segments => s.difference :: segments.map fun s => s.negated.difference

/-! ## Segments -/

theorem exists_segments (links : List (Dash × Node)) :
    ∃ others more, ∀ first, segments first links = ⟨first, others⟩ :: more := by
  cases links with
  | nil => exact ⟨[], [], fun _ => rfl⟩
  | cons p links =>
    obtain ⟨d, e⟩ := p
    cases hd : d.leans with
    | true => exact ⟨[], segments e links, fun first => if_pos hd⟩
    | false =>
      obtain ⟨others, more, h⟩ := exists_segments links
      refine ⟨e :: others, more, fun first => ?_⟩
      rw [segments, if_neg (by simp [hd]), h]
      rfl

/-- A minus that leans on its operand begins a new segment. -/
theorem differences_leaning {d : Dash} (h : d.leans = true) (first e : Node) (links : List (Dash × Node)) :
    differences (segments first ((d, e) :: links)) = first :: differences (segments (.neg e) links) := by
  obtain ⟨others, more, hsegments⟩ := exists_segments links
  rw [segments, if_pos h, hsegments, hsegments]
  rfl

/-- Any other minus takes its operand from what is before it. -/
theorem differences_joining {d : Dash} (h : d.leans = false) (first e : Node) (links : List (Dash × Node)) :
    differences (segments first ((d, e) :: links)) = differences (segments (.binary .minus first e) links) := by
  obtain ⟨others, more, hsegments⟩ := exists_segments links
  rw [segments, if_neg (by simp [h]), hsegments, hsegments]
  rfl

namespace Parsing

/-! ## Groups -/

/-- Tokens that read as no expression hold no bracket. -/
theorem kind_ne_closer {ts : List Token} (h : parseLine ts = .ok []) {t : Token} (ht : t ∈ ts) (b : Bracket) :
    t.kind ≠ .closer b := by
  intro hb
  have hspace : t.isSpace = false := by rw [Token.isSpace, hb]; rfl
  obtain ⟨rest, ⟨used, rfl, hused⟩, hrest⟩ := parseLine_spends ts [] h
  rcases List.mem_append.mp ht with ht | ht
  · have hmem : t.kind ∈ said used := List.mem_map_of_mem (List.mem_filter.mpr ⟨ht, by simp [hspace]⟩)
    have hleaf := List.flatMap_eq_nil_iff.mp hused.leaves _ hmem
    rw [hb] at hleaf
    cases hleaf
  · rcases rest with _ | ⟨u, more⟩
    · cases ht
    · obtain ⟨hend, hmore⟩ := hrest u more rfl
      rcases List.mem_cons.mp ht with rfl | ht
      · rw [hb] at hend
        cases hend
      · rw [hmore t ht] at hspace
        cases hspace

/-- A rest without closing brackets of tokens that end with one is empty. -/
theorem eq_nil_of_suffix {ts rest : List Token} {t : Token} {b : Bracket} (hb : t.kind = .closer b)
    (hsuffix : rest <:+ ts ++ [t]) (h : ∀ u ∈ rest, u.kind ≠ .closer b) : rest = [] := by
  rcases List.suffix_concat_iff.mp hsuffix with hnil | ⟨front, rfl, -⟩
  · exact hnil
  · exact (h t (List.mem_append_right _ List.mem_cons_self) hb).elim

theorem readClimb_cases (floor : Nat) (left : Node) (ts : List Token) :
    Gives (readClimb floor left ts) fun r => (r.1 = left ∧ skipSpaces r.2 = skipSpaces ts) ∨ r.1.isBinary = true := by
  cases hn : startsNegation ts with
  | true =>
    rw [readClimb_of_negation hn]
    exact .ok (.inl ⟨rfl, rfl⟩)
  | false =>
    by_cases hop : ∃ o col rest, skipSpaces ts = ⟨.op o, col⟩ :: rest
    · obtain ⟨o, col, rest, ho⟩ := hop
      have := length_lt_of_skipSpaces ho
      rw [readClimb_of_op hn ho]
      split
      · exact .ok (.inl ⟨rfl, ho.symm⟩)
      · split
        · exact .error _
        · refine .bind (P := fun _ => True) (fun _ _ => trivial) fun read h _ => ?_
          obtain ⟨right, rest'⟩ := read
          have := length_lt_of_readExpression h
          intro r hread
          rcases readClimb_cases floor (.binary o left right) rest' r hread with ⟨hr, -⟩ | hr
          · exact .inr (by rw [hr]; rfl)
          · exact .inr hr
    · rw [readClimb_of_other hn fun o col rest ho => hop ⟨o, col, rest, ho⟩]
      exact .ok (.inl ⟨rfl, skipSpaces_skipSpaces ts⟩)
termination_by ts.length

/-- A group that is a line of its own is a primary that is read up to the bracket at its end. -/
theorem readPrimary_of_parseLine {front : List Token} {last : Token} {b : Bracket} (hlast : last.kind = .closer b)
    (hstarts : Starts (front ++ [last])) {items : List Node} (h : parseLine (front ++ [last]) = .ok [.group items]) :
    readPrimary (front ++ [last]) = .ok (.group items, []) := by
  rw [hstarts.parseLine_eq] at h
  obtain ⟨⟨item, rest⟩, hitem, h⟩ := exists_of_bind_ok h
  obtain ⟨others, hothers, h⟩ := exists_of_bind_ok h
  cases h
  have hrest : rest = [] :=
    eq_nil_of_suffix hlast (readExpression_spends 0 _ _ hitem).suffix fun u hu => kind_ne_closer hothers hu b
  rw [readExpression_eq] at hitem
  obtain ⟨⟨first, behind⟩, hfirst, hitem⟩ := exists_of_bind_ok hitem
  -- Only spaces are left behind the first primary, and it is the group, since an operator would make another node.
  have hgroup : first = .group items ∧ skipSpaces behind = [] := by
    dsimp only at hitem
    split at hitem
    · cases hitem
      exact ⟨rfl, by rw [hrest]; rfl⟩
    · rcases readClimb_cases 0 first behind _ hitem with ⟨hnode, hskip⟩ | hbinary
      · exact ⟨hnode.symm, by rw [← hskip, hrest]; rfl⟩
      · cases hbinary
  obtain ⟨rfl, hspaces⟩ := hgroup
  have hbehind : behind = [] := by
    refine eq_nil_of_suffix hlast (readPrimary_spends _ _ hfirst).suffix fun u hu hb => ?_
    have hspace := List.dropWhile_eq_nil_iff.mp hspaces u hu
    rw [Token.isSpace, hb] at hspace
    cases hspace
  rw [hfirst, hbehind]

end Parsing

/-! ## Reading operands -/

namespace Term

theorem starts (t : Term) (rest : List Token) : Starts (t.tokens ++ rest) := by
  cases t <;> exact .operand rfl

theorem startsCall_eq (t : Term) (rest : List Token) : startsCall (t.tokens ++ rest) = false := by
  cases t <;> rfl

theorem isNegatable_eq (t : Term) (rest : List Token) : isNegatable (t.tokens ++ rest) = true := by
  cases t <;> rfl

theorem readPrimary_eq (t : Term) (rest : List Token) :
    readPrimary (t.tokens ++ rest) = t.node >>= fun e => .ok (e, rest) := by
  cases t with
  | integer n col =>
    rw [tokens, List.singleton_append, readPrimary_cons rfl, node]
    dsimp only
    generalize Number.ofInt? n = x
    cases x <;> rfl
  | float x col =>
    rw [tokens, List.singleton_append, readPrimary_cons rfl]
    rfl
  | var name col =>
    rw [tokens, List.singleton_append, readPrimary_cons rfl]
    rfl
  | group col inner col' items reads =>
    have hread := @readPrimary_of_parseLine (⟨.opener .round, col⟩ :: inner) ⟨.closer .round, col'⟩ .round rfl (.operand rfl)
      items reads
    exact readBrackets_append rfl rest _ _ hread trivial

theorem readExpression_eq (t : Term) (floor : Nat) (rest : List Token) :
    readExpression floor (t.tokens ++ rest) = t.node >>= fun e => readClimb floor e rest := by
  rw [Parsing.readExpression_eq, t.readPrimary_eq, (t.starts rest).skipSpaces_eq, t.startsCall_eq]
  cases t.node <;> rfl

end Term

/-! ## Reading minuses -/

theorem startsNegation_dash (d : Dash) (t : Term) (rest : List Token) :
    startsNegation (d.tokens ++ (t.tokens ++ rest)) = d.leans := by
  obtain ⟨_ | before, col, after⟩ := d
  · exact startsNegation_of_not_space _ rfl
  · cases after <;> cases t <;> rfl

/-- The minus that comes next, and what follows it. -/
theorem skipSpaces_dash (d : Dash) (ts : List Token) :
    skipSpaces (d.tokens ++ ts) = ⟨.op .minus, d.col⟩ :: (d.after.toList.map (⟨.blank, ·⟩) ++ ts) := by
  obtain ⟨_ | before, col, after⟩ := d <;> rfl

theorem skipSpaces_after (after : Option Nat) (t : Term) (rest : List Token) :
    skipSpaces (after.toList.map (⟨.blank, ·⟩) ++ (t.tokens ++ rest)) = t.tokens ++ rest := by
  have hs := (t.starts rest).skipSpaces_eq
  cases after with
  | none => exact hs
  | some col => exact hs

/-- A minus that does not lean on its operand takes it away. -/
theorem readClimb_dash {d : Dash} (h : d.leans = false) (left : Node) (t : Term) {rest : List Token} (hstop : Stops 2 rest) :
    readClimb 0 left (d.tokens ++ (t.tokens ++ rest)) =
      t.node >>= fun e => readClimb 0 (.binary .minus left e) rest := by
  rw [readClimb_of_op ((startsNegation_dash d t rest).trans h) (skipSpaces_dash d _), if_neg (by decide),
    skipSpaces_after, (t.starts rest).endsOperand_eq, if_neg Bool.false_ne_true, ← readExpression_skipSpaces,
    skipSpaces_after, t.readExpression_eq]
  simp only [show Operator.minus.level = 2 from rfl, readClimb_of_stops hstop]
  cases t.node with
  | error e => rfl
  | ok e => exact readClimb_settle 0 _ rest

/-- A minus that leans on its operand changes the sign of it. -/
theorem readExpression_dash {d : Dash} (h : d.leans = true) (t : Term) (rest : List Token) :
    readExpression 0 (d.tokens ++ (t.tokens ++ rest)) = t.node >>= fun e => readClimb 0 (.neg e) rest := by
  have hs : skipSpaces (d.tokens ++ (t.tokens ++ rest)) = ⟨.op .minus, d.col⟩ :: (t.tokens ++ rest) := by
    obtain ⟨before, col, _ | after⟩ := d
    · exact skipSpaces_dash _ _
    · cases before <;> cases h
  rw [Parsing.readExpression_eq, readPrimary_cons hs, hs]
  dsimp only
  rw [if_pos ⟨rfl, t.isNegatable_eq rest⟩, t.readPrimary_eq]
  cases t.node <;> rfl

/-- No minus binds an operand tighter than the one before it. -/
theorem stops_dashTokens (links : List (Dash × Term)) {rest : List Token} (hstop : Stops 2 rest) :
    Stops 2 (dashTokens links ++ rest) := by
  cases links with
  | nil => exact hstop
  | cons p links =>
    refine .inr fun o col more hs => ?_
    rw [dashTokens, List.flatMap_cons, List.append_assoc, List.append_assoc, skipSpaces_dash] at hs
    cases hs
    exact Nat.le_refl _

/-! ## The line -/

/-- The expressions of a line, of which the first begins with an operand that has been read. -/
def readOn (left : Node) (ts : List Token) : Except ParseError (List Node) :=
  readClimb 0 left ts >>= fun (item, rest) => parseLine rest >>= fun items => .ok (item :: items)

theorem parseLine_term (t : Term) (rest : List Token) :
    parseLine (t.tokens ++ rest) = t.node >>= fun e => readOn e rest := by
  rw [(t.starts rest).parseLine_eq, t.readExpression_eq]
  cases t.node <;> rfl

theorem parseLine_dash {d : Dash} (h : d.leans = true) (t : Term) (rest : List Token) :
    parseLine (d.tokens ++ (t.tokens ++ rest)) = t.node >>= fun e => readOn (.neg e) rest := by
  rw [parseLine_cons (skipSpaces_dash d _)]
  dsimp only
  rw [readExpression_dash h]
  cases t.node <;> rfl

theorem readOn_of_stops {rest : List Token} (left : Node) (hstop : Stops 0 rest) :
    readOn left rest = parseLine rest >>= fun items => .ok (left :: items) := by
  rw [readOn, readClimb_of_stops hstop, ← parseLine_settle rest]
  rfl

/-- At a minus that leans on its operand an expression ends. -/
theorem readOn_leaning {d : Dash} (h : d.leans = true) (left : Node) (t : Term) (rest : List Token) :
    readOn left (d.tokens ++ (t.tokens ++ rest)) =
      t.node >>= fun e => readOn (.neg e) rest >>= fun items => .ok (left :: items) := by
  rw [readOn, readClimb_of_negation ((startsNegation_dash d t rest).trans h)]
  show (parseLine (d.tokens ++ (t.tokens ++ rest)) >>= fun items => .ok (left :: items)) = _
  rw [parseLine_dash h]
  cases t.node <;> rfl

/-- At any other minus it goes on. -/
theorem readOn_joining {d : Dash} (h : d.leans = false) (left : Node) (t : Term) {rest : List Token} (hstop : Stops 2 rest) :
    readOn left (d.tokens ++ (t.tokens ++ rest)) = t.node >>= fun e => readOn (.binary .minus left e) rest := by
  rw [readOn, readClimb_dash h left t hstop]
  cases t.node <;> rfl

def dashNodes (links : List (Dash × Term)) : Except ParseError (List (Dash × Node)) :=
  links.mapM fun (d, t) => return (d, ← t.node)

theorem dashNodes_cons (d : Dash) (t : Term) (links : List (Dash × Term)) :
    dashNodes ((d, t) :: links) = t.node >>= fun e => dashNodes links >>= fun es => .ok ((d, e) :: es) := by
  rw [dashNodes, List.mapM_cons]
  dsimp only
  cases t.node <;> rfl

theorem dashTokens_cons (d : Dash) (t : Term) (links : List (Dash × Term)) (rest : List Token) :
    dashTokens ((d, t) :: links) ++ rest = d.tokens ++ (t.tokens ++ (dashTokens links ++ rest)) := by
  rw [dashTokens, List.flatMap_cons, List.append_assoc, List.append_assoc]
  rfl

/-- From an operand on, minuses and operands read as the segments that the operand begins. -/
theorem readOn_dashTokens (left : Node) (links : List (Dash × Term)) {rest : List Token} (hstop : Stops 0 rest)
    (hrest : parseLine rest = .ok []) :
    readOn left (dashTokens links ++ rest) =
      dashNodes links >>= fun es => .ok (differences (segments left es)) := by
  induction links generalizing left with
  | nil =>
    rw [show dashTokens [] ++ rest = rest from rfl, readOn_of_stops left hstop, hrest]
    rfl
  | cons p links ih =>
    obtain ⟨d, t⟩ := p
    rw [dashTokens_cons, dashNodes_cons]
    cases hd : d.leans with
    | false =>
      rw [readOn_joining hd left t (stops_dashTokens links (hstop.mono (Nat.zero_le _)))]
      simp only [ih, ← differences_joining hd, bind_assoc]
      rfl
    | true =>
      rw [readOn_leaning hd left t]
      simp only [ih, bind_assoc]
      cases t.node with
      | error e => rfl
      | ok e =>
        cases dashNodes links with
        | error e => rfl
        | ok es => exact congrArg Except.ok (differences_leaning hd left e es).symm

/-- **Unary and binary minus.** Operands with a minus between each two, whatever blanks stand around each minus, read as
one expression for each segment, where a new segment begins at each operand that a minus leans on: the operands of the
segment taken from its first one from left to right, the first one with its sign changed in all segments but the first.
Nothing but a whole number beyond the range of numbers is an error. -/
theorem parseLine_minuses (first : Term) (links : List (Dash × Term)) (lineEnd : Option Nat) :
    parseLine (first.tokens ++ (dashTokens links ++ lineEnd.toList.map (⟨.lineEnd, ·⟩))) = do
      let e ← first.node
      let es ← dashNodes links
      return differences (segments e es) := by
  have hstop : Stops 0 (lineEnd.toList.map (⟨.lineEnd, ·⟩)) := by
    cases lineEnd with
    | none => exact .inr fun o col ts hs => by cases hs
    | some col => exact .inr fun o col ts hs => by cases hs
  have hend : parseLine (lineEnd.toList.map (⟨.lineEnd, ·⟩)) = .ok [] := by
    cases lineEnd with
    | none =>
      unfold parseLine
      rfl
    | some col =>
      rw [parseLine_cons rfl]
      rfl
  rw [parseLine_term]
  simp only [readOn_dashTokens _ links hstop hend]
  rfl

/-- The line `7-(:A) -(+ :B) - :C`: the second minus leans on its operand, and the third takes `:C` from that. -/
theorem parseLine_minuses_groups :
    parseLine [⟨.integer 7, 0⟩, ⟨.op .minus, 1⟩, ⟨.opener .round, 2⟩, ⟨.var "A", 3⟩, ⟨.closer .round, 5⟩,
        ⟨.blank, 6⟩, ⟨.op .minus, 7⟩, ⟨.opener .round, 8⟩, ⟨.op .plus, 9⟩, ⟨.blank, 10⟩, ⟨.var "B", 11⟩,
        ⟨.closer .round, 13⟩, ⟨.blank, 14⟩, ⟨.op .minus, 15⟩, ⟨.blank, 16⟩, ⟨.var "C", 17⟩, ⟨.lineEnd, 19⟩] =
      .ok [.binary .minus (.num (Float.ofInt 7)) (.group [.var "A"]),
        .binary .minus (.neg (.group [.nary .plus [.var "B"]])) (.var "C")] := by
  have hvar : parseLine [⟨.opener .round, 2⟩, ⟨.var "A", 3⟩, ⟨.closer .round, 5⟩] = .ok [.group [.var "A"]] := by cbv
  have hsum : parseLine [⟨.opener .round, 8⟩, ⟨.op .plus, 9⟩, ⟨.blank, 10⟩, ⟨.var "B", 11⟩, ⟨.closer .round, 13⟩] =
      .ok [.group [.nary .plus [.var "B"]]] := by cbv
  have hseven : Number.ofInt? 7 = some (Float.ofInt 7) := if_pos (by decide +kernel)
  refine (parseLine_minuses (.integer 7 0)
    [(⟨none, 1, none⟩, .group 2 [⟨.var "A", 3⟩] 5 _ hvar),
      (⟨some 6, 7, none⟩, .group 8 [⟨.op .plus, 9⟩, ⟨.blank, 10⟩, ⟨.var "B", 11⟩] 13 _ hsum),
      (⟨some 14, 15, some 16⟩, .var "C" 17)] (some 19)).trans ?_
  simp only [Term.node, hseven, Option.map_some, Option.elim_some]
  rfl

end TurtleLogo
