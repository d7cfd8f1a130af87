/-!
# Tables

Names with values, in the order in which the names were first given one.

* `Table.find?` : the value of a name;
* `Table.insert` : gives a name a value; a name that has one keeps its place;
* `Table.mapValues` : changes every value.
-/

namespace TurtleLogo

/-- Names with values, each name once. -/
structure Table (α : Type) where
  entries : List (String × α) := []
  deriving DecidableEq

namespace Table

variable {α β : Type}

def names (t : Table α) : List String := t.entries.map (·.1)

def values (t : Table α) : List α := t.entries.map (·.2)

def find? (t : Table α) (name : String) : Option α := t.entries.lookup name

def contains (t : Table α) (name : String) : Bool := (t.find? name).isSome

/-- Puts a value in the place of a name's first entry, or a new entry at the end. -/
def insertEntry (name : String) (value : α) : List (String × α) → List (String × α)
  | [] => [(name, value)]
  | (n, v) :: rest => if name = n then (name, value) :: rest else (n, v) :: insertEntry name value rest

theorem lookup_insertEntry (name other : String) (value : α) (entries : List (String × α)) :
    (insertEntry name value entries).lookup other =
      if other = name then some value else entries.lookup other := by
  induction entries with
  | nil =>
    by_cases h : other = name
    · subst h
      simp [insertEntry]
    · have hb : (other == name) = false := by simpa using h
      simp [insertEntry, List.lookup_cons, hb, h]
  | cons entry rest ih =>
    obtain ⟨n, v⟩ := entry
    by_cases hn : name = n
    · subst hn
      by_cases h : other = name
      · subst h
        simp [insertEntry]
      · have hb : (other == name) = false := by simpa using h
        simp [insertEntry, List.lookup_cons, hb, h]
    · by_cases h : other = n
      · subst h
        have hne : other ≠ name := fun e => hn e.symm
        simp [insertEntry, hn, hne]
      · have hb : (other == n) = false := by simpa using h
        simp [insertEntry, hn, List.lookup_cons, hb, ih]

def insert (t : Table α) (name : String) (value : α) : Table α := ⟨insertEntry name value t.entries⟩

/-- A name that was just given a value has it, and every other name has what it had. -/
theorem find?_insert (t : Table α) (name other : String) (value : α) :
    (t.insert name value).find? other = if other = name then some value else t.find? other :=
  lookup_insertEntry name other value t.entries

theorem mem_insertEntry {name : String} {value : α} {entry : String × α} {entries : List (String × α)}
    (h : entry ∈ insertEntry name value entries) : entry = (name, value) ∨ entry ∈ entries := by
  induction entries with
  | nil => exact .inl (List.mem_singleton.mp h)
  | cons first rest ih =>
    rw [insertEntry] at h
    split at h
    · rcases List.mem_cons.mp h with rfl | h
      · exact .inl rfl
      · exact .inr (List.mem_cons_of_mem _ h)
    · rcases List.mem_cons.mp h with rfl | h
      · exact .inr List.mem_cons_self
      · exact (ih h).imp_right (List.mem_cons_of_mem _)

theorem mem_entries_insert {t : Table α} {name : String} {value : α} {entry : String × α}
    (h : entry ∈ (t.insert name value).entries) : entry = (name, value) ∨ entry ∈ t.entries :=
  mem_insertEntry h

theorem mem_entries_of_find? {t : Table α} {name : String} {value : α} (h : t.find? name = some value) :
    (name, value) ∈ t.entries := by
  obtain ⟨before, after, he, -⟩ := List.lookup_eq_some_iff.mp h
  rw [he]
  exact List.mem_append_right _ List.mem_cons_self

theorem contains_iff_mem_names {t : Table α} {name : String} : t.contains name = true ↔ name ∈ t.names := by
  have h : (t.find? name).isSome = false ↔ name ∉ t.names := by
    simp only [find?, names, Option.isSome_eq_false_iff, Option.isNone_iff_eq_none, List.lookup_eq_none_iff,
      List.mem_map, not_exists, not_and, bne_iff_ne]
    exact ⟨fun h entry he heq => h entry he heq.symm, fun h entry he heq => h entry he heq.symm⟩
  rw [contains, ← Bool.not_eq_false, h, Decidable.not_not]

theorem map_fst_insertEntry (name : String) (value : α) (entries : List (String × α)) :
    (insertEntry name value entries).map (·.1) =
      if name ∈ entries.map (·.1) then entries.map (·.1) else entries.map (·.1) ++ [name] := by
  induction entries with
  | nil => rfl
  | cons first rest ih =>
    obtain ⟨n, v⟩ := first
    by_cases hn : name = n
    · simp [insertEntry, hn]
    · rw [insertEntry, if_neg hn]
      simp only [List.map_cons, ih, List.mem_cons, hn, false_or]
      split <;> rfl

/-- A name that has a value keeps its place, and a new one comes last. -/
theorem names_insert (t : Table α) (name : String) (value : α) :
    (t.insert name value).names = if name ∈ t.names then t.names else t.names ++ [name] :=
  map_fst_insertEntry name value t.entries

def mapValues (f : α → β) (t : Table α) : Table β := ⟨t.entries.map fun (n, v) => (n, f v)⟩

end Table

end TurtleLogo
