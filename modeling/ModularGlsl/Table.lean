/-!
# Tables

Finite maps from names, listed in the order of the names.  Names are compared
character by character, which for their encoded form is the order of bytes.
-/

namespace ModularGlsl

/-- A finite map from names, listed in the order of the names. -/
structure Table (α : Type) where
  /-- The names with what they stand for. -/
  entries : List (String × α) := []
  deriving Inhabited

namespace Table

variable {α β : Type}

/-- The table without names. -/
def empty : Table α := ⟨[]⟩

/-- What a name stands for. -/
def get?
    (table : Table α)
    (name : String) : Option α :=
  table.entries.lookup name

/-- Put an entry at its place in a list, over an entry of the same name. -/
def insertEntry
    (name : String)
    (value : α) : List (String × α) -> List (String × α)
  | [] => [(name, value)]
  | (other, held) :: rest =>
      if name < other then
        (name, value) :: (other, held) :: rest
      else if name = other then
        (name, value) :: rest
      else
        (other, held) :: insertEntry name value rest

/-- Let a name stand for a value. -/
def insert
    (table : Table α)
    (name : String)
    (value : α) : Table α :=
  ⟨insertEntry name value table.entries⟩

/-- Insert all pairs of a list, later ones over earlier ones. -/
def insertAll
    (table : Table α)
    (pairs : List (String × α)) : Table α :=
  pairs.foldl (fun table pair => table.insert pair.1 pair.2) table

/-- Change what the names stand for. -/
def map
    (f : α -> β)
    (table : Table α) : Table β :=
  ⟨table.entries.map fun entry => (entry.1, f entry.2)⟩

/-- The number of names. -/
def size (table : Table α) : Nat :=
  table.entries.length

/-- An inserted name stands for its value. -/
@[simp] theorem get?_insert_self
    (table : Table α)
    (name : String)
    (value : α) :
    (table.insert name value).get? name = some value := by
  obtain ⟨entries⟩ := table
  simp only [get?, insert]
  induction entries with
  | nil => simp [insertEntry]
  | cons entry rest ih =>
      obtain ⟨other, held⟩ := entry
      unfold insertEntry
      split
      · simp
      · split
        · simp
        · next different =>
            have unequal : (name == other) = false := by simpa using different
            simp [List.lookup_cons, unequal, ih]

/-- Other names keep what they stand for. -/
theorem get?_insert_of_ne
    {name query : String}
    (table : Table α)
    (value : α)
    (different : query ≠ name) :
    (table.insert name value).get? query = table.get? query := by
  obtain ⟨entries⟩ := table
  have unequal : (query == name) = false := by simpa using different
  simp only [get?, insert]
  induction entries with
  | nil => simp [insertEntry, List.lookup_cons, unequal]
  | cons entry rest ih =>
      obtain ⟨other, held⟩ := entry
      unfold insertEntry
      split
      · rw [List.lookup_cons, unequal]
      · split
        · next same =>
            subst same
            simp [List.lookup_cons, unequal]
        · simp only [List.lookup_cons, ih]

/-- What stands in the table is listed under its name. -/
theorem mem_of_get?_eq_some
    {table : Table α}
    {name : String}
    {value : α}
    (found : table.get? name = some value) :
    (name, value) ∈ table.entries := by
  obtain ⟨entries⟩ := table
  simp only [get?] at found ⊢
  induction entries with
  | nil => simp at found
  | cons entry rest ih =>
      obtain ⟨other, held⟩ := entry
      by_cases same : name = other
      · subst same
        simp at found
        simp [found]
      · have different : (name == other) = false := by simpa using same
        rw [List.lookup_cons, different] at found
        exact List.mem_cons_of_mem _ (ih found)

end Table
end ModularGlsl
