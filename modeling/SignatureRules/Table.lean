/-!
Tables from names to values, with one entry a name and the entries in ascending order of their
names. Entering a name again replaces its value.
-/

namespace SignatureRules

structure Table (α : Type) where
  entries : List (String × α)
deriving DecidableEq, Repr

namespace Table

variable {α : Type}

def empty : Table α := ⟨[]⟩

def enter (name : String) (value : α) : List (String × α) → List (String × α)
  | [] => [(name, value)]
  | (other, held) :: entries =>
    if name < other then (name, value) :: (other, held) :: entries
    else if name = other then (name, value) :: entries
    else (other, held) :: enter name value entries

def insert (name : String) (value : α) (table : Table α) : Table α :=
  ⟨enter name value table.entries⟩

def get? (name : String) (table : Table α) : Option α := table.entries.lookup name

def names (table : Table α) : List String := table.entries.map Prod.fst

@[simp] theorem get?_empty (name : String) : (empty : Table α).get? name = none := rfl

theorem lookup_enter (name : String) (value : α) (entries : List (String × α)) (sought : String) :
    (enter name value entries).lookup sought =
      if sought = name then some value else entries.lookup sought := by
  by_cases hs : sought = name
  · subst hs
    induction entries with
    | nil => simp [enter]
    | cons entry entries ih =>
      obtain ⟨other, held⟩ := entry
      rw [enter]
      split
      · simp
      · split
        · simp
        · rename_i hne
          have hb : (sought == other) = false := by simp [hne]
          simpa [List.lookup_cons, hb] using ih
  · have hb : (sought == name) = false := by simp [hs]
    rw [if_neg hs]
    induction entries with
    | nil => simp [enter, List.lookup_cons, hb]
    | cons entry entries ih =>
      obtain ⟨other, held⟩ := entry
      rw [enter]
      split
      · simp [List.lookup_cons, hb]
      · split
        · rename_i he
          subst he
          simp [List.lookup_cons, hb]
        · simp [List.lookup_cons, ih]

theorem get?_insert (name : String) (value : α) (table : Table α) (sought : String) :
    (table.insert name value).get? sought =
      if sought = name then some value else table.get? sought :=
  lookup_enter name value table.entries sought

end Table

end SignatureRules
