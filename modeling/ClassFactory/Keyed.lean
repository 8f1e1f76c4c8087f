/-
Module: ClassFactory.Keyed
Purpose: Finite maps from names that remember the order in which the names were first entered.
  Writing to a name that is present replaces its value and moves nothing; a new name goes last.
Main exports: Keyed, Keyed.get?, Keyed.insert, Keyed.insertNew, Keyed.ofList
-/

namespace ClassFactory

/-- A map from names, as its entries in order of first entry. -/
structure Keyed (α : Type) where
  entries : List (String × α)
deriving Repr, Inhabited

namespace Keyed

variable {α β : Type}

/-- The map without entries. -/
def empty : Keyed α := { entries := [] }

/-- The names in order. -/
def keys (map : Keyed α) : List String := map.entries.map Prod.fst

/-- The values in the order of their names. -/
def values (map : Keyed α) : List α := map.entries.map Prod.snd

/-- The value of the first entry with the given name. -/
def lookup (name : String) : List (String × α) → Option α
  | [] => none
  | (key, value) :: rest => if key = name then some value else lookup name rest

/-- Replaces the value of the first entry with the given name, or adds an entry at the end. -/
def write (name : String) (value : α) : List (String × α) → List (String × α)
  | [] => [(name, value)]
  | (key, old) :: rest =>
    if key = name then (key, value) :: rest else (key, old) :: write name value rest

/-- The value of a name. -/
def get? (map : Keyed α) (name : String) : Option α := lookup name map.entries

/-- Whether the map has the name. -/
def contains (map : Keyed α) (name : String) : Bool := (map.get? name).isSome

/-- Sets the value of a name, keeping its place if it has one. -/
def insert (map : Keyed α) (name : String) (value : α) : Keyed α :=
  { entries := write name value map.entries }

/-- Sets the value of a name unless it has one. -/
def insertNew (map : Keyed α) (name : String) (value : α) : Keyed α :=
  if map.contains name then map else map.insert name value

/-- The map that results from entering the pairs one after another. -/
def ofList (entries : List (String × α)) : Keyed α :=
  entries.foldl (fun map entry => map.insert entry.1 entry.2) empty

theorem lookup_write_self (name : String) (value : α) (entries : List (String × α)) :
    lookup name (write name value entries) = some value := by
  induction entries with
  | nil => simp [write, lookup]
  | cons entry rest ih =>
    obtain ⟨key, old⟩ := entry
    by_cases h : key = name <;> simp [write, lookup, h, ih]

theorem lookup_write_other {name other : String} (h : other ≠ name) (value : α)
    (entries : List (String × α)) :
    lookup other (write name value entries) = lookup other entries := by
  induction entries with
  | nil => simp [write, lookup, Ne.symm h]
  | cons entry rest ih =>
    obtain ⟨key, old⟩ := entry
    by_cases hk : key = name
    · subst hk
      simp [write, lookup, Ne.symm h]
    · by_cases ho : key = other
      · subst ho
        simp [write, lookup, hk]
      · simp [write, lookup, hk, ho, ih]

/-- What was written is read back. -/
theorem get?_insert_self (map : Keyed α) (name : String) (value : α) :
    (map.insert name value).get? name = some value :=
  lookup_write_self name value map.entries

/-- Writing one name leaves the others alone. -/
theorem get?_insert_other (map : Keyed α) {name other : String} (h : other ≠ name) (value : α) :
    (map.insert name value).get? other = map.get? other :=
  lookup_write_other h value map.entries

end Keyed

end ClassFactory
