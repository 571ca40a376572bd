/-!
# Tables keyed by name

A table is a list of entries in the order in which their names were first added. Adding a name
that is already present replaces the value and keeps its place. Objects of documents, metadata and
all registries are such tables.
-/

namespace MessageBridge

/-- Entries in the order in which their names were first added. -/
abbrev Named (α : Type u) := List (String × α)

namespace Named

variable {α : Type u}

/-! ## Reading -/

/-- The value of the first entry under a name. -/
def get? (name : String) : List (String × α) → Option α
  | [] => none
  | (key, value) :: rest => if key = name then some value else get? name rest

/-- Whether a name has an entry. -/
def contains (name : String) (entries : List (String × α)) : Bool := (get? name entries).isSome

/-- The names in order. -/
def names (entries : List (String × α)) : List String := entries.map Prod.fst

/-! ## Adding -/

/-- The table with `value` under `name`: in the place of an entry of that name, else at the end. -/
def insert (name : String) (value : α) : List (String × α) → List (String × α)
  | [] => [(name, value)]
  | (key, old) :: rest =>
    if key = name then (key, value) :: rest else (key, old) :: insert name value rest

/-- The table with `value` under `name` unless the name already has an entry. -/
def insertNew (name : String) (value : α) (entries : List (String × α)) : List (String × α) :=
  if contains name entries then entries else insert name value entries

/-- The table built by adding entries one after the other. -/
def ofList (entries : List (String × α)) : List (String × α) :=
  entries.foldl (fun table entry ↦ insert entry.1 entry.2 table) []

/-! ## Small laws -/

@[simp] theorem get?_nil (name : String) : get? name ([] : List (String × α)) = none := rfl

@[simp] theorem get?_insert_self (name : String) (value : α) (entries : List (String × α)) :
    get? name (insert name value entries) = some value := by
  induction entries with
  | nil => simp [insert, get?]
  | cons entry rest ih =>
    obtain ⟨key, old⟩ := entry
    by_cases h : key = name <;> simp [insert, get?, h, ih]

theorem get?_insert_of_ne {name other : String} (h : other ≠ name) (value : α)
    (entries : List (String × α)) : get? name (insert other value entries) = get? name entries := by
  induction entries with
  | nil => simp [insert, get?, h]
  | cons entry rest ih =>
    obtain ⟨key, old⟩ := entry
    by_cases hk : key = other
    · subst hk; simp [insert, get?, h]
    · by_cases hn : key = name
      · simp [insert, get?, hn, Ne.symm h]
      · simp [insert, get?, hk, hn, ih]

/-- Adding an entry keeps the names in order, with a new name at the end. -/
theorem names_insert (name : String) (value : α) (entries : List (String × α)) :
    names (insert name value entries) =
      if contains name entries then names entries else names entries ++ [name] := by
  induction entries with
  | nil => simp [insert, names, contains]
  | cons entry rest ih =>
    obtain ⟨key, old⟩ := entry
    by_cases h : key = name
    · subst h; simp [insert, names, contains, get?]
    · simp only [names, contains] at ih
      simp only [insert, h, if_false, names, List.map_cons, ih, contains, get?]
      split <;> simp_all

/-- Whether every name occurs once. -/
def Distinct (entries : List (String × α)) : Prop := (names entries).Nodup

end Named

end MessageBridge
