import Mathlib.Data.List.Basic
import Mathlib.Data.List.Induction
import Mathlib.Data.List.Nodup
import MessageBridge.Named

/-!
# Tables keyed by name, looked up and built

What stands under a name is decided by the first entry of that name, so of a table in which every
name occurs once nothing is lost: built again from its own entries it is the same table. Whatever is
built by adding entries is such a table.
-/

namespace MessageBridge.Named

variable {α : Type*} {entries : List (String × α)} {name : String} {value : α}

/-! ## Names -/

theorem mem_names_iff : name ∈ names entries ↔ ∃ value, get? name entries = some value := by
  induction entries with
  | nil => simp [names]
  | cons entry rest ih =>
    obtain ⟨key, value⟩ := entry
    rw [names, List.map_cons, List.mem_cons, get?]
    by_cases here : key = name
    · simp [here]
    · rw [if_neg here, ← ih]
      simp [Ne.symm here, names]

theorem contains_iff : contains name entries = true ↔ name ∈ names entries := by
  rw [contains, Option.isSome_iff_exists, mem_names_iff]

theorem get?_eq_none_iff : get? name entries = none ↔ name ∉ names entries := by
  rw [mem_names_iff, ← Option.ne_none_iff_exists', not_not]

theorem mem_of_get? (found : get? name entries = some value) : (name, value) ∈ entries := by
  induction entries with
  | nil => cases found
  | cons entry rest ih =>
    obtain ⟨key, first⟩ := entry
    rw [get?] at found
    split at found
    · rename_i here
      cases found
      rw [here]
      exact List.mem_cons_self
    · exact List.mem_cons_of_mem _ (ih found)

theorem get?_of_mem (distinct : Distinct entries) (mem : (name, value) ∈ entries) :
    get? name entries = some value := by
  induction entries with
  | nil => exact absurd mem List.not_mem_nil
  | cons entry rest ih =>
    obtain ⟨key, first⟩ := entry
    rw [Distinct, names, List.map_cons, List.nodup_cons] at distinct
    rw [get?]
    rcases List.mem_cons.mp mem with same | mem
    · cases same
      exact if_pos rfl
    · rw [if_neg, ih distinct.2 mem]
      rintro rfl
      exact distinct.1 (List.mem_map.mpr ⟨_, mem, rfl⟩)

theorem get?_append (name : String) (first second : List (String × α)) :
    get? name (first ++ second) = (get? name first).or (get? name second) := by
  induction first with
  | nil => rfl
  | cons entry rest ih =>
    rw [List.cons_append, get?, get?, ih]
    split
    · rfl
    · rfl

/-! ## Adding entries -/

instance (entries : List (String × α)) : Decidable (Distinct entries) :=
  inferInstanceAs (Decidable (names entries).Nodup)

theorem insert_of_notMem (new : name ∉ names entries) :
    insert name value entries = entries ++ [(name, value)] := by
  induction entries with
  | nil => rfl
  | cons entry rest ih =>
    obtain ⟨key, old⟩ := entry
    simp only [names, List.map_cons, List.mem_cons, not_or] at new
    rw [insert, if_neg (Ne.symm new.1), ih new.2, List.cons_append]

/-- Entries of different names are a table as they are. -/
theorem ofList_of_distinct (distinct : Distinct entries) : ofList entries = entries := by
  suffices added : ∀ table : List (String × α), Distinct (table ++ entries) →
      entries.foldl (fun table entry ↦ insert entry.1 entry.2 table) table = table ++ entries by
    simpa [ofList] using added [] (by simpa using distinct)
  clear distinct
  induction entries with
  | nil => simp
  | cons entry rest ih =>
    intro table distinct
    have new : entry.1 ∉ names table := by
      intro old
      rw [Distinct, names, List.map_append, List.map_cons, List.nodup_append] at distinct
      exact distinct.2.2 _ old _ List.mem_cons_self rfl
    rw [List.foldl_cons, insert_of_notMem new, ih _ (by simpa using distinct)]
    simp

theorem distinct_insert (distinct : Distinct entries) : Distinct (insert name value entries) := by
  rw [Distinct, names_insert]
  split
  · exact distinct
  · rename_i new
    rw [contains_iff] at new
    exact List.Nodup.append distinct (List.nodup_singleton name) (by simpa using new)

/-- A table that was built by adding entries repeats no name. -/
theorem distinct_ofList (entries : List (String × α)) : Distinct (ofList entries) := by
  rw [ofList]
  induction entries using List.reverseRecOn with
  | nil => exact List.nodup_nil
  | append_singleton rest entry ih =>
    rw [List.foldl_append, List.foldl_cons, List.foldl_nil]
    exact distinct_insert ih

theorem eq_or_mem_of_mem_insert {entry : String × α} (mem : entry ∈ insert name value entries) :
    entry = (name, value) ∨ entry ∈ entries := by
  induction entries with
  | nil => exact .inl (List.mem_singleton.mp mem)
  | cons first rest ih =>
    obtain ⟨key, old⟩ := first
    rw [insert] at mem
    split at mem
    · rename_i same
      subst same
      rcases List.mem_cons.mp mem with rfl | mem
      · exact .inl rfl
      · exact .inr (List.mem_cons_of_mem _ mem)
    · rcases List.mem_cons.mp mem with rfl | mem
      · exact .inr List.mem_cons_self
      · exact (ih mem).imp id (List.mem_cons_of_mem _)

/-- Every entry of a table was added to it. -/
theorem mem_of_mem_ofList {entry : String × α} (mem : entry ∈ ofList entries) :
    entry ∈ entries := by
  rw [ofList] at mem
  induction entries using List.reverseRecOn with
  | nil => exact mem
  | append_singleton rest last ih =>
    rw [List.foldl_append, List.foldl_cons, List.foldl_nil] at mem
    rcases eq_or_mem_of_mem_insert mem with rfl | mem
    · simp
    · simp [ih mem]

/-- Of several entries that are added under one name the last counts. -/
theorem get?_ofList (name : String) (entries : List (String × α)) :
    get? name (ofList entries) = get? name entries.reverse := by
  rw [ofList]
  induction entries using List.reverseRecOn with
  | nil => rfl
  | append_singleton rest last ih =>
    rw [List.foldl_append, List.foldl_cons, List.foldl_nil, List.reverse_append,
      List.reverse_singleton, List.singleton_append, get?, ← ih]
    split
    · rename_i same
      rw [same, get?_insert_self]
    · rename_i other
      exact get?_insert_of_ne other _ _

theorem mem_ofList_iff :
    (name, value) ∈ ofList entries ↔ get? name entries.reverse = some value := by
  rw [← get?_ofList]
  exact ⟨get?_of_mem (distinct_ofList entries), mem_of_get?⟩

/-! ## Keys -/

/-- What shares its key with nothing else is found by it. -/
theorem find?_of_distinct {β : Type*} {key : β → String} {list : List β} {x : β}
    (distinct : (list.map key).Nodup) (mem : x ∈ list) :
    list.find? (fun y ↦ key y == key x) = some x := by
  obtain ⟨y, found⟩ : ∃ y, list.find? (fun y ↦ key y == key x) = some y :=
    Option.isSome_iff_exists.mp (List.find?_isSome.mpr ⟨x, mem, beq_self_eq_true (key x)⟩)
  have same := List.find?_some found
  have listed := List.mem_of_find?_eq_some found
  rw [found, List.inj_on_of_nodup_map distinct listed mem (beq_iff_eq.mp same)]

/-! ## Places -/

theorem names_zipIdx (list : List String) : names list.zipIdx = list := List.zipIdx_map_fst 0 list

/-- A table of the places of names without repetition, in any order, has each place. -/
theorem get?_eq_some_iff {list : List String} {table : List (String × Nat)} {i : Nat}
    (distinct : list.Nodup) (perm : table.Perm (ofList list.zipIdx)) :
    get? name table = some i ↔ list[i]? = some name := by
  rw [← names_zipIdx list] at distinct
  rw [ofList_of_distinct distinct] at perm
  rw [← List.mk_mem_zipIdx_iff_getElem?, ← perm.mem_iff]
  refine ⟨mem_of_get?, get?_of_mem ?_⟩
  exact (perm.map Prod.fst).nodup_iff.mpr distinct

end MessageBridge.Named
