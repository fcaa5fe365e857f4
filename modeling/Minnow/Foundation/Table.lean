import Mathlib.Data.List.Dedup
import Mathlib.Logic.Function.Basic

/-!
# Tables

A table gives each key at most one value.  It stands for a hash map whose order of
iteration nothing observes: two tables with the same answers are equal.
-/

namespace Minnow.Foundation

/-- A key that is absent has no value. -/
@[ext]
structure Table (Key Value : Type*) where
  at? : Key → Option Value

namespace Table

variable {Key Value : Type*}

def empty : Table Key Value := ⟨fun _ => none⟩

def contains (table : Table Key Value) (key : Key) : Bool := (table.at? key).isSome

/-- Remove every entry whose value fails the test. -/
def keep (table : Table Key Value) (test : Value → Bool) : Table Key Value :=
  ⟨fun key => (table.at? key).filter test⟩

@[simp] theorem at?_empty (key : Key) : (empty : Table Key Value).at? key = none := rfl

@[simp] theorem at?_keep (table : Table Key Value) (test : Value → Bool) (key : Key) :
    (table.keep test).at? key = (table.at? key).filter test :=
  rfl

theorem contains_eq_true {table : Table Key Value} {key : Key} :
    table.contains key = true ↔ ∃ value, table.at? key = some value :=
  Option.isSome_iff_exists

theorem contains_eq_false {table : Table Key Value} {key : Key} :
    table.contains key = false ↔ table.at? key = none := by
  rw [contains, Option.isSome_eq_false_iff, Option.isNone_iff_eq_none]

/-- The entries of the table in some order, each key once. -/
structure Enumerates (table : Table Key Value) (order : List (Key × Value)) : Prop where
  nodup : (order.map Prod.fst).Nodup
  mem_iff : ∀ key value, (key, value) ∈ order ↔ table.at? key = some value

/-- Any reordering of the entries enumerates them too. -/
theorem Enumerates.perm {table : Table Key Value} {order other : List (Key × Value)}
    (walks : table.Enumerates order) (same : order.Perm other) : table.Enumerates other where
  nodup := (same.map Prod.fst).nodup_iff.mp walks.nodup
  mem_iff := fun key value => same.mem_iff.symm.trans (walks.mem_iff key value)

/-- Any entry can be the last one. -/
theorem Enumerates.last {table : Table Key Value} {order : List (Key × Value)}
    (walks : table.Enumerates order) {entry : Key × Value} (inside : entry ∈ order) :
    ∃ before, table.Enumerates (before ++ [entry]) := by
  obtain ⟨before, after, rfl⟩ := List.append_of_mem inside
  refine ⟨before ++ after, walks.perm ?_⟩
  exact List.perm_middle.trans (List.perm_append_singleton entry (before ++ after)).symm

theorem listed_keys (table : Table Key Value) (keys : List Key) :
    ((keys.filterMap fun key => (table.at? key).map (Prod.mk key)).map Prod.fst).Sublist keys := by
  induction keys with
  | nil => exact List.Sublist.slnil
  | cons key keys ih =>
      rw [List.filterMap_cons]
      cases table.at? key with
      | none => exact ih.cons key
      | some value => exact ih.cons_cons key

section Update

variable [DecidableEq Key]

/-- The entries under the keys listed, in the order of the list. -/
def listed (table : Table Key Value) (keys : List Key) : List (Key × Value) :=
  keys.dedup.filterMap fun key => (table.at? key).map (Prod.mk key)

/-- A list of all keys gives an order of the entries. -/
theorem enumerates_listed {table : Table Key Value} {keys : List Key}
    (all : ∀ key value, table.at? key = some value → key ∈ keys) :
    table.Enumerates (table.listed keys) where
  nodup := (List.nodup_dedup keys).sublist (table.listed_keys keys.dedup)
  mem_iff := by
    intro key value
    rw [listed, List.mem_filterMap]
    constructor
    · rintro ⟨other, -, found⟩
      obtain ⟨held, present, same⟩ := Option.map_eq_some_iff.mp found
      obtain ⟨rfl, rfl⟩ := Prod.mk.inj same
      exact present
    · intro present
      refine ⟨key, List.mem_dedup.mpr (all key value present), ?_⟩
      rw [present]
      rfl

def assign (table : Table Key Value) (key : Key) (value : Value) : Table Key Value :=
  ⟨Function.update table.at? key (some value)⟩

def erase (table : Table Key Value) (key : Key) : Table Key Value :=
  ⟨Function.update table.at? key none⟩

/-- The value of a key, which is first given the default value if it is absent. -/
def subscript (table : Table Key Value) (key : Key) (default : Value) :
    Value × Table Key Value :=
  match table.at? key with
  | some value => (value, table)
  | none => (default, table.assign key default)

@[simp] theorem at?_assign_self (table : Table Key Value) (key : Key) (value : Value) :
    (table.assign key value).at? key = some value := by
  simp only [assign, Function.update_self]

theorem at?_assign_of_ne (table : Table Key Value) {key other : Key} (value : Value)
    (differs : other ≠ key) : (table.assign key value).at? other = table.at? other := by
  simp only [assign, Function.update_of_ne differs]

@[simp] theorem at?_erase_self (table : Table Key Value) (key : Key) :
    (table.erase key).at? key = none := by
  simp only [erase, Function.update_self]

theorem at?_erase_of_ne (table : Table Key Value) {key other : Key} (differs : other ≠ key) :
    (table.erase key).at? other = table.at? other := by
  simp only [erase, Function.update_of_ne differs]

theorem erase_of_absent {table : Table Key Value} {key : Key} (absent : table.at? key = none) :
    table.erase key = table := by
  ext1
  rw [erase, ← absent, Function.update_eq_self]

/-- Reading a key that is present changes nothing. -/
theorem subscript_of_at? {table : Table Key Value} {key : Key} {value : Value}
    (present : table.at? key = some value) (default : Value) :
    table.subscript key default = (value, table) := by
  rw [subscript, present]

end Update

end Table

end Minnow.Foundation
