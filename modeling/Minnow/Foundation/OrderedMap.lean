import Mathlib.Algebra.Order.Ring.Nat
import Mathlib.Data.List.Basic
import Mathlib.Data.List.TakeWhile
import Mathlib.Data.Nat.Basic

/-!
# Ordered maps with positions

A map sorted by its keys, read and changed through positions: a position is the
index of an entry, `0` is the first one and the number of entries is the position
past the end.  Sortedness is a field, so every operation returns a sorted map.
-/

namespace Minnow.Foundation

variable {Key Value : Type*} [LinearOrder Key]

structure OrderedMap (Key Value : Type*) [LinearOrder Key] where
  entries : List (Key × Value)
  sorted : entries.Pairwise (fun first second => first.1 < second.1)
  deriving Repr

namespace OrderedMap

@[ext] theorem ext {first second : OrderedMap Key Value}
    (same : first.entries = second.entries) : first = second := by
  cases first
  cases second
  cases same
  rfl

instance [DecidableEq Value] : DecidableEq (OrderedMap Key Value) := fun first second =>
  decidable_of_iff (first.entries = second.entries) ⟨ext, fun same => same ▸ rfl⟩

def empty : OrderedMap Key Value := ⟨[], List.Pairwise.nil⟩

@[simp] theorem empty_entries : (empty : OrderedMap Key Value).entries = [] := rfl

variable (map : OrderedMap Key Value)

/-- The position past the last entry. -/
def past : Nat := map.entries.length

/-- The entry at a position; nothing stands at `past`. -/
def entryAt (position : Nat) : Option (Key × Value) := map.entries[position]?

/-- The first position whose key fails a test that fails for all later keys. -/
def boundary (test : Key → Bool) : Nat := (map.entries.takeWhile (fun entry => test entry.1)).length

/-- The first position whose key is not below `key`. -/
def lowerBound (key : Key) : Nat := map.boundary (fun other => other < key)

/-- The first position whose key is above `key`. -/
def upperBound (key : Key) : Nat := map.boundary (fun other => other ≤ key)

/-- The position of the entry with this key, `past` when there is none. -/
def find (key : Key) : Nat :=
  match map.entryAt (map.lowerBound key) with
  | some entry => if entry.1 = key then map.lowerBound key else map.past
  | none => map.past

theorem take_boundary (test : Key → Bool) :
    map.entries.take (map.boundary test) = map.entries.takeWhile (fun entry => test entry.1) := by
  conv_lhs =>
    rw [← List.takeWhile_append_dropWhile (p := fun entry => test entry.1) (l := map.entries)]
  exact List.take_left

theorem drop_boundary (test : Key → Bool) :
    map.entries.drop (map.boundary test) = map.entries.dropWhile (fun entry => test entry.1) := by
  conv_lhs =>
    rw [← List.takeWhile_append_dropWhile (p := fun entry => test entry.1) (l := map.entries)]
  exact List.drop_left

theorem test_of_mem_take (test : Key → Bool) {entry : Key × Value}
    (inside : entry ∈ map.entries.take (map.boundary test)) : test entry.1 = true := by
  rw [take_boundary] at inside
  exact List.all_eq_true.mp List.all_takeWhile entry inside

/-- In a sorted list, a downward closed test fails on everything it does not skip. -/
theorem not_test_of_mem_dropWhile {test : Key → Bool}
    (closed : ∀ first second, first < second → test second = true → test first = true)
    {entries : List (Key × Value)}
    (sorted : entries.Pairwise (fun first second => first.1 < second.1))
    {entry : Key × Value} (inside : entry ∈ entries.dropWhile (fun other => test other.1)) :
    test entry.1 = false := by
  induction entries with
  | nil => cases inside
  | cons head rest ih =>
      rw [List.pairwise_cons] at sorted
      rw [List.dropWhile_cons] at inside
      split at inside
      · exact ih sorted.2 inside
      · rename_i fails
        rcases List.mem_cons.mp inside with same | later
        · rw [same]
          exact Bool.eq_false_iff.mpr fails
        · refine Bool.eq_false_iff.mpr (fun passes => fails ?_)
          exact closed _ _ (sorted.1 entry later) passes

theorem not_test_of_mem_drop (test : Key → Bool)
    (closed : ∀ first second, first < second → test second = true → test first = true)
    {entry : Key × Value} (inside : entry ∈ map.entries.drop (map.boundary test)) :
    test entry.1 = false := by
  rw [drop_boundary] at inside
  exact not_test_of_mem_dropWhile closed map.sorted inside

theorem lt_of_mem_take_lowerBound {key : Key} {entry : Key × Value}
    (inside : entry ∈ map.entries.take (map.lowerBound key)) : entry.1 < key := by
  simpa using map.test_of_mem_take _ inside

theorem le_of_mem_drop_lowerBound {key : Key} {entry : Key × Value}
    (inside : entry ∈ map.entries.drop (map.lowerBound key)) : key ≤ entry.1 := by
  have fails := map.not_test_of_mem_drop (fun other => other < key)
    (fun first second below passes => by
      simp only [decide_eq_true_eq] at passes ⊢
      exact lt_trans below passes) inside
  simpa using fails

theorem lt_of_mem_drop_upperBound {key : Key} {entry : Key × Value}
    (inside : entry ∈ map.entries.drop (map.upperBound key)) : key < entry.1 := by
  have fails := map.not_test_of_mem_drop (fun other => other ≤ key)
    (fun first second below passes => by
      simp only [decide_eq_true_eq] at passes ⊢
      exact le_trans (le_of_lt below) passes) inside
  simpa using fails

theorem boundary_le_past (test : Key → Bool) : map.boundary test ≤ map.past :=
  (List.takeWhile_sublist _).length_le

/-- An iterator that is not past the end stands at the first of the entries from there on. -/
theorem exists_entryAt {position : Nat} (inside : position < map.past) :
    ∃ entry, map.entryAt position = some entry ∧
      map.entries.drop position = entry :: map.entries.drop (position + 1) :=
  ⟨map.entries[position], List.getElem?_eq_getElem inside, List.drop_eq_getElem_cons inside⟩

theorem drop_of_past_le {position : Nat} (outside : ¬ position < map.past) :
    map.entries.drop position = [] :=
  List.drop_of_length_le (Nat.not_lt.mp outside)

/-- Induction along the entries: an iterator is past them, or it stands at one and moves on. -/
theorem walk {motive : Nat → Prop}
    (past : ∀ position, ¬ position < map.past → map.entries.drop position = [] → motive position)
    (here : ∀ position entry, position < map.past → map.entryAt position = some entry →
      map.entries.drop position = entry :: map.entries.drop (position + 1) →
      motive (position + 1) → motive position)
    (position : Nat) : motive position := by
  induction left : map.past - position generalizing position with
  | zero =>
      have outside : ¬ position < map.past := by omega
      exact past position outside (map.drop_of_past_le outside)
  | succ left ih =>
      have inside : position < map.past := by omega
      obtain ⟨entry, found, dropEq⟩ := map.exists_entryAt inside
      exact here position entry inside found dropEq (ih (position + 1) (by omega))

/-- The entry one position below a boundary passes the test. -/
theorem exists_before_boundary {test : Key → Bool} (nonzero : map.boundary test ≠ 0) :
    ∃ entry, map.entryAt (map.boundary test - 1) = some entry ∧ test entry.1 = true ∧
      map.entries.drop (map.boundary test - 1) = entry :: map.entries.drop (map.boundary test) := by
  have bound : map.boundary test ≤ map.entries.length := map.boundary_le_past test
  have position : map.boundary test - 1 < map.entries.length := by omega
  have dropEq := List.drop_eq_getElem_cons position
  rw [Nat.sub_add_cancel (Nat.one_le_iff_ne_zero.mpr nonzero)] at dropEq
  refine ⟨map.entries[map.boundary test - 1], List.getElem?_eq_getElem position, ?_, dropEq⟩
  refine map.test_of_mem_take test (List.mem_iff_getElem.mpr ?_)
  refine ⟨map.boundary test - 1, ?_, List.getElem_take⟩
  rw [List.length_take]
  omega

theorem exists_before_lowerBound {key : Key} (nonzero : map.lowerBound key ≠ 0) :
    ∃ entry, map.entryAt (map.lowerBound key - 1) = some entry ∧ entry.1 < key ∧
      map.entries.drop (map.lowerBound key - 1) = entry :: map.entries.drop (map.lowerBound key) := by
  obtain ⟨entry, found, passes, dropEq⟩ := map.exists_before_boundary nonzero
  exact ⟨entry, found, of_decide_eq_true passes, dropEq⟩

theorem exists_before_upperBound {key : Key} (nonzero : map.upperBound key ≠ 0) :
    ∃ entry, map.entryAt (map.upperBound key - 1) = some entry ∧ entry.1 ≤ key ∧
      map.entries.drop (map.upperBound key - 1) = entry :: map.entries.drop (map.upperBound key) := by
  obtain ⟨entry, found, passes, dropEq⟩ := map.exists_before_boundary nonzero
  exact ⟨entry, found, of_decide_eq_true passes, dropEq⟩

/-! ## Changing a map -/

/-- Bind the key, over an earlier value if there is one. -/
def assign (key : Key) (value : Value) : OrderedMap Key Value where
  entries :=
    map.entries.take (map.lowerBound key) ++ (key, value) :: map.entries.drop (map.upperBound key)
  sorted := by
    refine List.pairwise_append.mpr ⟨map.sorted.take, ?_, ?_⟩
    · refine List.pairwise_cons.mpr ⟨?_, map.sorted.drop⟩
      intro entry inside
      exact map.lt_of_mem_drop_upperBound inside
    · intro before beforeIn after afterIn
      have below := map.lt_of_mem_take_lowerBound beforeIn
      rcases List.mem_cons.mp afterIn with same | later
      · rw [same]
        exact below
      · exact lt_trans below (map.lt_of_mem_drop_upperBound later)

theorem takeWhile_of_agree {Item : Type*} {first second : Item → Bool} {items : List Item}
    (agree : ∀ item ∈ items, first item = second item) :
    items.takeWhile first = items.takeWhile second := by
  induction items with
  | nil => rfl
  | cons item rest ih =>
      rw [List.takeWhile_cons, List.takeWhile_cons, agree item List.mem_cons_self,
        ih (fun other inside => agree other (List.mem_cons_of_mem _ inside))]

/-- Where the key is not bound, both bounds are the place for it. -/
theorem lowerBound_eq_upperBound {key : Key} (absent : ∀ entry ∈ map.entries, entry.1 ≠ key) :
    map.lowerBound key = map.upperBound key := by
  have same : map.entries.takeWhile (fun entry => decide (entry.1 < key)) =
      map.entries.takeWhile (fun entry => decide (entry.1 ≤ key)) := by
    refine takeWhile_of_agree ?_
    intro entry inside
    simp only [decide_eq_decide]
    exact ⟨le_of_lt, fun le => lt_of_le_of_ne le (absent entry inside)⟩
  exact congrArg List.length same

theorem find_le_past (key : Key) : map.find key ≤ map.past := by
  rw [find]
  split
  · split
    · exact map.boundary_le_past _
    · exact Nat.le_refl _
  · exact Nat.le_refl _

theorem length_take_lowerBound (key : Key) :
    (map.entries.take (map.lowerBound key)).length = map.lowerBound key := by
  rw [List.length_take]
  exact Nat.min_eq_left (map.boundary_le_past _)

theorem lowerBound_assign (key : Key) (value : Value) :
    (map.assign key value).lowerBound key = map.lowerBound key := by
  have passes : ∀ entry ∈ map.entries.take (map.lowerBound key), decide (entry.1 < key) = true :=
    fun entry inside => decide_eq_true (map.lt_of_mem_take_lowerBound inside)
  change ((map.entries.take (map.lowerBound key) ++
    (key, value) :: map.entries.drop (map.upperBound key)).takeWhile _).length = _
  rw [List.takeWhile_append_of_pos passes, List.takeWhile_cons_of_neg (by simp), List.append_nil]
  exact map.length_take_lowerBound key

@[simp] theorem entryAt_assign (key : Key) (value : Value) :
    (map.assign key value).entryAt (map.lowerBound key) = some (key, value) := by
  have length := map.length_take_lowerBound key
  change (map.entries.take (map.lowerBound key) ++ _)[map.lowerBound key]? = _
  rw [List.getElem?_append_right (Nat.le_of_eq length), length, Nat.sub_self]
  rfl

@[simp] theorem find_assign (key : Key) (value : Value) :
    (map.assign key value).find key = map.lowerBound key := by
  rw [find, lowerBound_assign, entryAt_assign]
  exact if_pos rfl

@[simp] theorem drop_assign (key : Key) (value : Value) :
    (map.assign key value).entries.drop (map.lowerBound key + 1) =
      map.entries.drop (map.upperBound key) := by
  have length := map.length_take_lowerBound key
  change (map.entries.take (map.lowerBound key) ++
    (key, value) :: map.entries.drop (map.upperBound key)).drop _ = _
  rw [List.drop_append, length, Nat.add_sub_cancel_left, List.drop_of_length_le (by omega)]
  rfl

def contains (key : Key) : Bool := map.entries.any (fun entry => entry.1 == key)

/-- Bind the key only when it is not bound yet. -/
def insert (key : Key) (value : Value) : OrderedMap Key Value :=
  if map.contains key then map else map.assign key value

theorem insert_entries_ne_nil (key : Key) (value : Value) : (map.insert key value).entries ≠ [] := by
  unfold insert
  split_ifs with bound
  · intro empty
    rw [contains, empty] at bound
    exact Bool.false_ne_true bound
  · exact List.append_ne_nil_of_right_ne_nil _ (List.cons_ne_nil _ _)

/-- A key above all others is bound at the end. -/
theorem insert_entries_of_above {key : Key} (above : ∀ entry ∈ map.entries, entry.1 < key)
    (value : Value) : (map.insert key value).entries = map.entries ++ [(key, value)] := by
  have absent : map.contains key = false := by
    rw [contains, List.any_eq_false]
    exact fun entry inside => by simpa using ne_of_lt (above entry inside)
  have whole : ∀ test : Key → Bool, (∀ entry ∈ map.entries, test entry.1 = true) →
      map.boundary test = map.entries.length := by
    intro test passes
    rw [boundary, List.takeWhile_eq_self_iff.mpr passes]
  have lower : map.lowerBound key = map.entries.length :=
    whole _ (fun entry inside => decide_eq_true (above entry inside))
  have upper : map.upperBound key = map.entries.length :=
    whole _ (fun entry inside => decide_eq_true (le_of_lt (above entry inside)))
  rw [insert, if_neg (by rw [absent]; exact Bool.false_ne_true)]
  change map.entries.take (map.lowerBound key) ++ _ :: map.entries.drop (map.upperBound key) = _
  rw [lower, upper, List.take_length, List.drop_length]

/-- Remove the entries from one position up to a later one. -/
def eraseRange (first last : Nat) : OrderedMap Key Value where
  entries := map.entries.take first ++ map.entries.drop (max first last)
  sorted := by
    have kept : (map.entries.take first ++ map.entries.drop (max first last)).Sublist
        (map.entries.take first ++ map.entries.drop first) :=
      (List.Sublist.refl _).append (List.drop_sublist_drop_left _ (Nat.le_max_left _ _))
    rw [List.take_append_drop] at kept
    exact map.sorted.sublist kept

/-- Remove the first entry. -/
def eraseFirst : OrderedMap Key Value := map.eraseRange 0 1

/-- Removing entries right behind a key that was just bound. -/
theorem eraseRange_assign (key : Key) (value : Value) (count : Nat) :
    ((map.assign key value).eraseRange (map.lowerBound key + 1)
        (map.lowerBound key + 1 + count)).entries =
      map.entries.take (map.lowerBound key) ++
        (key, value) :: (map.entries.drop (map.upperBound key)).drop count := by
  have length := map.length_take_lowerBound key
  have kept : (map.assign key value).entries.take (map.lowerBound key + 1) =
      map.entries.take (map.lowerBound key) ++ [(key, value)] := by
    change (map.entries.take (map.lowerBound key) ++
      (key, value) :: map.entries.drop (map.upperBound key)).take _ = _
    rw [List.take_append, length, Nat.add_sub_cancel_left, List.take_of_length_le (by omega)]
    rfl
  change (map.assign key value).entries.take _ ++ (map.assign key value).entries.drop _ = _
  rw [kept, Nat.max_eq_right (Nat.le_add_right _ _), ← List.drop_drop, drop_assign,
    List.append_assoc]
  rfl

@[simp] theorem eraseFirst_entries : map.eraseFirst.entries = map.entries.tail := by
  simp [eraseFirst, eraseRange]

@[simp] theorem eraseRange_zero_entries (last : Nat) :
    (map.eraseRange 0 last).entries = map.entries.drop last := by
  simp [eraseRange]

end OrderedMap

end Minnow.Foundation
