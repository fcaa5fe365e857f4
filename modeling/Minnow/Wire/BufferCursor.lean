import Minnow.Wire.Parser

/-!
# The buffers as they are used up

Bytes are taken off the front, and a buffer goes with its last byte.  An empty buffer goes
only when bytes behind it are removed; until then it stands in the way of reading.
-/

namespace Minnow.Wire

/-- The buffers that hold the next `count` bytes are not empty. -/
def Solid : Nat → List Buffer → Prop
  | _, [] => True
  | count, front :: rest => count = 0 ∨ (front ≠ [] ∧ Solid (count - front.length) rest)

theorem solid_zero (buffers : List Buffer) : Solid 0 buffers := by
  cases buffers with
  | nil => exact True.intro
  | cons front rest => exact Or.inl rfl

theorem solid_of_nonempty {buffers : List Buffer} (nonempty : ∀ buffer ∈ buffers, buffer ≠ [])
    (count : Nat) : Solid count buffers := by
  induction buffers generalizing count with
  | nil => exact True.intro
  | cons front rest ih =>
      refine Or.inr ⟨nonempty front List.mem_cons_self, ih ?_ _⟩
      exact fun buffer inside => nonempty buffer (List.mem_cons_of_mem _ inside)

/-- A buffer that is long enough suffices. -/
theorem solid_of_le {count : Nat} {front : Buffer} (enough : count ≤ front.length)
    (rest : List Buffer) : Solid count (front :: rest) := by
  rcases Nat.eq_zero_or_pos count with none | some
  · exact Or.inl none
  · refine Or.inr ⟨List.ne_nil_of_length_pos (Nat.lt_of_lt_of_le some enough), ?_⟩
    rw [Nat.sub_eq_zero_of_le enough]
    exact solid_zero rest

/-! ## Bytes taken off the front -/

/-- The buffers without their first `count` bytes. -/
def dropBytes : Nat → List Buffer → List Buffer
  | 0, buffers => buffers
  | _ + 1, [] => []
  | count + 1, front :: rest =>
      if front.length ≤ count + 1 then dropBytes (count + 1 - front.length) rest
      else front.drop (count + 1) :: rest

@[simp] theorem dropBytes_zero (buffers : List Buffer) : dropBytes 0 buffers = buffers := by
  cases buffers <;> rfl

@[simp] theorem dropBytes_nil (count : Nat) : dropBytes count [] = [] := by
  cases count <;> rfl

theorem dropBytes_cons {count : Nat} (some : 0 < count) (front : Buffer) (rest : List Buffer) :
    dropBytes count (front :: rest) =
      if front.length ≤ count then dropBytes (count - front.length) rest
      else front.drop count :: rest := by
  cases count with
  | zero => exact absurd some (Nat.lt_irrefl 0)
  | succ count => rfl

theorem dropBytes_flatten (count : Nat) (buffers : List Buffer) :
    (dropBytes count buffers).flatten = buffers.flatten.drop count := by
  induction buffers generalizing count with
  | nil => simp
  | cons front rest ih =>
      rcases Nat.eq_zero_or_pos count with none | some
      · simp [none]
      · rw [dropBytes_cons some, List.flatten_cons, List.drop_append]
        split
        · rename_i whole
          rw [ih, List.drop_eq_nil_of_le whole, List.nil_append]
        · rename_i partly
          rw [List.flatten_cons, Nat.sub_eq_zero_of_le (by omega), List.drop_zero]

/-- Bytes can be dropped in two goes. -/
theorem dropBytes_dropBytes (later count : Nat) (buffers : List Buffer) :
    dropBytes later (dropBytes count buffers) = dropBytes (count + later) buffers := by
  induction buffers generalizing count with
  | nil => simp
  | cons front rest ih =>
      rcases Nat.eq_zero_or_pos count with none | some
      · simp [none]
      · rcases Nat.eq_zero_or_pos later with done | more
        · simp [done]
        · rw [dropBytes_cons some, dropBytes_cons (by omega : 0 < count + later)]
          split
          · rename_i whole
            rw [ih, if_pos (by omega)]
            congr 1
            omega
          · rename_i partly
            rw [dropBytes_cons more, List.length_drop, List.drop_drop]
            by_cases last : front.length - count ≤ later
            · rw [if_pos last, if_pos (by omega)]
              congr 1
              omega
            · rw [if_neg last, if_neg (by omega)]

/-- Reading on from where the first bytes end. -/
theorem solid_add {first second : Nat} {buffers : List Buffer} :
    Solid (first + second) buffers ↔
      Solid first buffers ∧ Solid second (dropBytes first buffers) := by
  induction buffers generalizing first with
  | nil => simp [Solid]
  | cons front rest ih =>
      rcases Nat.eq_zero_or_pos first with none | some
      · simp [none, solid_zero]
      · have total : first + second ≠ 0 := by omega
        rw [dropBytes_cons some]
        by_cases whole : front.length ≤ first
        · have split : first + second - front.length = first - front.length + second := by omega
          rw [if_pos whole, Solid, Solid, split, ih]
          simp [Nat.ne_of_gt some, and_assoc]
        · have left : front.drop first ≠ [] := by
            rw [ne_eq, List.drop_eq_nil_iff]
            exact whole
          have none : first - front.length = 0 := by omega
          have split : first + second - front.length = second - (front.length - first) := by omega
          rw [if_neg whole, Solid, Solid, Solid, List.length_drop, none, split]
          simp only [Nat.ne_of_gt some, left, solid_zero, false_or, not_false_eq_true, true_and,
            and_true, ne_eq, total]
          constructor
          · rintro ⟨nonempty, solid⟩
            exact ⟨nonempty, Or.inr solid⟩
          · rintro ⟨nonempty, done | solid⟩
            · rw [done, Nat.zero_sub]
              exact ⟨nonempty, solid_zero rest⟩
            · exact ⟨nonempty, solid⟩

theorem Solid.of_le {count fewer : Nat} {buffers : List Buffer} (solid : Solid count buffers)
    (le : fewer ≤ count) : Solid fewer buffers := by
  rw [← Nat.add_sub_cancel' le, solid_add] at solid
  exact solid.1

/-! ## The unread bytes -/

/-- The unread bytes, buffer by buffer, once `skip` bytes of the first one are read. -/
def unreadFrom : List Buffer → Nat → List Buffer
  | [], _ => []
  | front :: rest, skip => front.drop skip :: rest

@[simp] theorem unreadFrom_zero (buffers : List Buffer) : unreadFrom buffers 0 = buffers := by
  cases buffers with
  | nil => rfl
  | cons front rest => rfl

namespace BufferList

def unread (list : BufferList) : List Buffer := unreadFrom list.buffer list.skip

theorem unread_flatten (list : BufferList) : list.unread.flatten = list.remaining := by
  have short := list.consistent.skip_le
  rw [unread, remaining]
  cases buffers : list.buffer with
  | nil => rw [unreadFrom, List.flatten_nil, List.drop_nil]
  | cons front rest =>
      rw [buffers, List.headD_cons] at short
      rw [unreadFrom, List.flatten_cons, List.flatten_cons, List.drop_append_of_le_length short]

theorem unread_foldl_append (list : BufferList) (unused : list.skip = 0) (buffers : List Buffer) :
    (buffers.foldl append list).unread = list.buffer ++ buffers := by
  induction buffers generalizing list with
  | nil => rw [List.foldl_nil, unread, List.append_nil, unused, unreadFrom_zero]
  | cons buffer rest ih =>
      rw [List.foldl_cons, ih (list.append buffer) unused]
      exact List.append_assoc _ _ _

theorem unread_ofBuffers (buffers : List Buffer) : (ofBuffers buffers).unread = buffers :=
  unread_foldl_append nil rfl buffers

theorem removePrefix_zero (list : BufferList) : list.removePrefix 0 = list := by
  cases list with
  | mk size buffer skip consistent =>
      cases buffer with
      | nil => rfl
      | cons front rest => rfl

theorem solid_dumpAll {count : Nat} {list : BufferList} (solid : Solid count list.unread) :
    Solid count list.dumpAll := by
  rw [dumpAll]
  split
  · exact True.intro
  · rw [unread] at solid
    cases buffers : list.buffer with
    | nil => exact True.intro
    | cons front rest =>
        rw [buffers] at solid
        exact solid

/-- The first unread byte is at the front, if its buffer is not empty. -/
theorem peek_of_unread {list : BufferList} {front : Buffer} {rest : List Buffer}
    (unread : list.unread = front :: rest) : list.peek = .ok front := by
  rw [BufferList.unread] at unread
  rw [peek]
  cases buffers : list.buffer with
  | nil => exact absurd (buffers ▸ unread) (List.cons_ne_nil _ _).symm
  | cons first others =>
      rw [buffers] at unread
      rw [← (List.cons.inj unread).1]

theorem unread_of_peek {list : BufferList} {front : Buffer} (peeked : list.peek = .ok front) :
    ∃ rest, list.unread = front :: rest := by
  rw [peek] at peeked
  rw [unread]
  cases buffers : list.buffer with
  | nil => exact nomatch buffers ▸ peeked
  | cons first others =>
      rw [buffers] at peeked
      cases peeked
      exact ⟨others, rfl⟩

/-- The loop leaves what is behind the bytes it drops. -/
theorem unreadFrom_removeLoop (size len : Nat) {buffers : List Buffer} {skip : Nat}
    (short : skip ≤ (buffers.headD []).length) :
    unreadFrom (removeLoop size len buffers skip).2.1 (removeLoop size len buffers skip).2.2 =
      dropBytes len (unreadFrom buffers skip) := by
  induction buffers generalizing size len skip with
  | nil => simp [removeLoop, unreadFrom]
  | cons front rest ih =>
      rw [List.headD_cons] at short
      rw [removeLoop]
      rcases Nat.eq_zero_or_pos len with none | some
      · simp [none]
      · rw [if_neg (Nat.ne_of_gt some), unreadFrom, dropBytes_cons some, List.length_drop]
        by_cases whole : front.length - skip ≤ len
        · have used : skip + min len (front.length - skip) = front.length := by omega
          have popped : min len (front.length - skip) = front.length - skip := by omega
          rw [if_pos used, if_pos whole, ih _ _ (Nat.zero_le _), unreadFrom_zero, popped]
        · have partly : min len (front.length - skip) = len := by omega
          rw [if_neg (by omega), if_neg whole, partly, unreadFrom, List.drop_drop]

theorem unread_removePrefix (list : BufferList) (len : Nat) :
    (list.removePrefix len).unread = dropBytes len list.unread :=
  unreadFrom_removeLoop list.size len list.consistent.skip_le

end BufferList

end Minnow.Wire
