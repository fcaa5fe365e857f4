import Minnow.Routing.RouteUpdates

/-!
# The longest prefix

The walk ends with a longest route that covers the address, among all routes ever added.
-/

namespace Minnow.Routing

open Foundation

variable {calls : List AddRoute} {order : List (UInt64 × UInt64)} {ipv4Address : UInt32}

/-- The winner is no shorter than any other entry that covers the address. -/
theorem Wins.longest {route other : Route} {num otherNum : UInt64}
    (wins : Wins ipv4Address order route num) (inside : (other.concat, otherNum) ∈ order)
    (covers : other.Covers ipv4Address) : other.prefixLength ≤ route.prefixLength := by
  obtain ⟨-, before, after, split, longest, shorter⟩ := wins
  rw [split] at inside
  rcases List.mem_append.mp inside with early | late
  · exact longest other otherNum early covers
  · rcases List.mem_cons.mp late with here | later
    · rw [Route.concat_inj.mp (Prod.mk.inj here).1]
      exact UInt8.le_refl _
    · exact UInt8.le_of_lt (shorter other otherNum later covers)

theorem exists_latest {call : AddRoute} (inside : call ∈ calls) :
    ∃ last, latest calls call.route = some last := by
  apply Option.isSome_iff_exists.mp
  rw [latest, List.find?_isSome]
  exact ⟨call, List.mem_reverse.mpr inside, beq_self_eq_true _⟩

/-- Every route added has an entry. -/
theorem mem_order_of_mem (walks : (RouteTable.run calls).entries.Enumerates order)
    {call : AddRoute} (inside : call ∈ calls) : ∃ num, (call.route.concat, num) ∈ order := by
  obtain ⟨last, found⟩ := exists_latest inside
  refine ⟨last.interfaceNum, (walks.mem_iff _ _).mpr ?_⟩
  rw [RouteTable.entries_run, found]
  rfl

/-- One order of the entries: that of the first calls for them. -/
def walk (calls : List AddRoute) : List (UInt64 × UInt64) :=
  (RouteTable.run calls).entries.listed (calls.map fun call => call.route.concat)

theorem walk_enumerates (calls : List AddRoute) :
    (RouteTable.run calls).entries.Enumerates (walk calls) := by
  apply Table.enumerates_listed
  intro key num present
  obtain ⟨call, inside, packed⟩ := RouteTable.mem_of_entries present
  exact List.mem_map.mpr ⟨call, inside, packed⟩

/-- A look-up succeeds just if some route covers the address. -/
theorem lookUp_matched_iff (short : ∀ call ∈ calls, call.route.prefixLength ≤ 32)
    (walks : (RouteTable.run calls).entries.Enumerates order) (interfaceNum : UInt64) :
    ((RouteTable.run calls).lookUp order ipv4Address interfaceNum).1 = true ↔
      ∃ call ∈ calls, call.route.Covers ipv4Address := by
  have packed := RouteTable.packed_run short walks
  rcases RouteTable.lookUp_eq packed (RouteTable.run calls) interfaceNum with
    ⟨missed, none⟩ | ⟨route, num, wins, found⟩
  · rw [missed]
    refine iff_of_false Bool.false_ne_true ?_
    rintro ⟨call, inside, covers⟩
    obtain ⟨num, entry⟩ := mem_order_of_mem walks inside
    exact none call.route num entry covers
  · rw [found]
    obtain ⟨call, last, -⟩ := latest_of_wins walks wins
    obtain ⟨inside, rfl⟩ := mem_of_latest last
    exact iff_of_true rfl ⟨call, inside, wins.1⟩

/-- For every walk of the table a look-up succeeds just if some route covers the address; it
then returns the interface of the last call for a longest such route, and otherwise leaves the
interface number and gives no next hop. -/
theorem longest_prefix_match (calls : List AddRoute)
    (short : ∀ call ∈ calls, call.route.prefixLength ≤ 32) (order : List (UInt64 × UInt64))
    (walks : (RouteTable.run calls).entries.Enumerates order) (ipv4Address : UInt32)
    (interfaceNum : UInt64) :
    (((RouteTable.run calls).lookUp order ipv4Address interfaceNum).1 = true ↔
        ∃ call ∈ calls, call.route.Covers ipv4Address) ∧
      (((RouteTable.run calls).lookUp order ipv4Address interfaceNum).1 = true →
        ∃ call ∈ calls, call.route.Covers ipv4Address ∧ latest calls call.route = some call ∧
          ((RouteTable.run calls).lookUp order ipv4Address interfaceNum).2.1 = call.interfaceNum ∧
          ∀ other ∈ calls, other.route.Covers ipv4Address →
            other.route.prefixLength ≤ call.route.prefixLength) ∧
      (((RouteTable.run calls).lookUp order ipv4Address interfaceNum).1 = false →
        ((RouteTable.run calls).lookUp order ipv4Address interfaceNum).2 = (interfaceNum, none)) := by
  refine ⟨lookUp_matched_iff short walks interfaceNum, ?_⟩
  have packed := RouteTable.packed_run short walks
  rcases RouteTable.lookUp_eq packed (RouteTable.run calls) interfaceNum with
    ⟨missed, -⟩ | ⟨route, num, wins, found⟩
  · rw [missed]
    exact ⟨fun matched => absurd matched Bool.false_ne_true, fun _ => rfl⟩
  · rw [found]
    obtain ⟨call, last, number⟩ := latest_of_wins walks wins
    obtain ⟨inside, rfl⟩ := mem_of_latest last
    refine ⟨fun _ => ?_, fun missed => absurd missed.symm Bool.false_ne_true⟩
    refine ⟨call, inside, wins.1, last, number.symm, ?_⟩
    intro other otherIn covers
    obtain ⟨otherNum, entry⟩ := mem_order_of_mem walks otherIn
    exact wins.longest entry covers

/-- A route of length eight, and a default route. -/
def near : List AddRoute := [⟨⟨0x0a000000, 8⟩, none, 1⟩]

def nested : List AddRoute := ⟨⟨0, 0⟩, some 0xc0a80001, 0⟩ :: near

/-- The longer route wins where both match, and without the default route there may be none. -/
theorem longest_prefix_match_nested :
    ((RouteTable.run nested).lookUp (walk nested) 0x0a010203 7).1 = true ∧
      ((RouteTable.run nested).lookUp (walk nested) 0x0a010203 7).2.1 = 1 ∧
      ((RouteTable.run near).lookUp (walk near) 0xc0a80102 7).2 = (7, none) := by
  obtain ⟨found, longest, -⟩ := longest_prefix_match nested (by decide) (walk nested)
    (walk_enumerates nested) 0x0a010203 7
  obtain ⟨missed, -, left⟩ := longest_prefix_match near (by decide) (walk near)
    (walk_enumerates near) 0xc0a80102 7
  have hit := found.mpr ⟨⟨⟨0x0a000000, 8⟩, none, 1⟩, by decide, by decide⟩
  refine ⟨hit, ?_, left (Bool.not_eq_true _ ▸ fun other => ?_)⟩
  · obtain ⟨call, inside, -, -, number, most⟩ := longest hit
    rw [number]
    have least := most ⟨⟨0x0a000000, 8⟩, none, 1⟩ (by decide) (by decide)
    rcases List.mem_cons.mp inside with rfl | rest
    · exact absurd least (by decide)
    · rw [List.mem_singleton.mp rest]
  · obtain ⟨call, inside, covers⟩ := missed.mp other
    rw [List.mem_singleton.mp inside] at covers
    exact absurd covers (by decide)

end Minnow.Routing
