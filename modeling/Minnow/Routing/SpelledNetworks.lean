import Minnow.Routing.LongestPrefix

/-!
# Networks spelled in several ways

The bits of a prefix past its length do not count when an address is compared, but they are
part of the key.  Calls for one network that spell it differently make several entries, and
which of them wins is up to the hash map.
-/

namespace Minnow.Routing

open Foundation

/-- The call is the last one for the longest network that covers the address, however the
calls spell it. -/
def LastNaming (calls : List AddRoute) (ipv4Address : UInt32) (call : AddRoute) : Prop :=
  call.route.Covers ipv4Address ∧ ∃ before after, calls = before ++ call :: after ∧
    (∀ other ∈ before, other.route.Covers ipv4Address →
      other.route.prefixLength ≤ call.route.prefixLength) ∧
    ∀ other ∈ after, other.route.Covers ipv4Address →
      other.route.prefixLength < call.route.prefixLength

/-- In every order of the hash map a look-up gives the same, and where a route covers the
address that is the interface and the next hop of the last call for the network. -/
def OrderIndependent (calls : List AddRoute) (ipv4Address : UInt32) : Prop :=
  (∀ first second, (RouteTable.run calls).entries.Enumerates first →
    (RouteTable.run calls).entries.Enumerates second → ∀ interfaceNum,
    (RouteTable.run calls).lookUp first ipv4Address interfaceNum =
      (RouteTable.run calls).lookUp second ipv4Address interfaceNum) ∧
  ∀ call, LastNaming calls ipv4Address call →
    ∀ order, (RouteTable.run calls).entries.Enumerates order → ∀ interfaceNum,
    (RouteTable.run calls).lookUp order ipv4Address interfaceNum =
      (true, call.interfaceNum, call.nextHop)

/-- Under every spelling of the network the last call has the interface of the last call for the
network, and the last next hop given is that of this call. -/
def Aligned (calls : List AddRoute) (ipv4Address : UInt32) : Prop :=
  ∀ call, LastNaming calls ipv4Address call → ∀ other ∈ calls, other.route.Covers ipv4Address →
    other.route.prefixLength = call.route.prefixLength →
    (latest calls other.route).map AddRoute.interfaceNum = some call.interfaceNum ∧
      latestHop calls other.route = call.nextHop

variable {calls : List AddRoute} {order : List (UInt64 × UInt64)} {ipv4Address : UInt32}
  {call : AddRoute}

theorem LastNaming.mem (last : LastNaming calls ipv4Address call) : call ∈ calls := by
  obtain ⟨-, before, after, rfl, -⟩ := last
  exact List.mem_append_right _ List.mem_cons_self

theorem LastNaming.longest (last : LastNaming calls ipv4Address call) {other : AddRoute}
    (inside : other ∈ calls) (covers : other.route.Covers ipv4Address) :
    other.route.prefixLength ≤ call.route.prefixLength := by
  obtain ⟨-, before, after, rfl, longest, shorter⟩ := last
  rcases List.mem_append.mp inside with early | late
  · exact longest other early covers
  · rcases List.mem_cons.mp late with rfl | later
    · exact UInt8.le_refl _
    · exact UInt8.le_of_lt (shorter other later covers)

/-- A later call that does not cover the address, or names a shorter network, changes nothing. -/
theorem LastNaming.snoc (last : LastNaming calls ipv4Address call) {newest : AddRoute}
    (shorter : newest.route.Covers ipv4Address →
      newest.route.prefixLength < call.route.prefixLength) :
    LastNaming (calls ++ [newest]) ipv4Address call := by
  obtain ⟨covers, before, after, rfl, longest, later⟩ := last
  refine ⟨covers, before, after ++ [newest], by rw [List.append_assoc]; rfl, longest, ?_⟩
  intro other inside otherCovers
  rcases List.mem_append.mp inside with old | new
  · exact later other old otherCovers
  · rw [List.mem_singleton.mp new] at otherCovers ⊢
    exact shorter otherCovers

/-- Where a route covers the address, some call is the last for its network. -/
theorem exists_lastNaming {other : AddRoute} (inside : other ∈ calls)
    (covers : other.route.Covers ipv4Address) : ∃ call, LastNaming calls ipv4Address call := by
  induction calls using List.reverseRecOn generalizing other with
  | nil => exact absurd inside List.not_mem_nil
  | append_singleton calls newest ih =>
      by_cases longest : ∀ older ∈ calls, older.route.Covers ipv4Address →
          newest.route.Covers ipv4Address ∧ older.route.prefixLength ≤ newest.route.prefixLength
      · -- nothing before it covers the address, or the newest call is as long
        refine ⟨newest, ?_, calls, [], rfl, fun older olderIn olderCovers =>
          (longest older olderIn olderCovers).2, fun _ none => absurd none List.not_mem_nil⟩
        rcases List.mem_append.mp inside with old | new
        · exact (longest other old covers).1
        · rw [← List.mem_singleton.mp new]
          exact covers
      · simp only [not_forall] at longest
        obtain ⟨older, olderIn, olderCovers, beaten⟩ := longest
        obtain ⟨call, last⟩ := ih olderIn olderCovers
        refine ⟨call, last.snoc fun newestCovers => ?_⟩
        have shorter := UInt8.not_le.mp fun longer => beaten ⟨newestCovers, longer⟩
        exact UInt8.lt_of_lt_of_le shorter (last.longest olderIn olderCovers)

/-- The winner is one of the spellings of the network. -/
theorem Wins.spelling {route : Route} {num : UInt64}
    (walks : (RouteTable.run calls).entries.Enumerates order)
    (wins : Wins ipv4Address order route num) (last : LastNaming calls ipv4Address call) :
    ∃ other ∈ calls, other.route = route ∧ other.route.Covers ipv4Address ∧
      other.route.prefixLength = call.route.prefixLength ∧
      (latest calls other.route).map AddRoute.interfaceNum = some num := by
  obtain ⟨other, found, number⟩ := latest_of_wins walks wins
  obtain ⟨inside, rfl⟩ := mem_of_latest found
  obtain ⟨entryNum, entry⟩ := mem_order_of_mem walks last.mem
  refine ⟨other, inside, rfl, wins.1, ?_, ?_⟩
  · exact UInt8.le_antisymm (last.longest inside wins.1) (wins.longest entry last.1)
  · rw [found, ← number]
    rfl

/-- Under an order that walks it last, each spelling of the network wins. -/
theorem exists_order_wins {other : AddRoute} (inside : other ∈ calls)
    (covers : other.route.Covers ipv4Address) (last : LastNaming calls ipv4Address call)
    (same : other.route.prefixLength = call.route.prefixLength) :
    ∃ order num, (RouteTable.run calls).entries.Enumerates order ∧
      Wins ipv4Address order other.route num := by
  obtain ⟨num, entry⟩ := mem_order_of_mem (walk_enumerates calls) inside
  obtain ⟨before, walks⟩ := (walk_enumerates calls).last entry
  refine ⟨before ++ [(other.route.concat, num)], num, walks, covers, before, [], rfl, ?_, ?_⟩
  · intro third thirdNum thirdIn thirdCovers
    have present := (walks.mem_iff _ _).mp (List.mem_append_left _ thirdIn)
    obtain ⟨made, madeIn, packed⟩ := RouteTable.mem_of_entries present
    rw [← Route.concat_inj.mp packed] at thirdCovers ⊢
    rw [same]
    exact last.longest madeIn thirdCovers
  · exact fun _ _ none => absurd none List.not_mem_nil

/-- For all calls and every address, the order of the hash map does not matter and the last call
for a network counts, just if the spellings of the network that covers the address agree. -/
theorem orderIndependent_iff_aligned (calls : List AddRoute)
    (short : ∀ call ∈ calls, call.route.prefixLength ≤ 32) (ipv4Address : UInt32) :
    OrderIndependent calls ipv4Address ↔ Aligned calls ipv4Address := by
  constructor
  · rintro ⟨-, replaced⟩ call last other inside covers same
    obtain ⟨order, num, walks, wins⟩ := exists_order_wins inside covers last same
    have looked := replaced call last order walks 0
    rcases RouteTable.lookUp_eq (RouteTable.packed_run short walks) (RouteTable.run calls) 0 with
      ⟨missed, -⟩ | ⟨route, routeNum, routeWins, found⟩
    · exact absurd (congrArg Prod.fst (missed.symm.trans looked)) Bool.false_ne_true
    · obtain ⟨rfl, rfl⟩ := wins.unique routeWins
      obtain ⟨-, both⟩ := Prod.mk.inj (found.symm.trans looked)
      obtain ⟨number, hop⟩ := Prod.mk.inj both
      obtain ⟨spelled, -, equal, -, -, latestIs⟩ := wins.spelling walks last
      rw [equal, number] at latestIs
      rw [RouteTable.nextHops_run] at hop
      exact ⟨latestIs, hop⟩
  · intro aligned
    have later : ∀ call, LastNaming calls ipv4Address call → ∀ order,
        (RouteTable.run calls).entries.Enumerates order → ∀ interfaceNum,
        (RouteTable.run calls).lookUp order ipv4Address interfaceNum =
          (true, call.interfaceNum, call.nextHop) := by
      intro call last order walks interfaceNum
      rcases RouteTable.lookUp_eq (RouteTable.packed_run short walks) (RouteTable.run calls)
        interfaceNum with ⟨-, none⟩ | ⟨route, num, wins, found⟩
      · obtain ⟨num, entry⟩ := mem_order_of_mem walks last.mem
        exact absurd last.1 (none call.route num entry)
      · obtain ⟨other, inside, rfl, covers, same, latestIs⟩ := wins.spelling walks last
        obtain ⟨number, hop⟩ := aligned call last other inside covers same
        rw [found, RouteTable.nextHops_run, hop, Option.some.inj (latestIs.symm.trans number)]
    refine ⟨?_, later⟩
    intro first second firstWalks secondWalks interfaceNum
    by_cases covered : ∃ call ∈ calls, call.route.Covers ipv4Address
    · obtain ⟨other, inside, covers⟩ := covered
      obtain ⟨call, last⟩ := exists_lastNaming inside covers
      rw [later call last first firstWalks, later call last second secondWalks]
    · have missed : ∀ order, (RouteTable.run calls).entries.Enumerates order →
          (RouteTable.run calls).lookUp order ipv4Address interfaceNum =
            (false, interfaceNum, none) := by
        intro order walks
        rcases RouteTable.lookUp_eq (RouteTable.packed_run short walks) (RouteTable.run calls)
          interfaceNum with ⟨missed, -⟩ | ⟨route, num, wins, -⟩
        · exact missed
        · obtain ⟨call, found, -⟩ := latest_of_wins walks wins
          obtain ⟨inside, rfl⟩ := mem_of_latest found
          exact absurd ⟨call, inside, wins.1⟩ covered
      rw [missed first firstWalks, missed second secondWalks]

/-- One network spelled by two of its hosts. -/
def spelledTwice : List AddRoute := [⟨⟨0x0a000001, 8⟩, none, 0⟩, ⟨⟨0x0a000002, 8⟩, none, 1⟩]

theorem orderIndependent_iff_aligned_spelledTwice :
    OrderIndependent spelledTwice 0x0a010203 ↔ Aligned spelledTwice 0x0a010203 :=
  orderIndependent_iff_aligned spelledTwice (by decide) 0x0a010203

/-- Walked in the order of the calls the second interface is found, walked the other way the
first. -/
theorem orderIndependent_fails_spelledTwice :
    (∀ call ∈ spelledTwice, call.route.prefixLength ≤ 32) ∧
      (RouteTable.run spelledTwice).entries.Enumerates (walk spelledTwice) ∧
      (RouteTable.run spelledTwice).entries.Enumerates (walk spelledTwice).reverse ∧
      (RouteTable.run spelledTwice).lookUp (walk spelledTwice) 0x0a010203 7 = (true, 1, none) ∧
      (RouteTable.run spelledTwice).lookUp (walk spelledTwice).reverse 0x0a010203 7 =
        (true, 0, none) ∧
      ¬ OrderIndependent spelledTwice 0x0a010203 := by
  have walks := walk_enumerates spelledTwice
  have reversed := walks.perm (List.reverse_perm _).symm
  have first : (RouteTable.run spelledTwice).lookUp (walk spelledTwice) 0x0a010203 7 =
      (true, 1, none) := by decide
  have second : (RouteTable.run spelledTwice).lookUp (walk spelledTwice).reverse 0x0a010203 7 =
      (true, 0, none) := by decide
  refine ⟨by decide, walks, reversed, first, second, ?_⟩
  rintro ⟨same, -⟩
  rw [same _ _ walks reversed 7, second] at first
  exact absurd first (by decide)

end Minnow.Routing
