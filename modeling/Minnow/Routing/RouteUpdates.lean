import Minnow.Routing.RouteLookup

/-!
# Updates of the route table

The two halves of a route are updated apart.  A call without a next hop leaves the next hop
of an earlier call for the same route in place, and a look-up then puts the new interface
and the old next hop together.
-/

namespace Minnow.Routing

open Foundation Foundation.Runs

/-- The last call for a route. -/
def latest (calls : List AddRoute) (route : Route) : Option AddRoute :=
  calls.reverse.find? fun call => call.route == route

/-- The next hop of the last call for a route that has one. -/
def latestHop (calls : List AddRoute) (route : Route) : Option UInt32 :=
  calls.reverse.findSome? fun call => if call.route = route then call.nextHop else none

/-- A look-up that succeeds returns the interface and the next hop of one call, the last one
for the winning route. -/
def Coherent (calls : List AddRoute) (order : List (UInt64 × UInt64)) (ipv4Address : UInt32) :
    Prop :=
  ∀ interfaceNum num nextHop,
    (RouteTable.run calls).lookUp order ipv4Address interfaceNum = (true, num, nextHop) →
    ∃ route entry call, Wins ipv4Address order route entry ∧ latest calls route = some call ∧
      call.interfaceNum = num ∧ call.nextHop = nextHop

/-- The last call for the route has a next hop, or no call for it has one. -/
def Settled (calls : List AddRoute) (route : Route) : Prop :=
  ∀ call, latest calls route = some call → call.nextHop = none →
    ∀ earlier ∈ calls, earlier.route = route → earlier.nextHop = none

variable {calls : List AddRoute} {route : Route}

theorem latest_snoc (calls : List AddRoute) (call : AddRoute) (route : Route) :
    latest (calls ++ [call]) route =
      if call.route = route then some call else latest calls route := by
  rw [latest, List.reverse_append, List.reverse_singleton, List.singleton_append, List.find?_cons]
  by_cases same : call.route = route
  · rw [if_pos same, beq_iff_eq.mpr same]
  · rw [if_neg same, beq_false_of_ne same]
    rfl

theorem latestHop_snoc (calls : List AddRoute) (call : AddRoute) (route : Route) :
    latestHop (calls ++ [call]) route =
      (if call.route = route then call.nextHop else none).or (latestHop calls route) := by
  rw [latestHop, List.reverse_append, List.reverse_singleton, List.singleton_append,
    List.findSome?_cons]
  cases (if call.route = route then call.nextHop else none) with
  | none => rfl
  | some hop => rfl

theorem mem_of_latest {call : AddRoute} (last : latest calls route = some call) :
    call ∈ calls ∧ call.route = route := by
  refine ⟨List.mem_reverse.mp (List.mem_of_find?_eq_some last), ?_⟩
  have found := List.find?_some last
  simpa using found

namespace RouteTable

theorem run_snoc (calls : List AddRoute) (call : AddRoute) :
    run (calls ++ [call]) = (run calls).addRoute call :=
  exec_snoc _ _ _ _

/-- The entries hold the interface of the last call for each route. -/
theorem entries_run (calls : List AddRoute) (route : Route) :
    (run calls).entries.at? route.concat = (latest calls route).map AddRoute.interfaceNum := by
  induction calls using List.reverseRecOn with
  | nil => rfl
  | append_singleton calls call ih =>
      rw [run_snoc, latest_snoc]
      change Table.at? (Table.assign _ call.route.concat call.interfaceNum) _ = _
      by_cases same : call.route = route
      · rw [if_pos same, same, Table.at?_assign_self]
        rfl
      · have apart : route.concat ≠ call.route.concat :=
          fun equal => same (Route.concat_inj.mp equal).symm
        rw [if_neg same, Table.at?_assign_of_ne _ _ apart, ih]

/-- The next hops hold that of the last call with one. -/
theorem nextHops_run (calls : List AddRoute) (route : Route) :
    (run calls).nextHops.at? route.concat = latestHop calls route := by
  induction calls using List.reverseRecOn with
  | nil => rfl
  | append_singleton calls call ih =>
      rw [run_snoc, latestHop_snoc, ← ih]
      change (insert _ _ _ call.nextHop).nextHops.at? _ = _
      cases call.nextHop with
      | none =>
          rw [ite_self, Option.none_or]
          rfl
      | some hop =>
          by_cases same : call.route = route
          · rw [if_pos same, same]
            exact Table.at?_assign_self _ _ _
          · have apart : route.concat ≠ call.route.concat :=
              fun equal => same (Route.concat_inj.mp equal).symm
            rw [if_neg same, Option.none_or]
            exact Table.at?_assign_of_ne _ _ apart

/-- Only calls make entries. -/
theorem mem_of_entries {key num : UInt64} (present : (run calls).entries.at? key = some num) :
    ∃ call ∈ calls, call.route.concat = key := by
  induction calls using List.reverseRecOn with
  | nil => exact nomatch present
  | append_singleton calls call ih =>
      rw [run_snoc] at present
      change Table.at? (Table.assign _ call.route.concat call.interfaceNum) _ = _ at present
      by_cases same : key = call.route.concat
      · exact ⟨call, by simp, same.symm⟩
      · rw [Table.at?_assign_of_ne _ _ same] at present
        obtain ⟨other, inside, made⟩ := ih present
        exact ⟨other, List.mem_append_left _ inside, made⟩

theorem packed_run {order : List (UInt64 × UInt64)}
    (short : ∀ call ∈ calls, call.route.prefixLength ≤ 32)
    (walks : (run calls).entries.Enumerates order) : Packed order := by
  rintro ⟨key, num⟩ inside
  obtain ⟨call, made, packed⟩ := mem_of_entries ((walks.mem_iff key num).mp inside)
  exact ⟨call.route, packed, short call made⟩

end RouteTable

/-- The two halves agree just if the route is settled. -/
theorem latestHop_eq_iff {call : AddRoute} (last : latest calls route = some call) :
    latestHop calls route = call.nextHop ↔ Settled calls route := by
  constructor
  · intro agree other otherLast direct earlier inside same
    cases last.symm.trans otherLast
    rw [direct] at agree
    have each := List.findSome?_eq_none_iff.mp agree earlier (List.mem_reverse.mpr inside)
    rw [if_pos same] at each
    exact each
  · intro settled
    cases given : call.nextHop with
    | none =>
        apply List.findSome?_eq_none_iff.mpr
        intro earlier inside
        by_cases same : earlier.route = route
        · rw [if_pos same]
          exact settled call last given earlier (List.mem_reverse.mp inside) same
        · exact if_neg same
    | some hop =>
        obtain ⟨-, later, former, split, passed⟩ := List.find?_eq_some_iff_append.mp last
        have skipped : later.findSome?
            (fun call => if call.route = route then call.nextHop else none) = none := by
          apply List.findSome?_eq_none_iff.mpr
          intro other inside
          have differs := passed other inside
          refine if_neg (fun same => ?_)
          rw [same] at differs
          simp at differs
        rw [latestHop, split, List.findSome?_append, skipped, Option.none_or, List.findSome?_cons,
          if_pos (mem_of_latest last).2, given]

theorem latest_of_wins {order : List (UInt64 × UInt64)} {ipv4Address : UInt32} {num : UInt64}
    (walks : (RouteTable.run calls).entries.Enumerates order)
    (wins : Wins ipv4Address order route num) :
    ∃ call, latest calls route = some call ∧ call.interfaceNum = num := by
  have present := (walks.mem_iff _ _).mp wins.mem
  rw [RouteTable.entries_run] at present
  exact Option.map_eq_some_iff.mp present

/-- For every walk of the table and every address, a look-up is coherent just if the
winning route, should there be one, is settled. -/
theorem coherent_iff_settled (calls : List AddRoute)
    (short : ∀ call ∈ calls, call.route.prefixLength ≤ 32) (order : List (UInt64 × UInt64))
    (walks : (RouteTable.run calls).entries.Enumerates order) (ipv4Address : UInt32) :
    Coherent calls order ipv4Address ↔
      ∀ route num, Wins ipv4Address order route num → Settled calls route := by
  have packed := RouteTable.packed_run short walks
  constructor
  · intro coherent route num wins
    obtain ⟨call, last, -⟩ := latest_of_wins walks wins
    rcases RouteTable.lookUp_eq packed (RouteTable.run calls) 0 with
      ⟨-, none⟩ | ⟨winner, winnerNum, winnerWins, found⟩
    · exact absurd wins.1 (none route num wins.mem)
    · obtain ⟨rfl, rfl⟩ := wins.unique winnerWins
      obtain ⟨other, _, otherCall, otherWins, otherLast, -, hop⟩ := coherent 0 num _ found
      obtain ⟨rfl, -⟩ := wins.unique otherWins
      cases last.symm.trans otherLast
      rw [RouteTable.nextHops_run] at hop
      exact (latestHop_eq_iff last).mp hop.symm
  · intro settled interfaceNum num nextHop found
    rcases RouteTable.lookUp_eq packed (RouteTable.run calls) interfaceNum with
      ⟨missed, -⟩ | ⟨route, routeNum, wins, looked⟩
    · exact absurd (congrArg Prod.fst (missed.symm.trans found)) Bool.false_ne_true
    · obtain ⟨-, both⟩ := Prod.mk.inj (looked.symm.trans found)
      obtain ⟨rfl, rfl⟩ := Prod.mk.inj both
      obtain ⟨call, last, entry⟩ := latest_of_wins walks wins
      refine ⟨route, routeNum, call, wins, last, entry, ?_⟩
      rw [RouteTable.nextHops_run]
      exact ((latestHop_eq_iff last).mpr (settled route routeNum wins)).symm

/-- A gateway route is replaced by a direct one. -/
def replaced : List AddRoute :=
  [⟨⟨0x0a000000, 8⟩, some 0xc0a80001, 0⟩, ⟨⟨0x0a000000, 8⟩, none, 1⟩]

/-- The only entry of the table. -/
def replacedOrder : List (UInt64 × UInt64) := [((⟨0x0a000000, 8⟩ : Route).concat, 1)]

theorem replaced_walks : (RouteTable.run replaced).entries.Enumerates replacedOrder where
  nodup := by decide
  mem_iff := by
    intro key value
    change (key, value) ∈ [_] ↔ Table.at? (Table.assign (Table.assign Table.empty _ 0) _ 1) key = _
    by_cases same : key = (⟨0x0a000000, 8⟩ : Route).concat
    · rw [same, Table.at?_assign_self, List.mem_singleton, Prod.mk.injEq, eq_self, true_and,
        Option.some.injEq, eq_comm]
    · rw [Table.at?_assign_of_ne _ _ same, Table.at?_assign_of_ne _ _ same, List.mem_singleton,
        Prod.mk.injEq]
      exact iff_of_false (fun equal => same equal.1) (fun missing => nomatch missing)

theorem coherent_iff_settled_replaced :
    Coherent replaced replacedOrder 0x0a010203 ↔
      ∀ route num, Wins 0x0a010203 replacedOrder route num → Settled replaced route :=
  coherent_iff_settled replaced (by decide) replacedOrder replaced_walks 0x0a010203

/-- The interface is that of the second call, the next hop that of the first. -/
theorem coherent_fails_replaced :
    (∀ call ∈ replaced, call.route.prefixLength ≤ 32) ∧
      (RouteTable.run replaced).entries.Enumerates replacedOrder ∧
      ¬ Coherent replaced replacedOrder 0x0a010203 := by
  refine ⟨by decide, replaced_walks, ?_⟩
  intro coherent
  obtain ⟨route, entry, call, -, last, num, hop⟩ := coherent 0 1 (some 0xc0a80001) (by decide)
  rcases List.mem_cons.mp (mem_of_latest last).1 with first | second
  · rw [first] at num
    exact absurd num (by decide)
  · rw [List.mem_singleton.mp second] at hop
    exact absurd hop (Option.some_ne_none _).symm

end Minnow.Routing
