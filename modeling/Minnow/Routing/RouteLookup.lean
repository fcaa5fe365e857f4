import Minnow.Routing.RouteTable
import Mathlib.Data.List.Induction

/-!
# What a look-up finds

The winning route is the longest one that covers the address; among several of the same
length it is the last one walked.
-/

namespace Minnow.Routing

open Foundation

/-- Every entry stands under a route of proper length. -/
def Packed (order : List (UInt64 × UInt64)) : Prop :=
  ∀ entry ∈ order, ∃ route : Route, route.concat = entry.1 ∧ route.prefixLength ≤ 32

/-- The route covers the address, none that is walked before it is longer, and those walked
after it are shorter, of the routes that cover the address. -/
def Wins (ipv4Address : UInt32) (order : List (UInt64 × UInt64)) (route : Route) (num : UInt64) :
    Prop :=
  route.Covers ipv4Address ∧ ∃ before after, order = before ++ (route.concat, num) :: after ∧
    (∀ other : Route, ∀ otherNum, (other.concat, otherNum) ∈ before → other.Covers ipv4Address →
      other.prefixLength ≤ route.prefixLength) ∧
    ∀ other : Route, ∀ otherNum, (other.concat, otherNum) ∈ after → other.Covers ipv4Address →
      other.prefixLength < route.prefixLength

variable {ipv4Address : UInt32} {order : List (UInt64 × UInt64)} {route other : Route}
  {num otherNum : UInt64}

theorem Wins.mem (wins : Wins ipv4Address order route num) : (route.concat, num) ∈ order := by
  obtain ⟨-, before, after, split, -⟩ := wins
  rw [split]
  exact List.mem_append_right _ List.mem_cons_self

/-- A winner that is walked before another one would be both longer and no longer. -/
theorem eq_of_walked_first {before between after otherAfter : List (UInt64 × UInt64)}
    (covers : route.Covers ipv4Address) (otherCovers : other.Covers ipv4Address)
    (shorter : ∀ third : Route, ∀ thirdNum, (third.concat, thirdNum) ∈ after →
      third.Covers ipv4Address → third.prefixLength < route.prefixLength)
    (longest : ∀ third : Route, ∀ thirdNum, (third.concat, thirdNum) ∈ before ++ between →
      third.Covers ipv4Address → third.prefixLength ≤ other.prefixLength)
    (split : (route.concat, num) :: after = between ++ (other.concat, otherNum) :: otherAfter) :
    route = other ∧ num = otherNum := by
  cases between with
  | nil =>
      obtain ⟨same, -⟩ := List.cons.inj split
      obtain ⟨keys, nums⟩ := Prod.mk.inj same
      exact ⟨Route.concat_inj.mp keys, nums⟩
  | cons entry more =>
      obtain ⟨rfl, rest⟩ := List.cons.inj split
      have later : (other.concat, otherNum) ∈ after := by
        rw [rest]
        exact List.mem_append_right _ List.mem_cons_self
      have earlier : (route.concat, num) ∈ before ++ (route.concat, num) :: more :=
        List.mem_append_right _ List.mem_cons_self
      have less := shorter other otherNum later otherCovers
      have noLonger := longest route num earlier covers
      exact absurd less (UInt8.not_lt.mpr noLonger)

theorem Wins.unique (first : Wins ipv4Address order route num)
    (second : Wins ipv4Address order other otherNum) : route = other ∧ num = otherNum := by
  obtain ⟨covers, before, after, split, longest, shorter⟩ := first
  obtain ⟨otherCovers, otherBefore, otherAfter, otherSplit, otherLongest, otherShorter⟩ := second
  rw [split] at otherSplit
  rcases List.append_eq_append_iff.mp otherSplit with ⟨between, rfl, there⟩ | ⟨between, rfl, there⟩
  · exact eq_of_walked_first covers otherCovers shorter otherLongest there
  · obtain ⟨same, nums⟩ := eq_of_walked_first otherCovers covers otherShorter longest there
    exact ⟨same.symm, nums.symm⟩

namespace RouteTable

/-- One round of the loop, at an entry that stands under a route. -/
theorem visit_concat (short : route.prefixLength ≤ 32) (search : Search) :
    visit ipv4Address search (route.concat, num) =
      if route.Covers ipv4Address ∧ search.longestPrefixLength ≤ route.prefixLength then
        ⟨route.concat, route.prefixLength, num, true⟩
      else search := by
  have length : (route.concat &&& 0xFFFFFFFF).toUInt8 = route.prefixLength := by
    rw [route.concat_length]
    exact UInt8.toUInt8_toUInt64 _
  have compared : search.longestPrefixLength.toUInt64 ≤ route.concat &&& 0xFFFFFFFF ↔
      search.longestPrefixLength ≤ route.prefixLength := by
    rw [route.concat_length, UInt64.le_iff_toNat_le, UInt8.le_iff_toNat_le, UInt8.toNat_toUInt64,
      UInt8.toNat_toUInt64]
  rw [visit]
  simp only [Bool.and_eq_true, decide_eq_true_eq, Route.isMatch_concat short, compared, length]

theorem of_last (inside : (other.concat, otherNum) ∈ [(route.concat, num)]) : other = route :=
  Route.concat_inj.mp (Prod.mk.inj (List.mem_singleton.mp inside)).1

/-- The loop ends with the winner, or at its start where no route covers the address. -/
theorem searchAll_spec (packed : Packed order) :
    (searchAll ipv4Address order = ⟨0, 0, 0, false⟩ ∧
        ∀ route : Route, ∀ num, (route.concat, num) ∈ order → ¬ route.Covers ipv4Address) ∨
      ∃ route num, Wins ipv4Address order route num ∧
        searchAll ipv4Address order = ⟨route.concat, route.prefixLength, num, true⟩ := by
  induction order using List.reverseRecOn with
  | nil => exact Or.inl ⟨rfl, fun _ _ inside => absurd inside List.not_mem_nil⟩
  | append_singleton earlier entry ih =>
      obtain ⟨key, num⟩ := entry
      obtain ⟨route, rfl, short⟩ := packed _ (List.mem_append_right _ (List.mem_singleton_self _))
      have found := ih (fun entry inside => packed entry (List.mem_append_left _ inside))
      have stepped : searchAll ipv4Address (earlier ++ [(route.concat, num)]) =
          visit ipv4Address (searchAll ipv4Address earlier) (route.concat, num) := by
        rw [searchAll, List.foldl_append]
        rfl
      rw [stepped, visit_concat short]
      rcases found with ⟨start, none⟩ | ⟨winner, winnerNum, wins, searched⟩
      · rw [start]
        by_cases covers : route.Covers ipv4Address
        · refine Or.inr ⟨route, num, ⟨covers, earlier, [], rfl, ?_, ?_⟩, ?_⟩
          · exact fun other otherNum inside covered => absurd covered (none other otherNum inside)
          · exact fun _ _ inside => absurd inside List.not_mem_nil
          · rw [if_pos ⟨covers, UInt8.le_iff_toNat_le.mpr (Nat.zero_le _)⟩]
        · refine Or.inl ⟨if_neg (fun both => covers both.1), ?_⟩
          intro other otherNum inside
          rcases List.mem_append.mp inside with old | new
          · exact none other otherNum old
          · rw [of_last new]
            exact covers
      · rw [searched]
        obtain ⟨winnerCovers, before, after, rfl, longest, shorter⟩ := wins
        by_cases better : route.Covers ipv4Address ∧ winner.prefixLength ≤ route.prefixLength
        · rw [if_pos better]
          refine Or.inr ⟨route, num, ⟨better.1, _, [], rfl, ?_, ?_⟩, rfl⟩
          · intro other otherNum inside covered
            refine UInt8.le_trans ?_ better.2
            rcases List.mem_append.mp inside with early | late
            · exact longest other otherNum early covered
            · rcases List.mem_cons.mp late with here | later
              · exact Route.concat_inj.mp (Prod.mk.inj here).1 ▸ UInt8.le_refl _
              · exact UInt8.le_of_lt (shorter other otherNum later covered)
          · exact fun _ _ inside => absurd inside List.not_mem_nil
        · rw [if_neg better]
          refine Or.inr ⟨winner, winnerNum, ⟨winnerCovers, before, after ++ [(route.concat, num)],
            by rw [List.append_assoc]; rfl, longest, ?_⟩, rfl⟩
          intro other otherNum inside covered
          rcases List.mem_append.mp inside with old | new
          · exact shorter other otherNum old covered
          · rw [of_last new] at covered ⊢
            exact UInt8.not_le.mp (fun longer => better ⟨covered, longer⟩)

/-- What a look-up returns is the number of the winning route, if there is one, and what
the table of next hops holds for it. -/
theorem lookUp_eq (packed : Packed order) (table : RouteTable) (interfaceNum : UInt64) :
    (table.lookUp order ipv4Address interfaceNum = (false, interfaceNum, none) ∧
        ∀ route : Route, ∀ num, (route.concat, num) ∈ order → ¬ route.Covers ipv4Address) ∨
      ∃ route num, Wins ipv4Address order route num ∧
        table.lookUp order ipv4Address interfaceNum =
          (true, num, table.nextHops.at? route.concat) := by
  rcases searchAll_spec packed with ⟨start, none⟩ | ⟨route, num, wins, searched⟩
  · refine Or.inl ⟨?_, none⟩
    rw [lookUp, start]
    rfl
  · refine Or.inr ⟨route, num, wins, ?_⟩
    rw [lookUp, searched]
    rfl

end RouteTable

end Minnow.Routing
