import Minnow.Foundation.Runs
import Minnow.Foundation.Table
import Minnow.Foundation.Words

/-!
# The route table

A route is a prefix and its length, packed into one word.  Its interface and its next hop
stand in two tables under that word.  A look-up walks the entries in the order of the hash
map, which is a parameter here.
-/

namespace Minnow.Routing

open Foundation Foundation.Runs

/-- The first `prefixLength` bits of an address. -/
structure Route where
  routePrefix : UInt32
  prefixLength : UInt8
  deriving DecidableEq, Repr

namespace Route

/-- The prefix in the high half, its length in the low half. -/
def concat (route : Route) : UInt64 :=
  (route.routePrefix.toUInt64 <<< 32) + route.prefixLength.toUInt64

/-- The address agrees with the prefix on the bits that count. -/
def Covers (route : Route) (ipv4Address : UInt32) : Prop :=
  ipv4Address.toNat / 2 ^ (32 - route.prefixLength.toNat) =
    route.routePrefix.toNat / 2 ^ (32 - route.prefixLength.toNat)

instance (route : Route) (ipv4Address : UInt32) : Decidable (route.Covers ipv4Address) :=
  inferInstanceAs (Decidable (_ = _))

end Route

structure RouteTable where
  entries : Table UInt64 UInt64
  nextHops : Table UInt64 UInt32

/-- The variables of a look-up. -/
structure Search where
  concat : UInt64
  longestPrefixLength : UInt8
  num : UInt64
  matched : Bool

namespace RouteTable

def new : RouteTable := ⟨Table.empty, Table.empty⟩

/-- Whether the address lies under the packed prefix.  For a length above 32 the source
shifts by a negative amount. -/
def isMatch (ipv4Address : UInt32) (concat : UInt64) : Bool :=
  let prefixLength := concat &&& 0x3F
  let routePrefixMask := 0xFFFFFFFF - (((1 : UInt64) <<< (32 - prefixLength)) - 1)
  ((concat >>> 32) &&& routePrefixMask) == (ipv4Address.toUInt64 &&& routePrefixMask)

/-- The next hop is stored only if there is one. -/
def insert (table : RouteTable) (concat num : UInt64) (nextHop : Option UInt32) : RouteTable where
  entries := table.entries.assign concat num
  nextHops :=
    match nextHop with
    | some hop => table.nextHops.assign concat hop
    | none => table.nextHops

/-- One round of the loop over the entries. -/
def visit (ipv4Address : UInt32) (search : Search) (entry : UInt64 × UInt64) : Search :=
  let length := entry.1 &&& 0xFFFFFFFF
  if isMatch ipv4Address entry.1 && decide (search.longestPrefixLength.toUInt64 ≤ length) then
    ⟨entry.1, length.toUInt8, entry.2, true⟩
  else search

/-- The loop over the entries, in the order in which the map gives them. -/
def searchAll (ipv4Address : UInt32) (order : List (UInt64 × UInt64)) : Search :=
  order.foldl (visit ipv4Address) ⟨0, 0, 0, false⟩

/-- Whether a route matched, the interface number, which is left as it was if none did, and
the next hop. -/
def lookUp (table : RouteTable) (order : List (UInt64 × UInt64)) (ipv4Address : UInt32)
    (interfaceNum : UInt64) : Bool × UInt64 × Option UInt32 :=
  let search := searchAll ipv4Address order
  (search.matched, if search.matched then search.num else interfaceNum,
    if search.matched then table.nextHops.at? search.concat else none)

end RouteTable

/-- The arguments of `add_route`. -/
structure AddRoute where
  route : Route
  nextHop : Option UInt32
  interfaceNum : UInt64
  deriving DecidableEq, Repr

namespace RouteTable

def addRoute (table : RouteTable) (call : AddRoute) : RouteTable :=
  table.insert call.route.concat call.interfaceNum call.nextHop

def run (calls : List AddRoute) : RouteTable := exec addRoute new calls

end RouteTable

/-! ## Packed routes -/

namespace Route

variable {route other : Route} {ipv4Address : UInt32}

theorem concat_toNat (route : Route) :
    route.concat.toNat = route.routePrefix.toNat * 2 ^ 32 + route.prefixLength.toNat := by
  have high := route.routePrefix.toNat_lt
  have low := route.prefixLength.toNat_lt
  simp only [concat, UInt64.toNat_add, UInt64.toNat_shiftLeft, UInt32.toNat_toUInt64,
    UInt8.toNat_toUInt64, Nat.shiftLeft_eq]
  rw [show (32 : UInt64).toNat % 64 = 32 from rfl]
  omega

theorem concat_inj : route.concat = other.concat ↔ route = other := by
  constructor
  · intro same
    have numbers := congrArg UInt64.toNat same
    rw [concat_toNat, concat_toNat] at numbers
    have first := route.prefixLength.toNat_lt
    have second := other.prefixLength.toNat_lt
    have prefixes : route.routePrefix = other.routePrefix := UInt32.toNat.inj (by omega)
    have lengths : route.prefixLength = other.prefixLength := UInt8.toNat.inj (by omega)
    cases route
    cases other
    rw [Route.mk.injEq]
    exact ⟨prefixes, lengths⟩
  · exact congrArg concat

/-- The length is the low half. -/
theorem concat_length (route : Route) :
    route.concat &&& 0xFFFFFFFF = route.prefixLength.toUInt64 := by
  have low := route.prefixLength.toNat_lt
  apply UInt64.toNat.inj
  rw [UInt64.toNat_and, concat_toNat, UInt8.toNat_toUInt64,
    show (0xFFFFFFFF : UInt64).toNat = 2 ^ 32 - 1 from rfl, Nat.and_two_pow_sub_one_eq_mod]
  omega

theorem routePrefixMask_toNat {length : UInt8} (short : length ≤ 32) :
    (0xFFFFFFFF - (((1 : UInt64) <<< (32 - length.toUInt64)) - 1)).toNat =
      2 ^ 32 - 2 ^ (32 - length.toNat) := by
  have small : length.toNat ≤ 32 := UInt8.le_iff_toNat_le.mp short
  have bounded : 2 ^ (32 - length.toNat) ≤ 2 ^ 32 :=
    Nat.pow_le_pow_right (by decide) (Nat.sub_le _ _)
  have positive : 0 < 2 ^ (32 - length.toNat) := Nat.two_pow_pos _
  have amount : (32 - length.toUInt64 : UInt64).toNat = 32 - length.toNat := by
    have fits : length.toUInt64 ≤ 32 := UInt64.le_iff_toNat_le.mpr (by simpa using small)
    rw [UInt64.toNat_sub_of_le _ _ fits, UInt8.toNat_toUInt64]
    rfl
  have shifted : ((1 : UInt64) <<< (32 - length.toUInt64)).toNat = 2 ^ (32 - length.toNat) := by
    have within : (32 - length.toNat) % 64 = 32 - length.toNat := by omega
    rw [UInt64.toNat_shiftLeft, amount, within, Nat.shiftLeft_eq,
      show (1 : UInt64).toNat = 1 from rfl, Nat.one_mul]
    omega
  have low : (((1 : UInt64) <<< (32 - length.toUInt64)) - 1).toNat =
      2 ^ (32 - length.toNat) - 1 := by
    rw [UInt64.toNat_sub_of_le _ _ (UInt64.le_iff_toNat_le.mpr (by rw [shifted]; exact positive)),
      shifted]
    rfl
  have below : (((1 : UInt64) <<< (32 - length.toUInt64)) - 1).toNat ≤
      (0xFFFFFFFF : UInt64).toNat := by
    rw [low, show (0xFFFFFFFF : UInt64).toNat = 2 ^ 32 - 1 from rfl]
    omega
  rw [UInt64.toNat_sub_of_le _ _ (UInt64.le_iff_toNat_le.mpr below), low,
    show (0xFFFFFFFF : UInt64).toNat = 2 ^ 32 - 1 from rfl]
  omega

/-- Matching compares the bits that count. -/
theorem isMatch_concat (short : route.prefixLength ≤ 32) :
    RouteTable.isMatch ipv4Address route.concat = true ↔ route.Covers ipv4Address := by
  have length : route.prefixLength.toNat ≤ 32 := UInt8.le_iff_toNat_le.mp short
  have positive : 0 < 2 ^ (32 - route.prefixLength.toNat) := Nat.two_pow_pos _
  have addressFits := ipv4Address.toNat_lt
  have prefixFits := route.routePrefix.toNat_lt
  have masked : route.concat &&& 0x3F = route.prefixLength.toUInt64 := by
    apply UInt64.toNat.inj
    rw [UInt64.toNat_and, concat_toNat, UInt8.toNat_toUInt64,
      show (0x3F : UInt64).toNat = 2 ^ 6 - 1 from rfl, Nat.and_two_pow_sub_one_eq_mod]
    omega
  have shifted : (route.concat >>> 32).toNat = route.routePrefix.toNat := by
    rw [UInt64.toNat_shiftRight, concat_toNat, show (32 : UInt64).toNat % 64 = 32 from rfl,
      Nat.shiftRight_eq_div_pow]
    omega
  have mask : (0xFFFFFFFF - (((1 : UInt64) <<< (32 - route.prefixLength.toUInt64)) - 1)).toNat =
      2 ^ 32 - 2 ^ (32 - route.prefixLength.toNat) :=
    routePrefixMask_toNat short
  rw [RouteTable.isMatch, masked, beq_iff_eq, ← UInt64.toNat_inj, UInt64.toNat_and,
    UInt64.toNat_and, mask, shifted, UInt32.toNat_toUInt64,
    Words.and_highMask prefixFits (Nat.sub_le _ _), Words.and_highMask addressFits (Nat.sub_le _ _),
    Covers]
  constructor
  · exact fun same => (Nat.eq_of_mul_eq_mul_right positive same).symm
  · exact fun same => by rw [same]

end Route

end Minnow.Routing
