import Minnow.Link.InterfaceSteps
import Minnow.Routing.LongestPrefix
import Minnow.Routing.Router
import Minnow.Wire.Reencoding

/-!
# What the router forwards

The queues are emptied one after another, and each datagram in them is forwarded once or
dropped.
-/

namespace Minnow.Link

open Wire

/-- Some interface has passed the datagram up. -/
def PassedUp (dgram : InternetDatagram) : Prop :=
  ∃ (interface next : NetworkInterface) (frame : EthernetFrame),
    interface.recvFrame frame = .ok (next, some dgram)

/-- What is passed up was accepted by the parser. -/
theorem PassedUp.wellFormed {dgram : InternetDatagram} (passed : PassedUp dgram) :
    dgram.header.WellFormed := by
  obtain ⟨interface, next, frame, received⟩ := passed
  rw [NetworkInterface.recvFrame] at received
  split at received
  · cases received
  split at received
  · obtain ⟨parsing, parsed, returned⟩ := Fault.bind_eq_ok.mp received
    cases returned
    exact (IPv4Datagram.parse_ok parsed).1
  split at received
  · obtain ⟨handled, -, ⟨⟩⟩ := Fault.bind_eq_ok.mp received
  · cases received

/-- Only what is passed up is kept. -/
theorem AsyncNetworkInterface.recvFrame_passedUp {interface next : AsyncNetworkInterface}
    {frame : EthernetFrame} (passed : ∀ dgram ∈ interface.datagramsIn, PassedUp dgram)
    (received : interface.recvFrame frame = .ok next) :
    ∀ dgram ∈ next.datagramsIn, PassedUp dgram := by
  obtain ⟨⟨inner, optionalDgram⟩, heard, kept⟩ := Fault.bind_eq_ok.mp received
  cases optionalDgram with
  | none =>
      cases kept
      exact passed
  | some dgram =>
      cases kept
      intro other inside
      rcases List.mem_append.mp inside with old | new
      · exact passed other old
      · rw [List.mem_singleton.mp new]
        exact ⟨_, _, _, heard⟩

end Minnow.Link

namespace Minnow.Routing

open Foundation Foundation.Runs Link Wire

/-- Whether a received datagram is to be forwarded. -/
def Due (routes : List AddRoute) (dgram : InternetDatagram) : Prop :=
  2 ≤ dgram.header.ttl ∧ ∃ call ∈ routes, call.route.Covers dgram.header.dst

instance (routes : List AddRoute) (dgram : InternetDatagram) : Decidable (Due routes dgram) :=
  inferInstanceAs (Decidable (_ ∧ _))

/-- The call forwards the datagram: on the interface and to the next hop of the look-up, with
one less to live and a checksum that is accepted, and otherwise as it was. -/
structure Forwards (table : RouteTable) (order : List (UInt64 × UInt64)) (dgram : InternetDatagram)
    (call : Dispatch) : Prop where
  lookedUp : ∃ nextHop, table.lookUp order dgram.header.dst 0 = (true, call.interfaceNum, nextHop) ∧
    call.nextHop = nextHop.getD dgram.header.dst
  header : call.dgram.header = { dgram.header with
    ttl := dgram.header.ttl - 1, cksum := call.dgram.header.cksum }
  accepted : call.dgram.header.ReadBack
  payload : call.dgram.payload = dgram.payload

/-- What a call of the router does to the interfaces. -/
def Dispatch.perform (interfaces : List NetworkInterface) (call : Dispatch) :
    Except Fault (List NetworkInterface) :=
  match interfaces[call.interfaceNum.toNat]? with
  | none => .error .endDereferenced
  | some interface => do
      let sent ← interface.sendDatagram call.dgram call.nextHop
      return interfaces.set call.interfaceNum.toNat sent

/-- The datagrams are handled in order: one that is due is forwarded by a call, another is
dropped. -/
inductive Handled (routes : List AddRoute) (order : List (UInt64 × UInt64)) :
    List NetworkInterface → List InternetDatagram → List Dispatch → List NetworkInterface → Prop where
  | done {interfaces : List NetworkInterface} : Handled routes order interfaces [] [] interfaces
  | dropped {interfaces final : List NetworkInterface} {dgram : InternetDatagram}
      {dgrams : List InternetDatagram} {calls : List Dispatch} (ignored : ¬ Due routes dgram)
      (later : Handled routes order interfaces dgrams calls final) :
      Handled routes order interfaces (dgram :: dgrams) calls final
  | forwarded {interfaces next final : List NetworkInterface} {dgram : InternetDatagram}
      {dgrams : List InternetDatagram} {call : Dispatch} {calls : List Dispatch}
      (due : Due routes dgram) (forwards : Forwards (RouteTable.run routes) order dgram call)
      (performed : call.perform interfaces = .ok next)
      (later : Handled routes order next dgrams calls final) :
      Handled routes order interfaces (dgram :: dgrams) (call :: calls) final

namespace Handled

variable {routes : List AddRoute} {order : List (UInt64 × UInt64)}
  {interfaces middle final : List NetworkInterface} {dgrams more : List InternetDatagram}
  {calls others : List Dispatch}

theorem trans (first : Handled routes order interfaces dgrams calls middle)
    (second : Handled routes order middle more others final) :
    Handled routes order interfaces (dgrams ++ more) (calls ++ others) final := by
  induction first with
  | done => exact second
  | dropped ignored _ ih => exact .dropped ignored (ih second)
  | forwarded due forwards performed _ ih => exact .forwarded due forwards performed (ih second)

/-- One call for each datagram that is due, in their order. -/
theorem forall₂ (handled : Handled routes order interfaces dgrams calls final) :
    List.Forall₂ (Forwards (RouteTable.run routes) order)
      (dgrams.filter fun dgram => Due routes dgram) calls := by
  induction handled with
  | done => exact .nil
  | dropped ignored _ ih =>
      rw [List.filter_cons_of_neg (by simpa using ignored)]
      exact ih
  | forwarded due forwards _ _ ih =>
      rw [List.filter_cons_of_pos (by simpa using due)]
      exact .cons forwards ih

/-- The interfaces are changed by the calls alone. -/
theorem performs (handled : Handled routes order interfaces dgrams calls final) :
    attempt Dispatch.perform interfaces calls = .ok final := by
  induction handled with
  | done => rfl
  | dropped _ _ ih => exact ih
  | forwarded _ _ performed _ ih =>
      rw [attempt_cons, performed]
      exact ih

/-- What is forwarded has time left to live. -/
theorem alive (handled : Handled routes order interfaces dgrams calls final) :
    ∀ call ∈ calls, call.dgram.header.ttl ≠ 0 := by
  induction handled with
  | done => exact fun call inside => absurd inside List.not_mem_nil
  | dropped _ _ ih => exact ih
  | @forwarded _ _ _ dgram _ call _ due forwards _ _ ih =>
      intro other inside
      rcases List.mem_cons.mp inside with rfl | later
      · rw [forwards.header]
        change dgram.header.ttl - 1 ≠ 0
        intro ended
        have one : dgram.header.ttl = 1 := by
          rw [← UInt8.sub_add_cancel dgram.header.ttl 1, ended]
          rfl
        exact absurd (one ▸ due.1) (by decide)
      · exact ih other later

end Handled

namespace Router

def plain (router : Router) : List NetworkInterface :=
  router.interfaces.map AsyncNetworkInterface.toNetworkInterface

def queues (router : Router) : List (List InternetDatagram) :=
  router.interfaces.map AsyncNetworkInterface.datagramsIn

/-- The router has these routes, which are of proper length and lead to interfaces that
exist, and its table is walked in this order. -/
structure Configured (routes : List AddRoute) (order : List (UInt64 × UInt64)) (router : Router) :
    Prop where
  table : router.routeTable = RouteTable.run routes
  short : ∀ call ∈ routes, call.route.prefixLength ≤ 32
  named : ∀ key num, router.routeTable.entries.at? key = some num →
    num.toNat < router.interfaces.length
  walks : router.routeTable.entries.Enumerates order

variable {routes : List AddRoute} {order : List (UInt64 × UInt64)} {router next : Router}

/-- What an update leaves as it was. -/
theorem map_set_of_same {Value Part : Type*} {part : Value → Part} {values : List Value} {num : Nat}
    {old new : Value} (here : values[num]? = some old) (same : part new = part old) :
    (values.set num new).map part = values.map part := by
  apply List.ext_getElem?
  intro place
  rw [List.map_set, List.getElem?_set, List.length_map]
  split_ifs with at_num within
  · rw [← at_num, List.getElem?_map, here, same]
    rfl
  · rw [← at_num, List.getElem?_eq_none]
    rw [List.length_map]
    exact Nat.not_lt.mp within
  · rfl

theorem length_queues (router : Router) : router.queues.length = router.interfaces.length :=
  List.length_map _

/-- Handling datagrams keeps the configuration. -/
theorem Configured.kept (configured : Configured routes order router)
    (table : next.routeTable = router.routeTable)
    (length : next.interfaces.length = router.interfaces.length) :
    Configured routes order next where
  table := table.trans configured.table
  short := configured.short
  named := by
    rw [table, length]
    exact configured.named
  walks := by
    rw [table]
    exact configured.walks

theorem Configured.lookUp_lt (configured : Configured routes order router) {ipv4Address : UInt32}
    {interfaceNum num : UInt64} {nextHop : Option UInt32}
    (looked : router.routeTable.lookUp order ipv4Address interfaceNum = (true, num, nextHop)) :
    num.toNat < router.interfaces.length := by
  have walks := configured.table ▸ configured.walks
  have packed := RouteTable.packed_run configured.short walks
  rcases RouteTable.lookUp_eq packed router.routeTable interfaceNum with
    ⟨missed, -⟩ | ⟨route, found, wins, hit⟩
  · exact absurd (congrArg Prod.fst (missed.symm.trans looked)) Bool.false_ne_true
  · obtain ⟨-, same⟩ := Prod.mk.inj (hit.symm.trans looked)
    obtain ⟨rfl, -⟩ := Prod.mk.inj same
    exact configured.named _ _ ((configured.walks.mem_iff _ _).mp wins.mem)

theorem Configured.due_iff (configured : Configured routes order router)
    (dgram : InternetDatagram) :
    Due routes dgram ↔ 2 ≤ dgram.header.ttl ∧
      (router.routeTable.lookUp order dgram.header.dst 0).1 = true := by
  have walks := configured.table ▸ configured.walks
  rw [configured.table, lookUp_matched_iff configured.short walks]
  rfl

theorem ttl_ended_iff (ttl : UInt8) : (ttl == 1 || ttl == 0) = true ↔ ¬ 2 ≤ ttl := by
  rw [Bool.or_eq_true, beq_iff_eq, beq_iff_eq, ← UInt8.toNat_inj, ← UInt8.toNat_inj,
    UInt8.le_iff_toNat_le]
  change ttl.toNat = 1 ∨ ttl.toNat = 0 ↔ ¬ 2 ≤ ttl.toNat
  omega

/-- One datagram is handled, and no queue changes. -/
theorem Configured.routeDatagram_handled (configured : Configured routes order router)
    {dgram : InternetDatagram} (formed : dgram.header.WellFormed) :
    ∃ next made, router.routeDatagram order dgram = .ok (next, made) ∧
      next.routeTable = router.routeTable ∧ next.queues = router.queues ∧
      Handled routes order router.plain [dgram] made next.plain := by
  have due := configured.due_iff dgram
  rw [routeDatagram]
  by_cases ended : (dgram.header.ttl == 1 || dgram.header.ttl == 0) = true
  · have ignored : ¬ Due routes dgram :=
      fun held => (ttl_ended_iff _).mp ended (due.mp held).1
    exact ⟨router, [], if_pos ended, rfl, rfl, .dropped ignored .done⟩
  have alive : 2 ≤ dgram.header.ttl := not_not.mp (fun old => ended ((ttl_ended_iff _).mpr old))
  rw [if_neg ended]
  cases looked : router.routeTable.lookUp order dgram.header.dst 0 with
  | mk matched pair =>
    obtain ⟨num, found⟩ := pair
    simp only [looked] at due ⊢
    cases matched with
    | false =>
        have ignored : ¬ Due routes dgram := fun held => absurd (due.mp held).2 Bool.false_ne_true
        exact ⟨router, [], rfl, rfl, rfl, .dropped ignored .done⟩
    | true =>
        have within := configured.lookUp_lt looked
        obtain ⟨next, hopped, formedNext, payload, header⟩ := IPv4Datagram.hop_eq formed
        obtain ⟨computed, computes, ⟨⟩⟩ := Fault.bind_eq_ok.mp hopped
        obtain ⟨sent, sends⟩ := @NetworkInterface.sendDatagram_returns
          (router.interfaces[num.toNat]).toNetworkInterface { dgram with header := computed }
          formedNext.version (found.getD dgram.header.dst)
        rw [List.getElem?_eq_getElem within]
        have performed : Dispatch.perform router.plain
            ⟨num, { dgram with header := computed }, found.getD dgram.header.dst⟩ =
              .ok (router.plain.set num.toNat sent) := by
          rw [Dispatch.perform, plain, List.getElem?_map, List.getElem?_eq_getElem within]
          exact Fault.bind_eq_ok.mpr ⟨sent, sends, rfl⟩
        refine ⟨_, _, Fault.bind_eq_ok.mpr ⟨computed, computes,
          Fault.bind_eq_ok.mpr ⟨sent, sends, rfl⟩⟩, rfl, ?_, ?_⟩
        · exact map_set_of_same (List.getElem?_eq_getElem within) rfl
        · refine .forwarded (due.mpr ⟨alive, rfl⟩) ⟨⟨found, ?_, rfl⟩, header, formedNext.readBack, rfl⟩
            performed ?_
          · exact configured.table ▸ looked
          · rw [plain, plain, List.map_set]
            exact .done

/-- The loop over one interface handles all that it has received and leaves its queue
empty. -/
theorem Configured.drainLoop_handled {num fuel : Nat} {dgrams : List InternetDatagram}
    (configured : Configured routes order router) (queued : router.queues[num]? = some dgrams)
    (formed : ∀ dgram ∈ dgrams, dgram.header.WellFormed) (enough : dgrams.length < fuel)
    (calls : List Dispatch) :
    ∃ next made, drainLoop order num fuel router calls = .ok (next, calls ++ made) ∧
      next.routeTable = router.routeTable ∧ next.queues = router.queues.set num [] ∧
      Handled routes order router.plain dgrams made next.plain := by
  induction dgrams generalizing router fuel calls with
  | nil =>
      obtain ⟨fuel, rfl⟩ := Nat.exists_eq_add_one_of_ne_zero (Nat.ne_of_gt enough)
      have emptied : router.queues.set num [] = router.queues := by
        obtain ⟨within, empty⟩ := List.getElem?_eq_some_iff.mp queued
        rw [← empty]
        exact List.set_getElem_self within
      rw [queues, List.getElem?_map] at queued
      obtain ⟨interface, here, empty⟩ := Option.map_eq_some_iff.mp queued
      refine ⟨router, [], ?_, rfl, emptied.symm, .done⟩
      rw [drainLoop, here, List.append_nil]
      simp only [AsyncNetworkInterface.maybeReceive, empty]
  | cons dgram dgrams ih =>
      obtain ⟨fuel, rfl⟩ := Nat.exists_eq_add_one_of_ne_zero (Nat.ne_of_gt (Nat.zero_lt_of_lt enough))
      rw [queues, List.getElem?_map] at queued
      obtain ⟨interface, here, waiting⟩ := Option.map_eq_some_iff.mp queued
      have within := (List.getElem?_eq_some_iff.mp here).1
      let taken : Router := { router with
        interfaces := router.interfaces.set num { interface with datagramsIn := dgrams } }
      have takenPlain : taken.plain = router.plain := map_set_of_same here rfl
      have takenQueues : taken.queues = router.queues.set num dgrams := List.map_set
      have takenConfigured : Configured routes order taken :=
        configured.kept rfl List.length_set
      obtain ⟨routed, first, routing, table, queuesRouted, handled⟩ :=
        takenConfigured.routeDatagram_handled (formed dgram List.mem_cons_self)
      have routedQueued : routed.queues[num]? = some dgrams := by
        rw [queuesRouted, takenQueues]
        exact List.getElem?_set_self (router.length_queues ▸ within)
      have routedConfigured : Configured routes order routed := by
        refine takenConfigured.kept table ?_
        rw [← length_queues, queuesRouted, length_queues]
      obtain ⟨next, made, drained, sameTable, emptied, later⟩ := ih routedConfigured routedQueued
        (fun other inside => formed other (List.mem_cons_of_mem _ inside))
        (Nat.lt_of_succ_lt_succ enough) (calls ++ first)
      refine ⟨next, first ++ made, ?_, sameTable.trans table, ?_, ?_⟩
      · rw [drainLoop, here]
        simp only [AsyncNetworkInterface.maybeReceive, waiting]
        rw [← List.append_assoc]
        exact Fault.bind_eq_ok.mpr ⟨(routed, first), routing, drained⟩
      · rw [emptied, queuesRouted, takenQueues, List.set_set]
      · exact (takenPlain ▸ handled).trans later

/-- The queues before the one at `rounds` have been emptied, in their order. -/
theorem Configured.rounds_handled (configured : Configured routes order router)
    (formed : ∀ dgrams ∈ router.queues, ∀ dgram ∈ dgrams, dgram.header.WellFormed) {rounds : Nat}
    (within : rounds ≤ router.interfaces.length) :
    ∃ next made, (List.range rounds).foldlM (fun state num =>
        drainLoop order num ((state.1.received num).length + 1) state.1 state.2) (router, []) =
          .ok (next, made) ∧
      next.routeTable = router.routeTable ∧
      next.queues = List.replicate rounds [] ++ router.queues.drop rounds ∧
      Handled routes order router.plain (router.queues.take rounds).flatten made next.plain := by
  induction rounds with
  | zero => exact ⟨router, [], rfl, rfl, rfl, .done⟩
  | succ rounds ih =>
      obtain ⟨middle, made, ran, table, queued, handled⟩ := ih (Nat.le_of_succ_le within)
      have inside : rounds < router.queues.length := router.length_queues.symm ▸ within
      have rest := List.drop_eq_getElem_cons inside
      have front : middle.queues[rounds]? = some router.queues[rounds] := by
        rw [queued, rest, List.getElem?_append_right (by simp)]
        simp
      have waiting : middle.received rounds = router.queues[rounds] := by
        rw [queues, List.getElem?_map] at front
        rw [received, front]
        rfl
      have middleConfigured : Configured routes order middle := by
        refine configured.kept table ?_
        have lengths := congrArg List.length queued
        rw [length_queues, List.length_append, List.length_replicate, List.length_drop,
          length_queues] at lengths
        rw [lengths]
        exact Nat.add_sub_of_le (Nat.le_of_succ_le within)
      obtain ⟨next, more, drained, sameTable, emptied, later⟩ := middleConfigured.drainLoop_handled
        front (formed _ (List.getElem_mem inside)) (Nat.lt_succ_self _) made
      refine ⟨next, made ++ more, ?_, sameTable.trans table, ?_, ?_⟩
      · rw [List.range_succ, List.foldlM_append]
        refine Fault.bind_eq_ok.mpr ⟨(middle, made), ran, ?_⟩
        rw [← waiting] at drained
        exact Fault.bind_eq_ok.mpr ⟨(next, made ++ more), drained, rfl⟩
      · rw [emptied, queued, rest, List.set_append_right _ _ (by simp), List.length_replicate,
          Nat.sub_self, List.set_cons_zero, List.replicate_succ', List.append_assoc]
        rfl
      · rw [List.take_succ_eq_append_getElem inside, List.flatten_append, List.flatten_singleton]
        exact handled.trans later

/-- For every content of the queues that was passed up, `route` returns with the queues empty.
It has made one call for each datagram that was due, in the order of the interfaces and of
their queues, each forwards its datagram, and nothing else has changed the interfaces. -/
theorem route_forwards (routes : List AddRoute) (order : List (UInt64 × UInt64)) (router : Router)
    (configured : Configured routes order router)
    (passed : ∀ interface ∈ router.interfaces, ∀ dgram ∈ interface.datagramsIn, PassedUp dgram) :
    ∃ final calls, router.route order = .ok (final, calls) ∧
      (∀ interface ∈ final.interfaces, interface.datagramsIn = []) ∧
      List.Forall₂ (Forwards router.routeTable order)
        ((router.interfaces.flatMap AsyncNetworkInterface.datagramsIn).filter
          fun dgram => Due routes dgram) calls ∧
      (∀ call ∈ calls, call.dgram.header.ttl ≠ 0) ∧
      attempt Dispatch.perform router.plain calls = .ok final.plain ∧
      final.routeTable = router.routeTable := by
  have formed : ∀ dgrams ∈ router.queues, ∀ dgram ∈ dgrams, dgram.header.WellFormed := by
    intro dgrams queued dgram inside
    obtain ⟨interface, held, rfl⟩ := List.mem_map.mp queued
    exact (passed interface held dgram inside).wellFormed
  obtain ⟨final, calls, routed, table, queued, handled⟩ :=
    configured.rounds_handled formed (Nat.le_refl _)
  rw [← length_queues, List.drop_length, List.append_nil] at queued
  rw [← length_queues, List.take_length] at handled
  refine ⟨final, calls, routed, ?_, ?_, handled.alive, handled.performs, table⟩
  · intro interface inside
    have held : interface.datagramsIn ∈ final.queues := List.mem_map_of_mem inside
    rw [queued] at held
    exact List.eq_of_mem_replicate held
  · rw [configured.table, List.flatMap_def]
    exact handled.forall₂

/-- A broadcast frame with a datagram for this destination. -/
def frameTo (dst : UInt32) (ttl : UInt8) : EthernetFrame :=
  let header : IPv4Header := { len := 24, ttl, dst }
  ⟨⟨ETHERNET_BROADCAST, EthernetAddress.zero, EthernetHeader.TYPE_IPv4⟩,
    [{ header with cksum := header.checksum }.encoding, [1, 2, 3, 4]]⟩

/-- Two datagrams have come in at the first interface, of which one is at its end, and another one
at the second. -/
def gateway : Except Fault Router := do
  let first := AsyncNetworkInterface.new (.new EthernetAddress.zero 0xc0a80002)
  let first ← first.recvFrame (frameTo 0x0a000001 64)
  let first ← first.recvFrame (frameTo 0x0a000001 1)
  let second := AsyncNetworkInterface.new (.new EthernetAddress.zero 0x0a000002)
  let second ← second.recvFrame (frameTo 0x08080808 2)
  return ⟨[first, second], RouteTable.run nested⟩

theorem gateway_configured {interfaces : List AsyncNetworkInterface} (two : interfaces.length = 2) :
    Configured nested (walk nested) ⟨interfaces, RouteTable.run nested⟩ where
  table := rfl
  short := by decide
  named := by
    intro key num present
    obtain ⟨call, inside, rfl⟩ := RouteTable.mem_of_entries present
    have known : ∀ call ∈ nested,
        (RouteTable.run nested).entries.at? call.route.concat = some call.interfaceNum := by
      decide
    have near : ∀ call ∈ nested, call.interfaceNum.toNat < 2 := by decide
    cases (known call inside).symm.trans present
    rw [two]
    exact near call inside
  walks := walk_enumerates nested

/-- The datagram at its end is dropped. -/
theorem route_forwards_gateway :
    ∃ router final calls, gateway = .ok router ∧ router.queues.map List.length = [2, 1] ∧
      router.route (walk nested) = .ok (final, calls) ∧
      (∀ interface ∈ final.interfaces, interface.datagramsIn = []) ∧
      calls.map (fun call => (call.interfaceNum, call.nextHop, call.dgram.header.ttl)) =
        [(1, 0x0a000001, 63), (0, 0xc0a80001, 1)] ∧ ∀ call ∈ calls, call.dgram.header.ttl ≠ 0 := by
  have goes : (gateway.toOption.bind fun router =>
      (router.route (walk nested)).toOption.map fun outcome =>
        (router.queues.map List.length, outcome.2.map fun call =>
          (call.interfaceNum, call.nextHop, call.dgram.header.ttl))) =
            some ([2, 1], [(1, 0x0a000001, 63), (0, 0xc0a80001, 1)]) := by
    decide +kernel
  obtain ⟨router, made, goes⟩ := Option.bind_eq_some_iff.mp goes
  obtain ⟨⟨final, calls⟩, routed, same⟩ := Option.map_eq_some_iff.mp goes
  obtain ⟨queued, sent⟩ := Prod.mk.inj same
  replace made := Fault.ok_of_toOption made
  replace routed := Fault.ok_of_toOption routed
  have built := made
  obtain ⟨early, came, built⟩ := Fault.bind_eq_ok.mp built
  obtain ⟨first, cameNext, built⟩ := Fault.bind_eq_ok.mp built
  obtain ⟨second, cameThere, ⟨⟩⟩ := Fault.bind_eq_ok.mp built
  have nothing {interface : NetworkInterface} :
      ∀ dgram ∈ (AsyncNetworkInterface.new interface).datagramsIn, PassedUp dgram :=
    fun dgram inside => absurd inside List.not_mem_nil
  have passedFirst := AsyncNetworkInterface.recvFrame_passedUp
    (AsyncNetworkInterface.recvFrame_passedUp nothing came) cameNext
  have passedSecond := AsyncNetworkInterface.recvFrame_passedUp nothing cameThere
  obtain ⟨last, made', ran, empty, -, alive, -⟩ := route_forwards nested (walk nested)
    ⟨[first, second], RouteTable.run nested⟩ (gateway_configured rfl)
    (List.forall_mem_cons.mpr ⟨passedFirst, List.forall_mem_singleton.mpr passedSecond⟩)
  cases ran.symm.trans routed
  exact ⟨_, final, calls, made, queued, routed, empty, sent, alive⟩

end Router

end Minnow.Routing
