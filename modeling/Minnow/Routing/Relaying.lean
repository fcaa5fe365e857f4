import Minnow.Link.Provenance
import Minnow.Routing.Forwarding

/-!
# Routers make up no datagrams

Whatever routes a router has and in whatever order it walks them, the datagrams that it sends are
those that it was sent, with less time to live.
-/

namespace Minnow.Link

open Wire

namespace AsyncNetworkInterface

variable {P Q : DatagramProperty} {interface next : AsyncNetworkInterface}

/-- What was received, what waits and what is queued has the property. -/
structure Traces (P : DatagramProperty) (interface : AsyncNetworkInterface) : Prop where
  sends : interface.toNetworkInterface.Traces P
  received : ∀ dgram ∈ interface.datagramsIn, Sound P dgram

theorem Traces.mono (traces : interface.Traces P)
    (weaker : ∀ header bytes, P header bytes → Q header bytes) : interface.Traces Q where
  sends := traces.sends.mono weaker
  received := fun dgram inside => weaker _ _ (traces.received dgram inside)

theorem Traces.recvFrame (traces : interface.Traces P) (legible : Legible P) {frame : EthernetFrame}
    (bears : Bears P frame) (firm : Firm frame.payload)
    (received : interface.recvFrame frame = .ok next) : next.Traces P := by
  obtain ⟨⟨inner, optionalDgram⟩, heard, kept⟩ := Fault.bind_eq_ok.mp received
  have sends : inner.Traces P := traces.sends.stepped legible
    (NetworkInterface.recvFrame_stepped heard) fun _ _ other => nomatch other
  cases optionalDgram with
  | none =>
      cases kept
      exact ⟨sends, traces.received⟩
  | some dgram =>
      cases kept
      refine ⟨sends, List.forall_mem_append.mpr ⟨traces.received, ?_⟩⟩
      exact List.forall_mem_singleton.mpr
        (NetworkInterface.passed_sound legible bears firm heard).1

end AsyncNetworkInterface

end Minnow.Link

namespace Minnow.Routing

open Foundation Link Wire

/-- A property that a datagram keeps when it is forwarded. -/
def Relayed (P : DatagramProperty) : Prop :=
  ∀ header bytes cksum, P header bytes → 2 ≤ header.ttl →
    ({ header with ttl := header.ttl - 1, cksum } : IPv4Header).WellFormed →
      P { header with ttl := header.ttl - 1, cksum } bytes

namespace Router

variable {P Q : DatagramProperty} {router next : Router} {order : List (UInt64 × UInt64)}

def Traces (P : DatagramProperty) (router : Router) : Prop :=
  ∀ interface ∈ router.interfaces, interface.Traces P

theorem Traces.mono (traces : router.Traces P)
    (weaker : ∀ header bytes, P header bytes → Q header bytes) : router.Traces Q :=
  fun interface inside => (traces interface inside).mono weaker

/-- One interface changes. -/
theorem Traces.set (traces : router.Traces P) {num : Nat} {interface : AsyncNetworkInterface}
    (here : interface.Traces P) :
    Traces P { router with interfaces := router.interfaces.set num interface } := by
  intro other inside
  rcases List.mem_or_eq_of_mem_set inside with old | rfl
  · exact traces other old
  · exact here

/-- A datagram is dropped, or sent on with one less to live. -/
theorem routeDatagram_ok {dgram : InternetDatagram} {calls : List Dispatch}
    (ran : router.routeDatagram order dgram = .ok (next, calls)) :
    next = router ∨ ∃ num interface header sent nextHop, router.interfaces[num]? = some interface ∧
      ¬ (dgram.header.ttl == 1 || dgram.header.ttl == 0) = true ∧
      { dgram.header with ttl := dgram.header.ttl - 1 }.computeChecksum = .ok header ∧
      interface.toNetworkInterface.sendDatagram { dgram with header } nextHop = .ok sent ∧
      next = { router with
        interfaces := router.interfaces.set num { interface with toNetworkInterface := sent } } := by
  rw [routeDatagram] at ran
  split at ran
  · cases ran
    exact Or.inl rfl
  · rename_i alive
    cases looked : router.routeTable.lookUp order dgram.header.dst 0 with
    | mk matched pair =>
      obtain ⟨num, found⟩ := pair
      simp only [looked] at ran
      cases matched with
      | false =>
          cases ran
          exact Or.inl rfl
      | true =>
          cases here : router.interfaces[num.toNat]? with
          | none =>
              rw [here] at ran
              cases ran
          | some interface =>
              rw [here] at ran
              obtain ⟨header, computed, ran⟩ := Fault.bind_eq_ok.mp ran
              obtain ⟨sent, sending, ⟨⟩⟩ := Fault.bind_eq_ok.mp ran
              exact Or.inr ⟨num.toNat, interface, header, sent, _, here, alive, computed, sending, rfl⟩

theorem Traces.routeDatagram (traces : router.Traces P) (legible : Legible P) (relayed : Relayed P)
    {dgram : InternetDatagram} (sound : Sound P dgram) {calls : List Dispatch}
    (ran : router.routeDatagram order dgram = .ok (next, calls)) : next.Traces P := by
  rcases routeDatagram_ok ran with rfl |
    ⟨num, interface, header, sent, nextHop, here, alive, computed, sending, rfl⟩
  · exact traces
  · have formed := legible.formed _ _ sound
    obtain ⟨after, hopped, formedNext, -, headerNext⟩ := IPv4Datagram.hop_eq formed
    obtain ⟨_, recomputed, ⟨⟩⟩ := Fault.bind_eq_ok.mp hopped
    cases recomputed.symm.trans computed
    dsimp only at headerNext formedNext
    have living : 2 ≤ dgram.header.ttl := not_not.mp fun old => alive ((ttl_ended_iff _).mpr old)
    rw [headerNext] at formedNext
    have kept := relayed _ _ _ sound living formedNext
    rw [← headerNext] at kept
    have inside := traces interface (List.mem_of_getElem? here)
    refine traces.set ⟨?_, inside.received⟩
    refine inside.sends.stepped legible (NetworkInterface.sendDatagram_stepped sending) ?_
    rintro _ _ ⟨⟩
    exact kept

theorem Traces.drainLoop (traces : router.Traces P) (legible : Legible P) (relayed : Relayed P)
    {num fuel : Nat} {calls made : List Dispatch}
    (ran : drainLoop order num fuel router calls = .ok (next, made)) : next.Traces P := by
  induction fuel generalizing router calls with
  | zero => cases ran
  | succ fuel ih =>
      rw [Router.drainLoop] at ran
      cases here : router.interfaces[num]? with
      | none =>
          rw [here] at ran
          cases ran
      | some interface =>
          simp only [here, AsyncNetworkInterface.maybeReceive] at ran
          have inside := traces interface (List.mem_of_getElem? here)
          cases waiting : interface.datagramsIn with
          | nil =>
              rw [waiting] at ran
              cases ran
              exact traces
          | cons dgram rest =>
              rw [waiting] at ran
              obtain ⟨⟨routed, more⟩, routing, later⟩ := Fault.bind_eq_ok.mp ran
              have received := inside.received
              rw [waiting] at received
              obtain ⟨sound, others⟩ := List.forall_mem_cons.mp received
              have taken : Traces P { router with
                  interfaces := router.interfaces.set num { interface with datagramsIn := rest } } :=
                traces.set ⟨inside.sends, others⟩
              exact ih (taken.routeDatagram legible relayed sound routing) later

/-- A round of the router keeps the property of all its datagrams. -/
theorem Traces.route (traces : router.Traces P) (legible : Legible P) (relayed : Relayed P)
    {calls : List Dispatch} (ran : router.route order = .ok (next, calls)) : next.Traces P := by
  have rounds : ∀ (nums : List Nat) (state final : Router × List Dispatch), state.1.Traces P →
      nums.foldlM (fun state num =>
        Router.drainLoop order num ((state.1.received num).length + 1) state.1 state.2) state =
          .ok final → final.1.Traces P := by
    intro nums
    induction nums with
    | nil =>
        rintro state _ kept ⟨⟩
        exact kept
    | cons num nums ih =>
        intro state final kept ran
        rw [List.foldlM_cons] at ran
        obtain ⟨⟨middle, made⟩, drained, later⟩ := Fault.bind_eq_ok.mp ran
        exact ih (middle, made) final (kept.drainLoop legible relayed drained) later
  exact rounds _ (router, []) (next, calls) traces ran

end Router

end Minnow.Routing
