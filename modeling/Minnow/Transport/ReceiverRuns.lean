import Minnow.Stream.ReassemblerRuns
import Minnow.Transport.TCPReceiver

/-!
# Runs of the receiver

Segments are received and the reader pops in any order.  The receiver moves its
zero point with every SYN; what it advertises is stable in the runs whose SYNs agree.
-/

namespace Minnow.Transport

open Foundation.Words Foundation.Runs Minnow.Stream

/-- A receiver with its reassembler and inbound stream. -/
structure Receiving where
  receiver : TCPReceiver
  assembly : Assembly
  deriving DecidableEq

namespace Receiving

inductive Op where
  | receive (message : TCPSenderMessage)
  | pop (len : Nat)
  deriving DecidableEq, Repr

def start (capacity : UInt64) : Receiving := ⟨TCPReceiver.new, Assembly.start capacity⟩

def receive (receiving : Receiving) (message : TCPSenderMessage) : Receiving :=
  let done := receiving.receiver.receive message receiving.assembly.reassembler
    receiving.assembly.output
  { receiver := done.1
    assembly := { receiving.assembly with reassembler := done.2.1, output := done.2.2 } }

def pop (receiving : Receiving) (len : Nat) : Receiving :=
  { receiving with assembly := receiving.assembly.pop len }

def step (receiving : Receiving) : Op → Receiving
  | .receive message => receiving.receive message
  | .pop len => receiving.pop len

def run (capacity : UInt64) (ops : List Op) : Receiving := exec step (start capacity) ops

/-- The message the receiver sends now. -/
def send (receiving : Receiving) : TCPReceiverMessage :=
  receiving.receiver.send receiving.assembly.output

/-- The absolute number of the next byte, the SYN and the end of the stream counted. -/
def absoluteAckno (receiving : Receiving) : Nat :=
  1 + receiving.assembly.output.bytesPushed + receiving.assembly.output.isClosed.toNat

/-- The absolute number at which the advertised window ends. -/
def rightEdge (receiving : Receiving) : Nat :=
  receiving.absoluteAckno + receiving.send.windowSize.toNat

/-! ## One step on the stream -/

/-- Receiving inserts the payload, once a SYN is there. -/
theorem receive_of_seen {receiving : Receiving} {message : TCPSenderMessage}
    (seen : (receiving.receiver.synRcvd || message.SYN) = true) :
    receiving.receive message =
      { receiver := ⟨if message.SYN then message.seqno else receiving.receiver.recvZeroPoint, true,
          receiving.receiver.finRcvd || message.FIN⟩
        assembly := receiving.assembly.insert
          (TCPReceiver.firstIndex
            (if message.SYN then message.seqno else receiving.receiver.recvZeroPoint)
            receiving.assembly.output.bytesPushed message)
          message.payload message.FIN } := by
  unfold receive
  rw [TCPReceiver.receive_after_syn seen]
  rfl

theorem receive_of_unseen {receiving : Receiving} {message : TCPSenderMessage}
    (unseen : receiving.receiver.synRcvd = false) (plain : message.SYN = false) :
    receiving.receive message = receiving := by
  unfold receive
  rw [TCPReceiver.receive_before_syn unseen plain]

/-- A step of the receiver is at most one step of its reassembler. -/
theorem step_assembly (receiving : Receiving) (op : Op) :
    (receiving.step op).assembly = receiving.assembly ∨
      ∃ inner, (receiving.step op).assembly = receiving.assembly.step inner := by
  cases op with
  | pop len => exact Or.inr ⟨.pop len, rfl⟩
  | receive message =>
      cases seen : (receiving.receiver.synRcvd || message.SYN) with
      | true =>
          have moved := congrArg Receiving.assembly (receive_of_seen seen)
          exact Or.inr ⟨.insert _ message.payload message.FIN, moved⟩
      | false =>
          obtain ⟨unseen, plain⟩ := Bool.or_eq_false_iff.mp seen
          apply Or.inl
          rw [step, receive_of_unseen unseen plain]

theorem step_sound {receiving : Receiving} (sound : receiving.assembly.Sound) (op : Op) :
    (receiving.step op).assembly.Sound := by
  rcases receiving.step_assembly op with same | ⟨inner, moved⟩
  · rw [same]
    exact sound
  · rw [moved]
    exact sound.step inner

theorem exec_sound {receiving : Receiving} (sound : receiving.assembly.Sound) (ops : List Op) :
    (exec step receiving ops).assembly.Sound :=
  exec_invariant (fun state : Receiving => state.assembly.Sound)
    (fun _ op inner => step_sound inner op) sound ops

theorem run_sound (capacity : UInt64) (ops : List Op) : (run capacity ops).assembly.Sound :=
  exec_sound (Assembly.start_sound capacity) ops

/-! ## What is advertised only grows -/

theorem isClosed_le_step {receiving : Receiving} (sound : receiving.assembly.Sound) (op : Op) :
    receiving.assembly.output.isClosed.toNat ≤
      (receiving.step op).assembly.output.isClosed.toNat := by
  rcases receiving.step_assembly op with same | ⟨inner, moved⟩
  · rw [same]
  · rw [moved]
    cases closed : receiving.assembly.output.isClosed with
    | false => exact Nat.zero_le _
    | true =>
        have still := Assembly.isClosed_exec sound closed [inner]
        rw [exec_cons, exec_nil] at still
        rw [still]

theorem position_le_step {receiving : Receiving} (sound : receiving.assembly.Sound) (op : Op) :
    receiving.assembly.position ≤ (receiving.step op).assembly.position := by
  rcases receiving.step_assembly op with same | ⟨inner, moved⟩
  · rw [same]
  · rw [moved]
    exact Assembly.position_le_step sound inner

theorem edge_le_step {receiving : Receiving} (sound : receiving.assembly.Sound) (op : Op) :
    receiving.assembly.edge ≤ (receiving.step op).assembly.edge := by
  rcases receiving.step_assembly op with same | ⟨inner, moved⟩
  · rw [same]
  · rw [moved]
    exact Assembly.edge_le_step sound inner

theorem absoluteAckno_le_step {receiving : Receiving} (sound : receiving.assembly.Sound)
    (op : Op) : receiving.absoluteAckno ≤ (receiving.step op).absoluteAckno :=
  Nat.add_le_add (Nat.add_le_add_left (position_le_step sound op) 1) (isClosed_le_step sound op)

theorem rightEdge_eq (receiving : Receiving) :
    receiving.rightEdge =
      receiving.absoluteAckno + min receiving.assembly.output.availableCapacity 0xFFFF := by
  unfold rightEdge send
  rw [TCPReceiver.send_windowSize]

/-- Pushing moves the left edge by as much as it takes from the room, popping only adds
room, and closing moves the left edge alone. -/
theorem rightEdge_le_step {receiving : Receiving} (sound : receiving.assembly.Sound) (op : Op) :
    receiving.rightEdge ≤ (receiving.step op).rightEdge := by
  have before := sound.edge_eq
  have after := (step_sound sound op).edge_eq
  have closed := isClosed_le_step sound op
  have pushed := position_le_step sound op
  have opened := edge_le_step sound op
  rw [rightEdge_eq, rightEdge_eq]
  unfold absoluteAckno
  unfold Assembly.position at before after pushed
  omega

theorem absoluteAckno_le_exec {receiving : Receiving} (sound : receiving.assembly.Sound)
    (ops : List Op) : receiving.absoluteAckno ≤ (exec step receiving ops).absoluteAckno :=
  exec_monotone (fun state : Receiving => state.assembly.Sound) absoluteAckno
    (fun _ op inner => step_sound inner op) (fun _ op inner => absoluteAckno_le_step inner op)
    sound ops

theorem rightEdge_le_exec {receiving : Receiving} (sound : receiving.assembly.Sound)
    (ops : List Op) : receiving.rightEdge ≤ (exec step receiving ops).rightEdge :=
  exec_monotone (fun state : Receiving => state.assembly.Sound) rightEdge
    (fun _ op inner => step_sound inner op) (fun _ op inner => rightEdge_le_step inner op)
    sound ops

theorem absoluteAckno_le_of_begins {capacity : UInt64} {before ops : List Op}
    (begins : before <+: ops) :
    (run capacity before).absoluteAckno ≤ (run capacity ops).absoluteAckno := by
  obtain ⟨after, rfl⟩ := begins
  rw [run, run, exec_append]
  exact absoluteAckno_le_exec (run_sound capacity before) after

theorem rightEdge_le_of_begins {capacity : UInt64} {before ops : List Op}
    (begins : before <+: ops) :
    (run capacity before).rightEdge ≤ (run capacity ops).rightEdge := by
  obtain ⟨after, rfl⟩ := begins
  rw [run, run, exec_append]
  exact rightEdge_le_exec (run_sound capacity before) after

/-! ## The zero point -/

/-- The seqno of a SYN segment. -/
def synOf : Op → Option Wrap32
  | .receive message => if message.SYN then some message.seqno else none
  | .pop _ => none

/-- The seqno of the first SYN segment received. -/
def firstSyn (ops : List Op) : Option Wrap32 := ops.findSome? synOf

/-- The seqno of the last SYN segment received. -/
def lastSyn (ops : List Op) : Option Wrap32 := ops.reverse.findSome? synOf

theorem wrap_absoluteAckno (receiving : Receiving) (zeroPoint : Wrap32) :
    Wrap32.wrap
        (if receiving.assembly.output.isClosed then
          add64 receiving.assembly.output.bytesPushed 2
        else add64 receiving.assembly.output.bytesPushed 1) zeroPoint =
      Wrap32.wrap receiving.absoluteAckno zeroPoint := by
  unfold absoluteAckno
  cases receiving.assembly.output.isClosed with
  | true =>
      rw [if_pos rfl, Wrap32.wrap_add64]
      congr 1
      simp only [Bool.toNat_true]
      omega
  | false =>
      rw [if_neg Bool.false_ne_true, Wrap32.wrap_add64, Nat.add_comm]
      rfl

theorem synOf_syn {message : TCPSenderMessage} (flag : message.SYN = true) :
    synOf (.receive message) = some message.seqno := by
  rw [synOf, if_pos flag]

theorem synOf_plain {message : TCPSenderMessage} (flag : message.SYN = false) :
    synOf (.receive message) = none := by
  rw [synOf, flag]
  rfl

theorem lastSyn_snoc (ops : List Op) (op : Op) :
    lastSyn (ops ++ [op]) = (synOf op).or (lastSyn ops) := by
  unfold lastSyn
  rw [List.reverse_append, List.reverse_singleton, List.singleton_append, List.findSome?_cons]
  cases synOf op with
  | none => rfl
  | some isn => rfl

theorem firstSyn_of_begins {before ops : List Op} (begins : before <+: ops) {isn : Wrap32}
    (first : firstSyn before = some isn) : firstSyn ops = some isn := by
  obtain ⟨after, rfl⟩ := begins
  unfold firstSyn at first ⊢
  rw [List.findSome?_append, first]
  rfl

/-- The receiver works from the last SYN. -/
structure Follows (last : Option Wrap32) (receiving : Receiving) : Prop where
  zeroPoint : ∀ isn, last = some isn → receiving.receiver.recvZeroPoint = isn
  synRcvd : receiving.receiver.synRcvd = last.isSome

theorem run_follows (capacity : UInt64) (ops : List Op) :
    Follows (lastSyn ops) (run capacity ops) := by
  refine exec_history (fun _ => True) (fun history => Follows (lastSyn history)) ?_ ?_
    (fun _ _ => True.intro)
  · exact ⟨(fun _ none_seen => nomatch none_seen), rfl⟩
  · rintro history op - ⟨zeroPoint, synRcvd⟩
    rw [lastSyn_snoc]
    cases op with
    | pop len => exact ⟨zeroPoint, synRcvd⟩
    | receive message =>
        cases syn : message.SYN with
        | true =>
            rw [synOf_syn syn, step, receive_of_seen (by rw [syn, Bool.or_true])]
            refine ⟨?_, rfl⟩
            intro isn last
            exact (if_pos syn).trans (Option.some.inj last)
        | false =>
            rw [synOf_plain syn, Option.none_or, step]
            cases seen : (exec step (start capacity) history).receiver.synRcvd with
            | true =>
                rw [receive_of_seen (by rw [seen, syn]; rfl), syn]
                exact ⟨zeroPoint, seen.symm.trans synRcvd⟩
            | false =>
                rw [receive_of_unseen seen syn]
                exact ⟨zeroPoint, synRcvd⟩

/-- Every SYN segment carries the seqno of the first one. -/
def SameSyn (ops : List Op) : Prop :=
  ∀ isn, firstSyn ops = some isn →
    ∀ message, Op.receive message ∈ ops → message.SYN = true → message.seqno = isn

theorem synOf_eq_some {op : Op} {isn : Wrap32} (syn : synOf op = some isn) :
    ∃ message, op = .receive message ∧ message.SYN = true ∧ message.seqno = isn := by
  cases op with
  | pop len => exact nomatch syn
  | receive message =>
      cases flag : message.SYN with
      | false => exact nomatch (synOf_plain flag).symm.trans syn
      | true => exact ⟨message, rfl, flag, Option.some.inj ((synOf_syn flag).symm.trans syn)⟩

theorem exists_firstSyn {ops : List Op} {message : TCPSenderMessage}
    (inside : Op.receive message ∈ ops) (flag : message.SYN = true) :
    ∃ first, firstSyn ops = some first := by
  apply Option.isSome_iff_exists.mp
  unfold firstSyn
  rw [List.findSome?_isSome_iff]
  exact ⟨.receive message, inside, by rw [synOf_syn flag]; rfl⟩

theorem exists_lastSyn {ops : List Op} {isn : Wrap32} (first : firstSyn ops = some isn) :
    ∃ last, lastSyn ops = some last := by
  obtain ⟨op, inside, syn⟩ := List.exists_of_findSome?_eq_some first
  apply Option.isSome_iff_exists.mp
  unfold lastSyn
  rw [List.findSome?_isSome_iff]
  exact ⟨op, List.mem_reverse.mpr inside, by rw [syn]; rfl⟩

theorem SameSyn.lastSyn {ops : List Op} (same : SameSyn ops) {isn : Wrap32}
    (first : firstSyn ops = some isn) : lastSyn ops = some isn := by
  obtain ⟨last, lastIs⟩ := exists_lastSyn first
  obtain ⟨op, inside, syn⟩ := List.exists_of_findSome?_eq_some lastIs
  obtain ⟨message, rfl, flag, seqno⟩ := synOf_eq_some syn
  rw [lastIs, ← seqno, same isn first message (List.mem_reverse.mp inside) flag]

theorem SameSyn.of_begins {before ops : List Op} (same : SameSyn ops) (begins : before <+: ops) :
    SameSyn before := by
  intro isn first message inside flag
  exact same isn (firstSyn_of_begins begins first) message (begins.subset inside) flag

/-- From a SYN on, the ackno sent is the absolute one seen from the zero point. -/
theorem send_ackno_of_seen {receiving : Receiving} (seen : receiving.receiver.synRcvd = true) :
    receiving.send.ackno =
      some (Wrap32.wrap receiving.absoluteAckno receiving.receiver.recvZeroPoint) := by
  unfold send TCPReceiver.send
  dsimp only
  rw [if_pos seen, wrap_absoluteAckno]

theorem send_ackno_of_unseen {receiving : Receiving}
    (unseen : receiving.receiver.synRcvd = false) : receiving.send.ackno = none := by
  unfold send TCPReceiver.send
  dsimp only
  rw [unseen]
  rfl

theorem Follows.send_ackno {receiving : Receiving} {isn : Wrap32}
    (follows : Follows (some isn) receiving) :
    receiving.send.ackno = some (Wrap32.wrap receiving.absoluteAckno isn) := by
  rw [send_ackno_of_seen follows.synRcvd, follows.zeroPoint isn rfl]

/-! ## The sequence space -/

/-- The sequence space of a first SYN is still in use: its seqno is the zero point, the
ackno sent is relative to it, and the absolute ackno never moved backwards. -/
def KeepsSpace (capacity : UInt64) (ops : List Op) (isn : Wrap32) : Prop :=
  (run capacity ops).receiver.recvZeroPoint = isn ∧
    (run capacity ops).send.ackno =
      some (Wrap32.wrap (run capacity ops).absoluteAckno isn) ∧
    ∀ before, before <+: ops →
      (run capacity before).absoluteAckno ≤ (run capacity ops).absoluteAckno

/-- After every call since the first SYN, its sequence space is in use. -/
def SpaceIsFixed (capacity : UInt64) (ops : List Op) : Prop :=
  ∀ history, history <+: ops → ∀ isn, firstSyn history = some isn → KeepsSpace capacity history isn

/-- The first SYN fixes the sequence space of a run exactly when every SYN segment of
the run carries its seqno. -/
theorem spaceIsFixed_iff_sameSyn (capacity : UInt64) (ops : List Op) :
    SpaceIsFixed capacity ops ↔ SameSyn ops := by
  constructor
  · intro isFixed isn first message inside flag
    obtain ⟨before, after, split⟩ := List.append_of_mem inside
    have begins : before ++ [.receive message] <+: ops := ⟨after, by rw [split]; simp⟩
    have last : lastSyn (before ++ [.receive message]) = some message.seqno := by
      rw [lastSyn_snoc, synOf_syn flag]
      rfl
    obtain ⟨here, hereIs⟩ := exists_firstSyn
      (List.mem_append_right before (List.mem_singleton_self (Op.receive message))) flag
    have zero := (isFixed _ begins here hereIs).1
    rw [(run_follows capacity _).zeroPoint _ last] at zero
    rw [zero]
    exact Option.some.inj ((firstSyn_of_begins begins hereIs).symm.trans first)
  · intro same history begins isn first
    have last := (same.of_begins begins).lastSyn first
    have follows := last ▸ run_follows capacity history
    exact ⟨follows.zeroPoint isn rfl, follows.send_ackno,
      fun _ earlier => absoluteAckno_le_of_begins earlier⟩

/-- A second SYN moves the zero point from ten to five, and the ackno from eleven to
six. -/
theorem spaceIsFixed_fails_second_syn :
    ¬ SpaceIsFixed 4 [.receive { seqno := ⟨10⟩, SYN := true }, .receive { seqno := ⟨5⟩, SYN := true }] := by
  intro isFixed
  have kept := isFixed _ (List.prefix_refl _) ⟨10⟩ (by decide)
  exact absurd kept.1 (by decide)

/-! ## What was advertised stays advertised -/

/-- With one seqno on all SYNs, the ackno sent is that of the bytes pushed and the end,
the absolute ackno and the right edge of the window never move backwards, and the
window is the free capacity cut at 16 bits. -/
theorem never_retracts (capacity : UInt64) (ops : List Op) (isn : Wrap32)
    (same : ∀ message, Op.receive message ∈ ops → message.SYN = true → message.seqno = isn) :
    ((∃ message, Op.receive message ∈ ops ∧ message.SYN = true) →
        (run capacity ops).send.ackno =
          some (Wrap32.wrap (1 + (run capacity ops).assembly.output.bytesPushed +
            (run capacity ops).assembly.output.isClosed.toNat) isn)) ∧
      (∀ before, before <+: ops →
        (run capacity before).absoluteAckno ≤ (run capacity ops).absoluteAckno ∧
          (run capacity before).rightEdge ≤ (run capacity ops).rightEdge) ∧
      (run capacity ops).send.windowSize.toNat =
        min (run capacity ops).assembly.output.availableCapacity 65535 ∧
      (run capacity ops).send.windowSize.toNat ≤
        (run capacity ops).assembly.output.availableCapacity := by
  refine ⟨?_, ?_, TCPReceiver.send_windowSize _ _, ?_⟩
  · rintro ⟨message, inside, flag⟩
    obtain ⟨first, firstIs⟩ := exists_firstSyn inside flag
    obtain ⟨op, firstInside, syn⟩ := List.exists_of_findSome?_eq_some firstIs
    obtain ⟨firstMessage, rfl, firstFlag, seqno⟩ := synOf_eq_some syn
    have firstSame : first = isn := seqno.symm.trans (same firstMessage firstInside firstFlag)
    have agree : SameSyn ops := by
      intro other otherIs
      rw [firstIs, firstSame] at otherIs
      cases otherIs
      exact same
    have last := agree.lastSyn (firstSame ▸ firstIs)
    exact (last ▸ run_follows capacity ops).send_ackno
  · intro before begins
    exact ⟨absoluteAckno_le_of_begins begins, rightEdge_le_of_begins begins⟩
  · exact Nat.le_trans (Nat.le_of_eq (TCPReceiver.send_windowSize _ _)) (Nat.min_le_left _ _)

/-- A SYN with one byte, the same SYN again with the next byte and the end, and a pop. -/
def repeatedSyn : List Op :=
  [.receive { seqno := ⟨10⟩, SYN := true, payload := [97] },
    .receive { seqno := ⟨10⟩, SYN := true, payload := [97, 98], FIN := true }, .pop 1]

theorem never_retracts_repeatedSyn :
    (run 4 repeatedSyn).send.ackno = some (Wrap32.wrap 4 ⟨10⟩) ∧
      (run 4 (repeatedSyn.take 1)).rightEdge ≤ (run 4 repeatedSyn).rightEdge :=
  have agree : ∀ message, Op.receive message ∈ repeatedSyn → message.SYN = true →
      message.seqno = ⟨10⟩ := by
    intro message inside _
    simp only [repeatedSyn, List.mem_cons, Op.receive.injEq, reduceCtorEq, List.not_mem_nil,
      or_false] at inside
    rcases inside with rfl | rfl
    · rfl
    · rfl
  have kept := never_retracts 4 repeatedSyn ⟨10⟩ agree
  ⟨kept.1 ⟨_, List.mem_cons_self, rfl⟩, (kept.2.1 _ (List.take_prefix 1 _)).2⟩

end Receiving

end Minnow.Transport
