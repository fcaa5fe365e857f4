import Minnow.Stream.ReassemblerReach
import Minnow.Transport.SenderBacklog
import Minnow.Transport.TCPPeer

/-!
# When a peer goes inactive

A peer without an error is inactive once both streams have ended and nothing is in flight.
Whether the FIN was pushed is not asked, and it is pushed only after the close.
-/

namespace Minnow.Transport

open Foundation Foundation.Words Foundation.Runs Foundation.Tiling Minnow.Stream Minnow.Wire

open TCPSenderMessage (sequenceLength)

namespace TCPPeer

/-- The other end's FIN is assembled, our FIN is pushed, and every number up to and with it
is acknowledged. -/
structure Completed (peer : TCPPeer) : Prop where
  closed : peer.inboundStream.isClosed = true
  finPushed : peer.sender.finPushed = true
  acknowledged : peer.sender.windowLeft = peer.outboundStream.bytesPushed + 2
  nothingOut : peer.sender.outstandingMessages.entries = []

/-- Without an error the peer is inactive only when the connection is complete. -/
def EndsComplete (peer : TCPPeer) : Prop :=
  peer.inboundStream.hasError = false → peer.active = false → peer.Completed

/-- Everything has ended but the FIN is missing. -/
structure Stranded (peer : TCPPeer) : Prop where
  fine : peer.inboundStream.hasError = false
  drained : peer.outboundStream.isFinished = true
  closed : peer.inboundStream.isClosed = true
  idle : peer.sender.sequenceNumbersInFlight = 0
  unsent : peer.sender.finPushed = false

theorem active_eq_false_iff {peer : TCPPeer} (fine : peer.inboundStream.hasError = false) :
    peer.active = false ↔ peer.outboundStream.isFinished = true ∧
      peer.inboundStream.isClosed = true ∧ peer.sender.sequenceNumbersInFlight = 0 := by
  rw [active, fine]
  simp [and_assoc]

/-! ## The invariant -/

/-- The bytes that the owner offers in a call. -/
def Op.offered : Op → Nat
  | .write data => data.length
  | _ => 0

def offered (ops : List Op) : Nat := (ops.map Op.offered).sum

theorem offered_cons (op : Op) (ops : List Op) : offered (op :: ops) = op.offered + offered ops :=
  rfl

theorem senderOps_offered (peer : TCPPeer) (op : Op) :
    ((peer.senderOps op).map Session.Op.offered).sum = op.offered := by
  cases op with
  | receive seg =>
      rw [senderOps]
      split
      · rfl
      · rfl
  | maybeSend =>
      rw [senderOps]
      split
      · rfl
      · rfl
  | _ => rfl

/-- The account of what the peer sends, with room for what is still to be written. -/
def Accounted (isn : Wrap32) (room : Nat) (peer : TCPPeer) : Prop :=
  ∃ session, Records session peer ∧ session.Accounted isn ∧ session.sender.Waiting ∧
    session.written.length + room + 2 < 2 ^ 64

theorem new_accounted (cfg : TCPConfig) (random : Wrap32) {room : Nat}
    (small : room + 2 < 2 ^ 64) :
    (new cfg random).Accounted (cfg.fixedIsn.getD random) room := by
  refine ⟨Session.start cfg.sendCapacity cfg.rtTimeout.toUInt64 (cfg.fixedIsn.getD random),
    ⟨rfl, rfl⟩, Session.start_accounted _ _ _, Session.start_waiting _ _ _, ?_⟩
  change 0 + room + 2 < 2 ^ 64
  rw [Nat.zero_add]
  exact small

theorem Accounted.step {isn : Wrap32} {room : Nat} {peer next : TCPPeer} {op : Op}
    (accounted : peer.Accounted isn (op.offered + room)) (ran : peer.step op = .ok next) :
    next.Accounted isn room := by
  obtain ⟨session, records, account, waiting, small⟩ := accounted
  obtain ⟨later, done, still⟩ := records.step ran
  have written := Session.written_le_attempt done
  rw [senderOps_offered] at written
  obtain ⟨accountLater, waitingLater⟩ := account.waiting_attempt waiting done (by omega)
  exact ⟨later, still, accountLater, waitingLater, by omega⟩

/-- What goes wrong is that the FIN is missing, and nothing else. -/
theorem Accounted.endsComplete_iff {isn : Wrap32} {room : Nat} {peer : TCPPeer}
    (accounted : peer.Accounted isn room) : peer.EndsComplete ↔ ¬ peer.Stranded := by
  constructor
  · intro complete stranded
    have inactive := (active_eq_false_iff stranded.fine).mpr
      ⟨stranded.drained, stranded.closed, stranded.idle⟩
    have pushed := (complete stranded.fine inactive).finPushed
    exact absurd (stranded.unsent.symm.trans pushed) Bool.noConfusion
  · intro notStranded fine inactive
    obtain ⟨drained, closed, idle⟩ := (active_eq_false_iff fine).mp inactive
    have pushed : peer.sender.finPushed = true := by
      by_contra unsent
      exact notStranded ⟨fine, drained, closed, idle, Bool.eq_false_of_not_eq_true unsent⟩
    obtain ⟨session, ⟨senderSame, outboundSame⟩, account, waiting, small⟩ := accounted
    rw [← senderSame] at idle pushed
    rw [← outboundSame] at drained
    have nothingOut := (Account.inFlight_eq_zero_iff account (by omega) waiting).mp idle
    have finished := Account.popped_eq account drained
    have whole := Account.size account
    have atEnd := Account.next account (by omega)
    obtain ⟨segment, inside, -⟩ := (Account.finPushed account).mp pushed
    have opened := (Account.opened account).mpr (List.ne_nil_of_mem inside)
    rw [TCPSender.getAbsoluteSeqno_of_nil nothingOut, whole, opened, pushed, finished] at atEnd
    refine ⟨closed, senderSame ▸ pushed, ?_, senderSame ▸ nothingOut⟩
    rw [← senderSame, ← outboundSame, Account.pushed account, atEnd, Bool.toNat_true]
    omega

/-- The zero point with which the receiver reads a message. -/
def zeroPointFor (peer : TCPPeer) (message : TCPSenderMessage) : Wrap32 :=
  if message.SYN then message.seqno else peer.receiver.recvZeroPoint

/-- The stream index at which the receiver puts the payload of a message. -/
def indexFor (peer : TCPPeer) (message : TCPSenderMessage) : Nat :=
  TCPReceiver.firstIndex (peer.zeroPointFor message) peer.inboundStream.bytesPushed message

/-- The receiving half is in order. -/
structure Receptive (peer : TCPPeer) : Prop where
  stored : peer.reassembler.Stored (peer.inboundStream.bytesPushed + 1)
  counted : peer.inboundStream.Counted

theorem new_receptive (cfg : TCPConfig) (random : Wrap32) : (new cfg random).Receptive :=
  ⟨Reassembler.new_stored _, ByteStream.new_counted _⟩

theorem Receptive.receive {peer : TCPPeer} (receptive : peer.Receptive) (seg : TCPSegment) :
    (peer.receive seg).Receptive := by
  rw [TCPPeer.receive]
  split
  · exact ⟨receptive.stored, receptive.counted⟩
  · rw [TCPReceiver.receive]
    split
    · exact ⟨receptive.stored, receptive.counted⟩
    · obtain ⟨middle, clampedBegin, clampedEnd, done⟩ := Reassembler.insert_spec receptive.stored
        receptive.counted (peer.indexFor seg.senderMessage) seg.senderMessage.payload
        seg.senderMessage.FIN
      exact ⟨done.stored, done.flushed.counted⟩

theorem Receptive.step {peer next : TCPPeer} {op : Op} (receptive : peer.Receptive)
    (ran : peer.step op = .ok next) : next.Receptive := by
  by_cases segment : ∃ seg, op = .receive seg
  · obtain ⟨seg, rfl⟩ := segment
    cases ran
    exact receptive.receive seg
  · obtain ⟨-, reassembler, inbound⟩ :=
      step_inbound ran fun seg same => segment ⟨seg, same⟩
    rcases inbound with same | ⟨len, read⟩
    · refine ⟨?_, same ▸ receptive.counted⟩
      rw [reassembler, same]
      exact receptive.stored
    · refine ⟨?_, read ▸ receptive.counted.pop len⟩
      rw [reassembler, read]
      exact receptive.stored

/-! ## What each step does to the end -/

/-- The segment acknowledges everything in flight. -/
def AcksAll (peer : TCPPeer) (message : TCPReceiverMessage) : Prop :=
  peer.sender.sequenceNumbersInFlight = 0 ∨
    ∃ ackno, message.ackno = some ackno ∧
      ackno.unwrap peer.sender.isn peer.sender.windowLeft = peer.sender.getAbsoluteSeqno

/-- The inbound stream has ended, or the message is read and its bytes, with those held, fill the
stream up to the end on record, which a FIN sets. -/
def EndsInbound (peer : TCPPeer) (message : TCPSenderMessage) : Prop :=
  peer.inboundStream.isClosed = true ∨
    ((peer.receiver.synRcvd || message.SYN) = true ∧
      peer.reassembler.Fills peer.inboundStream (peer.indexFor message) message.payload
        (peer.reassembler.noteEnd (peer.indexFor message) message.payload message.FIN).streamEnd)

/-- The call makes an end of everything while the FIN is still to be pushed: the close of a
stream that is drained, or the segment that was waited for once the stream is closed. -/
def Abandons (peer : TCPPeer) : Op → Prop
  | .close =>
      peer.inboundStream.hasError = false ∧ peer.sender.finPushed = false ∧
        peer.outboundStream.buffer = [] ∧ peer.inboundStream.isClosed = true ∧
        peer.sender.sequenceNumbersInFlight = 0
  | .receive seg =>
      peer.inboundStream.hasError = false ∧ peer.sender.finPushed = false ∧
        peer.outboundStream.isFinished = true ∧ seg.reset = false ∧
        peer.AcksAll seg.receiverMessage ∧ peer.EndsInbound seg.senderMessage
  | _ => False

theorem receiver_hasError (receiver : TCPReceiver) (message : TCPSenderMessage)
    (reassembler : Reassembler) (inbound : ByteStream) :
    (receiver.receive message reassembler inbound).2.2.hasError = inbound.hasError := by
  rw [TCPReceiver.receive]
  split
  · rfl
  · exact reassembler.insert_hasError _ _ _ inbound

/-- The inbound stream fails or closes with a segment only. -/
theorem step_inbound_state {peer next : TCPPeer} {op : Op} (ran : peer.step op = .ok next)
    (other : ∀ seg, op ≠ .receive seg) :
    next.inboundStream.hasError = peer.inboundStream.hasError ∧
      next.inboundStream.isClosed = peer.inboundStream.isClosed := by
  obtain ⟨-, -, same | ⟨len, read⟩⟩ := step_inbound ran other
  · rw [same]
    exact ⟨rfl, rfl⟩
  · rw [read]
    exact ⟨rfl, rfl⟩

/-- The inbound stream is closed after a message just if the message ends it. -/
theorem Receptive.isClosed_iff {peer : TCPPeer} (receptive : peer.Receptive)
    (message : TCPSenderMessage) :
    (peer.receiver.receive message peer.reassembler peer.inboundStream).2.2.isClosed = true ↔
      peer.EndsInbound message := by
  rw [EndsInbound]
  cases seen : (peer.receiver.synRcvd || message.SYN) with
  | false =>
      obtain ⟨unseen, plain⟩ := Bool.or_eq_false_iff.mp seen
      rw [TCPReceiver.receive_before_syn unseen plain]
      refine (or_iff_left ?_).symm
      rintro ⟨seenToo, -⟩
      cases seenToo
  | true =>
      rw [TCPReceiver.receive_after_syn seen]
      refine (Reassembler.isClosed_insert_iff receptive.stored receptive.counted _ _ _).trans ?_
      exact or_congr_right (and_iff_right rfl).symm

theorem senderOps_calm (peer : TCPPeer) {op : Op} (notClose : op ≠ .close)
    (notReceive : ∀ seg, op ≠ .receive seg) : ∀ inner ∈ peer.senderOps op, inner.Calm := by
  intro inner inside
  cases op with
  | close => exact absurd rfl notClose
  | receive seg => exact absurd rfl (notReceive seg)
  | maybeSend =>
      rw [senderOps] at inside
      split at inside
      · rcases List.mem_cons.mp inside with rfl | later
        · exact True.intro
        · cases List.mem_singleton.mp later
          exact True.intro
      · cases List.mem_singleton.mp inside
        exact True.intro
  | read len => cases inside
  | _ =>
      cases List.mem_singleton.mp inside
      exact True.intro

theorem Stranded.stuck {session : Session} {peer : TCPPeer} (stranded : peer.Stranded)
    (records : Records session peer) : session.Stuck where
  drained := records.outbound ▸ stranded.drained
  idle := records.sender ▸ stranded.idle
  unsent := records.sender ▸ stranded.unsent

/-- Only a close or a segment strands a peer. -/
theorem Accounted.stranded_of_calm {isn : Wrap32} {room : Nat} {peer next : TCPPeer} {op : Op}
    (accounted : peer.Accounted isn (op.offered + room)) (ran : peer.step op = .ok next)
    (notClose : op ≠ .close) (notReceive : ∀ seg, op ≠ .receive seg) (stranded : next.Stranded) :
    peer.Stranded := by
  obtain ⟨session, records, account, waiting, small⟩ := accounted
  obtain ⟨later, done, still⟩ := records.step ran
  have written := Session.written_le_attempt done
  rw [senderOps_offered] at written
  have before := account.stuck_attempt waiting (peer.senderOps_calm notClose notReceive) done
    (by omega) (stranded.stuck still)
  obtain ⟨errorSame, closedSame⟩ := step_inbound_state ran notReceive
  exact ⟨errorSame ▸ stranded.fine, records.outbound ▸ before.drained,
    closedSame ▸ stranded.closed, records.sender ▸ before.idle, records.sender ▸ before.unsent⟩

theorem stranded_close_iff (peer : TCPPeer) :
    Stranded { peer with outboundStream := peer.outboundStream.close } ↔
      peer.Abandons .close := by
  constructor
  · rintro ⟨fine, drained, closed, idle, unsent⟩
    exact ⟨fine, unsent, List.isEmpty_iff.mp (Bool.and_eq_true_iff.mp drained).2, closed, idle⟩
  · rintro ⟨fine, unsent, empty, closed, idle⟩
    exact ⟨fine, Bool.and_eq_true_iff.mpr ⟨rfl, List.isEmpty_iff.mpr empty⟩, closed, idle, unsent⟩

/-- The segment strands the peer exactly if it abandons the end. -/
theorem Accounted.stranded_receive_iff {isn : Wrap32} {room : Nat} {peer : TCPPeer}
    (accounted : peer.Accounted isn room) (receptive : peer.Receptive) (seg : TCPSegment) :
    (peer.receive seg).Stranded ↔ peer.Abandons (.receive seg) := by
  obtain ⟨session, records, account, waiting, small⟩ := accounted
  have acknowledges := Account.receive_inFlight_iff account (by omega) waiting seg.receiverMessage
  rw [records.sender] at acknowledges
  rw [receive]
  split
  case isTrue failing =>
      constructor
      · intro stranded
        exact absurd stranded.fine Bool.noConfusion
      · rintro ⟨fine, -, -, plain, -⟩
        rw [fine, plain] at failing
        cases failing
  case isFalse working =>
      obtain ⟨plain, fine⟩ := Bool.or_eq_false_iff.mp (Bool.eq_false_of_not_eq_true working)
      constructor
      · intro stranded
        exact ⟨fine, peer.sender.receive_finPushed seg.receiverMessage ▸ stranded.unsent,
          stranded.drained, plain, acknowledges.mp stranded.idle,
          (receptive.isClosed_iff seg.senderMessage).mp stranded.closed⟩
      · rintro ⟨-, unsent, drained, -, acks, ends⟩
        exact ⟨(receiver_hasError _ _ _ _).trans fine, drained,
          (receptive.isClosed_iff seg.senderMessage).mpr ends, acknowledges.mpr acks,
          (peer.sender.receive_finPushed seg.receiverMessage).trans unsent⟩

/-- A step leaves a complete end, or none, exactly if it does not abandon the end. -/
theorem Accounted.endsComplete_step_iff {isn : Wrap32} {room : Nat} {peer next : TCPPeer} {op : Op}
    (accounted : peer.Accounted isn (op.offered + room)) (receptive : peer.Receptive)
    (complete : peer.EndsComplete) (ran : peer.step op = .ok next) :
    next.EndsComplete ↔ ¬ peer.Abandons op := by
  have before := accounted.endsComplete_iff.mp complete
  rw [(accounted.step ran).endsComplete_iff]
  apply not_congr
  cases op with
  | close =>
      cases ran
      exact peer.stranded_close_iff
  | receive seg =>
      cases ran
      exact accounted.stranded_receive_iff receptive seg
  | _ =>
      refine iff_of_false (fun stranded => before ?_) id
      exact accounted.stranded_of_calm ran (fun same => nomatch same) (fun _ same => nomatch same)
        stranded

/-- In every run, with fewer bytes written than there are stream indexes, the peer is inactive
only when the connection is complete, exactly if no step abandons the end. -/
theorem completes_iff_neverAbandons (cfg : TCPConfig) (random : Wrap32) (ops : List Op)
    (small : offered ops + 2 < 2 ^ 64) :
    EachReached TCPPeer.step EndsComplete (new cfg random) ops ↔
      EachAttempt TCPPeer.step (fun peer op => ¬ peer.Abandons op) (new cfg random) ops := by
  refine eachReached_iff_of_remaining
    (fun remaining peer =>
      peer.Accounted (cfg.fixedIsn.getD random) (offered remaining) ∧ peer.Receptive)
    EndsComplete _ ?_ ?_ ?_ ⟨new_accounted cfg random small, new_receptive cfg random⟩ ?_
  · rintro op remaining peer next ⟨accounted, receptive⟩ ran
    rw [offered_cons] at accounted
    exact ⟨accounted.step ran, receptive.step ran⟩
  · rintro op remaining peer next ⟨accounted, receptive⟩ complete ran
    rw [offered_cons] at accounted
    exact accounted.endsComplete_step_iff receptive complete ran
  · intro peer op fault failed abandons
    cases op with
    | close => cases failed
    | receive seg => cases failed
    | _ => exact abandons
  · intro _ inactive
    cases inactive

/-- The other end has closed and everything so far is acknowledged. -/
def closedByOther : List Op :=
  [.push, .maybeSend,
    .receive
      { senderMessage := { seqno := ⟨7⟩, SYN := true }
        receiverMessage := { ackno := some ⟨1⟩, windowSize := 1000 } },
    .receive
      { senderMessage := { seqno := ⟨8⟩, FIN := true }
        receiverMessage := { ackno := some ⟨1⟩, windowSize := 1000 } }]

theorem completes_iff_neverAbandons_closedByOther :
    offered closedByOther + 2 < 2 ^ 64 ∧
      (EachReached TCPPeer.step EndsComplete (new { fixedIsn := some ⟨0⟩ } ⟨0⟩) closedByOther ↔
        EachAttempt TCPPeer.step (fun peer op => ¬ peer.Abandons op)
          (new { fixedIsn := some ⟨0⟩ } ⟨0⟩) closedByOther) :=
  ⟨by decide, completes_iff_neverAbandons _ _ _ (by decide)⟩

/-- When the owner now closes the stream the peer is inactive at once, and the FIN is never
pushed. -/
theorem closedByOther_abandoned :
    ¬ EachReached TCPPeer.step EndsComplete (new { fixedIsn := some ⟨0⟩ } ⟨0⟩)
        (closedByOther ++ [.close]) := by
  intro each
  have complete := each.final rfl
  exact Bool.false_ne_true (complete rfl rfl).finPushed

end TCPPeer

end Minnow.Transport
