import Minnow.Transport.ReceiverRuns

/-!
# Segments before the stream

The first byte of a segment without SYN that carries the seqno of the SYN would have
stream index minus one.  It is given the last index there is, past every window, so no
byte is stored; but the end that a FIN on it announces is noted.
-/

namespace Minnow.Transport

open Foundation.Words Foundation.Runs Minnow.Stream

namespace Receiving

/-- Nothing the peer or the reader can see, and nothing kept for later, has changed. -/
structure Ignored (before after : Receiving) : Prop where
  stream : after.assembly.output = before.assembly.output
  held : after.assembly.reassembler.buf = before.assembly.reassembler.buf
  bytesPending :
    after.assembly.reassembler.bytesPending = before.assembly.reassembler.bytesPending
  streamEnd : after.assembly.reassembler.streamEnd = before.assembly.reassembler.streamEnd
  ackno : after.send.ackno = before.send.ackno

/-- The end announced by a FIN on such a segment is the one on record. -/
def EndOnRecord (receiving : Receiving) (message : TCPSenderMessage) : Prop :=
  message.FIN = true →
    add64 (2 ^ 64 - 1) message.payload.length = receiving.assembly.reassembler.streamEnd

/-! ## Streams that reached their end -/

/-- Once as many bytes are pushed as the end on record says, the stream is closed. -/
def ClosedAtEnd (assembly : Assembly) : Prop :=
  assembly.output.bytesPushed = assembly.reassembler.streamEnd → assembly.output.isClosed = true

theorem closedAtEnd_start (capacity : UInt64) : ClosedAtEnd (Assembly.start capacity) :=
  fun atEnd => absurd (show 0 = unknownEnd from atEnd) (by decide)

theorem closedAtEnd_step {assembly : Assembly} (sound : assembly.Sound)
    (closes : ClosedAtEnd assembly) (op : Assembly.Op) : ClosedAtEnd (assembly.step op) := by
  cases op with
  | pop len => exact closes
  | insert firstIndex data isLastSubstring =>
      obtain ⟨middle, clampedBegin, clampedEnd, done⟩ :=
        sound.insert_spec firstIndex data isLastSubstring
      exact fun atEnd => done.closed.mpr (Or.inr atEnd)

theorem run_closedAtEnd (capacity : UInt64) (ops : List Op) :
    ClosedAtEnd (run capacity ops).assembly := by
  refine (exec_invariant
    (fun state : Receiving => state.assembly.Sound ∧ ClosedAtEnd state.assembly) ?_
    ⟨Assembly.start_sound capacity, closedAtEnd_start capacity⟩ ops).2
  rintro state op ⟨sound, closes⟩
  refine ⟨step_sound sound op, ?_⟩
  rcases state.step_assembly op with same | ⟨inner, moved⟩
  · rw [same]
    exact closes
  · rw [moved]
    exact closedAtEnd_step sound closes inner

/-! ## The index -/

/-- The seqno of the SYN, on another segment, stands for the last index there is. -/
theorem firstIndex_of_isn {isn : Wrap32} {message : TCPSenderMessage} {checkpoint : Nat}
    (near : checkpoint < 2 ^ 31) (plain : message.SYN = false) (seqno : message.seqno = isn) :
    TCPReceiver.firstIndex isn checkpoint message = 2 ^ 64 - 1 := by
  have unwrapped : isn.unwrap isn checkpoint = 0 := by
    have back := @Wrap32.unwrap_wrap 0 checkpoint isn (by decide) (by omega) (by omega) (by omega)
    rwa [Wrap32.wrap_zero] at back
  rw [TCPReceiver.firstIndex, seqno, unwrapped, plain]
  rfl

/-- Such a segment is past the window, and leaves the stream as it is unless it announces
an end. -/
theorem receive_isn {receiving : Receiving} {isn : Wrap32} {message : TCPSenderMessage}
    (seen : receiving.receiver.synRcvd = true)
    (zeroPoint : receiving.receiver.recvZeroPoint = isn)
    (near : receiving.assembly.output.bytesPushed < 2 ^ 31) (plain : message.SYN = false)
    (seqno : message.seqno = isn) :
    receiving.receive message =
      { receiver := ⟨isn, true, receiving.receiver.finRcvd || message.FIN⟩
        assembly := receiving.assembly.insert (2 ^ 64 - 1) message.payload message.FIN } := by
  rw [receive_of_seen (by rw [seen]; rfl), if_neg (by rw [plain]; exact Bool.false_ne_true),
    zeroPoint, firstIndex_of_isn near plain seqno]

/-- It is ignored just if the end it announces, should it announce one, is on record. -/
theorem ignored_iff_of_sound {receiving : Receiving} {isn : Wrap32} {message : TCPSenderMessage}
    (sound : receiving.assembly.Sound) (closes : ClosedAtEnd receiving.assembly)
    (seen : receiving.receiver.synRcvd = true)
    (zeroPoint : receiving.receiver.recvZeroPoint = isn)
    (near : receiving.assembly.output.bytesPushed < 2 ^ 31) (plain : message.SYN = false)
    (seqno : message.seqno = isn) :
    Ignored receiving (receiving.receive message) ↔ EndOnRecord receiving message := by
  have past : receiving.assembly.acceptEnd ≤ 2 ^ 64 - 1 := Nat.le_pred_of_lt (add64_lt _ _)
  have inserted := Reassembler.insert_past_window sound.stored past message.payload message.FIN
  rw [receive_isn seen zeroPoint near plain seqno]
  constructor
  · intro ignored fin
    have same := ignored.streamEnd
    obtain ⟨middle, clampedBegin, clampedEnd, done⟩ :=
      sound.insert_spec (2 ^ 64 - 1) message.payload message.FIN
    rw [done.streamEnd, fin] at same
    exact same
  · intro onRecord
    have noted : receiving.assembly.reassembler.noteEnd (2 ^ 64 - 1) message.payload message.FIN =
        receiving.assembly.reassembler := by
      cases fin : message.FIN with
      | false => rfl
      | true =>
          rw [Reassembler.noteEnd, if_pos rfl, onRecord fin]
    have isOpen : ¬ (receiving.assembly.output.bytesPushed =
        receiving.assembly.reassembler.streamEnd ∧ receiving.assembly.output.isClosed = false) :=
      fun atEnd => absurd (closes atEnd.1) (by rw [atEnd.2]; exact Bool.false_ne_true)
    rw [noted] at inserted
    dsimp only at inserted
    rw [if_neg isOpen] at inserted
    rw [Assembly.insert, inserted]
    refine ⟨rfl, rfl, rfl, rfl, ?_⟩
    refine (send_ackno_of_seen rfl).trans ?_
    rw [send_ackno_of_seen seen, zeroPoint]
    rfl

/-- In every state after a SYN whose seqno it carries, a segment without SYN is ignored
just if it has no FIN, or its payload is one byte longer than the end on record says. -/
theorem ignored_iff_endOnRecord (capacity : UInt64) (ops : List Op) (isn : Wrap32)
    (last : lastSyn ops = some isn)
    (near : (run capacity ops).assembly.output.bytesPushed < 2 ^ 31)
    (message : TCPSenderMessage) (plain : message.SYN = false) (seqno : message.seqno = isn) :
    Ignored (run capacity ops) ((run capacity ops).receive message) ↔
      EndOnRecord (run capacity ops) message := by
  have follows := run_follows capacity ops
  refine ignored_iff_of_sound (run_sound capacity ops) (run_closedAtEnd capacity ops) ?_
    (follows.zeroPoint isn last) near plain seqno
  rw [follows.synRcvd, last]
  rfl

/-- A byte without FIN is ignored. -/
theorem ignored_iff_endOnRecord_byte :
    Ignored (run 4 [.receive { seqno := ⟨10⟩, SYN := true }])
        ((run 4 [.receive { seqno := ⟨10⟩, SYN := true }]).receive
          { seqno := ⟨10⟩, payload := [97] }) ↔
      EndOnRecord (run 4 [.receive { seqno := ⟨10⟩, SYN := true }])
        { seqno := ⟨10⟩, payload := [97] } :=
  ignored_iff_endOnRecord 4 [.receive { seqno := ⟨10⟩, SYN := true }] ⟨10⟩ (by decide) (by decide)
    { seqno := ⟨10⟩, payload := [97] } rfl rfl

/-- A byte with FIN closes the empty stream. -/
theorem ignored_fails_fin :
    lastSyn [.receive { seqno := ⟨10⟩, SYN := true }] = some ⟨10⟩ ∧
      ¬ Ignored (run 4 [.receive { seqno := ⟨10⟩, SYN := true }])
        ((run 4 [.receive { seqno := ⟨10⟩, SYN := true }]).receive
          { seqno := ⟨10⟩, payload := [97], FIN := true }) := by
  refine ⟨by decide, ?_⟩
  intro ignored
  exact absurd ignored.stream (by decide)

end Receiving

end Minnow.Transport
