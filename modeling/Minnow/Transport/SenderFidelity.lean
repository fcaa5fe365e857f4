import Minnow.Transport.SenderAccount

/-!
# Fidelity of the sender

The segments created are the outbound stream cut into pieces, each under its number.
What is sent are these segments in order, and copies of segments queued before.
-/

namespace Minnow.Transport

open Foundation Foundation.Words Foundation.Runs Foundation.Tiling Minnow.Stream

open TCPSenderMessage (sequenceLength)

/-- The segment of a first transmission. -/
def Queued.first? : Queued → Option TCPSenderMessage
  | .first message => some message
  | .again _ => none

namespace Session

/-! ## The send queue -/

/-- What was sent and what waits is what was queued; the first transmissions are the
segments created; and a copy stands behind the segment it copies. -/
structure QueueFaithful (session : Session) : Prop where
  order : session.sent ++ session.sender.sendQueue = session.queued.map Queued.message
  firsts : session.queued.filterMap Queued.first? = session.created
  copies : ∀ (index : Nat) message, session.queued[index]? = some (.again message) →
    ∃ earlier < index, session.queued[earlier]? = some (.first message)

theorem map_message_first (segments : List TCPSenderMessage) :
    (segments.map Queued.first).map Queued.message = segments := by
  rw [List.map_map]
  exact List.map_id segments

theorem map_message_again (segments : List TCPSenderMessage) :
    (segments.map Queued.again).map Queued.message = segments := by
  rw [List.map_map]
  exact List.map_id segments

theorem filterMap_first (segments : List TCPSenderMessage) :
    (segments.map Queued.first).filterMap Queued.first? = segments := by
  rw [List.filterMap_map]
  exact List.filterMap_some

theorem filterMap_again (segments : List TCPSenderMessage) :
    (segments.map Queued.again).filterMap Queued.first? = [] := by
  rw [List.filterMap_map]
  exact List.filterMap_eq_nil_iff.mpr fun _ _ => rfl

/-- Copies of segments queued before may be added. -/
theorem copies_append {queued added : List Queued}
    (copies : ∀ (index : Nat) message, queued[index]? = some (.again message) →
      ∃ earlier < index, queued[earlier]? = some (.first message))
    (copied : ∀ message, Queued.again message ∈ added → Queued.first message ∈ queued) :
    ∀ (index : Nat) message, (queued ++ added)[index]? = some (.again message) →
      ∃ earlier < index, (queued ++ added)[earlier]? = some (.first message) := by
  intro index message here
  rcases Nat.lt_or_ge index queued.length with old | new
  · rw [List.getElem?_append_left old] at here
    obtain ⟨earlier, before, found⟩ := copies index message here
    refine ⟨earlier, before, ?_⟩
    rw [List.getElem?_append_left (Nat.lt_trans before old)]
    exact found
  · rw [List.getElem?_append_right new] at here
    obtain ⟨earlier, inside, found⟩ :=
      List.mem_iff_getElem.mp (copied message (List.mem_of_getElem? here))
    refine ⟨earlier, Nat.lt_of_lt_of_le inside new, ?_⟩
    rw [List.getElem?_append_left inside, List.getElem?_eq_getElem inside, found]

/-- Everything sent is a segment created. -/
theorem QueueFaithful.returned {session : Session} (faithful : session.QueueFaithful) :
    ∀ message ∈ session.sent, message ∈ session.created := by
  have created : ∀ message, Queued.first message ∈ session.queued → message ∈ session.created := by
    intro message inside
    rw [← faithful.firsts]
    exact List.mem_filterMap.mpr ⟨.first message, inside, rfl⟩
  intro message sentIn
  have queuedIn : message ∈ session.queued.map Queued.message := by
    rw [← faithful.order]
    exact List.mem_append_left _ sentIn
  obtain ⟨entry, entryIn, same⟩ := List.mem_map.mp queuedIn
  rw [← same]
  cases entry with
  | first other => exact created other entryIn
  | again other =>
      obtain ⟨index, inside, here⟩ := List.mem_iff_getElem.mp entryIn
      obtain ⟨earlier, _, found⟩ := faithful.copies index other
        (by rw [List.getElem?_eq_getElem inside, here])
      exact created other (List.mem_of_getElem? found)

theorem QueueFaithful.step {isn : Wrap32} {session next : Session} {op : Op}
    (faithful : session.QueueFaithful) (accounted : session.Accounted isn)
    (stepped : session.Stepped op next) : next.QueueFaithful := by
  cases stepped with
  | write data => exact ⟨faithful.order, faithful.firsts, faithful.copies⟩
  | close => exact ⟨faithful.order, faithful.firsts, faithful.copies⟩
  | @push segments last rest emits =>
      refine ⟨?_, ?_, ?_⟩
      · change session.sent ++ last.sendQueue = (session.queued ++ _).map Queued.message
        rw [emits.frame.1, TCPSender.pushSyn_sendQueue, List.map_append, map_message_first,
          ← faithful.order, List.append_assoc, List.append_assoc]
      · change (session.queued ++ _).filterMap Queued.first? = session.created ++ _
        rw [List.filterMap_append, filterMap_first, faithful.firsts]
      · apply copies_append faithful.copies
        intro message inside
        obtain ⟨segment, _, same⟩ := List.mem_map.mp inside
        cases same
  | idle empty => exact faithful
  | send queued running =>
      refine ⟨?_, faithful.firsts, faithful.copies⟩
      rw [← faithful.order, queued]
      exact List.append_assoc _ _ _
  | bare bare => exact faithful
  | receive carries received =>
      refine ⟨?_, faithful.firsts, faithful.copies⟩
      rw [received.sendQueue]
      exact faithful.order
  | @tick _ copies after ticked =>
      refine ⟨?_, ?_, ?_⟩
      · change session.sent ++ after.sendQueue = (session.queued ++ _).map Queued.message
        rw [ticked.sendQueue, List.map_append, map_message_again, ← faithful.order,
          List.append_assoc]
      · change (session.queued ++ _).filterMap Queued.first? = session.created
        rw [List.filterMap_append, filterMap_again, List.append_nil, faithful.firsts]
      · apply copies_append faithful.copies
        intro message inside
        obtain ⟨copy, copyIn, same⟩ := List.mem_map.mp inside
        cases same
        obtain ⟨start, outstanding⟩ := ticked.copied message copyIn
        have created : message ∈ session.created :=
          mem_of_mem_placed (Account.mem_placed accounted outstanding)
        rw [← faithful.firsts] at created
        obtain ⟨entry, entryIn, isFirst⟩ := List.mem_filterMap.mp created
        cases entry with
        | first other =>
            cases isFirst
            exact entryIn
        | again other => exact nomatch isFirst

theorem run_queueFaithful {capacity initialRTO : UInt64} {isn : Wrap32} {ops : List Op}
    {session : Session} (ran : run capacity initialRTO isn ops = .ok session)
    (small : session.written.length + 2 < 2 ^ 64) : session.QueueFaithful := by
  have both : session.Accounted isn ∧ session.QueueFaithful := by
    refine attempt_invariant (fun state : Session => state.written.length + 2 < 2 ^ 64 →
      state.Accounted isn ∧ state.QueueFaithful) ?_ ?_ ran small
    · intro state op next inner last nextSmall
      have stepped := stepped_of_step last
      have smaller := stepped.written.length_le
      obtain ⟨accounted, faithful⟩ := inner (by omega)
      exact ⟨accounted.step stepped nextSmall, faithful.step accounted stepped⟩
    · refine fun _ => ⟨start_accounted capacity initialRTO isn, rfl, rfl, ?_⟩
      intro index message here
      exact nomatch here
  exact both.2

/-! ## Fidelity -/

/-- The segments created tile the sequence space from zero under their numbers, with the
SYN first and alone, the popped bytes as payloads and the FIN last; what is outstanding
stands under its start; and what was sent is what was queued: the segments in order,
and copies behind the segments they copy. -/
structure Fidelity (isn : Wrap32) (session : Session) : Prop where
  numbered : ∀ start segment, (start, segment) ∈ placed sequenceLength 0 session.created →
    segment.seqno = Wrap32.wrap start isn
  synFirst : ∀ segment, session.created.head? = some segment →
    segment.SYN = true ∧ segment.payload = []
  synOnly : ∀ segment ∈ session.created.tail, segment.SYN = false
  payloads : carriedBytes session.created = session.written.take session.outbound.bytesPopped
  finLast : ∀ segment ∈ session.created.dropLast, segment.FIN = false
  short : ∀ segment ∈ session.created, segment.payload.length ≤ TCPConfig.maxPayloadSize
  filed : ∀ entry ∈ session.sender.outstandingMessages.entries,
    entry ∈ placed sequenceLength 0 session.created
  returned : ∀ message ∈ session.sent, message ∈ session.created
  sent : session.sent <+: session.queued.map Queued.message
  firsts : session.queued.filterMap Queued.first? = session.created
  copies : ∀ (index : Nat) message, session.queued[index]? = some (.again message) →
    ∃ earlier < index, session.queued[earlier]? = some (.first message)

/-- Every run that does not read a missing segment is faithful to the stream, and it
creates a FIN only when the stream is closed and drained. -/
theorem stream_fidelity (capacity initialRTO : UInt64) (isn : Wrap32) (ops : List Op)
    (session : Session) (ran : run capacity initialRTO isn ops = .ok session)
    (small : session.written.length < 2 ^ 62) :
    Fidelity isn session ∧
      ∀ history op before after, history ++ [op] <+: ops →
        run capacity initialRTO isn history = .ok before →
        run capacity initialRTO isn (history ++ [op]) = .ok after →
        (∀ segment ∈ before.created, segment.FIN = false) →
        (∃ segment ∈ after.created, segment.FIN = true) →
        after.outbound.isFinished = true := by
  have accounted := run_accounted ran (by omega)
  have faithful := run_queueFaithful ran (by omega)
  have bound := Account.extent_le accounted
  have size : TCPConfig.maxPayloadSize = 1000 := rfl
  have tiled := Account.tiled accounted
  refine ⟨⟨tiled.numbered, tiled.synFirst, tiled.synOnly, Account.payloads accounted, tiled.finLast,
    tiled.short (by omega), fun _ => Account.mem_placed accounted, faithful.returned, ?_, faithful.firsts,
    faithful.copies⟩, ?_⟩
  · rw [← faithful.order]
    exact List.prefix_append _ _
  · intro history op before after begins beforeRan afterRan without created
    obtain ⟨rest, rfl⟩ := begins
    obtain ⟨middle, middleRan, restRan⟩ := attempt_append_ok ran
    cases middleRan.symm.trans afterRan
    have grown : after.written <+: session.written := written_attempt restRan
    have afterAccounted := run_accounted afterRan (by have := grown.length_le; omega)
    obtain ⟨same, sameRan, last⟩ := attempt_snoc_ok afterRan
    cases sameRan.symm.trans beforeRan
    have stepped := stepped_of_step last
    have smaller := stepped.written.length_le
    have beforeAccounted := run_accounted beforeRan (by have := grown.length_le; omega)
    rcases stepped.finished ((Account.finPushed afterAccounted).mpr created) with old | drained
    · obtain ⟨segment, inside, flag⟩ := (Account.finPushed beforeAccounted).mp old
      exact nomatch (without segment inside).symm.trans flag
    · exact drained

/-- The SYN goes out twice, since the timer expires.  Once it is acknowledged, two bytes follow with
the FIN, and are sent. -/
def retransmittedSyn : List Op :=
  [.write [97, 98], .close, .push, .maybeSend, .tick 1000, .maybeSend,
    .receive { ackno := some ⟨1⟩, windowSize := 5 }, .push, .maybeSend]

theorem stream_fidelity_retransmittedSyn :
    ∃ session pushed, run 4 1000 ⟨0⟩ retransmittedSyn = .ok session ∧
      session.created.map (fun segment => (segment.SYN, segment.payload, segment.FIN)) =
        [(true, [], false), (false, [97, 98], true)] ∧
      session.sent.length = 3 ∧ Fidelity ⟨0⟩ session ∧
      run 4 1000 ⟨0⟩ (retransmittedSyn.take 8) = .ok pushed ∧
      pushed.outbound.isFinished = true := by
  have faithful := stream_fidelity 4 1000 ⟨0⟩ retransmittedSyn _ rfl (by decide)
  have drained := faithful.2 (retransmittedSyn.take 7) .push _ _ ⟨[.maybeSend], rfl⟩ rfl rfl
    (by decide) (by decide)
  exact ⟨_, _, rfl, rfl, rfl, faithful.1, rfl, drained⟩

end Session

end Minnow.Transport
