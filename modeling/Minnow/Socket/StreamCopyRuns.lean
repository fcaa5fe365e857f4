import Minnow.Socket.StreamCopy

/-!
# Runs of the copying loop

The bytes of a direction are kept in their order.  When the loop ends, a direction is complete, or
the descriptor that it writes to was in trouble.
-/

namespace Minnow.Socket.StreamCopy

open Foundation Minnow.Stream

/-- What holds of a direction, if the rules of these categories are gone or about to go. -/
structure Flowing (gone : Nat → Prop) (copy : StreamCopy) (way : Way) : Prop where
  whole : (copy.line way).read = (copy.line way).written ++ (copy.line way).stream.buffer
  fine : (copy.line way).stream.hasError = false
  room : (copy.line way).stream.capacity = bufferSize
  alive : (copy.fd (source way)).closed = false
  ended : (copy.fd (source way)).eof = true → (copy.line way).stream.isClosed = true
  closed : (copy.line way).stream.isClosed = true → (copy.fd (source way)).eof = true ∨
    gone (readCategory way) ∨ gone (writeCategory way)
  shut : (copy.line way).shutdown = true → (copy.line way).stream.isFinished = true ∧
    ((copy.fd (source way)).eof = true ∨ gone (readCategory way))

variable {gone : Nat → Prop} {copy next : StreamCopy} {way other : Way}

theorem Flowing.mono {later : Nat → Prop} (flowing : Flowing gone copy way)
    (more : ∀ category, gone category → later category) : Flowing later copy way :=
  { flowing with
    closed := fun closed => (flowing.closed closed).imp_right (Or.imp (more _) (more _))
    shut := fun shut => ⟨(flowing.shut shut).1, (flowing.shut shut).2.imp_right (more _)⟩ }

/-- The end is passed on when everything was written. -/
theorem Flowing.complete (flowing : Flowing gone copy way)
    (shutdown : (copy.line way).shutdown = true) :
    (copy.line way).written = (copy.line way).read ∧
      ((copy.fd (source way)).eof = true ∨ gone (readCategory way)) := by
  obtain ⟨finished, last⟩ := flowing.shut shutdown
  rw [ByteStream.isFinished, Bool.and_eq_true, List.isEmpty_iff] at finished
  rw [flowing.whole, finished.2, List.append_nil]
  exact ⟨rfl, last⟩

/-- Whether a descriptor is at its end, and whether it is closed. -/
def ends (fd : FDWrapper) : Bool × Bool := (fd.eof, fd.closed)

/-- Only the own line and the own source matter. -/
theorem Flowing.of_same (flowing : Flowing gone copy way) (line : next.line way = copy.line way)
    (same : ends (next.fd (source way)) = ends (copy.fd (source way))) : Flowing gone next way := by
  obtain ⟨whole, fine, room, alive, ended, closed, shut⟩ := flowing
  obtain ⟨eof, isClosed⟩ := Prod.mk.inj same
  rw [← line] at whole fine room
  rw [← isClosed] at alive
  rw [← line, ← eof] at ended closed shut
  exact ⟨whole, fine, room, alive, ended, closed, shut⟩

theorem source_injective : Function.Injective source := by
  intro way other same
  cases way <;> cases other <;> first | rfl | cases same

/-- The source of one direction is read by this direction only. -/
theorem ends_setFd_source (differs : other ≠ way) (fd : FDWrapper) :
    ends ((copy.setFd (source way) fd).fd (source other)) = ends (copy.fd (source other)) := by
  rw [setFd_of_ne]
  exact fun same => differs (source_injective same)

/-- What is written to is not at its end for that, except for the standard output, which nobody
reads. -/
theorem ends_setFd_sink (fd : FDWrapper) (same : way = .outbound → ends fd = ends (copy.fd (sink way))) :
    ends ((copy.setFd (sink way) fd).fd (source other)) = ends (copy.fd (source other)) := by
  by_cases here : source other = sink way
  · rw [here, setFd_self]
    cases way with
    | outbound => exact same rfl
    | inbound => cases other <;> cases here
  · rw [setFd_of_ne _ _ _ here]

/-- The own line is replaced. -/
theorem flowing_setLine {line : Line} (whole : line.read = line.written ++ line.stream.buffer)
    (fine : line.stream.hasError = false) (room : line.stream.capacity = bufferSize)
    (alive : (copy.fd (source way)).closed = false)
    (ended : (copy.fd (source way)).eof = true → line.stream.isClosed = true)
    (closed : line.stream.isClosed = true → (copy.fd (source way)).eof = true ∨
      gone (readCategory way) ∨ gone (writeCategory way))
    (shut : line.shutdown = true → line.stream.isFinished = true ∧
      ((copy.fd (source way)).eof = true ∨ gone (readCategory way))) :
    Flowing gone (copy.setLine way line) way := by
  constructor <;> simp only [setLine_self, setLine_fd]
  · exact whole
  · exact fine
  · exact room
  · exact alive
  · exact ended
  · exact closed
  · exact shut

/-! ## The callbacks -/

/-- A read that found something, or the end. -/
theorem readInto_ok (prompt : copy.answers.read way ≠ .again)
    (room : 0 < (copy.line way).stream.availableCapacity) (ran : readInto way copy = .ok next) :
    ∃ fd line, next = (copy.setFd (source way) fd).setLine way line ∧
      line.shutdown = (copy.line way).shutdown ∧ line.written = (copy.line way).written ∧
      line.stream.hasError = (copy.line way).stream.hasError ∧
      line.stream.capacity = (copy.line way).stream.capacity ∧
      fd.closed = (copy.fd (source way)).closed ∧
      (∃ data, line.read = (copy.line way).read ++ data ∧
        line.stream.buffer = (copy.line way).stream.buffer ++ data) ∧
      (fd.eof = true → line.stream.isClosed = true) ∧
      (line.stream.isClosed = true → fd.eof = true ∨ (copy.line way).stream.isClosed = true) := by
  obtain ⟨⟨fd, data⟩, read, ⟨⟩⟩ := Fault.bind_eq_ok.mp ran
  refine ⟨fd, _, rfl, rfl, rfl, ?_⟩
  cases answer : copy.answers.read way with
  | again => exact absurd answer prompt
  | failed =>
      rw [answer] at read
      cases read
  | bytes bytes =>
      rw [answer] at read
      obtain ⟨rfl, rfl, short⟩ := FDWrapper.read_bytes read
      have some : List.replicate (copy.line way).stream.availableCapacity (0 : UInt8) ≠ [] := by
        rw [Ne, List.replicate_eq_nil_iff]
        exact Nat.ne_of_gt room
      rw [FDWrapper.readBuffer_of_ne_nil some, List.length_replicate] at short
      have all : (copy.line way).stream.accepted data = data := by
        rw [ByteStream.accepted, Nat.min_eq_left short, List.take_length]
      dsimp only
      split
      · rename_i eof
        exact ⟨rfl, rfl, rfl, ⟨data, rfl, congrArg _ all⟩, fun _ => rfl, fun _ => Or.inl eof⟩
      · rename_i goesOn
        exact ⟨rfl, rfl, rfl, ⟨data, rfl, congrArg _ all⟩, fun eof => absurd eof goesOn, Or.inr⟩

/-- The bytes of the source go into the stream. -/
theorem readInto_flowing (flowing : ∀ way, Flowing gone copy way)
    (prompt : copy.answers.read way ≠ .again) (stays : ¬ gone (readCategory way))
    (goesOn : (copy.fd (source way)).eof = false)
    (room : 0 < (copy.line way).stream.availableCapacity) (ran : readInto way copy = .ok next) :
    ∀ way, Flowing gone next way := by
  obtain ⟨fd, line, rfl, shutdown, written, fine, capacity, alive, ⟨data, read,
    buffer⟩, ended, closed⟩ := readInto_ok prompt room ran
  intro other
  by_cases same : other = way
  · subst same
    have before := flowing other
    refine flowing_setLine ?_ (fine.trans before.fine) (capacity.trans before.room) ?_ ?_ ?_ ?_
    · rw [read, before.whole, buffer, written, List.append_assoc]
    · rw [setFd_self]
      exact alive.trans before.alive
    · rwa [setFd_self]
    · rw [setFd_self]
      intro now
      rcases closed now with eof | already
      · exact Or.inl eof
      · rcases before.closed already with eof | absent
        · rw [goesOn] at eof
          cases eof
        · exact Or.inr absent
    · rw [shutdown]
      intro shut
      rcases (before.shut shut).2 with eof | absent
      · rw [goesOn] at eof
        cases eof
      · exact absurd absent stays
  · exact (flowing other).of_same (setLine_of_ne _ _ _ same) (ends_setFd_source same fd)

/-- What is written is what comes next. -/
theorem drain_flowing (flowing : ∀ way, Flowing gone copy way) (ran : drain way copy = .ok next) :
    ∀ way, Flowing gone next way := by
  rw [drain] at ran
  dsimp only at ran
  split at ran
  · cases ran
    exact flowing
  · rename_i buffered
    obtain ⟨⟨fd, bytesWritten⟩, written, ⟨⟩⟩ := Fault.bind_eq_ok.mp ran
    obtain ⟨rfl, -, -⟩ := FDWrapper.write_ok written
    intro other
    have same := @ends_setFd_sink copy way other (copy.fd (sink way)).registerWrite fun _ => rfl
    obtain ⟨eof, closed⟩ := Prod.mk.inj same
    by_cases own : other = way
    · subst own
      have before := flowing other
      refine flowing_setLine ?_ before.fine before.room (closed.trans before.alive) ?_ ?_ ?_
      · rw [before.whole, ByteStream.pop_buffer, List.append_assoc]
        exact congrArg _ (List.take_append_drop _ _).symm
      · rw [eof]
        exact before.ended
      · rw [eof]
        exact before.closed
      · intro shut
        have finished := (before.shut shut).1
        rw [ByteStream.isFinished, Bool.and_eq_true, List.isEmpty_iff] at finished
        exact absurd (congrArg List.length finished.2) buffered
    · exact (flowing other).of_same (setLine_of_ne _ _ _ own) same

theorem finish_ok (ran : finish way copy = .ok next) :
    ∃ fd, next = (copy.setLine way { copy.line way with shutdown := true }).setFd (sink way) fd ∧
      (way = .outbound → ends fd = ends (copy.fd (sink way))) := by
  cases way with
  | outbound =>
      rw [finish] at ran
      split at ran
      · cases ran
      · cases ran
        exact ⟨_, rfl, fun _ => rfl⟩
  | inbound =>
      rw [finish] at ran
      split at ran
      · cases ran
      · cases ran
        exact ⟨_, rfl, fun other => absurd other (by decide)⟩

/-- The end is passed on when everything is written. -/
theorem finish_flowing (flowing : ∀ way, Flowing gone copy way) (stays : ¬ gone (writeCategory way))
    (finished : (copy.line way).stream.isFinished = true) (ran : finish way copy = .ok next) :
    ∀ way, Flowing gone next way := by
  have done : ∀ other, Flowing gone (copy.setLine way { copy.line way with shutdown := true }) other := by
    intro other
    by_cases same : other = way
    · subst same
      have before := flowing other
      refine flowing_setLine before.whole before.fine before.room before.alive before.ended
        before.closed ?_
      intro _
      refine ⟨finished, ?_⟩
      rw [ByteStream.isFinished, Bool.and_eq_true] at finished
      rcases before.closed finished.1 with eof | absent | self
      · exact Or.inl eof
      · exact Or.inr absent
      · exact absurd self stays
    · exact (flowing other).of_same (setLine_of_ne _ _ _ same) rfl
  obtain ⟨fd, rfl, same⟩ := finish_ok ran
  exact fun other => (done other).of_same rfl (ends_setFd_sink fd same)

theorem writeFrom_flowing (flowing : ∀ way, Flowing gone copy way)
    (stays : ¬ gone (writeCategory way)) (ran : writeFrom way copy = .ok next) :
    ∀ way, Flowing gone next way := by
  obtain ⟨after, drained, ran⟩ := Fault.bind_eq_ok.mp ran
  have still := drain_flowing flowing drained
  split at ran
  · rename_i finished
    exact finish_flowing still stays finished ran
  · cases ran
    exact still

/-- A stream is closed when a rule of its direction is cancelled. -/
theorem closeStream_flowing (flowing : ∀ way, Flowing gone copy way)
    (absent : gone (readCategory way) ∨ gone (writeCategory way)) :
    ∀ other, Flowing gone (copy.closeStream way) other := by
  intro other
  by_cases same : other = way
  · subst same
    have before := flowing other
    refine flowing_setLine before.whole before.fine before.room before.alive (fun _ => rfl)
      (fun _ => Or.inr absent) fun shut => ?_
    obtain ⟨finished, last⟩ := before.shut shut
    refine ⟨?_, last⟩
    rw [ByteStream.isFinished, Bool.and_eq_true] at finished ⊢
    exact ⟨rfl, finished.2⟩
  · exact (flowing other).of_same (setLine_of_ne _ _ _ same) rfl

theorem writeFrom_answers (ran : writeFrom way copy = .ok next) : next.answers = copy.answers := by
  obtain ⟨after, drained, ran⟩ := Fault.bind_eq_ok.mp ran
  have first : after.answers = copy.answers := by
    rw [drain] at drained
    dsimp only at drained
    split at drained
    · cases drained
      rfl
    · obtain ⟨written, -, ⟨⟩⟩ := Fault.bind_eq_ok.mp drained
      rfl
  split at ran
  · obtain ⟨fd, rfl, -⟩ := finish_ok ran
    exact first
  · cases ran
    exact first

/-- No stream is opened again. -/
theorem readInto_isClosed (ran : readInto way copy = .ok next)
    (closed : (copy.line other).stream.isClosed = true) :
    (next.line other).stream.isClosed = true := by
  obtain ⟨⟨fd, data⟩, read, ⟨⟩⟩ := Fault.bind_eq_ok.mp ran
  by_cases same : other = way
  · subst same
    rw [setLine_self]
    dsimp only
    split
    · rfl
    · exact closed
  · rwa [setLine_of_ne _ _ _ same]

theorem writeFrom_isClosed (ran : writeFrom way copy = .ok next)
    (closed : (copy.line other).stream.isClosed = true) :
    (next.line other).stream.isClosed = true := by
  obtain ⟨after, drained, ran⟩ := Fault.bind_eq_ok.mp ran
  have first : (after.line other).stream.isClosed = true := by
    rw [drain] at drained
    dsimp only at drained
    split at drained
    · cases drained
      exact closed
    · obtain ⟨written, -, ⟨⟩⟩ := Fault.bind_eq_ok.mp drained
      by_cases same : other = way
      · subst same
        rw [setLine_self]
        exact closed
      · rwa [setLine_of_ne _ _ _ same]
  split at ran
  · obtain ⟨fd, rfl, -⟩ := finish_ok ran
    rw [setFd_line]
    by_cases same : other = way
    · subst same
      rw [setLine_self]
      exact first
    · rwa [setLine_of_ne _ _ _ same]
  · cases ran
    exact first

/-! ## A turn -/

/-- A rule of a direction that reads is called while its descriptor is not at its end, and there is
room in the stream. -/
def Due (rule : FDRule Fd StreamCopy) (copy : StreamCopy) : Prop :=
  ∀ way, rule.categoryId = readCategory way →
    (copy.fd (source way)).eof = false ∧ 0 < (copy.line way).stream.availableCapacity

/-- What is known of the callbacks of a turn: who is cancelled is gone, and who is called is not;
what polls readable has something to read. -/
structure May (gone : Nat → Prop) (answers : CopyAnswers) (note : Note) : Prop where
  cancelled : ∀ category, note = .cancelled category → gone category
  called : ∀ category, note = .called category → ¬ gone category
  prompt : ∀ way, note = .called (readCategory way) → answers.read way ≠ .again

/-- What a turn keeps. -/
structure Sane (gone : Nat → Prop) (answers : CopyAnswers) (copy : StreamCopy) : Prop where
  flowing : ∀ way, Flowing gone copy way
  answers : copy.answers = answers

variable {answers : CopyAnswers} {rule : FDRule Fd StreamCopy}

/-- To cancel a rule is to close the stream of its direction. -/
theorem cancel_eq (inside : rule ∈ eventLoop.fdRules) :
    ∃ way, (rule.categoryId = readCategory way ∨ rule.categoryId = writeCategory way) ∧
      ∀ copy, rule.cancel copy = .ok (closeStream way copy) := by
  obtain ⟨way, rfl | rfl⟩ := mem_eventLoop inside
  · exact ⟨way, Or.inl rfl, fun _ => rfl⟩
  · exact ⟨way, Or.inr rfl, fun _ => rfl⟩

/-- A category is that of one direction. -/
theorem way_of_category {category : Nat}
    (first : category = readCategory way ∨ category = writeCategory way)
    (second : category = readCategory other ∨ category = writeCategory other) : way = other := by
  rcases first with rfl | rfl
  · exact second.elim (fun same => readCategory_injective same)
      fun same => absurd same.symm (writeCategory_ne_readCategory other way)
  · exact second.elim (fun same => absurd same (writeCategory_ne_readCategory way other))
      fun same => writeCategory_injective same

/-- To close a stream takes no room. -/
theorem closeStream_room : ((closeStream way copy).line other).stream.availableCapacity =
    (copy.line other).stream.availableCapacity := by
  by_cases same : other = way
  · rw [same, closeStream, setLine_self]
    rfl
  · rw [closeStream, setLine_of_ne _ _ _ same]

theorem eventLoop_safe (gone : Nat → Prop) (answers : CopyAnswers) :
    EventLoop.Safe status eventLoop (May gone answers) (Sane gone answers) Due where
  basic := fun _ inside => absurd inside List.not_mem_nil
  cancel := by
    intro rule inside may copy next sane ran
    obtain ⟨way, category, cancels⟩ := cancel_eq inside
    rw [cancels] at ran
    cases ran
    have absent := may.cancelled _ rfl
    refine ⟨closeStream_flowing sane.flowing ?_, sane.answers⟩
    rcases category with same | same
    · rw [same] at absent
      exact Or.inl absent
    · rw [same] at absent
      exact Or.inr absent
  other := by
    intro rule _ cancelled inside _ copy next _ ran due way same
    obtain ⟨closed, -, cancels⟩ := cancel_eq inside
    rw [cancels] at ran
    cases ran
    rw [closeStream_room]
    exact due way same
  due := by
    intro rule inside copy _ goesOn interested way same
    obtain ⟨other, rfl | rfl⟩ := mem_eventLoop inside
    · cases readCategory_injective same
      simp only [EventLoop.defunct, readRule, decide_true, Bool.true_and, Bool.or_eq_false_iff]
        at goesOn
      simp only [readRule, Bool.and_eq_true, decide_eq_true_eq] at interested
      exact ⟨goesOn.1, interested.1.2⟩
    · exact absurd same (writeCategory_ne_readCategory other way)
  call := by
    intro rule inside may copy next sane due ran
    obtain ⟨way, rfl | rfl⟩ := mem_eventLoop inside
    · have prompt : copy.answers.read way ≠ .again := by
        rw [sane.answers]
        exact may.prompt way rfl
      obtain ⟨goesOn, room⟩ := due way rfl
      refine ⟨readInto_flowing sane.flowing prompt (may.called _ rfl) goesOn room ran, ?_⟩
      obtain ⟨fd, line, rfl, -⟩ := readInto_ok prompt room ran
      exact sane.answers
    · exact ⟨writeFrom_flowing sane.flowing (may.called _ rfl) ran,
        (writeFrom_answers ran).trans sane.answers⟩

/-- Streams stay closed. -/
theorem eventLoop_closing (gone : Nat → Prop) (answers : CopyAnswers) (way : Way) :
    EventLoop.Safe status eventLoop (May gone answers)
      (fun copy => Sane gone answers copy ∧ (copy.line way).stream.isClosed = true) Due where
  basic := fun _ inside => absurd inside List.not_mem_nil
  cancel := by
    intro rule inside may copy next sane ran
    refine ⟨(eventLoop_safe gone answers).cancel rule inside may copy next sane.1 ran, ?_⟩
    obtain ⟨other, -, cancels⟩ := cancel_eq inside
    rw [cancels] at ran
    cases ran
    by_cases same : way = other
    · rw [same, closeStream, setLine_self]
      rfl
    · rw [closeStream, setLine_of_ne _ _ _ same]
      exact sane.2
  other := fun rule inside cancelled there different copy next sane =>
    (eventLoop_safe gone answers).other rule inside cancelled there different copy next sane.1
  due := fun rule inside copy sane => (eventLoop_safe gone answers).due rule inside copy sane.1
  call := by
    intro rule inside may copy next sane due ran
    refine ⟨(eventLoop_safe gone answers).call rule inside may copy next sane.1 due ran, ?_⟩
    obtain ⟨other, rfl | rfl⟩ := mem_eventLoop inside
    · exact readInto_isClosed ran sane.2
    · exact writeFrom_isClosed ran sane.2

/-! ### What only grows -/

/-- Since the start of a turn nothing was taken back, nothing was read from a descriptor at its end or
without the rule that reads, and only a direction that is shut down has closed its descriptor. -/
structure Grows (gone : Nat → Prop) (start copy : StreamCopy) : Prop where
  read : ∀ way, (start.line way).read <+: (copy.line way).read
  written : ∀ way, (start.line way).written <+: (copy.line way).written
  still : ∀ way, (start.fd (source way)).eof = true ∨ gone (readCategory way) →
    (copy.line way).read = (start.line way).read
  eof : ∀ way, (start.fd (source way)).eof = true → (copy.fd (source way)).eof = true
  shutdown : ∀ way, (start.line way).shutdown = true → (copy.line way).shutdown = true
  passedOn : ∀ way, (copy.fd (sink way)).closed = true → (copy.line way).shutdown = true

theorem sink_injective : Function.Injective sink := by
  intro way other same
  cases way <;> cases other <;> first | rfl | cases same

section Grows

variable {start : StreamCopy}

/-- A line and a descriptor are replaced. -/
theorem Grows.update (grows : Grows gone start copy) {line : Line} {place : Fd} {fd : FDWrapper}
    (read : (copy.line way).read <+: line.read) (written : (copy.line way).written <+: line.written)
    (still : (start.fd (source way)).eof = true ∨ gone (readCategory way) →
      line.read = (copy.line way).read)
    (shutdown : (copy.line way).shutdown = true → line.shutdown = true)
    (eof : ∀ other, (copy.fd (source other)).eof = true →
      ((copy.setFd place fd).fd (source other)).eof = true)
    (closed : ∀ other, ((copy.setFd place fd).fd (sink other)).closed = true →
      (copy.fd (sink other)).closed = true ∨ other = way ∧ line.shutdown = true) :
    Grows gone start ((copy.setFd place fd).setLine way line) := by
  refine ⟨fun other => ?_, fun other => ?_, fun other ended => ?_,
    fun other ended => eof other (grows.eof other ended), fun other shut => ?_, fun other shut => ?_⟩
  all_goals
    by_cases same : other = way
  · rw [same, setLine_self]
    exact (grows.read way).trans read
  · rw [setLine_of_ne _ _ _ same]
    exact grows.read other
  · rw [same, setLine_self]
    exact (grows.written way).trans written
  · rw [setLine_of_ne _ _ _ same]
    exact grows.written other
  · rw [same] at ended
    rw [same, setLine_self, still ended]
    exact grows.still way ended
  · rw [setLine_of_ne _ _ _ same]
    exact grows.still other ended
  · rw [same] at shut
    rw [same, setLine_self]
    exact shutdown (grows.shutdown way shut)
  · rw [setLine_of_ne _ _ _ same]
    exact grows.shutdown other shut
  · rw [same, setLine_self]
    rcases closed other shut with before | ⟨-, now⟩
    · rw [same] at before
      exact shutdown (grows.passedOn way before)
    · exact now
  · rw [setLine_of_ne _ _ _ same]
    rcases closed other shut with before | ⟨own, -⟩
    · exact grows.passedOn other before
    · exact absurd own same

theorem Grows.closeStream (grows : Grows gone start copy) :
    Grows gone start (copy.closeStream way) := by
  have same : copy.setFd .input (copy.fd .input) = copy := by
    rw [setFd, Function.update_eq_self]
  have closed := @Grows.update gone copy way start grows
    { copy.line way with stream := (copy.line way).stream.close } .input (copy.fd .input)
    (List.prefix_refl _) (List.prefix_refl _) (fun _ => rfl) id
  rw [same] at closed
  exact closed (fun _ => id) fun _ => Or.inl

theorem readInto_grows (grows : Grows gone start copy) (prompt : copy.answers.read way ≠ .again)
    (stays : ¬ gone (readCategory way)) (goesOn : (copy.fd (source way)).eof = false)
    (room : 0 < (copy.line way).stream.availableCapacity) (ran : readInto way copy = .ok next) :
    Grows gone start next := by
  obtain ⟨fd, line, rfl, shutdown, written, -, -, closed, ⟨data, read, -⟩, -, -⟩ :=
    readInto_ok prompt room ran
  refine grows.update ?_ ?_ ?_ ?_ ?_ ?_
  · rw [read]
    exact List.prefix_append _ _
  · rw [written]
  · rintro (eof | absent)
    · rw [grows.eof way eof] at goesOn
      cases goesOn
    · exact absurd absent stays
  · rw [shutdown]
    exact id
  · intro other eof
    by_cases same : other = way
    · rw [same, goesOn] at eof
      cases eof
    · rw [(Prod.mk.inj (ends_setFd_source same fd)).1]
      exact eof
  · intro other shut
    by_cases here : sink other = source way
    · rw [here, setFd_self, closed] at shut
      rw [here]
      exact Or.inl shut
    · rw [setFd_of_ne _ _ _ here] at shut
      exact Or.inl shut

theorem drain_grows (grows : Grows gone start copy) (ran : drain way copy = .ok next) :
    Grows gone start next := by
  rw [drain] at ran
  dsimp only at ran
  split at ran
  · cases ran
    exact grows
  · obtain ⟨⟨fd, bytesWritten⟩, written, ⟨⟩⟩ := Fault.bind_eq_ok.mp ran
    obtain ⟨rfl, -, -⟩ := FDWrapper.write_ok written
    refine grows.update (List.prefix_refl _) (List.prefix_append _ _) (fun _ => rfl) id ?_ ?_
    · intro other eof
      have same := @ends_setFd_sink copy way other (copy.fd (sink way)).registerWrite fun _ => rfl
      exact (Prod.mk.inj same).1.trans eof
    · intro other shut
      dsimp only at shut
      by_cases here : sink other = sink way
      · rw [here, setFd_self] at shut
        rw [here]
        exact Or.inl shut
      · rw [setFd_of_ne _ _ _ here] at shut
        exact Or.inl shut

theorem writeFrom_grows (grows : Grows gone start copy) (ran : writeFrom way copy = .ok next) :
    Grows gone start next := by
  obtain ⟨after, drained, ran⟩ := Fault.bind_eq_ok.mp ran
  have between := drain_grows grows drained
  split at ran
  · obtain ⟨fd, rfl, same⟩ := finish_ok ran
    have updated := @Grows.update gone after way start between
      { after.line way with shutdown := true } (sink way) fd (List.prefix_refl _)
      (List.prefix_refl _) (fun _ => rfl) fun _ => rfl
    refine updated ?_ ?_
    · intro other eof
      rw [(Prod.mk.inj (ends_setFd_sink fd same)).1]
      exact eof
    · intro other shut
      by_cases here : sink other = sink way
      · exact Or.inr ⟨sink_injective here, rfl⟩
      · rw [setFd_of_ne _ _ _ here] at shut
        exact Or.inl shut
  · cases ran
    exact between

theorem eventLoop_growing (gone : Nat → Prop) (answers : CopyAnswers) (start : StreamCopy) :
    EventLoop.Safe status eventLoop (May gone answers)
      (fun copy => Sane gone answers copy ∧ Grows gone start copy) Due where
  basic := fun _ inside => absurd inside List.not_mem_nil
  cancel := by
    intro rule inside may copy next sane ran
    refine ⟨(eventLoop_safe gone answers).cancel rule inside may copy next sane.1 ran, ?_⟩
    obtain ⟨other, -, cancels⟩ := cancel_eq inside
    cases (cancels copy).symm.trans ran
    exact sane.2.closeStream
  other := fun rule inside cancelled there different copy next sane =>
    (eventLoop_safe gone answers).other rule inside cancelled there different copy next sane.1
  due := fun rule inside copy sane => (eventLoop_safe gone answers).due rule inside copy sane.1
  call := by
    intro rule inside may copy next sane due ran
    refine ⟨(eventLoop_safe gone answers).call rule inside may copy next sane.1 due ran, ?_⟩
    obtain ⟨way, rfl | rfl⟩ := mem_eventLoop inside
    · have prompt : copy.answers.read way ≠ .again := by
        rw [sane.1.answers]
        exact may.prompt way rfl
      obtain ⟨goesOn, room⟩ := due way rfl
      exact readInto_grows sane.2 prompt (may.called _ rfl) goesOn room ran
    · exact writeFrom_grows sane.2 ran

end Grows

/-- Some streams were closed, and nothing else. -/
structure Closes (copy next : StreamCopy) : Prop where
  fd : next.fd = copy.fd
  line : ∀ way, next.line way = copy.line way ∨
    next.line way = { copy.line way with stream := (copy.line way).stream.close }

theorem closes_of_cancelEach {dropped : List (FDRule Fd StreamCopy)}
    (among : dropped ⊆ eventLoop.fdRules) (ran : EventLoop.cancelEach dropped copy = .ok next) :
    Closes copy next := by
  induction dropped generalizing copy with
  | nil =>
      cases ran
      exact ⟨rfl, fun _ => Or.inl rfl⟩
  | cons rule rest ih =>
      obtain ⟨here, others⟩ := List.cons_subset.mp among
      obtain ⟨middle, cancelled, ran⟩ := Fault.bind_eq_ok.mp ran
      obtain ⟨closed, -, cancels⟩ := cancel_eq here
      cases (cancels copy).symm.trans cancelled
      obtain ⟨fd, line⟩ := ih others ran
      refine ⟨fd, fun way => ?_⟩
      by_cases same : way = closed
      · subst same
        have later := line way
        rw [closeStream, setLine_self] at later
        exact Or.inr (later.elim id id)
      · have later := line way
        rwa [closeStream, setLine_of_ne _ _ _ same] at later

namespace Closes

theorem buffer (closes : Closes copy next) (way : Way) :
    (next.line way).stream.buffer = (copy.line way).stream.buffer := by
  rcases closes.line way with same | same <;> rw [same]
  rfl

theorem capacity (closes : Closes copy next) (way : Way) :
    (next.line way).stream.capacity = (copy.line way).stream.capacity := by
  rcases closes.line way with same | same <;> rw [same]
  rfl

theorem hasError (closes : Closes copy next) (way : Way) :
    (next.line way).stream.hasError = (copy.line way).stream.hasError := by
  rcases closes.line way with same | same <;> rw [same]
  rfl

theorem shutdown (closes : Closes copy next) (way : Way) :
    (next.line way).shutdown = (copy.line way).shutdown := by
  rcases closes.line way with same | same <;> rw [same]

theorem isClosed (closes : Closes copy next) {way : Way}
    (closed : (copy.line way).stream.isClosed = true) : (next.line way).stream.isClosed = true := by
  rcases closes.line way with same | same <;> rw [same]
  · exact closed
  · rfl

end Closes

theorem eventLoop_known : ∀ rule ∈ eventLoop.fdRules,
    rule.categoryId < eventLoop.ruleCategories.length ∧ rule.cancelRequested = false := by
  intro rule inside
  obtain ⟨way, rfl | rfl⟩ := mem_eventLoop inside
  · cases way <;> decide
  · cases way <;> decide

/-- A rule that reads is bored only when the stream is full. -/
theorem not_bored (flowing : ∀ way, Flowing gone copy way) (closes : Closes copy next)
    (empty : (copy.line way).stream.buffer = []) : (readRule way).interest next = true := by
  have capacity := (closes.capacity way).trans (flowing way).room
  have room : 0 < (next.line way).stream.availableCapacity := by
    rw [ByteStream.availableCapacity, closes.buffer, empty, capacity]
    decide
  simp [readRule, closes.hasError, (flowing way).fine, (flowing way.other).fine, room]

/-- A loop that ends has passed on the end of a stream, if the rule that writes is still there. -/
theorem shutdown_of_idle {dropped : List (FDRule Fd StreamCopy)} (among : dropped ⊆ eventLoop.fdRules)
    (flowing : ∀ way, Flowing gone copy way)
    (writes : EventLoop.Asked status (writeRule way) dropped copy false)
    (reads : EventLoop.Asked status (readRule way) dropped copy false ∨
      (copy.line way).stream.isClosed = true)
    (ran : EventLoop.cancelEach dropped copy = .ok next) : (next.line way).shutdown = true := by
  have whole := closes_of_cancelEach among ran
  obtain ⟨before, after, between, rfl, first, -, bored⟩ := writes
  have closes := closes_of_cancelEach (List.append_subset.mp among).1 first
  rw [writeRule, Bool.or_eq_false_iff, decide_eq_false_iff_not, not_not, ByteStream.bytesBuffered,
    List.length_eq_zero_iff, closes.buffer, closes.shutdown] at bored
  obtain ⟨empty, silent⟩ := bored
  have closed : (copy.line way).stream.isClosed = true := by
    rcases reads with ⟨earlier, later, middle, same, second, -, full⟩ | closed
    · rw [← same] at among
      have closes := closes_of_cancelEach (List.append_subset.mp among).1 second
      rw [not_bored flowing closes empty] at full
      cases full
    · exact closed
  have finished : (between.line way).stream.isFinished = true := by
    rw [ByteStream.isFinished, closes.buffer, empty, Bool.and_eq_true]
    exact ⟨closes.isClosed closed, rfl⟩
  rw [finished, Bool.true_and, Bool.not_eq_false'] at silent
  rw [whole.shutdown]
  exact silent

/-! ## Whole runs -/

/-- The loop with its variables, the callbacks that were made, and whether the function has
returned. -/
structure Run where
  loop : EventLoop Fd StreamCopy
  copy : StreamCopy
  notes : List Note
  returned : Bool

namespace Run

/-- A turn of the loop, in which what polls readable has something to read. -/
inductive Step (run : Run) : Run → Prop
  | turn {answers : CopyAnswers} {poll : PollAnswer} {loop : EventLoop Fd StreamCopy}
      {copy : StreamCopy} {notes : List Note} {returned : Bool} (running : run.returned = false)
      (prompt : ∀ way, .called (readCategory way) ∈ notes → answers.read way ≠ .again)
      (ran : turn run.loop run.copy answers poll = .ok (loop, copy, notes, returned)) :
      Step run ⟨loop, copy, run.notes ++ notes, returned⟩

/-- The function is called with a socket that is open and not at its end. -/
def Initial (run : Run) : Prop :=
  ∃ socket answers, socket.eof = false ∧ socket.closed = false ∧
    run = ⟨eventLoop, .new socket answers, [], false⟩

def system : TransitionSystem Run where
  Initial := Initial
  Step := Step

/-- The rule of this category was cancelled. -/
def Gone (run : Run) (category : Nat) : Prop := .cancelled category ∈ run.notes

/-- Nothing more is read in this direction. -/
def Over (run : Run) (way : Way) : Prop :=
  (run.copy.fd (source way)).eof = true ∨ run.Gone (readCategory way)

structure Sound (run : Run) : Prop where
  flowing : ∀ way, Flowing run.Gone run.copy way
  marked : ∀ way, run.Gone (readCategory way) ∨ run.Gone (writeCategory way) →
    (run.copy.line way).stream.isClosed = true
  settled : EventLoop.Watched.Settled ⟨run.loop, run.copy, run.notes⟩
  fdRules : run.loop.fdRules.Sublist eventLoop.fdRules
  nonFdRules : run.loop.nonFdRules = []
  cover : ∀ rule ∈ eventLoop.fdRules, rule ∈ run.loop.fdRules ∨ run.Gone rule.categoryId
  passedOn : ∀ way, (run.copy.fd (sink way)).closed = true → (run.copy.line way).shutdown = true
  complete : run.returned = true → ∀ way,
    (run.copy.line way).shutdown = true ∨ run.Gone (writeCategory way)

variable {run next : Run}

theorem sound_initial (initial : Initial run) : run.Sound := by
  obtain ⟨socket, answers, goesOn, alive, rfl⟩ := initial
  refine ⟨?_, ?_, ?_, List.Sublist.refl _, rfl, fun _ inside => Or.inl inside, ?_, ?_⟩
  · intro way
    have fds : ((new socket answers).fd (source way)).eof = false ∧
        ((new socket answers).fd (source way)).closed = false := by
      cases way with
      | outbound => exact ⟨rfl, rfl⟩
      | inbound => exact ⟨goesOn, alive⟩
    refine ⟨rfl, rfl, rfl, fds.2, ?_, ?_, ?_⟩
    · intro eof
      rw [fds.1] at eof
      cases eof
    · exact fun closed => absurd closed Bool.false_ne_true
    · exact fun shut => absurd shut Bool.false_ne_true
  · rintro way (absent | absent)
    · exact absurd absent List.not_mem_nil
    · exact absurd absent List.not_mem_nil
  · refine ⟨eventLoop_distinct, ?_, fun _ inside => absurd inside List.not_mem_nil,
      fun _ inside => absurd inside List.not_mem_nil, List.Pairwise.nil⟩
    exact fun rule inside => (eventLoop_known rule inside).1
  · rintro (_ | _) shut
    · exact absurd (alive.symm.trans shut) Bool.false_ne_true
    · exact absurd shut Bool.false_ne_true
  · exact fun returned => absurd returned Bool.false_ne_true

/-- A stream whose reading rule was cancelled in a turn that only set up was closed before. -/
theorem closed_of_ended {dropped : List (FDRule Fd StreamCopy)} (among : dropped ⊆ eventLoop.fdRules)
    (flowing : Flowing gone copy way)
    (ended : ∀ rule ∈ dropped, EventLoop.Ended status dropped copy rule)
    (noted : .cancelled (readCategory way) ∈ EventLoop.cancelNotes dropped) :
    (copy.line way).stream.isClosed = true := by
  obtain ⟨rule, inside, same⟩ := List.mem_map.mp noted
  have mine : rule = readRule way := by
    have category := Note.cancelled.inj same
    obtain ⟨other, rfl | rfl⟩ := mem_eventLoop (among inside)
    · rw [readCategory_injective category]
    · exact absurd category (writeCategory_ne_readCategory other way)
  obtain ⟨before, after, between, rfl, first, lapsed⟩ := ended rule inside
  have closes := closes_of_cancelEach (List.append_subset.mp among).1 first
  rw [mine, EventLoop.defunct, status, readRule, closes.fd, flowing.alive] at lapsed
  simp only [decide_true, Bool.true_and, Bool.or_false] at lapsed
  exact flowing.ended lapsed

/-! ### One turn -/

section Turn

variable {answers : CopyAnswers} {poll : PollAnswer} {loop : EventLoop Fd StreamCopy}
  {copy : StreamCopy} {ret : EventLoop.Result} {notes : List Note}

/-- The rules that are gone after the turn. -/
def GoneLater (run : Run) (notes : List Note) (category : Nat) : Prop :=
  .cancelled category ∈ run.notes ++ notes

theorem Sound.start (sound : run.Sound) (notes : List Note) (answers : CopyAnswers) :
    Sane (run.GoneLater notes) answers { run.copy with answers } where
  flowing := by
    intro way
    have flowing := @Flowing.of_same _ _ { run.copy with answers } way (sound.flowing way) rfl rfl
    exact flowing.mono fun _ => List.mem_append_left _
  answers := rfl

theorem Sound.settle (sound : run.Sound)
    (waits : run.loop.waitNextEvent status poll { run.copy with answers } = .ok (loop, copy, ret, notes)) :
    EventLoop.Watched.Settled ⟨loop, copy, run.notes ++ notes⟩ := by
  obtain ⟨distinct, known, noted, gone, notAgain⟩ := sound.settled
  exact @EventLoop.Watched.Settled.wait _ _ _ ⟨run.loop, { run.copy with answers }, run.notes⟩
    ⟨distinct, known, noted, gone, notAgain⟩ _ _ _ _ _ waits

/-- Every note of a turn is as it may be. -/
theorem Sound.may (sound : run.Sound)
    (prompt : ∀ way, .called (readCategory way) ∈ notes → answers.read way ≠ .again)
    (waits : run.loop.waitNextEvent status poll { run.copy with answers } = .ok (loop, copy, ret, notes)) :
    ∀ note ∈ notes, May (run.GoneLater notes) answers note := by
  refine fun note inside => ⟨?_, ?_, ?_⟩
  · rintro category rfl
    exact List.mem_append_right _ inside
  · rintro category rfl absent
    obtain ⟨rule, here, same⟩ := (EventLoop.waitNextEvent_ok waits).still inside
    exact (sound.settle waits).gone category absent rule here same
  · rintro way rfl
    exact prompt way inside

theorem Sound.safe (sound : run.Sound) (notes : List Note) (answers : CopyAnswers) :
    run.loop.Safe status (May (run.GoneLater notes) answers) (Sane (run.GoneLater notes) answers) Due := by
  refine (eventLoop_safe _ _).mono sound.fdRules.subset ?_
  rw [sound.nonFdRules]
  exact List.nil_subset _

theorem Sound.closing (sound : run.Sound) (notes : List Note) (answers : CopyAnswers) (way : Way) :
    run.loop.Safe status (May (run.GoneLater notes) answers)
      (fun copy => Sane (run.GoneLater notes) answers copy ∧
        (copy.line way).stream.isClosed = true) Due := by
  refine (eventLoop_closing _ _ way).mono sound.fdRules.subset ?_
  rw [sound.nonFdRules]
  exact List.nil_subset _

/-- What only grows in a turn. -/
theorem Sound.grows (sound : run.Sound)
    (may : ∀ note ∈ notes, May (run.GoneLater notes) answers note)
    (waited : EventLoop.Waited status run.loop poll { run.copy with answers } (loop, copy, ret, notes)) :
    Grows (run.GoneLater notes) run.copy copy := by
  have growing := (eventLoop_growing (run.GoneLater notes) answers run.copy).mono
    sound.fdRules.subset (by
      rw [sound.nonFdRules]
      exact List.nil_subset _)
  have start : Grows (run.GoneLater notes) run.copy { run.copy with answers } :=
    ⟨fun _ => List.prefix_refl _, fun _ => List.prefix_refl _, fun _ _ => rfl, fun _ => id,
      fun _ => id, sound.passedOn⟩
  exact (growing.waited (eventLoop_distinct.sublist sound.fdRules)
    ⟨sound.start notes answers, start⟩ may waited).2

/-- In a turn that starts like this, `poll` has reported that nothing more goes for the rule. -/
def Struck (run : Run) (answers : CopyAnswers) (poll : PollAnswer) (rule : FDRule Fd StreamCopy) :
    Prop :=
  EventLoop.Struck status run.loop.fdRules poll { run.copy with answers } rule

/-- Otherwise a rule is cancelled only when its direction has come to its end. -/
theorem Sound.ended_of_cancelled (sound : run.Sound)
    (waited : EventLoop.Waited status run.loop poll { run.copy with answers } (loop, copy, ret, notes))
    {category : Nat} (noted : .cancelled category ∈ notes) (way : Way) :
    (category = readCategory way → (run.copy.fd (source way)).eof = true ∨
        run.Struck answers poll (readRule way)) ∧
      (category = writeCategory way → (run.copy.line way).shutdown = true ∨
        run.Struck answers poll (writeRule way)) := by
  obtain ⟨rule, inside, rfl, cause⟩ := waited.caused category noted
  obtain ⟨other, rfl | rfl⟩ := mem_eventLoop (sound.fdRules.subset inside)
  · refine ⟨fun same => ?_, fun same => absurd same.symm (writeCategory_ne_readCategory way other)⟩
    cases readCategory_injective same
    refine cause.imp_left ?_
    rintro ⟨left, pollfds, dropped, final, setsUp, -, before, after, between, rfl, first, lapsed⟩
    have among := (List.sublist_append_left before _).trans
      (setsUp.sorted.dropped_sublist.trans sound.fdRules)
    have closes := closes_of_cancelEach among.subset first
    rw [EventLoop.defunct, status, closes.fd] at lapsed
    have alive := (sound.flowing way).alive
    simpa [readRule, alive] using lapsed
  · refine ⟨fun same => absurd same (writeCategory_ne_readCategory other way), fun same => ?_⟩
    cases writeCategory_injective same
    refine cause.imp_left ?_
    rintro ⟨left, pollfds, dropped, final, setsUp, -, before, after, between, rfl, first, lapsed⟩
    have among := (List.sublist_append_left before _).trans
      (setsUp.sorted.dropped_sublist.trans sound.fdRules)
    have closes := closes_of_cancelEach among.subset first
    rw [EventLoop.defunct, status, closes.fd] at lapsed
    apply sound.passedOn way
    simpa [writeRule] using lapsed

/-- What a turn makes of the directions, and what it takes to cancel a rule. -/
theorem Sound.turn_ok (sound : run.Sound) {returned : Bool}
    (prompt : ∀ way, .called (readCategory way) ∈ notes → answers.read way ≠ .again)
    (ran : turn run.loop run.copy answers poll = .ok (loop, copy, notes, returned)) :
    Grows (run.GoneLater notes) run.copy copy ∧ ∀ way,
      (.cancelled (readCategory way) ∈ notes → (run.copy.fd (source way)).eof = true ∨
        run.Struck answers poll (readRule way)) ∧
      (.cancelled (writeCategory way) ∈ notes → (run.copy.line way).shutdown = true ∨
        run.Struck answers poll (writeRule way)) := by
  obtain ⟨⟨_, _, ret, _⟩, waits, ⟨⟩⟩ := Fault.bind_eq_ok.mp ran
  have waited := EventLoop.waitNextEvent_ok waits
  refine ⟨sound.grows (sound.may prompt waits) waited, fun way => ⟨?_, ?_⟩⟩
  · intro noted
    exact (sound.ended_of_cancelled waited noted way).1 rfl
  · intro noted
    exact (sound.ended_of_cancelled waited noted way).2 rfl

/-- No rule gets lost in a turn. -/
theorem Sound.covered (sound : run.Sound)
    (waited : EventLoop.Waited status run.loop poll { run.copy with answers } (loop, copy, ret, notes)) :
    ∀ rule ∈ eventLoop.fdRules, rule ∈ loop.fdRules ∨ run.GoneLater notes rule.categoryId := by
  intro rule inside
  rcases sound.cover rule inside with here | absent
  · rcases waited.cover rule here with kept | lost | forgotten
    · exact Or.inl kept
    · exact Or.inr (List.mem_append_right _ lost)
    · rw [(eventLoop_known rule inside).2] at forgotten
      cases forgotten
  · exact Or.inr (List.mem_append_left _ absent)

/-- The stream of a direction is closed once one of its rules is gone. -/
theorem Sound.mark (sound : run.Sound)
    (may : ∀ note ∈ notes, May (run.GoneLater notes) answers note)
    (waited : EventLoop.Waited status run.loop poll { run.copy with answers } (loop, copy, ret, notes))
    {way : Way} {category : Nat} (own : category = readCategory way ∨ category = writeCategory way)
    (absent : run.GoneLater notes category) : (copy.line way).stream.isClosed = true := by
  have distinct := eventLoop_distinct.sublist sound.fdRules
  have before := sound.start notes answers
  rcases List.mem_append.mp absent with early | late
  · have closed : (run.copy.line way).stream.isClosed = true := by
      rcases own with rfl | rfl
      · exact sound.marked way (Or.inl early)
      · exact sound.marked way (Or.inr early)
    exact ((sound.closing notes answers way).waited distinct ⟨before, closed⟩ may waited).2
  · refine (sound.safe notes answers).waited_marked (sound.closing notes answers way) ?_ distinct
      before may late waited
    rintro rule here rfl state final _ cancelled
    obtain ⟨other, named, cancels⟩ := cancel_eq (sound.fdRules.subset here)
    cases (cancels state).symm.trans cancelled
    rw [way_of_category own named, closeStream, setLine_self]
    rfl

/-- When the loop ends, the end of a stream was passed on, or the rule that writes is gone. -/
theorem Sound.ends (sound : run.Sound)
    (waited : EventLoop.Waited status run.loop poll { run.copy with answers } (loop, copy, .Exit, notes))
    (way : Way) : (copy.line way).shutdown = true ∨ run.GoneLater notes (writeCategory way) := by
  rcases sound.covered waited (writeRule way) (writeRule_mem way) with here | absent
  · left
    have flowing := (sound.start notes answers).flowing
    have others := sound.covered waited (readRule way) (readRule_mem way)
    cases waited with
    | @idle fdRules dropped pollfds nonFdRules final remaining setsUp nobody =>
        have among : dropped ⊆ eventLoop.fdRules :=
          List.Subset.trans setsUp.sorted.dropped_sublist.subset sound.fdRules.subset
        refine shutdown_of_idle among flowing (nobody _ here) ?_ setsUp.cancelled
        rcases others with there | absent
        · exact Or.inl (nobody _ there)
        rcases List.mem_append.mp absent with early | late
        · exact Or.inr (sound.marked way (Or.inl early))
        · exact Or.inr (closed_of_ended among (flowing way) setsUp.ended late)
    | polled remaining setsUp somebody resorted others broken goesOn =>
        exact absurd rfl goesOn
  · exact Or.inr absent

end Turn

theorem sound_keeps : system.Keeps (fun _ => True) Sound where
  monotone := fun _ _ _ _ => True.intro
  initial := fun _ => sound_initial
  preserved := by
    intro run next sound step _
    cases step with
    | @turn answers poll loop copy notes returned running prompt ran =>
        obtain ⟨⟨_, _, ret, _⟩, waits, ⟨⟩⟩ := Fault.bind_eq_ok.mp ran
        have waited := EventLoop.waitNextEvent_ok waits
        have may := sound.may prompt waits
        have after := (sound.safe notes answers).waited (eventLoop_distinct.sublist sound.fdRules)
          (sound.start notes answers) may waited
        obtain ⟨fewer, basics, -⟩ := waited.fewer
        rw [sound.nonFdRules] at basics
        refine ⟨after.flowing, ?_, sound.settle waits, fewer.trans sound.fdRules,
          List.sublist_nil.mp basics, sound.covered waited, (sound.grows may waited).passedOn, ?_⟩
        · rintro way (read | write)
          · exact sound.mark may waited (Or.inl rfl) read
          · exact sound.mark may waited (Or.inr rfl) write
        · intro ended
          cases of_decide_eq_true ended
          exact sound.ends waited

/-- The kernel has this to read, and takes a byte. -/
def oneByte (read : ReadAnswer) : CopyAnswers where
  read := fun _ => read
  write := fun _ => .count 1
  finishFails := fun _ => false

/-- Nothing but the descriptor in this place is ready. -/
def onlyReady (place : Nat) : PollAnswer where
  revents := fun other => if other = place then { readable := true, writable := true } else {}

def opened : StreamCopy := .new (.new false) (oneByte .again)

/-- A byte was read in this direction. -/
def found (way : Way) : StreamCopy :=
  ({ opened with answers := oneByte (.bytes [97]) }.setFd (source way)
    (.registerRead (.new true))).setLine way
      ⟨(ByteStream.new bufferSize).push [97], false, [97], []⟩

/-- The end was read after it. -/
def ended (way : Way) : StreamCopy :=
  ({ found way with answers := oneByte (.bytes []) }.setFd (source way)
    { FDWrapper.registerRead (.registerRead (.new true)) with eof := true }).setLine way
      ⟨((ByteStream.new bufferSize).push [97]).close, false, [97], []⟩

/-- A buffer of that size is not built. -/
theorem read_of_room {fd : FDWrapper} {room : Nat} {data : List UInt8} (some : 0 < room)
    (fits : data.length ≤ room) :
    fd.read (List.replicate room 0) (.bytes data) =
      .ok ({ fd.registerRead with eof := fd.eof || data.isEmpty }, data) := by
  have full : List.replicate room (0 : UInt8) ≠ [] := by
    rw [Ne, List.replicate_eq_nil_iff]
    exact Nat.ne_of_gt some
  rw [FDWrapper.read, FDWrapper.readBuffer_of_ne_nil full, List.length_replicate,
    if_neg (Nat.not_lt.mpr fits)]

/-- In a turn in which one direction has something to read, that is all that is done. -/
theorem turn_reads {way : Way} {start copy : StreamCopy} {answers : CopyAnswers}
    {first last : Option Direction} (idle : way = .inbound → first = none)
    (settled : EventLoop.setUp status eventLoop.fdRules { start with answers } =
      .ok (eventLoop.fdRules, [⟨.input, some .In⟩, ⟨.socket, first⟩, ⟨.socket, some .In⟩,
        ⟨.output, last⟩], { start with answers }, []))
    (moved : EventLoop.callRule status eventLoop.ruleCategories (readRule way)
      { start with answers } = .ok copy) :
    turn eventLoop start answers (onlyReady (readCategory way)) =
      .ok (eventLoop, copy, [.called (readCategory way)], false) := by
  have polled : EventLoop.pollResults status eventLoop.ruleCategories (onlyReady (readCategory way))
      [⟨.input, some .In⟩, ⟨.socket, first⟩, ⟨.socket, some .In⟩, ⟨.output, last⟩] 0
      eventLoop.fdRules { start with answers } =
        .ok (eventLoop.fdRules, copy, [.called (readCategory way)]) := by
    cases way with
    | outbound => exact Fault.bind_eq_ok.mpr ⟨copy, moved, rfl⟩
    | inbound =>
        cases idle rfl
        exact Fault.bind_eq_ok.mpr ⟨_, Fault.bind_eq_ok.mpr ⟨_,
          Fault.bind_eq_ok.mpr ⟨copy, moved, rfl⟩, rfl⟩, rfl⟩
  have waits : eventLoop.waitNextEvent status (onlyReady (readCategory way)) { start with answers } =
      .ok (eventLoop, copy, .Success, [.called (readCategory way)]) := by
    refine Fault.bind_eq_ok.mpr ⟨([], { start with answers }, false), rfl,
      Fault.bind_eq_ok.mpr ⟨_, settled, ?_⟩⟩
    cases way with
    | _ => exact Fault.bind_eq_ok.mpr ⟨_, polled, rfl⟩
  exact Fault.bind_eq_ok.mpr ⟨_, waits, rfl⟩

theorem turn_found (way : Way) :
    turn eventLoop opened (oneByte (.bytes [97])) (onlyReady (readCategory way)) =
      .ok (eventLoop, found way, [.called (readCategory way)], false) := by
  refine turn_reads (fun _ => rfl) rfl ?_
  cases way with
  | _ =>
      exact EventLoop.callRule_of_moved (Fault.bind_eq_ok.mpr ⟨_,
        read_of_room (by decide) (by decide), rfl⟩) (Or.inl (by decide))

theorem turn_ended (way : Way) :
    turn eventLoop (found way) (oneByte (.bytes [])) (onlyReady (readCategory way)) =
      .ok (eventLoop, ended way, [.called (readCategory way)], false) := by
  cases way with
  | outbound =>
      refine turn_reads (fun other => Way.noConfusion other) rfl ?_
      exact EventLoop.callRule_of_moved (Fault.bind_eq_ok.mpr ⟨_,
        read_of_room (by decide) (by decide), rfl⟩) (Or.inl (by decide))
  | inbound =>
      refine turn_reads (fun _ => rfl) rfl ?_
      exact EventLoop.callRule_of_moved (Fault.bind_eq_ok.mpr ⟨_,
        read_of_room (by decide) (by decide), rfl⟩) (Or.inl (by decide))

/-- What is left when the byte was written and the end passed on. -/
def passed (way : Way) : EventLoop Fd StreamCopy × StreamCopy :=
  match turn eventLoop (ended way) (oneByte .again) (onlyReady (readCategory way)) with
  | .ok (loop, copy, _) => (loop, copy)
  | .error _ => (eventLoop, ended way)

theorem turn_passed (way : Way) :
    turn eventLoop (ended way) (oneByte .again) (onlyReady (readCategory way)) =
      .ok ((passed way).1, (passed way).2,
        [.cancelled (readCategory way), .called (writeCategory way)], false) ∧
    ((passed way).2.line way).shutdown = true ∧ ((passed way).2.line way).written = [97] := by
  cases way with
  | _ => exact ⟨rfl, rfl, rfl⟩

theorem prompt_passed (way other : Way) : Note.called (readCategory other) ∉
    [.cancelled (readCategory way), .called (writeCategory way)] := by
  cases way <;> cases other <;> decide

end Run

end Minnow.Socket.StreamCopy
