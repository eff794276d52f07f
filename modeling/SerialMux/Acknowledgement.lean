import SerialMux.NotificationFilter
import SerialMux.Transparency

/-!
# Acknowledgements on the serial line

The read loop gives every byte to the HDLC parser, which calls `frameComplete` for
every packet.  Of all frames exactly the reliable notifications make it write, one
acknowledgement each and before anything else, so that Picard's parser gets one
acknowledgement for every reception.
-/

namespace SerialMux

/-- The acknowledgement that a frame asks for. -/
def acknowledgement (frame : ByteVector) : Option ByteVector :=
  match reception frame with
  | .reliable seqNo => some [3, Command.notification, seqNo, 1, 0]
  | .unreliable _ | .hello | .other => none

/-- The bytes that some events write to the serial port. -/
def writtenBytes (events : List PicardEvent) : ByteVector :=
  events.flatMap fun event =>
    match event with
    | .sendRaw data => PicardSerial.sendRaw data
    | .handleNotif _ _ | .commandComplete _ | .notifyConnect | .resetConnection => []

/-! ## One frame -/

namespace BasePicard

/-- An unreliable notification is passed on and not acknowledged. -/
theorem notification_unreliable
    (io : BasePicard)
    {control : Byte}
    (unreliable : control &&& 2 = 0)
    (type seqNo : Byte)
    (payload data : ByteVector) :
    .sendRaw data ∉ (io.notification control type seqNo payload).2 := by
  unfold notification
  split
  · have isUnreliable : (control &&& 2 != 0) = false :=
      bne_eq_false_iff_eq.mpr unreliable
    simp only [isUnreliable, Bool.false_eq_true, if_false, List.nil_append]
    split_ifs <;> simp
  · simp

/-- A frame that is not a reliable notification makes `frameComplete` write nothing. -/
theorem frameComplete_unacknowledged
    (io : BasePicard)
    {frame : ByteVector}
    (notReliable : ∀ seqNo, reception frame ≠ .reliable seqNo)
    (data : ByteVector) :
    .sendRaw data ∉ (io.frameComplete frame).2 := by
  unfold frameComplete
  split
  case h_2 => simp
  case h_1 control type seqNo len payload =>
    split_ifs with malformed isHello isMgrHello isNotification isResponse
    · simp
    · unfold helloResponse
      split
      · dsimp only
        split_ifs <;> simp
      · simp
    · unfold mgrHello
      split
      · dsimp only
        split_ifs <;> simp
      · simp
    · apply notification_unreliable
      by_contra reliable
      obtain ⟨rfl, isRequest, long⟩ := isNotification
      have size : len.toNat = payload.length := by
        by_contra different
        exact malformed (Or.inr different)
      rw [size] at long
      refine notReliable seqNo ?_
      rw [reception, if_neg (not_not.mpr size), if_pos ⟨rfl, isRequest, long⟩,
        if_neg reliable]
    · unfold commandResponse
      split
      · split_ifs <;> simp
      · simp
    · simp

/-- A frame is acknowledged first, if it asks for it, and nothing else is written. -/
theorem frameComplete_acknowledges (io : BasePicard) (frame : ByteVector) :
    ∃ rest, (io.frameComplete frame).2 =
        ((acknowledgement frame).map PicardEvent.sendRaw).toList ++ rest ∧
      ∀ data, .sendRaw data ∉ rest := by
  cases kind : reception frame with
  | reliable seqNo =>
      have asked : acknowledgement frame = some (ackFrame Command.notification seqNo) := by
        simp only [acknowledgement, kind, ackFrame]
      refine ⟨if io.callback then [carriedNotif frame] else [], ?_, ?_⟩
      · rw [asked]
        exact frameComplete_reliable io kind
      · intro data
        split_ifs
        · unfold carriedNotif
          split <;> simp
        · simp
  | unreliable | hello | other =>
      have unasked : acknowledgement frame = none := by
        simp only [acknowledgement, kind]
      refine ⟨(io.frameComplete frame).2, ?_, io.frameComplete_unacknowledged (by simp [kind])⟩
      rw [unasked]
      rfl

end BasePicard

/-- What is written for a frame is its encoded acknowledgement, if it asks for one. -/
theorem writtenBytes_frameComplete (io : BasePicard) (frame : ByteVector) :
    writtenBytes (io.frameComplete frame).2 =
      (acknowledgement frame).toList.flatMap encodeHDLC := by
  obtain ⟨rest, events, silent⟩ := io.frameComplete_acknowledges frame
  have nothing : writtenBytes rest = [] := by
    rw [writtenBytes, List.flatMap_eq_nil_iff]
    intro event member
    cases event with
    | sendRaw data => exact absurd member (silent data)
    | _ => rfl
  have parts : writtenBytes (((acknowledgement frame).map PicardEvent.sendRaw).toList ++ rest) =
      writtenBytes ((acknowledgement frame).map PicardEvent.sendRaw).toList ++
        writtenBytes rest := List.flatMap_append
  rw [events, parts, nothing, List.append_nil]
  cases acknowledgement frame with
  | none => rfl
  | some ack => simp [writtenBytes, PicardSerial.sendRaw]

/-- An acknowledgement is not empty. -/
theorem ne_nil_of_acknowledgement
    {frame ack : ByteVector}
    (asked : acknowledgement frame = some ack) :
    ack ≠ [] := by
  unfold acknowledgement at asked
  split at asked
  · rw [← Option.some.inj asked]
    simp
  all_goals cases asked

/-! ## The read loop -/

/-- The Picard thread as it reads the serial port. -/
structure PicardReader where
  hdlc : HDLC := HDLC.fresh
  io : BasePicard

/-- A byte is read, or other threads leave the connection's fields in some state. -/
inductive ReaderAction
  | byte (b : Byte)
  | others (io : BasePicard)

/-- The byte that is read. -/
def ReaderAction.received : ReaderAction → Option Byte
  | .byte b => some b
  | .others _ => none

namespace PicardReader

/-- One byte through the parser, with the frame that it completes and what
`frameComplete` does with it. -/
def step (r : PicardReader) :
    ReaderAction → PicardReader × List (ByteVector × List PicardEvent)
  | .byte b =>
      match r.hdlc.addByte b with
      | (hdlc, some frame) =>
          let (io, events) := r.io.frameComplete frame
          ({ hdlc := hdlc, io := io }, [(frame, events)])
      | (hdlc, none) => ({ r with hdlc := hdlc }, [])
  | .others io => ({ r with io := io }, [])

/-- The frames handled are those that the parser delivers from the bytes received. -/
theorem run_frames (r : PicardReader) (actions : List ReaderAction) :
    (Machine.run step r actions).2.map Prod.fst =
      (r.hdlc.feed (actions.filterMap ReaderAction.received)).2 := by
  induction actions generalizing r with
  | nil => rfl
  | cons action rest inductionHypothesis =>
      rw [Machine.run_cons, List.map_append, inductionHypothesis]
      cases action with
      | byte b =>
          simp only [step, List.filterMap_cons, ReaderAction.received, HDLC.feed]
          cases parsed : r.hdlc.addByte b with
          | mk hdlc frame => cases frame <;> rfl
      | others io => rfl

/-- Every frame is handled by `frameComplete` in some state of the connection. -/
theorem run_handled
    (r : PicardReader)
    (actions : List ReaderAction) :
    ∀ handled ∈ (Machine.run step r actions).2,
      ∃ io : BasePicard, handled.2 = (io.frameComplete handled.1).2 := by
  induction actions generalizing r with
  | nil => simp
  | cons action rest inductionHypothesis =>
      rw [Machine.run_cons, List.forall_mem_append]
      refine ⟨?_, inductionHypothesis _⟩
      cases action with
      | byte b =>
          simp only [step]
          split
          · exact List.forall_mem_singleton.mpr ⟨r.io, rfl⟩
          · simp
      | others io => simp [step]

/-- Whatever bytes come from the serial port: the frames are those that the HDLC parser
delivers, each is acknowledged before anything else is done with it if it is a reliable
notification, no other frame makes the thread write, and Picard's parser gets exactly
the acknowledgements, in the order of the notifications. -/
theorem acknowledged (io : BasePicard) (actions : List ReaderAction) :
    (Machine.run step { io := io } actions).2.map Prod.fst =
        (HDLC.fresh.feed (actions.filterMap ReaderAction.received)).2 ∧
      (∀ handled ∈ (Machine.run step { io := io } actions).2,
        ∃ rest, handled.2 =
            ((acknowledgement handled.1).map PicardEvent.sendRaw).toList ++ rest ∧
          ∀ data, .sendRaw data ∉ rest) ∧
      HDLC.fresh.feed (((Machine.run step { io := io } actions).2.map Prod.snd).flatMap
          writtenBytes) =
        (HDLC.fresh, (HDLC.fresh.feed (actions.filterMap ReaderAction.received)).2.filterMap
          acknowledgement) := by
  have frames := run_frames { io := io } actions
  have each := run_handled { io := io } actions
  generalize (Machine.run step { io := io } actions).2 = handled at frames each ⊢
  refine ⟨frames, ?_, ?_⟩
  · intro one member
    obtain ⟨io, events⟩ := each one member
    rw [events]
    exact io.frameComplete_acknowledges one.1
  · have written : (handled.map Prod.snd).flatMap writtenBytes =
        ((handled.map Prod.fst).filterMap acknowledgement).flatMap encodeHDLC := by
      clear frames
      induction handled with
      | nil => rfl
      | cons first rest inductionHypothesis =>
          rw [List.forall_mem_cons] at each
          obtain ⟨⟨io, events⟩, others⟩ := each
          rw [List.map_cons, List.flatMap_cons, inductionHypothesis others, events,
            writtenBytes_frameComplete, List.map_cons, List.filterMap_cons]
          cases acknowledgement first.1 <;> simp
    rw [written, frames]
    apply HDLC.feed_flatMap_encodeHDLC
    intro ack member
    obtain ⟨frame, -, asked⟩ := List.mem_filterMap.mp member
    exact ne_nil_of_acknowledgement asked

end PicardReader

end SerialMux
