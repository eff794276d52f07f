import SerialMux.BasePicard

/-!
# Reliable notifications

A reliable notification is acknowledged each time it is received and should be
passed on once.  The handler acknowledges first, and `sendAck` stores the next
expected number in the field that the duplicate test reads afterwards; so the
test never finds a duplicate.
-/

namespace SerialMux

/-- What a frame means for the duplicate filter. -/
inductive Reception
  | reliable (seqNo : Byte)
  | unreliable (seqNo : Byte)
  | hello
  | other
  deriving DecidableEq, Repr

/-- Classify a frame: well-formed notifications, hello responses, and the
rest. -/
def reception : ByteVector → Reception
  | control :: type :: seqNo :: len :: payload =>
      if len.toNat ≠ payload.length then .other
      else if type = Command.notification ∧ control &&& 1 = 0 ∧ 1 < payload.length then
        if control &&& 2 = 0 then .unreliable seqNo else .reliable seqNo
      else if type = Command.helloResponse ∧ 5 ≤ payload.length then .hello
      else .other
  | _ => .other

/-- Number of the last notification, reliable or not. -/
def precedingNotification (received : List ByteVector) : Option Byte :=
  received.foldl
    (fun last frame =>
      match reception frame with
      | .reliable seqNo | .unreliable seqNo => some seqNo
      | .hello | .other => last)
    none

/-- Number of the last notification if it was reliable and no hello response
came after it. -/
def repeatable (received : List ByteVector) : Option Byte :=
  received.foldl
    (fun last frame =>
      match reception frame with
      | .reliable seqNo => some seqNo
      | .unreliable _ | .hello => none
      | .other => last)
    none

/-- The notification that a frame carries. -/
def carriedNotif : ByteVector → PicardEvent
  | _ :: _ :: _ :: _ :: notifType :: payload => .handleNotif notifType payload
  | _ => .handleNotif 0 []

/-- The intended filter over a sequence of frames: a repeated reliable
notification is only acknowledged, and one with a new number is acknowledged and
passed on once. -/
def PassesOnOnce (io : BasePicard) (received : List ByteVector) : Prop :=
  ∀ before frame after seqNo,
    received = before ++ frame :: after →
    reception frame = .reliable seqNo →
    (repeatable before = some seqNo →
      ((io.frames before).1.frameComplete frame).2 =
        [.sendRaw (BasePicard.ackFrame Command.notification seqNo)]) ∧
    (precedingNotification before ≠ some seqNo →
      ((io.frames before).1.frameComplete frame).2 =
        [.sendRaw (BasePicard.ackFrame Command.notification seqNo),
          carriedNotif frame])

/-- No reliable notification repeats the number of the reliable notification
directly before it. -/
def NeverRepeats (received : List ByteVector) : Prop :=
  ∀ before frame after seqNo,
    received = before ++ frame :: after →
    reception frame = .reliable seqNo →
    repeatable before ≠ some seqNo

/-- Every reliable notification is acknowledged and then, with a registered handler,
passed on, repeated or not. -/
theorem frameComplete_reliable
    (io : BasePicard)
    {frame : ByteVector}
    {seqNo : Byte}
    (reliable : reception frame = .reliable seqNo) :
    (io.frameComplete frame).2 =
      .sendRaw (BasePicard.ackFrame Command.notification seqNo) ::
        if io.callback then [carriedNotif frame] else [] := by
  unfold reception at reliable
  split at reliable
  case h_2 => cases reliable
  case h_1 control type number len payload =>
    split_ifs at reliable with lengths isNotification unreliable isHello
    rw [Reception.reliable.injEq] at reliable
    subst reliable
    obtain ⟨rfl, isRequest, long⟩ := isNotification
    match payload, long with
    | notifType :: notif, long =>
        have lengthEq : len.toNat = (notifType :: notif).length := by simpa using lengths
        have notHello : ¬Command.notification = Command.helloResponse := by decide
        have notMgrHello : ¬Command.notification = Command.mgrHello := by decide
        have isReliable : (control &&& 2 != 0) = true := bne_iff_ne.mpr unreliable
        simp only [BasePicard.frameComplete, lengthEq, long, isRequest, notHello,
          notMgrHello, reduceCtorEq, not_true_eq_false, ne_eq, or_self, false_and,
          and_self, if_true, if_false]
        simp only [BasePicard.notification, isReliable, if_true, BasePicard.sendAck,
          ne_eq, byte_succ_ne, not_false_eq_true, or_true, and_true]
        rfl

/-- The filter does what is intended exactly on the sequences without a
repeated notification. -/
theorem passesOnOnce_iff_neverRepeats
    (io : BasePicard)
    (registered : io.callback = true)
    (received : List ByteVector) :
    PassesOnOnce io received ↔ NeverRepeats received := by
  constructor
  · intro intended before frame after seqNo split reliable repeated
    have onlyAcked := (intended before frame after seqNo split reliable).1 repeated
    rw [frameComplete_reliable _ reliable, BasePicard.frames_callback, if_pos registered]
      at onlyAcked
    simp at onlyAcked
  · intro fresh before frame after seqNo split reliable
    refine ⟨fun repeated => absurd repeated (fresh before frame after seqNo split reliable),
      fun _ => ?_⟩
    rw [frameComplete_reliable _ reliable, BasePicard.frames_callback, if_pos registered]

/-- A frame with reliable notification 7 of type 5. -/
def notificationSeven : ByteVector := [2, Command.notification, 7, 2, 5, 0]

/-- Reliable notifications across the wrap of the number, an unreliable one between them, and
behind a hello response one with the number of the last. -/
def notificationsAcrossWrap : List ByteVector :=
  [[2, Command.notification, 254, 2, 5, 0], [2, Command.notification, 255, 2, 5, 1],
    [0, Command.notification, 9, 2, 6, 0], [2, Command.notification, 0, 2, 5, 2],
    [0, Command.helloResponse, 0, 5, 0, 4, 0, 0, 0], [2, Command.notification, 0, 2, 5, 3]]

theorem passesOnOnce_iff_neverRepeats_example :
    PassesOnOnce { callback := true } notificationsAcrossWrap ↔
      NeverRepeats notificationsAcrossWrap :=
  passesOnOnce_iff_neverRepeats { callback := true } rfl notificationsAcrossWrap

example :
    ({ callback := true : BasePicard }.frames notificationsAcrossWrap).2.map
        (fun events => events.filter (· matches .handleNotif _ _)) =
      [[.handleNotif 5 [0]], [.handleNotif 5 [1]], [.handleNotif 6 [0]], [.handleNotif 5 [2]],
        [], [.handleNotif 5 [3]]] := by decide

/-- A retransmitted notification is passed on a second time. -/
theorem passesOnOnce_retransmitted :
    ¬PassesOnOnce { callback := true } [notificationSeven, notificationSeven] ∧
      ({ callback := true : BasePicard }.frames
        [notificationSeven, notificationSeven]).2 =
        [[.sendRaw [3, 20, 7, 1, 0], .handleNotif 5 [0]],
          [.sendRaw [3, 20, 7, 1, 0], .handleNotif 5 [0]]] := by
  refine ⟨?_, by decide⟩
  intro intended
  have onlyAcked := (intended [notificationSeven] notificationSeven [] 7 rfl
    (by decide)).1 (by decide)
  revert onlyAcked
  decide

end SerialMux
