import SerialMux.MuxMessageParser

/-!
# The Picard connection

`BasePicard` holds the fields of `CBasePicardIO` that its frame handler and its
senders use.  What a call does outside these fields is returned as a list of
events in the order in which it happens.
-/

namespace SerialMux

/-- The Serial API protocol versions that the mux supports, preferred first. -/
def knownApiProtocolVersions : List Byte := [4, 3]

/-- The arguments of `commandComplete`. -/
structure Response where
  cmdType : Byte
  seqNo : Byte
  respCode : Byte
  payload : ByteVector
  deriving DecidableEq, Repr

/-- What the connection does outside its own fields. -/
inductive PicardEvent
  | sendRaw (data : ByteVector)
  | handleNotif (notifType : Byte) (payload : ByteVector)
  | commandComplete (response : Response)
  | notifyConnect
  | resetConnection
  deriving DecidableEq, Repr

/-- The class `CBasePicardIO`; `callback` says whether a handler is
registered. -/
structure BasePicard where
  isRunning : Bool := false
  connected : Bool := false
  callback : Bool := false
  protocolVersion : Byte := 0
  seqNo : Byte := 0
  mgrSeqNo : Byte := 0
  deriving DecidableEq, Repr

namespace BasePicard

/-! ## Sending -/

/-- The buffer that `sendCommand` builds: request and reliable bits, type,
sequence number, length, payload.  The length is cut to eight bits. -/
def commandFrame (cmd : MuxMessage) (seqNo : Byte) : ByteVector :=
  let cmdLen : Byte := (cmd.size &&& 0xFF).setWidth 8
  [2, cmd.type, seqNo, cmdLen] ++ cmd.data.take cmdLen.toNat

/-- The buffer that `sendAck` sends. -/
def ackFrame (type seqNo : Byte) : ByteVector :=
  [3, type, seqNo, 1, 0]

/-- Acknowledge a message.  `m_mgrSeqNo` becomes the next expected number. -/
def sendAck (io : BasePicard) (type seqNo : Byte) :
    BasePicard × List PicardEvent :=
  ({ io with mgrSeqNo := seqNo + 1 }, [.sendRaw (ackFrame type seqNo)])

/-- Whether a protocol version is supported. -/
def checkProtocol (version : Byte) : Bool :=
  knownApiProtocolVersions.contains version

/-- Record a protocol version that is supported. -/
def recordVersion (io : BasePicard) (version : Byte) : BasePicard :=
  if checkProtocol version then { io with protocolVersion := version } else io

/-! ## Receiving -/

/-- The branch for a HELLO_RESPONSE of at least five payload bytes. -/
def helloResponse (io : BasePicard) (control : Byte) :
    ByteVector → BasePicard × List PicardEvent
  | successCode :: version :: mgrSeqNo :: cliSeqNo :: _ =>
      let recorded := io.recordVersion version
      if control = 0 ∧ successCode = 0 then
        let accepted := { recorded with mgrSeqNo := mgrSeqNo, seqNo := cliSeqNo + 1 }
        if accepted.connected then (accepted, [])
        else ({ accepted with connected := true }, [.notifyConnect])
      else (recorded, [])
  | _ => (io, [])

/-- The branch for a MGR_HELLO of at least two payload bytes. -/
def mgrHello (io : BasePicard) : ByteVector → BasePicard × List PicardEvent
  | version :: _ =>
      let recorded := io.recordVersion version
      (recorded, if recorded.connected then [.resetConnection] else [])
  | _ => (io, [])

/-- The branch for a notification: acknowledge it if it is reliable, pass it on
unless it is taken for a duplicate, and record its number. -/
def notification (io : BasePicard) (control type seqNo : Byte) :
    ByteVector → BasePicard × List PicardEvent
  | notifType :: notif =>
      let isReliable := control &&& 2 != 0
      let (acked, ack) := if isReliable then io.sendAck type seqNo else (io, [])
      let passed : List PicardEvent :=
        if acked.callback ∧ (¬isReliable ∨ acked.mgrSeqNo ≠ seqNo) then
          [.handleNotif notifType notif]
        else []
      ({ acked with mgrSeqNo := seqNo }, ack ++ passed)
  | _ => (io, [])

/-- The branch for a command response. -/
def commandResponse (io : BasePicard) (type seqNo : Byte) :
    ByteVector → BasePicard × List PicardEvent
  | respCode :: payload =>
      ({ io with seqNo := seqNo + 1 },
        if io.callback then
          [.commandComplete
            { cmdType := type, seqNo := seqNo, respCode := respCode, payload := payload }]
        else [])
  | _ => (io, [])

/-- Handle a complete frame.  A frame is longer than its four header bytes, and
its length byte counts the others. -/
def frameComplete (io : BasePicard) : ByteVector → BasePicard × List PicardEvent
  | control :: type :: seqNo :: len :: payload =>
      if payload = [] ∨ len.toNat ≠ payload.length then (io, [])
      else if type = Command.helloResponse ∧ 5 ≤ len.toNat then
        io.helloResponse control payload
      else if type = Command.mgrHello ∧ 2 ≤ len.toNat then
        io.mgrHello payload
      else if type = Command.notification ∧ control &&& 1 = 0 ∧ 1 < len.toNat then
        io.notification control type seqNo payload
      else if Command.notification < type ∧ 1 ≤ len.toNat ∧ control = 3 then
        io.commandResponse type seqNo payload
      else (io, [])
  | _ => (io, [])

/-- A sequence of frames, with the events of each. -/
def frames (io : BasePicard) : List ByteVector → BasePicard × List (List PicardEvent)
  | [] => (io, [])
  | frame :: rest =>
      let (next, events) := io.frameComplete frame
      let (final, more) := next.frames rest
      (final, events :: more)

@[simp] theorem recordVersion_callback (io : BasePicard) (version : Byte) :
    (io.recordVersion version).callback = io.callback := by
  unfold recordVersion
  split <;> rfl

@[simp] theorem recordVersion_seqNo (io : BasePicard) (version : Byte) :
    (io.recordVersion version).seqNo = io.seqNo := by
  unfold recordVersion
  split <;> rfl

/-- Frames do not register or remove the handler. -/
@[simp] theorem frameComplete_callback (io : BasePicard) (frame : ByteVector) :
    (io.frameComplete frame).1.callback = io.callback := by
  unfold frameComplete
  split
  · split_ifs
    · rfl
    · unfold helloResponse
      split
      · dsimp only
        split_ifs <;> simp
      · rfl
    · unfold mgrHello
      split <;> simp
    · unfold notification
      split
      · dsimp only
        split_ifs <;> rfl
      · rfl
    · unfold commandResponse
      split <;> rfl
    · rfl
  · rfl

@[simp] theorem frames_callback (io : BasePicard) (received : List ByteVector) :
    (io.frames received).1.callback = io.callback := by
  induction received generalizing io with
  | nil => rfl
  | cons frame rest inductionHypothesis =>
      simp only [frames, inductionHypothesis, frameComplete_callback]

/-- A command is completed by a response frame and by nothing else; the next
number is then the one behind the response's. -/
theorem frameComplete_commandComplete
    {io : BasePicard}
    {frame : ByteVector}
    {response : Response}
    (completes : .commandComplete response ∈ (io.frameComplete frame).2) :
    Command.notification < response.cmdType ∧
      frame = 3 :: response.cmdType :: response.seqNo ::
        BitVec.ofNat 8 (response.payload.length + 1) :: response.respCode ::
          response.payload ∧
      (io.frameComplete frame) =
        ({ io with seqNo := response.seqNo + 1 }, [.commandComplete response]) := by
  unfold frameComplete at completes ⊢
  split at completes
  · rename_i control type seqNo len body
    split_ifs at completes with malformed hello mgr notif isResponse
    · cases completes
    · unfold helloResponse at completes
      split at completes
      · dsimp only at completes
        split_ifs at completes <;> simp at completes
      · cases completes
    · unfold mgrHello at completes
      split at completes
      · dsimp only at completes
        split_ifs at completes <;> simp at completes
      · cases completes
    · unfold notification at completes
      split at completes
      · dsimp only at completes
        split_ifs at completes <;> simp [sendAck] at completes
      · cases completes
    · rw [if_neg malformed, if_neg hello, if_neg mgr, if_neg notif, if_pos isResponse]
      cases body with
      | nil => cases completes
      | cons respCode payload =>
          simp only [commandResponse] at completes ⊢
          split_ifs at completes with registered
          · rw [List.mem_singleton, PicardEvent.commandComplete.injEq] at completes
            subst completes
            obtain ⟨inRange, -, rfl⟩ := isResponse
            rw [if_pos registered]
            refine ⟨inRange, ?_, rfl⟩
            have size : len = BitVec.ofNat 8 (payload.length + 1) := by
              have exact' : len.toNat = payload.length + 1 := by
                by_contra different
                exact malformed (Or.inr different)
              rw [← exact', BitVec.ofNat_toNat, BitVec.setWidth_eq]
            rw [size]
          · cases completes
    · cases completes
  · cases completes

/-- What a command response does: the number behind its own comes next, and the
handler is called if one is registered. -/
theorem frameComplete_response
    {type seqNo len respCode : Byte}
    {payload : ByteVector}
    (inRange : Command.notification < type)
    (size : len.toNat = payload.length + 1)
    (io : BasePicard) :
    io.frameComplete (3 :: type :: seqNo :: len :: respCode :: payload) =
      ({ io with seqNo := seqNo + 1 },
        if io.callback then
          [.commandComplete
            { cmdType := type, seqNo := seqNo, respCode := respCode, payload := payload }]
        else []) := by
  have above (other : Byte) (notAbove : ¬Command.notification < other) : type ≠ other := by
    rintro rfl
    exact notAbove inRange
  have notHello := above Command.helloResponse (by decide)
  have notMgrHello := above Command.mgrHello (by decide)
  have notNotification := above Command.notification (by decide)
  simp [frameComplete, size, notHello, notMgrHello, notNotification, inRange, commandResponse]

/-- Among the frames that are no responses, only a HELLO_RESPONSE moves the number of the
next command. -/
theorem frameComplete_seqNo
    {frame : ByteVector}
    (announces : frame[1]?.all (· ≤ Command.notification))
    (notHello : frame[1]? ≠ some Command.helloResponse)
    (io : BasePicard) :
    (io.frameComplete frame).1.seqNo = io.seqNo := by
  unfold frameComplete
  split
  · rename_i control type seqNo len payload
    simp only [List.getElem?_cons_succ, List.getElem?_cons_zero, Option.all_some,
      decide_eq_true_eq, ne_eq, Option.some.injEq] at announces notHello
    have notResponse : ¬Command.notification < type := BitVec.not_lt.mpr announces
    split_ifs with malformed hello mgr notif response
    · rfl
    · exact absurd hello.1 notHello
    · unfold mgrHello
      split <;> simp
    · unfold notification
      split
      · dsimp only [sendAck]
        split_ifs <;> rfl
      · rfl
    · exact absurd response.1 notResponse
    · rfl
  · rfl

end BasePicard

end SerialMux
