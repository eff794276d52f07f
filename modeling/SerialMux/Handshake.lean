import SerialMux.BasePicard

/-!
# Connection and protocol version

The frame handler records a version whenever it is a known one, and connects on
every accepted hello response whatever its version.  The caller of `waitForHello`
hands the recorded version to the listener.
-/

namespace SerialMux

namespace BasePicard

/-- The connection as constructed, then started or not, with or without a
registered handler. -/
def constructed (isRunning callback : Bool) : BasePicard where
  isRunning := isRunning
  callback := callback

/-- What `waitForHello` returns at the end of its wait. -/
def waitForHello (io : BasePicard) : Bool := io.connected

/-- The version that is handed to the listener. -/
def getVersion (io : BasePicard) : Byte := io.protocolVersion

/-- A successful wait is followed by reading a version that the mux supports. -/
def VersionKnown (io : BasePicard) : Prop :=
  io.waitForHello = true → checkProtocol io.getVersion = true

instance (io : BasePicard) : Decidable io.VersionKnown :=
  inferInstanceAs (Decidable (_ → _))

/-! ## What a frame says -/

/-- The version in a well-formed HELLO_RESPONSE or MGR_HELLO. -/
def carriedVersion : ByteVector → Option Byte
  | _ :: type :: _ :: len :: payload =>
      if payload = [] ∨ len.toNat ≠ payload.length then none
      else if type = Command.helloResponse ∧ 5 ≤ len.toNat then payload[1]?
      else if type = Command.mgrHello ∧ 2 ≤ len.toNat then payload[0]?
      else none
  | _ => none

/-- A frame carries a supported version. -/
def CarriesKnownVersion (frame : ByteVector) : Prop :=
  ∃ version, carriedVersion frame = some version ∧ checkProtocol version = true

/-- A well-formed HELLO_RESPONSE with control byte and success code zero. -/
def IsAcceptedHello : ByteVector → Prop
  | control :: type :: _ :: len :: payload =>
      ¬(payload = [] ∨ len.toNat ≠ payload.length) ∧
        (type = Command.helloResponse ∧ 5 ≤ len.toNat) ∧
        control = 0 ∧ payload[0]? = some 0
  | _ => False

instance : (frame : ByteVector) → Decidable (IsAcceptedHello frame)
  | control :: type :: _ :: len :: payload =>
      inferInstanceAs (Decidable
        (¬(payload = [] ∨ len.toNat ≠ payload.length) ∧
          (type = Command.helloResponse ∧ 5 ≤ len.toNat) ∧
          control = 0 ∧ payload[0]? = some 0))
  | [] | [_] | [_, _] | [_, _, _] => isFalse id

/-! ## One frame -/

/-- Recording a version makes the recorded version known, or keeps it. -/
theorem checkProtocol_recordVersion (io : BasePicard) (version : Byte) :
    checkProtocol (io.recordVersion version).protocolVersion = true ↔
      checkProtocol io.protocolVersion = true ∨ checkProtocol version = true := by
  unfold recordVersion
  split
  · rename_i known
    simp [known]
  · rename_i unknown
    simp [unknown]

@[simp] theorem recordVersion_connected (io : BasePicard) (version : Byte) :
    (io.recordVersion version).connected = io.connected := by
  unfold recordVersion
  split <;> rfl

/-- A hello response records its version with any code, and connects if it is
accepted. -/
theorem helloResponse_fields
    (io : BasePicard)
    (control successCode version mgrSeqNo cliSeqNo : Byte)
    (rest : ByteVector) :
    ((io.helloResponse control
        (successCode :: version :: mgrSeqNo :: cliSeqNo :: rest)).1.connected = true ↔
      io.connected = true ∨ control = 0 ∧ successCode = 0) ∧
    (checkProtocol (io.helloResponse control
        (successCode :: version :: mgrSeqNo :: cliSeqNo :: rest)).1.protocolVersion = true ↔
      checkProtocol io.protocolVersion = true ∨ checkProtocol version = true) := by
  simp only [helloResponse]
  by_cases accepted : control = 0 ∧ successCode = 0
  · rw [if_pos accepted]
    split_ifs with connected
    · rw [recordVersion_connected] at connected
      simp [accepted, checkProtocol_recordVersion, connected]
    · simp [accepted, checkProtocol_recordVersion]
  · rw [if_neg accepted, recordVersion_connected, checkProtocol_recordVersion]
    exact ⟨(or_iff_left accepted).symm, Iff.rfl⟩

/-- A manager hello records its version. -/
theorem mgrHello_fields (io : BasePicard) (version : Byte) (rest : ByteVector) :
    (io.mgrHello (version :: rest)).1.connected = io.connected ∧
      (checkProtocol (io.mgrHello (version :: rest)).1.protocolVersion = true ↔
        checkProtocol io.protocolVersion = true ∨ checkProtocol version = true) :=
  ⟨recordVersion_connected io version, checkProtocol_recordVersion io version⟩

theorem notification_fields
    (io : BasePicard)
    (control type seqNo : Byte)
    (payload : ByteVector) :
    (io.notification control type seqNo payload).1.connected = io.connected ∧
      (io.notification control type seqNo payload).1.protocolVersion =
        io.protocolVersion := by
  unfold notification
  split
  · dsimp only
    split_ifs <;> exact ⟨rfl, rfl⟩
  · exact ⟨rfl, rfl⟩

theorem commandResponse_fields
    (io : BasePicard)
    (type seqNo : Byte)
    (payload : ByteVector) :
    (io.commandResponse type seqNo payload).1.connected = io.connected ∧
      (io.commandResponse type seqNo payload).1.protocolVersion = io.protocolVersion := by
  unfold commandResponse
  split <;> exact ⟨rfl, rfl⟩

/-- What a frame does to the connection flag and to the recorded version. -/
theorem frameComplete_handshake (io : BasePicard) (frame : ByteVector) :
    ((io.frameComplete frame).1.connected = true ↔
        io.connected = true ∨ IsAcceptedHello frame) ∧
      (checkProtocol (io.frameComplete frame).1.protocolVersion = true ↔
        checkProtocol io.protocolVersion = true ∨ CarriesKnownVersion frame) := by
  unfold frameComplete
  split
  · rename_i control type seqNo len payload
    unfold IsAcceptedHello CarriesKnownVersion carriedVersion
    dsimp only
    split_ifs with malformed hello mgr notif isResponse
    · simp [malformed]
    · -- five payload bytes hold all that the branch reads
      rw [not_or, not_not] at malformed
      match payload, malformed.2 with
      | [], size | [_], size | [_, _], size | [_, _, _], size =>
          simp only [List.length_cons, List.length_nil] at size
          omega
      | successCode :: version :: mgrSeqNo :: cliSeqNo :: rest, size =>
          obtain ⟨connected, known⟩ :=
            helloResponse_fields io control successCode version mgrSeqNo cliSeqNo rest
          have enough : 1 ≤ rest.length := by
            have long := hello.2
            simp only [size, List.length_cons] at long
            omega
          rw [connected, known]
          simp [hello, size, enough]
    · rw [not_or, not_not] at malformed
      cases payload with
      | nil => exact absurd rfl malformed.1
      | cons version rest =>
          obtain ⟨connected, known⟩ := mgrHello_fields io version rest
          rw [connected, known]
          simp [hello]
    · obtain ⟨connected, version⟩ := notification_fields io control type seqNo payload
      rw [connected, version]
      simp [hello]
    · obtain ⟨connected, version⟩ := commandResponse_fields io type seqNo payload
      rw [connected, version]
      simp [hello]
    · simp [hello]
  · rename_i short
    have noHello : ¬IsAcceptedHello frame := by
      unfold IsAcceptedHello
      split
      · exact absurd rfl (short _ _ _ _ _)
      · exact id
    have noVersion : ¬CarriesKnownVersion frame := by
      unfold CarriesKnownVersion carriedVersion
      split
      · exact absurd rfl (short _ _ _ _ _)
      · simp
    exact ⟨(or_iff_left noHello).symm, (or_iff_left noVersion).symm⟩

/-! ## Sequences of frames -/

/-- After some frames the connection stands if it stood before or one of them was
an accepted hello, and the version is known if it was before or one of them
carried a known one. -/
theorem frames_handshake (io : BasePicard) (received : List ByteVector) :
    ((io.frames received).1.connected = true ↔
        io.connected = true ∨ ∃ frame ∈ received, IsAcceptedHello frame) ∧
      (checkProtocol (io.frames received).1.protocolVersion = true ↔
        checkProtocol io.protocolVersion = true ∨
          ∃ frame ∈ received, CarriesKnownVersion frame) := by
  induction received generalizing io with
  | nil => simp [frames]
  | cons frame rest inductionHypothesis =>
      obtain ⟨connected, known⟩ := inductionHypothesis (io.frameComplete frame).1
      obtain ⟨connectedNow, knownNow⟩ := frameComplete_handshake io frame
      simp only [frames, connected, known, connectedNow, knownNow, or_assoc,
        List.exists_mem_cons_iff, and_self]

/-- Every accepted hello response carries a supported version, unless some frame
before it carried one. -/
def KnownBeforeConnect (received : List ByteVector) : Prop :=
  ∀ earlier hello, earlier ++ [hello] <+: received → IsAcceptedHello hello →
    ∃ frame ∈ earlier ++ [hello], CarriesKnownVersion frame

/-- The connection implies a supported version after every prefix of a sequence of
frames exactly when a supported version comes with the connecting hello or
before it. -/
theorem versionKnown_iff
    (isRunning callback : Bool)
    (received : List ByteVector) :
    (∀ earlier, earlier <+: received →
      ((constructed isRunning callback).frames earlier).1.VersionKnown) ↔
        KnownBeforeConnect received := by
  have connected (earlier : List ByteVector) :
      ((constructed isRunning callback).frames earlier).1.connected = true ↔
        ∃ frame ∈ earlier, IsAcceptedHello frame := by
    rw [(frames_handshake _ earlier).1]
    simp [constructed]
  have known (earlier : List ByteVector) :
      checkProtocol ((constructed isRunning callback).frames earlier).1.protocolVersion = true ↔
        ∃ frame ∈ earlier, CarriesKnownVersion frame := by
    have unknown : ¬checkProtocol 0 = true := by decide
    rw [(frames_handshake _ earlier).2]
    exact or_iff_right unknown
  unfold VersionKnown waitForHello getVersion
  simp only [connected, known]
  constructor
  · intro always earlier hello within accepted
    exact always (earlier ++ [hello]) within ⟨hello, by simp, accepted⟩
  · rintro knownBefore earlier within ⟨hello, member, accepted⟩
    obtain ⟨before, after, rfl⟩ := List.append_of_mem member
    have reached : before ++ [hello] <+: received := by
      refine List.IsPrefix.trans ?_ within
      exact ⟨after, by simp⟩
    obtain ⟨frame, frameMember, carries⟩ := knownBefore before hello reached accepted
    refine ⟨frame, ?_, carries⟩
    rw [List.mem_append, List.mem_singleton] at frameMember
    rcases frameMember with first | rfl
    · exact List.mem_append_left _ first
    · exact member

/-- An accepted hello response with version nine connects while the recorded
version is still that of the constructor. -/
theorem unknown_version_connects :
    ¬∀ isRunning callback received earlier, earlier <+: received →
      ((constructed isRunning callback).frames earlier).1.VersionKnown := by
  intro always
  have known := always true true [[0, 2, 0, 5, 0, 9, 0, 0, 0]] _ (List.prefix_refl _)
  exact absurd known (by decide)

end BasePicard

end SerialMux
