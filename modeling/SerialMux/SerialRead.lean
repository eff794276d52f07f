import SerialMux.HdlcStream
import SerialMux.Library.Machine

/-!
# The read loop of the serial port

Each call of `read_async` starts an asynchronous read into a buffer of its own, waits until
its handler has run or a timeout is over, cancels what is outstanding and feeds the parser.
The handler runs in the I/O thread and tells only how many bytes were read, not by which
call.  A read that completes after its call has returned writes to a buffer that is gone.
-/

namespace SerialMux

/-- The size of the buffer of a call. -/
def inputBufferLen : Nat := 1024

/-- A read that was started: outstanding, or with its handler queued. -/
inductive ReadStatus
  | pending
  | completed (bytes : ByteVector)
  | failed
  | aborted
  deriving DecidableEq, Repr

/-- The read has filled its buffer, and its handler has not run. -/
def ReadStatus.isCompleted : ReadStatus → Bool
  | .completed _ => true
  | .pending | .failed | .aborted => false

/-- A read and the number of the call that started it. -/
structure ReadOperation where
  call : Nat
  status : ReadStatus
  deriving DecidableEq, Repr

/-- The place of the Picard thread in `read_async`.  `idle` is between two calls, `closed`
behind an exception, and `undefined` behind a read into a buffer that is gone. -/
inductive ReadPhase
  | idle
  | starting
  | checking
  | waiting
  | consuming (index : Nat)
  | closed
  | undefined
  deriving DecidableEq, Repr

/-- The buffer of the call exists. -/
def ReadPhase.inCall : ReadPhase → Bool
  | .checking | .waiting | .consuming _ => true
  | .idle | .starting | .closed | .undefined => false

/-- The fields of `CPicardBoost_Serial`, the buffer of the present call, the reads that were
started and the parser. -/
structure SerialReader where
  phase : ReadPhase := .idle
  call : Nat := 0
  readComplete : Bool := false
  readLen : Nat := 0
  input : ByteVector := []
  operations : List ReadOperation := []
  hdlc : HDLC := HDLC.fresh

/-- What can happen next: `thread` is the next statement of the Picard thread, where a wait
may end at any time, and `fault` a call of `cancel` that throws.  A read completes or fails,
and a handler that is queued runs. -/
inductive ReadAction
  | thread
  | fault
  | arrive (index : Nat) (bytes : ByteVector)
  | fail (index : Nat)
  | handle (index : Nat)
  deriving DecidableEq, Repr

/-- Bytes that a read took from the port, and bytes given to the parser, with the packet
that they complete. -/
inductive ReadOutput
  | taken (bytes : ByteVector)
  | fed (byte : Byte) (packet : Option ByteVector)
  deriving DecidableEq, Repr

namespace ReadOutput

def takenBytes : ReadOutput → ByteVector
  | .taken bytes => bytes
  | .fed _ _ => []

def fedBytes : ReadOutput → ByteVector
  | .taken _ => []
  | .fed byte _ => [byte]

def packets : ReadOutput → List ByteVector
  | .taken _ => []
  | .fed _ packet => packet.toList

end ReadOutput

namespace SerialReader

/-- `cancel`: reads that are outstanding are aborted, and their handlers queued. -/
def cancel (operations : List ReadOperation) : List ReadOperation :=
  operations.map fun operation =>
    if operation.status = .pending then { operation with status := .aborted } else operation

/-- The next statement of `read_async`. -/
def threadStep (r : SerialReader) : SerialReader × List ReadOutput :=
  match r.phase with
  | .idle => ({ r with phase := .starting, call := r.call + 1, readComplete := false }, [])
  | .starting =>
      ({ r with
          phase := .checking
          readLen := 0
          input := List.replicate inputBufferLen 0
          operations := r.operations ++ [{ call := r.call, status := .pending }] }, [])
  | .checking =>
      ({ r with phase := if r.readComplete then .consuming 0 else .waiting }, [])
  | .waiting => ({ r with phase := .consuming 0, operations := cancel r.operations }, [])
  | .consuming index =>
      if index < r.readLen then
        match r.input[index]? with
        | some byte =>
            let (hdlc, packet) := r.hdlc.addByte byte
            ({ r with phase := .consuming (index + 1), hdlc := hdlc }, [.fed byte packet])
        | none => ({ r with phase := .undefined }, [])
      else ({ r with phase := .idle }, [])
  | .closed | .undefined => (r, [])

/-- An outstanding read completes: the bytes go to the buffer of its call. -/
def arrive (r : SerialReader) (index : Nat) (bytes : ByteVector) :
    SerialReader × List ReadOutput :=
  match r.operations[index]? with
  | some { call, status := .pending } =>
      if bytes = [] ∨ inputBufferLen < bytes.length then (r, [])
      else if call = r.call ∧ r.phase.inCall then
        ({ r with
            input := bytes ++ r.input.drop bytes.length
            operations := r.operations.set index { call := call, status := .completed bytes } },
          [.taken bytes])
      else ({ r with phase := .undefined }, [.taken bytes])
  | _ => (r, [])

/-- An outstanding read fails. -/
def fail (r : SerialReader) (index : Nat) : SerialReader :=
  match r.operations[index]? with
  | some { call, status := .pending } =>
      { r with operations := r.operations.set index { call := call, status := .failed } }
  | _ => r

/-- `handleRead` of a read that completed, failed or was aborted. -/
def handleRead (r : SerialReader) (index : Nat) : SerialReader :=
  match r.operations[index]? with
  | some { call := _, status := .completed bytes } =>
      { r with
        operations := r.operations.eraseIdx index
        readComplete := true
        readLen := bytes.length }
  | some { call := _, status := .failed } | some { call := _, status := .aborted } =>
      { r with operations := r.operations.eraseIdx index, readComplete := true }
  | _ => r

/-- One step. -/
def step (r : SerialReader) : ReadAction → SerialReader × List ReadOutput
  | .thread => r.threadStep
  | .fault => (if r.phase = .waiting then { r with phase := .closed } else r, [])
  | .arrive index bytes => r.arrive index bytes
  | .fail index => (r.fail index, [])
  | .handle index => (r.handleRead index, [])

/-- Bytes that were taken from the port and are not yet given to the parser. -/
def inFlight (r : SerialReader) : ByteVector :=
  (r.operations.flatMap fun operation =>
      match operation.status with
      | .completed bytes => bytes
      | .pending | .failed | .aborted => []) ++
    match r.phase with
    | .checking | .waiting => r.input.take r.readLen
    | .consuming index => (r.input.take r.readLen).drop index
    | .idle | .starting | .closed | .undefined => []

/-- The handler of each read runs in time: a call starts with no handler outstanding, does
not return beside a completed read whose handler has not run, and nothing is read after an
exception. -/
def HandledInTime (r : SerialReader) : ReadAction → Prop
  | .thread =>
      match r.phase with
      | .idle => r.operations = []
      | .consuming index =>
          r.readLen ≤ index → ∀ operation ∈ r.operations, operation.status.isCompleted = false
      | _ => True
  | .arrive _ _ => r.phase ≠ .closed
  | .fault | .fail _ | .handle _ => True

instance (r : SerialReader) : (action : ReadAction) → Decidable (r.HandledInTime action)
  | .thread => by
      unfold HandledInTime
      dsimp only
      split <;> infer_instance
  | .arrive _ _ => inferInstanceAs (Decidable (_ ≠ _))
  | .fault | .fail _ | .handle _ => inferInstanceAs (Decidable True)

/-! ## One read at a time -/

/-- The read of the present call is the only one. -/
def Only (r : SerialReader) (status : ReadStatus) : Prop :=
  r.operations = [{ call := r.call, status := status }]

/-- The read of the present call has completed, and its bytes are in the buffer. -/
def Holds (r : SerialReader) (bytes : ByteVector) : Prop :=
  r.Only (.completed bytes) ∧ bytes.length ≤ inputBufferLen ∧ r.input.take bytes.length = bytes

/-- The buffer of the call is as long as it was made, and no more was read. -/
def Fits (r : SerialReader) : Prop :=
  r.input.length = inputBufferLen ∧ r.readLen ≤ inputBufferLen

/-- What holds while handlers run in time. -/
def Coherent (r : SerialReader) : Prop :=
  match r.phase with
  | .idle => r.operations = [] ∨ r.Only .failed ∨ r.Only .aborted
  | .starting => r.operations = [] ∧ r.readComplete = false
  | .checking | .waiting =>
      r.Fits ∧
        (r.operations = [] ∧ r.readComplete = true ∨
          (r.readComplete = false ∧ r.readLen = 0) ∧
            (r.Only .pending ∨ r.Only .failed ∨ ∃ bytes, r.Holds bytes))
  | .consuming index =>
      r.Fits ∧ index ≤ r.readLen ∧
        (r.operations = [] ∨ r.Only .failed ∨ r.Only .aborted ∨
          r.readLen = 0 ∧ ∃ bytes, r.Holds bytes)
  | .closed => True
  | .undefined => False

/-- A step gives to the parser what it no longer holds, and holds what it takes. -/
structure Balanced (r : SerialReader) (result : SerialReader × List ReadOutput) : Prop where
  coherent : Coherent result.1
  bytes : result.1.phase ≠ .closed →
    result.2.flatMap ReadOutput.fedBytes ++ result.1.inFlight =
      r.inFlight ++ result.2.flatMap ReadOutput.takenBytes
  silent : result.1.phase = .closed → result.2 = []
  closed : r.phase = .closed → result.1.phase = .closed

namespace Coherent

variable {r : SerialReader}

theorem initial : Coherent {} := Or.inl rfl

/-- Nothing happens. -/
theorem unchanged (coherent : Coherent r) : Balanced r (r, []) where
  coherent := coherent
  bytes _ := by simp
  silent _ := rfl
  closed := id

theorem threadStep
    (coherent : Coherent r)
    (inTime : r.HandledInTime .thread) :
    Balanced r r.threadStep := by
  unfold HandledInTime at inTime
  unfold SerialReader.threadStep
  split
  · rename_i isIdle
    rw [isIdle] at inTime
    have noOperation : r.operations = [] := inTime
    exact ⟨⟨noOperation, rfl⟩, by simp [inFlight, isIdle, noOperation], by simp, by simp [isIdle]⟩
  · rename_i isStarting
    rw [Coherent, isStarting] at coherent
    obtain ⟨noOperation, notComplete⟩ := coherent
    refine ⟨⟨by simp [Fits], Or.inr ⟨⟨notComplete, rfl⟩, Or.inl ?_⟩⟩, ?_, by simp,
      by simp [isStarting]⟩
    · simp [Only, noOperation]
    · simp [inFlight, isStarting, noOperation]
  · rename_i isChecking
    rw [Coherent, isChecking] at coherent
    obtain ⟨fits, ⟨noOperation, isComplete⟩ | ⟨⟨notComplete, nothing⟩, due⟩⟩ := coherent
    · rw [isComplete, if_pos rfl]
      exact ⟨⟨fits, Nat.zero_le _, Or.inl noOperation⟩, by simp [inFlight, isChecking], by simp,
        by simp [isChecking]⟩
    · rw [notComplete, if_neg Bool.false_ne_true]
      exact ⟨⟨fits, Or.inr ⟨⟨rfl, nothing⟩, due⟩⟩, by simp [inFlight, isChecking], by simp,
        by simp [isChecking]⟩
  · rename_i isWaiting
    rw [Coherent, isWaiting] at coherent
    obtain ⟨fits, ⟨noOperation, isComplete⟩ | ⟨⟨notComplete, nothing⟩, due⟩⟩ := coherent
    · refine ⟨⟨fits, Nat.zero_le _, Or.inl ?_⟩, ?_, by simp, by simp [isWaiting]⟩
      · simp [cancel, noOperation]
      · simp [inFlight, isWaiting, noOperation, cancel]
    · rcases due with pending | failed | ⟨bytes, completed, within, holds⟩
      · rw [Only] at pending
        refine ⟨⟨fits, Nat.zero_le _, Or.inr (Or.inr (Or.inl ?_))⟩, ?_, by simp,
          by simp [isWaiting]⟩
        · simp [Only, cancel, pending]
        · simp [inFlight, isWaiting, pending, cancel]
      · rw [Only] at failed
        refine ⟨⟨fits, Nat.zero_le _, Or.inr (Or.inl ?_)⟩, ?_, by simp, by simp [isWaiting]⟩
        · simp [Only, cancel, failed]
        · simp [inFlight, isWaiting, failed, cancel]
      · rw [Only] at completed
        refine ⟨⟨fits, Nat.zero_le _, Or.inr (Or.inr (Or.inr ⟨nothing, bytes, ?_, within, holds⟩))⟩,
          ?_, by simp, by simp [isWaiting]⟩
        · simp [Only, cancel, completed]
        · simp [inFlight, isWaiting, completed, cancel]
  · rename_i index isConsuming
    rw [Coherent, isConsuming] at coherent
    obtain ⟨fits, reached, due⟩ := coherent
    split_ifs with more
    · have inside : index < r.input.length := by
        rw [fits.1]
        exact Nat.lt_of_lt_of_le more fits.2
      have due : r.operations = [] ∨ r.Only .failed ∨ r.Only .aborted :=
        due.imp_right (Or.imp_right (Or.resolve_right · fun holds => by
          rw [holds.1] at more
          exact Nat.not_lt_zero _ more))
      have next : (r.input.take r.readLen).drop index =
          r.input[index] :: (r.input.take r.readLen).drop (index + 1) := by
        have reaches : index < (r.input.take r.readLen).length := by
          rw [List.length_take]
          omega
        rw [List.drop_eq_getElem_cons reaches, List.getElem_take]
      rw [List.getElem?_eq_getElem inside]
      refine ⟨⟨fits, more, ?_⟩, ?_, by simp, by simp [isConsuming]⟩
      · rcases due with noOperation | failed | aborted
        · exact Or.inl noOperation
        · exact Or.inr (Or.inl failed)
        · exact Or.inr (Or.inr (Or.inl aborted))
      · unfold inFlight
        rw [isConsuming]
        dsimp only
        rw [next]
        rcases due with noOperation | failed | aborted
        · simp [noOperation, ReadOutput.fedBytes, ReadOutput.takenBytes]
        · rw [Only] at failed
          simp [failed, ReadOutput.fedBytes, ReadOutput.takenBytes]
        · rw [Only] at aborted
          simp [aborted, ReadOutput.fedBytes, ReadOutput.takenBytes]
    · rw [Nat.not_lt] at more
      have emptied : (r.input.take r.readLen).drop index = [] := by
        apply List.drop_eq_nil_of_le
        rw [List.length_take]
        omega
      rcases due with noOperation | failed | aborted | ⟨-, bytes, completed, -, -⟩
      · exact ⟨Or.inl noOperation, by simp [inFlight, isConsuming, emptied], by simp,
          by simp [isConsuming]⟩
      · exact ⟨Or.inr (Or.inl failed), by simp [inFlight, isConsuming, emptied], by simp,
          by simp [isConsuming]⟩
      · exact ⟨Or.inr (Or.inr aborted), by simp [inFlight, isConsuming, emptied], by simp,
          by simp [isConsuming]⟩
      · rw [Only] at completed
        rw [isConsuming] at inTime
        have handled := inTime more { call := r.call, status := .completed bytes }
          (by simp [completed])
        cases handled
  · exact coherent.unchanged
  · exact coherent.unchanged

/-- There is at most one read, that of the present call. -/
theorem alone
    (coherent : Coherent r)
    (notClosed : r.phase ≠ .closed)
    {index : Nat}
    {operation : ReadOperation}
    (found : r.operations[index]? = some operation) :
    index = 0 ∧ operation.call = r.call ∧ r.Only operation.status := by
  have shape : r.operations = [] ∨ ∃ status, r.Only status := by
    unfold Coherent at coherent
    split at coherent
    · rcases coherent with none | one | one
      exacts [Or.inl none, Or.inr ⟨_, one⟩, Or.inr ⟨_, one⟩]
    · exact Or.inl coherent.1
    · obtain ⟨-, ⟨none, -⟩ | ⟨-, one | one | ⟨bytes, one, -⟩⟩⟩ := coherent
      exacts [Or.inl none, Or.inr ⟨_, one⟩, Or.inr ⟨_, one⟩, Or.inr ⟨_, one⟩]
    · obtain ⟨-, ⟨none, -⟩ | ⟨-, one | one | ⟨bytes, one, -⟩⟩⟩ := coherent
      exacts [Or.inl none, Or.inr ⟨_, one⟩, Or.inr ⟨_, one⟩, Or.inr ⟨_, one⟩]
    · obtain ⟨-, -, none | one | one | ⟨-, bytes, one, -⟩⟩ := coherent
      exacts [Or.inl none, Or.inr ⟨_, one⟩, Or.inr ⟨_, one⟩, Or.inr ⟨_, one⟩]
    · exact absurd ‹_› notClosed
    · exact coherent.elim
  rcases shape with none | ⟨status, one⟩
  · rw [none] at found
    cases found
  · rw [one, List.getElem?_singleton] at found
    split at found
    · cases found
      exact ⟨‹_›, rfl, one⟩
    · cases found

/-- A call waits for the read that is outstanding. -/
theorem pending
    (coherent : Coherent r)
    (notClosed : r.phase ≠ .closed)
    (outstanding : r.Only .pending) :
    (r.phase = .checking ∨ r.phase = .waiting) ∧ r.Fits ∧ r.readComplete = false ∧
      r.readLen = 0 := by
  unfold Coherent at coherent
  rw [Only] at outstanding
  split at coherent
  · simp [Only, outstanding] at coherent
  · simp [outstanding] at coherent
  · exact ⟨Or.inl ‹_›, by simpa [Only, Holds, outstanding] using coherent⟩
  · exact ⟨Or.inr ‹_›, by simpa [Only, Holds, outstanding] using coherent⟩
  · simp [Only, Holds, outstanding] at coherent
  · exact absurd ‹_› notClosed
  · exact coherent.elim

/-- A read that has completed is held by a call that waits, or that has just stopped. -/
theorem completed
    (coherent : Coherent r)
    (notClosed : r.phase ≠ .closed)
    {bytes : ByteVector}
    (held : r.Only (.completed bytes)) :
    (r.phase = .checking ∨ r.phase = .waiting ∨ r.phase = .consuming 0) ∧ r.Fits ∧
      r.readLen = 0 ∧ bytes.length ≤ inputBufferLen ∧ r.input.take bytes.length = bytes := by
  unfold Coherent at coherent
  rw [Only] at held
  split at coherent
  · simp [Only, held] at coherent
  · simp [held] at coherent
  · obtain ⟨fits, ⟨-, nothing⟩, within, holds⟩ := by simpa [Only, Holds, held] using coherent
    exact ⟨Or.inl ‹_›, fits, nothing, within, holds⟩
  · obtain ⟨fits, ⟨-, nothing⟩, within, holds⟩ := by simpa [Only, Holds, held] using coherent
    exact ⟨Or.inr (Or.inl ‹_›), fits, nothing, within, holds⟩
  · obtain ⟨fits, reached, nothing, within, holds⟩ := by
      simpa [Only, Holds, held] using coherent
    rw [nothing, Nat.le_zero] at reached
    subst reached
    exact ⟨Or.inr (Or.inr ‹_›), fits, nothing, within, holds⟩
  · exact absurd ‹_› notClosed
  · exact coherent.elim

/-- A read completes while its call waits, and only then. -/
theorem arrive
    (coherent : Coherent r)
    (notClosed : r.phase ≠ .closed)
    (index : Nat)
    (bytes : ByteVector) :
    Balanced r (r.arrive index bytes) := by
  unfold SerialReader.arrive
  split
  · rename_i call found
    obtain ⟨rfl, rfl, isPending⟩ := coherent.alone notClosed found
    obtain ⟨waits, fits, notComplete, nothing⟩ := coherent.pending notClosed isPending
    rw [Only] at isPending
    have inCall : r.phase.inCall := by rcases waits with here | here <;> rw [here] <;> rfl
    split_ifs with empty
    · exact coherent.unchanged
    · rw [not_or, Nat.not_lt] at empty
      have within := empty.2
      have stays : bytes.length + (inputBufferLen - bytes.length) = inputBufferLen := by omega
      refine ⟨?_, ?_, ?_, ?_⟩
      · rcases waits with here | here
        all_goals
          rw [Coherent, here]
          refine ⟨⟨by simp [fits.1, stays], fits.2⟩,
            Or.inr ⟨⟨notComplete, nothing⟩, Or.inr (Or.inr ⟨bytes, ?_, within, by simp⟩)⟩⟩
          simp [Only, isPending]
      · intro _
        rcases waits with here | here
        all_goals
          simp [inFlight, here, isPending, nothing, ReadOutput.fedBytes, ReadOutput.takenBytes]
      · rcases waits with here | here <;> simp [here]
      · exact id
    · rename_i outside
      exact absurd ⟨rfl, inCall⟩ outside
  · exact coherent.unchanged

theorem fail
    (coherent : Coherent r)
    (index : Nat) :
    Balanced r (r.fail index, []) := by
  by_cases isClosed : r.phase = .closed
  · unfold SerialReader.fail
    split
    · exact ⟨by rw [Coherent, isClosed]; trivial, by simp [isClosed], fun _ => rfl, id⟩
    · exact coherent.unchanged
  · unfold SerialReader.fail
    split
    · rename_i call found
      obtain ⟨rfl, rfl, isPending⟩ := coherent.alone isClosed found
      obtain ⟨waits, fits, notComplete, nothing⟩ := coherent.pending isClosed isPending
      rw [Only] at isPending
      refine ⟨?_, ?_, fun _ => rfl, id⟩
      · rcases waits with here | here
        all_goals
          rw [Coherent, here]
          refine ⟨fits, Or.inr ⟨⟨notComplete, nothing⟩, Or.inr (Or.inl ?_)⟩⟩
          simp [Only, isPending]
      · intro _
        rcases waits with here | here
        all_goals simp [inFlight, here, isPending]
    · exact coherent.unchanged

/-- The handler of a read without bytes runs. -/
theorem dismissed
    (coherent : Coherent r)
    (notClosed : r.phase ≠ .closed)
    {status : ReadStatus}
    (only : r.Only status)
    (noBytes : status = .failed ∨ status = .aborted) :
    Balanced r ({ r with operations := r.operations.eraseIdx 0, readComplete := true }, []) := by
  rw [Only] at only
  refine ⟨?_, ?_, fun _ => rfl, id⟩
  · unfold Coherent at coherent ⊢
    dsimp only
    split at coherent
    · exact Or.inl (by simp [only])
    · simp [only] at coherent
    · exact ⟨coherent.1, Or.inl ⟨by simp [only], rfl⟩⟩
    · exact ⟨coherent.1, Or.inl ⟨by simp [only], rfl⟩⟩
    · exact ⟨coherent.1, coherent.2.1, Or.inl (by simp [only])⟩
    · exact absurd ‹_› notClosed
    · exact coherent
  · intro _
    rcases noBytes with rfl | rfl <;> simp [inFlight, only]

theorem handleRead
    (coherent : Coherent r)
    (index : Nat) :
    Balanced r (r.handleRead index, []) := by
  by_cases isClosed : r.phase = .closed
  · unfold SerialReader.handleRead
    split
    · exact ⟨by rw [Coherent, isClosed]; trivial, by simp [isClosed], fun _ => rfl, id⟩
    · exact ⟨by rw [Coherent, isClosed]; trivial, by simp [isClosed], fun _ => rfl, id⟩
    · exact ⟨by rw [Coherent, isClosed]; trivial, by simp [isClosed], fun _ => rfl, id⟩
    · exact coherent.unchanged
  · unfold SerialReader.handleRead
    split
    · rename_i call bytes found
      obtain ⟨rfl, -, completed⟩ := coherent.alone isClosed found
      obtain ⟨phases, fits, nothing, within, holds⟩ := coherent.completed isClosed completed
      rw [Only] at completed
      refine ⟨?_, ?_, fun _ => rfl, id⟩
      · rcases phases with here | here | here
        · rw [Coherent, here]
          exact ⟨⟨fits.1, within⟩, Or.inl ⟨by simp [completed], rfl⟩⟩
        · rw [Coherent, here]
          exact ⟨⟨fits.1, within⟩, Or.inl ⟨by simp [completed], rfl⟩⟩
        · rw [Coherent, here]
          exact ⟨⟨fits.1, within⟩, Nat.zero_le _, Or.inl (by simp [completed])⟩
      · intro _
        rcases phases with here | here | here
        all_goals simp [inFlight, here, completed, nothing, holds]
    · rename_i call found
      obtain ⟨rfl, -, failed⟩ := coherent.alone isClosed found
      exact coherent.dismissed isClosed failed (Or.inl rfl)
    · rename_i call found
      obtain ⟨rfl, -, aborted⟩ := coherent.alone isClosed found
      exact coherent.dismissed isClosed aborted (Or.inr rfl)
    · exact coherent.unchanged

theorem step
    (coherent : Coherent r)
    {action : ReadAction}
    (inTime : r.HandledInTime action) :
    Balanced r (r.step action) := by
  cases action with
  | thread => exact coherent.threadStep inTime
  | fault =>
      unfold SerialReader.step
      dsimp only
      split_ifs with isWaiting
      · exact ⟨trivial, by simp, fun _ => rfl, fun _ => rfl⟩
      · exact coherent.unchanged
  | arrive index bytes => exact coherent.arrive inTime index bytes
  | fail index => exact coherent.fail index
  | handle index => exact coherent.handleRead index

end Coherent

/-! ## Runs -/

/-- What the parser got and what is still in flight make up what was read. -/
structure Accounted (r : SerialReader) (outputs : List ReadOutput) : Prop where
  coherent : Coherent r
  bytes : r.phase ≠ .closed →
    outputs.flatMap ReadOutput.fedBytes ++ r.inFlight = outputs.flatMap ReadOutput.takenBytes
  fed : outputs.flatMap ReadOutput.fedBytes <+: outputs.flatMap ReadOutput.takenBytes

theorem Accounted.step
    {r : SerialReader}
    {outputs : List ReadOutput}
    (accounted : Accounted r outputs)
    {action : ReadAction}
    (inTime : r.HandledInTime action) :
    Accounted (r.step action).1 (outputs ++ (r.step action).2) := by
  have balanced := accounted.coherent.step inTime
  by_cases isClosed : (r.step action).1.phase = .closed
  · rw [balanced.silent isClosed, List.append_nil]
    exact ⟨balanced.coherent, fun notClosed => absurd isClosed notClosed, accounted.fed⟩
  · have bytes : (outputs ++ (r.step action).2).flatMap ReadOutput.fedBytes ++
          (r.step action).1.inFlight =
        (outputs ++ (r.step action).2).flatMap ReadOutput.takenBytes := by
      rw [List.flatMap_append, List.append_assoc, balanced.bytes isClosed, ← List.append_assoc,
        accounted.bytes (fun wasClosed => isClosed (balanced.closed wasClosed)),
        List.flatMap_append]
    exact ⟨balanced.coherent, fun _ => bytes, ⟨_, bytes⟩⟩

/-- The parser runs over the bytes that are given to it. -/
theorem step_feeds (r : SerialReader) (action : ReadAction) :
    r.hdlc.feed ((r.step action).2.flatMap ReadOutput.fedBytes) =
      ((r.step action).1.hdlc, (r.step action).2.flatMap ReadOutput.packets) := by
  cases action with
  | thread =>
      unfold step threadStep
      dsimp only
      split <;> try rfl
      split_ifs
      · split
        · simp [ReadOutput.fedBytes, ReadOutput.packets, HDLC.feed]
        · rfl
      · rfl
  | fault =>
      unfold step
      dsimp only
      split <;> rfl
  | arrive index bytes =>
      unfold step arrive
      dsimp only
      split
      · split_ifs <;> rfl
      · rfl
  | fail index =>
      unfold step fail
      dsimp only
      split <;> rfl
  | handle index =>
      unfold step handleRead
      dsimp only
      split <;> rfl

theorem run_feeds (r : SerialReader) (actions : List ReadAction) :
    r.hdlc.feed ((Machine.run step r actions).2.flatMap ReadOutput.fedBytes) =
      ((Machine.run step r actions).1.hdlc,
        (Machine.run step r actions).2.flatMap ReadOutput.packets) := by
  induction actions generalizing r with
  | nil => rfl
  | cons action rest inductionHypothesis =>
      rw [Machine.run_cons]
      dsimp only
      rw [List.flatMap_append, List.flatMap_append, HDLC.feed_append, step_feeds,
        inductionHypothesis]

theorem run_accounted
    {actions : List ReadAction}
    (inTime : Machine.Meets step HandledInTime {} actions) :
    Accounted (Machine.run step {} actions).1 (Machine.run step {} actions).2 :=
  Machine.invariant_run Accounted (fun _ _ _ accounted inTime => accounted.step inTime)
    (⟨Coherent.initial, fun _ => rfl, List.nil_prefix⟩ : Accounted {} []) inTime

/-- However the bytes are spread over reads, and whatever reads fail or time out: as long as
handlers run in time, no read touches a buffer that is gone, the parser gets the bytes of the
port in order and none twice, and all but those in flight until an exception ends the loop. -/
theorem reads_lossless
    (actions : List ReadAction)
    (inTime : Machine.Meets step HandledInTime {} actions) :
    (Machine.run step {} actions).1.phase ≠ .undefined ∧
      (Machine.run step {} actions).2.flatMap ReadOutput.fedBytes <+:
        (Machine.run step {} actions).2.flatMap ReadOutput.takenBytes ∧
      ((Machine.run step {} actions).1.phase ≠ .closed →
        (Machine.run step {} actions).2.flatMap ReadOutput.fedBytes ++
            (Machine.run step {} actions).1.inFlight =
          (Machine.run step {} actions).2.flatMap ReadOutput.takenBytes) ∧
      (Machine.run step {} actions).2.flatMap ReadOutput.packets =
        (HDLC.fresh.feed ((Machine.run step {} actions).2.flatMap ReadOutput.fedBytes)).2 := by
  have accounted := run_accounted inTime
  refine ⟨?_, accounted.fed, accounted.bytes, ?_⟩
  · intro isUndefined
    have coherent := accounted.coherent
    rw [Coherent, isUndefined] at coherent
    exact coherent
  · exact (congrArg Prod.snd (run_feeds {} actions)).symm

/-- A read that times out and is aborted, and then one whose two bytes arrive. -/
def timeoutThenBytes : List ReadAction :=
  List.flatten [List.replicate 5 .thread, [.handle 0], List.replicate 3 .thread,
    [.arrive 0 [0x7E, 0x01], .handle 0], List.replicate 4 .thread]

theorem reads_lossless_example :
    (Machine.run step {} timeoutThenBytes).1.phase ≠ .undefined ∧
      (Machine.run step {} timeoutThenBytes).2.flatMap ReadOutput.fedBytes <+:
        (Machine.run step {} timeoutThenBytes).2.flatMap ReadOutput.takenBytes ∧
      ((Machine.run step {} timeoutThenBytes).1.phase ≠ .closed →
        (Machine.run step {} timeoutThenBytes).2.flatMap ReadOutput.fedBytes ++
            (Machine.run step {} timeoutThenBytes).1.inFlight =
          (Machine.run step {} timeoutThenBytes).2.flatMap ReadOutput.takenBytes) ∧
      (Machine.run step {} timeoutThenBytes).2.flatMap ReadOutput.packets =
        (HDLC.fresh.feed
          ((Machine.run step {} timeoutThenBytes).2.flatMap ReadOutput.fedBytes)).2 :=
  reads_lossless timeoutThenBytes (by decide +kernel)

/-- The handler of the aborted read runs after the next call has begun.  That call does not
wait, its read is left outstanding, and completes into a buffer that is gone. -/
example :
    (Machine.run step {} (List.replicate 6 .thread ++ [.handle 0] ++ List.replicate 3 .thread ++
      [.arrive 0 [0x7E, 0x01]])).1.phase = .undefined := by decide +kernel

end SerialReader

end SerialMux
