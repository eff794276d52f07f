import SerialMux.LogRotation
import SerialMux.SyncQueue

/-!
# The logging thread

Every thread may log a message, which goes into a queue; the logging thread takes the
messages from the queue and writes them.  `stop` clears the flag that the thread tests and
waits for the thread, which writes what is still queued before it ends.  A step opens the log
as a whole; under a running thread, which takes no lock when it writes, that is a race on the
stream.
-/

namespace SerialMux

open SyncQueue (SoleConsumer)

/-- The place of the logging thread in `logFromQueue`.  `drains` tells the second loop,
which empties the queue, from the first one. -/
inductive LogPhase
  | absent
  | testing (drains : Bool)
  | popping (drains : Bool)
  | waiting (drains : Bool)
  | writing (drains : Bool) (msg : ByteVector)
  | finished
  | crashed
  deriving DecidableEq, Repr

/-- There is no thread, or it has left its first loop. -/
def LogPhase.stops : LogPhase → Bool
  | .absent | .finished | .crashed => true
  | .testing drains | .popping drains | .waiting drains | .writing drains _ => drains

/-- The log and its thread, with the files of the system. -/
structure LogProcess where
  logger : BoostLog := {}
  files : Files
  msgQueue : SyncQueue ByteVector := {}
  isRunning : Bool := false
  phase : LogPhase := .absent

/-- `logger` is the next statement of the logging thread; in its wait, that is the end of
the wait.  `join` is the end of `stop`, which waits for the thread. -/
inductive LogAction
  | openLog (outLevel : LogLevel)
  | logMsg (msgLevel : LogLevel) (now msg : ByteVector)
  | logger
  | stop
  | join
  deriving DecidableEq, Repr

def LogAction.isLogger : LogAction → Bool
  | .logger => true
  | _ => false

def LogAction.isLogMsg : LogAction → Bool
  | .logMsg _ _ _ => true
  | _ => false

/-- A message that was queued, or a call on the log that was performed, with the rotation
that it made. -/
inductive LogOutput
  | accepted (entry : ByteVector)
  | performed (call : LogCall) (rotation : Option Rotation)

namespace LogOutput

def entry : LogOutput → List ByteVector
  | .accepted entry => [entry]
  | .performed _ _ => []

def call : LogOutput → List LogCall
  | .accepted _ => []
  | .performed call _ => [call]

def rotation : LogOutput → List Rotation
  | .accepted _ => []
  | .performed _ rotation => rotation.toList

end LogOutput

/-- The message of a call that writes one. -/
def LogCall.msg : LogCall → List ByteVector
  | .openLog _ => []
  | .writeMsg msg => [msg]

namespace BoostLog

/-- The filter by severity. -/
def accepts (logger : BoostLog) (msgLevel : LogLevel) : Bool :=
  logger.logLevel ≤ msgLevel.toInt || msgLevel == .always

/-- A message with the time at which it was logged. -/
def logEntry (now msg : ByteVector) : ByteVector :=
  now ++ asciiBytes "," ++ msg

end BoostLog

namespace LogProcess

/-- The logging thread as a consumer of the queue. -/
def logThread : Nat := 0

/-- A log that has just been constructed. -/
def constructed (files : Files) : LogProcess where
  files := files

/-- Where the thread goes on after `timedPop`.  The second loop does not look at the result:
without a message it writes an empty one. -/
def returned (drains : Bool) : List (QueueOutput ByteVector) → LogPhase
  | [.popped _ msg] => .writing drains msg
  | [.missed _] => if drains then .writing true [] else .testing false
  | _ => .waiting drains

/-- A statement of the thread that acts on the queue. -/
def onQueue (p : LogProcess) (drains : Bool) (action : QueueAction ByteVector) : LogProcess :=
  { p with
    msgQueue := (p.msgQueue.step action).1
    phase := returned drains (p.msgQueue.step action).2 }

/-- `start`: the thread begins with its first loop. -/
def start (p : LogProcess) : LogProcess :=
  if p.isRunning then p else { p with isRunning := true, phase := .testing false }

/-- Queue a message unless its level is too low. -/
def logMsg (p : LogProcess) (msgLevel : LogLevel) (now msg : ByteVector) :
    LogProcess × List LogOutput :=
  if p.logger.accepts msgLevel then
    ({ p with msgQueue := p.msgQueue.push (BoostLog.logEntry now msg) 0 },
      [.accepted (BoostLog.logEntry now msg)])
  else (p, [])

section

variable (permits : FileCall → Bool)
variable (filename : FileName) (numBackups : Nat) (maxLogSize : Int)

/-- A call that the thread or `openLog` performs on the log. -/
def perform (p : LogProcess) (call : LogCall) : Option (LogProcess × List LogOutput) := do
  let (logger, files) ← call.perform permits filename numBackups maxLogSize (p.logger, p.files)
  return ({ p with logger := logger, files := files },
    [.performed call
      (call.rotation permits filename numBackups maxLogSize (p.logger, p.files))])

/-- The next statement of `logFromQueue`. -/
def loggerStep (p : LogProcess) : LogProcess × List LogOutput :=
  match p.phase with
  | .testing false =>
      ({ p with phase := if p.isRunning then .popping false else .testing true }, [])
  | .testing true =>
      ({ p with phase := if p.msgQueue.empty then .finished else .popping true }, [])
  | .popping drains => (p.onQueue drains (.enter logThread), [])
  | .waiting drains =>
      if logThread ∈ p.msgQueue.cond.blocked then
        (p.onQueue drains (.expire logThread), [])
      else (p.onQueue drains (.resume logThread), [])
  | .writing drains msg =>
      match p.perform permits filename numBackups maxLogSize (.writeMsg msg) with
      | some (written, outputs) => ({ written with phase := .testing drains }, outputs)
      | none => ({ p with phase := .crashed }, [])
  | .absent | .finished | .crashed => (p, [])

/-- Open the log and start its thread. -/
def openLog (p : LogProcess) (outLevel : LogLevel) : LogProcess × List LogOutput :=
  match p.perform permits filename numBackups maxLogSize (.openLog outLevel) with
  | some (opened, outputs) => (opened.start, outputs)
  | none => (p, [])

def step (p : LogProcess) : LogAction → LogProcess × List LogOutput
  | .openLog outLevel => p.openLog permits filename numBackups maxLogSize outLevel
  | .logMsg msgLevel now msg => p.logMsg msgLevel now msg
  | .logger => p.loggerStep permits filename numBackups maxLogSize
  | .stop => ({ p with isRunning := false }, [])
  | .join =>
      (if p.phase = .finished ∧ ¬p.isRunning then { p with phase := .absent } else p, [])

end

/-- The log is opened while there is no logging thread. -/
def OpensAlone (p : LogProcess) : LogAction → Prop
  | .openLog _ => p.phase = .absent
  | .logMsg _ _ _ | .logger | .stop | .join => True

instance (p : LogProcess) : (action : LogAction) → Decidable (OpensAlone p action)
  | .openLog _ => inferInstanceAs (Decidable (_ = _))
  | .logMsg _ _ _ | .logger | .stop | .join => isTrue trivial

theorem opensAlone_of_ne
    {action : LogAction}
    (notOpen : ∀ outLevel, action ≠ .openLog outLevel)
    (p : LogProcess) :
    p.OpensAlone action := by
  cases action with
  | openLog outLevel => exact absurd rfl (notOpen outLevel)
  | logMsg | logger | stop | join => trivial

/-- The message that the thread has taken from the queue and not written yet. -/
def held (p : LogProcess) : List ByteVector :=
  match p.phase with
  | .writing _ msg => [msg]
  | _ => []

/-- The messages that are accepted and not written yet. -/
def pending (p : LogProcess) : List ByteVector := p.held ++ p.msgQueue.queue

/-! ## The queue and the thread -/

/-- The thread is the only consumer of the queue, is in `timedPop` exactly while it waits,
and calls `timedPop` from its second loop only if there is a message. -/
structure Attended (p : LogProcess) : Prop where
  sole : SoleConsumer logThread p.msgQueue
  inside : (logThread ∈ p.msgQueue.cond.inside) ↔ ∃ drains, p.phase = .waiting drains
  drains : p.phase = .popping true → p.msgQueue.queue ≠ []
  waits : p.phase ≠ .waiting true

/-- A statement that leaves the messages and the log alone. -/
structure Idles (p next : LogProcess) : Prop where
  attended : Attended next
  logger : next.logger = p.logger
  files : next.files = p.files
  isRunning : next.isRunning = p.isRunning
  pending : next.pending = p.pending
  absent : p.phase = .absent → next.phase = .absent
  intact : p.phase ≠ .crashed → next.phase ≠ .crashed
  runs : p.isRunning = true → p.phase.stops = false → next.phase.stops = false

namespace Attended

variable {p : LogProcess} {drains : Bool}

theorem constructed (files : Files) : Attended (constructed files) where
  sole := SoleConsumer.fresh
  inside := by simp [LogProcess.constructed, ConditionVariable.inside]
  drains := by simp [LogProcess.constructed]
  waits := by simp [LogProcess.constructed]

/-- Outside `timedPop` the thread may go to any other place. -/
theorem goTo
    (attended : Attended p)
    (outside : ∀ drains, p.phase ≠ .waiting drains)
    {phase : LogPhase}
    (elsewhere : ∀ drains, phase ≠ .waiting drains)
    (drains : phase = .popping true → p.msgQueue.queue ≠ []) :
    Attended { p with phase := phase } where
  sole := attended.sole
  inside := by
    rw [attended.inside]
    exact iff_of_false (fun ⟨drains, same⟩ => outside drains same)
      fun ⟨drains, same⟩ => elsewhere drains same
  drains := drains
  waits := elsewhere true

/-- A message that is taken from the queue is held. -/
theorem taken
    {el : ByteVector}
    {rest : List ByteVector}
    (shape : p.msgQueue.queue = el :: rest)
    (nothingHeld : p.held = [])
    (present : p.phase ≠ .absent)
    (stays : p.phase.stops = drains)
    {cond : ConditionVariable Nat}
    (left : cond.inside = []) :
    p.Idles { p with
      msgQueue := { queue := rest, cond := cond }
      phase := .writing drains el } where
  attended := by
    obtain ⟨noneBlocked, -⟩ := List.append_eq_nil_iff.mp left
    constructor
    · exact ⟨by simp [left], by simp [left], fun _ => noneBlocked⟩
    · simp [left]
    · simp
    · simp
  logger := rfl
  files := rfl
  isRunning := rfl
  pending := by
    rw [pending, pending, nothingHeld, shape]
    rfl
  absent isAbsent := absurd isAbsent present
  intact _ := by simp
  runs _ := by
    rw [stays]
    exact id

/-- A thread that is not waiting is not in `timedPop`, and neither is any other. -/
theorem nobody_inside
    (attended : Attended p)
    (outside : ∀ drains, p.phase ≠ .waiting drains) :
    p.msgQueue.cond.inside = [] := by
  refine List.eq_nil_iff_forall_not_mem.mpr fun thread member => ?_
  have isThread := attended.sole.alone thread member
  subst isThread
  obtain ⟨drains, isWaiting⟩ := attended.inside.mp member
  exact outside drains isWaiting

theorem onQueue_enter_nil
    (attended : Attended p)
    (isPopping : p.phase = .popping drains)
    (shape : p.msgQueue.queue = []) :
    p.onQueue drains (.enter logThread) =
      { p with
        msgQueue := { p.msgQueue with cond := p.msgQueue.cond.wait logThread }
        phase := .waiting drains } := by
  have nobody := attended.nobody_inside (by simp [isPopping])
  simp [onQueue, SyncQueue.step, nobody, shape, returned]

theorem onQueue_enter_cons
    (attended : Attended p)
    (isPopping : p.phase = .popping drains)
    {el : ByteVector}
    {rest : List ByteVector}
    (shape : p.msgQueue.queue = el :: rest) :
    p.onQueue drains (.enter logThread) =
      { p with
        msgQueue := { queue := rest, cond := p.msgQueue.cond }
        phase := .writing drains el } := by
  have nobody := attended.nobody_inside (by simp [isPopping])
  simp [onQueue, SyncQueue.step, nobody, shape, SyncQueue.takeFront, SyncQueue.popOutput, returned]

/-- Entering `timedPop`: the second loop finds a message, the first one may have to wait. -/
theorem enter
    (attended : Attended p)
    (isPopping : p.phase = .popping drains) :
    p.Idles (p.onQueue drains (.enter logThread)) := by
  have nobody := attended.nobody_inside (by simp [isPopping])
  have nothingHeld : p.held = [] := by rw [held, isPopping]
  cases shape : p.msgQueue.queue with
  | nil =>
      have first : drains = false := by
        cases drains with
        | false => rfl
        | true => exact absurd shape (attended.drains isPopping)
      subst first
      have sole : SoleConsumer logThread (p.msgQueue.step (.enter logThread)).1 :=
        attended.sole.step fun thread same => by
          cases same
          rfl
      have waits : (p.msgQueue.step (.enter logThread)).1 =
          { p.msgQueue with cond := p.msgQueue.cond.wait logThread } := by
        simp [SyncQueue.step, nobody, shape]
      rw [waits] at sole
      rw [attended.onQueue_enter_nil isPopping shape]
      refine ⟨⟨sole, ?_, ?_, ?_⟩, rfl, rfl, rfl, ?_, ?_, ?_, fun _ _ => rfl⟩
      · simp [ConditionVariable.inside, ConditionVariable.wait]
      · simp
      · simp
      · rw [pending, pending, nothingHeld]
        rfl
      · simp [isPopping]
      · simp
  | cons el rest =>
      rw [attended.onQueue_enter_cons isPopping shape]
      exact taken shape nothingHeld (by simp [isPopping]) (by rw [isPopping]; rfl) nobody

/-- A thread that is not blocked in its wait has been woken. -/
theorem woken
    (attended : Attended p)
    (isWaiting : p.phase = .waiting drains)
    (notBlocked : logThread ∉ p.msgQueue.cond.blocked) :
    p.msgQueue.cond.blocked = [] ∧ p.msgQueue.cond.woken = [logThread] := by
  have inside := attended.inside.mpr ⟨drains, isWaiting⟩
  have woken := (List.mem_append.mp inside).resolve_left notBlocked
  have once := attended.sole.once
  rw [ConditionVariable.inside, List.length_append] at once
  have some := List.length_pos_of_mem woken
  refine ⟨List.length_eq_zero_iff.mp (by omega), ?_⟩
  obtain ⟨other, only⟩ := List.length_eq_one_iff.mp
    (show p.msgQueue.cond.woken.length = 1 by omega)
  rw [only, List.mem_singleton] at woken
  rw [only, woken]

theorem onQueue_resume_nil
    (attended : Attended p)
    (isWaiting : p.phase = .waiting false)
    (notBlocked : logThread ∉ p.msgQueue.cond.blocked)
    (shape : p.msgQueue.queue = []) :
    p.onQueue false (.resume logThread) = { p with msgQueue := {}, phase := .testing false } := by
  obtain ⟨noneBlocked, only⟩ := attended.woken isWaiting notBlocked
  simp [onQueue, SyncQueue.step, only, shape, SyncQueue.takeFront, SyncQueue.popOutput, returned,
    ConditionVariable.resume, noneBlocked]

theorem onQueue_resume_cons
    (attended : Attended p)
    (isWaiting : p.phase = .waiting false)
    {el : ByteVector}
    {rest : List ByteVector}
    (shape : p.msgQueue.queue = el :: rest) :
    p.onQueue false (.resume logThread) =
      { p with msgQueue := { queue := rest }, phase := .writing false el } := by
  have inside := attended.inside.mpr ⟨false, isWaiting⟩
  rw [onQueue, attended.sole.resume inside shape]
  rfl

/-- The wait ends: the thread takes a message, or goes back to its test if there is none. -/
theorem resume
    (attended : Attended p)
    (isWaiting : p.phase = .waiting drains)
    (notBlocked : logThread ∉ p.msgQueue.cond.blocked) :
    p.Idles (p.onQueue drains (.resume logThread)) := by
  have first : drains = false := by
    cases drains with
    | false => rfl
    | true => exact absurd isWaiting attended.waits
  subst first
  have nothingHeld : p.held = [] := by rw [held, isWaiting]
  cases shape : p.msgQueue.queue with
  | nil =>
      rw [attended.onQueue_resume_nil isWaiting notBlocked shape]
      refine ⟨⟨SoleConsumer.fresh, ?_, ?_, ?_⟩, rfl, rfl, rfl, ?_, ?_, ?_, fun _ _ => rfl⟩
      · simp [ConditionVariable.inside]
      · simp
      · simp
      · rw [pending, pending, nothingHeld, shape]
        rfl
      · simp [isWaiting]
      · simp
  | cons el rest =>
      rw [attended.onQueue_resume_cons isWaiting shape]
      exact taken shape nothingHeld (by simp [isWaiting]) (by rw [isWaiting]; rfl) rfl

/-- The timeout, or a wake-up without a reason. -/
theorem expire
    (attended : Attended p)
    (isWaiting : p.phase = .waiting drains) :
    p.Idles (p.onQueue drains (.expire logThread)) := by
  have sole : SoleConsumer logThread (p.msgQueue.step (.expire logThread)).1 :=
    attended.sole.step fun thread same => by cases same
  have inside := (p.msgQueue.cond.expire_inside logThread).mem_iff (a := logThread)
  have phase : (p.onQueue drains (.expire logThread)).phase = p.phase := by
    rw [isWaiting]
    rfl
  refine ⟨⟨sole, ?_, ?_, ?_⟩, rfl, rfl, rfl, ?_, ?_, ?_, ?_⟩
  · rw [phase, ← attended.inside]
    exact inside
  · rw [phase]
    exact attended.drains
  · rw [phase]
    exact attended.waits
  · rw [pending, pending, held, held, phase]
    rfl
  · exact phase.trans
  · rw [phase]
    exact id
  · rw [phase]
    exact fun _ => id

end Attended

/-- The thread is at a statement that writes a message. -/
def IsWriting (p : LogProcess) : Prop := ∃ drains msg, p.phase = .writing drains msg

section

variable (permits : FileCall → Bool)
variable (filename : FileName) (numBackups : Nat) (maxLogSize : Int)

/-- A statement of the thread that writes nothing. -/
theorem Attended.loggerStep
    {p : LogProcess}
    (attended : Attended p)
    (notWriting : ¬p.IsWriting) :
    p.Idles (p.loggerStep permits filename numBackups maxLogSize).1 ∧
      (p.loggerStep permits filename numBackups maxLogSize).2 = [] := by
  unfold LogProcess.loggerStep
  split
  · rename_i isTesting
    refine ⟨⟨attended.goTo (by simp [isTesting]) ?_ ?_, rfl, rfl, rfl, ?_, ?_, ?_, ?_⟩, rfl⟩
    · intro drains
      split <;> simp
    · split <;> simp
    · unfold pending held
      rw [isTesting]
      dsimp only
      split_ifs <;> rfl
    · simp [isTesting]
    · split <;> simp
    · intro running _
      rw [running]
      rfl
  · rename_i isTesting
    refine ⟨⟨attended.goTo (by simp [isTesting]) ?_ ?_, rfl, rfl, rfl, ?_, ?_, ?_, ?_⟩, rfl⟩
    · intro drains
      split <;> simp
    · split_ifs with isEmpty
      · simp
      · rw [SyncQueue.empty, List.isEmpty_iff] at isEmpty
        exact fun _ => isEmpty
    · unfold pending held
      rw [isTesting]
      dsimp only
      split_ifs <;> rfl
    · simp [isTesting]
    · split <;> simp
    · simp [isTesting, LogPhase.stops]
  · rename_i isPopping
    exact ⟨attended.enter isPopping, rfl⟩
  · rename_i isWaiting
    split_ifs with blocked
    · exact ⟨attended.expire isWaiting, rfl⟩
    · exact ⟨attended.resume isWaiting blocked, rfl⟩
  · rename_i isWriting
    exact absurd ⟨_, _, isWriting⟩ notWriting
  all_goals exact ⟨⟨attended, rfl, rfl, rfl, rfl, id, id, fun _ => id⟩, rfl⟩

end

end LogProcess

end SerialMux
