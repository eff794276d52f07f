import SerialMux.LogThread

/-!
# The log under many threads

Whatever the threads do and in whatever order, the files of the log and the messages that
are still to be written make up all that was accepted, and a thread that is stopped ends
with nothing left to write.
-/

namespace SerialMux

/-! ## Calls one after the other -/

section

variable {permits : FileCall → Bool}
variable {filename : FileName} {numBackups : Nat} {maxLogSize : Int}

theorem performAll_append_singleton
    {state middle next : BoostLog × Files}
    {calls : List LogCall}
    {rotations : List Rotation}
    {call : LogCall}
    (performs : performAll permits filename numBackups maxLogSize state calls =
      some (middle, rotations))
    (last : call.perform permits filename numBackups maxLogSize middle = some next) :
    performAll permits filename numBackups maxLogSize state (calls ++ [call]) =
      some (next, rotations ++
        (call.rotation permits filename numBackups maxLogSize middle).toList) := by
  induction calls generalizing state rotations with
  | nil =>
      cases performs
      simp [performAll, last]
  | cons first rest inductionHypothesis =>
      rw [performAll, Option.bind_eq_bind, Option.bind_eq_some_iff] at performs
      obtain ⟨second, performsFirst, performs⟩ := performs
      rw [Option.bind_eq_bind, Option.bind_eq_some_iff] at performs
      obtain ⟨⟨reached, others⟩, performsRest, same⟩ := performs
      cases same
      rw [List.cons_append, performAll, performsFirst, Option.bind_eq_bind, Option.bind_some,
        inductionHypothesis performsRest]
      simp

theorem RunSimulates.append_singleton
    {state middle next : BoostLog × Files}
    {calls : List LogCall}
    {rotations : List Rotation}
    {call : LogCall}
    (run : RunSimulates permits filename numBackups maxLogSize calls state middle rotations)
    (last : call.Simulates permits filename numBackups maxLogSize middle next) :
    RunSimulates permits filename numBackups maxLogSize (calls ++ [call]) state next
      (rotations ++ (call.rotation permits filename numBackups maxLogSize middle).toList) where
  performs := performAll_append_singleton run.performs last.performs
  shifts := by
    intro rotation member
    rcases List.mem_append.mp member with earlier | now
    · exact run.shifts rotation earlier
    · exact last.shifts rotation (Option.mem_toList.mp now)
  untouched := by
    intro name unrelated
    rw [last.untouched name unrelated, run.untouched name unrelated]
  window := by
    obtain ⟨operations, written, window⟩ := run.window
    obtain ⟨others, writtenLast, windowLast⟩ := last.window
    refine ⟨operations ++ others, ?_, ?_⟩
    · rw [List.flatMap_append, written, writtenLast, List.flatMap_append]
      simp
    · rw [Machine.run_append, window, windowLast, List.map_append]

end

namespace LogProcess

/-! ## Runs -/

/-- The messages that were written. -/
def written (outputs : List LogOutput) : List ByteVector :=
  (outputs.flatMap LogOutput.call).flatMap LogCall.msg

/-- The log after a run: the calls that were performed took the files from their first state
to the present one, and the messages written, followed by those pending, are the messages
accepted. -/
structure Recorded
    (permits : FileCall → Bool)
    (filename : FileName)
    (numBackups : Nat)
    (maxLogSize : Int)
    (files : Files)
    (p : LogProcess)
    (outputs : List LogOutput) :
    Prop where
  attended : Attended p
  messages : written outputs ++ p.pending = outputs.flatMap LogOutput.entry
  calls : RunSimulates permits filename numBackups maxLogSize
    (outputs.flatMap LogOutput.call) ({}, files) (p.logger, p.files)
    (outputs.flatMap LogOutput.rotation)
  ready : p.phase ≠ .absent → Ready filename numBackups maxLogSize (p.logger, p.files)
  runs : p.isRunning = true → p.phase.stops = false
  intact : p.phase ≠ .crashed

section

variable {permits : FileCall → Bool}
variable {filename : FileName} {numBackups : Nat} {maxLogSize : Int}
variable {files : Files} {p : LogProcess} {outputs : List LogOutput}

theorem Recorded.constructed (files : Files) :
    Recorded permits filename numBackups maxLogSize files (constructed files) [] where
  attended := Attended.constructed files
  messages := rfl
  calls := ⟨rfl, by simp, fun _ _ => rfl, [], rfl, rfl⟩
  ready present := absurd rfl present
  runs running := by cases running
  intact := by simp [LogProcess.constructed]

/-- A statement that neither accepts nor writes a message. -/
theorem Recorded.idle
    (recorded : Recorded permits filename numBackups maxLogSize files p outputs)
    {next : LogProcess}
    (idles : p.Idles next) :
    Recorded permits filename numBackups maxLogSize files next (outputs ++ []) where
  attended := idles.attended
  messages := by
    rw [List.append_nil, idles.pending]
    exact recorded.messages
  calls := by
    rw [List.append_nil, idles.logger, idles.files]
    exact recorded.calls
  ready present := by
    rw [idles.logger, idles.files]
    exact recorded.ready fun absent => present (idles.absent absent)
  runs running := by
    rw [idles.isRunning] at running
    exact idles.runs running (recorded.runs running)
  intact := idles.intact recorded.intact

/-- A message is accepted. -/
theorem Recorded.logMsg
    (recorded : Recorded permits filename numBackups maxLogSize files p outputs)
    (msgLevel : LogLevel)
    (now msg : ByteVector) :
    Recorded permits filename numBackups maxLogSize files (p.logMsg msgLevel now msg).1
      (outputs ++ (p.logMsg msgLevel now msg).2) := by
  unfold LogProcess.logMsg
  split_ifs with accepts
  · have attended := recorded.attended
    constructor
    · refine ⟨attended.sole.push _ _, ?_, ?_, attended.waits⟩
      · rw [← attended.inside]
        unfold SyncQueue.push
        dsimp only
        split_ifs
        · exact (p.msgQueue.cond.notifyOne_inside 0).mem_iff
        · exact Iff.rfl
      · simp [SyncQueue.push]
    · have messages := recorded.messages
      rw [List.flatMap_append, ← messages]
      simp [written, pending, held, SyncQueue.push, LogOutput.call, LogOutput.entry]
    · simpa [LogOutput.call, LogOutput.rotation] using recorded.calls
    · exact recorded.ready
    · exact recorded.runs
    · exact recorded.intact
  · rw [List.append_nil]
    exact recorded

/-- A call is performed, and the thread goes on outside `timedPop`. -/
theorem Recorded.perform
    (recorded : Recorded permits filename numBackups maxLogSize files p outputs)
    {call : LogCall}
    {next : BoostLog × Files}
    (simulates : call.Simulates permits filename numBackups maxLogSize (p.logger, p.files) next)
    (held : p.held = call.msg)
    (outside : ∀ drains, p.phase ≠ .waiting drains)
    {phase : LogPhase}
    {isRunning : Bool}
    (testing : ∃ drains, phase = .testing drains)
    (runs : isRunning = true → phase.stops = false) :
    Recorded permits filename numBackups maxLogSize files
      { p with logger := next.1, files := next.2, phase := phase, isRunning := isRunning }
      (outputs ++ [.performed call
        (call.rotation permits filename numBackups maxLogSize (p.logger, p.files))]) := by
  obtain ⟨drains, rfl⟩ := testing
  have attended : Attended { p with phase := .testing drains } :=
    recorded.attended.goTo outside (by simp) (by simp)
  constructor
  · exact ⟨attended.sole, attended.inside, attended.drains, attended.waits⟩
  · have messages := recorded.messages
    rw [pending, held, ← List.append_assoc] at messages
    rw [List.flatMap_append, ← messages]
    simp [written, pending, LogProcess.held, LogOutput.call, LogOutput.entry]
  · simpa [LogOutput.call, LogOutput.rotation] using recorded.calls.append_singleton simulates
  · exact fun _ => simulates.ready
  · exact runs
  · simp

theorem Recorded.step
    (succeeds : ∀ call, permits call = true)
    (positive : 0 < maxLogSize)
    (recorded : Recorded permits filename numBackups maxLogSize files p outputs)
    {action : LogAction}
    (opensAlone : p.OpensAlone action) :
    Recorded permits filename numBackups maxLogSize files
      (p.step permits filename numBackups maxLogSize action).1
      (outputs ++ (p.step permits filename numBackups maxLogSize action).2) := by
  have attended := recorded.attended
  cases action with
  | openLog outLevel =>
      have isAbsent : p.phase = .absent := opensAlone
      obtain ⟨next, simulates⟩ := openLog_simulates succeeds filename numBackups maxLogSize
        outLevel (p.logger, p.files)
      have stopped : p.isRunning = false := by
        by_contra running
        rw [Bool.not_eq_false] at running
        have alive := recorded.runs running
        rw [isAbsent] at alive
        cases alive
      unfold LogProcess.step LogProcess.openLog
      dsimp only
      rw [LogProcess.perform, simulates.performs]
      dsimp only [Option.bind_eq_bind, Option.bind_some, Option.pure_def, start]
      rw [stopped]
      exact recorded.perform simulates (by rw [LogProcess.held, isAbsent]; rfl)
        (by simp [isAbsent]) ⟨false, rfl⟩ fun _ => rfl
  | logMsg msgLevel now msg => exact recorded.logMsg msgLevel now msg
  | logger =>
      by_cases isWriting : p.IsWriting
      · obtain ⟨drains, msg, isWriting⟩ := isWriting
        obtain ⟨next, simulates⟩ := writeMsg_simulates succeeds positive
          (recorded.ready (by simp [isWriting])) msg
        have writes : p.loggerStep permits filename numBackups maxLogSize =
            ({ p with logger := next.1, files := next.2, phase := .testing drains },
              [.performed (.writeMsg msg) ((LogCall.writeMsg msg).rotation permits filename
                numBackups maxLogSize (p.logger, p.files))]) := by
          unfold LogProcess.loggerStep
          rw [isWriting]
          dsimp only
          rw [LogProcess.perform, simulates.performs]
          rfl
        change Recorded _ _ _ _ _ (p.loggerStep permits filename numBackups maxLogSize).1
          (outputs ++ (p.loggerStep permits filename numBackups maxLogSize).2)
        rw [writes]
        refine recorded.perform simulates (by rw [LogProcess.held, isWriting]; rfl)
          (by simp [isWriting]) ⟨drains, rfl⟩ fun running => ?_
        have alive := recorded.runs running
        rw [isWriting] at alive
        exact alive
      · obtain ⟨idles, silent⟩ :=
          attended.loggerStep permits filename numBackups maxLogSize isWriting
        change Recorded _ _ _ _ _ (p.loggerStep permits filename numBackups maxLogSize).1
          (outputs ++ (p.loggerStep permits filename numBackups maxLogSize).2)
        rw [silent]
        exact recorded.idle idles
  | stop =>
      change Recorded _ _ _ _ _ { p with isRunning := false } (outputs ++ [])
      rw [List.append_nil]
      exact ⟨⟨attended.sole, attended.inside, attended.drains, attended.waits⟩, recorded.messages,
        recorded.calls, recorded.ready, by simp, recorded.intact⟩
  | join =>
      unfold LogProcess.step
      dsimp only
      split_ifs with ended
      · have gone : Attended { p with phase := .absent } :=
          attended.goTo (by simp [ended.1]) (by simp) (by simp)
        have messages := recorded.messages
        have nothingHeld : p.held = [] := by rw [held, ended.1]
        rw [List.append_nil]
        refine ⟨gone, ?_, recorded.calls, by simp, ?_, by simp⟩
        · rw [← messages, pending, pending, nothingHeld]
          rfl
        · exact fun running => absurd running ended.2
      · rw [List.append_nil]
        exact recorded

end

theorem recorded_run
    {permits : FileCall → Bool}
    (succeeds : ∀ call, permits call = true)
    (filename : FileName)
    (numBackups : Nat)
    {maxLogSize : Int}
    (positive : 0 < maxLogSize)
    (files : Files)
    {actions : List LogAction}
    (opensAlone : Machine.Meets (step permits filename numBackups maxLogSize) OpensAlone
      (constructed files) actions) :
    Recorded permits filename numBackups maxLogSize files
      (Machine.run (step permits filename numBackups maxLogSize) (constructed files) actions).1
      (Machine.run (step permits filename numBackups maxLogSize) (constructed files) actions).2 :=
  Machine.invariant_run
    (Recorded permits filename numBackups maxLogSize files)
    (fun _ _ _ recorded opensAlone => recorded.step succeeds positive opensAlone)
    (Recorded.constructed files) opensAlone

/-- What was dropped, what the files hold and what is still to be written make up what the files
held at first and the accepted messages. -/
theorem Recorded.conserves
    {permits : FileCall → Bool}
    {filename : FileName}
    {numBackups : Nat}
    {maxLogSize : Int}
    {files : Files}
    {p : LogProcess}
    {outputs : List LogOutput}
    (recorded : Recorded permits filename numBackups maxLogSize files p outputs) :
    ((outputs.flatMap LogOutput.rotation).map fun rotation =>
          logContents filename rotation.before numBackups).flatten ++
        logText filename numBackups p.files ++ p.pending.flatMap BoostLog.line =
      logText filename numBackups files ++
        (outputs.flatMap LogOutput.entry).flatMap BoostLog.line := by
  obtain ⟨operations, content, window⟩ := recorded.calls.window
  have nonempty : logWindow filename numBackups files ≠ [] := by
    rw [logWindow_eq_cons]
    exact List.cons_ne_nil _ _
  have conserved := RollingWindow.run_conserves nonempty operations
  rw [window, content] at conserved
  have lines (calls : List LogCall) :
      calls.flatMap LogCall.written = (calls.flatMap LogCall.msg).flatMap BoostLog.line := by
    rw [List.flatMap_assoc]
    refine List.flatMap_congr fun call _ => ?_
    cases call <;> simp [LogCall.written, LogCall.msg]
  rw [logText, conserved, lines, ← recorded.messages, List.flatMap_append, List.append_assoc]
  rfl

/-- Whatever the order in which threads log messages, the logging thread writes them and the
log is opened and stopped: as long as no call fails and the log is opened only while there is no
logging thread, nothing that was accepted is lost, repeated or moved.  What the rotations
dropped, followed by what the files hold, followed by what the thread still has to
write, is what the files held at first, followed by all accepted messages in order. -/
theorem log_conserved
    {permits : FileCall → Bool}
    (succeeds : ∀ call, permits call = true)
    (filename : FileName)
    (numBackups : Nat)
    {maxLogSize : Int}
    (positive : 0 < maxLogSize)
    (files : Files)
    (actions : List LogAction)
    (opensAlone : Machine.Meets (step permits filename numBackups maxLogSize) OpensAlone
      (constructed files) actions)
    {p : LogProcess}
    {outputs : List LogOutput}
    (reached : Machine.run (step permits filename numBackups maxLogSize) (constructed files)
      actions = (p, outputs)) :
    p.phase ≠ .crashed ∧
      (∀ rotation ∈ outputs.flatMap LogOutput.rotation, rotation.Shifts filename numBackups) ∧
      (∀ name, Unrelated filename numBackups name → p.files name = files name) ∧
      ((outputs.flatMap LogOutput.rotation).map fun rotation =>
            logContents filename rotation.before numBackups).flatten ++
          logText filename numBackups p.files ++ p.pending.flatMap BoostLog.line =
        logText filename numBackups files ++
          (outputs.flatMap LogOutput.entry).flatMap BoostLog.line := by
  have recorded : Recorded permits filename numBackups maxLogSize files p outputs := by
    have run := recorded_run succeeds filename numBackups positive files opensAlone
    rwa [reached] at run
  exact ⟨recorded.intact, recorded.calls.shifts, recorded.calls.untouched, recorded.conserves⟩

/-- A message that is logged before the log is opened, one whose level is too low and one
that is always logged, while the thread has written the first. -/
def mixedLevels : List LogAction :=
  [.logMsg .trace (asciiBytes "1") (asciiBytes "early"), .openLog .warning,
    .logMsg .info (asciiBytes "2") (asciiBytes "low"),
    .logMsg .always (asciiBytes "3") (asciiBytes "always")] ++ List.replicate 3 .logger

theorem log_conserved_example :
    ∃ p outputs,
      Machine.run (step (fun _ => true) (asciiBytes "mux.log") 1 4) (constructed fun _ => none)
        mixedLevels = (p, outputs) ∧
      p.phase ≠ .crashed ∧
      (∀ rotation ∈ outputs.flatMap LogOutput.rotation,
        rotation.Shifts (asciiBytes "mux.log") 1) ∧
      (∀ name, Unrelated (asciiBytes "mux.log") 1 name → p.files name = none) ∧
      ((outputs.flatMap LogOutput.rotation).map fun rotation =>
            logContents (asciiBytes "mux.log") rotation.before 1).flatten ++
          logText (asciiBytes "mux.log") 1 p.files ++ p.pending.flatMap BoostLog.line =
        logText (asciiBytes "mux.log") 1 (fun _ => none) ++
          (outputs.flatMap LogOutput.entry).flatMap BoostLog.line :=
  ⟨_, _, rfl, log_conserved (fun _ => rfl) (asciiBytes "mux.log") 1 (by decide) (fun _ => none)
    mixedLevels (by decide +kernel) rfl⟩

/-! ## Stopping -/

/-- A bound on the statements before a thread that is stopped has ended. -/
def rank (p : LogProcess) : Nat :=
  match p.phase with
  | .absent | .finished | .crashed => 0
  | .popping true => 3 * p.msgQueue.queue.length
  | .testing true => 3 * p.msgQueue.queue.length + 1
  | .testing false | .writing true _ => 3 * p.msgQueue.queue.length + 2
  | .writing false _ => 3 * p.msgQueue.queue.length + 3
  | .waiting _ =>
      3 * p.msgQueue.queue.length + if logThread ∈ p.msgQueue.cond.blocked then 4 else 3
  | .popping false => 3 * p.msgQueue.queue.length + 5

section

variable {permits : FileCall → Bool}
variable {filename : FileName} {numBackups : Nat} {maxLogSize : Int}
variable {files : Files} {p : LogProcess} {outputs : List LogOutput}

/-- Every statement of a stopped thread brings it nearer to its end. -/
theorem Recorded.loggerStep_rank
    (succeeds : ∀ call, permits call = true)
    (positive : 0 < maxLogSize)
    (recorded : Recorded permits filename numBackups maxLogSize files p outputs)
    (stopped : p.isRunning = false)
    (goesOn : 0 < p.rank) :
    (p.loggerStep permits filename numBackups maxLogSize).1.rank < p.rank := by
  have attended := recorded.attended
  unfold LogProcess.loggerStep
  split
  · rename_i isTesting
    rw [stopped, rank, rank, isTesting]
    dsimp only [Bool.false_eq_true, if_false]
    simp
  · rename_i isTesting
    rw [rank, rank, isTesting]
    cases p.msgQueue.empty <;> simp
  · rename_i drains isPopping
    cases shape : p.msgQueue.queue with
    | nil =>
        cases drains with
        | true => exact absurd shape (attended.drains isPopping)
        | false =>
            rw [attended.onQueue_enter_nil isPopping shape, rank, rank, isPopping]
            simp [ConditionVariable.wait]
    | cons el rest =>
        rw [attended.onQueue_enter_cons isPopping shape, rank, rank, isPopping]
        cases drains <;> simp [shape] <;> omega
  · rename_i drains isWaiting
    have first : drains = false := by
      cases drains with
      | false => rfl
      | true => exact absurd isWaiting attended.waits
    subst first
    split_ifs with blocked
    · have left : logThread ∉ (p.msgQueue.cond.expire logThread).blocked :=
        ConditionVariable.expire_not_blocked attended.sole.blocked_length
      have phase : (p.onQueue false (.expire logThread)).phase = .waiting false := rfl
      have queue : (p.onQueue false (.expire logThread)).msgQueue =
          { p.msgQueue with cond := p.msgQueue.cond.expire logThread } := rfl
      rw [rank, rank, isWaiting, phase, queue]
      dsimp only
      rw [if_neg left, if_pos blocked]
      omega
    · cases shape : p.msgQueue.queue with
      | nil =>
          rw [attended.onQueue_resume_nil isWaiting blocked shape, rank, rank, isWaiting]
          simp [blocked]
      | cons el rest =>
          rw [attended.onQueue_resume_cons isWaiting shape, rank, rank, isWaiting]
          simp [blocked, shape]
  · rename_i drains msg isWriting
    obtain ⟨next, simulates⟩ := writeMsg_simulates succeeds positive
      (recorded.ready (by simp [isWriting])) msg
    rw [LogProcess.perform, simulates.performs, rank, rank, isWriting]
    cases drains <;> simp
  all_goals
    rename_i ended
    rw [rank, ended] at goesOn
    cases goesOn

/-- The steps between the statements of a stopped thread: a message that is logged
meanwhile is one more to write. -/
theorem step_rank
    {action : LogAction}
    (notOpen : ∀ outLevel, action ≠ .openLog outLevel)
    (notLogger : ¬action.isLogger) :
    (p.step permits filename numBackups maxLogSize action).1.rank ≤
      p.rank + if action.isLogMsg then 3 else 0 := by
  cases action with
  | openLog outLevel => exact absurd rfl (notOpen outLevel)
  | logger => exact absurd rfl notLogger
  | stop => exact Nat.le_refl _
  | join =>
      change (if p.phase = .finished ∧ ¬p.isRunning then { p with phase := .absent } else p).rank ≤
        p.rank
      split_ifs
      · exact Nat.zero_le _
      · exact Nat.le_refl _
  | logMsg msgLevel now msg =>
      change (p.logMsg msgLevel now msg).1.rank ≤ p.rank + 3
      unfold LogProcess.logMsg
      cases p.logger.accepts msgLevel with
      | false => exact Nat.le_add_right _ _
      | true =>
        rw [if_pos rfl]
        have pushed : (p.msgQueue.push (BoostLog.logEntry now msg) 0).queue.length =
            p.msgQueue.queue.length + 1 := by
          simp [SyncQueue.push]
        unfold rank
        dsimp only
        rw [pushed]
        split <;> try omega
        -- a wait that the message does not end stays as it was
        have blocked : logThread ∈ (p.msgQueue.push (BoostLog.logEntry now msg) 0).cond.blocked →
            logThread ∈ p.msgQueue.cond.blocked := by
          unfold SyncQueue.push
          dsimp only
          split_ifs
          · exact List.mem_of_mem_eraseIdx
          · exact id
        split_ifs with stays was was
        · omega
        · exact absurd (blocked stays) was
        · omega
        · omega

theorem Recorded.step_isRunning
    (recorded : Recorded permits filename numBackups maxLogSize files p outputs)
    {action : LogAction}
    (notOpen : ∀ outLevel, action ≠ .openLog outLevel)
    (notRunning : p.isRunning = false) :
    (p.step permits filename numBackups maxLogSize action).1.isRunning = false := by
  cases action with
  | openLog outLevel => exact absurd rfl (notOpen outLevel)
  | logMsg msgLevel now msg =>
      change (p.logMsg msgLevel now msg).1.isRunning = false
      unfold LogProcess.logMsg
      split <;> exact notRunning
  | logger =>
      change (p.loggerStep permits filename numBackups maxLogSize).1.isRunning = false
      by_cases isWriting : p.IsWriting
      · obtain ⟨drains, msg, isWriting⟩ := isWriting
        unfold LogProcess.loggerStep LogProcess.perform
        rw [isWriting]
        dsimp only
        cases (LogCall.writeMsg msg).perform permits filename numBackups maxLogSize
          (p.logger, p.files) <;> exact notRunning
      · rw [(recorded.attended.loggerStep _ _ _ _ isWriting).1.isRunning]
        exact notRunning
  | stop => rfl
  | join =>
      unfold LogProcess.step
      dsimp only
      split <;> exact notRunning

/-- A thread of rank zero has ended. -/
theorem Attended.over_of_rank_zero
    (attended : Attended p)
    (zero : p.rank = 0) :
    p.phase = .absent ∨ p.phase = .finished ∨ p.phase = .crashed := by
  unfold rank at zero
  split at zero
  · exact Or.inl ‹_›
  · exact Or.inr (Or.inl ‹_›)
  · exact Or.inr (Or.inr ‹_›)
  · rename_i isPopping
    have nonempty := List.length_pos_iff.mpr (attended.drains isPopping)
    omega
  all_goals first | omega | (split at zero <;> omega)

/-- A thread in its first loop has a positive rank. -/
theorem rank_pos_of_stops
    (alive : p.phase.stops = false) :
    0 < p.rank := by
  unfold rank
  split <;> rename_i here <;> rw [here] at alive
  all_goals first | omega | cases alive
  split <;> omega

theorem rank_le (p : LogProcess) : p.rank ≤ 3 * p.msgQueue.queue.length + 5 := by
  unfold rank
  split
  all_goals first | split <;> omega | omega

/-- The thread ends with a queue that it found empty. -/
theorem Recorded.finishes
    (succeeds : ∀ call, permits call = true)
    (positive : 0 < maxLogSize)
    (recorded : Recorded permits filename numBackups maxLogSize files p outputs)
    {action : LogAction}
    (notOpen : ∀ outLevel, action ≠ .openLog outLevel)
    (before : 0 < p.rank)
    (after : (p.step permits filename numBackups maxLogSize action).1.rank = 0) :
    (p.step permits filename numBackups maxLogSize action).1.phase = .finished ∧
      (p.step permits filename numBackups maxLogSize action).1.pending = [] := by
  have next := recorded.step succeeds positive (opensAlone_of_ne notOpen p)
  have ended := next.attended.over_of_rank_zero after
  have present : p.phase ≠ .absent ∧ p.phase ≠ .finished ∧ p.phase ≠ .crashed := by
    refine ⟨?_, ?_, recorded.intact⟩ <;> intro here <;> simp [rank, here] at before
  cases action with
  | openLog outLevel => exact absurd rfl (notOpen outLevel)
  | stop =>
      change p.phase = .absent ∨ p.phase = .finished ∨ p.phase = .crashed at ended
      simp [present] at ended
  | join =>
      have unchanged : p.step permits filename numBackups maxLogSize .join = (p, []) := by
        simp [LogProcess.step, present]
      rw [unchanged] at ended
      simp [present] at ended
  | logMsg msgLevel now msg =>
      have phase : (p.logMsg msgLevel now msg).1.phase = p.phase := by
        unfold LogProcess.logMsg
        split <;> rfl
      change (p.logMsg msgLevel now msg).1.phase = .absent ∨ _ at ended
      rw [LogProcess.step, phase] at ended
      simp [present] at ended
  | logger =>
      have notCrashed := next.intact
      change (p.loggerStep permits filename numBackups maxLogSize).1.phase ≠ .crashed at notCrashed
      change (p.loggerStep permits filename numBackups maxLogSize).1.phase = .absent ∨
        (p.loggerStep permits filename numBackups maxLogSize).1.phase = .finished ∨
        (p.loggerStep permits filename numBackups maxLogSize).1.phase = .crashed at ended
      change (p.loggerStep permits filename numBackups maxLogSize).1.phase = .finished ∧
        (p.loggerStep permits filename numBackups maxLogSize).1.pending = []
      have elsewhere (drains : Bool) (outputs : List (QueueOutput ByteVector)) :
          ¬(returned drains outputs = .absent ∨ returned drains outputs = .finished ∨
            returned drains outputs = .crashed) := by
        unfold returned
        split
        · simp
        · split <;> simp
        · simp
      unfold LogProcess.loggerStep at ended notCrashed ⊢
      split at ended
      · cases running : p.isRunning <;> simp [running] at ended
      · rename_i isTesting
        cases isEmpty : p.msgQueue.empty with
        | false => simp [isEmpty] at ended
        | true =>
            rw [SyncQueue.empty, List.isEmpty_iff] at isEmpty
            simp [isEmpty, pending, held]
      · exact absurd ended (elsewhere _ _)
      · split at ended <;> simp only [onQueue] at ended <;> exact absurd ended (elsewhere _ _)
      · rename_i isWriting
        rw [isWriting] at notCrashed
        dsimp only at notCrashed
        split at ended <;> rename_i performs
        · simp at ended
        · rw [performs] at notCrashed
          exact absurd rfl notCrashed
      all_goals
        rename_i here
        simp [here] at present

end

/-- `stop` writes everything, as long as no call fails and the log is opened only while there is
no logging thread, and not behind the stop.  Once it has cleared the flag of a running thread,
the thread ends after a bounded number of its statements, with three more for each message that
is logged meanwhile, and at its end all messages accepted so far are in the files, but for the
oldest ones that rotations dropped. -/
theorem stop_writes_everything
    {permits : FileCall → Bool}
    (succeeds : ∀ call, permits call = true)
    (filename : FileName)
    (numBackups : Nat)
    {maxLogSize : Int}
    (positive : 0 < maxLogSize)
    (files : Files)
    (earlier : List LogAction)
    {later : List LogAction}
    (opensAlone : Machine.Meets (step permits filename numBackups maxLogSize) OpensAlone
      (constructed files) earlier)
    {p : LogProcess}
    {outputs : List LogOutput}
    (reached : Machine.run (step permits filename numBackups maxLogSize) (constructed files)
      earlier = (p, outputs))
    (running : p.isRunning = true)
    (notOpened : ∀ outLevel, .openLog outLevel ∉ later)
    (enough : 3 * p.msgQueue.queue.length + 5 + 3 * later.countP LogAction.isLogMsg ≤
      later.countP LogAction.isLogger) :
    ∃ before after last more, later = before ++ after ∧
      Machine.run (step permits filename numBackups maxLogSize) p (.stop :: before) =
        (last, more) ∧
      last.phase = .finished ∧
      (((outputs ++ more).flatMap LogOutput.rotation).map fun rotation =>
            logContents filename rotation.before numBackups).flatten ++
          logText filename numBackups last.files =
        logText filename numBackups files ++
          ((outputs ++ more).flatMap LogOutput.entry).flatMap BoostLog.line := by
  let step := step permits filename numBackups maxLogSize
  let stopped (p : LogProcess) : Prop := p.isRunning = false ∧
    ∃ outputs, Recorded permits filename numBackups maxLogSize files p outputs
  have others : ∀ action ∈ later, ∀ outLevel, action ≠ .openLog outLevel := by
    rintro action member outLevel rfl
    exact notOpened outLevel member
  have kept : ∀ state, ∀ action ∈ later, stopped state → stopped (step state action).1 := by
    rintro state action member ⟨notRunning, outputs, recorded⟩
    exact ⟨recorded.step_isRunning (others action member) notRunning, _,
      recorded.step succeeds positive (opensAlone_of_ne (others action member) state)⟩
  have lowers : ∀ state, ∀ action ∈ later, stopped state → action.isLogger →
      0 < state.rank → (step state action).1.rank < state.rank := by
    rintro state action member ⟨notRunning, outputs, recorded⟩ isLogger goesOn
    cases action with
    | logger => exact recorded.loggerStep_rank succeeds positive notRunning goesOn
    | _ => cases isLogger
  have raises : ∀ state, ∀ action ∈ later, stopped state → ¬action.isLogger →
      (step state action).1.rank ≤ state.rank + if action.isLogMsg then 3 else 0 := by
    intro state action member _ notLogger
    exact step_rank (others action member) notLogger
  have recorded := recorded_run succeeds filename numBackups positive files opensAlone
  rw [reached] at recorded
  have atStop := @Recorded.step permits filename numBackups maxLogSize files p outputs succeeds
    positive recorded .stop trivial
  have alive : 0 < ({ p with isRunning := false } : LogProcess).rank :=
    rank_pos_of_stops (recorded.runs running)
  have bounded := ({ p with isRunning := false } : LogProcess).rank_le
  obtain ⟨before, action, after, split, ⟨-, entries, holds⟩, goesOn, ended⟩ :=
    Machine.exists_step_to_rank_zero step rank stopped LogAction.isLogger LogAction.isLogMsg 3
      kept lowers raises ⟨rfl, _, atStop⟩ alive
      (Nat.le_trans (Nat.add_le_add_right bounded _) enough)
  have member : action ∈ later := by
    rw [split]
    simp
  let last := (step (Machine.run step { p with isRunning := false } before).1 action).1
  obtain ⟨finished, nothingPending⟩ : last.phase = .finished ∧ last.pending = [] :=
    holds.finishes succeeds positive (others action member) goesOn ended
  have stops : Machine.run step p (.stop :: (before ++ [action])) =
      (last, (Machine.run step p (.stop :: (before ++ [action]))).2) := by
    rw [Machine.run_cons, Machine.run_append]
    rfl
  refine ⟨before ++ [action], after, _, _, ?_, stops, finished, ?_⟩
  · rw [split, List.append_assoc]
    rfl
  · have whole : Machine.run step (LogProcess.constructed files)
        (earlier ++ .stop :: (before ++ [action])) =
          (last, outputs ++ (Machine.run step p (.stop :: (before ++ [action]))).2) := by
      rw [Machine.run_append, reached]
      dsimp only
      rw [stops]
    have wholeAlone : Machine.Meets step OpensAlone (LogProcess.constructed files)
        (earlier ++ .stop :: (before ++ [action])) := by
      refine Machine.meets_append.mpr ⟨opensAlone, trivial, Machine.meets_of_forall _ ?_⟩
      intro other taken
      refine opensAlone_of_ne (others other ?_)
      rw [split]
      rcases List.mem_append.mp taken with early | last
      · exact List.mem_append_left _ early
      · rw [List.mem_singleton.mp last]
        simp
    have recordedWhole := recorded_run succeeds filename numBackups positive files wholeAlone
    rw [whole] at recordedWhole
    have conserved := recordedWhole.conserves
    rw [nothingPending, List.flatMap_nil, List.append_nil] at conserved
    exact conserved

/-- Two messages are queued. -/
def twoQueued : List LogAction :=
  [.openLog .info, .logMsg .info (asciiBytes "1") (asciiBytes "hello"),
    .logMsg .error (asciiBytes "2") (asciiBytes "mux")]

/-- A third message is logged after the thread is stopped. -/
theorem stop_writes_everything_example :
    ∃ p outputs,
      Machine.run (step (fun _ => true) (asciiBytes "mux.log") 1 4) (constructed fun _ => none)
        twoQueued = (p, outputs) ∧
      ∃ before after last more,
        .logMsg .always (asciiBytes "3") (asciiBytes "bye") :: List.replicate 14 .logger =
          before ++ after ∧
        Machine.run (step (fun _ => true) (asciiBytes "mux.log") 1 4) p (.stop :: before) =
          (last, more) ∧
        last.phase = .finished ∧
        (((outputs ++ more).flatMap LogOutput.rotation).map fun rotation =>
              logContents (asciiBytes "mux.log") rotation.before 1).flatten ++
            logText (asciiBytes "mux.log") 1 last.files =
          logText (asciiBytes "mux.log") 1 (fun _ => none) ++
            ((outputs ++ more).flatMap LogOutput.entry).flatMap BoostLog.line :=
  ⟨_, _, rfl, stop_writes_everything (fun _ => rfl) (asciiBytes "mux.log") 1 (by decide)
    (fun _ => none) twoQueued (by decide +kernel) rfl (by decide) (by simp) (by decide)⟩

end LogProcess

end SerialMux
