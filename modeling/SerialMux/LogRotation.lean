import SerialMux.BoostLog
import SerialMux.Library.RollingWindow

/-!
# Log rotation loses only the oldest file

The base log file and its backups, the oldest first, are a window over everything that
was ever logged.  A rotation shifts the files by one and drops the oldest, and a message
is appended to the newest.
-/

namespace SerialMux

open RollingWindow (Operation)

/-- The contents of a file of the log, empty if there is no such file. -/
def logContents (filename : FileName) (files : Files) (index : Nat) : ByteVector :=
  (files (logName filename index)).getD []

/-- The files of the log, the oldest first. -/
def logWindow (filename : FileName) (numBackups : Nat) (files : Files) : List ByteVector :=
  (List.range (numBackups + 1)).reverse.map (logContents filename files)

/-- All that the files of the log hold, in the order in which it was written. -/
def logText (filename : FileName) (numBackups : Nat) (files : Files) : ByteVector :=
  (logWindow filename numBackups files).flatten

/-- A name that is not a name of the log. -/
def Unrelated (filename : FileName) (numBackups : Nat) (name : FileName) : Prop :=
  ∀ index, index ≤ numBackups → name ≠ logName filename index

/-! ## Runs -/

/-- A call to the log, with the settings that do not change. -/
inductive LogCall
  | openLog (outLevel : LogLevel)
  | writeMsg (msg : ByteVector)
  deriving DecidableEq, Repr

/-- What a call adds to the log. -/
def LogCall.written : LogCall → ByteVector
  | .openLog _ => []
  | .writeMsg msg => BoostLog.line msg

/-- The files before a rotation and after the log file is open again. -/
structure Rotation where
  before : Files
  after : Files

/-- A rotation moves every file of the log to the next older name, begins a new log file
and touches nothing else. -/
structure Rotation.Shifts (filename : FileName) (numBackups : Nat) (rotation : Rotation) :
    Prop where
  moved : ∀ index, index < numBackups →
    rotation.after (logName filename (index + 1)) = rotation.before (logName filename index)
  begun : rotation.after filename = some []
  untouched : ∀ name, Unrelated filename numBackups name →
    rotation.after name = rotation.before name

section

variable (permits : FileCall → Bool)
variable (filename : FileName) (numBackups : Nat) (maxLogSize : Int)

def LogCall.perform (state : BoostLog × Files) : LogCall → Option (BoostLog × Files)
  | .openLog outLevel =>
      some (state.1.openLog permits filename numBackups maxLogSize outLevel state.2)
  | .writeMsg msg => state.1.writeMsg permits msg state.2

/-- The rotation that a call makes.  Without backups an opened log is not rotated. -/
def LogCall.rotation (state : BoostLog × Files) : LogCall → Option Rotation
  | .openLog outLevel =>
      if 0 < numBackups then
        some
          { before := state.2
            after :=
              (state.1.openLog permits filename numBackups maxLogSize outLevel state.2).2 }
      else none
  | .writeMsg _ =>
      if state.1.outgrown permits state.2 = some true then
        some
          { before := state.2
            after := (state.1.openFile permits .out (state.1.rotateLogs permits state.2).1).2 }
      else none

/-- The last state of a run and its rotations. -/
def performAll (state : BoostLog × Files) :
    List LogCall → Option ((BoostLog × Files) × List Rotation)
  | [] => some (state, [])
  | call :: rest => do
      let next ← call.perform permits filename numBackups maxLogSize state
      let (last, rotations) ← performAll next rest
      return (last,
        (call.rotation permits filename numBackups maxLogSize state).toList ++ rotations)

end

/-! ## Rotating the files -/

section

variable {permits : FileCall → Bool} (succeeds : ∀ call, permits call = true)

include succeeds

theorem removeExisting_eq (name : FileName) (files : Files) :
    removeExisting permits name files = (Function.update files name none, true) := by
  unfold removeExisting
  rw [succeeds, if_pos rfl]
  split_ifs with present permitted
  · rfl
  · exact absurd (succeeds _) permitted
  · rw [Option.not_isSome_iff_eq_none] at present
    rw [← present, Function.update_eq_self]

/-- Renaming a file to a free name moves it, whether it exists or not. -/
theorem renameExisting_eq
    {source target : FileName}
    {files : Files}
    (free : files target = none) :
    renameExisting permits source target files =
      (Function.update (Function.update files target (files source)) source none, true) := by
  unfold renameExisting
  rw [succeeds, if_pos rfl]
  split_ifs with present permitted
  · rfl
  · exact absurd (succeeds _) permitted
  · rw [Option.not_isSome_iff_eq_none] at present
    rw [present, ← free, Function.update_eq_self, free, ← present, Function.update_eq_self]

theorem moveAside_eq (filename : FileName) (index : Nat) (files : Files) :
    moveAside permits filename (index + 1) files =
      (Function.update
        (Function.update files (logName filename (index + 1)) (files (logName filename index)))
        (logName filename index) none, true) := by
  have free : Function.update files (logName filename (index + 1)) none
      (logName filename (index + 1)) = none := Function.update_self ..
  have other : logName filename index ≠ logName filename (index + 1) := by simp
  unfold moveAside
  dsimp only
  rw [removeExisting_eq succeeds]
  dsimp only
  rw [Nat.add_sub_cancel, renameExisting_eq succeeds free, Function.update_idem,
    Function.update_of_ne other]

/-- The loop moves each file to the next older name and leaves other files alone. -/
theorem rotateFrom_shifts (filename : FileName) (numBackups : Nat) (files : Files) :
    ∃ rotated, rotateFrom permits filename numBackups files = (rotated, true) ∧
      (∀ index, index < numBackups →
        rotated (logName filename (index + 1)) = files (logName filename index)) ∧
      rotated filename = (if numBackups = 0 then files filename else none) ∧
      ∀ name, Unrelated filename numBackups name → rotated name = files name := by
  induction numBackups generalizing files with
  | zero => exact ⟨files, rfl, by simp, by simp, fun _ _ => rfl⟩
  | succ index inductionHypothesis =>
      rw [rotateFrom, moveAside_eq succeeds]
      dsimp only
      obtain ⟨rotated, rotates, moved, base, untouched⟩ := inductionHypothesis
        (Function.update
          (Function.update files (logName filename (index + 1)) (files (logName filename index)))
          (logName filename index) none)
      refine ⟨rotated, rotates, ?_, ?_, ?_⟩
      · intro other otherLt
        rcases Nat.lt_succ_iff_lt_or_eq.mp otherLt with younger | rfl
        · rw [moved other younger, Function.update_of_ne (by simp; omega),
            Function.update_of_ne (by simp; omega)]
        · have older : Unrelated filename other (logName filename (other + 1)) := by
            intro place placeLe
            simp
            omega
          rw [untouched _ older, Function.update_of_ne (by simp), Function.update_self]
      · have name : filename = logName filename 0 := rfl
        rw [base, if_neg (Nat.succ_ne_zero index)]
        split_ifs with first
        · subst first
          exact Function.update_self ..
        · rfl
      · intro name unrelated
        have unrelatedBefore : Unrelated filename index name :=
          fun place placeLe => unrelated place (by omega)
        rw [untouched name unrelatedBefore,
          Function.update_of_ne (unrelated index (by omega)),
          Function.update_of_ne (unrelated (index + 1) le_rfl)]

/-- Opening a file to append keeps what it holds, and creates it if need be. -/
theorem openFile_app_eq (logger : BoostLog) (files : Files) :
    logger.openFile permits .app files =
      ({ logger with log := some { name := logger.filename, failed := false } },
        Function.update files logger.filename
          (some (logContents logger.filename files 0))) := by
  rw [BoostLog.openFile, succeeds]
  rfl

theorem openFile_out_eq (logger : BoostLog) (files : Files) :
    logger.openFile permits .out files =
      ({ logger with log := some { name := logger.filename, failed := false } },
        Function.update files logger.filename (some [])) := by
  rw [BoostLog.openFile, succeeds]
  rfl

end

/-! ## The window -/

variable {filename : FileName} {numBackups : Nat} {maxLogSize : Int}

theorem unrelated_ne
    {name : FileName}
    (unrelated : Unrelated filename numBackups name) :
    name ≠ filename :=
  unrelated 0 (Nat.zero_le _)

theorem logName_succ_ne (index : Nat) : logName filename (index + 1) ≠ filename := by
  have other : logName filename (index + 1) ≠ logName filename 0 := by simp
  exact other

/-- The log file is the newest file. -/
theorem logWindow_eq_append (files : Files) :
    logWindow filename numBackups files =
      (List.range numBackups).reverse.map (fun index => logContents filename files (index + 1)) ++
        [logContents filename files 0] := by
  rw [logWindow, List.range_succ_eq_map, List.reverse_cons, List.map_append,
    ← List.map_reverse, List.map_map]
  rfl

theorem logWindow_eq_cons (files : Files) :
    logWindow filename numBackups files =
      logContents filename files numBackups ::
        (List.range numBackups).reverse.map (logContents filename files) := by
  rw [logWindow, List.range_succ, List.reverse_append]
  rfl

/-- Appending to the log file writes to the window. -/
theorem step_write_logWindow (files : Files) (content : ByteVector) :
    RollingWindow.step (logWindow filename numBackups files) (.write content) =
      (logWindow filename numBackups (Function.update files filename
        (some (logContents filename files 0 ++ content))), []) := by
  rw [logWindow_eq_append, logWindow_eq_append, RollingWindow.step_write]
  congr 2
  · apply List.map_congr_left
    intro index _
    rw [logContents, logContents, Function.update_of_ne (logName_succ_ne index)]
  · have written : logContents filename (Function.update files filename
        (some (logContents filename files 0 ++ content))) 0 =
          logContents filename files 0 ++ content := by
      rw [logContents]
      change (Function.update files filename _ filename).getD [] = _
      rw [Function.update_self]
      rfl
    rw [written]

/-- A rotation of the files is one of the window. -/
theorem Rotation.Shifts.step_rotate_logWindow
    {rotation : Rotation}
    (shifts : rotation.Shifts filename numBackups) :
    RollingWindow.step (logWindow filename numBackups rotation.before) .rotate =
      (logWindow filename numBackups rotation.after,
        [logContents filename rotation.before numBackups]) := by
  rw [logWindow_eq_cons, RollingWindow.step_rotate, logWindow_eq_append]
  congr 2
  · apply List.map_congr_left
    intro index member
    rw [List.mem_reverse, List.mem_range] at member
    rw [logContents, logContents, shifts.moved index member]
  · rw [logContents]
    exact congrArg (fun content => [Option.getD content []]) shifts.begun.symm

/-! ## Calls -/

/-- The log file is open with the settings. -/
structure Ready
    (filename : FileName)
    (numBackups : Nat)
    (maxLogSize : Int)
    (state : BoostLog × Files) :
    Prop where
  name : state.1.filename = filename
  backups : state.1.numBackups = numBackups
  limit : state.1.maxLogSize = maxLogSize
  log : state.1.log = some { name := filename, failed := false }
  present : (state.2 filename).isSome

/-- A call does to the window what it does to the files. -/
structure LogCall.Simulates
    (permits : FileCall → Bool)
    (filename : FileName)
    (numBackups : Nat)
    (maxLogSize : Int)
    (call : LogCall)
    (state next : BoostLog × Files) :
    Prop where
  performs : call.perform permits filename numBackups maxLogSize state = some next
  ready : Ready filename numBackups maxLogSize next
  shifts : ∀ rotation ∈ call.rotation permits filename numBackups maxLogSize state,
    rotation.Shifts filename numBackups
  untouched : ∀ name, Unrelated filename numBackups name → next.2 name = state.2 name
  window : ∃ operations : List (Operation Byte),
    operations.flatMap Operation.content = call.written ∧
    Machine.run RollingWindow.step (logWindow filename numBackups state.2) operations =
      (logWindow filename numBackups next.2,
        (call.rotation permits filename numBackups maxLogSize state).toList.map fun rotation =>
          logContents filename rotation.before numBackups)

/-- The same for a run of calls. -/
structure RunSimulates
    (permits : FileCall → Bool)
    (filename : FileName)
    (numBackups : Nat)
    (maxLogSize : Int)
    (calls : List LogCall)
    (state last : BoostLog × Files)
    (rotations : List Rotation) :
    Prop where
  performs : performAll permits filename numBackups maxLogSize state calls =
    some (last, rotations)
  shifts : ∀ rotation ∈ rotations, rotation.Shifts filename numBackups
  untouched : ∀ name, Unrelated filename numBackups name → last.2 name = state.2 name
  window : ∃ operations : List (Operation Byte),
    operations.flatMap Operation.content = calls.flatMap LogCall.written ∧
    Machine.run RollingWindow.step (logWindow filename numBackups state.2) operations =
      (logWindow filename numBackups last.2, rotations.map fun rotation =>
        logContents filename rotation.before numBackups)

theorem LogCall.Simulates.cons
    {permits : FileCall → Bool}
    {call : LogCall}
    {calls : List LogCall}
    {state next last : BoostLog × Files}
    {rotations : List Rotation}
    (first : call.Simulates permits filename numBackups maxLogSize state next)
    (rest : RunSimulates permits filename numBackups maxLogSize calls next last rotations) :
    RunSimulates permits filename numBackups maxLogSize (call :: calls) state last
      ((call.rotation permits filename numBackups maxLogSize state).toList ++ rotations) where
  performs := by
    rw [performAll, first.performs, Option.bind_eq_bind, Option.bind_some, rest.performs]
    rfl
  shifts := by
    intro rotation member
    rcases List.mem_append.mp member with now | later
    · exact first.shifts rotation (Option.mem_toList.mp now)
    · exact rest.shifts rotation later
  untouched := by
    intro name unrelated
    rw [rest.untouched name unrelated, first.untouched name unrelated]
  window := by
    obtain ⟨operations, written, window⟩ := first.window
    obtain ⟨others, writtenLater, windowLater⟩ := rest.window
    refine ⟨operations ++ others, ?_, ?_⟩
    · rw [List.flatMap_append, written, writtenLater, List.flatMap_cons]
    · rw [Machine.run_append, window, windowLater, List.map_append]

section

variable {permits : FileCall → Bool} (succeeds : ∀ call, permits call = true)

include succeeds

/-- A rotation after which the log file is begun anew shifts the files. -/
theorem exists_rotated (filename : FileName) (numBackups : Nat) (files : Files) :
    ∃ rotated, rotateFrom permits filename numBackups files = (rotated, true) ∧
      rotated filename = (if numBackups = 0 then files filename else none) ∧
      Rotation.Shifts filename numBackups
        { before := files, after := Function.update rotated filename (some []) } := by
  obtain ⟨rotated, rotates, moved, base, untouched⟩ :=
    rotateFrom_shifts succeeds filename numBackups files
  refine ⟨rotated, rotates, base, ?_, Function.update_self .., ?_⟩
  · intro index indexLt
    dsimp only
    rw [Function.update_of_ne (logName_succ_ne index), moved index indexLt]
  · intro name unrelated
    dsimp only
    rw [Function.update_of_ne (unrelated_ne unrelated), untouched name unrelated]

/-- Opening the log rotates the files, opens the log file to append to it and takes over
the settings. -/
theorem openLog_eq
    {rotated : Files}
    {state : BoostLog × Files}
    (rotates : rotateFrom permits filename numBackups state.2 = (rotated, true))
    (maxLogSize : Int)
    (outLevel : LogLevel) :
    state.1.openLog permits filename numBackups maxLogSize outLevel state.2 =
      ({  logLevel := outLevel.toInt
          filename := filename
          maxLogSize := maxLogSize
          numBackups := numBackups
          log := some { name := filename, failed := false } },
        Function.update rotated filename (some (logContents filename rotated 0))) := by
  unfold BoostLog.openLog BoostLog.rotateLogs
  dsimp only
  rw [Int.toNat_natCast, rotates, openFile_app_eq succeeds]

/-- Opening the log rotates the files if there are backups, and else changes nothing
that the log holds. -/
theorem openLog_simulates
    (filename : FileName)
    (numBackups : Nat)
    (maxLogSize : Int)
    (outLevel : LogLevel)
    (state : BoostLog × Files) :
    ∃ next, (LogCall.openLog outLevel).Simulates permits filename numBackups maxLogSize state
      next := by
  obtain ⟨rotated, rotates, base, shifts⟩ := exists_rotated succeeds filename numBackups state.2
  have opens := openLog_eq succeeds rotates maxLogSize outLevel
  rcases Nat.eq_zero_or_pos numBackups with single | backups
  · subst single
    cases rotates
    have unrotated : (LogCall.openLog outLevel).rotation permits filename 0 maxLogSize state =
        none := rfl
    refine ⟨_, congrArg some opens, ⟨rfl, rfl, rfl, rfl, by simp⟩, ?_, ?_, [], rfl, ?_⟩
    · intro rotation isRotation
      rw [unrotated] at isRotation
      cases isRotation
    · intro name unrelated
      exact Function.update_of_ne (unrelated_ne unrelated) ..
    · rw [unrotated, Machine.run_nil]
      simp [logWindow, logContents, logName]
  · have empty : logContents filename rotated 0 = [] := by
      rw [if_neg (by omega)] at base
      exact congrArg (Option.getD · []) base
    rw [empty] at opens
    have rotation : (LogCall.openLog outLevel).rotation permits filename numBackups maxLogSize
        state =
          some { before := state.2, after := Function.update rotated filename (some []) } := by
      rw [LogCall.rotation, if_pos backups, opens]
    refine ⟨_, congrArg some opens, ⟨rfl, rfl, rfl, rfl, by simp⟩, ?_, shifts.untouched,
      [.rotate], rfl, ?_⟩
    · intro other isRotation
      rw [rotation] at isRotation
      cases isRotation
      exact shifts
    · rw [rotation, Machine.run_cons, shifts.step_rotate_logWindow]
      rfl

/-- A message goes to the end of the log file, which a rotation begins anew if it has got
too big. -/
theorem writeMsg_simulates
    (positive : 0 < maxLogSize)
    {state : BoostLog × Files}
    (ready : Ready filename numBackups maxLogSize state)
    (msg : ByteVector) :
    ∃ next, (LogCall.writeMsg msg).Simulates permits filename numBackups maxLogSize state
      next := by
  obtain ⟨content, holds⟩ := Option.isSome_iff_exists.mp ready.present
  have measured : state.1.outgrown permits state.2 =
      some (decide (maxLogSize < content.length)) := by
    rw [BoostLog.outgrown, ready.limit, if_pos positive, succeeds, ready.name, holds]
    rfl
  by_cases big : maxLogSize < content.length
  · obtain ⟨rotated, rotates, -, shifts⟩ := exists_rotated succeeds filename numBackups state.2
    have rotatesLogs : state.1.rotateLogs permits state.2 = (rotated, true) := by
      rw [BoostLog.rotateLogs, ready.name, ready.backups, Int.toNat_natCast, rotates]
    have opens : (state.1.openFile permits .out rotated).2 =
        Function.update rotated filename (some []) := by
      rw [openFile_out_eq succeeds, ready.name]
    rw [decide_eq_true big] at measured
    have rotation : (LogCall.writeMsg msg).rotation permits filename numBackups maxLogSize state =
        some { before := state.2, after := Function.update rotated filename (some []) } := by
      rw [LogCall.rotation, if_pos measured, rotatesLogs, opens]
    have writes : state.1.writeMsg permits msg state.2 =
        some ({ state.1 with log := some { name := filename, failed := false } },
          Function.update (Function.update rotated filename (some [])) filename
            (some (logContents filename (Function.update rotated filename (some [])) 0 ++
              BoostLog.line msg))) := by
      simp only [BoostLog.writeMsg, measured, Option.bind_eq_bind, Option.bind_some, if_true,
        rotatesLogs, Option.isNone_none, openFile_out_eq succeeds, ready.name]
      rfl
    refine ⟨_, writes, ⟨ready.name, ready.backups, ready.limit, rfl, by simp⟩, ?_, ?_,
      [.rotate, .write (BoostLog.line msg)], by simp [Operation.content, LogCall.written], ?_⟩
    · intro other isRotation
      rw [rotation] at isRotation
      cases isRotation
      exact shifts
    · intro name unrelated
      dsimp only
      rw [Function.update_of_ne (unrelated_ne unrelated)]
      exact shifts.untouched name unrelated
    · rw [rotation, Machine.run_cons, shifts.step_rotate_logWindow, Machine.run_cons,
        step_write_logWindow]
      rfl
  · rw [decide_eq_false big] at measured
    have unrotated : (LogCall.writeMsg msg).rotation permits filename numBackups maxLogSize
        state = none := by
      rw [LogCall.rotation, measured, if_neg (by simp)]
    have writes : state.1.writeMsg permits msg state.2 =
        some (state.1, Function.update state.2 filename
          (some (logContents filename state.2 0 ++ BoostLog.line msg))) := by
      simp only [BoostLog.writeMsg, measured, Option.bind_eq_bind, Option.bind_some]
      simp [ready.log, BoostLog.write]
      rfl
    refine ⟨_, writes, ⟨ready.name, ready.backups, ready.limit, ready.log, by simp⟩, ?_, ?_,
      [.write (BoostLog.line msg)], by simp [Operation.content, LogCall.written], ?_⟩
    · intro rotation isRotation
      rw [unrotated] at isRotation
      cases isRotation
    · intro name unrelated
      exact Function.update_of_ne (unrelated_ne unrelated) ..
    · rw [unrotated, Machine.run_cons, step_write_logWindow]
      rfl

/-! ## Runs -/

/-- A log that is open takes every run of messages and further openings. -/
theorem exists_runSimulates
    (positive : 0 < maxLogSize)
    {state : BoostLog × Files}
    (ready : Ready filename numBackups maxLogSize state)
    (calls : List LogCall) :
    ∃ last rotations,
      RunSimulates permits filename numBackups maxLogSize calls state last rotations := by
  induction calls generalizing state with
  | nil =>
      refine ⟨state, [], rfl, ?_, fun _ _ => rfl, [], rfl, rfl⟩
      intro rotation member
      cases member
  | cons call rest inductionHypothesis =>
      have simulates : ∃ next,
          call.Simulates permits filename numBackups maxLogSize state next := by
        cases call with
        | openLog outLevel =>
            exact openLog_simulates succeeds filename numBackups maxLogSize outLevel state
        | writeMsg msg => exact writeMsg_simulates succeeds positive ready msg
      obtain ⟨next, first⟩ := simulates
      obtain ⟨last, rotations, others⟩ := inductionHypothesis first.ready
      exact ⟨last, _, first.cons others⟩

end

/-- However a log that has been opened is used, each rotation moves its files to the next
older name and loses no more than the oldest, and what was lost, followed by what the files
hold, is what they held at first, followed by all messages in order. -/
theorem rotation_loses_only_oldest
    {permits : FileCall → Bool}
    (succeeds : ∀ call, permits call = true)
    (filename : FileName)
    (numBackups : Nat)
    {maxLogSize : Int}
    (positive : 0 < maxLogSize)
    (logger : BoostLog)
    (files : Files)
    (outLevel : LogLevel)
    (calls : List LogCall) :
    ∃ last rotations,
      performAll permits filename numBackups maxLogSize (logger, files)
        (.openLog outLevel :: calls) = some (last, rotations) ∧
      (∀ rotation ∈ rotations, rotation.Shifts filename numBackups) ∧
      (∀ name, Unrelated filename numBackups name → last.2 name = files name) ∧
      (rotations.map fun rotation => logContents filename rotation.before numBackups).flatten ++
          logText filename numBackups last.2 =
        logText filename numBackups files ++ calls.flatMap LogCall.written := by
  obtain ⟨opened, opens⟩ :=
    openLog_simulates succeeds filename numBackups maxLogSize outLevel (logger, files)
  obtain ⟨last, later, others⟩ := exists_runSimulates succeeds positive opens.ready calls
  obtain ⟨performs, shifts, untouched, operations, written, window⟩ := opens.cons others
  refine ⟨last, _, performs, shifts, untouched, ?_⟩
  have nonempty : logWindow filename numBackups files ≠ [] := by
    rw [logWindow_eq_cons]
    exact List.cons_ne_nil _ _
  have conserves := RollingWindow.run_conserves nonempty operations
  rw [window, written] at conserves
  exact conserves

/-- Two messages, the first of which is too big for the second to follow it. -/
theorem rotation_loses_only_oldest_example :
    ∃ last rotations,
      performAll (fun _ => true) (asciiBytes "mux.log") 1 4 ({}, fun _ => none)
        [.openLog .info, .writeMsg (asciiBytes "hello"), .writeMsg (asciiBytes "mux")] =
          some (last, rotations) ∧
      (∀ rotation ∈ rotations, rotation.Shifts (asciiBytes "mux.log") 1) ∧
      (∀ name, Unrelated (asciiBytes "mux.log") 1 name → last.2 name = none) ∧
      (rotations.map fun rotation =>
          logContents (asciiBytes "mux.log") rotation.before 1).flatten ++
          logText (asciiBytes "mux.log") 1 last.2 =
        logText (asciiBytes "mux.log") 1 (fun _ => none) ++
          [.writeMsg (asciiBytes "hello"), .writeMsg (asciiBytes "mux")].flatMap
            LogCall.written :=
  rotation_loses_only_oldest (fun _ => rfl) (asciiBytes "mux.log") 1 (by decide) {}
    (fun _ => none) .info [.writeMsg (asciiBytes "hello"), .writeMsg (asciiBytes "mux")]

end SerialMux
