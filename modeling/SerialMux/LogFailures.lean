import SerialMux.LogRotation

/-!
# The log when calls to the file system fail

Any call may fail at any time, and what is written to an open stream reaches its file.  A
rotation that fails stops at a backup: the older ones have been shifted, the younger ones have
not, and the log file is then begun anew all the same.
-/

namespace SerialMux

/-- A rotation that got as far as a hole: the files from there on have moved to the next
older name, those before have stayed.  Only the oldest file may keep its place. -/
structure PartlyShifted
    (filename : FileName)
    (numBackups hole : Nat)
    (before after : Files) :
    Prop where
  hole_le : hole ≤ numBackups
  moved : ∀ index, hole ≤ index → index < numBackups →
    after (logName filename (index + 1)) = before (logName filename index)
  kept : ∀ index, index < hole →
    after (logName filename index) = before (logName filename index)
  gap : after (logName filename hole) = none ∨
    hole = numBackups ∧ after (logName filename hole) = before (logName filename hole)
  untouched : ∀ name, Unrelated filename numBackups name → after name = before name

/-- A call of the log, and which calls to the file system succeed meanwhile. -/
structure LogAttempt where
  permits : FileCall → Bool
  call : LogCall

/-- What the log prints when it could not be rotated. -/
def rotationNotice : ByteVector :=
  BoostLog.line (asciiBytes "Log file could not be rotated, truncated instead.")

/-- The lines that a call writes: a message, behind the notice if a rotation failed. -/
def LogAttempt.lines (attempt : LogAttempt) (state : BoostLog × Files) : List ByteVector :=
  match attempt.call with
  | .openLog _ => []
  | .writeMsg msg =>
      if state.1.outgrown attempt.permits state.2 = some true ∧
          (state.1.rotateLogs attempt.permits state.2).2 = false then
        [rotationNotice, BoostLog.line msg]
      else [BoostLog.line msg]

/-- What the files of the log hold, the oldest first, if each holds a list. -/
def oldestFirst {α : Type} (numBackups : Nat) (held : Nat → List α) : List α :=
  ((List.range (numBackups + 1)).reverse.map held).flatten

/-- Each file of the log is made up of some entries. -/
def HoldsEntries
    (filename : FileName)
    (numBackups : Nat)
    (entries : Nat → List ByteVector)
    (files : Files) :
    Prop :=
  ∀ index, index ≤ numBackups → logContents filename files index = (entries index).flatten

/-- The log keeps some of its entries whole and in order, and so it does with lines that are
added behind them. -/
def KeepsEntries
    (filename : FileName)
    (numBackups : Nat)
    (lines : List ByteVector)
    (before after : Files) :
    Prop :=
  ∀ entries, HoldsEntries filename numBackups entries before →
    ∃ kept, HoldsEntries filename numBackups kept after ∧
      (oldestFirst numBackups kept).Sublist (oldestFirst numBackups entries ++ lines)

/-- The settings are those of the last opening, and the stream is that of the log file. -/
structure SetUp
    (filename : FileName)
    (numBackups : Nat)
    (maxLogSize : Int)
    (logger : BoostLog) :
    Prop where
  name : logger.filename = filename
  backups : logger.numBackups = numBackups
  limit : logger.maxLogSize = maxLogSize
  log : ∀ stream, logger.log = some stream → stream.name = filename

/-- What a call leaves of the files, whatever fails: no entry is divided, repeated or moved,
each backup but the oldest keeps its place or moves to the next older name, and only files of
the log are touched. -/
structure SparesBackups
    (filename : FileName)
    (numBackups : Nat)
    (lines : List ByteVector)
    (before after : Files) :
    Prop where
  entries : KeepsEntries filename numBackups lines before after
  backups : ∀ index, 0 < index → index < numBackups →
    after (logName filename index) = before (logName filename index) ∨
      after (logName filename (index + 1)) = before (logName filename index)
  untouched : ∀ name, Unrelated filename numBackups name → after name = before name

section

variable (filename : FileName) (numBackups : Nat) (maxLogSize : Int)

/-- The last state of a run and the lines it writes, unless a call for a file's size throws. -/
def attemptAll (state : BoostLog × Files) :
    List LogAttempt → Option ((BoostLog × Files) × List ByteVector)
  | [] => some (state, [])
  | attempt :: rest => do
      let next ← attempt.call.perform attempt.permits filename numBackups maxLogSize state
      let (last, lines) ← attemptAll next rest
      return (last, attempt.lines state ++ lines)

end

/-! ## One backup -/

section

variable (permits : FileCall → Bool)

/-- A failure leaves the files as they were, or without the backup that was to be replaced.
-/
theorem moveAside_cases (filename : FileName) (index : Nat) (files : Files) :
    moveAside permits filename (index + 1) files =
        (Function.update
          (Function.update files (logName filename (index + 1)) (files (logName filename index)))
          (logName filename index) none, true) ∨
      ∃ content,
        moveAside permits filename (index + 1) files =
          (Function.update files (logName filename (index + 1)) content, false) ∧
        (content = none ∨ content = files (logName filename (index + 1))) := by
  have removed : removeExisting permits (logName filename (index + 1)) files =
        (Function.update files (logName filename (index + 1)) none, true) ∨
      removeExisting permits (logName filename (index + 1)) files = (files, false) := by
    unfold removeExisting
    split_ifs with asked present
    · exact Or.inl rfl
    · exact Or.inr rfl
    · rw [Option.not_isSome_iff_eq_none] at present
      rw [← present, Function.update_eq_self]
      exact Or.inl rfl
    · exact Or.inr rfl
  have other : logName filename index ≠ logName filename (index + 1) := by simp
  unfold moveAside
  dsimp only
  rw [Nat.add_sub_cancel]
  rcases removed with removes | fails
  · rw [removes]
    dsimp only
    unfold renameExisting
    rw [Function.update_of_ne other, Function.update_idem]
    split_ifs with asked present
    · exact Or.inl rfl
    · exact Or.inr ⟨none, rfl, Or.inl rfl⟩
    · left
      rw [Option.not_isSome_iff_eq_none] at present
      have absent : Function.update files (logName filename (index + 1)) none
          (logName filename index) = none := by
        rw [Function.update_of_ne other, present]
      have unchanged : Function.update (Function.update files (logName filename (index + 1)) none)
          (logName filename index) none =
            Function.update files (logName filename (index + 1)) none := by
        rw [Function.update_eq_self_iff, absent]
      rw [present, unchanged]
    · exact Or.inr ⟨none, rfl, Or.inl rfl⟩
  · rw [fails]
    exact Or.inr ⟨_, by rw [Function.update_eq_self], Or.inr rfl⟩

/-! ## The loop over the backups -/

theorem PartlyShifted.stopped
    {filename : FileName}
    {numBackups : Nat}
    {before after : Files}
    (kept : ∀ name, name ≠ logName filename numBackups → after name = before name)
    (gap : after (logName filename numBackups) = none ∨
      after (logName filename numBackups) = before (logName filename numBackups)) :
    PartlyShifted filename numBackups numBackups before after where
  hole_le := Nat.le_refl _
  moved index reached below := absurd reached (Nat.not_le_of_lt below)
  kept index below := kept _ (by simp; omega)
  gap := gap.imp_right fun same => ⟨rfl, same⟩
  untouched name unrelated := kept name (unrelated numBackups (Nat.le_refl _))

/-- The loop shifts the files down to some hole, and to the log file if nothing fails. -/
theorem rotateFrom_partlyShifted (filename : FileName) (numBackups : Nat) (files : Files) :
    ∃ hole, PartlyShifted filename numBackups hole files
        (rotateFrom permits filename numBackups files).1 ∧
      ((rotateFrom permits filename numBackups files).2 = true → hole = 0) := by
  induction numBackups generalizing files with
  | zero => exact ⟨0, .stopped (fun _ _ => rfl) (Or.inr rfl), fun _ => rfl⟩
  | succ index inductionHypothesis =>
      rw [rotateFrom]
      rcases moveAside_cases permits filename index files with
        moves | ⟨content, fails, wasOrNone⟩
      · rw [moves]
        dsimp only
        obtain ⟨hole, shifted, complete⟩ := inductionHypothesis
          (Function.update
            (Function.update files (logName filename (index + 1)) (files (logName filename index)))
            (logName filename index) none)
        refine ⟨hole, ?_, complete⟩
        have hole_le := shifted.hole_le
        have older : Unrelated filename index (logName filename (index + 1)) := by
          intro place placeLe
          simp
          omega
        constructor
        · omega
        · intro place reached below
          rcases Nat.lt_succ_iff_lt_or_eq.mp below with younger | rfl
          · rw [shifted.moved place reached younger, Function.update_of_ne (by simp; omega),
              Function.update_of_ne (by simp; omega)]
          · rw [shifted.untouched _ older, Function.update_of_ne (by simp), Function.update_self]
        · intro place below
          rw [shifted.kept place below, Function.update_of_ne (by simp; omega),
            Function.update_of_ne (by simp; omega)]
        · left
          rcases shifted.gap with empty | ⟨rfl, same⟩
          · exact empty
          · rw [same, Function.update_self]
        · intro name unrelated
          rw [shifted.untouched name fun place placeLe => unrelated place (by omega),
            Function.update_of_ne (unrelated index (by omega)),
            Function.update_of_ne (unrelated (index + 1) (Nat.le_refl _))]
      · rw [fails]
        refine ⟨index + 1, .stopped ?_ ?_, fun succeeded => by cases succeeded⟩
        · intro name other
          exact Function.update_of_ne other ..
        · dsimp only
          rw [Function.update_self]
          exact wasOrNone

end

/-! ## The entries of the log -/

section

variable {α : Type} {numBackups : Nat} {held kept : Nat → List α}

theorem oldestFirst_succ (numBackups : Nat) (held : Nat → List α) :
    oldestFirst (numBackups + 1) held = held (numBackups + 1) ++ oldestFirst numBackups held := by
  rw [oldestFirst, List.range_succ, List.reverse_append]
  rfl

theorem oldestFirst_congr
    (same : ∀ index, index ≤ numBackups → kept index = held index) :
    oldestFirst numBackups kept = oldestFirst numBackups held := by
  unfold oldestFirst
  congr 1
  apply List.map_congr_left
  intro index member
  rw [List.mem_reverse, List.mem_range] at member
  exact same index (by omega)

/-- From a hole upwards, each place holds what the one below it held: the last is dropped. -/
theorem oldestFirst_shifted
    {hole : Nat}
    (inside : hole ≤ numBackups)
    (moved : ∀ index, hole ≤ index → index < numBackups → kept (index + 1) = held index)
    (same : ∀ index, index < hole → kept index = held index)
    (gap : kept hole = []) :
    oldestFirst numBackups held = held numBackups ++ oldestFirst numBackups kept := by
  induction numBackups, inside using Nat.le_induction with
  | base =>
      cases hole with
      | zero => simp [oldestFirst, gap]
      | succ below =>
          rw [oldestFirst_succ, oldestFirst_succ, gap, List.nil_append,
            oldestFirst_congr fun index le => same index (by omega)]
  | succ index reached inductionHypothesis =>
      rw [oldestFirst_succ, oldestFirst_succ, moved index reached (by omega),
        inductionHypothesis fun place from' below => moved place from' (by omega)]

/-- The newest place gets other contents. -/
theorem oldestFirst_newest
    {lines : List α}
    (older : ∀ index, kept (index + 1) = held (index + 1))
    (newest : (kept 0).Sublist (held 0 ++ lines)) :
    (oldestFirst numBackups kept).Sublist (oldestFirst numBackups held ++ lines) := by
  induction numBackups with
  | zero => simpa [oldestFirst] using newest
  | succ index inductionHypothesis =>
      rw [oldestFirst_succ, oldestFirst_succ, older, List.append_assoc]
      exact inductionHypothesis.append_left _

end

section

variable {filename : FileName} {numBackups hole : Nat} {before middle after : Files}

theorem KeepsEntries.trans
    {lines more : List ByteVector}
    (first : KeepsEntries filename numBackups lines before middle)
    (second : KeepsEntries filename numBackups more middle after) :
    KeepsEntries filename numBackups (lines ++ more) before after := by
  intro entries holds
  obtain ⟨kept, keptHolds, sublist⟩ := first entries holds
  obtain ⟨last, lastHolds, lastSublist⟩ := second kept keptHolds
  refine ⟨last, lastHolds, ?_⟩
  rw [← List.append_assoc]
  exact lastSublist.trans (sublist.append_right more)

/-- A rotation, as far as it gets, drops at most the entries of the oldest file. -/
theorem PartlyShifted.keepsEntries
    (shifted : PartlyShifted filename numBackups hole before after) :
    KeepsEntries filename numBackups [] before after := by
  intro entries holds
  rw [List.append_nil]
  have contents (place : Nat) : logContents filename after place =
      (after (logName filename place)).getD [] := rfl
  rcases shifted.gap with empty | ⟨rfl, same⟩
  · let kept (place : Nat) : List ByteVector :=
      if hole < place then entries (place - 1) else if place = hole then [] else entries place
    refine ⟨kept, ?_, ?_⟩
    · intro place inside
      rcases Nat.lt_trichotomy hole place with above | rfl | below
      · obtain ⟨place, rfl⟩ := Nat.exists_eq_succ_of_ne_zero (by omega : place ≠ 0)
        rw [contents, shifted.moved place (by omega) (by omega)]
        exact (holds place (by omega)).trans (by simp [kept, above])
      · simp [contents, empty, kept]
      · rw [contents, shifted.kept place below]
        refine (holds place inside).trans ?_
        simp [kept, Nat.not_lt_of_lt below, Nat.ne_of_lt below]
    · have dropped : oldestFirst numBackups entries =
          entries numBackups ++ oldestFirst numBackups kept := by
        apply oldestFirst_shifted shifted.hole_le
        · intro place reached _
          simp [kept, Nat.lt_succ_of_le reached]
        · intro place below
          simp [kept, Nat.not_lt_of_lt below, Nat.ne_of_lt below]
        · simp [kept]
      rw [dropped]
      exact List.sublist_append_right _ _
  · refine ⟨entries, ?_, List.Sublist.refl _⟩
    intro place inside
    rw [contents]
    rcases Nat.lt_or_eq_of_le inside with below | rfl
    · rw [shifted.kept place below]
      exact holds place inside
    · rw [same]
      exact holds place inside

/-- A backup keeps its place or moves to the next older name. -/
theorem PartlyShifted.backups
    (shifted : PartlyShifted filename numBackups hole before after)
    {index : Nat}
    (inside : index < numBackups) :
    after (logName filename index) = before (logName filename index) ∨
      after (logName filename (index + 1)) = before (logName filename index) := by
  rcases Nat.lt_or_ge index hole with below | reached
  · exact Or.inl (shifted.kept index below)
  · exact Or.inr (shifted.moved index reached inside)

end

/-! ## The log file -/

/-- Only the log file changes, and no more than some lines are added to the log. -/
structure WritesLogFile
    (filename : FileName)
    (numBackups : Nat)
    (lines : List ByteVector)
    (before after : Files) :
    Prop where
  entries : KeepsEntries filename numBackups lines before after
  others : ∀ name, name ≠ filename → after name = before name

namespace WritesLogFile

variable {filename : FileName} {numBackups : Nat} {files : Files}

theorem trans
    {lines more : List ByteVector}
    {before middle after : Files}
    (first : WritesLogFile filename numBackups lines before middle)
    (second : WritesLogFile filename numBackups more middle after) :
    WritesLogFile filename numBackups (lines ++ more) before after where
  entries := first.entries.trans second.entries
  others name other := by rw [second.others name other, first.others name other]

theorem refl (lines : List ByteVector) (files : Files) :
    WritesLogFile filename numBackups lines files files where
  entries entries holds := ⟨entries, holds, List.sublist_append_left _ _⟩
  others _ _ := rfl

/-- The log file keeps what it holds or is begun anew, and gets some lines. -/
theorem update
    (keeps : Bool)
    (lines : List ByteVector) :
    WritesLogFile filename numBackups lines files
      (Function.update files filename
        (some ((if keeps then logContents filename files 0 else []) ++ lines.flatten))) where
  entries := by
    intro entries holds
    let kept (place : Nat) : List ByteVector :=
      if place = 0 then (if keeps then entries 0 else []) ++ lines else entries place
    refine ⟨kept, ?_, oldestFirst_newest (fun index => by simp [kept]) ?_⟩
    · intro place inside
      cases place with
      | zero =>
          have newest (content : ByteVector) :
              logContents filename (Function.update files filename (some content)) 0 =
                content := by
            rw [logContents, logName, if_neg (Nat.lt_irrefl 0), Function.update_self]
            rfl
          rw [newest, holds 0 inside]
          cases keeps <;> simp [kept]
      | succ place =>
          rw [logContents, Function.update_of_ne (logName_succ_ne place)]
          exact (holds (place + 1) inside).trans (by simp [kept])
    · simp only [kept, if_true]
      cases keeps
      · exact List.sublist_append_right _ _
      · exact List.Sublist.refl _
  others name other := Function.update_of_ne other ..

end WritesLogFile

section

variable {filename : FileName} {numBackups : Nat} {maxLogSize : Int}
variable (permits : FileCall → Bool)

/-- Opening the log file adds nothing to the log, and sets a stream of that file. -/
theorem openFile_writesLogFile
    {logger : BoostLog}
    (name : logger.filename = filename)
    (mode : OpenMode)
    (files : Files) :
    WritesLogFile filename numBackups [] files (logger.openFile permits mode files).2 ∧
      ∃ failed, (logger.openFile permits mode files).1 =
        { logger with log := some { name := filename, failed := failed } } := by
  unfold BoostLog.openFile
  rw [name]
  split_ifs
  · refine ⟨?_, false, rfl⟩
    cases mode with
    | app => simpa [logContents, logName] using WritesLogFile.update true []
    | out => simpa using @WritesLogFile.update filename numBackups files false []
  · exact ⟨.refl [] files, true, rfl⟩

theorem write_writesLogFile
    {logger : BoostLog}
    (log : ∀ stream, logger.log = some stream → stream.name = filename)
    (content : ByteVector)
    (files : Files) :
    WritesLogFile filename numBackups [content] files (logger.write content files) := by
  unfold BoostLog.write
  split
  · rename_i stream isOpen
    rw [log stream isOpen]
    split_ifs
    · exact .refl [content] files
    · simpa [logContents, logName] using WritesLogFile.update true [content]
  · exact .refl [content] files

/-! ## Calls -/

/-- A rotation that may fail, and then writes to the log file. -/
theorem PartlyShifted.spares
    {hole : Nat}
    {lines : List ByteVector}
    {before middle after : Files}
    (shifted : PartlyShifted filename numBackups hole before middle)
    (writes : WritesLogFile filename numBackups lines middle after) :
    SparesBackups filename numBackups lines before after where
  entries := shifted.keepsEntries.trans writes.entries
  backups index positive inside := by
    have name (place : Nat) (above : 0 < place) : logName filename place ≠ filename := by
      rw [← Nat.succ_pred_eq_of_pos above]
      exact logName_succ_ne _
    rw [writes.others _ (name index positive), writes.others _ (name (index + 1) (by omega))]
    exact shifted.backups inside
  untouched name unrelated := by
    rw [writes.others name (unrelated_ne unrelated), shifted.untouched name unrelated]

theorem openLog_spares
    (outLevel : LogLevel)
    (state : BoostLog × Files) :
    SparesBackups filename numBackups [] state.2
        (state.1.openLog permits filename numBackups maxLogSize outLevel state.2).2 ∧
      SetUp filename numBackups maxLogSize
        (state.1.openLog permits filename numBackups maxLogSize outLevel state.2).1 := by
  obtain ⟨hole, shifted, -⟩ := rotateFrom_partlyShifted permits filename numBackups state.2
  unfold BoostLog.openLog BoostLog.rotateLogs
  dsimp only
  rw [Int.toNat_natCast]
  let closed : BoostLog :=
    { state.1 with
      log := none
      logLevel := outLevel.toInt
      filename := filename
      maxLogSize := maxLogSize
      numBackups := numBackups }
  have named : closed.filename = filename := rfl
  obtain ⟨writes, failed, reopened⟩ := openFile_writesLogFile permits named .app
    (rotateFrom permits filename numBackups state.2).1
  refine ⟨shifted.spares writes, ?_⟩
  rw [reopened]
  exact ⟨rfl, rfl, rfl, fun stream isOpen => by cases isOpen; rfl⟩

/-- A log without a stream is opened anew. -/
theorem reopen_writesLogFile
    {logger : BoostLog}
    (configured : SetUp filename numBackups maxLogSize logger)
    (files : Files) :
    WritesLogFile filename numBackups [] files
        (if logger.log.isNone then logger.openFile permits .out files else (logger, files)).2 ∧
      SetUp filename numBackups maxLogSize
        (if logger.log.isNone then logger.openFile permits .out files else (logger, files)).1 := by
  split_ifs
  · obtain ⟨writes, failed, reopened⟩ :=
      openFile_writesLogFile permits configured.name .out files
    rw [reopened]
    refine ⟨writes, configured.name, configured.backups, configured.limit, ?_⟩
    intro stream isOpen
    cases isOpen
    rfl
  · exact ⟨.refl [] files, configured⟩

/-- The end of `writeMsg`: a notice if the rotation failed, and the message. -/
theorem lines_writeLogFile
    {logger : BoostLog}
    (configured : SetUp filename numBackups maxLogSize logger)
    (rotateOk : Bool)
    (msg : ByteVector)
    (files : Files) :
    WritesLogFile filename numBackups
      ((if rotateOk then [] else [rotationNotice]) ++ [BoostLog.line msg]) files
      (logger.write (BoostLog.line msg)
        (if rotateOk then files else logger.write rotationNotice files)) := by
  refine WritesLogFile.trans ?_ (write_writesLogFile configured.log _ _)
  split_ifs
  · exact .refl [] files
  · exact write_writesLogFile configured.log _ _

theorem writeMsg_spares
    {state next : BoostLog × Files}
    (configured : SetUp filename numBackups maxLogSize state.1)
    {msg : ByteVector}
    (writes : state.1.writeMsg permits msg state.2 = some next) :
    SparesBackups filename numBackups (LogAttempt.lines ⟨permits, .writeMsg msg⟩ state) state.2
        next.2 ∧
      SetUp filename numBackups maxLogSize next.1 := by
  unfold BoostLog.writeMsg at writes
  rw [Option.bind_eq_bind, Option.bind_eq_some_iff] at writes
  obtain ⟨rotates, outgrown, writes⟩ := writes
  cases rotates with
  | false =>
      obtain ⟨reopens, stays⟩ := reopen_writesLogFile permits configured state.2
      have lines := lines_writeLogFile stays true msg
        (if state.1.log.isNone then state.1.openFile permits .out state.2 else state).2
      have unmoved : PartlyShifted filename numBackups numBackups state.2 state.2 :=
        .stopped (fun _ _ => rfl) (Or.inr rfl)
      have written : LogAttempt.lines ⟨permits, .writeMsg msg⟩ state = [BoostLog.line msg] := by
        simp [LogAttempt.lines, outgrown]
      cases writes
      rw [written]
      exact ⟨unmoved.spares (reopens.trans lines), stays⟩
  | true =>
      obtain ⟨hole, shifted, -⟩ := rotateFrom_partlyShifted permits filename numBackups state.2
      have rotated : state.1.rotateLogs permits state.2 =
          rotateFrom permits filename numBackups state.2 := by
        rw [BoostLog.rotateLogs, configured.name, configured.backups, Int.toNat_natCast]
      have closed : SetUp filename numBackups maxLogSize { state.1 with log := none } :=
        ⟨configured.name, configured.backups, configured.limit,
          fun stream isOpen => by cases isOpen⟩
      obtain ⟨reopens, stays⟩ := reopen_writesLogFile permits closed
        (rotateFrom permits filename numBackups state.2).1
      have lines := lines_writeLogFile stays
        (rotateFrom permits filename numBackups state.2).2 msg
        (BoostLog.openFile permits { state.1 with log := none } .out
          (rotateFrom permits filename numBackups state.2).1).2
      have written : LogAttempt.lines ⟨permits, .writeMsg msg⟩ state =
          (if (rotateFrom permits filename numBackups state.2).2 then [] else [rotationNotice]) ++
            [BoostLog.line msg] := by
        rw [LogAttempt.lines]
        dsimp only
        rw [outgrown, rotated]
        cases (rotateFrom permits filename numBackups state.2).2 <;> simp
      rw [rotated] at writes
      cases writes
      rw [written]
      exact ⟨shifted.spares (reopens.trans lines), stays⟩

/-- A call that may fail in any way. -/
theorem LogAttempt.perform_spares
    {attempt : LogAttempt}
    {state next : BoostLog × Files}
    (configured : SetUp filename numBackups maxLogSize state.1)
    (performs : attempt.call.perform attempt.permits filename numBackups maxLogSize state =
      some next) :
    SparesBackups filename numBackups (attempt.lines state) state.2 next.2 ∧
      SetUp filename numBackups maxLogSize next.1 := by
  obtain ⟨permits, call⟩ := attempt
  cases call with
  | openLog outLevel =>
      cases performs
      exact openLog_spares permits outLevel state
  | writeMsg msg => exact writeMsg_spares permits configured performs

/-! ## Runs -/

/-- What a run that writes some lines leaves of the files, and each call in it. -/
structure RunSpares
    (filename : FileName)
    (numBackups : Nat)
    (maxLogSize : Int)
    (attempts : List LogAttempt)
    (lines : List ByteVector)
    (state last : BoostLog × Files) :
    Prop where
  entries : KeepsEntries filename numBackups lines state.2 last.2
  untouched : ∀ name, Unrelated filename numBackups name → last.2 name = state.2 name
  each : ∀ earlier attempt later, attempts = earlier ++ attempt :: later →
    ∃ before written after,
      attemptAll filename numBackups maxLogSize state earlier = some (before, written) ∧
      attempt.call.perform attempt.permits filename numBackups maxLogSize before = some after ∧
      SparesBackups filename numBackups (attempt.lines before) before.2 after.2

theorem RunSpares.cons
    {attempt : LogAttempt}
    {rest : List LogAttempt}
    {lines : List ByteVector}
    {state next last : BoostLog × Files}
    (performs : attempt.call.perform attempt.permits filename numBackups maxLogSize state =
      some next)
    (spares : SparesBackups filename numBackups (attempt.lines state) state.2 next.2)
    (others : RunSpares filename numBackups maxLogSize rest lines next last) :
    RunSpares filename numBackups maxLogSize (attempt :: rest) (attempt.lines state ++ lines)
      state last where
  entries := spares.entries.trans others.entries
  untouched name unrelated := by
    rw [others.untouched name unrelated, spares.untouched name unrelated]
  each earlier other later split := by
    cases earlier with
    | nil =>
        cases split
        exact ⟨state, [], next, rfl, performs, spares⟩
    | cons first earlier =>
        cases split
        obtain ⟨before, written, after, reached, performsOther, sparesOther⟩ :=
          others.each earlier other later rfl
        refine ⟨before, attempt.lines state ++ written, after, ?_, performsOther, sparesOther⟩
        rw [attemptAll, performs, Option.bind_eq_bind, Option.bind_some, reached]
        rfl

theorem runSpares_of_configured
    {state last : BoostLog × Files}
    {lines : List ByteVector}
    (configured : SetUp filename numBackups maxLogSize state.1)
    {attempts : List LogAttempt}
    (performs : attemptAll filename numBackups maxLogSize state attempts = some (last, lines)) :
    RunSpares filename numBackups maxLogSize attempts lines state last := by
  induction attempts generalizing state lines with
  | nil =>
      cases performs
      refine ⟨(WritesLogFile.refl [] last.2).entries, fun _ _ => rfl, ?_⟩
      intro earlier attempt later split
      simp at split
  | cons attempt rest inductionHypothesis =>
      rw [attemptAll, Option.bind_eq_bind, Option.bind_eq_some_iff] at performs
      obtain ⟨next, performsFirst, performs⟩ := performs
      rw [Option.bind_eq_bind, Option.bind_eq_some_iff] at performs
      obtain ⟨⟨reached, others⟩, performsRest, same⟩ := performs
      cases same
      obtain ⟨spares, stays⟩ := attempt.perform_spares configured performsFirst
      exact .cons performsFirst spares (inductionHypothesis stays performsRest)

end

/-- Whatever calls to the file system fail, and whenever, from the opening of a log on: the log
keeps some of its files as they were and some of the lines that were written to it, whole, in
order and each once; it never touches another file, and each call leaves every backup but the
oldest under its name or under the next older one. -/
theorem failures_spare_backups
    (permits : FileCall → Bool)
    (filename : FileName)
    (numBackups : Nat)
    (maxLogSize : Int)
    (outLevel : LogLevel)
    (attempts : List LogAttempt)
    {state last : BoostLog × Files}
    {lines : List ByteVector}
    (performs : attemptAll filename numBackups maxLogSize state
      (⟨permits, .openLog outLevel⟩ :: attempts) = some (last, lines)) :
    RunSpares filename numBackups maxLogSize (⟨permits, .openLog outLevel⟩ :: attempts) lines
        state last ∧
      ∃ kept : List ByteVector, logText filename numBackups last.2 = kept.flatten ∧
        kept.Sublist (logWindow filename numBackups state.2 ++ lines) := by
  rw [attemptAll, Option.bind_eq_bind, Option.bind_eq_some_iff] at performs
  obtain ⟨next, performsFirst, performs⟩ := performs
  rw [Option.bind_eq_bind, Option.bind_eq_some_iff] at performs
  obtain ⟨⟨reached, others⟩, performsRest, same⟩ := performs
  cases same
  let attempt : LogAttempt := ⟨permits, .openLog outLevel⟩
  have opened : SparesBackups filename numBackups (attempt.lines state) state.2 next.2 ∧
      SetUp filename numBackups maxLogSize next.1 := by
    cases performsFirst
    exact openLog_spares permits outLevel state
  have run := RunSpares.cons performsFirst opened.1
    (runSpares_of_configured opened.2 performsRest)
  refine ⟨run, ?_⟩
  -- at first, each file is one entry
  obtain ⟨kept, holds, sublist⟩ := run.entries
    (fun index => [logContents filename state.2 index]) (fun index _ => by simp)
  refine ⟨oldestFirst numBackups kept, ?_, ?_⟩
  · rw [logText, logWindow, oldestFirst, List.flatten_flatten, List.map_map]
    congr 1
    apply List.map_congr_left
    intro index member
    rw [List.mem_reverse, List.mem_range] at member
    exact holds index (by omega)
  · have files : oldestFirst numBackups (fun index => [logContents filename state.2 index]) =
        logWindow filename numBackups state.2 := by
      rw [oldestFirst, ← List.flatMap_def]
      exact List.flatMap_pure_eq_map _ _
    rwa [files] at sublist

/-- The log is full when no file can be renamed: it is truncated, and the backup stays. -/
theorem failures_spare_backups_example :
    let files : Files := Function.update
      (Function.update (fun _ => none) (asciiBytes "mux.log") (some (asciiBytes "full")))
      (asciiBytes "mux.log.1") (some (asciiBytes "old"))
    let noRename : FileCall → Bool
      | .rename _ _ => false
      | _ => true
    ∃ last lines, RunSpares (asciiBytes "mux.log") 2 3
        [⟨noRename, .openLog .info⟩, ⟨noRename, .writeMsg (asciiBytes "new")⟩] lines ({}, files)
        last ∧
      ∃ kept : List ByteVector, logText (asciiBytes "mux.log") 2 last.2 = kept.flatten ∧
        kept.Sublist (logWindow (asciiBytes "mux.log") 2 files ++ lines) :=
  ⟨_, _, failures_spare_backups _ (asciiBytes "mux.log") 2 3 .info _ rfl⟩

end SerialMux
