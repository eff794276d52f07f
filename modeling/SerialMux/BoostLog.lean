import SerialMux.Characters
import Mathlib.Logic.Function.Basic

/-!
# The log and its backups

`CBoostLog` writes to one file and keeps some older ones, whose names carry a number.
The files of the system are a function of their names, and a call to the file system
may be refused: the calls that throw then are those of the source.  What is written to an
open stream reaches its file.  The logging thread, its queue and the lock that guards the
log's settings are left out.
-/

namespace SerialMux

inductive LogLevel
  | trace
  | info
  | warning
  | error
  | fatal
  | always
  deriving DecidableEq, Repr

/-- The number of a level in the enumeration. -/
def LogLevel.toInt : LogLevel → Int
  | .trace => 0
  | .info => 1
  | .warning => 2
  | .error => 3
  | .fatal => 4
  | .always => 5

/-- The level of a name, whatever its case.  Any other text is an error level. -/
def stringToEnum (levelStr : ByteVector) : LogLevel :=
  let lower := levelStr.map tolower
  if lower = asciiBytes "trace" then .trace
  else if lower = asciiBytes "info" then .info
  else if lower = asciiBytes "warning" then .warning
  else .error

/-- A path. -/
abbrev FileName := ByteVector

/-- The contents of the files that exist. -/
abbrev Files := FileName → Option ByteVector

inductive OpenMode
  | out
  | app
  deriving DecidableEq, Repr

/-- What the log asks of the file system. -/
inductive FileCall
  | exists (name : FileName)
  | remove (name : FileName)
  | rename (source target : FileName)
  | fileSize (name : FileName)
  | openFile (name : FileName) (mode : OpenMode)

/-- An output stream, `failed` if its file could not be opened. -/
structure LogStream where
  name : FileName
  failed : Bool
  deriving DecidableEq, Repr

/-- The fields of `CBoostLog`. -/
structure BoostLog where
  logLevel : Int := -1
  numBackups : Int := 1
  maxLogSize : Int := 1000000
  filename : FileName := []
  log : Option LogStream := none
  deriving DecidableEq, Repr

/-- The name of the base log file, or of a backup. -/
def logName (filename : FileName) (index : Nat) : FileName :=
  if 0 < index then filename ++ asciiBytes "." ++ decimal index else filename

section

variable (permits : FileCall → Bool)

/-- Remove a file if it exists.  The result says whether no call failed. -/
def removeExisting (name : FileName) (files : Files) : Files × Bool :=
  if permits (.exists name) then
    if (files name).isSome then
      if permits (.remove name) then (Function.update files name none, true)
      else (files, false)
    else (files, true)
  else (files, false)

/-- Rename a file if it exists. -/
def renameExisting (source target : FileName) (files : Files) : Files × Bool :=
  if permits (.exists source) then
    if (files source).isSome then
      if permits (.rename source target) then
        (Function.update (Function.update files target (files source)) source none, true)
      else (files, false)
    else (files, true)
  else (files, false)

/-- Move the file before a backup to the backup. -/
def moveAside (filename : FileName) (index : Nat) (files : Files) : Files × Bool :=
  let backup := logName filename index
  let previous := logName filename (index - 1)
  match removeExisting permits backup files with
  | (files, false) => (files, false)
  | (files, true) => renameExisting permits previous backup files

/-- The loop over the backups, from the oldest down to the first. -/
def rotateFrom (filename : FileName) : Nat → Files → Files × Bool
  | 0, files => (files, true)
  | index + 1, files =>
      match moveAside permits filename (index + 1) files with
      | (files, false) => (files, false)
      | (files, true) => rotateFrom filename index files

namespace BoostLog

/-- Rotate the files.  The result says whether the rotation succeeded. -/
def rotateLogs (logger : BoostLog) (files : Files) : Files × Bool :=
  rotateFrom permits logger.filename logger.numBackups.toNat files

/-- Open the log file, to append to it or to begin it anew. -/
def openFile (logger : BoostLog) (mode : OpenMode) (files : Files) : BoostLog × Files :=
  if permits (.openFile logger.filename mode) then
    let content :=
      match mode with
      | .app => (files logger.filename).getD []
      | .out => []
    ({ logger with log := some { name := logger.filename, failed := false } },
      Function.update files logger.filename (some content))
  else ({ logger with log := some { name := logger.filename, failed := true } }, files)

/-- Close the log, take over the settings, rotate the files and open the log file. -/
def openLog
    (logger : BoostLog)
    (logfile : FileName)
    (numBackups maxLogSize : Int)
    (outLevel : LogLevel)
    (files : Files) :
    BoostLog × Files :=
  let logger : BoostLog :=
    { logger with
      log := none
      logLevel := outLevel.toInt
      filename := logfile
      maxLogSize := maxLogSize
      numBackups := numBackups }
  logger.openFile permits .app (logger.rotateLogs permits files).1

/-- Whether the log file has got too big.  The size of a file that does not exist
throws. -/
def outgrown (logger : BoostLog) (files : Files) : Option Bool :=
  if 0 < logger.maxLogSize then
    if permits (.fileSize logger.filename) then
      (files logger.filename).map fun content => decide (logger.maxLogSize < content.length)
    else none
  else some false

/-- What a stream writes, with the end of the line. -/
def line (msg : ByteVector) : ByteVector :=
  msg ++ asciiBytes "\n"

/-- Append to the file of the open stream.  A stream that failed to open takes nothing. -/
def write (logger : BoostLog) (content : ByteVector) (files : Files) : Files :=
  match logger.log with
  | some stream =>
      if stream.failed then files
      else Function.update files stream.name (some ((files stream.name).getD [] ++ content))
  | none => files

/-- Write a message, after a rotation if the log file has got too big.  The result is
`none` if the call for the file's size throws. -/
def writeMsg (logger : BoostLog) (msg : ByteVector) (files : Files) :
    Option (BoostLog × Files) := do
  let rotates ← logger.outgrown permits files
  let (logger, files, rotateOk) :=
    if rotates then
      let (files, rotateOk) := logger.rotateLogs permits files
      ({ logger with log := none }, files, rotateOk)
    else (logger, files, true)
  let (logger, files) :=
    if logger.log.isNone then logger.openFile permits .out files else (logger, files)
  let files :=
    if rotateOk then files
    else logger.write (line (asciiBytes "Log file could not be rotated, truncated instead."))
      files
  return (logger, logger.write (line msg) files)

end BoostLog

end

/-! ## File names -/

/-- The files of a log have different names. -/
theorem logName_injective (filename : FileName) : Function.Injective (logName filename) := by
  intro left right same
  unfold logName at same
  split_ifs at same with leftPositive rightPositive rightPositive
  · exact decimal_injective (List.append_cancel_left same)
  · simp [asciiBytes] at same
  · simp [asciiBytes] at same
  · omega

@[simp] theorem logName_inj {filename : FileName} {left right : Nat} :
    logName filename left = logName filename right ↔ left = right :=
  (logName_injective filename).eq_iff

end SerialMux
