import SerialMux.BoostLog
import SerialMux.Connection
import Mathlib.Data.Fin.VecNotation

/-!
# Options of the program

`hexToBin` reads an authentication token, and `parseConfiguration` sets the options from
the command line and the configuration file.  The parsers of both are parameters: what
they store for the options is an `Option` for each, which defaults and the precedence
of the command line are applied to here.
-/

namespace SerialMux

/-! ## Hexadecimal text -/

/-- The value of a hexadecimal digit. -/
def hexValue (c : Byte) : Byte :=
  if isdigit c then c - 0x30 else tolower c - 0x61 + 10

/-- A character between two runs of digits, `-` or `:`. -/
def isHexSeparator (c : Byte) : Bool :=
  c == 0x2D || c == 0x3A

/-- The memory of a text and the NUL behind it. -/
def cString (text : ByteVector) : ByteVector :=
  text ++ [0]

/-- The loop over the characters, with the index of the current byte, the number of its
digits, and whether the previous character was a digit.  The result is `none` if an
access is outside `str` or `outBuf`. -/
def hexToBinLoop (len : Nat) :
    ByteVector → Nat → Nat → Bool → ByteVector → Option (Nat × ByteVector)
  | [], _, _, _, _ => none
  | c :: str, idx, nn, wasDigit, outBuf =>
      let isDigit := isxdigit c
      if wasDigit && (c == 0 || isspace c || isHexSeparator c) || isDigit then
        let (idx, nn) := if !isDigit || nn == 2 then (idx + 1, 0) else (idx, nn)
        if isDigit then
          if idx < len then
            match outBuf[idx]? with
            | none => none
            | some byte =>
                hexToBinLoop len str idx (nn + 1) isDigit
                  (outBuf.set idx ((byte <<< 4) + hexValue c))
          else some (0, outBuf)
        else if isHexSeparator c then hexToBinLoop len str idx nn isDigit outBuf
        else some (idx, outBuf)
      else some (0, outBuf)

/-- Convert a hexadecimal text into the bytes at the start of a buffer.  The number of
bytes is 0 on an error.  `str` and `outBuf` are the memory from the two pointers on. -/
def hexToBin (str outBuf : ByteVector) (len : Nat) : Option (Nat × ByteVector) :=
  if len ≤ outBuf.length then
    hexToBinLoop len (str.dropWhile isspace) 0 0 false
      (List.replicate len 0 ++ outBuf.drop len)
  else none

/-! ## Options -/

/-- The structure `SerialMuxOptions` with its defaults. -/
structure SerialMuxOptions where
  configFile : FileName := asciiBytes "serial_mux.cfg"
  useSerial : Bool := true
  serialPort : ByteVector := asciiBytes "COM1"
  baudRate : BitVec 32 := 115200
  useFlowControl : Bool := false
  rtsDelay : Int := 5
  emulatorPort : BitVec 16 := 60000
  listenerPort : BitVec 16 := 9900
  acceptAnyhost : Bool := false
  authToken : Fin 8 → Byte := ![48, 49, 50, 51, 52, 53, 54, 55]
  picardTimeout : Int := 3000
  picardRetries : Int := 2
  readTimeout : Int := 1000
  runAsDaemon : Bool := false
  serviceName : ByteVector := asciiBytes "SerialMux"
  logLevel : LogLevel := .error
  logFile : FileName := asciiBytes "serial_mux.log"
  numLogBackups : Int := 5
  maxLogSize : Int := 1000000
  deriving DecidableEq

/-- The options that are allowed anywhere, as far as they are given. -/
structure GeneralOptions where
  port : Option ByteVector := none
  listen : Option (BitVec 16) := none
  acceptAnyhost : Bool := false
  rtsDelay : Option Int := none
  picardTimeout : Option Int := none
  picardRetries : Option Int := none
  readTimeout : Option Int := none
  flowControl : Bool := false
  logLevel : Option ByteVector := none
  logFile : Option FileName := none
  logNumBackups : Option Int := none
  logMaxSize : Option Int := none
  daemon : Bool := false
  serviceName : Option ByteVector := none

/-- The options of the command line. -/
structure CommandLine extends GeneralOptions where
  version : Bool := false
  help : Bool := false
  config : Option FileName := none
  directory : Option FileName := none

/-- The options of the configuration file. -/
structure ConfigFile extends GeneralOptions where
  authToken : Option ByteVector := none
  baud : Option (BitVec 32) := none

/-- Options that were stored first take precedence. -/
def GeneralOptions.store (first second : GeneralOptions) : GeneralOptions where
  port := first.port <|> second.port
  listen := first.listen <|> second.listen
  acceptAnyhost := first.acceptAnyhost || second.acceptAnyhost
  rtsDelay := first.rtsDelay <|> second.rtsDelay
  picardTimeout := first.picardTimeout <|> second.picardTimeout
  picardRetries := first.picardRetries <|> second.picardRetries
  readTimeout := first.readTimeout <|> second.readTimeout
  flowControl := first.flowControl || second.flowControl
  logLevel := first.logLevel <|> second.logLevel
  logFile := first.logFile <|> second.logFile
  logNumBackups := first.logNumBackups <|> second.logNumBackups
  logMaxSize := first.logMaxSize <|> second.logMaxSize
  daemon := first.daemon || second.daemon
  serviceName := first.serviceName <|> second.serviceName

/-- Set the variables of the options that have one, by default to the default value. -/
def GeneralOptions.notify (general : GeneralOptions) (options : SerialMuxOptions) :
    SerialMuxOptions :=
  let default : SerialMuxOptions := {}
  { options with
    serialPort := general.port.getD default.serialPort
    listenerPort := general.listen.getD default.listenerPort
    rtsDelay := general.rtsDelay.getD default.rtsDelay
    picardTimeout := general.picardTimeout.getD default.picardTimeout
    picardRetries := general.picardRetries.getD default.picardRetries
    readTimeout := general.readTimeout.getD default.readTimeout
    logFile := general.logFile.getD default.logFile
    numLogBackups := general.logNumBackups.getD default.numLogBackups
    maxLogSize := general.logMaxSize.getD default.maxLogSize
    serviceName := general.serviceName.getD default.serviceName }

/-- What the parsers of the command line and of the configuration file throw. -/
inductive OptionError
  | unknownOption (name : ByteVector)
  | other (what : ByteVector)
  deriving DecidableEq, Repr

/-- What `parseConfiguration` throws. -/
inductive ConfigurationError
  | invalidArgument (what : ByteVector)
  | option (what : ByteVector)
  | directory (name : FileName)
  deriving DecidableEq, Repr

/-- The parsers of the options and the system that the program is started in.  A file
is read from the directory that was changed to, if one was. -/
structure Surroundings where
  parseCommandLine : List ByteVector → Except OptionError CommandLine
  parseConfigFile : ByteVector → Except OptionError ConfigFile
  isDirectory : FileName → Bool
  readFile : Option FileName → FileName → Option ByteVector
  usage : ByteVector

/-- The text that `--version` prints. -/
def getVersionString : ByteVector :=
  [asciiBytes "Serial Mux v", decimal getVersion.major.toNat, asciiBytes ".",
    decimal getVersion.minor.toNat, asciiBytes ".", decimal getVersion.release.toNat,
    asciiBytes " (build ", decimal getVersion.build.toNat, asciiBytes ")"].flatten

/-- The value returned, the options and what was printed. -/
structure Configured where
  result : Nat
  options : SerialMuxOptions
  printed : ByteVector := []

/-- An error of a parser.  Only an unknown option is caught. -/
def OptionError.rethrow (place : ByteVector) : OptionError → ConfigurationError
  | .unknownOption name =>
      .invalidArgument ([asciiBytes "unknown option '", name, asciiBytes "'", place].flatten)
  | .other what => .option what

/-- Read the configuration file, if there is one.  A file that was asked for has to
exist. -/
def readConfigFile
    (surroundings : Surroundings)
    (commandLine : CommandLine)
    (configFile : FileName) :
    Except ConfigurationError (Option ConfigFile) :=
  match surroundings.readFile commandLine.directory configFile with
  | none =>
      if commandLine.config.isSome then
        throw (.invalidArgument (asciiBytes "can not open config file: " ++ configFile))
      else return none
  | some content =>
      match surroundings.parseConfigFile content with
      | .ok stored => return some stored
      | .error error => throw (error.rethrow (asciiBytes " in " ++ configFile))

/-- Set the token from its text.  The number of bytes is only compared to 0. -/
def parseAuthToken (authTokenStr : ByteVector) (options : SerialMuxOptions) :
    Except ConfigurationError SerialMuxOptions :=
  match hexToBin (cString authTokenStr) (List.ofFn options.authToken) authenticationLen with
  | some (result, authToken) =>
      if result = 0 then
        throw (.invalidArgument
          (asciiBytes "invalid authentication token: " ++ authTokenStr))
      else return { options with authToken := fun i => authToken.getD i 0 }
  -- not reached: the conversion stays within its string and buffer
  | none => return options

/-- A port that is a number is a TCP port, not a serial port. -/
def parsePort (options : SerialMuxOptions) : SerialMuxOptions :=
  let emulatorPort := BitVec.ofInt 16 (atoi options.serialPort)
  { options with
    emulatorPort := emulatorPort
    useSerial :=
      if 0 < emulatorPort && emulatorPort < 65535 then false else options.useSerial }

/-- Set the options that are flags, and the log level. -/
def parseFlags (general : GeneralOptions) (options : SerialMuxOptions) : SerialMuxOptions :=
  { options with
    acceptAnyhost := general.acceptAnyhost || options.acceptAnyhost
    useFlowControl := general.flowControl || options.useFlowControl
    runAsDaemon := general.daemon || options.runAsDaemon
    logLevel := (general.logLevel.map stringToEnum).getD options.logLevel }

/-- Parse the command line and the configuration file.  The value returned is 0, or 1 if
the caller should exit. -/
def parseConfiguration
    (surroundings : Surroundings)
    (options : SerialMuxOptions)
    (argv : List ByteVector) :
    Except ConfigurationError Configured := do
  let commandLine ←
    match surroundings.parseCommandLine argv with
    | .ok stored => pure stored
    | .error error => throw (error.rethrow [])
  let options := commandLine.toGeneralOptions.notify options
  let options := { options with configFile := commandLine.config.getD options.configFile }
  if commandLine.help then
    return { result := 1, options := options, printed := surroundings.usage ++ asciiBytes "\n" }
  if commandLine.version then
    return { result := 1, options := options, printed := getVersionString ++ asciiBytes "\n" }
  if commandLine.directory.any fun name => !surroundings.isDirectory name then
    throw (.directory (commandLine.directory.getD []))
  let configFile ← readConfigFile surroundings commandLine options.configFile
  match configFile with
  | none =>
      return { result := 0, options := parseFlags commandLine.toGeneralOptions (parsePort options) }
  | some stored =>
      let general := commandLine.toGeneralOptions.store stored.toGeneralOptions
      let options := general.notify options
      let options := { options with baudRate := stored.baud.getD options.baudRate }
      let options := parsePort options
      let options ←
        match stored.authToken with
        | some authTokenStr => parseAuthToken authTokenStr options
        | none => pure options
      return { result := 0, options := parseFlags general options }

end SerialMux
