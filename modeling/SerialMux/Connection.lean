import SerialMux.Client
import SerialMux.Library.Machine

/-!
# A client connection

`Connection` is `CBoostClient` with its parser and its authentication timer.  Its
events are the completions that the I/O service delivers, and calls of `close`.
-/

namespace SerialMux

/-- The length of the payload of MUX_HELLO: the version and the token. -/
def expectedHelloLen : Nat := 9

/-- The length of the authentication token. -/
def authenticationLen : Nat := 8

/-- The state of `m_authTimeout`: its time runs, its handler is queued without or
with an error, or its handler has run. -/
inductive AuthTimer
  | pending
  | expired
  | aborted
  | handled
  deriving DecidableEq, Repr

/-- Cancel the timer.  A handler that is already queued without an error is not
recalled. -/
def AuthTimer.cancel : AuthTimer → AuthTimer
  | .pending => .aborted
  | timer => timer

/-- The class `CBoostClient` with all fields that its handlers use. -/
structure Connection extends Client where
  parser : MuxParser := MuxParser.new
  expectedAuth : Fin 8 → Byte
  authTimeout : AuthTimer := .pending

/-- What a connection lets an observer see: the bytes read, each message with the
state in which it is handled, and the calls of the client manager. -/
inductive ConnectionOutput
  | received (data : ByteVector)
  | handled (state : InitState) (command : MuxMessage)
  | wrote (resp : MuxOutput)
  | addClient
  | addCommand (command : MuxMessage)
  | removeClient
  deriving DecidableEq, Repr

/-- What can happen to a connection next. -/
inductive ConnectionEvent
  | read (data : ByteVector)
  | readError
  | expire
  | authTimeout
  | close
  | hangUp
  deriving DecidableEq, Repr

namespace Connection

/-- The connection after `start`. -/
def start (protocolVersion : Byte) (expectedAuth : Fin 8 → Byte) : Connection where
  protocolVersion := protocolVersion
  expectedAuth := expectedAuth

/-- Check a hello.  A wrong token overwrites the result of the version check. -/
def parseHello (c : Connection) (data : ByteVector) (length : BitVec 16) : Byte :=
  if length.toNat = expectedHelloLen then
    let version := if data.getD 0 0 ≠ c.protocolVersion then ErrorCode.unsupportedVersion
      else ErrorCode.ok
    (List.finRange authenticationLen).foldl
      (fun result i =>
        if c.expectedAuth i ≠ data.getD (1 + i) 0 then ErrorCode.invalidAuth else result)
      version
  else ErrorCode.invalidCmd

/-- The answer to a hello. -/
def buildHelloResponse (c : Connection) (result : Byte) : MuxOutput :=
  MuxOutput.make MuxCommand.muxHello 0 result [c.protocolVersion]

/-- Handle a message: queue it, check a hello, or discard it. -/
def handleCommand (c : Connection) (command : MuxMessage) :
    Connection × List ConnectionOutput :=
  if c.initState = .authenticated then (c, [.addCommand command])
  else if c.initState = .waiting ∧ command.type = MuxCommand.muxHello then
    let helloResult := c.parseHello command.data command.size
    let answered := { c with authTimeout := c.authTimeout.cancel }
    if helloResult = ErrorCode.ok then
      ({ answered with initState := .authenticated },
        [.wrote (c.buildHelloResponse helloResult), .addClient])
    else
      ({ answered with initState := .badInit, socketOpen := false },
        [.wrote (c.buildHelloResponse helloResult)])
  else (c, [])

/-- Handle the messages that one call of the parser delivers. -/
def handleCommands (c : Connection) :
    List MuxMessage → Connection × List ConnectionOutput
  | [] => (c, [])
  | command :: rest =>
      let (next, outputs) := c.handleCommand command
      let (final, more) := next.handleCommands rest
      (final, .handled c.initState command :: outputs ++ more)

@[simp] theorem handleCommands_nil (c : Connection) : c.handleCommands [] = (c, []) := rfl

@[simp] theorem handleCommands_cons
    (c : Connection)
    (command : MuxMessage)
    (rest : List MuxMessage) :
    c.handleCommands (command :: rest) =
      (((c.handleCommand command).1.handleCommands rest).1,
        .handled c.initState command :: ((c.handleCommand command).2 ++
          ((c.handleCommand command).1.handleCommands rest).2)) := rfl

/-- A read completes without an error.  Nothing more is read after a bad hello. -/
def handleRead (c : Connection) (data : ByteVector) : Connection × List ConnectionOutput :=
  if 0 < data.length then
    let (messages, parser) := c.parser.read data
    let (next, outputs) := { c with parser := parser }.handleCommands messages
    ({ next with reading := next.initState ≠ .badInit }, .received data :: outputs)
  else ({ c with reading := false }, [])

/-- A read completes with an error. -/
def handleReadError (c : Connection) : Connection × List ConnectionOutput :=
  ({ c with reading := false },
    if c.initState = .authenticated then [.removeClient] else [])

/-- Close the connection; whether it returns rather than throws. -/
def close (c : Connection) : Connection × Bool :=
  let cancelled := { c with authTimeout := c.authTimeout.cancel }
  match c.toClient.close with
  | some closed => ({ cancelled with toClient := closed }, true)
  | none => (cancelled, false)

/-- The timer's handler.  Whether closing throws makes no difference here. -/
def handleAuthTimeout (c : Connection) (error : Bool) : Connection :=
  if error then c else (close { c with initState := .badInit }).1

/-- One event of a connection. -/
def step (c : Connection) : ConnectionEvent → Connection × List ConnectionOutput
  | .read data => if c.reading then c.handleRead data else (c, [])
  | .readError => if c.reading then c.handleReadError else (c, [])
  | .expire =>
      if c.authTimeout = .pending then ({ c with authTimeout := .expired }, []) else (c, [])
  | .authTimeout =>
      match c.authTimeout with
      | .expired => (handleAuthTimeout { c with authTimeout := .handled } false, [])
      | .aborted => (handleAuthTimeout { c with authTimeout := .handled } true, [])
      | .pending | .handled => (c, [])
  | .close => (c.close.1, [])
  | .hangUp => ({ c with peerGone := true }, [])

/-! ## The hello check -/

/-- The payload of a correct hello. -/
def helloPayload (protocolVersion : Byte) (expectedAuth : Fin 8 → Byte) : ByteVector :=
  protocolVersion :: List.ofFn expectedAuth

/-- A loop that overwrites its result ends with a good one only if it starts with it
and finds nothing wrong. -/
theorem foldl_overwrite_eq_ok
    {ι : Type*}
    {bad : Byte}
    (notOk : bad ≠ ErrorCode.ok)
    (wrong : ι → Prop)
    [DecidablePred wrong]
    (indices : List ι)
    (result : Byte) :
    indices.foldl (fun result i => if wrong i then bad else result) result = ErrorCode.ok ↔
      result = ErrorCode.ok ∧ ∀ i ∈ indices, ¬wrong i := by
  induction indices generalizing result with
  | nil => simp
  | cons i rest inductionHypothesis =>
      rw [List.foldl_cons, inductionHypothesis, List.forall_mem_cons]
      by_cases wrongHere : wrong i
      · simp [wrongHere, notOk]
      · simp [wrongHere]

@[simp] theorem helloPayload_length (protocolVersion : Byte) (expectedAuth : Fin 8 → Byte) :
    (helloPayload protocolVersion expectedAuth).length = expectedHelloLen := by
  rw [helloPayload, List.length_cons, List.length_ofFn]
  rfl

/-- The token stands behind the version. -/
theorem helloPayload_getD
    (protocolVersion : Byte)
    (expectedAuth : Fin 8 → Byte)
    (i : Fin 8) :
    (helloPayload protocolVersion expectedAuth).getD (1 + i) 0 = expectedAuth i := by
  have bound : (i : Nat) < (List.ofFn expectedAuth).length := by
    rw [List.length_ofFn]
    exact i.isLt
  rw [Nat.add_comm, helloPayload, List.getD_cons_succ, List.getD_eq_getElem?_getD,
    List.getElem?_eq_getElem bound, Option.getD_some, List.getElem_ofFn]

/-- Nine bytes are the version and the token when they agree with them one by one. -/
theorem eq_helloPayload_iff
    {data : ByteVector}
    (long : data.length = expectedHelloLen)
    (protocolVersion : Byte)
    (expectedAuth : Fin 8 → Byte) :
    data = helloPayload protocolVersion expectedAuth ↔
      data.getD 0 0 = protocolVersion ∧
        ∀ i : Fin 8, expectedAuth i = data.getD (1 + i) 0 := by
  constructor
  · rintro rfl
    exact ⟨rfl, fun i => (helloPayload_getD protocolVersion expectedAuth i).symm⟩
  · rintro ⟨version, token⟩
    apply List.ext_getElem
    · rw [long, helloPayload_length]
    · intro index inData inPayload
      have entry : ∀ (bytes : ByteVector) (inBytes : index < bytes.length),
          bytes[index] = bytes.getD index 0 := by
        intro bytes inBytes
        rw [List.getD_eq_getElem?_getD, List.getElem?_eq_getElem inBytes, Option.getD_some]
      rw [entry data inData, entry _ inPayload]
      cases index with
      | zero => exact version
      | succ index =>
          have bound : index < 8 := by
            rw [long, expectedHelloLen] at inData
            omega
          have byte := helloPayload_getD protocolVersion expectedAuth ⟨index, bound⟩
          rw [Nat.add_comm index 1]
          exact (token ⟨index, bound⟩).symm.trans byte.symm

/-- The check accepts the version followed by the token, and nothing else. -/
theorem parseHello_eq_ok_iff
    (c : Connection)
    {command : MuxMessage}
    (short : command.data.length < 65536) :
    c.parseHello command.data command.size = ErrorCode.ok ↔
      command.data = helloPayload c.protocolVersion c.expectedAuth := by
  have size : command.size.toNat = command.data.length := command.size_toNat short
  unfold parseHello
  rw [size]
  by_cases long : command.data.length = expectedHelloLen
  · have version : (if command.data.getD 0 0 ≠ c.protocolVersion then
        ErrorCode.unsupportedVersion else ErrorCode.ok) = ErrorCode.ok ↔
          command.data.getD 0 0 = c.protocolVersion := by
      split_ifs with wrong
      · exact ⟨fun impossible => absurd impossible (by decide), fun right => absurd right wrong⟩
      · exact ⟨fun _ => not_not.mp wrong, fun _ => rfl⟩
    have loop := foldl_overwrite_eq_ok (show ErrorCode.invalidAuth ≠ ErrorCode.ok by decide)
      (fun i => c.expectedAuth i ≠ command.data.getD (1 + i) 0)
      (List.finRange authenticationLen)
      (if command.data.getD 0 0 ≠ c.protocolVersion then ErrorCode.unsupportedVersion
        else ErrorCode.ok)
    rw [if_pos long, eq_helloPayload_iff long]
    refine loop.trans ?_
    rw [version]
    refine and_congr_right fun _ => ?_
    constructor
    · intro right i
      exact not_not.mp (right i (List.mem_finRange i))
    · intro right i _
      exact not_not.mpr (right i)
  · rw [if_neg long]
    constructor
    · intro impossible
      cases impossible
    · intro payload
      exact absurd (by rw [payload, helloPayload_length]) long

end Connection

/-! ## What the parser delivers -/

namespace MuxParser

/-- A message's payload is shorter than its announced length, which has two bytes. -/
theorem parse_data_length
    {parser next : MuxParser}
    {message : MuxMessage}
    (parsed : parser.parse = (some message, next)) :
    message.data.length < 65536 := by
  unfold parse at parsed
  split at parsed
  case h_1 position found =>
    split at parsed
    case h_1 high low body rest =>
      dsimp only at parsed
      split at parsed
      · simp only [Prod.mk.injEq, Option.some.injEq] at parsed
        have announced : (body.take (high.toNat * 256 + low.toNat)).length < 65536 := by
          rw [List.length_take]
          have highBound := high.isLt
          have lowBound := low.isLt
          omega
        rw [← parsed.1]
        unfold MuxMessage.ofData
        split
        · rename_i shape
          rw [shape] at announced
          simp only [List.length_cons] at announced
          dsimp only
          omega
        · simp
      · simp at parsed
    case h_2 => simp at parsed
  case h_2 => split at parsed <;> simp at parsed

theorem read_data_length
    (parser : MuxParser)
    (input : ByteVector) :
    ∀ message ∈ (parser.read input).1, message.data.length < 65536 := by
  unfold read
  induction ({ partialInput := parser.partialInput ++ input } : MuxParser) using
    MuxParser.parseAll.induct with
  | case1 parser message next parsed messages final ending inductionHypothesis =>
      rw [parseAll_of_some parsed, List.forall_mem_cons]
      exact ⟨parse_data_length parsed, inductionHypothesis⟩
  | case2 parser next parsed =>
      rw [parseAll_of_none parsed]
      simp

end MuxParser

end SerialMux
