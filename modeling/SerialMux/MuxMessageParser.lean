import SerialMux.Common
import SerialMux.Library.Search

/-!
# Mux messages and their parser

`MuxMessage` and `MuxOutput` are the two ways a message of the client protocol
is built and serialized; `MuxParser` collects the bytes read from a client and
hands every complete message to its handler.
-/

namespace SerialMux

open PatternSearch

/-- The four bytes that start every message. -/
def magicToken : ByteVector := [0xa7, 0x40, 0xa0, 0xf5]

@[simp] theorem magicToken_length : magicToken.length = 4 := rfl

theorem magicToken_ne_nil : magicToken ≠ [] := by decide

/-- The token has no border: its first byte does not occur again in it. -/
theorem magicToken_unbordered : Unbordered magicToken := by
  intro shift positive short
  rw [magicToken_length] at short
  interval_cases shift <;> decide

/-! ## Messages -/

/-- The class `CMuxMessage`. -/
structure MuxMessage where
  data : ByteVector := []
  type : Byte := 0
  id : BitVec 16 := 0
  deriving DecidableEq, Repr

namespace MuxMessage

/-- The constructor from a type and a payload. -/
def ofPayload (type : Byte) (data : ByteVector) : MuxMessage :=
  { data := data, type := type, id := 0 }

/-- The constructor from the bytes behind the length field. -/
def ofData : ByteVector → MuxMessage
  | idHigh :: idLow :: type :: data =>
      { data := data
        type := type
        id := (idHigh.setWidth 16 <<< 8) ||| idLow.setWidth 16 }
  | _ => { data := [], type := 0, id := 0 }

/-- The 16-bit payload size. -/
def size (message : MuxMessage) : BitVec 16 :=
  BitVec.ofNat 16 message.data.length

/-- The bytes sent for a message. -/
def serialize (message : MuxMessage) : ByteVector :=
  let len : BitVec 16 := BitVec.ofNat 16 (message.data.length + 3)
  magicToken ++ [highByte len, lowByte len, highByte message.id,
    lowByte message.id, message.type] ++ message.data

theorem size_toNat
    (message : MuxMessage)
    (short : message.data.length < 65536) :
    message.size.toNat = message.data.length := by
  rw [size, BitVec.toNat_ofNat]
  omega

/-- A 16-bit number is put together again from its two bytes. -/
theorem id_of_bytes (id : BitVec 16) :
    ((highByte id).setWidth 16 <<< 8) ||| (lowByte id).setWidth 16 = id := by
  apply BitVec.eq_of_getLsbD_eq
  intro index indexLt
  interval_cases index <;> simp [highByte, lowByte]

/-- Decoding the bytes behind the length field of a serialized message. -/
theorem ofData_fields (message : MuxMessage) :
    ofData (highByte message.id :: lowByte message.id :: message.type ::
      message.data) = message := by
  simp only [ofData, id_of_bytes]

end MuxMessage

/-- The class `CMuxOutput`. -/
structure MuxOutput where
  data : ByteVector
  deriving DecidableEq, Repr

namespace MuxOutput

/-- The constructor: the byte before the payload is the response code or the
notification type. -/
def make (cmdType : Byte) (id : BitVec 16) (leading : Byte)
    (payload : ByteVector) : MuxOutput :=
  { data := highByte id :: lowByte id :: cmdType :: leading :: payload }

/-- The bytes sent for an output. -/
def serialize (output : MuxOutput) : ByteVector :=
  let len : BitVec 16 := BitVec.ofNat 16 output.data.length
  magicToken ++ [highByte len, lowByte len] ++ output.data

end MuxOutput

/-! ## The parser -/

/-- The class `CMuxParser`: the input that is not parsed yet. -/
structure MuxParser where
  partialInput : ByteVector
  deriving DecidableEq, Repr

namespace MuxParser

/-- A new parser: `m_partialInput(COMMAND_SIZE)` is a vector of 128 zero
bytes, not an empty one. -/
def new : MuxParser where
  partialInput := List.replicate 128 0

/-- One call of `parse`.  It returns the message given to the handler, if there
was one, which is also when the source returns true. -/
def parse (parser : MuxParser) : Option MuxMessage × MuxParser :=
  match search magicToken parser.partialInput with
  | some position =>
      match parser.partialInput.drop (position + 4) with
      | high :: low :: body =>
          let expectedLength := high.toNat * 256 + low.toNat
          if expectedLength ≤ body.length then
            (some (MuxMessage.ofData (body.take expectedLength)),
              { partialInput := body.drop expectedLength })
          else (none, parser)
      | _ => (none, parser)
  | none =>
      if 3 < parser.partialInput.length then
        (none,
          { partialInput :=
              parser.partialInput.drop (parser.partialInput.length - 3) })
      else (none, parser)

/-- A message that is parsed leaves a shorter input. -/
theorem parse_shrinks
    {parser next : MuxParser}
    {message : MuxMessage}
    (parsed : parser.parse = (some message, next)) :
    next.partialInput.length < parser.partialInput.length := by
  unfold parse at parsed
  split at parsed
  case h_1 position found =>
    split at parsed
    case h_1 high low body rest =>
      have bodyLength := congrArg List.length rest
      simp only [List.length_drop, List.length_cons] at bodyLength
      dsimp only at parsed
      split at parsed
      · simp only [Prod.mk.injEq] at parsed
        rw [← parsed.2, List.length_drop]
        omega
      · simp at parsed
    case h_2 => simp at parsed
  case h_2 => split at parsed <;> simp at parsed

/-- The loop `while (parse())`: the messages it delivers and the parser it
leaves. -/
def parseAll (parser : MuxParser) : List MuxMessage × MuxParser :=
  match _parsed : parser.parse with
  | (some message, next) =>
      let (messages, final) := next.parseAll
      (message :: messages, final)
  | (none, next) => ([], next)
termination_by parser.partialInput.length
decreasing_by exact parse_shrinks _parsed

/-- One call of `read`. -/
def read (parser : MuxParser) (input : ByteVector) :
    List MuxMessage × MuxParser :=
  parseAll { partialInput := parser.partialInput ++ input }

/-- A sequence of `read` calls. -/
def readChunks (parser : MuxParser) :
    List ByteVector → List MuxMessage × MuxParser
  | [] => ([], parser)
  | chunk :: chunks =>
      let (messages, next) := parser.read chunk
      let (more, final) := next.readChunks chunks
      (messages ++ more, final)

/-- Chunks that are read later are read by the parser that the earlier ones left. -/
theorem readChunks_append (parser : MuxParser) (earlier later : List ByteVector) :
    parser.readChunks (earlier ++ later) =
      ((parser.readChunks earlier).1 ++ ((parser.readChunks earlier).2.readChunks later).1,
        ((parser.readChunks earlier).2.readChunks later).2) := by
  induction earlier generalizing parser with
  | nil => rfl
  | cons chunk rest inductionHypothesis =>
      simp only [List.cons_append, readChunks, inductionHypothesis, List.append_assoc]

theorem parseAll_of_some
    {parser next : MuxParser}
    {message : MuxMessage}
    (parsed : parser.parse = (some message, next)) :
    parser.parseAll = (message :: next.parseAll.1, next.parseAll.2) := by
  rw [parseAll]
  split <;> simp_all

theorem parseAll_of_none
    {parser next : MuxParser}
    (parsed : parser.parse = (none, next)) :
    parser.parseAll = ([], next) := by
  rw [parseAll]
  split <;> simp_all

end MuxParser

end SerialMux
