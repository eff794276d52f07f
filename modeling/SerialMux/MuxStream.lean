import SerialMux.MuxMessageParser

/-!
# What the mux parser delivers

The parser keeps a buffer that starts with 128 zero bytes, drops bytes that
cannot start a message and keeps junk in front of an incomplete one.  The
reference scan sees the whole stream at once.  `Represents` relates a buffer to
the part of the stream it stands for: whatever follows, scanning the buffer
gives the same messages as scanning that part.
-/

namespace SerialMux

open PatternSearch

/-- Length field of a message. -/
def announcedLength (high low : Byte) : Nat :=
  high.toNat * 256 + low.toNat

/-- The messages of a whole stream: find the first token, read the length
behind it, and if that many bytes follow, deliver them and continue behind
them. -/
def referenceScan (stream : ByteVector) : List MuxMessage :=
  match _found : after magicToken stream with
  | some (high :: low :: body) =>
      if announcedLength high low ≤ body.length then
        MuxMessage.ofData (body.take (announcedLength high low)) ::
          referenceScan (body.drop (announcedLength high low))
      else []
  | _ => []
termination_by stream.length
decreasing_by
  simp only [after, Option.map_eq_some_iff] at _found
  obtain ⟨position, -, rest⟩ := _found
  have bodyLength := congrArg List.length rest
  simp only [List.length_drop, List.length_cons] at bodyLength ⊢
  omega

/-- The messages of what follows the first token of a stream. -/
def scanBehind : Option ByteVector → List MuxMessage
  | some (high :: low :: body) =>
      if announcedLength high low ≤ body.length then
        MuxMessage.ofData (body.take (announcedLength high low)) ::
          referenceScan (body.drop (announcedLength high low))
      else []
  | _ => []

theorem referenceScan_eq (stream : ByteVector) :
    referenceScan stream = scanBehind (after magicToken stream) := by
  rw [referenceScan]
  split
  case h_1 high low body found => simp [found, scanBehind]
  case h_2 other =>
    unfold scanBehind
    split
    case h_1 high low body found => exact absurd found (other high low body)
    case h_2 => rfl

/-- The scan depends only on what follows the first token. -/
theorem referenceScan_congr
    {left right : ByteVector}
    (same : after magicToken left = after magicToken right) :
    referenceScan left = referenceScan right := by
  rw [referenceScan_eq, referenceScan_eq, same]

theorem referenceScan_of_none
    {stream : ByteVector}
    (absent : after magicToken stream = none) :
    referenceScan stream = [] := by
  simp only [referenceScan_eq, absent, scanBehind]

/-- A complete message behind the first token is delivered. -/
theorem referenceScan_of_complete
    {stream body rest : ByteVector}
    {high low : Byte}
    (found : after magicToken stream = some (high :: low :: (body ++ rest)))
    (complete : announcedLength high low = body.length) :
    referenceScan stream = MuxMessage.ofData body :: referenceScan rest := by
  simp [referenceScan_eq stream, found, scanBehind, complete]

/-! ## The buffer and the stream -/

/-- Appending any continuation, the buffer scans like the stream part. -/
def Represents (buffer part : ByteVector) : Prop :=
  ∀ extra, referenceScan (buffer ++ extra) = referenceScan (part ++ extra)

namespace Represents

theorem refl (buffer : ByteVector) : Represents buffer buffer :=
  fun _ => rfl

/-- The zero bytes of a new parser are invisible. -/
theorem new : Represents MuxParser.new.partialInput [] := by
  have skip (count : Nat) (extra : ByteVector) :
      after magicToken (List.replicate count 0 ++ extra) =
        after magicToken extra := by
    induction count with
    | zero => rfl
    | succ count inductionHypothesis =>
        have notHere : ¬magicToken <+: 0 :: (List.replicate count 0 ++ extra) := by
          simp [magicToken, List.cons_prefix_cons]
        rw [List.replicate_succ, List.cons_append,
          after_cons_of_absent notHere]
        exact inductionHypothesis
  intro extra
  exact referenceScan_congr (skip 128 extra)

end Represents

/-- A call of `parse` that finds nothing keeps a buffer of the same meaning,
and that buffer holds no complete message. -/
theorem MuxParser.parse_none
    {parser next : MuxParser}
    (parsed : parser.parse = (none, next)) :
    Represents next.partialInput parser.partialInput ∧
      referenceScan next.partialInput = [] := by
  unfold parse at parsed
  split at parsed
  case h_1 position found =>
    have behind : after magicToken parser.partialInput =
        some (parser.partialInput.drop (position + 4)) := by
      simp [after, found]
    split at parsed
    case h_1 high low body rest =>
      dsimp only at parsed
      split at parsed
      · simp at parsed
      · rename_i incomplete
        simp only [Prod.mk.injEq, true_and] at parsed
        subst parsed
        refine ⟨Represents.refl _, ?_⟩
        simp [referenceScan_eq, behind, rest, scanBehind, announcedLength, incomplete]
    case h_2 short =>
      simp only [Prod.mk.injEq, true_and] at parsed
      subst parsed
      refine ⟨Represents.refl _, ?_⟩
      rw [referenceScan_eq, behind]
      unfold scanBehind
      split
      case h_1 high low body behind' =>
        exact absurd (Option.some.inj behind') (short high low body)
      case h_2 => rfl
  case h_2 notFound =>
    have absent := (search_eq_none_iff magicToken_ne_nil).mp notFound
    split at parsed
    · simp only [Prod.mk.injEq, true_and] at parsed
      subst parsed
      have kept (extra : ByteVector) :
          after magicToken (parser.partialInput.drop
            (parser.partialInput.length - 3) ++ extra) =
            after magicToken (parser.partialInput ++ extra) :=
        after_drop_append absent _ (by simp only [magicToken_length]; omega) extra
      refine ⟨fun extra => referenceScan_congr (kept extra), ?_⟩
      have unchanged := kept []
      rw [List.append_nil, List.append_nil] at unchanged
      apply referenceScan_of_none
      rw [unchanged]
      simp [after, notFound]
    · simp only [Prod.mk.injEq, true_and] at parsed
      subst parsed
      exact ⟨Represents.refl _, referenceScan_of_none (by simp [after, notFound])⟩

/-- A call of `parse` that delivers a message delivers the first one of the
buffer and leaves the rest of it. -/
theorem MuxParser.parse_some
    {parser next : MuxParser}
    {message : MuxMessage}
    (parsed : parser.parse = (some message, next))
    (extra : ByteVector) :
    referenceScan (parser.partialInput ++ extra) =
      message :: referenceScan (next.partialInput ++ extra) := by
  unfold parse at parsed
  split at parsed
  case h_1 position found =>
    have behind : after magicToken parser.partialInput =
        some (parser.partialInput.drop (position + 4)) := by
      simp [after, found]
    split at parsed
    case h_1 high low body rest =>
      dsimp only at parsed
      split at parsed
      · rename_i complete
        simp only [Prod.mk.injEq, Option.some.injEq] at parsed
        obtain ⟨rfl, rfl⟩ := parsed
        rw [rest] at behind
        have behindAll := after_append magicToken_ne_nil behind extra
        apply @referenceScan_of_complete _ _ _ high low
        · rw [behindAll, List.cons_append, List.cons_append,
            ← List.append_assoc, List.take_append_drop]
        · simp only [announcedLength, List.length_take]
          omega
      · simp at parsed
    case h_2 => simp at parsed
  case h_2 => split at parsed <;> simp at parsed

/-- The whole parse loop delivers the messages of the buffer and keeps what
stands for the rest. -/
theorem MuxParser.parseAll_spec (parser : MuxParser) :
    (∀ extra, referenceScan (parser.partialInput ++ extra) =
      parser.parseAll.1 ++ referenceScan (parser.parseAll.2.partialInput ++ extra)) ∧
      referenceScan parser.parseAll.2.partialInput = [] := by
  induction parser using MuxParser.parseAll.induct with
  | case1 parser message next parsed messages final ending inductionHypothesis =>
      rw [parseAll_of_some parsed]
      refine ⟨?_, inductionHypothesis.2⟩
      intro extra
      rw [parse_some parsed extra, inductionHypothesis.1 extra, List.cons_append]
  | case2 parser next parsed =>
      rw [parseAll_of_none parsed]
      obtain ⟨represents, settled⟩ := parse_none parsed
      exact ⟨fun extra => (represents extra).symm, settled⟩

/-- Reading chunks delivers the messages of the stream read so far. -/
theorem MuxParser.readChunks_spec
    (parser : MuxParser)
    {part : ByteVector}
    (represents : Represents parser.partialInput part)
    (settled : referenceScan parser.partialInput = [])
    (chunks : List ByteVector) :
    (parser.readChunks chunks).1 = referenceScan (part ++ chunks.flatten) := by
  induction chunks generalizing parser part with
  | nil =>
      have := represents []
      simp only [List.append_nil] at this
      simp [readChunks, ← this, settled]
  | cons chunk chunks inductionHypothesis =>
      obtain ⟨delivered, quiet⟩ :=
        parseAll_spec { partialInput := parser.partialInput ++ chunk }
      have rest := inductionHypothesis
        (parser.read chunk).2 (Represents.refl _) quiet
      simp only [readChunks, List.flatten_cons]
      rw [rest, ← represents (chunk ++ chunks.flatten), ← List.append_assoc]
      exact (delivered chunks.flatten).symm

/-- A new parser holds no message. -/
theorem MuxParser.referenceScan_new : referenceScan new.partialInput = [] := by
  have visible := Represents.new []
  rw [List.append_nil, List.append_nil] at visible
  rw [visible]
  exact referenceScan_of_none (by simp [after, search, magicToken_ne_nil])

/-- A new parser delivers exactly the messages of the reference scan, whatever
the division into reads and whatever its 128 initial bytes. -/
theorem MuxParser.delivers_referenceScan (chunks : List ByteVector) :
    (new.readChunks chunks).1 = referenceScan chunks.flatten ∧
      (new.readChunks chunks).1 = (new.readChunks [chunks.flatten]).1 ∧
      (new.readChunks chunks).1 =
        (readChunks { partialInput := [] } chunks).1 := by
  have quiet : referenceScan [] = [] :=
    referenceScan_of_none (by simp [after, search, magicToken_ne_nil])
  have scan (pieces : List ByteVector) :
      (new.readChunks pieces).1 = referenceScan pieces.flatten := by
    simpa using new.readChunks_spec Represents.new referenceScan_new pieces
  refine ⟨scan chunks, ?_, ?_⟩
  · rw [scan, scan, List.flatten_singleton]
  · rw [scan]
    simpa using (readChunks_spec { partialInput := [] }
      (Represents.refl []) quiet chunks).symm

/-! ## Encoding and parsing -/

/-- What a sender serializes: a message with a payload of at most 65532 bytes,
or an output with a payload of at most 65531 bytes. -/
inductive Item
  | message (content : MuxMessage) (fits : content.data.length ≤ 65532)
  | output (cmdType : Byte) (id : BitVec 16) (leading : Byte)
      (payload : ByteVector) (fits : payload.length ≤ 65531)

namespace Item

/-- The bytes of an item. -/
def serialize : Item → ByteVector
  | .message content _ => content.serialize
  | .output cmdType id leading payload _ =>
      (MuxOutput.make cmdType id leading payload).serialize

/-- The message that a parser should deliver for an item. -/
def delivered : Item → MuxMessage
  | .message content _ => content
  | .output cmdType id leading payload _ =>
      { data := leading :: payload, type := cmdType, id := id }

/-- The bytes of an item behind its length field. -/
def body : Item → ByteVector
  | .message content _ =>
      highByte content.id :: lowByte content.id :: content.type :: content.data
  | .output cmdType id leading payload _ =>
      highByte id :: lowByte id :: cmdType :: leading :: payload

/-- Both encoders write the token, the length of the body and the body. -/
theorem serialize_eq (item : Item) :
    item.serialize = magicToken ++
      (highByte (BitVec.ofNat 16 item.body.length) ::
        lowByte (BitVec.ofNat 16 item.body.length) :: item.body) := by
  cases item with
  | message content fits =>
      simp [serialize, MuxMessage.serialize, body]
  | output cmdType id leading payload fits =>
      simp [serialize, MuxOutput.serialize, MuxOutput.make, body]

/-- The body fits the 16-bit length field. -/
theorem announcedLength_body (item : Item) :
    announcedLength (highByte (BitVec.ofNat 16 item.body.length))
      (lowByte (BitVec.ofNat 16 item.body.length)) = item.body.length := by
  rw [announcedLength, highByte_lowByte_toNat, BitVec.toNat_ofNat]
  cases item with
  | message content fits =>
      simp only [body, List.length_cons]
      omega
  | output cmdType id leading payload fits =>
      simp only [body, List.length_cons]
      omega

/-- Decoding the body of an item gives the message it stands for. -/
theorem ofData_body (item : Item) : MuxMessage.ofData item.body = item.delivered := by
  cases item with
  | message content fits => exact content.ofData_fields
  | output cmdType id leading payload fits =>
      exact MuxMessage.ofData_fields (delivered (output cmdType id leading payload fits))

/-- Junk and an item in front of a stream add exactly that item's message. -/
theorem referenceScan_serialize
    (item : Item)
    {junk : ByteVector}
    (junkClean : ¬magicToken <:+: junk)
    (rest : ByteVector) :
    referenceScan (junk ++ item.serialize ++ rest) =
      item.delivered :: referenceScan rest := by
  rw [← item.ofData_body]
  apply @referenceScan_of_complete _ item.body _ _ _ _ item.announcedLength_body
  rw [item.serialize_eq]
  simpa using after_junk magicToken_unbordered junkClean
    (highByte (BitVec.ofNat 16 item.body.length) ::
      lowByte (BitVec.ofNat 16 item.body.length) :: (item.body ++ rest))

end Item

/-- The stream of a list of items, each preceded by its junk, with some more
junk at the end. -/
def noisyStream (items : List (ByteVector × Item)) (trailing : ByteVector) :
    ByteVector :=
  items.flatMap (fun item => item.1 ++ item.2.serialize) ++ trailing

theorem referenceScan_noisyStream
    {items : List (ByteVector × Item)}
    {trailing : ByteVector}
    (junkClean : ∀ item ∈ items, ¬magicToken <:+: item.1)
    (trailingClean : ¬magicToken <:+: trailing) :
    referenceScan (noisyStream items trailing) =
      items.map fun item => item.2.delivered := by
  induction items with
  | nil =>
      exact referenceScan_of_none
        ((after_eq_none_iff magicToken_ne_nil).mpr trailingClean)
  | cons item items inductionHypothesis =>
      have headClean := junkClean item List.mem_cons_self
      have tailScan := inductionHypothesis
        fun other member => junkClean other (List.mem_cons_of_mem item member)
      rw [noisyStream, List.flatMap_cons, List.append_assoc,
        item.2.referenceScan_serialize headClean, List.map_cons]
      exact congrArg _ tailScan

/-- Every serialized item comes out of a new parser once, in order and
unchanged, whatever token-free junk lies between the items and however the
stream is divided into reads. -/
theorem MuxParser.delivers_items
    (items : List (ByteVector × Item))
    (trailing : ByteVector)
    (chunks : List ByteVector)
    (junkClean : ∀ item ∈ items, ¬magicToken <:+: item.1)
    (trailingClean : ¬magicToken <:+: trailing)
    (divided : chunks.flatten = noisyStream items trailing) :
    (new.readChunks chunks).1 = items.map fun item => item.2.delivered := by
  rw [new.readChunks_spec Represents.new referenceScan_new chunks,
    List.nil_append, divided]
  exact referenceScan_noisyStream junkClean trailingClean

/-- Two messages, the second one with the token as its payload, behind junk that
ends in a prefix of the token, read in two pieces that cut a token. -/
theorem MuxParser.delivers_items_example :
    (new.readChunks
      [[0xa7, 0x40, 0xa7, 0x40],
        [0xa0, 0xf5, 0, 5, 0, 7, 22, 1, 2, 0xa7, 0x40, 0xa0, 0xf5, 0, 8, 0, 0, 21,
          0, 0xa7, 0x40, 0xa0, 0xf5, 0xa7]]).1 =
      [{ data := [1, 2], type := 22, id := 7 },
        { data := [0, 0xa7, 0x40, 0xa0, 0xf5], type := 21, id := 0 }] :=
  delivers_items
    [([0xa7, 0x40], .message { data := [1, 2], type := 22, id := 7 } (by decide)),
      ([], .output 21 0 0 [0xa7, 0x40, 0xa0, 0xf5] (by decide))]
    [0xa7] _ (by decide) (by decide) (by decide)

end SerialMux
