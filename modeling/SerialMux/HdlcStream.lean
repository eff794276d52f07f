import SerialMux.Hdlc

/-!
# What the HDLC parser delivers

The parser tests one residue of its running check sequence instead of comparing
the received check sequence with a recomputed one.  The first part shows that
both tests accept the same frames.  The second part reads a stream frame by
frame: it compares the parser with its plain specification and follows it
through noise and encoded packets.
-/

namespace SerialMux

open FlagFraming

/-! ## Residue and recomputed check sequence -/

/-- The table as 16-bit words. -/
def fcsTable (index : Byte) : BitVec 16 :=
  (fcstab.getD index.toNat 0).setWidth 16

theorem addOneByteToFcs16_narrow (fcs : BitVec 32) (byte : Byte) :
    (addOneByteToFcs16 fcs byte).setWidth 16 =
      TableCrc.step fcsTable (fcs.setWidth 16) byte := by
  have shifted : ((fcs &&& 0xffff) >>> 8).setWidth 16 = fcs.setWidth 16 >>> 8 := by
    apply BitVec.eq_of_getLsbD_eq
    intro index indexLt
    interval_cases index <;> simp
  have masked : ((fcs ^^^ byte.setWidth 32) &&& 0xff).toNat =
      ((fcs.setWidth 16).setWidth 8 ^^^ byte).toNat := by
    have narrowed : (fcs ^^^ byte.setWidth 32) &&& 0xff =
        ((fcs.setWidth 16).setWidth 8 ^^^ byte).setWidth 32 := by
      apply BitVec.eq_of_getLsbD_eq
      intro index indexLt
      interval_cases index <;> simp
    rw [narrowed, BitVec.toNat_setWidth]
    have := ((fcs.setWidth 16).setWidth 8 ^^^ byte).isLt
    omega
  rw [addOneByteToFcs16, BitVec.setWidth_xor, shifted, masked, TableCrc.step, fcsTable]

theorem foldl_addOneByteToFcs16_narrow (fcs : BitVec 32) (data : ByteVector) :
    (data.foldl addOneByteToFcs16 fcs).setWidth 16 =
      TableCrc.run fcsTable (fcs.setWidth 16) data := by
  induction data generalizing fcs with
  | nil => rfl
  | cons byte data inductionHypothesis =>
      rw [List.foldl_cons, inductionHypothesis, addOneByteToFcs16_narrow]
      rfl

theorem closeFcs16_eq (fcs : BitVec 32) : closeFcs16 fcs = fcs.setWidth 16 ^^^ 0xffff := by
  apply BitVec.eq_of_getLsbD_eq
  intro index indexLt
  interval_cases index <;> simp [closeFcs16]

theorem computeFCS16_eq (data : ByteVector) :
    computeFCS16 data = TableCrc.run fcsTable 0xffff data ^^^ 0xffff := by
  rw [computeFCS16_eq_foldl, closeFcs16_eq, foldl_addOneByteToFcs16_narrow]
  rfl

theorem fcsTable_second (index : Byte) :
    fcsTable index >>> 8 = (0xf0b8 : BitVec 16) >>> 8 ↔ index = 0x87 := by
  revert index
  decide +kernel

theorem fcsTable_first (index : Byte) :
    fcsTable index >>> 8 = 0xf0b8 ^^^ fcsTable 0x87 ↔ index = 0xff := by
  revert index
  decide +kernel

/-- From every register value, exactly the complemented register, low byte
first, leads to the residue. -/
theorem residue_iff (register : BitVec 16) (low high : Byte) :
    TableCrc.run fcsTable register [low, high] = 0xf0b8 ↔
      [low, high] = fcsBytes (register ^^^ 0xffff) := by
  have entry : fcsTable 0xff = 0x0f78 := by decide +kernel
  have lowByte : register.setWidth 8 ^^^ 0xff =
      ((register ^^^ 0xffff) &&& 0xFF).setWidth 8 := by
    apply BitVec.eq_of_getLsbD_eq
    intro index indexLt
    interval_cases index <;> simp
  have highByte : ((register >>> 8) ^^^ 0x0f78).setWidth 8 ^^^ (0x87 : Byte) =
      (((register ^^^ 0xffff) >>> 8) &&& 0xFF).setWidth 8 := by
    apply BitVec.eq_of_getLsbD_eq
    intro index indexLt
    interval_cases index <;> simp
  rw [TableCrc.run, List.foldl_cons, List.foldl_cons, List.foldl_nil,
    TableCrc.step_step_eq_iff fcsTable_second fcsTable_first, entry, lowByte,
    highByte, fcsBytes]
  simp

/-- The running check sequence of a payload and two more bytes passes the test
exactly when these bytes are the payload's check sequence. -/
theorem closeFcs16_residue_iff (payload : ByteVector) (low high : Byte) :
    closeFcs16 ((payload ++ [low, high]).foldl addOneByteToFcs16 initFcs16) = 0xf47 ↔
      [low, high] = fcsBytes (computeFCS16 payload) := by
  rw [computeFCS16_eq, ← residue_iff, closeFcs16_eq, foldl_addOneByteToFcs16_narrow,
    TableCrc.run_append, BitVec.xor_comm, TableCrc.xor_eq_iff]
  rfl

/-- The payload of a frame that passes the parser's test. -/
def acceptFrame (frame : ByteVector) : Option ByteVector :=
  if 2 < frame.length ∧
      closeFcs16 (frame.foldl addOneByteToFcs16 initFcs16) = 0xf47 then
    some frame.dropLast.dropLast
  else none

/-- A 16-bit number read low byte first. -/
def readLowFirst (low high : Byte) : BitVec 16 :=
  (high.setWidth 16 <<< 8) ||| low.setWidth 16

theorem readLowFirst_eq_iff (low high : Byte) (value : BitVec 16) :
    readLowFirst low high = value ↔ [low, high] = fcsBytes value := by
  constructor
  · rintro rfl
    simp only [fcsBytes, List.cons.injEq, and_true]
    constructor <;>
    · apply BitVec.eq_of_getLsbD_eq
      intro index indexLt
      interval_cases index <;> simp [readLowFirst]
  · intro equal
    simp only [fcsBytes, List.cons.injEq, and_true] at equal
    obtain ⟨rfl, rfl⟩ := equal
    apply BitVec.eq_of_getLsbD_eq
    intro index indexLt
    interval_cases index <;> simp [readLowFirst]

/-- The payload of a frame of at least three bytes whose last two bytes, low
byte first, are the check sequence of the bytes before them. -/
def checkedPayload (frame : ByteVector) : Option ByteVector :=
  if 3 ≤ frame.length then
    match frame.drop (frame.length - 2) with
    | [low, high] =>
        if readLowFirst low high = computeFCS16 (frame.take (frame.length - 2)) then
          some (frame.take (frame.length - 2))
        else none
    | _ => none
  else none

/-- A frame of at least three bytes is a non-empty payload and two bytes. -/
theorem frame_cases (frame : ByteVector) :
    frame.length < 3 ∨
      ∃ payload low high, payload ≠ [] ∧ frame = payload ++ [low, high] := by
  by_cases long : 3 ≤ frame.length
  · right
    have ends : (frame.drop (frame.length - 2)).length = 2 := by
      rw [List.length_drop]
      omega
    obtain ⟨low, high, lastTwo⟩ := List.length_eq_two.mp ends
    refine ⟨frame.take (frame.length - 2), low, high, ?_, ?_⟩
    · rw [Ne, ← List.length_eq_zero_iff, List.length_take]
      omega
    · rw [← lastTwo, List.take_append_drop]
  · exact Or.inl (by omega)

/-- The residue test and the recomputed check accept the same frames. -/
theorem acceptFrame_eq_checkedPayload : acceptFrame = checkedPayload := by
  funext frame
  rcases frame_cases frame with short | ⟨payload, low, high, nonempty, rfl⟩
  · rw [acceptFrame, if_neg (by omega), checkedPayload, if_neg (by omega)]
  · have positive := List.length_pos_iff.mpr nonempty
    have long : 2 < (payload ++ [low, high]).length := by
      simp only [List.length_append, List.length_cons, List.length_nil]
      omega
    have dropped : (payload ++ [low, high]).dropLast.dropLast = payload := by
      simp
    have twoMore : 2 < payload.length + 2 := by omega
    rw [acceptFrame, checkedPayload, if_pos (show 3 ≤ _ from long)]
    simp only [closeFcs16_residue_iff, dropped, List.length_append,
      List.length_cons, List.length_nil, Nat.zero_add, Nat.reduceAdd,
      Nat.add_sub_cancel, List.drop_left, List.take_left, readLowFirst_eq_iff,
      twoMore, true_and]

theorem acceptFrame_encoded
    {payload : ByteVector}
    (nonempty : payload ≠ []) :
    acceptFrame (payload ++ fcsBytes (computeFCS16 payload)) = some payload := by
  have positive := List.length_pos_iff.mpr nonempty
  have residue := (closeFcs16_residue_iff payload _ _).mpr rfl
  rw [acceptFrame, if_pos]
  · simp [fcsBytes]
  · refine ⟨?_, residue⟩
    simp only [fcsBytes, List.length_append, List.length_cons, List.length_nil]
    omega

/-! ## Reading a stream -/

/-- The symbols of a received stream. -/
abbrev lexHDLC : ByteVector → List (Symbol Byte) :=
  lex hdlcPadding hdlcEscChar (· ^^^ hdlcXorByte)

theorem xorByte_involutive : Function.Involutive (fun byte : Byte => byte ^^^ hdlcXorByte) := by
  intro byte
  change byte ^^^ hdlcXorByte ^^^ hdlcXorByte = byte
  rw [BitVec.xor_assoc, BitVec.xor_self, BitVec.xor_zero]

namespace HDLC

/-- The running check sequence is that of the buffer. -/
def Consistent (parser : HDLC) : Prop :=
  parser.runningFCS = parser.buffer.foldl addOneByteToFcs16 initFcs16

theorem fresh_consistent : fresh.Consistent := rfl

theorem append_consistent
    {parser : HDLC}
    (consistent : parser.Consistent)
    (byte : Byte) :
    (parser.append byte).Consistent := by
  rw [Consistent] at consistent
  simp [Consistent, append, consistent]

/-- Every step keeps the running check sequence in step with the buffer. -/
theorem addByte_consistent
    {parser : HDLC}
    (consistent : parser.Consistent)
    (byte : Byte) :
    (parser.addByte byte).1.Consistent := by
  unfold addByte
  dsimp only
  split_ifs
  · exact append_consistent consistent _
  · exact consistent
  · exact fresh_consistent
  · exact fresh_consistent
  · exact fresh_consistent
  · exact append_consistent consistent byte

theorem feed_consistent
    {parser : HDLC}
    (consistent : parser.Consistent)
    (stream : ByteVector) :
    (parser.feed stream).1.Consistent := by
  induction stream generalizing parser with
  | nil => exact consistent
  | cons byte stream inductionHypothesis =>
      exact inductionHypothesis (addByte_consistent consistent byte)

theorem feed_append (parser : HDLC) (left right : ByteVector) :
    parser.feed (left ++ right) =
      (((parser.feed left).1.feed right).1,
        (parser.feed left).2 ++ ((parser.feed left).1.feed right).2) := by
  induction left generalizing parser with
  | nil => rfl
  | cons byte left inductionHypothesis =>
      simp only [List.cons_append, feed, inductionHypothesis, List.append_assoc]

/-- A flag outside an escape ends the buffered frame. -/
theorem addByte_padding
    {parser : HDLC}
    (consistent : parser.Consistent)
    (notEscape : parser.state ≠ .escape) :
    parser.addByte hdlcPadding = (fresh, acceptFrame parser.buffer) := by
  have different : hdlcPadding ≠ hdlcEscChar := by decide
  rw [Consistent] at consistent
  simp only [addByte, acceptFrame, notEscape, different, if_false, if_true,
    validateChecksum, consistent, beq_iff_eq]
  by_cases long : 2 < parser.buffer.length
  · have nonempty : 0 < parser.buffer.dropLast.dropLast.length := by
      simp only [List.length_dropLast]
      omega
    simp only [long, nonempty, if_true, true_and, and_true]
    split_ifs <;> rfl
  · simp only [long, if_false, false_and]

/-- An escaped byte, once the escape was read, is buffered unmasked. -/
theorem addByte_escaped
    {parser : HDLC}
    (inEscape : parser.state = .escape)
    (byte : Byte) :
    parser.addByte byte =
      ({ parser.append (byte ^^^ hdlcXorByte) with state := .data }, none) := by
  simp [addByte, inEscape]

/-- The packets of a stream read outside an escape are those of its frames. -/
theorem feed_packets
    {parser : HDLC}
    (consistent : parser.Consistent)
    (notEscape : parser.state ≠ .escape)
    (stream : ByteVector) :
    (parser.feed stream).2 =
      (frames parser.buffer (lexHDLC stream)).filterMap acceptFrame := by
  induction stream using lex.induct hdlcPadding hdlcEscChar generalizing parser with
  | case1 => rfl
  | case2 => simp [feed, addByte, notEscape, lex, frames]
  | case3 escaped rest inductionHypothesis =>
      have entered : parser.addByte hdlcEscChar =
          ({ parser with state := .escape }, none) := by
        simp [addByte, notEscape]
      have inEscape : ({ parser with state := .escape } : HDLC).addByte escaped =
          ({ parser.append (escaped ^^^ hdlcXorByte) with state := .data }, none) :=
        addByte_escaped rfl escaped
      rw [lexHDLC, lex_escape, frames]
      simp only [feed, entered, inEscape, Option.toList_none, List.nil_append]
      exact @inductionHypothesis
        { parser.append (escaped ^^^ hdlcXorByte) with state := .data }
        (append_consistent consistent _) (by simp)
  | case4 rest different inductionHypothesis =>
      rw [lexHDLC, lex_flag (by decide), frames, List.filterMap_cons]
      simp only [feed, addByte_padding consistent notEscape]
      rw [inductionHypothesis fresh_consistent (by simp [fresh])]
      cases acceptFrame parser.buffer <;> rfl
  | case5 element rest notEscChar notPadding inductionHypothesis =>
      have buffered : parser.addByte element = (parser.append element, none) := by
        simp [addByte, notEscape, notEscChar, notPadding]
      rw [lexHDLC, lex_other notEscChar notPadding, frames]
      simp only [feed, buffered, Option.toList_none, List.nil_append]
      exact inductionHypothesis (append_consistent consistent element) notEscape

end HDLC

/-- The packets of a stream: cut it at the flags that are not escaped, undo the
escapes of each piece, and keep the payloads whose check sequence is right. -/
def referencePackets (stream : ByteVector) : List ByteVector :=
  ((cut hdlcPadding hdlcEscChar [] stream).map
    (unstuff hdlcEscChar (· ^^^ hdlcXorByte))).filterMap checkedPayload

/-- The parser delivers the packets of the reference, and its residue test is a
comparison with the recomputed check sequence. -/
theorem HDLC.feed_eq_referencePackets :
    (∀ stream, (fresh.feed stream).2 = referencePackets stream) ∧
      ∀ (payload : ByteVector) (low high : Byte),
        closeFcs16 ((payload ++ [low, high]).foldl addOneByteToFcs16 initFcs16) =
            0xf47 ↔
          readLowFirst low high = computeFCS16 payload := by
  constructor
  · intro stream
    rw [feed_packets fresh_consistent (by simp [fresh]), referencePackets,
      map_unstuff_cut (by decide) Closed.nil, acceptFrame_eq_checkedPayload]
    rfl
  · intro payload low high
    rw [closeFcs16_residue_iff, readLowFirst_eq_iff]

/-! ## Encoded packets behind noise -/

theorem encodeHDLC_eq (payload : ByteVector) :
    encodeHDLC payload =
      hdlcPadding :: (appendHDLC (payload ++ fcsBytes (computeFCS16 payload)) ++
        [hdlcPadding]) := by
  simp [encodeHDLC, appendHDLC, stuff]

namespace HDLC

/-- Stuffed content is collected in the buffer. -/
theorem feed_appendHDLC
    {parser : HDLC}
    (notEscape : parser.state ≠ .escape)
    (content : ByteVector) :
    ∃ next, parser.feed (appendHDLC content) = (next, []) ∧
      next.state ≠ .escape ∧ next.buffer = parser.buffer ++ content := by
  induction content generalizing parser with
  | nil => exact ⟨parser, rfl, notEscape, (List.append_nil _).symm⟩
  | cons byte content inductionHypothesis =>
      have buffered : ∃ next, parser.feed (appendHDLC [byte]) = (next, []) ∧
          next.state ≠ .escape ∧ next.buffer = parser.buffer ++ [byte] := by
        by_cases special : byte = hdlcPadding ∨ byte = hdlcEscChar
        · refine ⟨{ parser.append byte with state := .data }, ?_, by simp, rfl⟩
          have restored := xorByte_involutive byte
          dsimp only at restored
          simp [appendHDLC, stuff, special, feed, addByte, notEscape, append, restored]
        · refine ⟨parser.append byte, ?_, notEscape, rfl⟩
          rw [not_or] at special
          simp [appendHDLC, stuff, special, feed, addByte, notEscape]
      obtain ⟨next, fed, nextNotEscape, nextBuffer⟩ := buffered
      obtain ⟨final, rest, finalNotEscape, finalBuffer⟩ :=
        inductionHypothesis nextNotEscape
      refine ⟨final, ?_, finalNotEscape, ?_⟩
      · have split : appendHDLC (byte :: content) =
            appendHDLC [byte] ++ appendHDLC content := by simp [appendHDLC, stuff]
        rw [split, feed_append, fed, rest]
        rfl
      · rw [finalBuffer, nextBuffer, List.append_assoc, List.singleton_append]

/-- Content and a closing flag end the frame begun in the buffer. -/
theorem feed_closing
    {parser : HDLC}
    (consistent : parser.Consistent)
    (notEscape : parser.state ≠ .escape)
    (content : ByteVector) :
    parser.feed (appendHDLC content ++ [hdlcPadding]) =
      (fresh, (acceptFrame (parser.buffer ++ content)).toList) := by
  obtain ⟨next, fed, nextNotEscape, nextBuffer⟩ := feed_appendHDLC notEscape content
  have nextConsistent : next.Consistent := by
    have := feed_consistent consistent (appendHDLC content)
    rwa [fed] at this
  rw [feed_append, fed, ← nextBuffer]
  simp [feed, addByte_padding nextConsistent nextNotEscape]

/-- Outside an escape, an encoded packet is delivered behind whatever its
opening flag closes. -/
theorem feed_encodeHDLC
    {parser : HDLC}
    (consistent : parser.Consistent)
    (notEscape : parser.state ≠ .escape)
    {payload : ByteVector}
    (nonempty : payload ≠ []) :
    parser.feed (encodeHDLC payload) =
      (fresh, (acceptFrame parser.buffer).toList ++ [payload]) := by
  rw [encodeHDLC_eq, feed, addByte_padding consistent notEscape]
  dsimp only
  rw [feed_closing fresh_consistent (by simp [fresh])]
  simp [fresh, acceptFrame_encoded nonempty]

/-- Inside an escape, an encoded packet is swallowed into the buffered frame. -/
theorem feed_encodeHDLC_escape
    {parser : HDLC}
    (consistent : parser.Consistent)
    (inEscape : parser.state = .escape)
    (payload : ByteVector) :
    ∃ swallowed, parser.feed (encodeHDLC payload) =
      (fresh, (acceptFrame swallowed).toList) := by
  rw [encodeHDLC_eq, feed, addByte_escaped inEscape]
  dsimp only
  rw [feed_closing]
  · exact ⟨_, rfl⟩
  · exact append_consistent consistent _
  · simp

/-- From the reset state, encoded packets are delivered one for one. -/
theorem feed_flatMap_encodeHDLC
    {payloads : List ByteVector}
    (nonempty : ∀ payload ∈ payloads, payload ≠ []) :
    fresh.feed (payloads.flatMap encodeHDLC) = (fresh, payloads) := by
  induction payloads with
  | nil => rfl
  | cons payload payloads inductionHypothesis =>
      rw [List.forall_mem_cons] at nonempty
      have first : fresh.feed (encodeHDLC payload) = (fresh, [payload]) :=
        feed_encodeHDLC fresh_consistent (by simp [fresh]) nonempty.1
      rw [List.flatMap_cons, feed_append, first, inductionHypothesis nonempty.2]
      rfl

end HDLC

/-- After any noise the parser delivers the encoded packets in order, except the
first one when the noise ends in an escape, and ends in its reset state.  At
most one more frame is delivered before them, and none without noise. -/
theorem HDLC.decodes_after_noise
    (noise : ByteVector)
    (payloads : List ByteVector)
    (present : payloads ≠ [])
    (nonempty : ∀ payload ∈ payloads, payload ≠ []) :
    ∃ further : List ByteVector,
      further.length ≤ 1 ∧ (noise = [] → further = []) ∧
      fresh.feed (noise ++ payloads.flatMap encodeHDLC) =
        (fresh, (fresh.feed noise).2 ++ further ++
          if (fresh.feed noise).1.state = .escape then payloads.tail
          else payloads) := by
  obtain ⟨payload, rest, rfl⟩ := List.exists_cons_of_ne_nil present
  rw [List.forall_mem_cons] at nonempty
  have consistent := feed_consistent fresh_consistent noise
  have restDelivered := feed_flatMap_encodeHDLC nonempty.2
  have atMostOne (frame : ByteVector) : (acceptFrame frame).toList.length ≤ 1 := by
    cases acceptFrame frame <;> simp
  rw [feed_append, List.flatMap_cons, feed_append]
  by_cases inEscape : (fresh.feed noise).1.state = .escape
  · obtain ⟨swallowed, fed⟩ := feed_encodeHDLC_escape consistent inEscape payload
    refine ⟨(acceptFrame swallowed).toList, atMostOne swallowed, ?_, ?_⟩
    · rintro rfl
      simp [feed, fresh] at inEscape
    · rw [fed, restDelivered, if_pos inEscape]
      simp
  · have fed := feed_encodeHDLC consistent inEscape nonempty.1
    refine ⟨(acceptFrame (fresh.feed noise).1.buffer).toList, atMostOne _, ?_, ?_⟩
    · rintro rfl
      simp [feed, fresh, acceptFrame]
    · rw [fed, restDelivered, if_neg inEscape]
      simp

/-- Noise that ends in an escape eats the opening flag of the first packet. -/
theorem HDLC.decodes_after_noise_example :
    ∃ further : List ByteVector,
      further.length ≤ 1 ∧ ([0x31, hdlcEscChar] = ([] : ByteVector) → further = []) ∧
      fresh.feed ([0x31, hdlcEscChar] ++
          [[0x7E, 0x00], [0x7D]].flatMap encodeHDLC) =
        (fresh, (fresh.feed [0x31, hdlcEscChar]).2 ++ further ++
          if (fresh.feed [0x31, hdlcEscChar]).1.state = .escape then [[0x7D]]
          else [[0x7E, 0x00], [0x7D]]) :=
  decodes_after_noise [0x31, hdlcEscChar] [[0x7E, 0x00], [0x7D]] (by decide) (by decide)

end SerialMux
