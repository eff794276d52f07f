import SerialMux.HdlcStream
import SerialMux.Library.BitCrc

/-!
# What the check sequence guarantees

The table-driven check sequence is the bit-by-bit one.  So the parser rejects
every burst of at most sixteen wrong bits, and a packet it accepts from a
canonical frame is one that the encoder writes as that frame.
-/

namespace SerialMux

open FlagFraming BitCrc

/-! ## The bit-by-bit reference -/

/-- The reflected polynomial of the check sequence. -/
def fcsPolynomial : BitVec 16 := 0x8408

/-- The check sequence computed bit by bit, least significant bit first. -/
def bitwiseFcs16 (data : ByteVector) : BitVec 16 :=
  ~~~(run fcsPolynomial 0xFFFF (messageBits data))

/-- Every table entry is its index moved by eight bits. -/
theorem fcsTable_moved (index : Byte) :
    fcsTable index = (move fcsPolynomial)^[8] (index.setWidth 16) := by
  revert index
  decide +kernel

theorem fcsPolynomial_top : fcsPolynomial.getLsbD (16 - 1) = true := by decide

/-- The running check sequence, narrowed to its sixteen bits, is the bitwise
register. -/
theorem foldl_addOneByteToFcs16_bits (data : ByteVector) :
    (data.foldl addOneByteToFcs16 initFcs16).setWidth 16 =
      run fcsPolynomial 0xFFFF (messageBits data) := by
  rw [foldl_addOneByteToFcs16_narrow, TableCrc.run_eq_run fcsTable_moved]
  rfl

/-- The encoder's one pass, the parser's running value and the bitwise reference
agree on every payload. -/
theorem computeFCS16_eq_bitwise (data : ByteVector) :
    computeFCS16 data = bitwiseFcs16 data ∧
      computeFCS16 data = closeFcs16 (data.foldl addOneByteToFcs16 initFcs16) ∧
      computeFCS16 data =
        closeFcs16 (HDLC.fresh.feed (appendHDLC data)).1.runningFCS := by
  have incremental := computeFCS16_eq_foldl data
  refine ⟨?_, incremental, ?_⟩
  · rw [incremental, closeFcs16_eq, foldl_addOneByteToFcs16_bits, bitwiseFcs16,
      ← BitVec.xor_allOnes]
    rfl
  · obtain ⟨next, fed, -, buffered⟩ :=
      @HDLC.feed_appendHDLC HDLC.fresh (by decide) data
    have consistent := HDLC.feed_consistent HDLC.fresh_consistent (appendHDLC data)
    rw [fed, HDLC.Consistent, buffered] at consistent
    rw [incremental, fed, consistent]
    rfl

/-- The check sequence of the octets of "123456789". -/
example : computeFCS16 [0x31, 0x32, 0x33, 0x34, 0x35, 0x36, 0x37, 0x38, 0x39] = 0x906E := by
  decide +kernel

/-! ## Bursts -/

/-- The parser's checksum test of a frame it has collected. -/
def checksumAccepts (frame : ByteVector) : Bool :=
  (frame.foldl HDLC.append HDLC.fresh).validateChecksum

theorem HDLC.foldl_append_runningFCS (parser : HDLC) (frame : ByteVector) :
    (frame.foldl append parser).runningFCS =
      frame.foldl addOneByteToFcs16 parser.runningFCS := by
  induction frame generalizing parser with
  | nil => rfl
  | cons byte frame inductionHypothesis =>
      rw [List.foldl_cons, List.foldl_cons, inductionHypothesis, append]

theorem checksumAccepts_iff (frame : ByteVector) :
    checksumAccepts frame = true ↔
      closeFcs16 (frame.foldl addOneByteToFcs16 initFcs16) = 0xf47 := by
  rw [checksumAccepts, HDLC.validateChecksum, HDLC.foldl_append_runningFCS, beq_iff_eq]
  rfl

/-- The test accepts one value of the bitwise register. -/
theorem checksumAccepts_iff_residue (frame : ByteVector) :
    checksumAccepts frame = true ↔
      run fcsPolynomial 0xFFFF (messageBits frame) = 0xF0B8 := by
  rw [checksumAccepts_iff, closeFcs16_eq, foldl_addOneByteToFcs16_bits, BitVec.xor_comm,
    TableCrc.xor_eq_iff]
  rfl

/-- A frame that fails the test is collected and dropped at its closing flag. -/
theorem HDLC.feed_rejected
    {frame : ByteVector}
    (rejected : checksumAccepts frame = false) :
    fresh.feed (appendHDLC frame ++ [hdlcPadding]) = (fresh, []) := by
  have refused : acceptFrame frame = none := by
    rw [acceptFrame, if_neg]
    rintro ⟨-, residue⟩
    rw [(checksumAccepts_iff frame).mpr residue] at rejected
    cases rejected
  rw [feed_closing fresh_consistent (by decide)]
  simp [fresh, refused]

/-- When all bits in which two frames of one length differ lie within sixteen
consecutive bits, the test does not accept both; the rejected one is not
delivered. -/
theorem HDLC.burst_rejected
    (accepted received : ByteVector)
    (passes : checksumAccepts accepted = true)
    (sameLength : received.length = accepted.length)
    (different : received ≠ accepted)
    (start : Nat)
    (burst : ∀ index,
      (messageBits accepted)[index]? ≠ (messageBits received)[index]? →
        start ≤ index ∧ index < start + 16) :
    checksumAccepts received = false ∧
      fresh.feed (appendHDLC received ++ [hdlcPadding]) = (fresh, []) := by
  have differentBits : messageBits accepted ≠ messageBits received := by
    intro sameBits
    exact different (messageBits_injective sameLength.symm sameBits).symm
  have sameBitLength : (messageBits accepted).length = (messageBits received).length := by
    rw [length_messageBits, length_messageBits, sameLength]
  have apart := run_ne_of_burst fcsPolynomial_top (by decide) 0xFFFF sameBitLength
    differentBits start burst
  have rejected : checksumAccepts received = false := by
    rw [Bool.eq_false_iff]
    intro alsoPasses
    rw [checksumAccepts_iff_residue] at passes alsoPasses
    exact apart (passes.trans alsoPasses.symm)
  exact ⟨rejected, feed_rejected rejected⟩

/-- A burst over the second, third and fourth byte of a frame. -/
theorem HDLC.burst_rejected_example :
    checksumAccepts [0x03, 0x62, 0x81, 0xE0, 0xFC] = false ∧
      fresh.feed (appendHDLC [0x03, 0x62, 0x81, 0xE0, 0xFC] ++ [hdlcPadding]) =
        (fresh, []) := by
  refine burst_rejected [0x03, 0xF2, 0x7E, 0xE9, 0xFC] [0x03, 0x62, 0x81, 0xE0, 0xFC]
    (by decide +kernel) rfl (by decide) 12 ?_
  intro index differs
  by_cases inside : index < 40
  · have checked : ∀ index < 40,
        (messageBits [0x03, 0xF2, 0x7E, 0xE9, (0xFC : Byte)])[index]? ≠
            (messageBits [0x03, 0x62, 0x81, 0xE0, (0xFC : Byte)])[index]? →
          12 ≤ index ∧ index < 12 + 16 := by decide +kernel
    exact checked index inside differs
  · rw [List.getElem?_eq_none, List.getElem?_eq_none] at differs
    · exact absurd rfl differs
    · rw [length_messageBits]
      simpa using inside
    · rw [length_messageBits]
      simpa using inside

/-! ## Canonical frames -/

/-- A frame body without flags in which one of the two masked bytes stands behind
every escape. -/
def CanonicalBody (body : ByteVector) : Prop :=
  0x7E ∉ body ∧
    ∀ index : Nat, body[index]? = some 0x7D →
      body[index + 1]? = some 0x5D ∨ body[index + 1]? = some 0x5E

/-- A frame body between two flags. -/
def flagged (body : ByteVector) : ByteVector := hdlcPadding :: (body ++ [hdlcPadding])

/-- The content of a frame body, its escapes undone. -/
def bodyContent (body : ByteVector) : ByteVector :=
  unstuff hdlcEscChar (· ^^^ hdlcXorByte) body

/-- Escaping the content of a canonical body gives the body back. -/
theorem CanonicalBody.appendHDLC_bodyContent
    {body : ByteVector}
    (canonical : CanonicalBody body) :
    appendHDLC (bodyContent body) = body := by
  have written : Canonical hdlcPadding hdlcEscChar (· ^^^ hdlcXorByte) body := by
    apply canonical_of_positions body canonical.1
    intro index isEscape
    exact (canonical.2 index isEscape).symm
  exact written.stuff_unstuff xorByte_involutive

/-- A frame is accepted exactly when it is a payload and its check sequence. -/
theorem acceptFrame_eq_some_iff (frame payload : ByteVector) :
    acceptFrame frame = some payload ↔
      payload ≠ [] ∧ frame = payload ++ fcsBytes (computeFCS16 payload) := by
  constructor
  · intro accepted
    rcases frame_cases frame with short | ⟨content, low, high, nonempty, rfl⟩
    · rw [acceptFrame, if_neg (by omega)] at accepted
      cases accepted
    · rw [acceptFrame] at accepted
      split_ifs at accepted with passes
      have trailer := (closeFcs16_residue_iff content low high).mp passes.2
      have same : content = payload := by simpa using accepted
      rw [← same, ← trailer]
      exact ⟨nonempty, rfl⟩
  · rintro ⟨nonempty, rfl⟩
    exact acceptFrame_encoded nonempty

/-- What the parser delivers from a canonical frame is decided by its content. -/
theorem HDLC.feed_flagged
    {body : ByteVector}
    (canonical : CanonicalBody body) :
    fresh.feed (flagged body) = (fresh, (acceptFrame (bodyContent body)).toList) := by
  have opened : fresh.addByte hdlcPadding = (fresh, none) := by decide
  have closed := feed_closing fresh_consistent (by decide) (bodyContent body)
  rw [canonical.appendHDLC_bodyContent] at closed
  rw [flagged, feed, opened]
  dsimp only
  rw [closed]
  rfl

/-- Encoding undoes decoding on canonical frames: the packet delivered from one is
written as that frame, the content is the packet and the check sequence that the
encoder computes for it, and no other canonical frame delivers the packet. -/
theorem HDLC.encodeHDLC_delivered
    (body packet : ByteVector)
    (canonical : CanonicalBody body)
    (delivered : packet ∈ (fresh.feed (flagged body)).2) :
    encodeHDLC packet = flagged body ∧
      bodyContent body = packet ++ fcsBytes (computeFCS16 packet) ∧
      ∀ other, CanonicalBody other → packet ∈ (fresh.feed (flagged other)).2 →
        other = body := by
  have content (frame : ByteVector) (frameCanonical : CanonicalBody frame)
      (frameDelivered : packet ∈ (fresh.feed (flagged frame)).2) :
      bodyContent frame = packet ++ fcsBytes (computeFCS16 packet) := by
    rw [feed_flagged frameCanonical, Option.mem_toList] at frameDelivered
    exact ((acceptFrame_eq_some_iff _ _).mp frameDelivered).2
  have bodyEq := content body canonical delivered
  refine ⟨?_, bodyEq, ?_⟩
  · rw [encodeHDLC_eq, ← bodyEq, canonical.appendHDLC_bodyContent, flagged]
  · intro other otherCanonical otherDelivered
    rw [← canonical.appendHDLC_bodyContent, bodyEq, ← content other otherCanonical otherDelivered,
      otherCanonical.appendHDLC_bodyContent]

/-- A frame whose only payload byte is the escape itself. -/
theorem HDLC.encodeHDLC_delivered_example :
    encodeHDLC [0x7D] = flagged [0x7D, 0x5D, 0x1A, 0x58] ∧
      bodyContent [0x7D, 0x5D, 0x1A, 0x58] = [0x7D] ++ fcsBytes (computeFCS16 [0x7D]) ∧
      ∀ other, CanonicalBody other → [0x7D] ∈ (fresh.feed (flagged other)).2 →
        other = [0x7D, 0x5D, 0x1A, 0x58] := by
  refine encodeHDLC_delivered [0x7D, 0x5D, 0x1A, 0x58] [0x7D] ⟨by decide, ?_⟩ (by decide +kernel)
  intro index isEscape
  match index with
  | 0 => exact Or.inl rfl
  | 1 => cases isEscape
  | 2 => cases isEscape
  | 3 => cases isEscape
  | index + 4 => cases isEscape

end SerialMux
