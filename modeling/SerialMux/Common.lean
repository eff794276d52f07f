import Mathlib.Data.BitVec
import Mathlib.Tactic.IntervalCases

/-!
# Common types and constants

Bytes, byte vectors, the command and response codes, and the subscription
filter codec.  A vector access outside the vector is undefined in the source;
the functions that can make one return `none` there.  Sizes are natural
numbers: the project files build 32-bit programs, where no vector outgrows an
`int`.
-/

namespace SerialMux

/-- The type `uint8_t`. -/
abbrev Byte := BitVec 8

/-- A `std::vector<uint8_t>`. -/
abbrev ByteVector := List Byte

/-! ## Serial API commands, mux commands and response codes -/

namespace Command

def hello : Byte := 1
def helloResponse : Byte := 2
def mgrHello : Byte := 3
def notification : Byte := 20
def subscribe : Byte := 22

end Command

namespace MuxCommand

def muxHello : Byte := 1
def muxInfo : Byte := 2

end MuxCommand

namespace ErrorCode

def ok : Byte := 0
def invalidCmd : Byte := 1
def invalidAuth : Byte := 3
def unsupportedVersion : Byte := 4
def commandTimeout : Byte := 5

end ErrorCode

/-- Whether a command can be forwarded to the Picard Serial API. -/
def isPicardApiCommand (type : Byte) : Bool :=
  Command.notification < type

theorem byte_succ_ne (seqNo : Byte) : seqNo + 1 ≠ seqNo := by
  intro equal
  have := congrArg BitVec.toNat equal
  rw [BitVec.toNat_add] at this
  have bound := seqNo.isLt
  simp at this
  omega

/-- High byte of a 16-bit number. -/
def highByte (value : BitVec 16) : Byte :=
  ((value &&& 0xFF00) >>> 8).setWidth 8

/-- Low byte of a 16-bit number. -/
def lowByte (value : BitVec 16) : Byte :=
  (value &&& 0xFF).setWidth 8

theorem highByte_toNat (value : BitVec 16) :
    (highByte value).toNat = value.toNat / 256 := by
  have shifted : highByte value = (value >>> 8).setWidth 8 := by
    apply BitVec.eq_of_getLsbD_eq
    intro index indexLt
    interval_cases index <;> simp [highByte]
  have bound := value.isLt
  rw [shifted, BitVec.toNat_setWidth, BitVec.toNat_ushiftRight,
    Nat.shiftRight_eq_div_pow]
  omega

theorem lowByte_toNat (value : BitVec 16) :
    (lowByte value).toNat = value.toNat % 256 := by
  have truncated : lowByte value = value.setWidth 8 := by
    apply BitVec.eq_of_getLsbD_eq
    intro index indexLt
    interval_cases index <;> simp [lowByte]
  rw [truncated, BitVec.toNat_setWidth]

/-- The two bytes of a number, read big-endian, give it back. -/
theorem highByte_lowByte_toNat (value : BitVec 16) :
    (highByte value).toNat * 256 + (lowByte value).toNat = value.toNat := by
  rw [highByte_toNat, lowByte_toNat]
  omega

/-! ## The version reported by MUX_INFO -/

/-- The fields of `SMuxVersion`. -/
structure MuxVersion where
  major : Byte
  minor : Byte
  release : Byte
  build : BitVec 16

/-- The version compiled into the program. -/
def getVersion : MuxVersion where
  major := 1
  minor := 1
  release := 2
  build := 17

/-- Payload of the answer to MUX_INFO. -/
def muxInfoPayload (protocolVersion : Byte) : ByteVector :=
  [protocolVersion, getVersion.major, getVersion.minor, getVersion.release,
    (getVersion.build >>> 8).setWidth 8, getVersion.build.setWidth 8]

/-! ## Subscription filters -/

/-- Subscription filter and unreliable mask, two 32-bit `int`s. -/
structure SubscriptionParams where
  filter : BitVec 32 := 0
  unreliable : BitVec 32 := 0
  deriving DecidableEq, Repr

namespace SubscriptionParams

/-- Bitwise union of two filters and of their unreliable masks. -/
def union (left right : SubscriptionParams) : SubscriptionParams where
  filter := left.filter ||| right.filter
  unreliable := left.unreliable ||| right.unreliable

end SubscriptionParams

/-- Number of payload bytes of a SUBSCRIBE command. -/
def subscribeParamsLength : Nat := 8

/-- One byte of an `int`, `(value >> amount) & 0xFF`. -/
def byteAt (value : BitVec 32) (amount : Nat) : Byte :=
  ((value.sshiftRight amount) &&& 0xFF).setWidth 8

/-- The `int` whose bytes are given, most significant byte first. -/
def ofBytes (first second third fourth : Byte) : BitVec 32 :=
  ((first.setWidth 32 <<< 24) &&& 0xFF000000) |||
    ((second.setWidth 32 <<< 16) &&& 0xFF0000) |||
    ((third.setWidth 32 <<< 8) &&& 0xFF00) |||
    (fourth.setWidth 32 &&& 0xFF)

/-- Write a filter over the first eight elements of a vector.  The source calls
`reserve`, which does not change the size, so a shorter vector is written
outside its bounds. -/
def filterToVector (params : SubscriptionParams) : ByteVector → Option ByteVector
  | _ :: _ :: _ :: _ :: _ :: _ :: _ :: _ :: rest =>
      some (byteAt params.filter 24 :: byteAt params.filter 16 ::
        byteAt params.filter 8 :: byteAt params.filter 0 ::
        byteAt params.unreliable 24 :: byteAt params.unreliable 16 ::
        byteAt params.unreliable 8 :: byteAt params.unreliable 0 :: rest)
  | _ => none

/-- Read a filter from the start of a vector.  Only the reads of the
unreliable mask are guarded by the vector's size. -/
def vectorToFilter : ByteVector → Option SubscriptionParams
  | d0 :: d1 :: d2 :: d3 :: d4 :: d5 :: d6 :: d7 :: _ =>
      some { filter := ofBytes d0 d1 d2 d3, unreliable := ofBytes d4 d5 d6 d7 }
  | d0 :: d1 :: d2 :: d3 :: _ =>
      some { filter := ofBytes d0 d1 d2 d3, unreliable := 0 }
  | _ => none

/-- Whether the bit of a notification type is set.  Shifting an `int` by 32 or
more is undefined. -/
def subscribeFilterMatch (params : SubscriptionParams) (notifType : Nat) :
    Option Bool :=
  if notifType < 32 then some (params.filter &&& (1 <<< notifType) != 0)
  else none

/-- Below 32 a type is matched with its bit of the filter. -/
theorem subscribeFilterMatch_eq
    (params : SubscriptionParams)
    {notifType : Nat}
    (inRange : notifType < 32) :
    subscribeFilterMatch params notifType = some (params.filter.getLsbD notifType) := by
  have shifted : BitVec.ofNat 32 (1 <<< notifType) = BitVec.twoPow 32 notifType := by
    apply BitVec.eq_of_getLsbD_eq
    intro index indexLt
    rw [BitVec.getLsbD_ofNat, BitVec.getLsbD_twoPow, Nat.one_shiftLeft, Nat.testBit_two_pow]
    simp [indexLt, inRange]
  have nonzero : BitVec.twoPow 32 notifType ≠ 0#32 := by
    intro zero
    have bit := congrArg (BitVec.getLsbD · notifType) zero
    simp [inRange] at bit
  rw [subscribeFilterMatch, if_pos inRange, Option.some.injEq]
  change (params.filter &&& BitVec.ofNat 32 (1 <<< notifType) != 0#32) = _
  rw [shifted, BitVec.and_twoPow]
  cases params.filter.getLsbD notifType with
  | false => rfl
  | true => simpa using nonzero

/-- A type that matches is a bit of the filter. -/
theorem getLsbD_of_subscribeFilterMatch
    {params : SubscriptionParams}
    {notifType : Nat}
    (passes : subscribeFilterMatch params notifType = some true) :
    params.filter.getLsbD notifType = true := by
  by_cases inRange : notifType < 32
  · rw [subscribeFilterMatch_eq params inRange] at passes
    exact Option.some.inj passes
  · rw [subscribeFilterMatch, if_neg inRange] at passes
    cases passes

theorem ofBytes_byteAt (value : BitVec 32) :
    ofBytes (byteAt value 24) (byteAt value 16) (byteAt value 8) (byteAt value 0) =
      value := by
  apply BitVec.eq_of_getLsbD_eq
  intro index indexLt
  interval_cases index <;> simp [ofBytes, byteAt, BitVec.getElem_sshiftRight]

/-- The filter read back from a vector is the filter written into it. -/
theorem vectorToFilter_of_filterToVector
    {params : SubscriptionParams}
    {data written : ByteVector}
    (wrote : filterToVector params data = some written) :
    vectorToFilter written = some params := by
  unfold filterToVector at wrote
  split at wrote
  · rw [Option.some.injEq] at wrote
    subst wrote
    simp only [vectorToFilter, ofBytes_byteAt]
  · cases wrote

/-- Writing does not change the size of a vector. -/
theorem filterToVector_length
    {params : SubscriptionParams}
    {data written : ByteVector}
    (wrote : filterToVector params data = some written) :
    written.length = data.length := by
  unfold filterToVector at wrote
  split at wrote
  · rw [Option.some.injEq] at wrote
    subst wrote
    rfl
  · cases wrote

/-- Writing succeeds on every vector of at least eight bytes, keeps its size and
everything behind the first eight. -/
theorem filterToVector_of_length
    (params : SubscriptionParams)
    {data : ByteVector}
    (long : subscribeParamsLength ≤ data.length) :
    ∃ written, filterToVector params data = some written ∧
      written.length = data.length ∧ written.drop 8 = data.drop 8 := by
  match data, long with
  | _ :: _ :: _ :: _ :: _ :: _ :: _ :: _ :: rest, _ =>
      exact ⟨_, rfl, by simp, rfl⟩

/-- Reading succeeds on every vector of at least eight bytes. -/
theorem vectorToFilter_of_length
    {data : ByteVector}
    (long : subscribeParamsLength ≤ data.length) :
    ∃ params, vectorToFilter data = some params := by
  match data, long with
  | _ :: _ :: _ :: _ :: _ :: _ :: _ :: _ :: rest, _ => exact ⟨_, rfl⟩

end SerialMux
