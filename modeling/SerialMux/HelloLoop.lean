import Mathlib.Data.List.Chain
import SerialMux.Handshake
import SerialMux.Library.Machine

/-!
# The Hellos of the read loop

Until the manager has answered, each turn of the loop in `threadMain` compares the clock with the
end of its last Hello, sends another one if that is long enough ago, and reads.  The clock counts
seconds.
-/

namespace SerialMux

/-- `PICARD_HELLO_INTERVAL`, in seconds. -/
def picardHelloInterval : Int := 6

/-- The frame that `sendHello` sends: it asks for the version of the manager or else for the
preferred one. -/
def BasePicard.helloFrame (io : BasePicard) : ByteVector :=
  let requestedVersion :=
    if io.protocolVersion = 0 then knownApiProtocolVersions[0] else io.protocolVersion
  [0, Command.hello, io.seqNo, 3, requestedVersion, io.seqNo, 0]

/-- A Hello, with what the clock reads in the test before it and when it is sent. -/
structure Hello where
  tested : Int
  sentAt : Int
  frame : ByteVector
  deriving DecidableEq, Repr

/-- The read loop.  `tested` and `latest` are what the clock read in the last test and at last. -/
structure HelloLoop where
  io : BasePicard
  lastHello : Int
  tested : Int
  latest : Int
  deriving DecidableEq, Repr

/-- A turn of the loop: what the clock reads in the test and behind a Hello, and the frames that
the read completes. -/
structure LoopTurn where
  now : Int
  sentAt : Int
  frames : List ByteVector
  deriving DecidableEq, Repr

namespace BasePicard

/-- A version that is recorded is a supported one. -/
def VersionRecorded (io : BasePicard) : Prop :=
  io.protocolVersion = 0 ∨ checkProtocol io.protocolVersion = true

theorem VersionRecorded.recordVersion
    {io : BasePicard}
    (recorded : io.VersionRecorded)
    (version : Byte) :
    (io.recordVersion version).VersionRecorded := by
  unfold BasePicard.recordVersion
  split
  · rename_i known
    exact Or.inr known
  · exact recorded

theorem VersionRecorded.frameComplete
    {io : BasePicard}
    (recorded : io.VersionRecorded)
    (frame : ByteVector) :
    (io.frameComplete frame).1.VersionRecorded := by
  unfold BasePicard.frameComplete
  split
  · rename_i control type seqNo len payload
    split_ifs
    · exact recorded
    · unfold BasePicard.helloResponse
      split
      · dsimp only
        split_ifs <;> exact recorded.recordVersion _
      · exact recorded
    · unfold BasePicard.mgrHello
      split
      · exact recorded.recordVersion _
      · exact recorded
    · rw [VersionRecorded, (notification_fields io control type seqNo payload).2]
      exact recorded
    · rw [VersionRecorded, (commandResponse_fields io type seqNo payload).2]
      exact recorded
    · exact recorded
  · exact recorded

theorem VersionRecorded.frames
    {io : BasePicard}
    (recorded : io.VersionRecorded)
    (received : List ByteVector) :
    (io.frames received).1.VersionRecorded := by
  induction received generalizing io with
  | nil => exact recorded
  | cons frame rest inductionHypothesis => exact inductionHypothesis (recorded.frameComplete frame)

/-- The frames of the manager do not end a connection. -/
theorem frames_connected
    {io : BasePicard}
    (connected : io.connected = true)
    (received : List ByteVector) :
    (io.frames received).1.connected = true :=
  (frames_handshake io received).1.mpr (Or.inl connected)

end BasePicard

namespace HelloLoop

/-- The loop as `threadMain` starts it on a new connection. -/
def start (callback : Bool) (now : Int) : HelloLoop where
  io := BasePicard.constructed true callback
  lastHello := now - 2 * picardHelloInterval
  tested := now
  latest := now

/-- A turn of the loop. -/
def step (r : HelloLoop) (turn : LoopTurn) : HelloLoop × List Hello :=
  let io := (r.io.frames turn.frames).1
  if ¬r.io.connected ∧ turn.now - r.lastHello > picardHelloInterval then
    ({ io := io, lastHello := turn.sentAt, tested := turn.now, latest := turn.sentAt },
      [{ tested := turn.now, sentAt := turn.sentAt, frame := r.io.helloFrame }])
  else
    ({ io := io, lastHello := r.lastHello, tested := turn.now, latest := turn.now }, [])

/-- The clock does not go back, and the tests of two turns are no more than `longest` apart. -/
def Timely (longest : Int) (r : HelloLoop) (turn : LoopTurn) : Prop :=
  r.latest ≤ turn.now ∧ turn.now ≤ turn.sentAt ∧ turn.now ≤ r.tested + longest

instance (longest : Int) (r : HelloLoop) (turn : LoopTurn) : Decidable (Timely longest r turn) :=
  inferInstanceAs (Decidable (_ ∧ _ ∧ _))

/-! ## What holds of the Hellos -/

/-- The frame of a Hello that asks for a supported version. -/
def AsksForKnown (frame : ByteVector) : Prop :=
  ∃ seqNo version, BasePicard.checkProtocol version = true ∧
    frame = [0, Command.hello, seqNo, 3, version, seqNo, 0]

/-- The distance of a Hello from the end of the one before. -/
def Spaced (longest : Int) (earlier later : Hello) : Prop :=
  picardHelloInterval < later.tested - earlier.sentAt ∧
    later.tested - earlier.sentAt ≤ picardHelloInterval + longest

/-- The Hellos so far are spaced, and until the manager has answered the last one is recent. -/
structure Regular (longest : Int) (r : HelloLoop) (hellos : List Hello) : Prop where
  recorded : r.io.VersionRecorded
  asks : ∀ hello ∈ hellos, AsksForKnown hello.frame
  spaced : hellos.IsChain (Spaced longest)
  last : ∃ hello, hellos.getLast? = some hello ∧ hello.sentAt = r.lastHello
  recent : r.io.connected = false → r.tested - r.lastHello ≤ picardHelloInterval

variable {r : HelloLoop} {longest : Int}

theorem asksForKnown_helloFrame {io : BasePicard} (recorded : io.VersionRecorded) :
    AsksForKnown io.helloFrame := by
  refine ⟨io.seqNo, _, ?_, rfl⟩
  split
  · decide
  · rename_i known
    exact recorded.resolve_left known

/-- The first turn of the loop sends a Hello. -/
theorem start_regular
    {callback : Bool}
    {now : Int}
    {turn : LoopTurn}
    (timely : Timely longest (start callback now) turn) :
    Regular longest (step (start callback now) turn).1 (step (start callback now) turn).2 := by
  have recorded : (start callback now).io.VersionRecorded := Or.inl rfl
  have sends : ¬(start callback now).io.connected ∧
      turn.now - (start callback now).lastHello > picardHelloInterval := by
    have : now ≤ turn.now := timely.1
    refine ⟨by simp [start, BasePicard.constructed], ?_⟩
    simp only [start, picardHelloInterval]
    omega
  have later := timely.2.1
  unfold step
  rw [if_pos sends]
  refine ⟨recorded.frames _, ?_, by simp, ⟨_, rfl, rfl⟩, ?_⟩
  · simpa using asksForKnown_helloFrame recorded
  · intro _
    simp only [picardHelloInterval]
    omega

theorem step_regular
    {hellos : List Hello}
    {turn : LoopTurn}
    (regular : Regular longest r hellos)
    (timely : Timely longest r turn) :
    Regular longest (step r turn).1 (hellos ++ (step r turn).2) := by
  obtain ⟨recorded, asks, spaced, ⟨hello, last, sent⟩, recent⟩ := regular
  obtain ⟨-, later, soon⟩ := timely
  unfold step
  split
  · rename_i sends
    obtain ⟨unconnected, elapsed⟩ := sends
    have before := recent (by simpa using unconnected)
    refine ⟨recorded.frames _, ?_, ?_, ⟨_, List.getLast?_concat, rfl⟩, ?_⟩
    · simpa [or_imp, forall_and] using ⟨asks, asksForKnown_helloFrame recorded⟩
    · refine List.isChain_append.mpr ⟨spaced, by simp, ?_⟩
      intro earlier isLast next isNext
      obtain rfl : hello = earlier := by simpa [last] using isLast
      obtain rfl := Option.mem_some.mp isNext
      have notLater : turn.now - r.lastHello ≤ picardHelloInterval + longest := by omega
      rw [Spaced, sent]
      exact ⟨elapsed, notLater⟩
    · intro _
      simp only [picardHelloInterval]
      omega
  · rename_i silent
    refine ⟨recorded.frames _, by simpa using asks, by simpa using spaced,
      ⟨hello, by simpa using last, sent⟩, ?_⟩
    intro unconnected
    have before : r.io.connected = false := by
      by_contra connected
      simp [BasePicard.frames_connected (by simpa using connected)] at unconnected
    simpa [before] using silent

/-- A connected loop sends no Hello. -/
theorem run_connected
    (connected : r.io.connected = true)
    (turns : List LoopTurn) :
    (Machine.run step r turns).2 = [] := by
  induction turns generalizing r with
  | nil => rfl
  | cons turn rest inductionHypothesis =>
      have silent : (step r turn).2 = [] := by simp [step, connected]
      have still : (step r turn).1.io.connected = true := by
        have next := BasePicard.frames_connected connected turn.frames
        unfold step
        split <;> exact next
      rw [Machine.run_cons, silent, inductionHypothesis still, List.nil_append]

/-- In every run of the read loop on a new connection, the test in front of each Hello but the
first comes more than the interval behind the end of the one before, and at most the longest turn
later than that.  Until the manager has answered, the last Hello is no older than the interval at
a test that sends none.  Each asks for a supported version, and there is none behind the
answer. -/
theorem hellos_regular
    (callback : Bool)
    (now longest : Int)
    (first : LoopTurn)
    (rest : List LoopTurn)
    (timely : Machine.Meets step (Timely longest) (start callback now) (first :: rest)) :
    Regular longest (Machine.run step (start callback now) (first :: rest)).1
        (Machine.run step (start callback now) (first :: rest)).2 ∧
      ∀ earlier later, first :: rest = earlier ++ later →
        (Machine.run step (start callback now) earlier).1.io.connected = true →
        (Machine.run step (Machine.run step (start callback now) earlier).1 later).2 = [] := by
  obtain ⟨firstTimely, restTimely⟩ := timely
  refine ⟨?_, fun _ later _ connected => run_connected connected later⟩
  exact Machine.invariant_run (Regular longest)
    (fun _ _ _ regular timely => step_regular regular timely) (start_regular firstTimely) restTimely

/-- Turns of at most three seconds up to the answer of the manager: the second Hello is sent
eight seconds behind the first one, and the third seven behind the second, which took a second. -/
def answeredTurns : List LoopTurn :=
  [⟨2, 2, []⟩, ⟨5, 5, []⟩, ⟨8, 9, [[2, 0x14, 7, 2, 1, 0xAA]]⟩, ⟨11, 11, []⟩, ⟨13, 13, []⟩,
    ⟨16, 16, [[0, 2, 8, 5, 0, 4, 0, 0, 0]]⟩, ⟨19, 19, []⟩, ⟨22, 22, []⟩, ⟨25, 25, []⟩]

theorem hellos_regular_example :
    Regular 3 (Machine.run step (start true 0) (⟨0, 0, []⟩ :: answeredTurns)).1
        (Machine.run step (start true 0) (⟨0, 0, []⟩ :: answeredTurns)).2 ∧
      ∀ earlier later, ⟨0, 0, []⟩ :: answeredTurns = earlier ++ later →
        (Machine.run step (start true 0) earlier).1.io.connected = true →
        (Machine.run step (Machine.run step (start true 0) earlier).1 later).2 = [] :=
  hellos_regular true 0 3 ⟨0, 0, []⟩ answeredTurns (by decide +kernel)

example :
    (Machine.run step (start true 0) (⟨0, 0, []⟩ :: answeredTurns)).2.map Hello.sentAt =
        [0, 9, 16] ∧
      (Machine.run step (start true 0) (⟨0, 0, []⟩ :: answeredTurns)).1.io.connected := by
  decide +kernel

end HelloLoop

end SerialMux
