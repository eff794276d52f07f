import SerialMux.Connection
import SerialMux.HelloLoop
import SerialMux.Responses
import SerialMux.Transport

/-!
# What is written in a run

The command thread and the Picard thread write messages to the clients and frames to Picard;
besides, a client object answers the hello of its client, and the read loop sends Hellos.  As
long as each message and each frame is written in one piece, their order does not matter:
every message fits its length field and no frame is empty, so that the readers at the other
ends get back what was written.
-/

namespace SerialMux

/-- The message has a payload of at most 254 bytes behind its leading one. -/
def MuxOutput.Fits (output : MuxOutput) : Prop :=
  ∃ cmdType leading payload, output = make cmdType 0 leading payload ∧ payload.length ≤ 254

/-- What is written fits. -/
def Output.Fits : Output → Prop
  | .response _ _ message | .notified _ message => message.Fits
  | .sent frame | .acked frame => frame ≠ []
  | .accepted _ | .concluded _ | .reset _ => True

/-- What an event passes on fits. -/
def PicardEvent.Fits : PicardEvent → Prop
  | .sendRaw data => data ≠ []
  | .handleNotif _ payload => payload.length ≤ 254
  | .commandComplete response => response.payload.length ≤ 254
  | .notifyConnect | .resetConnection => True

/-- What is written to the clients and to Picard: by the command thread and the Picard thread
in a run, by a client object for a hello, and by the read loop. -/
inductive Write
  | thread (output : Output)
  | helloResponse (client : ClientId) (connection : Connection) (result : Byte)
  | hello (io : BasePicard)

namespace Write

/-- What the command thread and the Picard thread write. -/
def output : Write → Option Output
  | .thread output => some output
  | .helloResponse _ _ _ | .hello _ => none

/-- What a client should read. -/
def messageTo (client : ClientId) : Write → Option MuxOutput
  | .thread (.response other _ message) | .thread (.notified other message) =>
      if other = client then some message else none
  | .helloResponse other connection result =>
      if other = client then some (connection.buildHelloResponse result) else none
  | .thread (.accepted _) | .thread (.concluded _) | .thread (.sent _) | .thread (.acked _)
  | .thread (.reset _) | .hello _ => none

/-- What Picard should read. -/
def frame : Write → Option ByteVector
  | .thread (.sent frame) | .thread (.acked frame) => some frame
  | .hello io => some io.helloFrame
  | .thread (.accepted _) | .thread (.concluded _) | .thread (.response _ _ _)
  | .thread (.notified _ _) | .thread (.reset _) | .helloResponse _ _ _ => none

end Write

namespace BasePicard

/-- The length byte of a frame counts its payload, so what a frame passes on is short. -/
theorem frameComplete_fits (io : BasePicard) (frame : ByteVector) :
    ∀ event ∈ (io.frameComplete frame).2, event.Fits := by
  intro event mem
  cases event with
  | sendRaw data => exact nonempty_of_frameComplete_sends mem
  | commandComplete response =>
      obtain ⟨inRange, shape, -⟩ := frameComplete_commandComplete mem
      rw [shape] at mem
      unfold frameComplete at mem
      dsimp only at mem
      have wellFormed : ¬(response.respCode :: response.payload = [] ∨
          (BitVec.ofNat 8 (response.payload.length + 1)).toNat ≠
            (response.respCode :: response.payload).length) := by
        intro malformed
        rw [if_pos malformed] at mem
        cases mem
      have size : (BitVec.ofNat 8 (response.payload.length + 1)).toNat =
          response.payload.length + 1 := by
        by_contra different
        exact wellFormed (Or.inr different)
      have bound := (BitVec.ofNat 8 (response.payload.length + 1)).isLt
      change response.payload.length ≤ 254
      omega
  | handleNotif notifType payload =>
      unfold frameComplete at mem
      split at mem
      · rename_i control type seqNo len body
        split_ifs at mem with malformed hello mgr notif isResponse
        · cases mem
        · unfold helloResponse at mem
          split at mem
          · dsimp only at mem
            split_ifs at mem <;> simp at mem
          · cases mem
        · unfold mgrHello at mem
          split at mem
          · dsimp only at mem
            split_ifs at mem <;> simp at mem
          · cases mem
        · have bound := len.isLt
          have size : len.toNat = body.length := by
            by_contra different
            exact malformed (Or.inr different)
          cases body with
          | nil => cases mem
          | cons carried rest =>
              have same : payload = rest := by
                simp only [notification] at mem
                split_ifs at mem <;> simp_all [sendAck]
              rw [List.length_cons] at size
              change payload.length ≤ 254
              rw [same]
              omega
        · unfold commandResponse at mem
          split at mem
          · dsimp only at mem
            split_ifs at mem <;> simp at mem
          · cases mem
        · cases mem
      · cases mem
  | notifyConnect | resetConnection => trivial

end BasePicard

namespace Mux

variable {retries : Int} {m : Mux}

/-- What the threads are about to write fits. -/
structure Holds (m : Mux) : Prop where
  reply : ∀ cmd sender resp, m.loop = .replying cmd sender resp → resp.Fits
  frame : ∀ cmd i frame, m.loop = .recording cmd i frame → frame ≠ []
  response : ∀ response, m.picard.response = some response → response.payload.length ≤ 254

/-- A step keeps what the threads hold and writes what fits. -/
def Writes (result : Mux × List Output) : Prop :=
  Holds result.1 ∧ ∀ output ∈ result.2, output.Fits

theorem make_fits
    {cmdType leading : Byte}
    {payload : ByteVector}
    (short : payload.length ≤ 254) :
    (MuxOutput.make cmdType 0 leading payload).Fits :=
  ⟨cmdType, leading, payload, rfl, short⟩

theorem sendResponse_fits
    {resp : MuxOutput}
    (fits : resp.Fits)
    (client : Option ClientId)
    (sender : Sender) :
    ∀ output ∈ sendResponse client sender resp, output.Fits := by
  cases client <;> simp [sendResponse, Output.Fits, fits]

theorem notifyEach_fits
    {objects : ClientId → Client}
    {notifType : Byte}
    {payload : ByteVector}
    (short : payload.length ≤ 254)
    {clients : List ClientId}
    {outputs : List Output}
    (notified : notifyEach objects notifType payload clients = some outputs) :
    ∀ output ∈ outputs, output.Fits := by
  induction clients generalizing outputs with
  | nil =>
      rw [notifyEach, Option.some.injEq] at notified
      simp [← notified]
  | cons client rest inductionHypothesis =>
      simp only [notifyEach, Option.bind_eq_bind, Option.bind_eq_some_iff] at notified
      obtain ⟨subscribed, -, others, rest, result⟩ := notified
      have fits := inductionHypothesis rest
      split at result <;> rw [Option.some.injEq] at result <;> subst result
      · rw [List.forall_mem_cons]
        exact ⟨make_fits short, fits⟩
      · exact fits

theorem dispatch_fits
    {cmd other : ClientCommand}
    {sender : Sender}
    {resp : MuxOutput}
    (replies : m.dispatch cmd = .replying other sender resp) :
    resp.Fits := by
  unfold dispatch at replies
  split_ifs at replies
  · split at replies
    · cases replies
      exact make_fits (by simp [muxInfoPayload])
    · cases replies
  · cases replies
    exact make_fits (Nat.zero_le _)

/-- The command thread holds no message and no frame. -/
theorem Holds.of_loop
    {next : Mux}
    (holds : Holds m)
    (samePicard : next.picard = m.picard)
    (noReply : ∀ cmd sender resp, next.loop ≠ .replying cmd sender resp)
    (noFrame : ∀ cmd i frame, next.loop ≠ .recording cmd i frame) :
    Holds next where
  reply cmd sender resp replying := absurd replying (noReply cmd sender resp)
  frame cmd i frame recording := absurd recording (noFrame cmd i frame)
  response := by
    rw [samePicard]
    exact holds.response

theorem attempt_fits
    (retries : Int)
    (cmd : ClientCommand)
    (i : Nat)
    (result : ClientResult) :
    ((∀ other sender resp, (attempt retries cmd i result).1 ≠ .replying other sender resp) ∧
      ∀ other count frame, (attempt retries cmd i result).1 ≠ .recording other count frame) ∧
      ∀ output ∈ (attempt retries cmd i result).2, output.Fits := by
  refine attempt_cases (fun next =>
    ((∀ other sender resp, next.1 ≠ .replying other sender resp) ∧
      ∀ other count frame, next.1 ≠ .recording other count frame) ∧
      ∀ output ∈ next.2, output.Fits) ?_ ?_
  · exact fun _ _ => by simp
  · exact fun _ => by simp [Output.Fits]

theorem loopStep_writes (retries : Int) (holds : Holds m) : Writes (m.loopStep retries) := by
  have samePicard : (m.loopStep retries).1.picard = m.picard := (loopStep_picard m).1
  cases phase : m.loop <;> simp only [loopStep, phase] at samePicard ⊢
  case checking =>
      exact ⟨holds.of_loop rfl (by split <;> simp) (by split <;> simp), by simp⟩
  case popping => split <;> exact ⟨holds.of_loop rfl (by simp) (by simp), by simp⟩
  case finding cmd =>
      split
      · refine ⟨⟨fun _ _ _ => dispatch_fits, ?_, holds.response⟩, by simp [Output.Fits]⟩
        refine dispatch_cases (fun next => ∀ other i frame,
          next = .recording other i frame → frame ≠ []) ?_ ?_ ?_ ?_ <;> simp
      · exact ⟨holds.of_loop rfl (by simp) (by simp), by simp⟩
  case replying cmd sender resp =>
      exact ⟨holds.of_loop rfl (by simp) (by simp),
        sendResponse_fits (holds.reply cmd sender resp phase) cmd.client sender⟩
  case subscribing =>
      split
      · exact ⟨holds.of_loop (by simp) (by simp) (by simp), by simp⟩
      · exact ⟨holds.of_loop rfl (by simp) (by simp), by simp⟩
  case rewriting => split <;> exact ⟨holds.of_loop rfl (by simp) (by simp), by simp⟩
  case installing cmd =>
      obtain ⟨⟨noReply, noFrame⟩, fits⟩ := attempt_fits retries cmd 0 .timeout
      exact ⟨holds.of_loop rfl noReply noFrame, fits⟩
  case sending cmd i =>
      refine ⟨⟨by simp, ?_, holds.response⟩, by simp⟩
      rintro _ _ _ ⟨⟩
      simp [BasePicard.commandFrame]
  case recording cmd i frame =>
      exact ⟨holds.of_loop rfl (by simp) (by simp),
        by simpa [Output.Fits] using holds.frame cmd i frame phase⟩
  case waiting cmd i =>
      obtain ⟨⟨noReply, noFrame⟩, fits⟩ :=
        attempt_fits retries cmd (i + 1) m.currentCommand.result
      exact ⟨holds.of_loop rfl noReply noFrame, fits⟩
  case concluding => split_ifs <;> exact ⟨holds.of_loop rfl (by simp) (by simp), by simp⟩
  case resetting => exact ⟨holds.of_loop (by simp) (by simp) (by simp), by simp⟩
  case timingOut cmd =>
      exact ⟨holds.of_loop rfl (by simp) (by simp),
        sendResponse_fits (make_fits (Nat.zero_le _)) cmd.client .commandTimeout⟩
  case disconnecting =>
      have threads := (resetConnection_threads m).1
      split <;> rename_i closed reset <;> rw [reset] at threads <;>
        exact ⟨holds.of_loop threads (by simp) (by simp), by simp [Output.Fits]⟩
  case finished => exact ⟨holds, by simp⟩
  case crashed => exact ⟨holds, by simp⟩
  all_goals exact ⟨holds.of_loop rfl (by simp) (by simp), by simp⟩

/-- The command thread is where it was, and the Picard thread holds no new response. -/
theorem Holds.of_picard
    {next : Mux}
    (holds : Holds m)
    (sameLoop : next.loop = m.loop)
    (noResponse : ∀ response, next.picard.response = some response →
      m.picard.response = some response) :
    Holds next where
  reply := by
    rw [sameLoop]
    exact holds.reply
  frame := by
    rw [sameLoop]
    exact holds.frame
  response response handled := holds.response response (noResponse response handled)

theorem handleEvent_writes
    {event : PicardEvent}
    (holds : Holds m)
    (fits : event.Fits) :
    Writes (m.handleEvent event) := by
  cases event with
  | sendRaw data => exact ⟨holds, List.forall_mem_singleton.mpr fits⟩
  | handleNotif notifType payload =>
      simp only [handleEvent, handleNotif]
      split
      · rename_i outputs notified
        exact ⟨holds, notifyEach_fits fits notified⟩
      · exact ⟨holds.of_picard rfl (by simp [PicardPhase.response]), by simp⟩
  | commandComplete response =>
      refine ⟨⟨holds.reply, holds.frame, ?_⟩, by simp [handleEvent]⟩
      rintro _ ⟨⟩
      exact fits
  | notifyConnect => exact ⟨holds, by simp [handleEvent]⟩
  | resetConnection =>
      have same := (resetConnection_same m).loop
      have threads := (resetConnection_threads m).1
      simp only [handleEvent]
      split <;> rename_i closed reset <;> rw [reset] at same threads
      · exact ⟨holds.of_picard same (fun _ handled => threads ▸ handled), by simp [Output.Fits]⟩
      · exact ⟨holds.of_picard same (by simp [PicardPhase.response]), by simp [Output.Fits]⟩

theorem handleEvents_writes
    {events : List PicardEvent}
    (holds : Holds m)
    (fits : ∀ event ∈ events, event.Fits) :
    Writes (m.handleEvents events) := by
  induction events generalizing m with
  | nil => exact ⟨holds, by simp [handleEvents]⟩
  | cons event rest inductionHypothesis =>
      rw [List.forall_mem_cons] at fits
      have first := handleEvent_writes holds fits.1
      have others := inductionHypothesis first.1 fits.2
      exact ⟨others.1, List.forall_mem_append.mpr ⟨first.2, others.2⟩⟩

theorem receive_writes (holds : Holds m) (frame : ByteVector) : Writes (m.receive frame) := by
  unfold receive
  split
  · exact handleEvents_writes ⟨holds.reply, holds.frame, holds.response⟩
      (m.io.frameComplete_fits frame)
  · exact ⟨holds, by simp⟩

end Mux

namespace Process

variable {retries : Int} {p : Process}

/-- A statement of the command thread. -/
theorem loopStep_writes
    (running : ¬p.mux.hasCrashed)
    (holds : p.mux.Holds) :
    (p.loopStep retries).1.mux.Holds ∧ ∀ output ∈ (p.loopStep retries).2, output.Fits := by
  have statement := @loopStep_statement retries p running
  generalize p.loopStep retries = next at statement ⊢
  cases statement with
  | waits | unites | compares => exact ⟨holds, by simp⟩
  | saves | records => exact ⟨⟨holds.reply, holds.frame, holds.response⟩, by simp⟩
  | stores => exact ⟨holds.of_loop rfl (by simp) (by simp), by simp⟩
  | @sends cmd i frame phase =>
      exact ⟨holds.of_loop rfl (by simp) (by simp),
        by simpa [Output.Fits] using holds.frame cmd i frame phase⟩
  | whole => exact Mux.loopStep_writes retries holds

/-- A statement of `commandComplete`. -/
theorem completeStep_writes (holds : p.mux.Holds) :
    ∀ output ∈ p.completeStep.2, output.Fits := by
  have statement := completeStep_statement p
  generalize p.completeStep = next at statement ⊢
  cases statement with
  | @writes response phase =>
      refine Mux.sendResponse_fits (Mux.make_fits (holds.response response ?_)) _ _
      rw [phase]
      rfl
  | _ => simp

theorem step_writes
    {action : Action}
    (holds : p.mux.Holds) :
    (p.step retries action).1.mux.Holds ∧
      ∀ output ∈ (p.step retries action).2, output.Fits := by
  by_cases crashed : p.mux.hasCrashed
  · rw [step_of_crashed crashed]
    exact ⟨holds, by simp⟩
  by_cases loop : action = .loop
  · subst loop
    rw [step_loop crashed]
    exact loopStep_writes crashed holds
  by_cases complete : action = .complete
  · subst complete
    obtain ⟨sameLoop, noResponse⟩ := step_complete_response retries p
    refine ⟨holds.of_picard sameLoop noResponse, ?_⟩
    rw [step_complete crashed]
    exact completeStep_writes holds
  by_cases receives : ∃ frame, action = .receive frame
  · obtain ⟨frame, rfl⟩ := receives
    rw [step_receive crashed]
    rcases @receive_cases retries p frame with waits | handled
    · rw [waits]
      exact ⟨holds, by simp⟩
    · rw [handled, outerStep, Mux.step, if_neg crashed]
      exact Mux.receive_writes holds frame
  · obtain ⟨same, silent⟩ := @step_sameThreads retries p action loop complete
      fun frame receive => receives ⟨frame, receive⟩
    rw [silent]
    exact ⟨holds.of_picard same.loop (by rw [same.picard]; exact fun _ => id), by simp⟩

/-- What the threads hold fits, and so does what was written. -/
def WrittenSoFar (p : Process) (outputs : List Output) : Prop :=
  p.mux.Holds ∧ ∀ output ∈ outputs, output.Fits

theorem step_writtenSoFar
    {outputs : List Output}
    {action : Action}
    (written : WrittenSoFar p outputs) :
    WrittenSoFar (p.step retries action).1 (outputs ++ (p.step retries action).2) := by
  obtain ⟨holds, fits⟩ := @step_writes retries p action written.1
  exact ⟨holds, List.forall_mem_append.mpr ⟨written.2, fits⟩⟩

theorem run_writes
    (retries : Int)
    (io : BasePicard)
    (protocolVersion : Byte)
    (actions : List Action) :
    ∀ output ∈ (Machine.run (step retries) (start io protocolVersion) actions).2,
      output.Fits := by
  have initially : (start io protocolVersion).mux.Holds := by
    constructor <;> simp [start, Mux.start, PicardPhase.response]
  have written : WrittenSoFar (start io protocolVersion) [] := ⟨initially, by simp⟩
  exact (Machine.invariant_run WrittenSoFar (fun _ _ _ written _ => step_writtenSoFar written)
    written (Machine.meets_true _ actions)).2

end Process

/-! ## The readers -/

/-- Messages that fit are items of a stream without junk. -/
theorem MuxOutput.exists_items
    {messages : List MuxOutput}
    (fits : ∀ message ∈ messages, message.Fits) :
    ∃ items : List (ByteVector × Item),
      (∀ item ∈ items, ¬magicToken <:+: item.1) ∧
      noisyStream items [] = messages.flatMap MuxOutput.serialize ∧
      (items.map fun item => item.2.delivered) =
        messages.map fun message => MuxMessage.ofData message.data := by
  induction messages with
  | nil => exact ⟨[], by simp, rfl, rfl⟩
  | cons message rest inductionHypothesis =>
      rw [List.forall_mem_cons] at fits
      obtain ⟨⟨cmdType, leading, payload, rfl, short⟩, others⟩ := fits
      obtain ⟨items, clean, stream, delivered⟩ := inductionHypothesis others
      have decoded := (MuxMessage.ofData_fields
        { data := leading :: payload, type := cmdType, id := 0 }).symm
      refine ⟨([], .output cmdType 0 leading payload (by omega)) :: items, ?_, ?_, ?_⟩
      · rw [List.forall_mem_cons]
        exact ⟨(by decide : ¬magicToken <:+: []), clean⟩
      · rw [List.flatMap_cons, ← stream]
        simp [noisyStream, Item.serialize]
      · rw [List.map_cons, List.map_cons, delivered]
        exact congrArg (· :: _) decoded

/-- A message to a client fits. -/
theorem Write.messageTo_fits
    {write : Write}
    (fits : ∀ output, write.output = some output → output.Fits)
    {client : ClientId}
    {message : MuxOutput}
    (toClient : write.messageTo client = some message) :
    message.Fits := by
  cases write with
  | helloResponse other connection result =>
      rw [messageTo] at toClient
      split_ifs at toClient
      rw [← Option.some.inj toClient]
      exact Mux.make_fits (by simp)
  | hello => cases toClient
  | thread output =>
      have outputFits := fits output rfl
      cases output with
      | response | notified =>
          rw [messageTo] at toClient
          split_ifs at toClient
          rw [← Option.some.inj toClient]
          exact outputFits
      | _ => cases toClient

/-- A frame is not empty. -/
theorem Write.frame_ne_nil
    {write : Write}
    (fits : ∀ output, write.output = some output → output.Fits)
    {frame : ByteVector}
    (isFrame : write.frame = some frame) :
    frame ≠ [] := by
  cases write with
  | helloResponse => cases isFrame
  | hello io =>
      rw [← Option.some.inj isFrame]
      simp [BasePicard.helloFrame]
  | thread output =>
      have outputFits := fits output rfl
      cases output with
      | sent | acked =>
          rw [← Option.some.inj isFrame]
          exact outputFits
      | _ => cases isFrame

/-- In every run, and with hello responses and Hellos among the writes in any places, a client
reads what was written to it, and Picard the frames that were written to the serial line, in
order and however the bytes are divided. -/
theorem streams_read_back
    (retries : Int)
    (io : BasePicard)
    (protocolVersion : Byte)
    (actions : List Action)
    (writes : List Write)
    (merged : writes.filterMap Write.output =
      (Machine.run (Process.step retries) (Process.start io protocolVersion) actions).2)
    (client : ClientId)
    (chunks : List ByteVector)
    (divided : chunks.flatten =
      (writes.filterMap (Write.messageTo client)).flatMap MuxOutput.serialize) :
    (MuxParser.new.readChunks chunks).1 =
        (writes.filterMap (Write.messageTo client)).map
          (fun message => MuxMessage.ofData message.data) ∧
      HDLC.fresh.feed ((writes.filterMap Write.frame).flatMap PicardSerial.sendRaw) =
        (HDLC.fresh, writes.filterMap Write.frame) := by
  have fits : ∀ write ∈ writes, ∀ output, write.output = some output → output.Fits := by
    intro write mem output isOutput
    refine Process.run_writes retries io protocolVersion actions output ?_
    rw [← merged]
    exact List.mem_filterMap.mpr ⟨write, mem, isOutput⟩
  constructor
  · have messagesFit : ∀ message ∈ writes.filterMap (Write.messageTo client),
        message.Fits := by
      intro message mem
      obtain ⟨write, written, toClient⟩ := List.mem_filterMap.mp mem
      exact Write.messageTo_fits (fits write written) toClient
    obtain ⟨items, clean, stream, delivered⟩ := MuxOutput.exists_items messagesFit
    rw [MuxParser.new.readChunks_spec Represents.new MuxParser.referenceScan_new chunks,
      List.nil_append, divided, ← stream, ← delivered]
    exact referenceScan_noisyStream clean (by decide)
  · refine HDLC.feed_flatMap_encodeHDLC ?_
    intro frame mem
    obtain ⟨write, written, isFrame⟩ := List.mem_filterMap.mp mem
    exact Write.frame_ne_nil (fits write written) isFrame

/-- The Hello, the answer to a client's hello, and what is written for its command. -/
def answeredWrites : List Write :=
  [.hello {}, .helloResponse 1 (Connection.start 4 fun _ => 0) ErrorCode.ok,
    .thread (.accepted { client := some 1, command := MuxMessage.ofPayload 42 [7] }),
    .thread (.sent [2, 42, 0, 1, 7]), .hello {},
    .thread (.response 1 .commandComplete (MuxOutput.make 42 0 0 []))]

/-- The answers to the hello and to the command of a client come to it in three reads. -/
theorem streams_read_back_example :
    (MuxParser.new.readChunks [[0xa7, 0x40, 0xa0], [0xf5, 0, 5, 0, 0, 1, 0, 4, 0xa7],
        [0x40, 0xa0, 0xf5, 0, 4, 0, 0, 42, 0]]).1 =
        (answeredWrites.filterMap (Write.messageTo 1)).map
          (fun message => MuxMessage.ofData message.data) ∧
      HDLC.fresh.feed ((answeredWrites.filterMap Write.frame).flatMap PicardSerial.sendRaw) =
        (HDLC.fresh, answeredWrites.filterMap Write.frame) :=
  streams_read_back 3 {} 4 Process.answeredCommand answeredWrites (by decide +kernel) 1 _
    (by decide +kernel)

end SerialMux
