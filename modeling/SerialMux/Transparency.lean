import SerialMux.Delivery
import SerialMux.HdlcStream
import SerialMux.MuxStream

/-!
# From the client to the serial line and back

A client's command reaches the serial line byte for byte.  Only the number in the frame is
read twice, once for the frame and once for `m_currentCommand`; both are the same exactly
when no frame moves it between.  An answer with the type and the number of the command
reaches the client byte for byte, as long as the command stays current.
-/

namespace SerialMux

/-- The bytes that `sendRaw` writes to the serial port. -/
def PicardSerial.sendRaw (data : ByteVector) : ByteVector := encodeHDLC data

/-- A request as Picard should receive it. -/
def requestFrame (type seqNo : Byte) (payload : ByteVector) : ByteVector :=
  2 :: type :: seqNo :: BitVec.ofNat 8 payload.length :: payload

/-- The eight-bit length of a short command is its length, so the whole payload is
copied. -/
theorem commandFrame_eq_requestFrame
    {message : MuxMessage}
    (short : message.data.length ≤ 128)
    (seqNo : Byte) :
    BasePicard.commandFrame message seqNo =
      requestFrame message.type seqNo message.data := by
  have size : message.size.toNat = message.data.length := message.size_toNat (by omega)
  have cmdLen : (message.size &&& 0xFF).setWidth 8 = BitVec.ofNat 8 message.data.length := by
    apply BitVec.eq_of_toNat_eq
    rw [← lowByte, lowByte_toNat, size, BitVec.toNat_ofNat]
  have whole : message.data.take (BitVec.ofNat 8 message.data.length).toNat = message.data := by
    rw [BitVec.toNat_ofNat, Nat.mod_eq_of_lt (by omega), List.take_length]
  rw [BasePicard.commandFrame, cmdLen, whole, requestFrame]
  rfl

/-- The serial line delivers exactly what is written to it. -/
theorem feed_sendRaw
    {frame : ByteVector}
    (nonempty : frame ≠ []) :
    HDLC.fresh.feed (PicardSerial.sendRaw frame) = (HDLC.fresh, [frame]) :=
  HDLC.feed_encodeHDLC HDLC.fresh_consistent (by decide) nonempty

/-- The client's parser delivers exactly the response that was written, however the
bytes are divided. -/
theorem readChunks_response
    (cmdType respCode : Byte)
    {payload : ByteVector}
    (short : payload.length ≤ 254)
    {chunks : List ByteVector}
    (divided : chunks.flatten = (MuxOutput.make cmdType 0 respCode payload).serialize) :
    (MuxParser.new.readChunks chunks).1 =
      [{ data := respCode :: payload, type := cmdType, id := 0 }] := by
  have clean : ¬magicToken <:+: ([] : ByteVector) := by decide
  have stream : chunks.flatten =
      noisyStream [([], .output cmdType 0 respCode payload (by omega))] [] := by
    rw [divided]
    simp [noisyStream, Item.serialize]
  rw [MuxParser.new.readChunks_spec Represents.new MuxParser.referenceScan_new chunks,
    List.nil_append, stream, referenceScan_noisyStream _ clean]
  · rfl
  · intro item member
    rw [List.mem_singleton.mp member]
    exact clean

/-! ## The way of a client's message -/

/-- A command of a client is one that the client has asked for. -/
def ClientCommand.Asked (actions : List Action) (cmd : ClientCommand) : Prop :=
  ∀ client, cmd.client = some client → .addCommand client cmd.command ∈ actions

/-- The command thread holds a command that was asked for, or a SUBSCRIBE, whose
payload it rewrites. -/
def LoopPhase.Carries (actions : List Action) : LoopPhase → Prop
  | .finding cmd | .installing cmd | .sending cmd _ | .recording cmd _ _ | .waiting cmd _ =>
      cmd.command.type ≠ Command.subscribe → cmd.Asked actions
  | .subscribing cmd | .recomputing cmd | .rewriting cmd =>
      cmd.command.type = Command.subscribe
  | _ => True

namespace Mux

theorem loopStep_carries
    {retries : Int}
    {m : Mux}
    {actions : List Action}
    (queued : ∀ cmd ∈ m.commands, cmd.Asked actions)
    (held : m.loop.Carries actions) :
    (m.loopStep retries).1.loop.Carries actions := by
  have attempted (cmd : ClientCommand) (i : Nat) (result : ClientResult)
      (asked : cmd.command.type ≠ Command.subscribe → cmd.Asked actions) :
      (attempt retries cmd i result).1.Carries actions :=
    attempt_cases (fun next => next.1.Carries actions) (fun _ _ => asked) (fun _ => trivial)
  cases phase : m.loop <;> rw [phase] at held <;> simp only [loopStep, phase]
  case checking => split <;> trivial
  case popping =>
      split
      · trivial
      · rename_i first rest commands
        rw [commands] at queued
        exact fun _ => queued first List.mem_cons_self
  case finding cmd =>
      split
      · exact dispatch_cases (fun next => next.Carries actions) (fun _ => trivial)
          (fun _ _ _ => trivial) (fun subscribes _ _ => subscribes) (fun _ _ => held)
      · trivial
  case subscribing =>
      split
      · exact held
      · trivial
  case recomputing => exact held
  case rewriting =>
      split
      · exact fun other => absurd held other
      · trivial
  case installing cmd => exact attempted cmd _ _ held
  case sending => exact held
  case recording => exact held
  case waiting cmd i => exact attempted cmd _ _ held
  case concluding => split_ifs <;> trivial
  case disconnecting => split <;> trivial
  all_goals trivial

end Mux

namespace Process

variable {retries : Int} {p : Process} {actions : List Action}

/-- Everything queued and held has been asked for. -/
structure Carries (actions : List Action) (p : Process) : Prop where
  queued : ∀ cmd ∈ p.mux.commands, cmd.Asked actions
  held : p.mux.loop.Carries actions

theorem Carries.loop
    (carries : Carries actions p)
    (running : ¬p.mux.hasCrashed) :
    (p.loopStep retries).1.mux.loop.Carries actions := by
  obtain ⟨queued, held⟩ := carries
  have statement := @loopStep_statement retries p running
  generalize p.loopStep retries = next at statement ⊢
  cases statement with
  | waits | unites | compares | saves | records => exact held
  | stores phase | sends phase =>
      rw [phase] at held
      exact held
  | whole => exact Mux.loopStep_carries queued held

theorem step_carries
    {action : Action}
    (known : action ∈ actions)
    (carries : Carries actions p) :
    Carries actions (p.step retries action).1 := by
  constructor
  · intro cmd mem
    rcases mem_step_commands mem with old | ⟨client, command, rfl, rfl⟩ | ⟨payload, rfl⟩
    · exact carries.queued cmd old
    · rintro _ ⟨⟩
      exact known
    · rintro _ ⟨⟩
  · by_cases loop : action = .loop
    · subst loop
      by_cases crashed : p.mux.hasCrashed
      · rw [step_of_crashed crashed]
        exact carries.held
      · rw [step_loop crashed]
        exact carries.loop crashed
    · rw [(step_commandThread retries p loop).1]
      exact carries.held

/-- In every run the command thread holds commands that were asked for in it. -/
theorem run_carries
    (retries : Int)
    (io : BasePicard)
    (protocolVersion : Byte)
    (actions : List Action) :
    Carries actions (Machine.run (step retries) (start io protocolVersion) actions).1 := by
  have initially : Carries actions (start io protocolVersion) :=
    ⟨by simp [start, Mux.start], trivial⟩
  have known : Machine.Meets (step retries) (fun _ action => action ∈ actions)
      (start io protocolVersion) actions :=
    Machine.meets_of_forall _ fun _ member _ => member
  exact Machine.state_invariant_run (Carries actions)
    (fun _ _ carries member => step_carries member carries) initially
    known

/-! ## One transmission -/

/-- The other threads leave the command thread and the number that it has recorded. -/
theorem run_aside
    {others : List Action}
    (noLoop : ∀ action ∈ others, action ≠ .loop) :
    (Machine.run (step retries) p others).1.mux.loop = p.mux.loop ∧
      (Machine.run (step retries) p others).1.recorded = p.recorded ∧
      (Machine.run (step retries) p others).1.mux.currentCommand.seq =
        p.mux.currentCommand.seq := by
  induction others generalizing p with
  | nil => exact ⟨rfl, rfl, rfl⟩
  | cons action rest inductionHypothesis =>
      obtain ⟨first, rest⟩ := List.forall_mem_cons.mp noLoop
      obtain ⟨loop, -, recorded⟩ := step_commandThread retries p first
      obtain ⟨sameLoop, sameRecorded, sameSeq⟩ :=
        @inductionHypothesis (p.step retries action).1 rest
      rw [Machine.run_cons]
      exact ⟨sameLoop.trans loop, sameRecorded.trans recorded,
        sameSeq.trans (step_seq retries p first)⟩

/-- A transmission: the frame is built, and after steps of other threads its number is
recorded, and after more of them the frame is sent. -/
theorem transmission
    {cmd : ClientCommand}
    {i : Nat}
    {others more : List Action}
    (sound : p.Sound)
    (phase : p.mux.loop = .sending cmd i)
    (short : cmd.command.data.length ≤ 128)
    (notLoop : ∀ action ∈ others, action ≠ .loop)
    (noLoop : ∀ action ∈ more, action ≠ .loop)
    (running : ¬(Machine.run (step retries) p
      (.loop :: others ++ .loop :: more)).1.mux.hasCrashed) :
    ((Machine.run (step retries) p (.loop :: others ++ .loop :: more)).1.step retries
        .loop).2 =
      [.sent (requestFrame cmd.command.type p.mux.io.seqNo cmd.command.data)] ∧
    ((Machine.run (step retries) p (.loop :: others ++ .loop :: more)).1.step retries
        .loop).1.mux.currentCommand.seq =
      (Machine.run (step retries) p (.loop :: others)).1.mux.io.seqNo := by
  have atStart : ¬p.mux.hasCrashed := fun crashed =>
    running (by rw [run_of_crashed crashed]; exact crashed)
  have split : (Machine.run (step retries) p (.loop :: others ++ .loop :: more)).1 =
      (Machine.run (step retries) ((Machine.run (step retries) p (.loop :: others)).1.step
        retries .loop).1 more).1 := by
    rw [Machine.run_append]
    rfl
  rw [split] at running ⊢
  obtain ⟨-, notRecorded⟩ := sound.between (by simp [phase]) (by simp [phase])
  have built : (p.step retries .loop).1.mux.loop = .recording cmd i
        (requestFrame cmd.command.type p.mux.io.seqNo cmd.command.data) ∧
      (p.step retries .loop).1.recorded = false := by
    rw [step_loop atStart]
    simp [loopStep, phase, outerStep, Mux.step, atStart, Mux.perform, Mux.loopStep, notRecorded,
      commandFrame_eq_requestFrame short]
  obtain ⟨recording, unrecorded, -⟩ := @run_aside retries (p.step retries .loop).1 _ notLoop
  have reached : (Machine.run (step retries) p (.loop :: others)).1 =
      (Machine.run (step retries) (p.step retries .loop).1 others).1 := rfl
  rw [← reached, built.1] at recording
  rw [← reached, built.2] at unrecorded
  generalize (Machine.run (step retries) p (.loop :: others)).1 = atNumber
    at running recording unrecorded ⊢
  have atRecord : ¬atNumber.mux.hasCrashed := fun crashed =>
    running (by rw [step_of_crashed crashed, run_of_crashed crashed]; exact crashed)
  have records : (atNumber.step retries .loop).1 =
      { atNumber with
        mux := { atNumber.mux with currentCommand.seq := atNumber.mux.io.seqNo }
        recorded := true } := by
    rw [step_loop atRecord]
    simp [loopStep, recording, unrecorded]
  obtain ⟨sending, recorded, seq⟩ := @run_aside retries (atNumber.step retries .loop).1 _ noLoop
  rw [records] at running sending recorded seq ⊢
  generalize (Machine.run (step retries) _ more).1 = atWrite
    at running sending recorded seq ⊢
  rw [step_loop running]
  simp only [loopStep, sending, recording, recorded, if_true]
  exact ⟨trivial, seq⟩

/-! ## End to end -/

/-- What becomes of a command of a client: the frame that is sent carries the message
unchanged, and the serial line delivers it. -/
structure Forwards (earlier : List Action) (client : ClientId) (message : MuxMessage)
    (frame : ByteVector) : Prop where
  asked : .addCommand client message ∈ earlier
  carries : ∃ seqNo, frame = requestFrame message.type seqNo message.data
  delivers : HDLC.fresh.feed (PicardSerial.sendRaw frame) = (HDLC.fresh, [frame])

/-- What becomes of an answer: the serial line delivers it, it is written to the client and
nothing is written for it before, and the client reads it unchanged. -/
structure ComesBack (retries : Int) (p : Process) (client : ClientId) (response : Response)
    (during : List Action) : Prop where
  delivers : HDLC.fresh.feed (encodeHDLC response.frame) = (HDLC.fresh, [response.frame])
  quiet : ∀ output ∈ (Machine.run (step retries) p (.receive response.frame :: during)).2,
    ¬output.isAnswer
  written : ∃ output,
    ((Machine.run (step retries) p (.receive response.frame :: during)).1.step retries
      .complete).2 = [.response client .commandComplete output] ∧
    ∀ chunks : List ByteVector, chunks.flatten = output.serialize →
      (MuxParser.new.readChunks chunks).1 =
        [{ data := response.respCode :: response.payload, type := response.cmdType, id := 0 }]

/-- For a client's command other than SUBSCRIBE: the frame that is sent carries the
client's message unchanged, and its number is the one recorded in `m_currentCommand` exactly
when no frame moves the number between the two reads.  An answer with the type and the
recorded number comes back to the client as long as the command stays current. -/
theorem transparent_iff (retries : Int) :
    (∀ (io : BasePicard) (protocolVersion : Byte) (earlier others more : List Action)
      (client : ClientId) (cmd : ClientCommand) (i : Nat),
      let build := (Machine.run (step retries) (start io protocolVersion) earlier).1
      let record := (Machine.run (step retries) build (.loop :: others)).1
      let write := (Machine.run (step retries) build (.loop :: others ++ .loop :: more)).1
      build.mux.loop = .sending cmd i →
      cmd.client = some client →
      cmd.command.type ≠ Command.subscribe →
      cmd.command.data.length ≤ 128 →
      (∀ action ∈ others, action ≠ .loop) →
      (∀ action ∈ more, action ≠ .loop) →
      ¬write.mux.hasCrashed →
      ∃ frame, (write.step retries .loop).2 = [.sent frame] ∧
        Forwards earlier client cmd.command frame ∧
        (frame = requestFrame cmd.command.type
            (write.step retries .loop).1.mux.currentCommand.seq cmd.command.data ↔
          record.mux.io.seqNo = build.mux.io.seqNo)) ∧
    (∀ (p : Process) (client : ClientId) (response : Response) (during : List Action),
      Reachable retries p →
      p.AnswerArrives client response →
      response.cmdType ≠ Command.subscribe →
      Machine.Meets (step retries) Leaves
        (p.step retries (.receive response.frame)).1 during →
      ¬(Machine.run (step retries) p (.receive response.frame :: during)).1.mux.hasCrashed →
      during.count .complete = 4 →
      ComesBack retries p client response during) := by
  constructor
  · intro io protocolVersion earlier others more client cmd i build record write phase owner
      notSubscribe short notLoop noLoop running
    have sound : build.Sound := reachable_sound ⟨io, protocolVersion, earlier, rfl⟩
    have held := (run_carries retries io protocolVersion earlier).held
    have sending : (Machine.run (step retries) (start io protocolVersion) earlier).1.mux.loop =
      .sending cmd i := phase
    rw [sending] at held
    obtain ⟨sent, recorded⟩ := transmission sound phase short notLoop noLoop running
    refine ⟨_, sent, ⟨held notSubscribe client owner, ⟨_, rfl⟩, ?_⟩, ?_⟩
    · exact feed_sendRaw (by simp [requestFrame])
    · rw [recorded]
      simp only [requestFrame, List.cons.injEq, and_true, true_and]
      exact eq_comm
  · intro p client response during reachable arrives notSubscribe leaves running last
    have direct : response.restoring = 0 := if_neg fun rejected => notSubscribe rejected.1
    obtain ⟨quiet, written⟩ := answer_written (reachable_sound reachable) arrives leaves running
      (by rw [direct, last])
    exact {
      delivers := feed_sendRaw (by simp [Response.frame, responseFrame])
      quiet := quiet
      written := ⟨_, written, fun chunks divided =>
        readChunks_response response.cmdType response.respCode arrives.short divided⟩ }

/-- A payload of a flag, an escape and the token of the client protocol. -/
def specialPayload : ByteVector := [0x7E, 0x7D, 0xa7, 0x40, 0xa0, 0xf5]

/-- A client's command with this payload comes to its first transmission. -/
def specialCommand : List Action :=
  [.addClient 1, .addCommand 1 (MuxMessage.ofPayload 40 specialPayload)] ++
    List.replicate 5 .loop

/-- Its answer carries the same payload. -/
def specialAnswer : Response where
  cmdType := 40
  seqNo := 7
  respCode := 3
  payload := specialPayload

/-- It is about to be sent with the number behind an old response. -/
def specialBuild : List Action :=
  [.receive [3, 41, 6, 1, 0], .complete, .complete] ++ specialCommand

/-- A second client connects while the command is sent; during the answer the second client
leaves, and the first one's next command is queued. -/
theorem transparent_example :
    let build := (Machine.run (step 3) (start {} 4) specialBuild).1
    let write := (Machine.run (step 3) build [.loop, .addClient 2, .loop]).1
    (∃ frame, (write.step 3 .loop).2 = [.sent frame] ∧
      Forwards specialBuild 1 (MuxMessage.ofPayload 40 specialPayload) frame ∧
      (frame = requestFrame 40 (write.step 3 .loop).1.mux.currentCommand.seq specialPayload ↔
        (Machine.run (step 3) build [.loop, .addClient 2]).1.mux.io.seqNo =
          build.mux.io.seqNo)) ∧
    ComesBack 3 (write.step 3 .loop).1 1 specialAnswer
      [.complete, .removeClient 2, .complete, .eraseClient, .complete,
        .addCommand 1 (MuxMessage.ofPayload 41 []), .complete] := by
  intro build write
  constructor
  · have first := (transparent_iff 3).1 {} 4 specialBuild [.addClient 2] [] 1
      { client := some 1, command := MuxMessage.ofPayload 40 specialPayload } 0
    exact first (by decide +kernel) rfl (by decide) (by decide) (by simp) (by simp)
      (by decide +kernel)
  · have built : Reachable 3 build := ⟨{}, 4, _, rfl⟩
    have reachable : Reachable 3 (write.step 3 .loop).1 :=
      built.run [.loop, .addClient 2, .loop, .loop]
    exact (transparent_iff 3).2 _ 1 specialAnswer _ reachable (by constructor <;> decide +kernel)
      (by decide) (by decide +kernel) (by decide +kernel) (by decide +kernel)

/-- A response is read after the frame is built and before its number is recorded:
the frame carries number zero, and eight is recorded. -/
theorem recorded_number_differs :
    let write := (Machine.run (step 3) (start {} 4)
      (specialCommand ++ [.loop, .receive [3, 41, 7, 1, 0], .loop])).1
    (write.step 3 .loop).2 = [.sent (requestFrame 40 0 specialPayload)] ∧
    (write.step 3 .loop).1.mux.currentCommand.seq = 8 ∧
    (HDLC.fresh.feed (PicardSerial.sendRaw (requestFrame 40 0 specialPayload))).2 ≠
      [requestFrame 40 8 specialPayload] := by
  refine ⟨by decide +kernel, by decide +kernel, ?_⟩
  rw [feed_sendRaw (by simp [requestFrame])]
  decide

end Process

end SerialMux
