import SerialMux.Process

/-!
# The delivery of an answer

`commandComplete` reads the number, the type and the client of the current command in
statements of their own, the last of them inside its locked block.  As long as the command
thread leaves them alone, a response with the type and the number of the current command is
accepted and written to its client.
-/

namespace SerialMux

/-- A response as Picard sends it. -/
def responseFrame (type seqNo respCode : Byte) (payload : ByteVector) : ByteVector :=
  3 :: type :: seqNo :: BitVec.ofNat 8 (payload.length + 1) :: respCode :: payload

/-- The frame with a response. -/
def Response.frame (response : Response) : ByteVector :=
  responseFrame response.cmdType response.seqNo response.respCode response.payload

/-- What `commandComplete` writes to the client. -/
def Response.output (response : Response) : MuxOutput :=
  MuxOutput.make response.cmdType 0 response.respCode response.payload

/-- The statements with which `commandComplete` restores the union. -/
def Response.restoring (response : Response) : Nat :=
  if response.cmdType = Command.subscribe ∧ response.respCode ≠ ErrorCode.ok then 1 else 0

/-- The output is a response that `commandComplete` writes. -/
def Output.isAnswer : Output → Bool
  | .response _ .commandComplete _ => true
  | .response _ _ _ | .accepted _ | .concluded _ | .notified _ _ | .sent _ | .acked _
  | .reset _ => false

theorem Output.not_isAnswer_of_passive
    {output : Output}
    (passive : output.isPassive) :
    ¬output.isAnswer := by
  cases output <;> simp_all [Output.isPassive, Output.isAnswer]

/-- A frame with a response moves the number behind that of the response, and calls
`commandComplete`. -/
theorem frameComplete_frame
    {response : Response}
    (inRange : Command.notification < response.cmdType)
    (short : response.payload.length ≤ 254)
    (io : BasePicard) :
    io.frameComplete response.frame =
      ({ io with seqNo := response.seqNo + 1 },
        if io.callback then [.commandComplete response] else []) := by
  have size : (BitVec.ofNat 8 (response.payload.length + 1)).toNat =
      response.payload.length + 1 := by
    rw [BitVec.toNat_ofNat]
    omega
  exact BasePicard.frameComplete_response inRange size io

namespace Process

variable {retries : Int} {client : ClientId} {response : Response} {p : Process}

/-- What a response does to the process where the Picard thread reads: the number moves, and
the thread validates the response if a handler is registered. -/
theorem step_frame
    (running : ¬p.mux.hasCrashed)
    (reading : p.mux.picard = .reading)
    (inRange : Command.notification < response.cmdType)
    (short : response.payload.length ≤ 254)
    (retries : Int) :
    p.step retries (.receive response.frame) =
      ({ p with
          mux := { p.mux with
            io := { p.mux.io with seqNo := response.seqNo + 1 }
            picard := if p.mux.io.callback then .validating response else .reading } }, []) := by
  have notLocked : ¬(p.clientsLocked ∧
      (p.mux.io.frameComplete response.frame).2.any PicardEvent.locksClients) := by
    rw [frameComplete_frame inRange short]
    by_cases registered : p.mux.io.callback <;> simp [registered, PicardEvent.locksClients]
  rw [step_receive running, receive, if_neg notLocked, outerStep, Mux.step, if_neg running,
    Mux.perform, Mux.receive, if_pos reading, frameComplete_frame inRange short]
  by_cases registered : p.mux.io.callback <;>
    simp [registered, reading, Mux.handleEvents, Mux.handleEvent]

/-- `commandComplete` handles a response and writes it with the last of that many
statements. -/
inductive Handling (response : Response) (p : Process) : Nat → Prop
  | expects
      (phase : p.mux.picard = .validating response)
      (called : p.expectedSeq = none)
      (sameSeq : response.seqNo = p.mux.currentCommand.seq) :
      Handling response p (response.restoring + 5)
  | compares
      (phase : p.mux.picard = .validating response)
      (expected : p.expectedSeq = some response.seqNo) :
      Handling response p (response.restoring + 4)
  | restores
      (phase : p.mux.picard = .rejecting response) :
      Handling response p 4
  | enters
      (phase : p.mux.picard = .delivering response)
      (stage : p.block = none) :
      Handling response p 3
  | tests
      (phase : p.mux.picard = .delivering response)
      (stage : p.block = some .testing) :
      Handling response p 2
  | writes
      (phase : p.mux.picard = .delivering response)
      (stage : p.block = some .writing) :
      Handling response p 1

/-- `commandComplete` handles an answer to the current command of a client, and has not
written it. -/
structure Answering (client : ClientId) (response : Response) (left : Nat) (p : Process) :
    Prop where
  sound : p.Sound
  present : p.mux.currentCommand.client = some client
  sameType : response.cmdType = p.mux.currentCommand.command.type
  handling : p.Handling response left

/-- The statement of the command thread leaves alone what `commandComplete` reads of the
current command: its client, its type, and where it has not read it, its number. -/
def KeepsCurrent (p : Process) : LoopPhase → Prop
  | .installing _ | .clearing _ => False
  | .recording _ _ _ =>
      p.recorded ∨ p.mux.picard.isCompleting ∨ p.expectedSeq.isSome ∨
        p.mux.io.seqNo = p.mux.currentCommand.seq
  | _ => True

instance (p : Process) : (phase : LoopPhase) → Decidable (KeepsCurrent p phase)
  | .installing _ | .clearing _ => isFalse id
  | .recording _ _ _ => inferInstanceAs (Decidable (_ ∨ _))
  | .starting | .checking | .popping | .finding _ | .replying _ _ _ | .subscribing _
  | .recomputing _ | .rewriting _ | .sending _ _ | .waiting _ _ | .concluding _ _
  | .restoring _ | .resetting _ | .timingOut _ | .disconnecting _ | .finished
  | .crashed => isTrue trivial

/-- The block is not entered before the response is delivered. -/
theorem Sound.outside
    (sound : p.Sound)
    (notDelivering : ¬p.mux.picard.isDelivering) :
    p.block = none := by
  cases stage : p.block with
  | none => rfl
  | some inside =>
      obtain ⟨response, delivering, -⟩ := sound.inBlock inside stage
      rw [delivering] at notDelivering
      exact absurd rfl notDelivering

/-- A response that matches the current command is accepted. -/
theorem Answering.compares
    (answering : Answering client response (response.restoring + 4) p)
    (phase : p.mux.picard = .validating response)
    (expected : p.expectedSeq = some response.seqNo) :
    Answering client response (response.restoring + 3) p.completeStep.1 ∧
      p.completeStep.2 = [] := by
  obtain ⟨sound, present, sameType, -⟩ := answering
  have outside := sound.outside (by rw [phase]; simp [PicardPhase.isDelivering])
  have next := sound.complete
  rw [completeStep, phase, expected] at next ⊢
  refine ⟨⟨next, present, sameType, ?_⟩, rfl⟩
  by_cases rejected : response.cmdType = Command.subscribe ∧ response.respCode ≠ ErrorCode.ok
  · rw [Response.restoring, if_pos rejected]
    exact .restores (by simp [Mux.validate, ← sameType, rejected.1, rejected.2])
  · rw [Response.restoring, if_neg rejected]
    exact .enters (by simp [Mux.validate, ← sameType, rejected]) outside

/-- A statement of `commandComplete` in front of the write brings it nearer to that. -/
theorem Answering.complete
    {left : Nat}
    (answering : Answering client response left p)
    (early : left ≠ 1) :
    Answering client response (left - 1) p.completeStep.1 ∧ p.completeStep.2 = [] := by
  obtain ⟨sound, present, sameType, handling⟩ := id answering
  have next := sound.complete
  cases handling with
  | expects phase called sameSeq =>
      rw [completeStep, phase, called] at next ⊢
      exact ⟨⟨next, present, sameType, .compares phase (by rw [sameSeq])⟩, rfl⟩
  | compares phase expected => exact answering.compares phase expected
  | restores phase =>
      have outside := sound.outside (by rw [phase]; simp [PicardPhase.isDelivering])
      rw [completeStep, phase] at next ⊢
      exact ⟨⟨next, present, sameType, .enters rfl outside⟩, rfl⟩
  | enters phase stage =>
      rw [completeStep, phase] at next ⊢
      simp only [blockStep, stage] at next ⊢
      exact ⟨⟨next, present, sameType, .tests phase rfl⟩, trivial⟩
  | tests phase stage =>
      rw [completeStep, phase] at next ⊢
      simp only [blockStep, stage, present, Option.isSome_some, if_true] at next ⊢
      exact ⟨⟨next, present, sameType, .writes phase rfl⟩, trivial⟩
  | writes => exact absurd rfl early

/-- The last statement writes the response to the client. -/
theorem Answering.written
    (answering : Answering client response 1 p) :
    p.completeStep.2 = [.response client .commandComplete response.output] := by
  obtain ⟨-, present, -, handling⟩ := answering
  generalize total : 1 = left at handling
  cases handling with
  | writes phase stage =>
      rw [completeStep, phase]
      simp only [blockStep, stage, present]
      rfl
  | _ => omega

/-- What a response goes through depends on the place of the Picard thread, and in front of
the first statement on the number. -/
theorem Handling.congr
    {next : Process}
    {left : Nat}
    (handling : p.Handling response left)
    (picard : next.mux.picard = p.mux.picard)
    (block : next.block = p.block)
    (expectedSeq : next.expectedSeq = p.expectedSeq)
    (sameSeq : p.mux.picard = .validating response → p.expectedSeq = none →
      response.seqNo = p.mux.currentCommand.seq →
        response.seqNo = next.mux.currentCommand.seq) :
    next.Handling response left := by
  cases handling with
  | expects phase called same =>
      exact .expects (picard.trans phase) (expectedSeq.trans called) (sameSeq phase called same)
  | compares phase expected => exact .compares (picard.trans phase) (expectedSeq.trans expected)
  | restores phase => exact .restores (picard.trans phase)
  | enters phase stage => exact .enters (picard.trans phase) (block.trans stage)
  | tests phase stage => exact .tests (picard.trans phase) (block.trans stage)
  | writes phase stage => exact .writes (picard.trans phase) (block.trans stage)

/-- While a client's command is current, the command thread writes ERR_COMMAND_TIMEOUT at
most. -/
theorem loopStep_not_isAnswer
    {m : Mux}
    (agrees : m.loop.AgreesWith m.currentCommand)
    (present : m.currentCommand.client = some client) :
    ∀ output ∈ (m.loopStep retries).2, ¬output.isAnswer := by
  have notCleared : m.currentCommand.client ≠ none := by simp [present]
  cases phase : m.loop <;> rw [phase] at agrees <;> simp only [Mux.loopStep, phase]
  case waiting cmd i =>
      exact Mux.attempt_cases (fun next => ∀ output ∈ next.2, ¬output.isAnswer)
        (fun _ _ => by simp) (fun _ => by simp [Output.isAnswer])
  case concluding => split_ifs <;> simp
  case timingOut cmd =>
      cases owner : cmd.client <;> simp [Mux.sendResponse, Output.isAnswer]
  case disconnecting => split <;> simp [Output.isAnswer]
  case sending | restoring | resetting | clearing | crashed => simp
  case recording => simp [Output.isAnswer]
  all_goals exact absurd agrees.1 notCleared

/-- The command thread leaves the answer to its current command alone. -/
theorem Answering.loop
    {left : Nat}
    (answering : Answering client response left p)
    (running : ¬p.mux.hasCrashed)
    (keeps : p.KeepsCurrent p.mux.loop) :
    Answering client response left (p.loopStep retries).1 ∧
      ∀ output ∈ (p.loopStep retries).2, ¬output.isAnswer := by
  have sound := @Sound.loop retries p answering.sound running
  obtain ⟨-, present, sameType, handling⟩ := id answering
  have agrees := answering.sound.mux.agrees
  have statement := @loopStep_statement retries p running
  generalize p.loopStep retries = result at sound statement ⊢
  cases statement with
  | waits => exact ⟨answering, by simp⟩
  | unites | compares | saves | stores =>
      exact ⟨⟨sound, present, sameType, handling.congr rfl rfl rfl fun _ _ => id⟩, by simp⟩
  | records phase notRecorded =>
      rw [phase] at keeps
      refine ⟨⟨sound, present, sameType,
        handling.congr rfl rfl rfl fun validating called same => ?_⟩, by simp⟩
      rcases keeps with recorded | completing | expected | sameSeq
      · rw [notRecorded] at recorded
        cases recorded
      · rw [validating] at completing
        cases completing
      · rw [called] at expected
        cases expected
      · exact same.trans sameSeq.symm
  | sends =>
      exact ⟨⟨sound, present, sameType, handling.congr rfl rfl rfl fun _ _ => id⟩,
        by simp [Output.isAnswer]⟩
  | whole _ notRecording =>
      have current : (p.mux.loopStep retries).1.currentCommand = p.mux.currentCommand := by
        refine Mux.loopStep_currentCommand retries (fun cmd phase => ?_) notRecording
          (fun cmd phase => ?_) <;> rw [phase] at keeps <;> exact keeps
      refine ⟨⟨sound, by rw [current]; exact present, by rw [current]; exact sameType, ?_⟩,
        loopStep_not_isAnswer agrees present⟩
      refine handling.congr (Mux.loopStep_picard p.mux).1 rfl rfl fun _ _ same => ?_
      rw [current]
      exact same

/-- The other threads leave the answer alone. -/
theorem Answering.aside
    {left : Nat}
    (answering : Answering client response left p)
    {action : Action}
    (notLoop : action ≠ .loop)
    (notComplete : action ≠ .complete) :
    Answering client response left (p.step retries action).1 ∧
      ∀ output ∈ (p.step retries action).2, ¬output.isAnswer := by
  obtain ⟨sound, present, sameType, handling⟩ := id answering
  have next := @step_sound retries p action sound
  have notReading : p.mux.picard ≠ .reading := by
    intro reading
    cases handling with
    | expects phase | compares phase | restores phase | enters phase | tests phase
    | writes phase =>
        rw [reading] at phase
        cases phase
  have picard := (step_picard retries p notComplete).resolve_right fun moved => notReading moved.1
  have block := step_block retries p notLoop notComplete
  have expectedSeq := step_expectedSeq retries p notLoop notComplete
  have current : ∃ result, (p.step retries action).1.mux.currentCommand =
      { p.mux.currentCommand with result := result } := by
    rcases step_currentCommand retries p notLoop notComplete with same | ⟨-, -, marked⟩
    · exact ⟨_, same⟩
    · exact ⟨_, marked⟩
  obtain ⟨result, current⟩ := current
  refine ⟨⟨next, by rw [current]; exact present, by rw [current]; exact sameType, ?_⟩, ?_⟩
  · refine handling.congr picard block expectedSeq fun _ _ same => ?_
    rw [current]
    exact same
  · by_cases receives : ∃ frame, action = .receive frame
    · obtain ⟨frame, rfl⟩ := receives
      exact fun output mem =>
        Output.not_isAnswer_of_passive (step_receive_passive retries p frame output mem)
    · rw [(@step_sameThreads retries p action notLoop notComplete
        fun frame receive => receives ⟨frame, receive⟩).2]
      simp

/-! ## Runs -/

/-- The steps that leave the current command alone. -/
def Leaves (p : Process) (action : Action) : Prop :=
  action = .loop → p.KeepsCurrent p.mux.loop

instance (p : Process) (action : Action) : Decidable (Leaves p action) :=
  inferInstanceAs (Decidable (_ → _))

/-- Every interleaving with fewer statements of `commandComplete` leads on towards the
response, and writes no other before it. -/
theorem Answering.run
    {left : Nat}
    (answering : Answering client response left p)
    {actions : List Action}
    (leaves : Machine.Meets (step retries) Leaves p actions)
    (running : ¬(Machine.run (step retries) p actions).1.mux.hasCrashed)
    (early : actions.count .complete < left) :
    Answering client response (left - actions.count .complete)
        (Machine.run (step retries) p actions).1 ∧
      ∀ output ∈ (Machine.run (step retries) p actions).2, ¬output.isAnswer := by
  induction actions generalizing p left with
  | nil => exact ⟨answering, by simp⟩
  | cons action rest inductionHypothesis =>
      have alive : ¬p.mux.hasCrashed := by
        intro crashed
        rw [run_of_crashed crashed] at running
        exact running crashed
      obtain ⟨now, afterwards⟩ := leaves
      rw [Machine.run_cons] at running ⊢
      rw [List.forall_mem_append]
      by_cases complete : action = .complete
      · subst complete
        rw [List.count_cons_self] at early ⊢
        have next := answering.complete (by omega)
        rw [← @step_complete retries p alive] at next
        obtain ⟨reached, quiet⟩ := inductionHypothesis next.1 afterwards running (by omega)
        have fewer : left - 1 - rest.count .complete = left - (rest.count .complete + 1) := by
          omega
        rw [fewer] at reached
        exact ⟨reached, by simp [next.2], quiet⟩
      · rw [List.count_cons_of_ne (fun same => complete same)] at early ⊢
        have next : Answering client response left (p.step retries action).1 ∧
            ∀ output ∈ (p.step retries action).2, ¬output.isAnswer := by
          by_cases loop : action = .loop
          · subst loop
            rw [step_loop alive]
            exact answering.loop alive (now rfl)
          · exact answering.aside loop complete
        obtain ⟨reached, quiet⟩ := inductionHypothesis next.1 afterwards running early
        exact ⟨reached, next.2, quiet⟩

/-- Picard answers the current command of a client. -/
structure AnswerArrives (p : Process) (client : ClientId) (response : Response) : Prop where
  reading : p.mux.picard = .reading
  registered : p.mux.io.callback
  present : p.mux.currentCommand.client = some client
  inRange : Command.notification < response.cmdType
  short : response.payload.length ≤ 254
  sameType : response.cmdType = p.mux.currentCommand.command.type
  sameSeq : response.seqNo = p.mux.currentCommand.seq

/-- The answer is read. -/
theorem AnswerArrives.answering
    (arrives : p.AnswerArrives client response)
    (sound : p.Sound)
    (running : ¬p.mux.hasCrashed)
    (retries : Int) :
    Answering client response (response.restoring + 5)
        (p.step retries (.receive response.frame)).1 ∧
      (p.step retries (.receive response.frame)).2 = [] := by
  have called : p.expectedSeq = none := sound.not_expecting (by simp [arrives.reading])
  have next := @step_sound retries p (.receive response.frame) sound
  rw [step_frame running arrives.reading arrives.inRange arrives.short,
    if_pos arrives.registered] at next ⊢
  exact ⟨⟨next, arrives.present, arrives.sameType, .expects rfl called arrives.sameSeq⟩, rfl⟩

/-- A response with the type and the number of a client's command is accepted and written to
the client, as long as the command stays current. -/
theorem answer_written
    (sound : p.Sound)
    (arrives : p.AnswerArrives client response)
    {actions : List Action}
    (leaves : Machine.Meets (step retries) Leaves
      (p.step retries (.receive response.frame)).1 actions)
    (running : ¬(Machine.run (step retries) p
      (.receive response.frame :: actions)).1.mux.hasCrashed)
    (last : actions.count .complete = response.restoring + 4) :
    (∀ output ∈ (Machine.run (step retries) p (.receive response.frame :: actions)).2,
        ¬output.isAnswer) ∧
      ((Machine.run (step retries) p (.receive response.frame :: actions)).1.step retries
          .complete).2 =
        [.response client .commandComplete response.output] := by
  have alive : ¬p.mux.hasCrashed := by
    intro crashed
    rw [run_of_crashed crashed] at running
    exact running crashed
  obtain ⟨answering, silent⟩ := arrives.answering sound alive retries
  rw [Machine.run_cons] at running ⊢
  obtain ⟨reached, quiet⟩ := answering.run leaves running (by omega)
  have one : response.restoring + 5 - actions.count .complete = 1 := by omega
  rw [one] at reached
  rw [silent, List.nil_append, step_complete running]
  exact ⟨quiet, reached.written⟩

end Process

end SerialMux
