import SerialMux.Handshake
import SerialMux.Invariant

/-!
# Frames that do not answer the command in progress

`commandComplete` ignores a response whose type or number is not expected, but
`frameComplete` has moved the number of the next transmission behind that of the
response before.  A stray response leaves the number alone exactly when it
carries the one before it.
-/

namespace SerialMux

namespace BasePicard

/-- The number of a well-formed command response. -/
def responseSeqNo : ByteVector → Option Byte
  | control :: type :: seqNo :: len :: payload =>
      if ¬(payload = [] ∨ len.toNat ≠ payload.length) ∧ Command.notification < type ∧
          control = 3 then
        some seqNo
      else none
  | _ => none

/-- Only accepted hellos and command responses move the number. -/
theorem frameComplete_seqNo_cases (io : BasePicard) (frame : ByteVector) :
    (io.frameComplete frame).1.seqNo = io.seqNo ∨ IsAcceptedHello frame ∨
      ∃ seqNo, responseSeqNo frame = some seqNo ∧
        (io.frameComplete frame).1.seqNo = seqNo + 1 := by
  unfold frameComplete
  split
  · rename_i control type seqNo len payload
    split_ifs with malformed hello mgr notif isResponse
    · exact Or.inl rfl
    · unfold helloResponse
      split
      · dsimp only
        split_ifs with accepted connected
        · refine Or.inr (Or.inl ⟨malformed, hello, accepted.1, ?_⟩)
          rw [accepted.2]
          rfl
        · refine Or.inr (Or.inl ⟨malformed, hello, accepted.1, ?_⟩)
          rw [accepted.2]
          rfl
        · exact Or.inl (recordVersion_seqNo io _)
      · exact Or.inl rfl
    · unfold mgrHello
      split
      · exact Or.inl (recordVersion_seqNo io _)
      · exact Or.inl rfl
    · unfold notification
      split
      · dsimp only
        split_ifs <;> exact Or.inl rfl
      · exact Or.inl rfl
    · have carried : responseSeqNo (control :: type :: seqNo :: len :: payload) =
          some seqNo := if_pos ⟨malformed, isResponse.1, isResponse.2.2⟩
      unfold commandResponse
      split
      · exact Or.inr (Or.inr ⟨seqNo, carried, rfl⟩)
      · exact Or.inl rfl
    · exact Or.inl rfl
  · exact Or.inl rfl

end BasePicard

/-- The command that the command thread transmits, and the frame that it has built
and not sent. -/
def LoopPhase.Transmits (cmd : ClientCommand) (frame : ByteVector) : LoopPhase → Prop
  | .sending other _ | .waiting other _ => other = cmd
  | .recording other _ built => other = cmd ∧ built = frame
  | _ => True

namespace Mux

variable {retries : Int} {m : Mux}

/-! ## One stray response -/

/-- A state that differs at most in what neither clients, filters, the command in
progress nor the next transmission depend on, reached without an output. -/
structure LeavesAlone (m : Mux) (result : Mux × List Output) : Prop where
  silent : result.2 = []
  objects : result.1.objects = m.objects
  filterUnion : result.1.filterUnion = m.filterUnion
  prevfilter : result.1.prevfilter = m.prevfilter
  currentCommand : result.1.currentCommand = m.currentCommand
  seqNo : result.1.io.seqNo = m.io.seqNo

/-- A response does not answer the command in progress. -/
def IsStray (m : Mux) (type seqNo : Byte) : Prop :=
  type ≠ m.currentCommand.command.type ∨ seqNo ≠ m.currentCommand.seq

/-- What the Picard thread does when it reads a response. -/
theorem step_response
    {type seqNo len respCode : Byte}
    {payload : ByteVector}
    (running : ¬m.hasCrashed)
    (reading : m.picard = .reading)
    (inRange : Command.notification < type)
    (size : len.toNat = payload.length + 1) :
    step retries m (.receive (3 :: type :: seqNo :: len :: respCode :: payload)) =
      ({ m with
          io := { m.io with seqNo := seqNo + 1 }
          picard :=
            if m.io.callback then
              .validating
                { cmdType := type, seqNo := seqNo, respCode := respCode, payload := payload }
            else .reading }, []) := by
  rw [step, if_neg running, perform, receive, if_pos reading,
    BasePicard.frameComplete_response inRange size]
  by_cases registered : m.io.callback <;>
    simp [registered, reading, handleEvents, handleEvent]

/-- `commandComplete` drops a stray response. -/
theorem step_complete_stray
    {response : Response}
    (running : ¬m.hasCrashed)
    (validating : m.picard = .validating response)
    (stray : m.IsStray response.cmdType response.seqNo) :
    step retries m .complete = ({ m with picard := .reading }, []) := by
  rw [step, if_neg running, perform]
  simp only [completeStep, validating]
  exact if_pos stray

/-- Reading a stray response and completing it changes the number and nothing
else. -/
theorem run_stray
    {type seqNo len respCode : Byte}
    {payload : ByteVector}
    (running : ¬m.hasCrashed)
    (reading : m.picard = .reading)
    (inRange : Command.notification < type)
    (size : len.toNat = payload.length + 1)
    (stray : m.IsStray type seqNo) :
    Machine.run (step retries) m
        [.receive (3 :: type :: seqNo :: len :: respCode :: payload), .complete] =
      ({ m with io := { m.io with seqNo := seqNo + 1 } }, []) := by
  have alive : m.loop ≠ .crashed := by
    intro crashed
    exact running (by simp [hasCrashed, crashed])
  rw [Machine.run_cons, step_response running reading inRange size, Machine.run_cons]
  by_cases registered : m.io.callback
  · simp only [registered, if_true]
    rw [step_complete_stray (by simp [hasCrashed, alive]) rfl stray]
    simp [reading]
  · simp only [registered, if_false, Bool.false_eq_true]
    rw [step, if_neg (by simp [hasCrashed, alive])]
    simp [perform, completeStep, reading]

/-! ## The transmissions of one command -/

/-- The frames read in a step keep the number: none is an accepted hello, and a
command response carries the number before the next one. -/
def KeepsNumber (m : Mux) : Action → Prop
  | .receive frame =>
      ¬BasePicard.IsAcceptedHello frame ∧
        ∀ seqNo ∈ BasePicard.responseSeqNo frame, seqNo + 1 = m.io.seqNo
  | _ => True

instance (m : Mux) : (action : Action) → Decidable (m.KeepsNumber action)
  | .receive frame =>
      inferInstanceAs (Decidable (¬BasePicard.IsAcceptedHello frame ∧
        ∀ seqNo ∈ BasePicard.responseSeqNo frame, seqNo + 1 = m.io.seqNo))
  | .addClient _ | .addCommand _ _ | .removeClient _ | .eraseClient | .hangUp _ | .loop
  | .complete | .unregisterCallback | .stop | .clearCommands => isTrue trivial

theorem step_seqNo
    {action : Action}
    (keeps : m.KeepsNumber action) :
    (step retries m action).1.io.seqNo = m.io.seqNo := by
  by_cases moves : (∀ frame, action ≠ .receive frame) ∧ action ≠ .complete
  · exact (step_picard_frame moves.1 moves.2).2
  · unfold step
    split
    · rfl
    · cases action with
      | receive frame =>
          simp only [perform, receive]
          split
          · rw [handleEvents_seqNo]
            rcases m.io.frameComplete_seqNo_cases frame with
              same | accepted | ⟨seqNo, carried, next⟩
            · exact same
            · exact absurd accepted keeps.1
            · exact next.trans (keeps.2 seqNo carried)
          · rfl
      | complete => exact completeStep_seqNo m
      | _ => exact absurd ⟨fun _ => by simp, by simp⟩ moves

/-- While the number stays, the command thread builds and sends one frame. -/
theorem loopStep_transmits
    {cmd : ClientCommand}
    (transmitting : m.loop.transmitting = true)
    (transmits : m.loop.Transmits cmd (BasePicard.commandFrame cmd.command m.io.seqNo)) :
    (m.loopStep retries).1.loop.Transmits cmd
        (BasePicard.commandFrame cmd.command m.io.seqNo) ∧
      ∀ frame, .sent frame ∈ (m.loopStep retries).2 →
        frame = BasePicard.commandFrame cmd.command m.io.seqNo := by
  cases phase : m.loop <;> rw [phase] at transmitting transmits <;>
    simp only [loopStep, phase]
  case sending other i =>
      obtain rfl : other = cmd := transmits
      exact ⟨⟨rfl, rfl⟩, by simp⟩
  case recording other i built =>
      obtain ⟨rfl, rfl⟩ := transmits
      exact ⟨rfl, by simp⟩
  case waiting other i =>
      obtain rfl : other = cmd := transmits
      refine attempt_cases
        (fun next => next.1.Transmits other (BasePicard.commandFrame other.command m.io.seqNo) ∧
          ∀ frame, .sent frame ∈ next.2 →
            frame = BasePicard.commandFrame other.command m.io.seqNo) ?_ ?_
      · exact fun _ _ => ⟨rfl, by simp⟩
      · exact fun _ => ⟨trivial, by simp⟩
  all_goals cases transmitting

/-- Outputs of other threads are not frames of commands. -/
theorem step_sent
    {action : Action}
    {frame : ByteVector}
    (sent : .sent frame ∈ (step retries m action).2) :
    action = .loop := by
  by_contra notLoop
  unfold step at sent
  split at sent
  · cases sent
  · cases action with
    | loop => exact notLoop rfl
    | receive received =>
        have passive := receive_passive m received _ sent
        cases passive
    | complete =>
        have silent := completeStep_silent m _ sent
        cases silent
    | unregisterCallback | stop | clearCommands =>
        simp only [perform] at sent
        split at sent <;> cases sent
    | addClient | addCommand | removeClient | eraseClient | hangUp => cases sent

/-- The number is kept, and the command is built and sent as one frame. -/
structure Repeats (cmd : ClientCommand) (seqNo : Byte) (state : Mux)
    (outputs : List Output) : Prop where
  number : state.io.seqNo = seqNo
  phase : state.loop.Transmits cmd (BasePicard.commandFrame cmd.command seqNo)
  frames : ∀ frame, .sent frame ∈ outputs → frame = BasePicard.commandFrame cmd.command seqNo

theorem step_repeats
    {cmd : ClientCommand}
    {seqNo : Byte}
    {outputs : List Output}
    {action : Action}
    (repeats : Repeats cmd seqNo m outputs)
    (transmitting : m.loop.transmitting = true)
    (keeps : m.KeepsNumber action) :
    Repeats cmd seqNo (step retries m action).1 (outputs ++ (step retries m action).2) := by
  obtain ⟨rfl, phase, earlier⟩ := repeats
  refine ⟨step_seqNo keeps, ?_, ?_⟩
  · by_cases loop : action = .loop
    · subst loop
      unfold step
      split
      · exact phase
      · exact (loopStep_transmits transmitting phase).1
    · rw [(step_frame loop).1]
      exact phase
  · intro frame member
    rcases List.mem_append.mp member with old | new
    · exact earlier frame old
    · obtain rfl := step_sent new
      unfold step at new
      split at new
      · cases new
      · exact (loopStep_transmits transmitting phase).2 frame new

/-- A run that transmits one command, while the frames read keep the number, sends
one and the same frame. -/
theorem run_repeats
    {cmd : ClientCommand}
    {actions : List Action}
    (phase : m.loop.Transmits cmd (BasePicard.commandFrame cmd.command m.io.seqNo))
    (meets : Machine.Meets (step retries)
      (fun state action => state.loop.transmitting = true ∧ state.KeepsNumber action) m actions) :
    Repeats cmd m.io.seqNo (Machine.run (step retries) m actions).1
      (Machine.run (step retries) m actions).2 := by
  have initially : Repeats cmd m.io.seqNo m [] := ⟨rfl, phase, by simp⟩
  exact Machine.invariant_run (Repeats cmd m.io.seqNo)
    (fun _ _ _ repeats condition => step_repeats repeats condition.1 condition.2)
    initially meets

/-- A stray response that is read and completed leaves the process alone exactly
when it carries the number before the next one.  In any interleaving
`commandComplete` drops it, and while every response carries that number, all
transmissions of a command carry the number of the first one. -/
theorem stray_response_iff (retries : Int) :
    (∀ (m : Mux) (type seqNo len respCode : Byte) (payload : ByteVector),
      ¬m.hasCrashed → m.picard = .reading → Command.notification < type →
      len.toNat = payload.length + 1 → m.IsStray type seqNo →
      (m.LeavesAlone (Machine.run (step retries) m
        [.receive (3 :: type :: seqNo :: len :: respCode :: payload), .complete]) ↔
          seqNo + 1 = m.io.seqNo)) ∧
    (∀ (m : Mux) (response : Response),
      ¬m.hasCrashed → m.picard = .validating response →
      m.IsStray response.cmdType response.seqNo →
      step retries m .complete = ({ m with picard := .reading }, [])) ∧
    ∀ (m : Mux) (cmd : ClientCommand) (actions : List Action),
      m.loop = .sending cmd 0 →
      Machine.Meets (step retries)
        (fun state action => state.loop.transmitting = true ∧ state.KeepsNumber action)
        m actions →
      ∀ frame, .sent frame ∈ (Machine.run (step retries) m actions).2 →
        frame = BasePicard.commandFrame cmd.command m.io.seqNo := by
  refine ⟨?_, ?_, ?_⟩
  · intro m type seqNo len respCode payload running reading inRange size stray
    rw [run_stray running reading inRange size stray]
    constructor
    · exact fun alone => alone.seqNo
    · exact fun same => ⟨rfl, rfl, rfl, rfl, rfl, same⟩
  · intro m response running validating stray
    exact step_complete_stray running validating stray
  · intro m cmd actions sending meets
    refine (run_repeats ?_ meets).frames
    rw [sending]
    rfl

/-- The process after some statements of the command thread on a client's command
of type 40: after five it is about to transmit it, after seven it waits. -/
def afterStatements (count : Nat) : Mux :=
  (Machine.run (step 3) (start {} 4)
    ([.addClient 1, .addCommand 1 (MuxMessage.ofPayload 40 [9])] ++
      List.replicate count .loop)).1

/-- A late answer that carries the number before the next one is read after the
first transmission; the second one repeats the first. -/
theorem stray_response_example :
    (afterStatements 7).LeavesAlone
        (Machine.run (step 3) (afterStatements 7) [.receive [3, 41, 255, 1, 0], .complete]) ∧
      step 3 { afterStatements 7 with
          picard := .validating { cmdType := 41, seqNo := 255, respCode := 0, payload := [] } }
        .complete = ({ afterStatements 7 with picard := .reading }, []) ∧
      ∀ frame, .sent frame ∈ (Machine.run (step 3) (afterStatements 5)
          [.loop, .loop, .receive [3, 41, 255, 1, 0], .complete, .loop, .loop, .loop]).2 →
        frame = [2, 40, 0, 1, 9] := by
  refine ⟨?_, ?_, ?_⟩
  · exact ((stray_response_iff 3).1 (afterStatements 7) 41 255 1 0 [] (by decide) (by decide)
      (by decide) (by decide) (Or.inl (by decide))).mpr (by decide)
  · exact (stray_response_iff 3).2.1 { afterStatements 7 with
      picard := .validating { cmdType := 41, seqNo := 255, respCode := 0, payload := [] } }
      { cmdType := 41, seqNo := 255, respCode := 0, payload := [] } (by decide) rfl
      (Or.inl (by decide))
  · refine (stray_response_iff 3).2.2 (afterStatements 5)
      { client := some 1, command := MuxMessage.ofPayload 40 [9] } _ (by decide) ?_
    decide

/-- A stray response with another number is read between two transmissions: the
second one carries another number than the first. -/
theorem stray_response_changes_number :
    Reachable 3 (afterStatements 7) ∧ (afterStatements 7).IsStray 41 7 ∧
      ¬(afterStatements 7).LeavesAlone
        (Machine.run (step 3) (afterStatements 7) [.receive [3, 41, 7, 1, 0], .complete]) ∧
      (Machine.run (step 3) (afterStatements 5)
          [.loop, .loop, .receive [3, 41, 7, 1, 0], .complete, .loop, .loop, .loop]).2 =
        [.sent [2, 40, 0, 1, 9], .sent [2, 40, 8, 1, 9]] :=
  ⟨⟨{}, 4, _, rfl⟩, Or.inl (by decide), (fun alone => absurd alone.seqNo (by decide)),
    by decide⟩

end Mux

end SerialMux
