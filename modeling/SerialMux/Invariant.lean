import SerialMux.Steps

/-!
# What holds in every state

The command thread and `m_currentCommand` agree, queued commands are fresh, and
the Picard thread handles responses to Serial API commands only.
-/

namespace SerialMux

/-- The command that is popped and not installed yet. -/
def LoopPhase.preparing : LoopPhase → Option ClientCommand
  | .finding cmd | .replying cmd _ _ | .subscribing cmd | .recomputing cmd
  | .rewriting cmd | .installing cmd => some cmd
  | _ => none

/-- The command that is forwarded to Picard. -/
def LoopPhase.forwarded : LoopPhase → Option ClientCommand
  | .subscribing cmd | .recomputing cmd | .rewriting cmd | .installing cmd
  | .sending cmd _ | .recording cmd _ _ | .waiting cmd _ => some cmd
  | _ => none

/-- The response that the Picard thread handles. -/
def PicardPhase.response : PicardPhase → Option Response
  | .validating response | .rejecting response | .delivering response => some response
  | .reading | .stopped | .crashed => none

/-- The Picard thread has validated a response and not delivered it. -/
def PicardPhase.isCompleting : PicardPhase → Bool
  | .rejecting _ | .delivering _ => true
  | .reading | .validating _ | .stopped | .crashed => false

/-- A command that was never installed. -/
def ClientCommand.Fresh (cmd : ClientCommand) : Prop :=
  cmd.result = .timeout ∧ cmd.seq = 0

namespace Mux

variable {retries : Int} {m : Mux}

/-- The invariant of all runs. -/
structure Sound (m : Mux) : Prop where
  agrees : m.loop.AgreesWith m.currentCommand
  queued : ∀ cmd ∈ m.commands, cmd.Fresh
  prepared : ∀ cmd, m.loop.preparing = some cmd → cmd.Fresh
  answers : ∀ response, m.picard.response = some response →
    Command.notification < response.cmdType

theorem dispatch_preparing
    {cmd other : ClientCommand}
    (preparing : (m.dispatch cmd).preparing = some other) :
    other = cmd := by
  refine dispatch_cases (fun next => next.preparing = some other → other = cmd)
    ?_ ?_ ?_ ?_ preparing
  · exact fun _ absurd => by cases absurd
  · exact fun _ _ _ same => (Option.some.inj same).symm
  · exact fun _ _ _ same => (Option.some.inj same).symm
  · exact fun _ _ same => (Option.some.inj same).symm

theorem attempt_preparing (cmd : ClientCommand) (i : Nat) (result : ClientResult) :
    (attempt retries cmd i result).1.preparing = none :=
  attempt_cases (fun next => next.1.preparing = none) (fun _ _ => rfl) (fun _ => rfl)

/-- The command thread takes fresh commands from the queue and keeps them so. -/
theorem loopStep_fresh
    (queued : ∀ cmd ∈ m.commands, cmd.Fresh)
    (prepared : ∀ cmd, m.loop.preparing = some cmd → cmd.Fresh) :
    ∀ cmd, (m.loopStep retries).1.loop.preparing = some cmd → cmd.Fresh := by
  intro cmd preparing
  cases phase : m.loop <;> rw [phase] at prepared <;> simp only [loopStep, phase] at preparing
  case checking => split at preparing <;> cases preparing
  case popping =>
      split at preparing
      · cases preparing
      · rename_i first rest commands
        cases preparing
        rw [commands] at queued
        exact queued cmd List.mem_cons_self
  case finding first =>
      split at preparing
      · rw [dispatch_preparing preparing]
        exact prepared first rfl
      · cases preparing
  case subscribing first =>
      split at preparing
      · exact prepared cmd preparing
      · cases preparing
  case recomputing => exact prepared cmd preparing
  case rewriting first =>
      split at preparing
      · cases preparing
        exact prepared first rfl
      · cases preparing
  case installing =>
      rw [attempt_preparing] at preparing
      cases preparing
  case waiting =>
      rw [attempt_preparing] at preparing
      cases preparing
  case concluding => split_ifs at preparing <;> cases preparing
  case disconnecting => split at preparing <;> cases preparing
  all_goals cases preparing

/-- Only fresh commands are queued. -/
theorem step_queued
    {action : Action}
    (queued : ∀ cmd ∈ m.commands, cmd.Fresh) :
    ∀ cmd ∈ (step retries m action).1.commands, cmd.Fresh := by
  intro cmd mem
  rcases mem_step_commands mem with old | ⟨client, command, -, rfl⟩ | ⟨-, result, seq, -⟩
  · exact queued cmd old
  · exact ⟨rfl, rfl⟩
  · exact ⟨result, seq⟩

theorem completeStep_answers
    (answers : ∀ response, m.picard.response = some response →
      Command.notification < response.cmdType) :
    ∀ response, m.completeStep.1.picard.response = some response →
      Command.notification < response.cmdType := by
  unfold completeStep
  split
  case h_1 response phase =>
      rw [phase] at answers
      split_ifs
      · exact fun _ absurd => by cases absurd
      · exact answers
      · exact answers
  case h_2 response phase =>
      rw [phase] at answers
      exact answers
  case h_3 response phase =>
      unfold deliver
      split
      · exact fun _ absurd => by simp [PicardPhase.response] at absurd
      · exact fun _ absurd => by cases absurd
  all_goals exact answers

theorem step_answers
    {action : Action}
    (answers : ∀ response, m.picard.response = some response →
      Command.notification < response.cmdType) :
    ∀ response, (step retries m action).1.picard.response = some response →
      Command.notification < response.cmdType := by
  by_cases moves : (∀ frame, action ≠ .receive frame) ∧ action ≠ .complete
  · rw [(step_picard_frame moves.1 moves.2).1]
    exact answers
  · unfold step
    split
    · exact answers
    · cases action with
      | receive frame =>
          simp only [perform]
          rcases receive_cases m frame with
            ⟨response, -, inRange, -, result⟩ | same | stopped | crashed
          · rw [result]
            rintro _ ⟨⟩
            exact inRange
          · rw [same]
            exact answers
          · rw [stopped]
            exact fun _ absurd => by cases absurd
          · rw [crashed]
            exact fun _ absurd => by cases absurd
      | complete => exact completeStep_answers answers
      | _ => exact absurd ⟨fun _ => by simp, by simp⟩ moves

theorem step_sound
    (action : Action)
    (sound : Sound m) :
    Sound (step retries m action).1 where
  agrees := step_agrees action sound.agrees
  queued := step_queued sound.queued
  prepared := by
    by_cases loop : action = .loop
    · subst loop
      unfold step
      split
      · exact sound.prepared
      · exact loopStep_fresh sound.queued sound.prepared
    · rw [(step_frame loop).1]
      exact sound.prepared
  answers := step_answers sound.answers

theorem start_sound (io : BasePicard) (protocolVersion : Byte) :
    Sound (start io protocolVersion) where
  agrees := ⟨rfl, rfl, rfl⟩
  queued := by simp [start]
  prepared := fun _ absurd => by cases absurd
  answers := fun _ absurd => by cases absurd

/-- A frame does not call `commandComplete` past the validation. -/
theorem receive_completing
    {frame : ByteVector}
    (completing : (m.receive frame).1.picard.isCompleting) :
    (m.receive frame).1.picard = m.picard := by
  rcases receive_cases m frame with ⟨response, -, -, -, result⟩ | same | stopped | crashed
  · rw [result] at completing
    cases completing
  · exact same
  · rw [stopped] at completing
    cases completing
  · rw [crashed] at completing
    cases completing

end Mux

end SerialMux
