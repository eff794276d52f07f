import SerialMux.Library.NumberedLog
import SerialMux.World

/-!
# Attribution of responses

`commandComplete` recognizes the response to the current command by its type and
number.  `m_seqNo` moves when a response or a HELLO_RESPONSE is received and not
when a command is sent, so two commands can go out under one number; and the
command thread installs a command whatever the Picard thread is about.  While
neither happens, every response that is written or marks a command answers a
transmission of that command.  The numbers of requests that can still be answered
need no bound: without a second HELLO_RESPONSE they are the present number and
its predecessor.
-/

namespace SerialMux

open NumberedLog

/-- A command is accepted and not installed. -/
def LoopPhase.untransmitted : LoopPhase → Bool
  | .subscribing _ | .recomputing _ | .rewriting _ | .installing _ => true
  | _ => false

/-- The number behind a sequence number. -/
def nextSeqNo (seqNo : Byte) : Byte := seqNo + 1

/-- `commandComplete` has begun to compare the response with the current command, or is
going to mark the command or to write to its client. -/
def Process.attributes (p : Process) : Bool :=
  match p.mux.picard with
  | .validating _ => p.expectedSeq.isSome
  | .rejecting _ => true
  | .delivering _ => p.block != some .committing
  | .reading | .stopped | .crashed => false

namespace World

/-- `m_currentCommand` is cleared: a response is sent to nobody. -/
def IsCleared (w : World) : Prop :=
  w.mux.currentCommand.client = none ∧ w.mux.currentCommand.command = {}

/-- The request answered last transmits the current command. -/
def AnsweredCurrent (w : World) : Prop :=
  ∃ request, w.received[w.answered - 1]? = some request ∧ request.owner = w.taken

/-- The response that the Picard thread handles answers the request answered
last. -/
def AnsweredBy (w : World) (response : Response) : Prop :=
  0 < w.answered ∧
    ∃ request, w.received[w.answered - 1]? = some request ∧
      request.type = response.cmdType ∧ request.seqNo = response.seqNo

/-- A response that `commandComplete` is about to write, or to mark the current
command with, answers a transmission of that command. -/
def Attributed (w : World) : Prop :=
  ∀ response, w.mux.picard = .delivering response → w.block ≠ some .committing →
    w.IsCleared ∨
      0 < w.answered ∧
        ∃ request, w.received[w.answered - 1]? = some request ∧
          request.owner = w.taken ∧ request.type = response.cmdType ∧
          request.seqNo = response.seqNo

/-- The next statement of the command thread records no number under which Picard
can still answer an earlier command of the type, and installs no command while a
response is compared with the current one or delivered. -/
def TransmitsApart (w : World) : LoopPhase → Prop
  | .recording cmd _ _ =>
      w.recorded = false → ∀ request ∈ w.received.drop (w.answered - 1),
        request.type = cmd.command.type → request.seqNo = w.mux.io.seqNo →
          request.owner = w.taken
  | .installing _ => ¬w.attributes
  | .starting | .checking | .popping | .finding _ | .replying _ _ _ | .subscribing _
  | .recomputing _ | .rewriting _ | .sending _ _ | .waiting _ _ | .concluding _ _
  | .restoring _ | .resetting _ | .timingOut _ | .disconnecting _ | .clearing _
  | .finished | .crashed => True

/-- The next statement of the Picard thread matches no response with a command
that has not been sent. -/
def ValidatesApart (w : World) : PicardPhase → Prop
  | .validating response =>
      w.expectedSeq = none → response.cmdType = w.mux.currentCommand.command.type →
        response.seqNo = w.mux.currentCommand.seq →
          ∃ request ∈ w.received, request.owner = w.taken
  | .reading | .rejecting _ | .delivering _ | .stopped | .crashed => True

/-- A step takes none of the ways to a wrong attribution. -/
def KeepsApart (w : World) (action : WorldAction) : Prop :=
  (action = .process .loop → w.TransmitsApart w.mux.loop) ∧
    (action = .process .complete → w.ValidatesApart w.mux.picard)

instance (w : World) : (phase : LoopPhase) → Decidable (TransmitsApart w phase)
  | .recording _ _ _ => inferInstanceAs (Decidable (_ → ∀ request ∈ _, _))
  | .installing _ => inferInstanceAs (Decidable ¬_)
  | .starting | .checking | .popping | .finding _ | .replying _ _ _ | .subscribing _
  | .recomputing _ | .rewriting _ | .sending _ _ | .waiting _ _ | .concluding _ _
  | .restoring _ | .resetting _ | .timingOut _ | .disconnecting _ | .clearing _
  | .finished | .crashed => isTrue trivial

instance (w : World) : (phase : PicardPhase) → Decidable (ValidatesApart w phase)
  | .validating _ => inferInstanceAs (Decidable (_ → _ → _ → _))
  | .reading | .rejecting _ | .delivering _ | .stopped | .crashed => isTrue trivial

instance (w : World) (action : WorldAction) : Decidable (KeepsApart w action) :=
  inferInstanceAs (Decidable (_ ∧ _))

/-! ## The invariants -/

/-- What every run preserves: requests are numbered by the commands accepted, and
responses answer requests. -/
structure Traced (w : World) : Prop where
  sound : w.toProcess.Sound
  requests : ∀ request ∈ w.received,
    request.owner ≤ w.taken ∧ Command.notification < request.type
  forwarded : ∀ cmd, w.mux.loop.forwarded = some cmd →
    Command.notification < cmd.command.type
  framed : ∀ cmd i frame, w.mux.loop = .recording cmd i frame →
    ∃ seqNo, frame = BasePicard.commandFrame cmd.command seqNo
  untransmitted : w.mux.loop.untransmitted →
    ∀ request ∈ w.received, request.owner ≠ w.taken
  answering : ∀ response, w.mux.picard.response = some response → w.AnsweredBy response

/-- Once the number of the current command is recorded, the requests that match it
and can still be answered are its own. -/
def OwnMatches (w : World) : Prop :=
  (∃ request ∈ w.received, request.owner = w.taken) ∨ w.recorded →
    ∀ index request, w.answered - 1 ≤ index → w.received[index]? = some request →
      request.type = w.mux.currentCommand.command.type →
      request.seqNo = w.mux.currentCommand.seq → request.owner = w.taken

/-- What every run preserves whose steps keep the commands apart. -/
structure Distinguished (w : World) : Prop where
  traced : w.Traced
  ownMatches : w.OwnMatches
  expecting : ∀ expectedSeq response, w.expectedSeq = some expectedSeq →
    w.mux.picard = .validating response →
    response.cmdType = w.mux.currentCommand.command.type →
    response.seqNo = expectedSeq → w.AnsweredCurrent
  completing : w.mux.picard.isCompleting → w.block ≠ some .committing →
    w.IsCleared ∨ w.AnsweredCurrent

theorem Distinguished.attributed
    {w : World}
    (distinguished : Distinguished w) :
    w.Attributed := by
  intro response delivering early
  have handled : w.mux.picard.response = some response := by rw [delivering]; rfl
  have completes : w.mux.picard.isCompleting := by rw [delivering]; rfl
  obtain ⟨positive, request, found, sameType, sameSeqNo⟩ :=
    distinguished.traced.answering response handled
  rcases distinguished.completing completes early with cleared | ⟨own, foundOwn, owner⟩
  · exact Or.inl cleared
  · rw [found, Option.some.injEq] at foundOwn
    subst foundOwn
    exact Or.inr ⟨positive, request, found, owner, sameType, sameSeqNo⟩

/-! ## Steps of the command thread -/

/-- How the command thread goes on with the command that it forwards. -/
structure GoesOn (before after : Mux) : Prop where
  current : after.currentCommand = before.currentCommand
  forwarded : ∀ cmd, after.loop.forwarded = some cmd →
    ∃ earlier, before.loop.forwarded = some earlier ∧
      earlier.command.type = cmd.command.type
  untransmitted : after.loop.untransmitted → before.loop.untransmitted
  built : ∀ cmd i frame, after.loop = .recording cmd i frame →
    frame = BasePicard.commandFrame cmd.command before.io.seqNo

variable {retries : Int} {w : World}

theorem GoesOn.nowhere
    {before after : Mux}
    (current : after.currentCommand = before.currentCommand)
    (forwardsNone : after.loop.forwarded = none) :
    GoesOn before after where
  current := current
  forwarded cmd absurd := by rw [forwardsNone] at absurd; cases absurd
  untransmitted waits := by
    cases phase : after.loop <;> rw [phase] at waits forwardsNone
    case subscribing | recomputing | rewriting | installing => cases forwardsNone
    all_goals cases waits
  built cmd i frame phase := by rw [phase] at forwardsNone; cases forwardsNone

theorem GoesOn.same
    {before after : Mux}
    (cmd : ClientCommand)
    {next : ClientCommand}
    (current : after.currentCommand = before.currentCommand)
    (earlier : before.loop.forwarded = some cmd)
    (later : after.loop.forwarded = some next)
    (sameType : cmd.command.type = next.command.type)
    (untransmitted : after.loop.untransmitted → before.loop.untransmitted)
    (built : ∀ cmd i frame, after.loop = .recording cmd i frame →
      frame = BasePicard.commandFrame cmd.command before.io.seqNo) :
    GoesOn before after where
  current := current
  forwarded other same := by
    rw [later, Option.some.injEq] at same
    exact ⟨cmd, earlier, by rw [sameType, same]⟩
  untransmitted := untransmitted
  built := built

theorem attempt_forwarded
    (retries : Int)
    (cmd : ClientCommand)
    (i : Nat)
    (result : ClientResult) :
    (Mux.attempt retries cmd i result).1 = .sending cmd i ∨
      (Mux.attempt retries cmd i result).1.forwarded = none :=
  Mux.attempt_cases (fun next => next.1 = .sending cmd i ∨ next.1.forwarded = none)
    (fun _ _ => Or.inl rfl) (fun _ => Or.inr rfl)

/-- The statements that neither accept a command, nor send one, nor change
`m_currentCommand`. -/
theorem loopStep_goesOn
    (retries : Int)
    {m : Mux}
    (notFinding : ∀ cmd, m.loop ≠ .finding cmd)
    (notInstalling : ∀ cmd, m.loop ≠ .installing cmd)
    (notRecording : ∀ cmd i frame, m.loop ≠ .recording cmd i frame)
    (notClearing : ∀ cmd, m.loop ≠ .clearing cmd) :
    GoesOn m (m.loopStep retries).1 ∧ ∀ output ∈ (m.loopStep retries).2, output.isSilent := by
  cases phase : m.loop <;> simp only [Mux.loopStep, phase]
  case starting => exact ⟨.nowhere rfl rfl, by simp⟩
  case checking => exact ⟨.nowhere rfl (by dsimp only; split <;> rfl), by simp⟩
  case popping => split <;> exact ⟨.nowhere rfl rfl, by simp⟩
  case finding cmd => exact absurd phase (notFinding cmd)
  case replying cmd sender resp =>
      exact ⟨.nowhere rfl rfl, Mux.sendResponse_silent _ _ _⟩
  case subscribing cmd =>
      split
      · exact ⟨.same cmd (by simp) (by rw [phase]; rfl) rfl rfl (fun _ => by rw [phase]; rfl)
          (fun _ _ _ absurd => by cases absurd), by simp⟩
      · exact ⟨.nowhere rfl rfl, by simp⟩
  case recomputing cmd =>
      exact ⟨.same cmd rfl (by rw [phase]; rfl) rfl rfl (fun _ => by rw [phase]; rfl)
        (fun _ _ _ absurd => by cases absurd), by simp⟩
  case rewriting cmd =>
      split
      · exact ⟨.same cmd rfl (by rw [phase]; rfl) rfl rfl (fun _ => by rw [phase]; rfl)
          (fun _ _ _ absurd => by cases absurd), by simp⟩
      · exact ⟨.nowhere rfl rfl, by simp⟩
  case installing cmd => exact absurd phase (notInstalling cmd)
  case sending cmd i =>
      refine ⟨.same cmd rfl (by rw [phase]; rfl) rfl rfl (fun absurd => by cases absurd) ?_,
        by simp⟩
      rintro _ _ _ ⟨⟩
      rfl
  case recording cmd i frame => exact absurd phase (notRecording cmd i frame)
  case waiting cmd i =>
      refine ⟨?_, ?_⟩
      · rcases attempt_forwarded retries cmd (i + 1) m.currentCommand.result with
          again | left
        · refine .same cmd rfl (by rw [phase]; rfl) (by rw [again]; rfl) rfl (fun absurd => ?_)
            (fun _ _ _ absurd => ?_) <;> rw [again] at absurd <;> cases absurd
        · exact .nowhere rfl left
      · exact Mux.attempt_cases (fun next => ∀ output ∈ next.2, output.isSilent)
          (fun _ _ => by simp) (fun _ => by simp [Output.isSilent])
  case concluding cmd result =>
      split_ifs <;> exact ⟨.nowhere rfl rfl, by simp⟩
  case restoring cmd => exact ⟨.nowhere rfl rfl, by simp⟩
  case resetting cmd => exact ⟨.nowhere (by simp) rfl, by simp⟩
  case timingOut cmd =>
      exact ⟨.nowhere rfl rfl, Mux.sendResponse_silent _ _ _⟩
  case disconnecting cmd =>
      have same := (Mux.resetConnection_same m).currentCommand
      split <;> rename_i closed reset <;> rw [reset] at same <;>
        exact ⟨.nowhere same rfl, by simp [Output.isSilent]⟩
  case clearing cmd => exact absurd phase (notClearing cmd)
  case finished => exact ⟨.nowhere rfl (by rw [phase]; rfl), by simp⟩
  case crashed => exact ⟨.nowhere rfl (by rw [phase]; rfl), by simp⟩

/-! ## Requests and responses -/

/-- Neither a command is accepted nor a request sent. -/
theorem Traced.within
    (traced : Traced w)
    {next : Process}
    (sound : next.Sound)
    (answering : ∀ response, next.mux.picard.response = some response →
      w.mux.picard.response = some response)
    (forwarded : ∀ cmd, next.mux.loop.forwarded = some cmd →
      ∃ earlier, w.mux.loop.forwarded = some earlier ∧
        earlier.command.type = cmd.command.type)
    (framed : ∀ cmd i frame, next.mux.loop = .recording cmd i frame →
      ∃ seqNo, frame = BasePicard.commandFrame cmd.command seqNo)
    (untransmitted : next.mux.loop.untransmitted → w.mux.loop.untransmitted) :
    Traced { w with toProcess := next } where
  sound := sound
  requests := traced.requests
  forwarded cmd forwards := by
    obtain ⟨earlier, before, sameType⟩ := forwarded cmd forwards
    rw [← sameType]
    exact traced.forwarded earlier before
  framed := framed
  untransmitted waits := traced.untransmitted (untransmitted waits)
  answering response handled := traced.answering response (answering response handled)

/-- The command thread stays where it is. -/
theorem Traced.aside
    (traced : Traced w)
    {next : Process}
    (sound : next.Sound)
    (loop : next.mux.loop = w.mux.loop)
    (answering : ∀ response, next.mux.picard.response = some response →
      w.mux.picard.response = some response) :
    Traced { w with toProcess := next } := by
  refine traced.within sound answering ?_ ?_ ?_ <;> rw [loop]
  · exact fun cmd forwards => ⟨cmd, forwards, rfl⟩
  · exact traced.framed
  · exact id

theorem Traced.cleared
    (traced : Traced w)
    {cmd : ClientCommand}
    (phase : w.mux.loop = .finding cmd) :
    w.IsCleared := by
  have agrees := traced.sound.mux.agrees
  rw [phase] at agrees
  exact ⟨agrees.1, agrees.2.1⟩

/-- A command is accepted. -/
theorem Traced.accepted
    (traced : Traced w)
    {cmd : ClientCommand}
    (sound : Process.Sound { w.toProcess with
      mux := { w.mux with loop := w.mux.dispatch cmd } }) :
    Traced
      { w with
        mux := { w.mux with loop := w.mux.dispatch cmd }
        taken := w.taken + 1 } where
  sound := sound
  requests request mem := by
    have known := traced.requests request mem
    exact ⟨Nat.le_succ_of_le known.1, known.2⟩
  forwarded := by
    refine Mux.dispatch_cases (fun next => ∀ other, next.forwarded = some other →
      Command.notification < other.command.type) ?_ ?_ ?_ ?_
    · exact fun _ _ absurd => by cases absurd
    · exact fun _ _ _ _ absurd => by cases absurd
    · rintro subscribe _ _ _ ⟨⟩
      rw [subscribe]
      decide
    · rintro forwards _ _ ⟨⟩
      exact of_decide_eq_true forwards
  framed := by
    refine Mux.dispatch_cases (fun next => ∀ other i frame, next = .recording other i frame →
      ∃ seqNo, frame = BasePicard.commandFrame other.command seqNo) ?_ ?_ ?_ ?_
    · exact fun _ _ _ _ absurd => by cases absurd
    · exact fun _ _ _ _ _ _ absurd => by cases absurd
    · exact fun _ _ _ _ _ _ absurd => by cases absurd
    · exact fun _ _ _ _ _ absurd => by cases absurd
  untransmitted _ request mem := by
    have bound := (traced.requests request mem).1
    dsimp only
    omega
  answering := traced.answering

theorem ofFrame_owner (owner : Nat) (frame : ByteVector) :
    (Request.ofFrame owner frame).owner = owner := by
  unfold Request.ofFrame
  split <;> rfl

theorem getElem?_kept
    {log : List Request}
    {index : Nat}
    {request : Request}
    (last : Request)
    (found : log[index]? = some request) :
    (log ++ [last])[index]? = some request := by
  rwa [List.getElem?_append_left (List.getElem?_eq_some_iff.1 found).1]

/-- The frame of a command is sent. -/
theorem Traced.sent
    (traced : Traced w)
    {cmd : ClientCommand}
    {i : Nat}
    {frame : ByteVector}
    (phase : w.mux.loop = .recording cmd i frame)
    (sound : Process.Sound { w.toProcess with
      mux := { w.mux with loop := .waiting cmd i }, recorded := false }) :
    Traced
      { w with
        mux := { w.mux with loop := .waiting cmd i }
        recorded := false
        received := w.received ++ [Request.ofFrame w.taken frame] } where
  sound := sound
  requests request mem := by
    obtain ⟨seqNo, rfl⟩ := traced.framed cmd i frame phase
    rcases List.mem_append.1 mem with old | new
    · exact traced.requests request old
    · rw [List.mem_singleton.1 new, ofFrame_owner]
      exact ⟨Nat.le_refl _, traced.forwarded cmd (by rw [phase]; rfl)⟩
  forwarded := by
    rintro _ ⟨⟩
    exact traced.forwarded cmd (by rw [phase]; rfl)
  framed _ _ _ absurd := by cases absurd
  untransmitted absurd := by cases absurd
  answering response handled := by
    obtain ⟨positive, request, found, answers⟩ := traced.answering response handled
    exact ⟨positive, request, getElem?_kept _ found, answers⟩

/-- What the command thread does between accepting a command and sending it. -/
theorem Traced.goesOn
    (traced : Traced w)
    {next : Process}
    (sound : next.Sound)
    (goesOn : GoesOn w.mux next.mux)
    (picard : next.mux.picard = w.mux.picard) :
    Traced { w with toProcess := next } := by
  refine traced.within sound (by rw [picard]; exact fun _ => id) goesOn.forwarded ?_
    goesOn.untransmitted
  exact fun cmd i frame built => ⟨_, goesOn.built cmd i frame built⟩

/-- A command is installed. -/
theorem Traced.installed
    (traced : Traced w)
    {cmd : ClientCommand}
    (phase : w.mux.loop = .installing cmd)
    {next : LoopPhase}
    (follows : next = .sending cmd 0 ∨ next.forwarded = none)
    (sound : Process.Sound { w.toProcess with
      mux := { w.mux with currentCommand := cmd, loop := next } }) :
    Traced { w with mux := { w.mux with currentCommand := cmd, loop := next } } := by
  refine traced.within sound (fun _ => id) ?_ ?_ ?_ <;> dsimp only
  · intro other forwards
    rcases follows with sends | left
    · rw [sends] at forwards
      exact ⟨cmd, by rw [phase]; rfl, by rw [Option.some.inj forwards]⟩
    · rw [left] at forwards
      cases forwards
  · rintro other i frame rfl
    rcases follows with absurd | absurd <;> cases absurd
  · exact fun _ => by rw [phase]; rfl

/-- What a statement of the command thread does to the world. -/
inductive LoopChange (w : World) : World → Prop
  | stays : LoopChange w w
  | goesOn
      {next : Process}
      (goesOn : GoesOn w.mux next.mux)
      (picard : next.mux.picard = w.mux.picard)
      (seqNo : next.mux.io.seqNo = w.mux.io.seqNo)
      (expectedSeq : next.expectedSeq = w.expectedSeq)
      (block : next.block = w.block)
      (recorded : next.recorded = w.recorded) :
      LoopChange w { w with toProcess := next }
  | accepts
      {cmd : ClientCommand}
      (phase : w.mux.loop = .finding cmd) :
      LoopChange w
        { w with
          mux := { w.mux with loop := w.mux.dispatch cmd }
          taken := w.taken + 1 }
  | installs
      {cmd : ClientCommand}
      {next : LoopPhase}
      (phase : w.mux.loop = .installing cmd)
      (follows : next = .sending cmd 0 ∨ next.forwarded = none) :
      LoopChange w { w with mux := { w.mux with currentCommand := cmd, loop := next } }
  | clears
      {cmd : ClientCommand}
      (phase : w.mux.loop = .clearing cmd) :
      LoopChange w { w with mux := { w.mux with currentCommand := {}, loop := .checking } }
  | records
      {cmd : ClientCommand}
      {i : Nat}
      {frame : ByteVector}
      (phase : w.mux.loop = .recording cmd i frame)
      (notRecorded : w.recorded = false) :
      LoopChange w
        { w with
          mux := { w.mux with currentCommand.seq := w.mux.io.seqNo }
          recorded := true }
  | sends
      {cmd : ClientCommand}
      {i : Nat}
      {frame : ByteVector}
      (phase : w.mux.loop = .recording cmd i frame)
      (recorded : w.recorded = true) :
      LoopChange w
        { w with
          mux := { w.mux with loop := .waiting cmd i }
          recorded := false
          received := w.received ++ [Request.ofFrame w.taken frame] }

theorem GoesOn.stores
    {before : Mux}
    {cmd : ClientCommand}
    (phase : before.loop = .recomputing cmd)
    (filterUnion : SubscriptionParams) :
    GoesOn before { before with filterUnion := filterUnion, loop := .rewriting cmd } :=
  .same cmd rfl (by rw [phase]; rfl) rfl rfl (fun _ => by rw [phase]; rfl)
    (fun _ _ _ absurd => by cases absurd)

theorem GoesOn.recomputes
    {before : Mux}
    {cmd : ClientCommand}
    (phase : before.loop = .recomputing cmd)
    (prevfilter : SubscriptionParams) :
    GoesOn before { before with prevfilter := prevfilter } :=
  .same cmd rfl (by rw [phase]; rfl) (by dsimp only; rw [phase]; rfl) rfl id
    (fun _ _ _ absurd => by dsimp only at absurd; rw [phase] at absurd; cases absurd)

theorem step_loop_change (retries : Int) (w : World) :
    LoopChange w (w.step retries (.process .loop)).1 := by
  change LoopChange w (w.advance (w.toProcess.step retries .loop))
  by_cases crashed : w.mux.hasCrashed
  · rw [Process.step_of_crashed crashed]
    exact .stays
  have statement := @Process.loopStep_statement retries w.toProcess crashed
  rw [Process.step_loop crashed]
  generalize w.toProcess.loopStep retries = result at statement ⊢
  cases statement with
  | waits => exact .stays
  | unites phase | compares phase =>
      rw [advance_silent (by simp)]
      exact .goesOn (.recomputes phase w.mux.prevfilter) rfl rfl rfl rfl rfl
  | saves phase =>
      rw [advance_silent (by simp)]
      exact .goesOn (.recomputes phase _) rfl rfl rfl rfl rfl
  | stores phase =>
      rw [advance_silent (by simp)]
      exact .goesOn (.stores phase _) rfl rfl rfl rfl rfl
  | records phase notRecorded =>
      rw [advance_silent (by simp)]
      exact .records phase notRecorded
  | sends phase recorded => exact .sends phase recorded
  | whole _ notRecording =>
      have picard := @Mux.loopStep_picard retries w.mux
      cases phase : w.mux.loop
      case finding cmd =>
          simp only [Mux.loopStep, phase] at picard ⊢
          split
          · exact .accepts phase
          · rw [advance_silent (by simp)]
            exact .goesOn (.nowhere rfl rfl) rfl rfl rfl rfl rfl
      case installing cmd =>
          simp only [Mux.loopStep, phase]
          rw [advance_silent ?_]
          · exact .installs phase (attempt_forwarded retries cmd 0 .timeout)
          · exact Mux.attempt_cases (fun next => ∀ output ∈ next.2, output.isSilent)
              (fun _ _ => by simp) (fun _ => by simp [Output.isSilent])
      case recording cmd i frame => exact absurd phase (notRecording cmd i frame)
      case clearing cmd =>
          simp only [Mux.loopStep, phase]
          rw [advance_silent (by simp)]
          exact .clears phase
      all_goals
        obtain ⟨goesOn, silent⟩ := loopStep_goesOn retries (m := w.mux)
          (by simp [phase]) (by simp [phase]) (by simp [phase]) (by simp [phase])
        rw [advance_silent silent]
        exact .goesOn goesOn picard.1 picard.2 rfl rfl rfl

/-- What every step of the process and of Picard preserves. -/
theorem Traced.loop
    (traced : Traced w) :
    Traced (w.step retries (.process .loop)).1 := by
  have sound := step_sound (.process .loop) traced.sound retries
  have change := step_loop_change retries w
  generalize (w.step retries (.process .loop)).1 = next at sound change ⊢
  cases change with
  | stays => exact traced
  | goesOn goesOn picard => exact traced.goesOn sound goesOn picard
  | accepts phase => exact traced.accepted sound
  | installs phase follows => exact traced.installed phase follows sound
  | clears =>
      exact traced.within sound (fun _ => id) (fun _ absurd => by cases absurd)
        (fun _ _ _ absurd => by cases absurd) (fun absurd => by cases absurd)
  | records => exact traced.aside sound rfl (fun _ => id)
  | sends phase => exact traced.sent phase sound

/-- Picard answers a request. -/
theorem Traced.answer
    (traced : Traced w)
    (index : Nat)
    (respCode : Byte)
    (payload : ByteVector) :
    Traced (w.step retries (.answer index respCode payload)).1 := by
  have sound := step_sound (.answer index respCode payload) traced.sound retries
  unfold World.step at sound ⊢
  dsimp only at sound ⊢
  split at sound
  case h_2 => exact traced
  case h_1 request found =>
  split_ifs at sound ⊢ with possible
  case neg => exact traced
  obtain ⟨reads, inOrder, short⟩ := possible
  have inRange := (traced.requests request (List.mem_of_getElem? found)).2
  rw [step_answerFrame reads inRange short retries respCode] at sound ⊢
  refine ⟨sound, traced.requests, traced.forwarded, traced.framed, traced.untransmitted, ?_⟩
  intro response handled
  refine ⟨Nat.succ_pos _, request, found, ?_⟩
  dsimp only [advance, List.foldl] at handled
  split at handled
  · rw [← Option.some.inj handled]
    exact ⟨rfl, rfl⟩
  · cases handled

theorem Traced.step
    (traced : Traced w)
    (action : WorldAction) :
    Traced (w.step retries action).1 := by
  have sound := step_sound action traced.sound retries
  cases action with
  | process action =>
      by_cases loop : action = .loop
      · subst loop
        exact traced.loop
      by_cases receives : ∃ frame, action = .receive frame
      · obtain ⟨frame, rfl⟩ := receives
        exact traced
      have notReceive : ∀ frame, action ≠ .receive frame :=
        fun frame receive => receives ⟨frame, receive⟩
      rw [step_process loop notReceive] at sound ⊢
      by_cases complete : action = .complete
      · subst complete
        obtain ⟨sameLoop, sameResponse⟩ := Process.step_complete_response retries w.toProcess
        exact traced.aside sound sameLoop sameResponse
      · obtain ⟨same, -⟩ := @Process.step_sameThreads retries w.toProcess action loop complete
          notReceive
        refine traced.aside sound same.loop ?_
        rw [same.picard]
        exact fun _ => id
  | answer index respCode payload => exact traced.answer index respCode payload
  | announce frame =>
      unfold World.step at sound ⊢
      dsimp only at sound ⊢
      split_ifs at sound ⊢ with announces
      case neg => exact traced
      rw [advance_silent (receive_silent retries w.toProcess frame)] at sound ⊢
      refine traced.aside sound (Process.step_receive_loop retries w.toProcess frame).1 ?_
      rcases step_announce_picard announces retries w.toProcess with same | stopped | crashed
      · rw [same]
        exact fun _ => id
      · rw [stopped]
        exact fun _ absurd => by cases absurd
      · rw [crashed]
        exact fun _ absurd => by cases absurd

/-! ## Attribution -/

/-- The idle command thread has no current command. -/
theorem ownMatches_of_cleared
    (requests : ∀ request ∈ w.received, Command.notification < request.type)
    (cleared : w.mux.currentCommand.command = {}) :
    w.OwnMatches := by
  intro _ index request _ found sameType
  have inRange := requests request (List.mem_of_getElem? found)
  rw [sameType, cleared] at inRange
  exact absurd inRange (by decide)

/-- The invariant depends on few fields of the process. -/
theorem Distinguished.within
    (distinguished : Distinguished w)
    {next : Process}
    (traced : ({ w with toProcess := next } : World).Traced)
    (client : next.mux.currentCommand.client = w.mux.currentCommand.client)
    (command : next.mux.currentCommand.command = w.mux.currentCommand.command)
    (seq : next.mux.currentCommand.seq = w.mux.currentCommand.seq)
    (recorded : next.recorded = w.recorded)
    (expecting : ∀ expectedSeq response, next.expectedSeq = some expectedSeq →
      next.mux.picard = .validating response →
      w.expectedSeq = some expectedSeq ∧ w.mux.picard = .validating response ∨
        (response.cmdType = w.mux.currentCommand.command.type →
          response.seqNo = expectedSeq → w.AnsweredCurrent))
    (completing : next.mux.picard.isCompleting → next.block ≠ some .committing →
      w.mux.picard.isCompleting ∧ w.block ≠ some .committing ∨ w.AnsweredCurrent) :
    Distinguished { w with toProcess := next } where
  traced := traced
  ownMatches := by
    unfold OwnMatches
    dsimp only
    rw [recorded, command, seq]
    exact distinguished.ownMatches
  expecting expectedSeq response isExpected validating sameType := by
    dsimp only at sameType
    rw [command] at sameType
    rcases expecting expectedSeq response isExpected validating with ⟨before, same⟩ | now
    · exact distinguished.expecting expectedSeq response before same sameType
    · exact now sameType
  completing completes early := by
    unfold IsCleared
    dsimp only
    rw [client, command]
    rcases completing completes early with ⟨before, wasEarly⟩ | now
    · exact distinguished.completing before wasEarly
    · exact Or.inr now

/-- A response to no command is compared with a cleared command in vain. -/
theorem Traced.not_expecting_of_cleared
    (traced : Traced w)
    {response : Response}
    (validating : w.mux.picard = .validating response)
    (sameType : response.cmdType = ({} : ClientCommand).command.type) :
    False := by
  have inRange := traced.sound.mux.answers response (by rw [validating]; rfl)
  rw [sameType] at inRange
  exact absurd inRange (by decide)

/-- A statement of the command thread. -/
theorem Distinguished.loop
    (distinguished : Distinguished w)
    (apart : w.TransmitsApart w.mux.loop) :
    Distinguished (w.step retries (.process .loop)).1 := by
  have traced := @Traced.loop retries w distinguished.traced
  have change := step_loop_change retries w
  generalize (w.step retries (.process .loop)).1 = next at traced change ⊢
  cases change with
  | stays => exact distinguished
  | goesOn goesOn picard _ expectedSeq block recorded =>
      refine distinguished.within traced (by rw [goesOn.current]) (by rw [goesOn.current])
        (by rw [goesOn.current]) recorded ?_ ?_
      · rw [expectedSeq, picard]
        exact fun _ _ before validating => Or.inl ⟨before, validating⟩
      · rw [block, picard]
        exact fun completes early => Or.inl ⟨completes, early⟩
  | accepts phase =>
      have cleared := distinguished.traced.cleared phase
      refine ⟨traced, ownMatches_of_cleared (fun request mem => (traced.requests request mem).2)
        cleared.2, fun _ response _ validating sameType => ?_, fun _ _ => Or.inl cleared⟩
      dsimp only at sameType
      rw [cleared.2] at sameType
      exact (distinguished.traced.not_expecting_of_cleared validating sameType).elim
  | @installs cmd next phase follows =>
      have idle : ¬w.attributes := by
        simpa only [TransmitsApart, phase] using apart
      have notRecorded := (distinguished.traced.sound.between (by simp [phase])
        (by simp [phase])).2
      refine ⟨traced, ?_, fun expectedSeq response isExpected validating => ?_,
        fun completes early => ?_⟩
      · rintro (⟨request, mem, owner⟩ | recorded)
        · exact absurd owner
            (distinguished.traced.untransmitted (by rw [phase]; rfl) request mem)
        · dsimp only at recorded
          rw [notRecorded] at recorded
          cases recorded
      · refine absurd ?_ idle
        dsimp only at isExpected validating
        rw [Process.attributes, validating, isExpected]
        rfl
      · refine absurd ?_ idle
        dsimp only at completes early
        cases picard : w.mux.picard <;> rw [picard] at completes <;>
          simp [PicardPhase.isCompleting, Process.attributes, picard] at completes ⊢
        exact early
  | clears =>
      refine ⟨traced, ownMatches_of_cleared (fun request mem => (traced.requests request mem).2)
        rfl, fun _ response _ validating sameType => ?_, fun _ _ => Or.inl ⟨rfl, rfl⟩⟩
      exact (distinguished.traced.not_expecting_of_cleared validating sameType).elim
  | @records cmd i frame phase notRecorded =>
      have unused : ∀ request ∈ w.received.drop (w.answered - 1),
          request.type = cmd.command.type → request.seqNo = w.mux.io.seqNo →
            request.owner = w.taken := by
        simp only [TransmitsApart, phase] at apart
        exact apart notRecorded
      have current : w.mux.currentCommand.command = cmd.command := by
        have agrees := distinguished.traced.sound.mux.agrees
        rw [phase] at agrees
        exact agrees.2
      refine ⟨traced, ?_, distinguished.expecting, distinguished.completing⟩
      intro _ index request reached found sameType sameSeqNo
      refine unused request ?_ (by rw [sameType, ← current]) sameSeqNo
      refine List.mem_of_getElem? (i := index - (w.answered - 1)) ?_
      rw [List.getElem?_drop, ← found]
      congr 1
      exact Nat.add_sub_cancel' reached
  | sends phase recorded =>
      refine ⟨traced, ?_, ?_, ?_⟩
      · intro _ index request reached found sameType sameSeqNo
        rcases getElem?_append_singleton found with old | ⟨-, rfl⟩
        · exact distinguished.ownMatches (Or.inr recorded) index request reached old sameType
            sameSeqNo
        · exact ofFrame_owner _ _
      · intro expectedSeq response isExpected validating sameType sameSeq
        obtain ⟨request, found, owner⟩ := distinguished.expecting expectedSeq response isExpected
          validating sameType sameSeq
        exact ⟨request, getElem?_kept _ found, owner⟩
      · intro completes early
        rcases distinguished.completing completes early with cleared | ⟨request, found, owner⟩
        · exact Or.inl cleared
        · exact Or.inr ⟨request, getElem?_kept _ found, owner⟩

/-- A statement of `commandComplete`. -/
theorem Distinguished.complete
    (distinguished : Distinguished w)
    (apart : w.ValidatesApart w.mux.picard) :
    Distinguished (w.step retries (.process .complete)).1 := by
  have traced := @Traced.step retries w distinguished.traced (.process .complete)
  rw [step_process (by simp) (by simp)] at traced ⊢
  by_cases crashed : w.mux.hasCrashed
  · rw [Process.step_of_crashed crashed]
    exact distinguished
  rw [Process.step_complete crashed] at traced ⊢
  have statement := Process.completeStep_statement w.toProcess
  generalize w.toProcess.completeStep = result at traced statement ⊢
  cases statement with
  | rests => exact distinguished
  | @expects response phase called =>
      refine distinguished.within traced rfl rfl rfl rfl ?_
        (fun completes early => Or.inl ⟨completes, early⟩)
      rintro _ other ⟨⟩ validating
      obtain rfl : other = response := by
        dsimp only at validating
        rw [phase] at validating
        exact (PicardPhase.validating.inj validating).symm
      right
      intro sameType sameSeq
      simp only [ValidatesApart, phase] at apart
      obtain ⟨-, request, found, isType, isSeqNo⟩ :=
        distinguished.traced.answering other (by rw [phase]; rfl)
      exact ⟨request, found, distinguished.ownMatches (Or.inl (apart called sameType sameSeq)) _
        request (Nat.le_refl _) found (isType.trans sameType) (isSeqNo.trans sameSeq)⟩
  | refuses =>
      exact distinguished.within traced rfl rfl rfl rfl (fun _ _ absurd => by cases absurd)
        (fun absurd => by cases absurd)
  | rejects phase expected sameType sameSeq | accepts phase expected sameType sameSeq =>
      refine distinguished.within traced rfl rfl rfl rfl (fun _ _ absurd => by cases absurd)
        (fun _ _ => Or.inr ?_)
      exact distinguished.expecting _ _ expected phase sameType sameSeq
  | restores phase =>
      refine distinguished.within traced rfl rfl rfl rfl (fun _ _ _ absurd => by cases absurd)
        (fun _ early => Or.inl ⟨by rw [phase]; rfl, early⟩)
  | marks phase stage =>
      refine distinguished.within traced rfl rfl rfl rfl ?_ ?_
      · exact fun _ _ before validating => Or.inl ⟨before, validating⟩
      · exact fun completes _ => Or.inl ⟨completes, by simp [stage]⟩
  | finds phase stage =>
      refine distinguished.within traced rfl rfl rfl rfl ?_ ?_
      · exact fun _ _ before validating => Or.inl ⟨before, validating⟩
      · exact fun completes _ => Or.inl ⟨completes, by simp [stage]⟩
  | skips =>
      exact distinguished.within traced rfl rfl rfl rfl (fun _ _ _ absurd => by cases absurd)
        (fun absurd => by cases absurd)
  | writes phase =>
      dsimp only at traced ⊢
      split at traced
      · rename_i subscribe
        rw [if_pos subscribe]
        refine distinguished.within traced rfl rfl rfl rfl ?_ (fun _ late => absurd rfl late)
        exact fun _ _ before validating => Or.inl ⟨before, validating⟩
      · rename_i other
        rw [if_neg other]
        exact distinguished.within traced rfl rfl rfl rfl (fun _ _ _ absurd => by cases absurd)
          (fun absurd => by cases absurd)
  | commits =>
      exact distinguished.within traced (by simp [Process.leave]) (by simp [Process.leave])
        (by simp [Process.leave]) rfl (fun _ _ _ absurd => by cases absurd)
        (fun absurd => by cases absurd)
  | crashes =>
      exact distinguished.within traced rfl rfl rfl rfl (fun _ _ _ absurd => by cases absurd)
        (fun absurd => by cases absurd)

/-- Picard answers a request. -/
theorem Distinguished.answer
    (distinguished : Distinguished w)
    (index : Nat)
    (respCode : Byte)
    (payload : ByteVector) :
    Distinguished (w.step retries (.answer index respCode payload)).1 := by
  have traced := @Traced.answer retries w distinguished.traced index respCode payload
  unfold World.step at traced ⊢
  dsimp only at traced ⊢
  split at traced
  case h_2 => exact distinguished
  case h_1 request found =>
  split_ifs at traced ⊢ with possible
  case neg => exact distinguished
  obtain ⟨reads, inOrder, short⟩ := possible
  have inRange := (distinguished.traced.requests request (List.mem_of_getElem? found)).2
  have reading : w.mux.picard = .reading := by
    simp only [World.reads, Bool.and_eq_true, beq_iff_eq] at reads
    exact reads.1
  have notExpecting := distinguished.traced.sound.not_expecting (by simp [reading])
  rw [step_answerFrame reads inRange short retries respCode] at traced ⊢
  refine ⟨traced, ?_, ?_, ?_⟩
  · intro sent other match' reached
    exact distinguished.ownMatches sent other match' (by dsimp only at reached; omega)
  · intro expectedSeq _ isExpected
    dsimp only [advance, List.foldl] at isExpected
    rw [notExpecting] at isExpected
    cases isExpected
  · intro completes
    dsimp only [advance, List.foldl] at completes
    split at completes <;> cases completes

theorem Distinguished.step
    (distinguished : Distinguished w)
    {action : WorldAction}
    (apart : w.KeepsApart action) :
    Distinguished (w.step retries action).1 := by
  have traced := @Traced.step retries w distinguished.traced action
  cases action with
  | process action =>
      by_cases loop : action = .loop
      · subst loop
        exact distinguished.loop (apart.1 rfl)
      by_cases complete : action = .complete
      · subst complete
        exact distinguished.complete (apart.2 rfl)
      by_cases receives : ∃ frame, action = .receive frame
      · obtain ⟨frame, rfl⟩ := receives
        exact distinguished
      have notReceive : ∀ frame, action ≠ .receive frame :=
        fun frame receive => receives ⟨frame, receive⟩
      obtain ⟨same, -⟩ := @Process.step_sameThreads retries w.toProcess action loop complete
        notReceive
      obtain ⟨result, current⟩ := same.current
      rw [step_process loop notReceive] at traced ⊢
      refine distinguished.within traced (by rw [current]) (by rw [current]) (by rw [current])
        same.recorded ?_ ?_
      · rw [same.expectedSeq, same.picard]
        exact fun _ _ before validating => Or.inl ⟨before, validating⟩
      · rw [same.block, same.picard]
        exact fun completes early => Or.inl ⟨completes, early⟩
  | answer index respCode payload => exact distinguished.answer index respCode payload
  | announce frame =>
      unfold World.step at traced ⊢
      dsimp only at traced ⊢
      split_ifs at traced ⊢ with announces
      case neg => exact distinguished
      obtain ⟨-, current, expectedSeq, block, recorded⟩ :=
        Process.step_receive_loop retries w.toProcess frame
      rw [advance_silent (receive_silent retries w.toProcess frame)] at traced ⊢
      refine distinguished.within traced (by rw [current]) (by rw [current]) (by rw [current])
        recorded ?_ ?_ <;>
        rcases step_announce_picard announces retries w.toProcess with same | stopped | crashed
      · rw [same, expectedSeq]
        exact fun _ _ before validating => Or.inl ⟨before, validating⟩
      · rw [stopped]
        exact fun _ _ _ absurd => by cases absurd
      · rw [crashed]
        exact fun _ _ _ absurd => by cases absurd
      · rw [same, block]
        exact fun completes early => Or.inl ⟨completes, early⟩
      · rw [stopped]
        exact fun absurd => by cases absurd
      · rw [crashed]
        exact fun absurd => by cases absurd

theorem start_traced (io : BasePicard) (protocolVersion : Byte) :
    Traced (start io protocolVersion) where
  sound := Process.start_sound io protocolVersion
  requests := by simp [start]
  forwarded := fun _ absurd => by cases absurd
  framed := fun _ _ _ absurd => by cases absurd
  untransmitted := fun absurd => by cases absurd
  answering := fun _ absurd => by cases absurd

theorem start_distinguished (io : BasePicard) (protocolVersion : Byte) :
    Distinguished (start io protocolVersion) where
  traced := start_traced io protocolVersion
  ownMatches := by
    rintro (⟨_, absurd, _⟩ | absurd) <;> cases absurd
  expecting := fun _ _ absurd => by cases absurd
  completing := fun absurd => by cases absurd

/-- In a run whose steps keep the commands apart, a response is attributed only
to the command that it answers, however often the numbers wrap around. -/
theorem responses_attributed
    (retries : Int)
    (io : BasePicard)
    (protocolVersion : Byte)
    (actions : List WorldAction)
    (apart : Machine.Meets (World.step retries) KeepsApart (start io protocolVersion)
      actions) :
    (Machine.run (World.step retries) (start io protocolVersion) actions).1.Attributed :=
  (Machine.state_invariant_run Distinguished (fun _ _ distinguished => distinguished.step)
    (start_distinguished io protocolVersion) apart).attributed

/-- A client subscribes, and the SUBSCRIBE is answered. -/
def answeredSubscribe : List WorldAction :=
  List.flatten [[.process (.addClient 1), .process (.addCommand 1 (subscribeTo 16))],
    List.replicate 14 (.process .loop), [.answer 0 0 []],
    List.replicate 2 (.process .complete)]

/-- A second HELLO_RESPONSE moves the number, and the next command is answered. -/
def answeredBehindHello : List WorldAction :=
  List.flatten [answeredSubscribe, List.replicate 4 (.process .complete),
    List.replicate 3 (.process .loop),
    [.announce [0, 2, 0, 5, 0, 4, 0, 9, 0],
      .process (.addCommand 1 (MuxMessage.ofPayload 42 [7]))],
    List.replicate 7 (.process .loop), [.answer 1 0 [], .process .complete, .process .complete]]

theorem responses_attributed_example :
    (Machine.run (World.step 1) (start {} 4) answeredBehindHello).1.Attributed :=
  responses_attributed 1 {} 4 answeredBehindHello (by decide +kernel)

/-- The client leaves, and the re-SUBSCRIBE is not answered in time. -/
def unansweredResubscribe : List WorldAction :=
  List.flatten [answeredSubscribe, List.replicate 4 (.process .complete),
    List.replicate 3 (.process .loop), [.process (.removeClient 1)],
    List.replicate 7 (.process .eraseClient), List.replicate 10 (.process .loop)]

/-- The SUBSCRIBE of another client is sent, and the re-SUBSCRIBE is answered. -/
def lateAnswer : List WorldAction :=
  List.flatten [unansweredResubscribe,
    [.process (.addClient 2), .process (.addCommand 2 (subscribeTo 32))],
    List.replicate 13 (.process .loop), [.answer 1 0 [], .process .complete, .process .complete]]

/-- The late answer marks the SUBSCRIBE of the other client, which is not answered, and is
written to that client. -/
theorem late_answer_is_misattributed :
    let reached := (Machine.run (World.step 1) (start {} 4) lateAnswer).1
    ¬reached.Attributed ∧ reached.answered = 2 ∧
      reached.received.map Request.owner = [1, 2, 3] ∧ reached.taken = 3 ∧
      (Machine.run (World.step 1) reached (List.replicate 3 (.process .complete))).2 =
        [.response 2 .commandComplete (MuxOutput.make Command.subscribe 0 0 [])] := by
  intro reached
  have late : reached.received[1]? =
      some { owner := 2, type := 22, seqNo := 1, payload := List.replicate 8 0 } := by
    decide +kernel
  refine ⟨fun attributed => ?_, by decide +kernel⟩
  rcases attributed { cmdType := 22, seqNo := 1, respCode := 0, payload := [] }
      (by decide +kernel) (by decide +kernel) with cleared | ⟨-, request, found, owner, -⟩
  · revert cleared
    unfold IsCleared
    decide +kernel
  · have position : reached.answered - 1 = 1 := by decide +kernel
    rw [position, late, Option.some.injEq] at found
    rw [← found] at owner
    revert owner
    decide +kernel

/-! ## The numbers of the requests -/

/-- The requests that can still be answered carry the next number or its
predecessor, and a frame that is built and not sent fits behind them. -/
def Numbered (w : World) : Prop :=
  ∃ boundary,
    Split nextSeqNo (w.received.map Request.seqNo) w.mux.io.seqNo (w.answered - 1)
      boundary ∧
    ∀ cmd i frame, w.mux.loop = .recording cmd i frame →
      (Request.ofFrame w.taken frame).seqNo = w.mux.io.seqNo ∨
        nextSeqNo (Request.ofFrame w.taken frame).seqNo = w.mux.io.seqNo ∧
          boundary = w.received.length

/-- No other frame than a response moves the number. -/
def GreetsOnce : WorldAction → Prop
  | .announce frame => frame[1]? ≠ some Command.helloResponse
  | .process _ | .answer _ _ _ => True

instance : (action : WorldAction) → Decidable (GreetsOnce action)
  | .announce _ => inferInstanceAs (Decidable (_ ≠ _))
  | .process _ | .answer _ _ _ => isTrue trivial

/-- The number and the requests stay, and no frame is built. -/
theorem Numbered.within
    (numbered : Numbered w)
    {next : Process}
    (seqNo : next.mux.io.seqNo = w.mux.io.seqNo)
    (built : ∀ cmd i frame, next.mux.loop = .recording cmd i frame →
      w.mux.loop = .recording cmd i frame ∨
        frame = BasePicard.commandFrame cmd.command w.mux.io.seqNo) :
    Numbered { w with toProcess := next } := by
  obtain ⟨boundary, split, old⟩ := numbered
  refine ⟨boundary, ?_, fun cmd i frame phase => ?_⟩
  · dsimp only
    rw [seqNo]
    exact split
  · dsimp only
    rw [seqNo]
    rcases built cmd i frame phase with before | rfl
    · exact old cmd i frame before
    · exact Or.inl rfl

theorem Numbered.loop
    (numbered : Numbered w) :
    Numbered (w.step retries (.process .loop)).1 := by
  have change := step_loop_change retries w
  generalize (w.step retries (.process .loop)).1 = next at change ⊢
  cases change with
  | stays => exact numbered
  | goesOn goesOn _ seqNo =>
      exact numbered.within seqNo fun cmd i frame built => Or.inr (goesOn.built cmd i frame built)
  | @accepts cmd phase =>
      obtain ⟨boundary, split, -⟩ := numbered
      refine ⟨boundary, split, fun other i frame built => ?_⟩
      have notBuilt : w.mux.dispatch cmd ≠ .recording other i frame :=
        Mux.dispatch_cases (fun next => next ≠ .recording other i frame)
          (fun _ => by simp) (fun _ _ _ => by simp) (fun _ _ _ => by simp)
          (fun _ _ => by simp)
      exact absurd built notBuilt
  | installs _ follows =>
      refine numbered.within rfl ?_
      rintro other i frame rfl
      rcases follows with absurd | absurd <;> cases absurd
  | clears => exact numbered.within rfl fun _ _ _ absurd => by cases absurd
  | records => exact numbered.within rfl fun _ _ _ => Or.inl
  | @sends cmd i frame phase =>
      obtain ⟨boundary, split, built⟩ := numbered
      rcases built cmd i frame phase with same | ⟨stale, last⟩
      · refine ⟨boundary, ?_, fun _ _ _ absurd => by cases absurd⟩
        simpa [same] using split.send
      · have atEnd : boundary = (w.received.map Request.seqNo).length := by
          rw [last, List.length_map]
        rw [atEnd] at split
        exact ⟨w.received.length + 1, by simpa using split.sendStale stale,
          fun _ _ _ absurd => by cases absurd⟩

theorem Numbered.answer
    (numbered : Numbered w)
    (traced : Traced w)
    (index : Nat)
    (respCode : Byte)
    (payload : ByteVector) :
    Numbered (w.step retries (.answer index respCode payload)).1 := by
  unfold World.step
  dsimp only
  split
  case h_2 => exact numbered
  case h_1 request found =>
  split_ifs with possible
  case neg => exact numbered
  obtain ⟨reads, inOrder, short⟩ := possible
  have reached : w.answered - 1 ≤ index := by omega
  have inRange := (traced.requests request (List.mem_of_getElem? found)).2
  rw [step_answerFrame reads inRange short retries respCode]
  obtain ⟨boundary, split, built⟩ := numbered
  have number : (w.received.map Request.seqNo)[index]? = some request.seqNo := by
    simp [found]
  rcases Nat.lt_or_ge index boundary with before | behind
  · have sameSeqNo : request.seqNo + 1 = w.mux.io.seqNo :=
      split.before index request.seqNo reached before number
    refine ⟨boundary, ?_, ?_⟩
    · change Split nextSeqNo _ (request.seqNo + 1) index boundary
      rw [sameSeqNo]
      exact split.answerBefore reached
    · change ∀ cmd i frame, w.mux.loop = _ → _ = request.seqNo + 1 ∨ _ ∧ _
      rw [sameSeqNo]
      exact built
  · have sameSeqNo : request.seqNo = w.mux.io.seqNo :=
      split.behind index request.seqNo reached behind number
    have early : index < w.received.length := (List.getElem?_eq_some_iff.1 found).1
    refine ⟨w.received.length, ?_, ?_⟩
    · change Split nextSeqNo _ (nextSeqNo request.seqNo) index _
      rw [sameSeqNo, ← w.received.length_map Request.seqNo]
      exact split.answerBehind reached behind
    · intro cmd i frame phase
      rcases built cmd i frame phase with same | ⟨-, last⟩
      · refine Or.inr ⟨?_, rfl⟩
        rw [sameSeqNo, ← same]
        rfl
      · omega

theorem Numbered.step
    (numbered : Numbered w)
    (traced : Traced w)
    {action : WorldAction}
    (once : GreetsOnce action) :
    Numbered (w.step retries action).1 := by
  cases action with
  | process action =>
      by_cases loop : action = .loop
      · subst loop
        exact numbered.loop
      by_cases receives : ∃ frame, action = .receive frame
      · obtain ⟨frame, rfl⟩ := receives
        exact numbered
      have notReceive : ∀ frame, action ≠ .receive frame :=
        fun frame receive => receives ⟨frame, receive⟩
      rw [step_process loop notReceive]
      refine numbered.within (Process.step_seqNo retries w.toProcess loop notReceive) ?_
      rw [(Process.step_commandThread retries w.toProcess loop).1]
      exact fun _ _ _ => Or.inl
  | answer index respCode payload => exact numbered.answer traced index respCode payload
  | announce frame =>
      unfold World.step
      dsimp only
      split_ifs with announces
      case neg => exact numbered
      rw [advance_silent (receive_silent retries w.toProcess frame)]
      refine numbered.within (step_announce_seqNo announces once retries w.toProcess) ?_
      rw [(Process.step_receive_loop retries w.toProcess frame).1]
      exact fun _ _ _ => Or.inl

/-- In a run without a second HELLO_RESPONSE, a request that can still be answered
carries the present number or its predecessor, however often the numbers wrap
around. -/
theorem answerable_numbers
    (retries : Int)
    (io : BasePicard)
    (protocolVersion : Byte)
    {actions : List WorldAction}
    (once : ∀ action ∈ actions, GreetsOnce action) :
    let reached := (Machine.run (World.step retries) (start io protocolVersion) actions).1
    ∀ request ∈ reached.received.drop (reached.answered - 1),
      request.seqNo = reached.mux.io.seqNo ∨
        nextSeqNo request.seqNo = reached.mux.io.seqNo := by
  intro reached request mem
  have initially : Traced (start io protocolVersion) ∧ Numbered (start io protocolVersion) :=
    ⟨start_traced io protocolVersion, 0, Split.nil, fun _ _ _ absurd => by cases absurd⟩
  obtain ⟨-, boundary, split, -⟩ := Machine.state_invariant_run
    (fun w => Traced w ∧ Numbered w)
    (fun _ action holds once => ⟨holds.1.step action, holds.2.step holds.1 once⟩) initially
    (@Machine.meets_of_forall _ _ _ (World.step retries) _ _ _ fun action mem _ => once action mem)
  obtain ⟨offset, found⟩ := List.getElem?_of_mem mem
  rw [List.getElem?_drop] at found
  have number : (reached.received.map Request.seqNo)[reached.answered - 1 + offset]? =
      some request.seqNo := by
    rw [List.getElem?_map, found]
    rfl
  rcases Nat.lt_or_ge (reached.answered - 1 + offset) boundary with before | behind
  · exact Or.inr (split.before _ _ (Nat.le_add_right _ _) before number)
  · exact Or.inl (split.behind _ _ (Nat.le_add_right _ _) behind number)

end World

end SerialMux
