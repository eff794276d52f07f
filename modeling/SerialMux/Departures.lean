import SerialMux.Delivery

/-!
# Departures of other clients

A departure marks whatever command is in progress as disconnected.  The account
of a command is what its outputs tell: how often it was transmitted, and what the
command thread decided.  As long as the command thread never reads the mark of a
departure, it gives a command up only after all transmissions have timed out, and
an answer that comes in time is written to the client and decides its command.
-/

namespace SerialMux

/-- What the outputs since a command was accepted tell about it. -/
structure Account where
  attempts : Nat := 0
  outcome : Option ClientResult := none
  deriving DecidableEq, Repr

namespace Account

/-- Take an output into account. -/
def add (account : Account) : Output → Account
  | .accepted _ => {}
  | .sent _ => { account with attempts := account.attempts + 1 }
  | .concluded result => { account with outcome := some result }
  | .response _ _ _ | .notified _ _ | .acked _ | .reset _ => account

/-- All transmissions were made, and the command thread found none answered. -/
def Exhausted (retries : Int) (account : Account) : Prop :=
  account.attempts = retries.toNat ∧ account.outcome = some .timeout

instance (retries : Int) (account : Account) : Decidable (account.Exhausted retries) :=
  inferInstanceAs (Decidable (_ ∧ _))

end Account

/-- The account of the command accepted last. -/
def account (outputs : List Output) : Account :=
  outputs.foldl Account.add {}

/-- The outputs with which the command thread gives a command up. -/
def Output.givesUp : Output → Bool
  | .response _ .commandTimeout _ | .reset .commandTimeout => true
  | _ => false

/-- The command is neither given up nor followed by another. -/
def Output.goesOn (output : Output) : Bool :=
  match output with
  | .accepted _ => false
  | _ => !output.givesUp

/-- The command is not given up before the next one is accepted. -/
def NotGivenUp : List Output → Prop
  | [] => True
  | .accepted _ :: _ => True
  | output :: rest => ¬output.givesUp ∧ NotGivenUp rest

theorem notGivenUp_append
    {earlier later : List Output}
    (goesOn : ∀ output ∈ earlier, output.goesOn)
    (notGivenUp : NotGivenUp later) :
    NotGivenUp (earlier ++ later) := by
  induction earlier with
  | nil => exact notGivenUp
  | cons output rest inductionHypothesis =>
      obtain ⟨first, others⟩ := List.forall_mem_cons.mp goesOn
      have last := inductionHypothesis others
      cases output with
      | accepted => trivial
      | _ => exact ⟨by simpa [Output.goesOn] using first, last⟩

/-- Each output that gives a command up comes when all its transmissions have
timed out. -/
def GivesUpExhausted (retries : Int) : Account → List Output → Prop
  | _, [] => True
  | account, output :: rest =>
      (output.givesUp → account.Exhausted retries) ∧
        GivesUpExhausted retries (account.add output) rest

theorem givesUpExhausted_append
    {retries : Int}
    {account : Account}
    {earlier later : List Output} :
    GivesUpExhausted retries account (earlier ++ later) ↔
      GivesUpExhausted retries account earlier ∧
        GivesUpExhausted retries (earlier.foldl Account.add account) later := by
  induction earlier generalizing account with
  | nil => simp [GivesUpExhausted]
  | cons output rest inductionHypothesis =>
      simp only [List.cons_append, GivesUpExhausted, inductionHypothesis, List.foldl_cons,
        and_assoc]

theorem givesUpExhausted_split
    {retries : Int}
    {account : Account}
    {earlier later : List Output}
    {output : Output}
    (justified : GivesUpExhausted retries account (earlier ++ output :: later))
    (givesUp : output.givesUp) :
    (earlier.foldl Account.add account).Exhausted retries :=
  (givesUpExhausted_append.1 justified).2.1 givesUp

/-- The output neither changes the account nor gives a command up. -/
def Output.isNeutral : Output → Bool
  | .response _ sender _ => sender != .commandTimeout
  | .reset caller => caller != .commandTimeout
  | .notified _ _ | .acked _ => true
  | .accepted _ | .sent _ | .concluded _ => false

theorem Output.neutral_of_passive
    {output : Output}
    (passive : output.isPassive) :
    output.isNeutral := by
  cases output with
  | reset caller => cases caller <;> simp_all [Output.isPassive, Output.isNeutral]
  | _ => simp_all [Output.isPassive, Output.isNeutral]

theorem Output.goesOn_of_neutral
    {output : Output}
    (neutral : output.isNeutral) :
    output.goesOn := by
  cases output with
  | response client sender resp => cases sender <;> simp_all [isNeutral, goesOn, givesUp]
  | reset caller => cases caller <;> simp_all [isNeutral, goesOn, givesUp]
  | _ => simp_all [isNeutral, goesOn, givesUp]

/-- Such outputs say nothing about the command. -/
theorem neutral_accounts
    (retries : Int)
    {outputs : List Output}
    (neutral : ∀ output ∈ outputs, output.isNeutral)
    (account : Account) :
    outputs.foldl Account.add account = account ∧
      GivesUpExhausted retries account outputs := by
  induction outputs with
  | nil => exact ⟨rfl, trivial⟩
  | cons output rest inductionHypothesis =>
      obtain ⟨first, others⟩ := List.forall_mem_cons.mp neutral
      obtain ⟨same, justified⟩ := inductionHypothesis others
      have kept : account.add output = account := by
        cases output <;> simp_all [Output.isNeutral, Account.add]
      have notGivenUp : ¬output.givesUp := by
        cases output with
        | response client sender resp =>
            cases sender <;> simp_all [Output.isNeutral, Output.givesUp]
        | reset caller => cases caller <;> simp_all [Output.isNeutral, Output.givesUp]
        | _ => simp_all [Output.isNeutral, Output.givesUp]
      refine ⟨?_, fun givenUp => absurd givenUp notGivenUp, ?_⟩
      · rw [List.foldl_cons, kept, same]
      · rw [kept]
        exact justified

/-- What the account of a command says while the command thread stands at a
statement. -/
def LoopPhase.Accounts (retries : Int) (account : Account) : LoopPhase → Prop
  | .replying _ sender _ => sender = .muxInfo ∨ sender = .commandError
  | .subscribing _ | .recomputing _ | .rewriting _ | .installing _ => account = {}
  | .sending _ i | .recording _ i _ =>
      (i : Int) < retries ∧ account.attempts = i ∧ account.outcome = none
  | .waiting _ i => (i : Int) < retries ∧ account.attempts = i + 1 ∧ account.outcome = none
  | .concluding _ result =>
      result ≠ .disconnect ∧ account.outcome = some result ∧
        (result = .timeout → account.Exhausted retries)
  | .restoring _ | .resetting _ | .timingOut _ | .disconnecting _ => account.Exhausted retries
  | .starting | .checking | .popping | .finding _ | .clearing _ | .finished
  | .crashed => True

/-- Where the command thread stands with a command that is answered, or marked by a
departure whose mark it will not read. -/
def LoopPhase.Answered (result : ClientResult) : LoopPhase → Prop
  | .sending _ _ | .recording _ _ _ | .waiting _ _ => result ≠ .timeout
  | .concluding _ decided => decided = .ok
  | .replying _ _ _ | .subscribing _ | .recomputing _ | .rewriting _ | .installing _
  | .restoring _ | .resetting _ | .timingOut _ | .disconnecting _ => False
  | .starting | .checking | .popping | .finding _ | .clearing _ | .finished | .crashed => True

namespace Mux

variable {retries : Int} {m : Mux}

theorem attempt_accounts
    {cmd : ClientCommand}
    {i : Nat}
    {result : ClientResult}
    {account : Account}
    (attempts : account.attempts = i)
    (undecided : account.outcome = none)
    (notDeparted : result ≠ .disconnect)
    (within : (i : Int) ≤ max retries 0) :
    (attempt retries cmd i result).1.Accounts retries
        ((attempt retries cmd i result).2.foldl Account.add account) ∧
      GivesUpExhausted retries account (attempt retries cmd i result).2 := by
  refine attempt_cases (fun next =>
    next.1.Accounts retries (next.2.foldl Account.add account) ∧
      GivesUpExhausted retries account next.2) ?_ ?_
  · intro _ goesOn
    exact ⟨⟨goesOn, attempts, undecided⟩, trivial⟩
  · intro stops
    refine ⟨⟨notDeparted, rfl, fun timeout => ⟨?_, congrArg some timeout⟩⟩,
      by simp [GivesUpExhausted, Output.givesUp]⟩
    have exhausted : retries ≤ i := stops.resolve_left (not_not.2 timeout)
    change account.attempts = retries.toNat
    omega

theorem dispatch_accounts (cmd : ClientCommand) :
    (m.dispatch cmd).Accounts retries {} := by
  refine dispatch_cases (fun next => next.Accounts retries {}) ?_ ?_ ?_ ?_
  · exact fun _ => trivial
  · exact fun _ _ sender => sender
  · exact fun _ _ _ => rfl
  · exact fun _ _ => rfl

theorem sendResponse_neutral
    (client : Option ClientId)
    {sender : Sender}
    (resp : MuxOutput)
    (notTimeout : sender ≠ .commandTimeout) :
    ∀ output ∈ sendResponse client sender resp, output.isNeutral := by
  cases client <;> simp [sendResponse, Output.isNeutral, notTimeout]

/-- The statements that the command thread shares with `Mux`. -/
theorem loopStep_accounts
    {account : Account}
    (accounts : m.loop.Accounts retries account)
    (reads : m.loop.isWaiting → m.currentCommand.result ≠ .disconnect) :
    (m.loopStep retries).1.loop.Accounts retries
        ((m.loopStep retries).2.foldl Account.add account) ∧
      GivesUpExhausted retries account (m.loopStep retries).2 := by
  cases phase : m.loop <;> rw [phase] at accounts <;> simp only [Mux.loopStep, phase]
  case starting => exact ⟨trivial, trivial⟩
  case checking => exact ⟨by split <;> trivial, trivial⟩
  case popping => split <;> exact ⟨trivial, trivial⟩
  case finding cmd =>
      split
      · exact ⟨dispatch_accounts cmd, by simp [GivesUpExhausted, Output.givesUp]⟩
      · exact ⟨trivial, trivial⟩
  case replying cmd sender resp =>
      have notTimeout : sender ≠ .commandTimeout := by rcases accounts with rfl | rfl <;> simp
      exact ⟨trivial, (neutral_accounts retries
        (sendResponse_neutral cmd.client resp notTimeout) account).2⟩
  case subscribing cmd => split <;> exact ⟨by first | exact accounts | trivial, trivial⟩
  case recomputing => exact ⟨accounts, trivial⟩
  case rewriting => split <;> exact ⟨by first | exact accounts | trivial, trivial⟩
  case installing cmd =>
      rw [show account = {} from accounts]
      exact attempt_accounts rfl rfl (by simp) (by simp)
  case sending => exact ⟨accounts, trivial⟩
  case recording cmd i frame =>
      obtain ⟨within, attempts, undecided⟩ := accounts
      refine ⟨⟨within, ?_, undecided⟩, by simp [GivesUpExhausted, Output.givesUp]⟩
      simp [Account.add, attempts]
  case waiting cmd i =>
      obtain ⟨within, attempts, undecided⟩ := accounts
      exact attempt_accounts attempts undecided (reads (by rw [phase]; rfl)) (by omega)
  case concluding cmd result =>
      obtain ⟨notDeparted, outcome, exhausted⟩ := accounts
      split
      · rename_i failed
        have timeout : result = .timeout := by cases result <;> simp_all
        split <;> exact ⟨exhausted timeout, trivial⟩
      · exact ⟨trivial, trivial⟩
  case restoring => exact ⟨accounts, trivial⟩
  case resetting => exact ⟨accounts, trivial⟩
  case timingOut cmd =>
      cases owner : cmd.client with
      | none => exact ⟨accounts, trivial⟩
      | some client => exact ⟨accounts, fun _ => accounts, trivial⟩
  case disconnecting =>
      have justified : GivesUpExhausted retries account [.reset .commandTimeout] :=
        ⟨fun _ => accounts, trivial⟩
      split <;> exact ⟨trivial, justified⟩
  case clearing => exact ⟨trivial, trivial⟩
  case finished => exact ⟨trivial, trivial⟩
  case crashed => exact ⟨trivial, trivial⟩

end Mux

namespace Process

variable {retries : Int} {p : Process} {outputs : List Output}

/-- The command thread does not read the mark of a departure as the result of a
command. -/
def ReadsNoDeparture (p : Process) (action : Action) : Prop :=
  action = .loop → p.mux.loop.isWaiting → p.block = none →
    p.mux.currentCommand.result ≠ .disconnect

instance (p : Process) (action : Action) : Decidable (ReadsNoDeparture p action) :=
  inferInstanceAs (Decidable (_ → _ → _ → _))

/-- What holds along the runs that read no mark of a departure. -/
structure Accounted (retries : Int) (p : Process) (outputs : List Output) : Prop where
  accounts : p.mux.loop.Accounts retries (account outputs)
  justified : GivesUpExhausted retries {} outputs

theorem Accounted.extend
    (accounted : Accounted retries p outputs)
    {next : Process}
    {more : List Output}
    (step : next.mux.loop.Accounts retries (more.foldl Account.add (account outputs)) ∧
      GivesUpExhausted retries (account outputs) more) :
    Accounted retries next (outputs ++ more) where
  accounts := by
    rw [account, List.foldl_append]
    exact step.1
  justified := givesUpExhausted_append.2 ⟨accounted.justified, step.2⟩

/-- Outputs that say nothing about the command, and the command thread where it was. -/
theorem Accounted.neutral
    (accounted : Accounted retries p outputs)
    {next : Process}
    {more : List Output}
    (loop : next.mux.loop = p.mux.loop)
    (neutral : ∀ output ∈ more, output.isNeutral) :
    Accounted retries next (outputs ++ more) := by
  obtain ⟨same, justified⟩ := neutral_accounts retries neutral (account outputs)
  refine accounted.extend ⟨?_, justified⟩
  rw [same, loop]
  exact accounted.accounts

theorem Accounted.loop
    (accounted : Accounted retries p outputs)
    (running : ¬p.mux.hasCrashed)
    (reads : p.ReadsNoDeparture .loop) :
    Accounted retries (p.loopStep retries).1 (outputs ++ (p.loopStep retries).2) := by
  have accounts := accounted.accounts
  have statement := @loopStep_statement retries p running
  generalize p.loopStep retries = result at statement ⊢
  cases statement with
  | waits | unites | compares | saves | records =>
      exact accounted.neutral rfl (by simp)
  | stores phase =>
      rw [phase] at accounts
      exact accounted.extend ⟨accounts, trivial⟩
  | sends phase =>
      rw [phase] at accounts
      obtain ⟨within, attempts, undecided⟩ := accounts
      refine accounted.extend ⟨⟨within, ?_, undecided⟩, by simp [GivesUpExhausted, Output.givesUp]⟩
      simp [Account.add, attempts]
  | whole _ _ unlocked =>
      refine accounted.extend (Mux.loopStep_accounts accounts fun waiting => ?_)
      exact reads rfl waiting (unlocked waiting)

/-- The statements of `commandComplete` write responses only. -/
theorem completeStep_neutral (p : Process) :
    ∀ output ∈ p.completeStep.2, output.isNeutral := by
  have statement := completeStep_statement p
  generalize p.completeStep = result at statement ⊢
  cases statement with
  | writes => exact Mux.sendResponse_neutral _ _ (by simp)
  | _ => simp

/-- The threads other than the command thread say nothing about its command. -/
theorem step_neutral
    {action : Action}
    (notLoop : action ≠ .loop) :
    ∀ output ∈ (p.step retries action).2, output.isNeutral := by
  by_cases crashed : p.mux.hasCrashed
  · rw [step_of_crashed crashed]
    simp
  by_cases complete : action = .complete
  · subst complete
    rw [step_complete crashed]
    exact completeStep_neutral p
  by_cases receives : ∃ frame, action = .receive frame
  · obtain ⟨frame, rfl⟩ := receives
    exact fun output mem =>
      Output.neutral_of_passive (step_receive_passive retries p frame output mem)
  · rw [(@step_sameThreads retries p action notLoop complete
      fun frame receive => receives ⟨frame, receive⟩).2]
    simp

theorem step_accounted
    {action : Action}
    (accounted : Accounted retries p outputs)
    (reads : p.ReadsNoDeparture action) :
    Accounted retries (p.step retries action).1 (outputs ++ (p.step retries action).2) := by
  by_cases loop : action = .loop
  · subst loop
    by_cases crashed : p.mux.hasCrashed
    · rw [step_of_crashed crashed]
      exact accounted.neutral rfl (by simp)
    rw [step_loop crashed]
    exact accounted.loop crashed reads
  · exact accounted.neutral (step_commandThread retries p loop).1 (step_neutral loop)

theorem start_accounted (retries : Int) (io : BasePicard) (protocolVersion : Byte) :
    Accounted retries (start io protocolVersion) [] where
  accounts := trivial
  justified := trivial

/-! ## An answer in time -/

/-- The command thread stands so. -/
def Answered (p : Process) : Prop :=
  p.mux.loop.Answered p.mux.currentCommand.result

/-- The command thread goes on with the command, or accepts the next one. -/
theorem loopStep_answered
    {m : Mux}
    (answered : m.loop.Answered m.currentCommand.result)
    (notRecording : ∀ cmd i frame, m.loop ≠ .recording cmd i frame)
    (reads : m.loop.isWaiting → m.currentCommand.result ≠ .disconnect) :
    (m.loopStep retries).1.loop.Answered (m.loopStep retries).1.currentCommand.result ∧
        (∀ output ∈ (m.loopStep retries).2, output.goesOn) ∨
      ∃ cmd, (m.loopStep retries).2 = [.accepted cmd] := by
  cases phase : m.loop <;> rw [phase] at answered <;> simp only [Mux.loopStep, phase]
  case starting => exact Or.inl ⟨trivial, by simp⟩
  case checking => exact Or.inl ⟨by split <;> trivial, by simp⟩
  case popping => split <;> exact Or.inl ⟨trivial, by simp⟩
  case finding cmd =>
      split
      · exact Or.inr ⟨cmd, rfl⟩
      · exact Or.inl ⟨trivial, by simp⟩
  case sending => exact Or.inl ⟨answered, by simp⟩
  case recording cmd i frame => exact absurd phase (notRecording cmd i frame)
  case waiting cmd i =>
      have isOk : m.currentCommand.result = .ok := by
        have notDeparted := reads (by rw [phase]; rfl)
        cases read : m.currentCommand.result <;> simp_all [LoopPhase.Answered]
      left
      exact Mux.attempt_cases
        (fun next => next.1.Answered m.currentCommand.result ∧ ∀ output ∈ next.2, output.goesOn)
        (fun timeout _ => absurd timeout answered)
        (fun _ => ⟨isOk, by simp [Output.goesOn, Output.givesUp]⟩)
  case concluding cmd decided =>
      rw [if_neg fun failed => failed.1 answered]
      exact Or.inl ⟨trivial, by simp⟩
  case clearing | finished | crashed => exact Or.inl ⟨trivial, by simp⟩
  all_goals cases answered

/-- The other threads leave the command thread where it is. -/
theorem Answered.aside
    (answered : p.Answered)
    {action : Action}
    (notLoop : action ≠ .loop) :
    (p.step retries action).1.Answered ∧
      ∀ output ∈ (p.step retries action).2, output.goesOn := by
  constructor
  · have result := @step_result retries p action notLoop
    rw [Answered, (step_commandThread retries p notLoop).1]
    unfold Answered at answered
    cases phase : p.mux.loop <;> rw [phase] at answered
    case sending | recording | waiting => exact result answered
    all_goals exact answered
  · exact fun output mem => Output.goesOn_of_neutral (step_neutral notLoop output mem)

theorem step_answered
    {action : Action}
    (answered : p.Answered)
    (reads : p.ReadsNoDeparture action) :
    (p.step retries action).1.Answered ∧
        (∀ output ∈ (p.step retries action).2, output.goesOn) ∨
      ∃ cmd, (p.step retries action).2 = [.accepted cmd] := by
  by_cases crashed : p.mux.hasCrashed
  · rw [step_of_crashed crashed]
    exact Or.inl ⟨answered, by simp⟩
  by_cases loop : action = .loop
  · subst loop
    rw [step_loop crashed]
    unfold Answered at answered ⊢
    have statement := @loopStep_statement retries p crashed
    generalize p.loopStep retries = next at statement ⊢
    cases statement with
    | waits => exact Or.inl ⟨answered, by simp⟩
    | unites phase | compares phase | saves phase | stores phase =>
        rw [phase] at answered
        cases answered
    | records => exact Or.inl ⟨answered, by simp⟩
    | sends phase =>
        rw [phase] at answered
        exact Or.inl ⟨answered, by simp [Output.goesOn, Output.givesUp]⟩
    | whole _ notRecording unlocked =>
        exact loopStep_answered answered notRecording fun waiting =>
          reads rfl waiting (unlocked waiting)
  · exact Or.inl (answered.aside loop)

/-- From there on, the command is not given up. -/
theorem run_answered
    (answered : p.Answered)
    {actions : List Action}
    (reads : Machine.Meets (step retries) ReadsNoDeparture p actions) :
    NotGivenUp (Machine.run (step retries) p actions).2 := by
  induction actions generalizing p with
  | nil => trivial
  | cons action rest inductionHypothesis =>
      rw [Machine.run_cons]
      rcases @step_answered retries p action answered reads.1 with ⟨kept, goesOn⟩ | ⟨cmd, accepts⟩
      · exact notGivenUp_append goesOn (inductionHypothesis kept reads.2)
      · rw [accepts]
        trivial

/-- Until the block of `commandComplete` is entered, the command thread finds no other answer
and does not make its last wait out, and until the number is read, it records no other. -/
def AwaitsBlock (retries : Int) (p : Process) : LoopPhase → Prop
  | .waiting _ i =>
      p.block.isSome ∨ p.mux.currentCommand.result ≠ .ok ∧ (i : Int) + 1 < retries
  | phase => p.KeepsCurrent phase

/-- The steps with which an answer comes in time. -/
def AwaitsAnswer (retries : Int) (p : Process) (action : Action) : Prop :=
  action = .loop → p.AwaitsBlock retries p.mux.loop

instance (p : Process) : (phase : LoopPhase) → Decidable (AwaitsBlock retries p phase)
  | .waiting _ _ => inferInstanceAs (Decidable (_ ∨ _ ∧ _))
  | .recording cmd i frame => inferInstanceAs (Decidable (p.KeepsCurrent (.recording cmd i frame)))
  | .installing _ | .clearing _ => isFalse id
  | .starting | .checking | .popping | .finding _ | .replying _ _ _ | .subscribing _
  | .recomputing _ | .rewriting _ | .sending _ _ | .concluding _ _ | .restoring _
  | .resetting _ | .timingOut _ | .disconnecting _ | .finished | .crashed => isTrue trivial

instance (p : Process) (action : Action) : Decidable (AwaitsAnswer retries p action) :=
  inferInstanceAs (Decidable (_ → _))

variable {client : ClientId} {response : Response} {left : Nat}

/-- An answer to the command that the command thread transmits is handled; inside the block
the command is marked. -/
structure InTime (client : ClientId) (response : Response) (left : Nat) (p : Process) :
    Prop where
  answering : Answering client response left p
  transmitting : p.mux.loop.transmitting
  marked : left ≤ 2 → p.mux.currentCommand.result ≠ .timeout

theorem InTime.running
    (inTime : InTime client response left p) :
    ¬p.mux.hasCrashed := by
  refine Mux.not_hasCrashed_iff.mpr ⟨fun crashed => ?_, fun crashed => ?_⟩
  · have transmitting := inTime.transmitting
    rw [crashed] at transmitting
    cases transmitting
  · cases inTime.answering.handling with
    | expects phase | compares phase | restores phase | enters phase | tests phase
    | writes phase =>
        rw [crashed] at phase
        cases phase

theorem InTime.leaves
    (inTime : InTime client response left p)
    (awaits : p.AwaitsBlock retries p.mux.loop) :
    p.KeepsCurrent p.mux.loop := by
  have transmitting := inTime.transmitting
  cases phase : p.mux.loop <;> rw [phase] at transmitting awaits
  case recording => exact awaits
  case sending | waiting => trivial
  all_goals cases transmitting

/-- The command thread does not get past its last wait. -/
theorem InTime.loop
    (inTime : InTime client response left p)
    (awaits : p.AwaitsBlock retries p.mux.loop)
    (reads : p.ReadsNoDeparture .loop) :
    InTime client response left (p.loopStep retries).1 ∧
      ∀ output ∈ (p.loopStep retries).2, output.goesOn := by
  have running := inTime.running
  have answering :=
    (@Answering.loop retries client response p left inTime.answering running
      (inTime.leaves awaits)).1
  have transmitting := inTime.transmitting
  have statement := @loopStep_statement retries p running
  generalize p.loopStep retries = result at answering statement ⊢
  cases statement with
  | waits => exact ⟨inTime, by simp⟩
  | unites phase | compares phase | saves phase | stores phase =>
      rw [phase] at transmitting
      cases transmitting
  | records => exact ⟨⟨answering, transmitting, inTime.marked⟩, by simp⟩
  | sends =>
      exact ⟨⟨answering, rfl, inTime.marked⟩, by simp [Output.goesOn, Output.givesUp]⟩
  | whole _ notRecording unlocked =>
      cases phase : p.mux.loop <;> rw [phase] at transmitting awaits
      case sending =>
          simp only [Mux.loopStep, phase] at answering ⊢
          exact ⟨⟨answering, rfl, inTime.marked⟩, by simp⟩
      case recording cmd i frame => exact absurd phase (notRecording cmd i frame)
      case waiting cmd i =>
          have waiting : p.mux.loop.isWaiting := by
            rw [phase]
            rfl
          have outside := unlocked waiting
          rw [AwaitsBlock, outside] at awaits
          obtain ⟨unanswered, goesOn⟩ := awaits.resolve_left (by simp)
          have notDeparted := reads rfl waiting outside
          have timeout : p.mux.currentCommand.result = .timeout := by
            cases read : p.mux.currentCommand.result <;> simp_all
          have again : Mux.attempt retries cmd (i + 1) p.mux.currentCommand.result =
              (.sending cmd (i + 1), []) := by
            rw [Mux.attempt, if_pos ⟨timeout, by push_cast; exact goesOn⟩]
          simp only [Mux.loopStep, phase, again] at answering ⊢
          exact ⟨⟨answering, rfl, inTime.marked⟩, by simp⟩
      all_goals cases transmitting

/-- A statement of `commandComplete` in front of the write. -/
theorem InTime.complete
    (inTime : InTime client response left p)
    (early : left ≠ 1) :
    InTime client response (left - 1) p.completeStep.1 ∧ p.completeStep.2 = [] := by
  have running := inTime.running
  obtain ⟨answering, silent⟩ := inTime.answering.complete early
  have loop := (@step_commandThread 0 p .complete (by simp)).1
  rw [step_complete running] at loop
  refine ⟨⟨answering, loop ▸ inTime.transmitting, fun inside => ?_⟩, silent⟩
  have marked := inTime.marked
  cases inTime.answering.handling with
  | expects | compares | restores => omega
  | enters phase stage => simp [completeStep, phase, blockStep, stage]
  | tests phase stage =>
      have kept := @step_result 0 p .complete (by simp) (marked (le_refl 2))
      rwa [step_complete running] at kept
  | writes => exact absurd rfl early

/-- The other threads do not keep the answer from coming in time. -/
theorem InTime.aside
    (inTime : InTime client response left p)
    {action : Action}
    (notLoop : action ≠ .loop)
    (notComplete : action ≠ .complete) :
    InTime client response left (p.step retries action).1 ∧
      ∀ output ∈ (p.step retries action).2, output.goesOn := by
  refine ⟨⟨(inTime.answering.aside notLoop notComplete).1, ?_, fun inside => ?_⟩, ?_⟩
  · rw [(step_commandThread retries p notLoop).1]
    exact inTime.transmitting
  · exact step_result retries p notLoop (inTime.marked inside)
  · exact fun output mem => Output.goesOn_of_neutral (step_neutral notLoop output mem)

/-- Every interleaving with fewer statements of `commandComplete` leads on towards the
response, and the command goes on. -/
theorem run_inTime
    (inTime : InTime client response left p)
    {actions : List Action}
    (awaits : Machine.Meets (step retries) (AwaitsAnswer retries) p actions)
    (reads : Machine.Meets (step retries) ReadsNoDeparture p actions)
    (early : actions.count .complete < left) :
    InTime client response (left - actions.count .complete)
        (Machine.run (step retries) p actions).1 ∧
      ∀ output ∈ (Machine.run (step retries) p actions).2, output.goesOn := by
  induction actions generalizing p left with
  | nil => exact ⟨inTime, by simp⟩
  | cons action rest inductionHypothesis =>
      have running := inTime.running
      rw [Machine.run_cons, List.forall_mem_append]
      by_cases complete : action = .complete
      · subst complete
        rw [List.count_cons_self] at early ⊢
        have next := inTime.complete (by omega)
        rw [← @step_complete retries p running] at next
        obtain ⟨reached, goesOn⟩ := inductionHypothesis next.1 awaits.2 reads.2 (by omega)
        have fewer : left - 1 - rest.count .complete = left - (rest.count .complete + 1) := by
          omega
        rw [fewer] at reached
        exact ⟨reached, by simp [next.2], goesOn⟩
      · rw [List.count_cons_of_ne (fun same => complete same)] at early ⊢
        have next : InTime client response left (p.step retries action).1 ∧
            ∀ output ∈ (p.step retries action).2, output.goesOn := by
          by_cases loop : action = .loop
          · subst loop
            rw [step_loop running]
            exact inTime.loop (awaits.1 rfl) reads.1
          · exact inTime.aside loop complete
        obtain ⟨reached, goesOn⟩ := inductionHypothesis next.1 awaits.2 reads.2 early
        exact ⟨reached, next.2, goesOn⟩

/-- An answer in time is written to the client, and the command is not given up. -/
structure GetsResponse (retries : Int) (p : Process) (client : ClientId) (response : Response)
    (during : List Action) : Prop where
  written : ((Machine.run (step retries) p (.receive response.frame :: during)).1.step retries
    .complete).2 = [.response client .commandComplete response.output]
  notGivenUp : ∀ after,
    Machine.Meets (step retries) ReadsNoDeparture p
      (.receive response.frame :: during ++ .complete :: after) →
    NotGivenUp (Machine.run (step retries) p
      (.receive response.frame :: during ++ .complete :: after)).2

theorem getsResponse
    (inTime : InTime client response (response.restoring + 5)
      (p.step retries (.receive response.frame)).1)
    (silent : (p.step retries (.receive response.frame)).2 = [])
    {during : List Action}
    (awaits : Machine.Meets (step retries) (AwaitsAnswer retries)
      (p.step retries (.receive response.frame)).1 during)
    (reads : Machine.Meets (step retries) ReadsNoDeparture
      (p.step retries (.receive response.frame)).1 during)
    (last : during.count .complete = response.restoring + 4) :
    GetsResponse retries p client response during := by
  obtain ⟨reached, goesOn⟩ := run_inTime inTime awaits reads (by omega)
  have one : response.restoring + 5 - during.count .complete = 1 := by omega
  rw [one] at reached
  have written := reached.answering.written
  rw [← @step_complete retries _ reached.running] at written
  have answered : ((Machine.run (step retries) p
      (.receive response.frame :: during)).1.step retries .complete).1.Answered := by
    have transmitting := reached.transmitting
    have result := @step_result retries _ .complete (by simp) (reached.marked (by omega))
    rw [Answered, (step_commandThread retries _ (by simp)).1, Machine.run_cons]
    generalize (Machine.run (step retries) (p.step retries (.receive response.frame)).1
      during).1 = before at transmitting result ⊢
    cases phase : before.mux.loop <;> rw [phase] at transmitting
    case sending | recording | waiting => exact result
    all_goals cases transmitting
  constructor
  · rw [Machine.run_cons]
    exact written
  · intro after readsAll
    have readsAfter := (Machine.meets_append.mp readsAll).2.2
    have goesOnBefore : ∀ output ∈
        (Machine.run (step retries) p (.receive response.frame :: during)).2, output.goesOn := by
      rw [Machine.run_cons, silent]
      exact goesOn
    rw [Machine.run_append, Machine.run_cons]
    refine notGivenUp_append goesOnBefore (notGivenUp_append ?_ (run_answered answered readsAfter))
    rw [Machine.run_cons, written]
    simp [Output.goesOn, Output.givesUp]

/-! ## The departure itself -/

/-- What one step of a departure leaves to the other clients: their
registrations, the connection, and the command in progress except its result. -/
structure Spares (retries : Int) (p : Process) (action : Action) (other : ClientId) : Prop where
  registered : other ∈ (p.step retries action).1.mux.clients
  silent : (p.step retries action).2 = []
  current : ∃ result, (p.step retries action).1.mux.currentCommand =
    { p.mux.currentCommand with result := result }

/-- The mark of a departure changes no registration. -/
theorem spares_removeClient
    (retries : Int)
    (p : Process)
    (leaving : ClientId)
    {other : ClientId}
    (registered : other ∈ p.mux.clients) :
    Spares retries p (.removeClient leaving) other := by
  have same := @step_sameThreads retries p (.removeClient leaving) (by simp) (by simp) (by simp)
  refine ⟨?_, same.2, same.1.current⟩
  by_cases crashed : p.mux.hasCrashed
  · rw [step_of_crashed crashed]
    exact registered
  · rw [step_removeClient crashed]
    unfold removeClient
    split <;> exact registered

/-- A statement of `removeClient` erases the client that leaves and no other. -/
theorem spares_eraseClient
    (retries : Int)
    {p : Process}
    {leaving other : ClientId}
    (isLeaving : p.mux.removing = some leaving)
    (different : other ≠ leaving)
    (registered : other ∈ p.mux.clients) :
    Spares retries p .eraseClient other := by
  have same := @step_sameThreads retries p .eraseClient (by simp) (by simp) (by simp)
  refine ⟨?_, same.2, same.1.current⟩
  by_cases crashed : p.mux.hasCrashed
  · rw [step_of_crashed crashed]
    exact registered
  · rw [step_eraseClient crashed]
    have statement := removalStep_statement p
    generalize p.removalStep = next at statement ⊢
    cases statement with
    | erases removing =>
        obtain rfl := Option.some.inj (removing.symm.trans isLeaving)
        exact (List.mem_erase_of_ne different).2 registered
    | _ => exact registered

theorem AnswerArrives.inTime
    (arrives : p.AnswerArrives client response)
    (sound : p.Sound)
    (transmitting : p.mux.loop.transmitting)
    (retries : Int) :
    InTime client response (response.restoring + 5)
        (p.step retries (.receive response.frame)).1 ∧
      (p.step retries (.receive response.frame)).2 = [] := by
  have running : ¬p.mux.hasCrashed := by
    refine Mux.not_hasCrashed_iff.mpr ⟨fun crashed => ?_, by simp [arrives.reading]⟩
    rw [crashed] at transmitting
    cases transmitting
  obtain ⟨answering, silent⟩ := arrives.answering sound running retries
  refine ⟨⟨answering, ?_, fun inside => by omega⟩, silent⟩
  rw [(step_commandThread retries p (by simp)).1]
  exact transmitting

/-- As long as the command thread does not read the mark of a departure, a client whose
command is answered in time gets the response; ERR_COMMAND_TIMEOUT is written and the
connection reset only for a command of which all transmissions have timed out; and the
departure itself spares all other clients. -/
theorem departure_disturbs_no_other
    (retries : Int)
    (io : BasePicard)
    (protocolVersion : Byte)
    (actions : List Action)
    (reads : Machine.Meets (step retries) ReadsNoDeparture
      (start io protocolVersion) actions) :
    let reached := Machine.run (step retries) (start io protocolVersion) actions
    (∀ client response during,
      reached.1.AnswerArrives client response →
      reached.1.mux.loop.transmitting →
      Machine.Meets (step retries) (AwaitsAnswer retries)
        (reached.1.step retries (.receive response.frame)).1 during →
      Machine.Meets (step retries) ReadsNoDeparture
        (reached.1.step retries (.receive response.frame)).1 during →
      during.count .complete = response.restoring + 4 →
      GetsResponse retries reached.1 client response during) ∧
    (∀ earlier output later, reached.2 = earlier ++ output :: later →
      output.givesUp → (account earlier).Exhausted retries) ∧
    (∀ leaving other, other ∈ reached.1.mux.clients → other ≠ leaving →
      Spares retries reached.1 (.removeClient leaving) other ∧
      (reached.1.mux.removing = some leaving →
        Spares retries reached.1 .eraseClient other)) := by
  intro reached
  have accounted : Accounted retries reached.1 reached.2 :=
    Machine.invariant_run (Accounted retries) (fun _ _ _ => step_accounted)
      (start_accounted retries io protocolVersion) reads
  have sound : reached.1.Sound := reachable_sound ⟨io, protocolVersion, actions, rfl⟩
  refine ⟨fun client response during arrives transmitting awaits readsOn last => ?_,
    fun earlier output later split givesUp => ?_,
    fun leaving other registered different => ⟨?_, fun removing => ?_⟩⟩
  · obtain ⟨inTime, silent⟩ := arrives.inTime sound transmitting retries
    exact getsResponse inTime silent awaits readsOn last
  · have justified := accounted.justified
    rw [split] at justified
    exact givesUpExhausted_split justified givesUp
  · exact spares_removeClient retries reached.1 leaving registered
  · exact spares_eraseClient retries removing different registered

/-- Two clients, of which the first has sent a command that is transmitted. -/
def transmittedCommand : List Action :=
  [.addClient 1, .addClient 2, .addCommand 1 (MuxMessage.ofPayload 42 [7])] ++
    List.replicate 8 .loop

/-- Picard's answer to it. -/
def answerInTime : Response where
  cmdType := 42
  seqNo := 0
  respCode := 0
  payload := [9]

/-- The second client leaves while `commandComplete` handles the answer: the mark comes in
front of the block, the erasure inside it. -/
def answeredDeparture : List Action :=
  [.eraseClient, .complete, .complete, .complete, .eraseClient, .complete]

theorem departure_disturbs_no_other_example :
    GetsResponse 3
        (Machine.run (step 3) (start {} 4) (transmittedCommand ++ [.removeClient 2])).1
        1 answerInTime answeredDeparture ∧
    (∀ earlier output later,
      (Machine.run (step 3) (start {} 4) (transmittedCommand ++ [.removeClient 2] ++
          .receive answerInTime.frame :: answeredDeparture ++ [.complete, .loop, .loop])).2 =
        earlier ++ output :: later →
      output.givesUp → (account earlier).Exhausted 3) ∧
    Spares 3 (Machine.run (step 3) (start {} 4) transmittedCommand).1 (.removeClient 2) 1 := by
  refine ⟨?_, ?_, ?_⟩
  · have answered := (departure_disturbs_no_other 3 {} 4
      (transmittedCommand ++ [.removeClient 2]) (by decide +kernel)).1
    refine answered 1 answerInTime answeredDeparture ?_ (by decide +kernel) (by decide +kernel)
      (by decide +kernel) (by decide +kernel)
    constructor <;> decide +kernel
  · have justified := (departure_disturbs_no_other 3 {} 4
      (transmittedCommand ++ [.removeClient 2] ++ .receive answerInTime.frame ::
        answeredDeparture ++ [.complete, .loop, .loop]) (by decide +kernel)).2.1
    exact justified
  · have spares := (departure_disturbs_no_other 3 {} 4 transmittedCommand
      (by decide +kernel)).2.2
    exact (spares 2 1 (by decide +kernel) (by decide)).1

/-- The second client leaves while the first one's command is transmitted for
the first time.  The first client gets ERR_COMMAND_TIMEOUT, the connection is
reset and nobody stays registered; Picard's answer comes, but no response. -/
theorem departure_resets_connection :
    let reached := Machine.run (step 3) (start {} 4)
      (transmittedCommand ++ .removeClient 2 :: List.replicate 6 .eraseClient ++
        List.replicate 5 .loop ++ [.receive answerInTime.frame, .complete, .complete])
    reached.2 =
      [.accepted { client := some 1, command := MuxMessage.ofPayload 42 [7] },
        .sent [2, 42, 0, 1, 7], .concluded .disconnect,
        .response 1 .commandTimeout (MuxOutput.make 42 0 ErrorCode.commandTimeout []),
        .reset .commandTimeout] ∧
    reached.1.mux.clients = [] ∧ reached.1.mux.picard = .reading := by
  decide +kernel

end Process

end SerialMux
