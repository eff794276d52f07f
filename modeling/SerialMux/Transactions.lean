import SerialMux.Process

/-!
# The transactions with Picard

The command thread takes one command at a time from the queue.  One that is not answered by
the mux itself it sends to Picard, again and again until it has a result, and only then takes
the next one.  The clients' commands come in the order in which they were queued.
-/

namespace SerialMux

/-- Outputs by which the command thread processes a command. -/
def Output.isCommand : Output → Bool
  | .accepted _ | .concluded _ | .sent _ => true
  | .response _ _ _ | .notified _ _ | .acked _ | .reset _ => false

/-- The command is sent to Picard, and not answered by the mux. -/
def ClientCommand.isForwarded (cmd : ClientCommand) : Bool :=
  cmd.command.type ≠ MuxCommand.muxInfo ∧ isPicardApiCommand cmd.command.type ∧
    cmd.command.size ≤ maxSerialApiCmdLen

/-- A client's SUBSCRIBE has its payload rewritten by some filter union, and any other command
is sent as it is. -/
def ClientCommand.Prepares (cmd prepared : ClientCommand) : Prop :=
  if cmd.command.type = Command.subscribe ∧ cmd.client.isSome then
    ∃ params data, filterToVector params cmd.command.data = some data ∧
      prepared = { cmd with command.data := data }
  else prepared = cmd

/-! ## One transaction -/

/-- A command that is taken, the frames sent for it, and the result that ends it. -/
structure Transaction where
  cmd : ClientCommand
  frames : List ByteVector := []
  result : Option ClientResult := none
  deriving DecidableEq, Repr

namespace Transaction

variable {retries : Int} {transaction : Transaction}

def outputs (transaction : Transaction) : List Output :=
  .accepted transaction.cmd ::
    (transaction.frames.map Output.sent ++ (transaction.result.map Output.concluded).toList)

/-- All frames are transmissions of one message, the command's. -/
def Repeats (transaction : Transaction) (prepared : ClientCommand) : Prop :=
  transaction.cmd.Prepares prepared ∧
    ∀ frame ∈ transaction.frames,
      ∃ seqNo, frame = BasePicard.commandFrame prepared.command seqNo

/-- What holds of every transaction: the frames repeat one message, at most as often as is
allowed, and it times out only after all attempts. -/
structure Valid (retries : Int) (transaction : Transaction) : Prop where
  answered : ¬transaction.cmd.isForwarded → transaction.frames = [] ∧ transaction.result = none
  repeated : transaction.frames ≠ [] → ∃ prepared, transaction.Repeats prepared
  bounded : transaction.frames.length ≤ retries.toNat
  exhausted : transaction.result = some .timeout → transaction.frames.length = retries.toNat
  attempted : transaction.result.isSome → 0 < retries → transaction.frames ≠ []

/-- It is over: the command was forwarded and has a result, or was not forwarded. -/
structure Complete (retries : Int) (transaction : Transaction) : Prop
    extends transaction.Valid retries where
  ended : transaction.cmd.isForwarded → transaction.result.isSome

/-- A message is being transmitted, and was sent a number of times. -/
structure Transmits
    (retries : Int)
    (prepared : ClientCommand)
    (count : Nat)
    (transaction : Transaction) : Prop where
  forwarded : transaction.cmd.isForwarded
  unfinished : transaction.result = none
  repeats : transaction.Repeats prepared
  length : transaction.frames.length = count
  bounded : count ≤ retries.toNat

namespace Transmits

variable {prepared : ClientCommand} {count : Nat}

theorem valid (transmits : transaction.Transmits retries prepared count) :
    transaction.Valid retries where
  answered notForwarded := absurd transmits.forwarded notForwarded
  repeated _ := ⟨prepared, transmits.repeats⟩
  bounded := by
    rw [transmits.length]
    exact transmits.bounded
  exhausted timeout := by
    rw [transmits.unfinished] at timeout
    cases timeout
  attempted ended := by
    rw [transmits.unfinished] at ended
    cases ended

/-- A frame more. -/
theorem transmit
    (transmits : transaction.Transmits retries prepared count)
    (again : (count : Int) < retries)
    (seqNo : Byte) :
    { transaction with
        frames := transaction.frames ++
          [BasePicard.commandFrame prepared.command seqNo] }.Transmits
      retries prepared (count + 1) where
  forwarded := transmits.forwarded
  unfinished := transmits.unfinished
  repeats := by
    refine ⟨transmits.repeats.1, ?_⟩
    rw [List.forall_mem_append]
    exact ⟨transmits.repeats.2, by simp⟩
  length := by simp [transmits.length]
  bounded := by omega

/-- The result ends the transaction. -/
theorem conclude
    {result : ClientResult}
    (transmits : transaction.Transmits retries prepared count)
    (exhausted : result = .timeout → retries ≤ count)
    (attempted : 0 < retries → 0 < count) :
    { transaction with result := some result }.Complete retries where
  answered notForwarded := absurd transmits.forwarded notForwarded
  repeated _ := ⟨prepared, transmits.repeats⟩
  bounded := by
    rw [transmits.length]
    exact transmits.bounded
  exhausted timeout := by
    have allSent := exhausted (Option.some.inj timeout)
    have within := transmits.bounded
    change transaction.frames.length = retries.toNat
    rw [transmits.length]
    omega
  attempted _ positive := by
    rw [← List.length_pos_iff, transmits.length]
    exact attempted positive
  ended _ := rfl

end Transmits

/-- A command that the mux answers is a transaction of its own. -/
theorem complete_of_local
    {cmd : ClientCommand}
    (answered : ¬cmd.isForwarded) :
    { cmd := cmd : Transaction }.Complete retries where
  answered _ := ⟨rfl, rfl⟩
  repeated sent := absurd rfl sent
  bounded := Nat.zero_le _
  exhausted timeout := by cases timeout
  attempted ended := by cases ended
  ended forwarded := absurd forwarded answered

/-- A command for which nothing was sent yet. -/
theorem valid_of_unsent
    {cmd : ClientCommand}
    (forwarded : cmd.isForwarded) :
    { cmd := cmd : Transaction }.Valid retries where
  answered notForwarded := absurd forwarded notForwarded
  repeated sent := absurd rfl sent
  bounded := Nat.zero_le _
  exhausted timeout := by cases timeout
  attempted ended := by cases ended

end Transaction

/-- A client's SUBSCRIBE that is sent to Picard. -/
def ClientCommand.SubscribesAtPicard (cmd : ClientCommand) : Prop :=
  cmd.isForwarded ∧ cmd.command.type = Command.subscribe ∧ cmd.client.isSome

/-- The transaction that is open while the command thread stands at a statement. -/
def LoopPhase.Conducts (retries : Int) (current : Option Transaction) : LoopPhase → Prop
  | .subscribing cmd | .recomputing cmd | .rewriting cmd =>
      current = some { cmd := cmd } ∧ cmd.SubscribesAtPicard
  | .installing prepared =>
      ∃ cmd : ClientCommand, current = some { cmd := cmd } ∧ cmd.isForwarded ∧
        cmd.Prepares prepared
  | .sending prepared i =>
      (i : Int) < retries ∧
        ∃ transaction, current = some transaction ∧ transaction.Transmits retries prepared i
  | .recording prepared i frame =>
      ((i : Int) < retries ∧ ∃ seqNo, frame = BasePicard.commandFrame prepared.command seqNo) ∧
        ∃ transaction, current = some transaction ∧ transaction.Transmits retries prepared i
  | .waiting prepared i =>
      ∃ transaction, current = some transaction ∧
        transaction.Transmits retries prepared (i + 1)
  | .crashed =>
      ∀ transaction ∈ current, transaction.Valid retries ∧ transaction.result = none
  | .starting | .checking | .popping | .finding _ | .replying _ _ _ | .concluding _ _
  | .restoring _ | .resetting _ | .timingOut _ | .disconnecting _ | .clearing _ | .finished =>
      current = none

/-- Every open transaction is valid and has no result. -/
theorem LoopPhase.Conducts.valid
    {retries : Int}
    {current : Option Transaction}
    {phase : LoopPhase}
    (conducts : phase.Conducts retries current) :
    ∀ transaction ∈ current, transaction.Valid retries ∧ transaction.result = none := by
  rintro transaction rfl
  cases phase
  case subscribing | recomputing | rewriting =>
      obtain ⟨same, subscribes⟩ := conducts
      cases same
      exact ⟨Transaction.valid_of_unsent subscribes.1, rfl⟩
  case installing =>
      obtain ⟨cmd, same, forwarded, -⟩ := conducts
      cases same
      exact ⟨Transaction.valid_of_unsent forwarded, rfl⟩
  case sending | recording =>
      obtain ⟨-, _, same, transmits⟩ := conducts
      cases same
      exact ⟨transmits.valid, transmits.unfinished⟩
  case waiting =>
      obtain ⟨_, same, transmits⟩ := conducts
      cases same
      exact ⟨transmits.valid, transmits.unfinished⟩
  case crashed => exact conducts transaction rfl
  all_goals cases conducts

namespace Mux

variable {retries : Int} {m : Mux}

/-- The open transaction, and outputs of the command thread that follow it, make up some
transactions that are over and the one that is open then. -/
def Advances
    (retries : Int)
    (current : Option Transaction)
    (phase : LoopPhase)
    (more : List Output) : Prop :=
  ∃ (ended : List Transaction) (next : Option Transaction),
    current.toList.flatMap Transaction.outputs ++ more.filter Output.isCommand =
      ended.flatMap Transaction.outputs ++ next.toList.flatMap Transaction.outputs ∧
    (∀ transaction ∈ ended, transaction.Complete retries) ∧ phase.Conducts retries next

namespace Advances

variable {current : Option Transaction} {phase : LoopPhase} {more : List Output}

/-- The same transaction stays open. -/
theorem stays
    (silent : more.filter Output.isCommand = [])
    (conducts : phase.Conducts retries current) :
    Advances retries current phase more :=
  ⟨[], current, by simp [silent], by simp, conducts⟩

/-- The command thread goes on without an open transaction. -/
theorem rests
    (noTransaction : current = none)
    (silent : more.filter Output.isCommand = [])
    (conducts : phase.Conducts retries none) :
    Advances retries current phase more := by
  subst noTransaction
  exact stays silent conducts

/-- The head of the loop over the transmissions sends again or concludes. -/
theorem attempt
    {prepared : ClientCommand}
    {i : Nat}
    {result : ClientResult}
    {transaction : Transaction}
    (transmits : transaction.Transmits retries prepared i)
    (attempted : result ≠ .timeout → 0 < i) :
    Advances retries (some transaction) (Mux.attempt retries prepared i result).1
      (Mux.attempt retries prepared i result).2 := by
  refine attempt_cases
    (fun next => Advances retries (some transaction) next.1 next.2) ?_ ?_
  · intro _ again
    exact stays rfl ⟨again, transaction, rfl, transmits⟩
  · intro leaves
    refine ⟨[{ transaction with result := some result }], none, ?_, ?_, rfl⟩
    · simp [Transaction.outputs, transmits.unfinished, Output.isCommand]
    · rw [List.forall_mem_singleton]
      refine transmits.conclude (fun timeout => leaves.resolve_left (not_not.mpr timeout)) ?_
      intro positive
      rcases leaves with decided | exhausted
      · exact attempted decided
      · omega

end Advances

theorem dispatch_isForwarded
    {cmd : ClientCommand}
    (m : Mux)
    (forwarded : cmd.isForwarded) :
    m.dispatch cmd =
      if cmd.command.type = Command.subscribe ∧ cmd.client.isSome then .subscribing cmd
      else .installing cmd := by
  obtain ⟨notInfo, isApi, short⟩ : cmd.command.type ≠ MuxCommand.muxInfo ∧
      isPicardApiCommand cmd.command.type ∧ cmd.command.size ≤ maxSerialApiCmdLen := by
    simpa [ClientCommand.isForwarded] using forwarded
  rw [dispatch, if_neg notInfo, if_neg]
  simpa [isApi, BitVec.not_lt] using short

theorem dispatch_of_not_isForwarded
    {cmd : ClientCommand}
    (m : Mux)
    (answered : ¬cmd.isForwarded) :
    m.dispatch cmd = .crashed ∨ ∃ sender resp, m.dispatch cmd = .replying cmd sender resp := by
  unfold dispatch
  split_ifs with isInfo invalid
  · split
    · exact Or.inr ⟨_, _, rfl⟩
    · exact Or.inl rfl
  · exact Or.inr ⟨_, _, rfl⟩
  all_goals
    refine absurd ?_ answered
    simp only [not_or, not_not, BitVec.not_lt] at invalid
    simp [ClientCommand.isForwarded, isInfo, invalid.1, invalid.2]

/-- A command that is accepted is answered by the mux or opens a transaction. -/
theorem dispatch_advances (m : Mux) (cmd : ClientCommand) :
    Advances retries none (m.dispatch cmd) [.accepted cmd] := by
  by_cases forwarded : cmd.isForwarded
  · rw [dispatch_isForwarded m forwarded]
    refine ⟨[], some { cmd := cmd }, rfl, by simp, ?_⟩
    split_ifs with subscribes
    · exact ⟨rfl, forwarded, subscribes⟩
    · refine ⟨cmd, rfl, forwarded, ?_⟩
      rw [ClientCommand.Prepares, if_neg subscribes]
  · refine ⟨[{ cmd := cmd }], none, rfl, ?_, ?_⟩
    · rw [List.forall_mem_singleton]
      exact Transaction.complete_of_local forwarded
    · rcases dispatch_of_not_isForwarded m forwarded with crashed | ⟨_, _, replying⟩
      · rw [crashed]
        simp [LoopPhase.Conducts]
      · rw [replying]
        rfl

theorem sendResponse_isCommand
    (client : Option ClientId)
    (sender : Sender)
    (resp : MuxOutput) :
    (sendResponse client sender resp).filter Output.isCommand = [] := by
  cases client <;> rfl

/-- What the command thread does to the open transaction. -/
theorem loopStep_advances
    {current : Option Transaction}
    (conducts : m.loop.Conducts retries current) :
    Advances retries current (m.loopStep retries).1.loop (m.loopStep retries).2 := by
  cases phase : m.loop <;> rw [phase] at conducts <;> simp only [loopStep, phase]
  case starting => exact .rests conducts rfl rfl
  case checking => exact .rests conducts rfl (by split <;> rfl)
  case popping => split <;> exact .rests conducts rfl rfl
  case finding cmd =>
      obtain rfl : current = none := conducts
      split
      · exact dispatch_advances m cmd
      · exact .stays rfl rfl
  case replying => exact .rests conducts (sendResponse_isCommand _ _ _) rfl
  case subscribing =>
      split
      · exact .stays rfl conducts
      · exact .stays rfl conducts.valid
  case recomputing => exact .stays rfl conducts
  case rewriting cmd =>
      obtain ⟨rfl, subscribes⟩ := conducts
      split
      · rename_i data written
        exact .stays rfl ⟨cmd, rfl, subscribes.1, by
          rw [ClientCommand.Prepares, if_pos subscribes.2]
          exact ⟨_, data, written, rfl⟩⟩
      · exact .stays rfl (by
          rintro _ ⟨⟩
          exact ⟨Transaction.valid_of_unsent subscribes.1, rfl⟩)
  case installing prepared =>
      obtain ⟨cmd, rfl, forwarded, prepares⟩ := conducts
      exact .attempt ⟨forwarded, rfl, ⟨prepares, by simp⟩, rfl, Nat.zero_le _⟩ (by simp)
  case sending =>
      obtain ⟨within, opened⟩ := conducts
      exact .stays rfl ⟨⟨within, _, rfl⟩, opened⟩
  case recording prepared i frame =>
      obtain ⟨⟨within, seqNo, rfl⟩, transaction, rfl, transmits⟩ := conducts
      refine ⟨[], some _, ?_, by simp, _, rfl, transmits.transmit within seqNo⟩
      simp [Transaction.outputs, transmits.unfinished, Output.isCommand]
  case waiting =>
      obtain ⟨transaction, rfl, transmits⟩ := conducts
      exact .attempt transmits (fun _ => Nat.succ_pos _)
  case concluding => split_ifs <;> exact .rests conducts rfl rfl
  case restoring => exact .rests conducts rfl rfl
  case resetting => exact .rests conducts rfl rfl
  case timingOut => exact .rests conducts (sendResponse_isCommand _ _ _) rfl
  case disconnecting =>
      split
      · exact .rests conducts rfl rfl
      · exact .rests conducts rfl (by simp [LoopPhase.Conducts])
  case clearing => exact .rests conducts rfl rfl
  case finished => exact .rests conducts rfl rfl
  case crashed => exact .stays rfl conducts

/-- Other threads do not process commands. -/
theorem step_isCommand
    {action : Action}
    (notLoop : action ≠ .loop) :
    (step retries m action).2.filter Output.isCommand = [] := by
  rw [List.filter_eq_nil_iff]
  intro output mem isCommand
  by_cases quiet : action.isQuiet
  · have passive := (step_quiet quiet retries m).2 output mem
    cases output <;> simp_all [Output.isPassive, Output.isCommand]
  · unfold step at mem
    split at mem
    · cases mem
    · cases action with
      | loop => exact notLoop rfl
      | complete =>
          have answers : output ∈ m.completeStep.2 := mem
          unfold completeStep at answers
          split at answers
          · split_ifs at answers <;> cases answers
          · cases answers
          · have silent := List.filter_eq_nil_iff.mp
              (sendResponse_isCommand m.currentCommand.client .commandComplete _) output answers
            exact silent isCommand
          all_goals cases answers
      | clearCommands =>
          simp only [perform] at mem
          split at mem <;> cases mem
      | addCommand | removeClient | eraseClient => cases mem
      | addClient | hangUp | receive | unregisterCallback | stop => exact absurd rfl quiet

end Mux

namespace Process

variable {retries : Int} {p : Process}

/-- What a statement of the command thread does to the open transaction. -/
theorem loopStep_advances
    (running : ¬p.mux.hasCrashed)
    {current : Option Transaction}
    (conducts : p.mux.loop.Conducts retries current) :
    Mux.Advances retries current (p.loopStep retries).1.mux.loop (p.loopStep retries).2 := by
  have statement := @loopStep_statement retries p running
  generalize p.loopStep retries = next at statement ⊢
  cases statement with
  | waits | unites | compares | saves | records => exact .stays rfl conducts
  | stores phase =>
      rw [phase] at conducts
      exact .stays rfl conducts
  | sends phase =>
      rw [phase] at conducts
      obtain ⟨⟨within, seqNo, rfl⟩, transaction, rfl, transmits⟩ := conducts
      refine ⟨[], some _, ?_, by simp, _, rfl, transmits.transmit within seqNo⟩
      simp [Transaction.outputs, transmits.unfinished, Output.isCommand]
  | whole => exact Mux.loopStep_advances conducts

/-- Other threads do not process commands. -/
theorem step_isCommand
    {action : Action}
    (notLoop : action ≠ .loop) :
    (p.step retries action).2.filter Output.isCommand = [] := by
  by_cases crashed : p.mux.hasCrashed
  · rw [step_of_crashed crashed]
    rfl
  by_cases complete : action = .complete
  · subst complete
    rw [step_complete crashed]
    have statement := completeStep_statement p
    generalize p.completeStep = next at statement ⊢
    cases statement with
    | writes => exact Mux.sendResponse_isCommand _ _ _
    | _ => rfl
  by_cases receives : ∃ frame, action = .receive frame
  · obtain ⟨frame, rfl⟩ := receives
    rw [List.filter_eq_nil_iff]
    intro output mem
    have passive := step_receive_passive retries p frame output mem
    cases output <;> simp_all [Output.isPassive, Output.isCommand]
  · rw [(@step_sameThreads retries p action notLoop complete
      fun frame receive => receives ⟨frame, receive⟩).2]
    rfl

theorem step_advances
    (action : Action)
    {current : Option Transaction}
    (conducts : p.mux.loop.Conducts retries current) :
    Mux.Advances retries current (p.step retries action).1.mux.loop
      (p.step retries action).2 := by
  by_cases loop : action = .loop
  · subst loop
    by_cases crashed : p.mux.hasCrashed
    · rw [step_of_crashed crashed]
      exact .stays rfl conducts
    · rw [step_loop crashed]
      exact loopStep_advances crashed conducts
  · refine .stays (step_isCommand loop) ?_
    rw [(step_commandThread retries p loop).1]
    exact conducts

/-- Transactions that are over and at most one that is open make up what the command thread
has done. -/
def Conducted (retries : Int) (p : Process) (outputs : List Output) : Prop :=
  ∃ (past : List Transaction) (current : Option Transaction),
    outputs.filter Output.isCommand =
      past.flatMap Transaction.outputs ++ current.toList.flatMap Transaction.outputs ∧
    (∀ transaction ∈ past, transaction.Complete retries) ∧
    p.mux.loop.Conducts retries current

theorem step_conducted
    {outputs : List Output}
    {action : Action}
    (conducted : Conducted retries p outputs) :
    Conducted retries (p.step retries action).1 (outputs ++ (p.step retries action).2) := by
  obtain ⟨past, current, done, complete, conducts⟩ := conducted
  obtain ⟨ended, next, further, alsoComplete, nextConducts⟩ :=
    step_advances action conducts
  refine ⟨past ++ ended, next, ?_, List.forall_mem_append.mpr ⟨complete, alsoComplete⟩,
    nextConducts⟩
  rw [List.filter_append, done, List.append_assoc, further, List.flatMap_append,
    List.append_assoc]

/-- In every run the commands are processed one behind the other.  No command is sent to
Picard but the one taken last, before its result; all frames of a command are the same but for
the number, and at most as many as the attempts allowed, all of which are used before its
result is a timeout. -/
theorem one_transaction_at_a_time
    (retries : Int)
    (io : BasePicard)
    (protocolVersion : Byte)
    (actions : List Action) :
    ∃ (past : List Transaction) (current : Option Transaction),
      (Machine.run (step retries) (start io protocolVersion) actions).2.filter
          Output.isCommand =
        past.flatMap Transaction.outputs ++ current.toList.flatMap Transaction.outputs ∧
      (∀ transaction ∈ past, transaction.Complete retries) ∧
      ∀ transaction ∈ current, transaction.Valid retries ∧ transaction.result = none := by
  have initially : Conducted retries (start io protocolVersion) [] :=
    ⟨[], none, rfl, by simp, rfl⟩
  obtain ⟨past, current, done, complete, conducts⟩ :=
    Machine.invariant_run (Conducted retries) (fun _ _ _ conducted _ => step_conducted conducted)
      initially (Machine.meets_true _ actions)
  exact ⟨past, current, done, complete, conducts.valid⟩

end Process

/-! ## The order of the commands -/

/-- The command of a client. -/
def ClientCommand.request (cmd : ClientCommand) : Option (ClientId × MuxMessage) :=
  cmd.client.map fun client => (client, cmd.command)

def Output.request : Output → Option (ClientId × MuxMessage)
  | .accepted cmd => cmd.request
  | .concluded _ | .response _ _ _ | .notified _ _ | .sent _ | .acked _ | .reset _ => none

def Action.request : Action → Option (ClientId × MuxMessage)
  | .addCommand client command => some (client, command)
  | .addClient _ | .removeClient _ | .eraseClient | .hangUp _ | .loop | .receive _ | .complete
  | .unregisterCallback | .stop | .clearCommands => none

/-- The command that was popped, while its client is looked for. -/
def LoopPhase.popped : LoopPhase → Option ClientCommand
  | .finding cmd => some cmd
  | _ => none

namespace Mux

variable {retries : Int} {m : Mux}

/-- The clients' commands that are not accepted yet. -/
def waitingRequests (m : Mux) : List (ClientId × MuxMessage) :=
  (m.loop.popped.toList ++ m.commands).filterMap ClientCommand.request

theorem dispatch_popped (m : Mux) (cmd : ClientCommand) : (m.dispatch cmd).popped = none :=
  dispatch_cases (fun next => next.popped = none) (fun _ => rfl) (fun _ _ _ => rfl)
    (fun _ _ _ => rfl) (fun _ _ => rfl)

theorem attempt_requests
    (retries : Int)
    (cmd : ClientCommand)
    (i : Nat)
    (result : ClientResult) :
    (attempt retries cmd i result).1.popped = none ∧
      (attempt retries cmd i result).2.filterMap Output.request = [] :=
  attempt_cases (fun next => next.1.popped = none ∧ next.2.filterMap Output.request = [])
    (fun _ _ => ⟨rfl, rfl⟩) (fun _ => ⟨rfl, rfl⟩)

theorem sendResponse_requests
    (client : Option ClientId)
    (sender : Sender)
    (resp : MuxOutput) :
    (sendResponse client sender resp).filterMap Output.request = [] := by
  cases client <;> rfl

/-- The command thread accepts the command that waits first, or drops it. -/
theorem loopStep_requests (retries : Int) (m : Mux) :
    ((m.loopStep retries).2.filterMap Output.request ++
      (m.loopStep retries).1.waitingRequests).Sublist m.waitingRequests := by
  unfold waitingRequests
  cases phase : m.loop <;> simp only [loopStep, phase]
  case checking => split <;> exact List.Sublist.refl _
  case popping =>
      split
      · rename_i noCommand
        rw [noCommand]
        exact List.Sublist.refl _
      · rename_i first rest commands
        rw [commands]
        exact List.Sublist.refl _
  case finding cmd =>
      have taken : (LoopPhase.finding cmd).popped.toList ++ m.commands = cmd :: m.commands := rfl
      rw [taken]
      split
      · dsimp only
        rw [dispatch_popped]
        cases asked : cmd.request <;> simp [Output.request, asked]
      · cases asked : cmd.request <;> simp [asked, LoopPhase.popped]
  case replying | timingOut => rw [sendResponse_requests]; exact List.Sublist.refl _
  case subscribing => split <;> simp [LoopPhase.popped]
  case rewriting => split <;> exact List.Sublist.refl _
  case installing cmd =>
      obtain ⟨none', silent⟩ := attempt_requests retries cmd 0 .timeout
      rw [none', silent]
      exact List.Sublist.refl _
  case waiting cmd i =>
      obtain ⟨none', silent⟩ :=
        attempt_requests retries cmd (i + 1) m.currentCommand.result
      rw [none', silent]
      exact List.Sublist.refl _
  case concluding => split_ifs <;> exact List.Sublist.refl _
  case resetting => simp [LoopPhase.popped]
  case disconnecting =>
      have same := (resetConnection_same m).commands
      split <;> rename_i closed reset <;> rw [reset] at same <;> dsimp only at same ⊢ <;>
        rw [same] <;> exact List.Sublist.refl _
  all_goals exact List.Sublist.refl _

/-- The block of `removeClient` queues no command of a client. -/
theorem eraseClient_requests (m : Mux) :
    m.eraseClient.commands.filterMap ClientCommand.request =
      m.commands.filterMap ClientCommand.request := by
  unfold eraseClient
  split
  · rfl
  · dsimp only [recomputeSubscribeFilter]
    split_ifs
    · rw [List.filterMap_append]
      unfold resubscribe
      split <;> exact List.append_nil _
    · rfl
    · rfl

/-- What one step accepts, and what waits after it, waited before or is queued by it. -/
theorem step_requests (retries : Int) (m : Mux) (action : Action) :
    ((step retries m action).2.filterMap Output.request ++
      (step retries m action).1.waitingRequests).Sublist
      (m.waitingRequests ++ action.request.toList) := by
  by_cases loop : action = .loop
  · subst loop
    rw [show Action.loop.request.toList = [] from rfl, List.append_nil]
    unfold step
    split
    · exact List.Sublist.refl _
    · exact loopStep_requests retries m
  · have silent : (step retries m action).2.filterMap Output.request = [] := by
      rw [List.filterMap_eq_nil_iff]
      intro output mem
      have notCommand : ¬output.isCommand :=
        List.filter_eq_nil_iff.mp (step_isCommand loop) output mem
      cases output <;> first | rfl | exact absurd rfl notCommand
    rw [silent, List.nil_append]
    unfold waitingRequests
    rw [(step_frame loop).1, List.filterMap_append, List.filterMap_append, List.append_assoc]
    apply List.Sublist.append_left
    by_cases quiet : action.isQuiet
    · rw [(step_quiet quiet retries m).1.commands]
      exact List.sublist_append_left _ _
    · unfold step
      split
      · exact List.sublist_append_left _ _
      · cases action with
        | loop => exact absurd rfl loop
        | addCommand client command =>
            simp only [perform, addCommand]
            split
            · rw [List.filterMap_append]
              exact List.Sublist.refl _
            · exact List.sublist_append_left _ _
        | eraseClient =>
            simp only [perform, eraseClient_requests]
            exact List.sublist_append_left _ _
        | clearCommands =>
            simp only [perform]
            split
            · exact List.nil_sublist _
            · exact List.sublist_append_left _ _
        | complete =>
            simp only [perform, completeStep_commands]
            exact List.sublist_append_left _ _
        | removeClient client =>
            simp only [perform, removeClient_commands]
            exact List.sublist_append_left _ _
        | addClient | hangUp | receive | unregisterCallback | stop => exact absurd rfl quiet

theorem run_requests (retries : Int) (m : Mux) (actions : List Action) :
    ((Machine.run (step retries) m actions).2.filterMap Output.request ++
      (Machine.run (step retries) m actions).1.waitingRequests).Sublist
      (m.waitingRequests ++ actions.filterMap Action.request) := by
  induction actions generalizing m with
  | nil => simp
  | cons action rest inductionHypothesis =>
      have now := step_requests retries m action
      have afterwards := inductionHypothesis (step retries m action).1
      have asked : (action :: rest).filterMap Action.request =
          action.request.toList ++ rest.filterMap Action.request := by
        cases isRequest : action.request <;> simp [isRequest]
      rw [Machine.run_cons, asked]
      dsimp only
      rw [List.filterMap_append, List.append_assoc, ← List.append_assoc m.waitingRequests]
      refine (List.Sublist.append_left afterwards _).trans ?_
      rw [← List.append_assoc]
      exact List.Sublist.append_right now _

/-- In every run the clients' commands are accepted in the order in which they came, each at
most once, and before those that wait. -/
theorem accepted_in_order
    (retries : Int)
    (io : BasePicard)
    (protocolVersion : Byte)
    (actions : List Action) :
    ((Machine.run (step retries) (start io protocolVersion) actions).2.filterMap
        Output.request ++
      (Machine.run (step retries) (start io protocolVersion) actions).1.waitingRequests).Sublist
      (actions.filterMap Action.request) :=
  run_requests retries (start io protocolVersion) actions

end Mux

end SerialMux
