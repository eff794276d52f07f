import SerialMux.ClientManager
import SerialMux.Library.FamilyLoop

/-!
# What the steps change

Most events leave the commands and the filters of the client manager alone.
`SameManager` collects the fields that stay, and `isPassive` the outputs that
neither process nor answer a command.
-/

namespace SerialMux

/-- Outputs that do not belong to the processing of a command. -/
def Output.isPassive : Output → Bool
  | .notified _ _ | .acked _ | .reset .frameComplete => true
  | .accepted _ | .concluded _ | .response _ _ _ | .sent _ | .reset .commandTimeout => false

/-- Outputs that neither accept a command nor reach Picard as a request. -/
def Output.isSilent : Output → Bool
  | .accepted _ | .sent _ => false
  | .concluded _ | .response _ _ _ | .notified _ _ | .acked _ | .reset _ => true

theorem Output.silent_of_passive
    {output : Output}
    (passive : output.isPassive) :
    output.isSilent := by
  cases output <;> first | rfl | cases passive

namespace Mux

/-- Commands and filters are the same in two states. -/
structure SameManager (before after : Mux) : Prop where
  loop : after.loop = before.loop
  currentCommand : after.currentCommand = before.currentCommand
  commands : after.commands = before.commands
  filterUnion : after.filterUnion = before.filterUnion
  prevfilter : after.prevfilter = before.prevfilter
  removing : after.removing = before.removing
  subscriber : ∀ client,
    (after.objects client).subscriber = (before.objects client).subscriber

namespace SameManager

theorem refl (m : Mux) : SameManager m m :=
  ⟨rfl, rfl, rfl, rfl, rfl, rfl, fun _ => rfl⟩

theorem trans
    {first second third : Mux}
    (earlier : SameManager first second)
    (later : SameManager second third) :
    SameManager first third where
  loop := later.loop.trans earlier.loop
  currentCommand := later.currentCommand.trans earlier.currentCommand
  commands := later.commands.trans earlier.commands
  filterUnion := later.filterUnion.trans earlier.filterUnion
  prevfilter := later.prevfilter.trans earlier.prevfilter
  removing := later.removing.trans earlier.removing
  subscriber client := (later.subscriber client).trans (earlier.subscriber client)

end SameManager

/-! ## Clients and subscribers -/

section UpdateSubscriber

variable (m : Mux) (client : Option ClientId) (change : Subscriber → Subscriber)

@[simp] theorem updateSubscriber_clients :
    (m.updateSubscriber client change).clients = m.clients := by
  cases client <;> rfl

@[simp] theorem updateSubscriber_commands :
    (m.updateSubscriber client change).commands = m.commands := by
  cases client <;> rfl

@[simp] theorem updateSubscriber_filterUnion :
    (m.updateSubscriber client change).filterUnion = m.filterUnion := by
  cases client <;> rfl

@[simp] theorem updateSubscriber_prevfilter :
    (m.updateSubscriber client change).prevfilter = m.prevfilter := by
  cases client <;> rfl

@[simp] theorem updateSubscriber_currentCommand :
    (m.updateSubscriber client change).currentCommand = m.currentCommand := by
  cases client <;> rfl

@[simp] theorem updateSubscriber_io :
    (m.updateSubscriber client change).io = m.io := by
  cases client <;> rfl

@[simp] theorem updateSubscriber_loop :
    (m.updateSubscriber client change).loop = m.loop := by
  cases client <;> rfl

@[simp] theorem updateSubscriber_picard :
    (m.updateSubscriber client change).picard = m.picard := by
  cases client <;> rfl

@[simp] theorem updateSubscriber_removing :
    (m.updateSubscriber client change).removing = m.removing := by
  cases client <;> rfl

end UpdateSubscriber

theorem updateSubscriber_subscriber
    (m : Mux)
    (client other : ClientId)
    (change : Subscriber → Subscriber) :
    ((m.updateSubscriber (some client) change).objects other).subscriber =
      if other = client then change (m.objects client).subscriber
      else (m.objects other).subscriber := by
  by_cases same : other = client
  · subst same
    simp [updateSubscriber, updateClient]
  · simp [updateSubscriber, updateClient, same]

@[simp] theorem updateSubscriber_initState
    (m : Mux)
    (client : Option ClientId)
    (change : Subscriber → Subscriber)
    (other : ClientId) :
    ((m.updateSubscriber client change).objects other).initState =
      (m.objects other).initState := by
  cases client with
  | none => rfl
  | some client =>
      by_cases same : other = client
      · subst same
        simp [updateSubscriber, updateClient]
      · simp [updateSubscriber, updateClient, same]

/-- A response neither announces a command nor notifies anybody. -/
theorem sendResponse_only_responds
    (client : Option ClientId)
    (sender : Sender)
    (resp : MuxOutput) :
    (∀ cmd, .accepted cmd ∉ sendResponse client sender resp) ∧
      ∀ other notif, .notified other notif ∉ sendResponse client sender resp := by
  cases client <;> simp [sendResponse]

theorem sendResponse_silent
    (client : Option ClientId)
    (sender : Sender)
    (resp : MuxOutput) :
    ∀ output ∈ sendResponse client sender resp, output.isSilent := by
  cases client <;> simp [sendResponse, Output.isSilent]

theorem updateClient_same
    {m : Mux}
    {client : ClientId}
    {change : Client → Client}
    (keeps : ∀ object, (change object).subscriber = object.subscriber) :
    SameManager m (m.updateClient client change) where
  loop := rfl
  currentCommand := rfl
  commands := rfl
  filterUnion := rfl
  prevfilter := rfl
  removing := rfl
  subscriber other := by
    by_cases same : other = client
    · subst same
      simp [updateClient, keeps]
    · simp [updateClient, same]

theorem addClient_same (m : Mux) (client : ClientId) :
    SameManager m (m.addClient client) := by
  have same : SameManager m
      (m.updateClient client fun object => { object with initState := .authenticated }) :=
    updateClient_same fun _ => rfl
  unfold addClient
  split
  · exact ⟨rfl, rfl, rfl, rfl, rfl, rfl, same.subscriber⟩
  · exact SameManager.refl m

/-! ## Resets -/

/-- The loop over the clients, as one over a family. -/
theorem closeEach_eq_actEach (objects : ClientId → Client) (clients : List ClientId) :
    closeEach objects clients =
      FamilyLoop.actEach (fun client => (client.close.getD client, client.close.isSome)) objects
        clients := by
  induction clients generalizing objects with
  | nil => rfl
  | cons client rest inductionHypothesis =>
      rw [closeEach, FamilyLoop.actEach]
      split
      · rename_i closed done
        rw [done, inductionHypothesis]
        rfl
      · rename_i throws
        rw [throws]
        simp

theorem closeEach_subscriber
    (objects : ClientId → Client)
    (clients : List ClientId)
    (other : ClientId) :
    ((closeEach objects clients).1 other).subscriber = (objects other).subscriber := by
  rw [closeEach_eq_actEach]
  apply FamilyLoop.actEach_rel (fun before after : Client => after.subscriber = before.subscriber)
  · exact fun _ => rfl
  · exact fun _ _ _ earlier later => later.trans earlier
  · intro client
    cases done : client.close with
    | none => rfl
    | some closed => exact Client.close_subscriber done

theorem closeClients_same (m : Mux) : SameManager m m.closeClients.1 := by
  have subscribers := closeEach_subscriber m.objects m.clients
  unfold closeClients
  split <;> rename_i objects closed <;> rw [closed] at subscribers <;>
    exact ⟨rfl, rfl, rfl, rfl, rfl, rfl, subscribers⟩

theorem resetConnection_same (m : Mux) : SameManager m m.resetConnection.1 := by
  have same := closeClients_same { m with io := { m.io with isRunning := false } }
  unfold resetConnection
  split <;> rename_i closed reset <;> rw [reset] at same <;> exact { same with }

theorem closeClients_threads (m : Mux) :
    m.closeClients.1.picard = m.picard ∧ m.closeClients.1.io = m.io := by
  unfold closeClients
  split <;> exact ⟨rfl, rfl⟩

theorem resetConnection_threads (m : Mux) :
    m.resetConnection.1.picard = m.picard ∧
      m.resetConnection.1.io.seqNo = m.io.seqNo := by
  have threads := closeClients_threads { m with io := { m.io with isRunning := false } }
  have sameSeqNo := congrArg BasePicard.seqNo threads.2
  unfold resetConnection
  split <;> rename_i closed reset <;> rw [reset] at threads sameSeqNo <;>
    exact ⟨threads.1, sameSeqNo⟩

/-! ## Frames -/

theorem handleNotif_same (m : Mux) (notifType : Byte) (payload : ByteVector) :
    SameManager m (m.handleNotif notifType payload).1 := by
  unfold handleNotif
  split
  · exact SameManager.refl m
  · exact ⟨rfl, rfl, rfl, rfl, rfl, rfl, fun _ => rfl⟩

theorem handleEvent_same (m : Mux) (event : PicardEvent) :
    SameManager m (m.handleEvent event).1 := by
  cases event with
  | sendRaw data => exact SameManager.refl m
  | handleNotif notifType payload => exact handleNotif_same m notifType payload
  | commandComplete response => exact ⟨rfl, rfl, rfl, rfl, rfl, rfl, fun _ => rfl⟩
  | notifyConnect => exact SameManager.refl m
  | resetConnection =>
      have same := resetConnection_same m
      simp only [handleEvent]
      split <;> rename_i closed reset <;> rw [reset] at same
      · exact same
      · exact ⟨same.loop, same.currentCommand, same.commands, same.filterUnion,
          same.prevfilter, same.removing, same.subscriber⟩

theorem handleEvents_same (m : Mux) (events : List PicardEvent) :
    SameManager m (m.handleEvents events).1 := by
  induction events generalizing m with
  | nil => exact SameManager.refl m
  | cons event rest inductionHypothesis =>
      exact (handleEvent_same m event).trans (inductionHypothesis (m.handleEvent event).1)

theorem receive_same (m : Mux) (frame : ByteVector) :
    SameManager m (m.receive frame).1 := by
  unfold receive
  split
  · have same := handleEvents_same { m with io := (m.io.frameComplete frame).1 }
      (m.io.frameComplete frame).2
    exact { same with }
  · exact SameManager.refl m

theorem notifyEach_passive
    {objects : ClientId → Client}
    {notifType : Byte}
    {payload : ByteVector}
    {clients : List ClientId}
    {outputs : List Output}
    (notified : notifyEach objects notifType payload clients = some outputs) :
    ∀ output ∈ outputs, output.isPassive := by
  induction clients generalizing outputs with
  | nil =>
      rw [notifyEach, Option.some.injEq] at notified
      simp [← notified]
  | cons client rest inductionHypothesis =>
      simp only [notifyEach, Option.bind_eq_bind, Option.bind_eq_some_iff] at notified
      obtain ⟨subscribed, -, others, rest, result⟩ := notified
      have passive := inductionHypothesis rest
      split at result <;> rw [Option.some.injEq] at result <;> subst result
      · simpa [Output.isPassive] using passive
      · exact passive

theorem handleEvent_passive (m : Mux) (event : PicardEvent) :
    ∀ output ∈ (m.handleEvent event).2, output.isPassive := by
  cases event with
  | sendRaw data => simp [handleEvent, Output.isPassive]
  | handleNotif notifType payload =>
      simp only [handleEvent, handleNotif]
      split
      · rename_i outputs notified
        exact notifyEach_passive notified
      · simp
  | commandComplete response => simp [handleEvent]
  | notifyConnect => simp [handleEvent]
  | resetConnection =>
      simp only [handleEvent]
      split <;> simp [Output.isPassive]

theorem handleEvents_passive (m : Mux) (events : List PicardEvent) :
    ∀ output ∈ (m.handleEvents events).2, output.isPassive := by
  induction events generalizing m with
  | nil => simp [handleEvents]
  | cons event rest inductionHypothesis =>
      simp only [handleEvents, List.mem_append]
      rintro output (first | later)
      · exact handleEvent_passive m event output first
      · exact inductionHypothesis (m.handleEvent event).1 output later

theorem handleNotif_seqNo (m : Mux) (notifType : Byte) (payload : ByteVector) :
    (m.handleNotif notifType payload).1.io.seqNo = m.io.seqNo := by
  unfold handleNotif
  split <;> rfl

theorem handleEvents_seqNo (m : Mux) (events : List PicardEvent) :
    (m.handleEvents events).1.io.seqNo = m.io.seqNo := by
  induction events generalizing m with
  | nil => rfl
  | cons event rest inductionHypothesis =>
      rw [handleEvents]
      dsimp only
      rw [inductionHypothesis]
      cases event with
      | sendRaw data => rfl
      | handleNotif notifType payload => exact handleNotif_seqNo m notifType payload
      | commandComplete response => rfl
      | notifyConnect => rfl
      | resetConnection =>
          have same := (resetConnection_threads m).2
          simp only [handleEvent]
          split <;> rename_i closed reset <;> rw [reset] at same <;> exact same

theorem receive_passive (m : Mux) (frame : ByteVector) :
    ∀ output ∈ (m.receive frame).2, output.isPassive := by
  unfold receive
  split
  · exact handleEvents_passive _ _
  · simp

/-- Without a command response the Picard thread stays where it is or ends. -/
theorem handleEvents_picard_of_no_response
    {m : Mux}
    {events : List PicardEvent}
    (noResponse : ∀ response, .commandComplete response ∉ events) :
    (m.handleEvents events).1.picard = m.picard ∨
      (m.handleEvents events).1.picard = .stopped ∨
      (m.handleEvents events).1.picard = .crashed := by
  induction events generalizing m with
  | nil => exact Or.inl rfl
  | cons event rest inductionHypothesis =>
      have others : ∀ response, .commandComplete response ∉ rest :=
        fun response mem => noResponse response (List.mem_cons_of_mem _ mem)
      have first : (m.handleEvent event).1.picard = m.picard ∨
          (m.handleEvent event).1.picard = .stopped ∨
          (m.handleEvent event).1.picard = .crashed := by
        cases event with
        | sendRaw data => exact Or.inl rfl
        | handleNotif notifType payload =>
            simp only [handleEvent, handleNotif]
            split <;> simp
        | commandComplete response =>
            exact absurd List.mem_cons_self (noResponse response)
        | notifyConnect => exact Or.inl rfl
        | resetConnection =>
            have same := (resetConnection_threads m).1
            simp only [handleEvent]
            split <;> rename_i closed reset <;> rw [reset] at same
            · exact Or.inl same
            · exact Or.inr (Or.inl rfl)
      rcases inductionHypothesis (m := (m.handleEvent event).1) others with
        same | stopped | crashed
      · rw [handleEvents]
        dsimp only
        rw [same]
        exact first
      · exact Or.inr (Or.inl stopped)
      · exact Or.inr (Or.inr crashed)

/-- A frame either answers a command, and then does nothing but move the number
on and call `commandComplete`, or the Picard thread stays where it is or ends. -/
theorem receive_cases (m : Mux) (frame : ByteVector) :
    (∃ response, m.picard = .reading ∧ Command.notification < response.cmdType ∧
      frame = 3 :: response.cmdType :: response.seqNo ::
        BitVec.ofNat 8 (response.payload.length + 1) :: response.respCode ::
          response.payload ∧
      m.receive frame =
        ({ m with
            io := { m.io with seqNo := response.seqNo + 1 }
            picard := .validating response }, [])) ∨
    (m.receive frame).1.picard = m.picard ∨
    (m.receive frame).1.picard = .stopped ∨
    (m.receive frame).1.picard = .crashed := by
  by_cases reading : m.picard = .reading
  · by_cases answered : ∃ response, .commandComplete response ∈ (m.io.frameComplete frame).2
    · obtain ⟨response, completes⟩ := answered
      obtain ⟨inRange, shape, result⟩ := BasePicard.frameComplete_commandComplete completes
      refine Or.inl ⟨response, reading, inRange, shape, ?_⟩
      rw [receive, if_pos reading, result]
      rfl
    · right
      rw [receive, if_pos reading]
      exact handleEvents_picard_of_no_response (not_exists.1 answered)
  · right
    left
    rw [receive, if_neg reading]

/-! ## Quiet actions -/

end Mux

/-- The actions that leave commands and filters alone. -/
def Action.isQuiet : Action → Bool
  | .addClient _ | .hangUp _ | .receive _ | .unregisterCallback | .stop => true
  | .addCommand _ _ | .removeClient _ | .eraseClient | .loop | .complete
  | .clearCommands => false

namespace Mux

theorem step_quiet
    {action : Action}
    (quiet : action.isQuiet)
    (retries : Int)
    (m : Mux) :
    SameManager m (step retries m action).1 ∧
      ∀ output ∈ (step retries m action).2, output.isPassive := by
  have idle : SameManager m m ∧ ∀ output ∈ ([] : List Output), output.isPassive :=
    ⟨SameManager.refl m, by simp⟩
  unfold step
  split
  · exact idle
  · cases action with
    | addClient client => exact ⟨addClient_same m client, by simp [perform]⟩
    | hangUp client =>
        have same : SameManager m
            (m.updateClient client fun object => { object with peerGone := true }) :=
          updateClient_same fun _ => rfl
        exact ⟨same, by simp [perform]⟩
    | receive frame => exact ⟨receive_same m frame, receive_passive m frame⟩
    | unregisterCallback =>
        simp only [perform]
        split
        · exact ⟨⟨rfl, rfl, rfl, rfl, rfl, rfl, fun _ => rfl⟩, by simp⟩
        · exact idle
    | stop =>
        simp only [perform]
        split
        · exact ⟨⟨rfl, rfl, rfl, rfl, rfl, rfl, fun _ => rfl⟩, by simp⟩
        · exact idle
    | addCommand | removeClient | eraseClient | loop | complete | clearCommands =>
        cases quiet

/-! ## The command in progress -/

end Mux

/-- What `m_currentCommand` holds while the command thread stands at a
statement: a copy of the command being transmitted, else no command. -/
def LoopPhase.AgreesWith (phase : LoopPhase) (current : ClientCommand) : Prop :=
  match phase with
  | .sending cmd _ | .recording cmd _ _ | .waiting cmd _ | .concluding cmd _
  | .restoring cmd | .resetting cmd | .timingOut cmd | .disconnecting cmd
  | .clearing cmd => current.client = cmd.client ∧ current.command = cmd.command
  | .crashed => True
  | .starting | .checking | .popping | .finding _ | .replying _ _ _ | .subscribing _
  | .recomputing _ | .rewriting _ | .installing _ | .finished =>
      current.client = none ∧ current.command = {} ∧ current.seq = 0

namespace Mux

variable {retries : Int} {m : Mux}

theorem removeClient_frame (m : Mux) (client : ClientId) :
    (m.removeClient client).loop = m.loop ∧
      (∃ result,
        (m.removeClient client).currentCommand =
          { m.currentCommand with result := result }) := by
  unfold removeClient
  split
  · dsimp only
    split
    · exact ⟨rfl, _, rfl⟩
    · exact ⟨rfl, m.currentCommand.result, rfl⟩
  · exact ⟨rfl, m.currentCommand.result, rfl⟩

theorem eraseClient_frame (m : Mux) :
    m.eraseClient.loop = m.loop ∧
      m.eraseClient.currentCommand = m.currentCommand := by
  unfold eraseClient
  split
  · exact ⟨rfl, rfl⟩
  · dsimp only [recomputeSubscribeFilter]
    split_ifs <;> exact ⟨rfl, rfl⟩

theorem eraseClient_picard (m : Mux) :
    m.eraseClient.picard = m.picard ∧ m.eraseClient.io.seqNo = m.io.seqNo := by
  unfold eraseClient
  split
  · exact ⟨rfl, rfl⟩
  · dsimp only [recomputeSubscribeFilter]
    split_ifs <;> exact ⟨rfl, rfl⟩

theorem deliver_frame (m : Mux) (response : Response) :
    (m.deliver response).1.loop = m.loop ∧
      (m.deliver response).1.currentCommand =
        { m.currentCommand with result := .ok } := by
  unfold deliver
  split <;> simp

theorem completeStep_frame (m : Mux) :
    m.completeStep.1.loop = m.loop ∧
      (∃ result,
        m.completeStep.1.currentCommand =
          { m.currentCommand with result := result }) := by
  unfold completeStep
  split
  · split_ifs <;> exact ⟨rfl, m.currentCommand.result, rfl⟩
  · exact ⟨rfl, m.currentCommand.result, rfl⟩
  · rename_i response _
    exact ⟨(deliver_frame m response).1, _, (deliver_frame m response).2⟩
  all_goals exact ⟨rfl, m.currentCommand.result, rfl⟩

@[simp] theorem removeClient_commands (m : Mux) (client : ClientId) :
    (m.removeClient client).commands = m.commands := by
  unfold removeClient
  split
  · dsimp only
    split <;> rfl
  · rfl

theorem completeStep_seqNo (m : Mux) : m.completeStep.1.io.seqNo = m.io.seqNo := by
  unfold completeStep
  split
  · split_ifs <;> rfl
  · rfl
  · unfold deliver
    split <;> simp
  all_goals rfl

theorem completeStep_silent (m : Mux) :
    ∀ output ∈ m.completeStep.2, output.isSilent := by
  unfold completeStep
  split
  · split_ifs <;> simp
  · simp
  · exact sendResponse_silent _ _ _
  all_goals simp

@[simp] theorem completeStep_commands (m : Mux) :
    m.completeStep.1.commands = m.commands := by
  unfold completeStep
  split
  · split_ifs <;> rfl
  · rfl
  · unfold deliver
    split <;> simp
  all_goals rfl

/-- The block of `removeClient` queues nothing but a re-SUBSCRIBE. -/
theorem mem_eraseClient_commands
    {cmd : ClientCommand}
    (queued : cmd ∈ m.eraseClient.commands) :
    cmd ∈ m.commands ∨
      cmd.client = none ∧ cmd.result = .timeout ∧ cmd.seq = 0 ∧
        cmd.command.type = Command.subscribe ∧
        cmd.command.data.length = subscribeParamsLength := by
  unfold eraseClient at queued
  split at queued
  · exact Or.inl queued
  · dsimp only [recomputeSubscribeFilter] at queued
    split_ifs at queued
    · rcases List.mem_append.1 queued with old | new
      · exact Or.inl old
      · unfold resubscribe at new
        split at new
        · rename_i payload written
          rw [List.mem_singleton.1 new]
          have size := filterToVector_length written
          exact Or.inr ⟨rfl, rfl, rfl, rfl, by simpa [MuxMessage.ofPayload] using size⟩
        · cases new
    · exact Or.inl queued
    · exact Or.inl queued

/-- The command thread takes commands from the queue and adds none. -/
theorem mem_loopStep_commands
    {cmd : ClientCommand}
    (queued : cmd ∈ (m.loopStep retries).1.commands) :
    cmd ∈ m.commands := by
  cases phase : m.loop <;> simp only [loopStep, phase] at queued
  case popping =>
      split at queued
      · exact queued
      · rename_i first rest commands
        rw [commands]
        exact List.mem_cons_of_mem _ queued
  case finding | rewriting => split at queued <;> exact queued
  case concluding => split_ifs at queued <;> exact queued
  case subscribing => split at queued <;> simpa using queued
  case resetting => simpa using queued
  case disconnecting =>
      have same := (resetConnection_same m).commands
      split at queued <;> rename_i closed reset <;> rw [reset] at same <;> exact same ▸ queued
  all_goals exact queued

/-- A queued command was queued before, is queued by its client, or is the re-SUBSCRIBE
of a client that leaves. -/
theorem mem_step_commands
    {action : Action}
    {cmd : ClientCommand}
    (queued : cmd ∈ (step retries m action).1.commands) :
    cmd ∈ m.commands ∨
    (∃ client command, action = .addCommand client command ∧
      cmd = { client := some client, command := command }) ∨
    cmd.client = none ∧ cmd.result = .timeout ∧ cmd.seq = 0 ∧
      cmd.command.type = Command.subscribe ∧
      cmd.command.data.length = subscribeParamsLength := by
  by_cases quiet : action.isQuiet
  · rw [(step_quiet quiet retries m).1.commands] at queued
    exact Or.inl queued
  · unfold step at queued
    split at queued
    · exact Or.inl queued
    · cases action with
      | loop => exact Or.inl (mem_loopStep_commands queued)
      | addCommand client command =>
          simp only [perform, addCommand] at queued
          split at queued
          · rcases List.mem_append.1 queued with old | new
            · exact Or.inl old
            · exact Or.inr (Or.inl ⟨client, command, rfl, List.mem_singleton.1 new⟩)
          · exact Or.inl queued
      | eraseClient => exact (mem_eraseClient_commands queued).imp id Or.inr
      | clearCommands =>
          simp only [perform] at queued
          split at queued
          · cases queued
          · exact Or.inl queued
      | complete => exact Or.inl (by simpa [perform] using queued)
      | removeClient client => exact Or.inl (by simpa [perform] using queued)
      | addClient | hangUp | receive | unregisterCallback | stop => exact absurd rfl quiet

/-- Only the command thread moves itself and changes more of the command in
progress than its result. -/
theorem step_frame
    {retries : Int}
    {m : Mux}
    {action : Action}
    (notLoop : action ≠ .loop) :
    (step retries m action).1.loop = m.loop ∧
      (∃ result,
        (step retries m action).1.currentCommand =
          { m.currentCommand with result := result }) := by
  have unchanged :
      m.currentCommand = { m.currentCommand with result := m.currentCommand.result } := rfl
  by_cases quiet : action.isQuiet
  · have same := (step_quiet quiet retries m).1
    exact ⟨same.loop, _, same.currentCommand⟩
  · unfold step
    split
    · exact ⟨rfl, _, unchanged⟩
    · cases action with
      | addCommand client command =>
          simp only [perform, addCommand]
          split <;> exact ⟨rfl, _, unchanged⟩
      | removeClient client => exact removeClient_frame m client
      | eraseClient =>
          have frame := eraseClient_frame m
          exact ⟨frame.1, _, frame.2⟩
      | loop => exact absurd rfl notLoop
      | complete => exact completeStep_frame m
      | clearCommands =>
          simp only [perform]
          split <;> exact ⟨rfl, _, unchanged⟩
      | addClient | hangUp | receive | unregisterCallback | stop =>
          exact absurd rfl quiet

theorem attempt_cases
    {cmd : ClientCommand}
    {i : Nat}
    {result : ClientResult}
    (decided : LoopPhase × List Output → Prop)
    (again : result = .timeout → (i : Int) < retries → decided (.sending cmd i, []))
    (leaves : result ≠ .timeout ∨ retries ≤ i →
      decided (.concluding cmd result, [.concluded result])) :
    decided (attempt retries cmd i result) := by
  unfold attempt
  split
  · rename_i goesOn
    exact again goesOn.1 goesOn.2
  · rename_i stops
    exact leaves (by by_cases timeout : result = .timeout <;> simp_all)

theorem dispatch_cases
    {cmd : ClientCommand}
    (decided : LoopPhase → Prop)
    (crashes : cmd.client = none → decided .crashed)
    (replies : ∀ sender resp, sender = .muxInfo ∨ sender = .commandError →
      decided (.replying cmd sender resp))
    (subscribes : cmd.command.type = Command.subscribe → cmd.client.isSome →
      cmd.command.size ≤ maxSerialApiCmdLen → decided (.subscribing cmd))
    (forwards : isPicardApiCommand cmd.command.type →
      ¬(cmd.command.type = Command.subscribe ∧ cmd.client.isSome) →
      decided (.installing cmd)) :
    decided (m.dispatch cmd) := by
  unfold dispatch
  split
  · split
    · exact replies _ _ (Or.inl rfl)
    · rename_i absent
      exact crashes absent
  · split
    · exact replies _ _ (Or.inr rfl)
    · rename_i valid
      simp only [not_or, not_not, BitVec.not_lt] at valid
      split
      · rename_i subscribe
        exact subscribes subscribe.1 subscribe.2 valid.2
      · rename_i other
        exact forwards valid.1 other

theorem loopStep_agrees
    (agrees : m.loop.AgreesWith m.currentCommand) :
    (m.loopStep retries).1.loop.AgreesWith (m.loopStep retries).1.currentCommand := by
  cases phase : m.loop <;> simp only [phase, LoopPhase.AgreesWith] at agrees <;>
    simp only [loopStep, phase]
  case starting => exact agrees
  case checking => split <;> exact agrees
  case popping => split <;> exact agrees
  case finding cmd =>
      split
      · exact dispatch_cases (fun next => next.AgreesWith m.currentCommand)
          (fun _ => trivial) (fun _ _ _ => agrees) (fun _ _ _ => agrees) (fun _ _ => agrees)
      · exact agrees
  case replying => exact agrees
  case subscribing cmd =>
      split
      · simpa [LoopPhase.AgreesWith] using agrees
      · trivial
  case recomputing => exact agrees
  case rewriting =>
      split
      · exact agrees
      · trivial
  case installing cmd =>
      exact attempt_cases (fun next => next.1.AgreesWith cmd) (fun _ _ => ⟨rfl, rfl⟩)
        (fun _ => ⟨rfl, rfl⟩)
  case sending => exact agrees
  case recording => exact agrees
  case waiting cmd i =>
      exact attempt_cases (fun next => next.1.AgreesWith m.currentCommand)
        (fun _ _ => agrees) (fun _ => agrees)
  case concluding cmd result => split_ifs <;> exact agrees
  case restoring => exact agrees
  case resetting => simpa [LoopPhase.AgreesWith] using agrees
  case timingOut => exact agrees
  case disconnecting cmd =>
      have same := resetConnection_same m
      split <;> rename_i closed reset <;> rw [reset] at same
      · have current : closed.currentCommand = m.currentCommand := same.currentCommand
        simpa only [LoopPhase.AgreesWith, current] using agrees
      · trivial
  case clearing => exact ⟨rfl, rfl, rfl⟩
  case finished => exact agrees
  case crashed => trivial

/-- The command thread and `m_currentCommand` agree in every step. -/
theorem step_agrees
    (action : Action)
    (agrees : m.loop.AgreesWith m.currentCommand) :
    (step retries m action).1.loop.AgreesWith
      (step retries m action).1.currentCommand := by
  by_cases loop : action = .loop
  · subst loop
    unfold step
    split
    · exact agrees
    · exact loopStep_agrees agrees
  · obtain ⟨sameLoop, result, sameCurrent⟩ := @step_frame retries m action loop
    rw [sameLoop, sameCurrent]
    cases phase : m.loop <;> rw [phase] at agrees <;> exact agrees

/-- Three statements of the command thread write `m_currentCommand`. -/
theorem loopStep_currentCommand
    (retries : Int)
    {m : Mux}
    (notInstalling : ∀ cmd, m.loop ≠ .installing cmd)
    (notRecording : ∀ cmd i frame, m.loop ≠ .recording cmd i frame)
    (notClearing : ∀ cmd, m.loop ≠ .clearing cmd) :
    (m.loopStep retries).1.currentCommand = m.currentCommand := by
  cases phase : m.loop <;> simp only [loopStep, phase]
  case installing cmd => exact absurd phase (notInstalling cmd)
  case recording cmd i frame => exact absurd phase (notRecording cmd i frame)
  case clearing cmd => exact absurd phase (notClearing cmd)
  case recomputing => rfl
  case popping | finding | rewriting => split <;> rfl
  case concluding => split_ifs <;> rfl
  case subscribing => split <;> simp
  case resetting => simp
  case disconnecting =>
      have same := (resetConnection_same m).currentCommand
      split <;> rename_i closed reset <;> rw [reset] at same <;> exact same

/-- What the command thread does to `m_currentCommand`. -/
theorem loopStep_current (retries : Int) (m : Mux) :
    ((m.loopStep retries).1.currentCommand.client = m.currentCommand.client ∧
      (m.loopStep retries).1.currentCommand.command = m.currentCommand.command) ∨
    m.loop = .installing (m.loopStep retries).1.currentCommand ∨
    (m.loopStep retries).1.currentCommand.client = none := by
  by_cases installs : ∃ cmd, m.loop = .installing cmd
  · obtain ⟨cmd, phase⟩ := installs
    exact Or.inr (Or.inl (by simp only [loopStep, phase]))
  by_cases clears : ∃ cmd, m.loop = .clearing cmd
  · obtain ⟨cmd, phase⟩ := clears
    exact Or.inr (Or.inr (by simp only [loopStep, phase]))
  left
  by_cases records : ∃ cmd i frame, m.loop = .recording cmd i frame
  · obtain ⟨cmd, i, frame, phase⟩ := records
    simp only [loopStep, phase, and_self]
  · have same := @loopStep_currentCommand retries m (fun cmd phase => installs ⟨cmd, phase⟩)
      (fun cmd i frame phase => records ⟨cmd, i, frame, phase⟩)
      (fun cmd phase => clears ⟨cmd, phase⟩)
    exact ⟨by rw [same], by rw [same]⟩

/-- The command thread leaves the Picard thread and its number alone. -/
theorem loopStep_picard (m : Mux) :
    (m.loopStep retries).1.picard = m.picard ∧
      (m.loopStep retries).1.io.seqNo = m.io.seqNo := by
  cases phase : m.loop <;> simp only [loopStep, phase]
  case popping | finding | rewriting => split <;> exact ⟨rfl, rfl⟩
  case concluding => split_ifs <;> exact ⟨rfl, rfl⟩
  case subscribing => split <;> simp
  case resetting => simp
  case recomputing => exact ⟨rfl, rfl⟩
  case disconnecting =>
      have same := resetConnection_threads m
      split <;> rename_i closed reset <;> rw [reset] at same <;> exact same
  all_goals exact ⟨trivial, trivial⟩

@[simp] theorem loopStep_removing (m : Mux) :
    (m.loopStep retries).1.removing = m.removing := by
  cases phase : m.loop <;> simp only [loopStep, phase]
  case popping | finding | rewriting => split <;> rfl
  case concluding => split_ifs <;> rfl
  case subscribing => split <;> simp
  case resetting => simp
  case recomputing => rfl
  case disconnecting =>
      have same := (resetConnection_same m).removing
      split <;> rename_i closed reset <;> rw [reset] at same <;> exact same

/-- Only frames and `commandComplete` move the Picard thread and its number. -/
theorem step_picard_frame
    {action : Action}
    (notReceive : ∀ frame, action ≠ .receive frame)
    (notComplete : action ≠ .complete) :
    (step retries m action).1.picard = m.picard ∧
      (step retries m action).1.io.seqNo = m.io.seqNo := by
  unfold step
  split
  · exact ⟨rfl, rfl⟩
  · cases action with
    | loop => exact loopStep_picard m
    | receive frame => exact absurd rfl (notReceive frame)
    | complete => exact absurd rfl notComplete
    | removeClient client =>
        simp only [perform, removeClient]
        split
        · dsimp only
          split <;> exact ⟨rfl, rfl⟩
        · exact ⟨rfl, rfl⟩
    | eraseClient => exact eraseClient_picard m
    | hangUp client => exact ⟨rfl, rfl⟩
    | addClient client =>
        simp only [perform, addClient]
        split <;> exact ⟨rfl, rfl⟩
    | addCommand client command =>
        simp only [perform, addCommand]
        split <;> exact ⟨rfl, rfl⟩
    | unregisterCallback | stop | clearCommands =>
        simp only [perform]
        split <;> exact ⟨rfl, rfl⟩

/-- A process that has crashed takes no step. -/
theorem run_of_crashed
    (crashed : m.hasCrashed)
    (actions : List Action) :
    Machine.run (step retries) m actions = (m, []) := by
  induction actions with
  | nil => rfl
  | cons action rest inductionHypothesis =>
      have idle : step retries m action = (m, []) := if_pos crashed
      rw [Machine.run_cons, idle, inductionHypothesis]
      rfl

end Mux

end SerialMux
