import SerialMux.World

/-!
# Agreement of the filters

`m_filterUnion` is what the clients want, and Picard's filter is what it was
told last.  The re-SUBSCRIBE of a departure carries the union of the moment at
which it is queued.  While no SUBSCRIBE that is processed before it changes the
union, and no filter changes between the forming of a union and its storing, the
newest re-SUBSCRIBE in the queue, or else the command in progress, carries the
present union, and at rest Picard holds it.
-/

namespace SerialMux

/-- The filter in the payload of a command. -/
def ClientCommand.params (cmd : ClientCommand) : Option SubscriptionParams :=
  vectorToFilter cmd.command.data

/-- A command without a client. -/
def ClientCommand.isResubscribe (cmd : ClientCommand) : Bool :=
  cmd.client.isNone

theorem ClientCommand.isResubscribe_iff {cmd : ClientCommand} :
    cmd.isResubscribe ↔ cmd.client = none := Option.isNone_iff_eq_none

/-- The filter that Picard holds when all queued re-SUBSCRIBEs are answered, if
it would hold `target` without them. -/
def ultimate (commands : List ClientCommand) (target : Option SubscriptionParams) :
    Option SubscriptionParams :=
  ((commands.filter ClientCommand.isResubscribe).map ClientCommand.params).getLast?.getD
    target

@[simp] theorem ultimate_nil (target : Option SubscriptionParams) :
    ultimate [] target = target := rfl

/-- A re-SUBSCRIBE that is popped becomes the target. -/
theorem ultimate_cons
    (cmd : ClientCommand)
    (rest : List ClientCommand)
    (target : Option SubscriptionParams) :
    ultimate (cmd :: rest) target =
      ultimate rest (if cmd.isResubscribe then cmd.params else target) := by
  unfold ultimate
  by_cases resubscribe : cmd.isResubscribe
  · rw [List.filter_cons_of_pos resubscribe, List.map_cons, List.getLast?_cons,
      if_pos resubscribe]
    rfl
  · rw [List.filter_cons_of_neg resubscribe, if_neg resubscribe]

/-- A re-SUBSCRIBE that is queued decides. -/
theorem ultimate_append_of_pos
    {cmd : ClientCommand}
    (resubscribe : cmd.isResubscribe)
    (commands : List ClientCommand)
    (target : Option SubscriptionParams) :
    ultimate (commands ++ [cmd]) target = cmd.params := by
  simp [ultimate, resubscribe, List.getLast?_append]

theorem ultimate_append_of_neg
    {cmd : ClientCommand}
    (ofClient : ¬cmd.isResubscribe)
    (commands : List ClientCommand)
    (target : Option SubscriptionParams) :
    ultimate (commands ++ [cmd]) target = ultimate commands target := by
  simp [ultimate, ofClient]

/-- Without a queued re-SUBSCRIBE the target decides. -/
theorem ultimate_of_not_any
    {commands : List ClientCommand}
    (noResubscribe : ¬commands.any ClientCommand.isResubscribe)
    (target : Option SubscriptionParams) :
    ultimate commands target = target := by
  have empty : commands.filter ClientCommand.isResubscribe = [] := by
    rw [List.filter_eq_nil_iff]
    intro cmd mem resubscribe
    exact noResubscribe (List.any_eq_true.2 ⟨cmd, mem, resubscribe⟩)
  simp [ultimate, empty]

/-- With a queued re-SUBSCRIBE the target does not matter. -/
theorem ultimate_of_any
    {commands : List ClientCommand}
    (queued : commands.any ClientCommand.isResubscribe)
    (target other : Option SubscriptionParams) :
    ultimate commands target = ultimate commands other := by
  obtain ⟨cmd, mem, resubscribe⟩ := List.any_eq_true.1 queued
  have present : cmd.params ∈
      (commands.filter ClientCommand.isResubscribe).map ClientCommand.params :=
    List.mem_map_of_mem (List.mem_filter.2 ⟨mem, resubscribe⟩)
  obtain ⟨last, isLast⟩ := Option.isSome_iff_exists.1
    (List.getLast?_isSome.2 (List.ne_nil_of_mem present))
  simp only [ultimate, isLast, Option.getD_some]

namespace LoopPhase

/-- The command that the command thread has popped. -/
def command : LoopPhase → Option ClientCommand
  | .finding cmd | .replying cmd _ _ | .subscribing cmd | .recomputing cmd
  | .rewriting cmd | .installing cmd | .sending cmd _ | .recording cmd _ _
  | .waiting cmd _ | .concluding cmd _ | .restoring cmd | .resetting cmd
  | .timingOut cmd | .disconnecting cmd | .clearing cmd => some cmd
  | .starting | .checking | .popping | .finished | .crashed => none

/-- No command is in progress. -/
def isIdle : LoopPhase → Bool
  | .starting | .checking | .popping | .finished => true
  | _ => false

end LoopPhase

/-- The union that the next statement stores. -/
def RecomputeStage.stored : RecomputeStage → Option SubscriptionParams
  | .storing newParamsUnion _ => some newParamsUnion
  | .comparing _ | .saving _ _ => none

/-- The union was compared with the one before and found to be the same. -/
def RecomputeStage.foundSame : RecomputeStage → Bool
  | .comparing _ => false
  | .saving _ changed | .storing _ changed => !changed

namespace RemovalStage

/-- A union is formed and not stored yet. -/
def isRecomputing : RemovalStage → Bool
  | .recomputing _ => true
  | .marking | .uniting | .serialising | .queueing _ => false

/-- A client is erased, and the union without it is not stored yet. -/
def isOutdated : RemovalStage → Bool
  | .uniting | .recomputing _ => true
  | .marking | .serialising | .queueing _ => false

/-- A re-SUBSCRIBE is about to be queued. -/
def resubscribes : RemovalStage → Bool
  | .serialising | .queueing _ => true
  | .marking | .uniting | .recomputing _ => false

/-- The payload of the re-SUBSCRIBE is written. -/
def isQueueing : RemovalStage → Bool
  | .queueing _ => true
  | .marking | .uniting | .recomputing _ | .serialising => false

end RemovalStage

/-- A SUBSCRIBE of a client that has been registered, or a re-SUBSCRIBE. -/
structure ClientCommand.Serves (cmd : ClientCommand) (objects : ClientId → Client) :
    Prop where
  subscribes : cmd.command.type = Command.subscribe
  long : subscribeParamsLength ≤ cmd.command.data.length
  short : cmd.command.data.length ≤ 65532
  owner : ∀ client, cmd.client = some client → (objects client).initState ≠ .waiting
  resubscribe : cmd.client = none → cmd.command.data.length = subscribeParamsLength
  unanswered : cmd.result ≠ .ok

/-- A command that is served stays so, whatever happens to the clients. -/
theorem ClientCommand.Serves.mono
    {cmd : ClientCommand}
    {before after : ClientId → Client}
    (serves : cmd.Serves before)
    (states : ∀ client, (after client).initState = .waiting →
      (before client).initState = .waiting) :
    cmd.Serves after :=
  { serves with
    owner := fun client owned waiting => serves.owner client owned (states client waiting) }

namespace Mux

/-- Bitwise union of the committed filters of the clients. -/
def committedUnion (m : Mux) : SubscriptionParams :=
  m.clients.foldl (fun params client => params.union (m.objects client).subscriber.params) {}

/-- The commands that are queued or in progress. -/
def held (m : Mux) : List ClientCommand :=
  m.loop.command.toList ++ m.commands

theorem held_of_command
    {m : Mux}
    {cmd : ClientCommand}
    (popped : m.loop.command = some cmd) :
    m.held = cmd :: m.commands := by
  rw [held, popped, Option.toList_some, List.singleton_append]

theorem newParamsUnion_eq_foldl (objects : ClientId → Client) (clients : List ClientId) :
    newParamsUnion objects clients =
      clients.foldl
        (fun params client => params.union (objects client).subscriber.newParams) {} := rfl

theorem newParamsUnion_congr
    (objects : ClientId → Client)
    {others : ClientId → Client}
    (same : ∀ client, (others client).subscriber.newParams =
      (objects client).subscriber.newParams)
    (clients : List ClientId) :
    newParamsUnion others clients = newParamsUnion objects clients := by
  simp only [newParamsUnion_eq_foldl, same]

/-- A client without a filter adds nothing. -/
theorem newParamsUnion_append
    {objects : ClientId → Client}
    {client : ClientId}
    (fresh : (objects client).subscriber.newParams = {})
    (clients : List ClientId) :
    newParamsUnion objects (clients ++ [client]) = newParamsUnion objects clients := by
  rw [newParamsUnion_eq_foldl, List.foldl_append, ← newParamsUnion_eq_foldl, List.foldl_cons,
    List.foldl_nil, fresh]
  simp [SubscriptionParams.union]

theorem newParamsUnion_of_settled
    {m : Mux}
    (settled : ∀ client, (m.objects client).subscriber.newParams =
      (m.objects client).subscriber.params) :
    newParamsUnion m.objects m.clients = m.committedUnion := by
  simp only [newParamsUnion_eq_foldl, settled, committedUnion]

end Mux

namespace World

/-! ## The runs and the property -/

/-- At rest Picard has the filter union, which joins the committed filters.  The
process rests when no command is queued or in progress and no `removeClient` is
under way with the clients locked. -/
def Agrees (w : World) : Prop :=
  w.mux.loop.isIdle → w.mux.commands = [] → ¬w.clientsLocked →
    w.filter = w.mux.filterUnion ∧ w.mux.filterUnion = w.mux.committedUnion

instance (w : World) : Decidable w.Agrees := inferInstanceAs (Decidable (_ → _ → _ → _))

/-- The command is transmitted at all, and is answered before the timeout. -/
def InTime (retries : Int) (w : World) : LoopPhase → Prop
  | .installing _ => 0 < retries
  | .waiting _ _ => w.block = none → w.mux.currentCommand.result ≠ .timeout
  | .starting | .checking | .popping | .finding _ | .replying _ _ _ | .subscribing _
  | .recomputing _ | .rewriting _ | .sending _ _ | .recording _ _ _ | .concluding _ _
  | .restoring _ | .resetting _ | .timingOut _ | .disconnecting _ | .clearing _
  | .finished | .crashed => True

/-- Clients come, subscribe and leave, and Picard answers every request once,
with OK and in time. -/
def Subscribing (retries : Int) (w : World) : WorldAction → Prop
  | .process (.addCommand _ command) =>
      command.type = Command.subscribe ∧ subscribeParamsLength ≤ command.data.length
  | .process .loop => w.InTime retries w.mux.loop
  | .process (.addClient _) | .process (.removeClient _) | .process .eraseClient
  | .process .complete => True
  | .answer index respCode _ => index = w.answered ∧ respCode = ErrorCode.ok
  | .process (.hangUp _) | .process (.receive _) | .process .unregisterCallback
  | .process .stop | .process .clearCommands | .announce _ => False

/-- A re-SUBSCRIBE is queued, or its payload is written. -/
def resubscribes (w : World) : Bool :=
  w.mux.commands.any ClientCommand.isResubscribe || w.removal.any RemovalStage.isQueueing

/-- The next statement of the command thread sets no filter between the forming and
the storing of a union in `removeClient`, does not change the union behind a
re-SUBSCRIBE, and does not find that a client has left. -/
def KeepsUnion (w : World) : LoopPhase → Prop
  | .subscribing _ => ¬w.removal.any RemovalStage.isRecomputing
  | .recomputing _ =>
      w.resubscribes → ∀ newParamsUnion ∈ w.recompute.bind RecomputeStage.stored,
        newParamsUnion = w.mux.filterUnion
  | .waiting _ _ => w.block = none → w.mux.currentCommand.result ≠ .disconnect
  | .starting | .checking | .popping | .finding _ | .replying _ _ _ | .rewriting _
  | .installing _ | .sending _ _ | .recording _ _ _ | .concluding _ _ | .restoring _
  | .resetting _ | .timingOut _ | .disconnecting _ | .clearing _ | .finished | .crashed => True

/-- The next statement of `removeClient` erases no client between the forming and the
storing of a union in `commandLoop`. -/
def ErasesApart (w : World) : Prop :=
  w.removal = none → ∀ client ∈ w.mux.removing, client ∈ w.mux.clients → w.recompute = none

/-- A step has none of the ways to a wrong filter. -/
def KeepsFilters (w : World) (action : WorldAction) : Prop :=
  (action = .process .loop → w.KeepsUnion w.mux.loop) ∧
    (action = .process .eraseClient → w.ErasesApart)

instance (retries : Int) (w : World) : (phase : LoopPhase) → Decidable (InTime retries w phase)
  | .installing _ => inferInstanceAs (Decidable (0 < retries))
  | .waiting _ _ => inferInstanceAs (Decidable (_ → _ ≠ _))
  | .starting | .checking | .popping | .finding _ | .replying _ _ _ | .subscribing _
  | .recomputing _ | .rewriting _ | .sending _ _ | .recording _ _ _ | .concluding _ _
  | .restoring _ | .resetting _ | .timingOut _ | .disconnecting _ | .clearing _
  | .finished | .crashed => isTrue trivial

instance (retries : Int) (w : World) :
    (action : WorldAction) → Decidable (Subscribing retries w action)
  | .process (.addCommand _ _) => inferInstanceAs (Decidable (_ ∧ _))
  | .process .loop => inferInstanceAs (Decidable (w.InTime retries w.mux.loop))
  | .process (.addClient _) | .process (.removeClient _) | .process .eraseClient
  | .process .complete => isTrue trivial
  | .answer _ _ _ => inferInstanceAs (Decidable (_ ∧ _))
  | .process (.hangUp _) | .process (.receive _) | .process .unregisterCallback
  | .process .stop | .process .clearCommands | .announce _ => isFalse id

instance (w : World) : (phase : LoopPhase) → Decidable (KeepsUnion w phase)
  | .subscribing _ => inferInstanceAs (Decidable (¬_))
  | .recomputing _ => inferInstanceAs (Decidable (_ → _))
  | .waiting _ _ => inferInstanceAs (Decidable (_ → _ ≠ _))
  | .starting | .checking | .popping | .finding _ | .replying _ _ _ | .rewriting _
  | .installing _ | .sending _ _ | .recording _ _ _ | .concluding _ _ | .restoring _
  | .resetting _ | .timingOut _ | .disconnecting _ | .clearing _ | .finished | .crashed =>
      isTrue trivial

instance (w : World) : Decidable w.ErasesApart := inferInstanceAs (Decidable (_ → _))

instance (w : World) (action : WorldAction) : Decidable (w.KeepsFilters action) :=
  inferInstanceAs (Decidable (_ ∧ _))

/-! ## The invariant -/

/-- Every request is answered, and every answer delivered. -/
def AllAnswered (w : World) : Prop :=
  w.answered = w.received.length ∧ w.mux.picard = .reading

instance (w : World) : Decidable w.AllAnswered := inferInstanceAs (Decidable (_ ∧ _))

/-- The filter that Picard holds when the command in progress is answered. -/
def target (w : World) : Option SubscriptionParams :=
  match w.mux.loop with
  | .finding cmd => if cmd.isResubscribe then cmd.params else some w.filter
  | .rewriting _ => some w.mux.filterUnion
  | .installing cmd | .sending cmd _ | .recording cmd _ _ => cmd.params
  | .waiting cmd _ => if w.answered < w.received.length then cmd.params else some w.filter
  | _ => some w.filter

/-- The client whose new filter is not committed. -/
def pending (w : World) : Option ClientId :=
  match w.mux.loop with
  | .recomputing cmd | .rewriting cmd | .installing cmd | .sending cmd _
  | .recording cmd _ _ => cmd.client
  | .waiting cmd _ => if w.AllAnswered then none else cmd.client
  | _ => none

/-- The command has been received by Picard and is not answered. -/
def Awaited (w : World) (cmd : ClientCommand) : Prop :=
  w.mux.picard = .reading ∧
    ∃ earlier request,
      w.received = earlier ++ [request] ∧ w.answered = earlier.length ∧
      request.type = Command.subscribe ∧ request.seqNo = w.mux.currentCommand.seq ∧
      vectorToFilter request.payload = cmd.params

/-- The answer to the command is on its way through `commandComplete`. -/
def Arriving (w : World) : Prop :=
  w.answered = w.received.length ∧
    (∀ expectedSeq, w.expectedSeq = some expectedSeq →
      expectedSeq = w.mux.currentCommand.seq) ∧
    (w.block = some .writing ∨ w.block = some .committing →
      w.mux.currentCommand.client.isSome) ∧
    ∃ response, (w.mux.picard = .validating response ∨ w.mux.picard = .delivering response) ∧
      response.cmdType = Command.subscribe ∧
      response.seqNo = w.mux.currentCommand.seq ∧ response.respCode = ErrorCode.ok

/-- What has been sent and answered when the command thread stands at a
statement. -/
def Exchanges (w : World) : LoopPhase → Prop
  | .sending _ _ => w.AllAnswered ∧ w.mux.currentCommand.result ≠ .ok
  | .recording cmd _ frame =>
      w.AllAnswered ∧ w.mux.currentCommand.result ≠ .ok ∧
        frame = BasePicard.commandFrame cmd.command w.mux.io.seqNo ∧
        (w.recorded → w.mux.currentCommand.seq = w.mux.io.seqNo)
  | .waiting cmd _ =>
      w.AllAnswered ∨
        (w.block = none → w.mux.currentCommand.result ≠ .ok) ∧ (w.Awaited cmd ∨ w.Arriving)
  | .concluding _ result => w.AllAnswered ∧ result = .ok
  | .starting | .checking | .popping | .finding _ | .replying _ _ _ | .subscribing _
  | .recomputing _ | .rewriting _ | .installing _ | .clearing _ | .finished => w.AllAnswered
  | .restoring _ | .resetting _ | .timingOut _ | .disconnecting _ | .crashed => False

/-- How the unions that are formed and stored belong together.  A union that is formed is the
present one; `m_filterUnion` is it where no client's filter is new and no client is just
erased, and where no re-SUBSCRIBE is about to be queued, the commands lead Picard to it. -/
structure Unions (w : World) : Prop where
  joined : ∀ stage, w.recompute = some stage →
    stage.newParamsUnion = Mux.newParamsUnion w.mux.objects w.mux.clients
  departed : ∀ stage, w.removal = some (.recomputing stage) →
    stage.newParamsUnion = Mux.newParamsUnion w.mux.objects w.mux.clients
  same : ∀ stage, w.removal = some (.recomputing stage) → stage.foundSame →
    stage.newParamsUnion = w.mux.filterUnion
  union : (∀ cmd, w.mux.loop ≠ .recomputing cmd) → ¬w.removal.any RemovalStage.isOutdated →
    w.mux.filterUnion = Mux.newParamsUnion w.mux.objects w.mux.clients
  aims : ¬w.removal.any RemovalStage.resubscribes →
    ultimate w.mux.commands w.target = some w.mux.filterUnion
  written : ∀ payload, w.removal = some (.queueing payload) →
    vectorToFilter payload = some w.mux.filterUnion ∧ payload.length = subscribeParamsLength

/-- What the runs preserve that keep the union. -/
structure Consistent (w : World) : Prop where
  sound : w.toProcess.Sound
  registered : w.mux.io.callback
  held : ∀ cmd ∈ w.mux.held, cmd.Serves w.mux.objects
  forwarded : ∀ cmd, w.mux.loop.forwarded = some cmd → cmd.command.size ≤ maxSerialApiCmdLen
  newcomers : ∀ client, (w.mux.objects client).initState = .waiting →
    (w.mux.objects client).subscriber = {}
  settled : ∀ client, some client ≠ w.pending →
    (w.mux.objects client).subscriber.newParams = (w.mux.objects client).subscriber.params
  unions : w.Unions
  exchange : w.Exchanges w.mux.loop

variable {retries : Int} {w : World}

theorem Consistent.agree
    (consistent : Consistent w) :
    w.Agrees := by
  intro idle empty unlocked
  obtain ⟨-, -, -, union, aims, -⟩ := consistent.unions
  have settled := consistent.settled
  have calm : ¬w.removal.any RemovalStage.isOutdated ∧
      ¬w.removal.any RemovalStage.resubscribes := by
    cases removal : w.removal with
    | none => simp
    | some stage =>
        rw [Process.clientsLocked, removal, Option.any_some] at unlocked
        cases stage <;> simp_all [RemovalStage.locksClients, RemovalStage.isOutdated,
          RemovalStage.resubscribes]
  have aimed := aims calm.2
  rw [empty, ultimate_nil] at aimed
  cases phase : w.mux.loop <;> rw [phase] at idle union <;>
    simp only [target, pending, phase] at aimed settled
  case starting | checking | popping | finished =>
      rw [← Mux.newParamsUnion_of_settled fun client => settled client (by simp)]
      exact ⟨Option.some.inj aimed, union (by simp) calm.1⟩
  all_goals cases idle

/-- The process does not crash in these runs. -/
theorem Consistent.running
    (consistent : Consistent w) :
    ¬w.mux.hasCrashed := by
  have exchange := consistent.exchange
  rw [Mux.not_hasCrashed_iff]
  constructor
  · intro loop
    rw [loop] at exchange
    exact exchange
  · intro picard
    cases phase : w.mux.loop <;> rw [phase] at exchange <;>
      simp [Exchanges, AllAnswered, Awaited, Arriving, picard] at exchange

/-- A step that forms and stores no union answers for what the commands lead to. -/
theorem Unions.moves
    (unions : w.Unions)
    {next : World}
    (newParamsUnion : Mux.newParamsUnion next.mux.objects next.mux.clients =
      Mux.newParamsUnion w.mux.objects w.mux.clients)
    (filterUnion : next.mux.filterUnion = w.mux.filterUnion)
    (recompute : next.recompute = w.recompute)
    (removal : next.removal = w.removal)
    (union : (∀ cmd, next.mux.loop ≠ .recomputing cmd) → ¬w.removal.any RemovalStage.isOutdated →
      w.mux.filterUnion = Mux.newParamsUnion w.mux.objects w.mux.clients)
    (aims : ¬w.removal.any RemovalStage.resubscribes →
      ultimate next.mux.commands next.target = some w.mux.filterUnion) :
    next.Unions where
  joined := by
    rw [recompute, newParamsUnion]
    exact unions.joined
  departed := by
    rw [removal, newParamsUnion]
    exact unions.departed
  same := by
    rw [removal, filterUnion]
    exact unions.same
  union := by
    rw [removal, filterUnion, newParamsUnion]
    exact union
  aims := by
    rw [removal, filterUnion]
    exact aims
  written := by
    rw [removal, filterUnion]
    exact unions.written

/-! ## The I/O thread -/

/-- The I/O thread leaves the other threads and the subscribers alone, and answers for
the queue and the unions. -/
theorem Consistent.aside
    (consistent : Consistent w)
    {next : Process}
    (sound : next.Sound)
    (same : Process.SameThreads w.toProcess next)
    (sameIo : next.mux.io = w.mux.io)
    (result : next.mux.currentCommand.result = .ok → w.mux.currentCommand.result = .ok)
    (states : ∀ client, (next.mux.objects client).initState = .waiting →
      (w.mux.objects client).initState = .waiting)
    (queued : ∀ cmd ∈ next.mux.commands, cmd ∈ w.mux.commands ∨ cmd.Serves next.mux.objects)
    (unions : ({ w with toProcess := next } : World).Unions) :
    Consistent { w with toProcess := next } := by
  obtain ⟨sameLoop, samePicard, -, ⟨_, current⟩, subscribers, sameExpected, sameBlock, -,
    sameRecorded⟩ := same
  have sameSeq : next.mux.currentCommand.seq = w.mux.currentCommand.seq := by rw [current]
  have sameClient : next.mux.currentCommand.client = w.mux.currentCommand.client := by
    rw [current]
  have serves : ∀ cmd ∈ w.mux.held, cmd.Serves next.mux.objects :=
    fun cmd mem => (consistent.held cmd mem).mono states
  constructor
  case sound => exact sound
  case registered =>
      rw [sameIo]
      exact consistent.registered
  case held =>
      intro cmd mem
      rcases List.mem_append.1 mem with popped | commands
      · rw [sameLoop] at popped
        exact serves cmd (List.mem_append_left _ popped)
      · rcases queued cmd commands with old | new
        · exact serves cmd (List.mem_append_right _ old)
        · exact new
  case forwarded =>
      rw [sameLoop]
      exact consistent.forwarded
  case newcomers =>
      intro client waiting
      rw [subscribers]
      exact consistent.newcomers client (states client waiting)
  case settled =>
      have samePending : ({ w with toProcess := next } : World).pending = w.pending := by
        have sameAnswers : ({ w with toProcess := next } : World).AllAnswered ↔ w.AllAnswered := by
          simp only [AllAnswered, samePicard]
        simp only [pending, sameLoop, sameAnswers]
      intro client notPending
      rw [samePending] at notPending
      rw [subscribers]
      exact consistent.settled client notPending
  case unions => exact unions
  case exchange =>
      have exchange := consistent.exchange
      dsimp only
      rw [sameLoop]
      cases phase : w.mux.loop <;> rw [phase] at exchange <;>
        simp only [Exchanges, AllAnswered, Awaited, Arriving, samePicard, sameIo, sameSeq,
          sameClient, sameExpected, sameBlock, sameRecorded] at exchange ⊢
      case sending => exact ⟨exchange.1, fun ok => exchange.2 (result ok)⟩
      case recording => exact ⟨exchange.1, fun ok => exchange.2.1 (result ok), exchange.2.2⟩
      case waiting =>
          rcases exchange with answered | ⟨notOk, on⟩
          · exact Or.inl answered
          · exact Or.inr ⟨fun free ok => notOk free (result ok), on⟩
      all_goals exact exchange

theorem target_of_union
    {next : Process}
    (sameLoop : next.mux.loop = w.mux.loop)
    (sameUnion : next.mux.filterUnion = w.mux.filterUnion) :
    ({ w with toProcess := next } : World).target = w.target := by
  simp only [target, sameLoop, sameUnion]

/-- The I/O thread changes no union outside `removeClient`. -/
theorem Unions.aside
    (unions : w.Unions)
    {next : Process}
    (same : Process.SameThreads w.toProcess next)
    (sameUnion : next.mux.filterUnion = w.mux.filterUnion)
    (newParamsUnion : Mux.newParamsUnion next.mux.objects next.mux.clients =
      Mux.newParamsUnion w.mux.objects w.mux.clients)
    (commands : ∀ target, ultimate next.mux.commands target = ultimate w.mux.commands target)
    (removal : next.removal = w.removal ∨
      ¬w.removal.any RemovalStage.isOutdated ∧ ¬w.removal.any RemovalStage.resubscribes ∧
        (next.removal = none ∨ next.removal = some .marking)) :
    ({ w with toProcess := next } : World).Unions := by
  have sameTarget := target_of_union (w := w) same.loop sameUnion
  obtain ⟨joined, departed, foundSame, union, aims, written⟩ := unions
  refine ⟨?_, ?_, ?_, ?_, ?_, ?_⟩
  · intro stage inside
    rw [newParamsUnion]
    exact joined stage (same.recompute.symm.trans inside)
  · intro stage inside
    rcases removal with stays | ⟨-, -, left | left⟩
    · rw [newParamsUnion]
      exact departed stage (stays.symm.trans inside)
    all_goals
      rw [left] at inside
      cases inside
  · intro stage inside isSame
    rcases removal with stays | ⟨-, -, left | left⟩
    · rw [sameUnion]
      exact foundSame stage (stays.symm.trans inside) isSame
    all_goals
      rw [left] at inside
      cases inside
  · intro notRecomputing notOutdated
    dsimp only at notRecomputing ⊢
    rw [same.loop] at notRecomputing
    rw [sameUnion, newParamsUnion]
    refine union notRecomputing ?_
    rcases removal with stays | ⟨notBefore, -⟩
    · rw [← stays]
      exact notOutdated
    · exact notBefore
  · intro notResubscribing
    rw [sameTarget]
    dsimp only
    rw [commands, sameUnion]
    refine aims ?_
    rcases removal with stays | ⟨-, notBefore, -⟩
    · rw [← stays]
      exact notResubscribing
    · exact notBefore
  · intro payload inside
    rcases removal with stays | ⟨-, -, left | left⟩
    · rw [sameUnion]
      exact written payload (stays.symm.trans inside)
    all_goals
      rw [left] at inside
      cases inside

theorem Consistent.addClient
    (consistent : Consistent w)
    (client : ClientId) :
    Consistent (w.step retries (.process (.addClient client))).1 := by
  have sound := @Process.step_sound retries w.toProcess (.addClient client) consistent.sound
  have same := (@Process.step_sameThreads retries w.toProcess (.addClient client) (by simp)
    (by simp) (by simp)).1
  rw [step_process (by simp) (by simp)]
  have outside : w.toProcess.step retries (.addClient client) =
      ({ w.toProcess with mux := w.mux.addClient client }, []) := by
    rw [Process.step, if_neg consistent.running]
    simp only [Process.outerStep, Mux.step, if_neg consistent.running, Mux.perform]
  rw [outside] at sound same ⊢
  unfold Mux.addClient at sound same ⊢
  split at sound
  case isFalse unhandled =>
      rw [if_neg unhandled]
      exact consistent
  case isTrue handled =>
      rw [if_pos handled] at same ⊢
      have subscribers : Mux.SameManager w.mux
          (w.mux.updateClient client fun object => { object with initState := .authenticated }) :=
        Mux.updateClient_same fun _ => rfl
      have waiting : (w.mux.objects client).initState = .waiting := by
        simp only [Mux.handles, Bool.and_eq_true, beq_iff_eq] at handled
        exact handled.2
      refine consistent.aside sound same rfl id ?_ (fun _ => Or.inl)
        (consistent.unions.aside same rfl ?_ (fun _ => rfl) (Or.inl rfl))
      · intro other state
        by_cases added : other = client
        · rw [added]
          exact waiting
        · simpa [Mux.updateClient, added] using state
      · rw [Mux.newParamsUnion_congr w.mux.objects fun other => by rw [subscribers.subscriber]]
        exact Mux.newParamsUnion_append (by rw [consistent.newcomers client waiting]) _

theorem Consistent.addCommand
    (consistent : Consistent w)
    (client : ClientId)
    {command : MuxMessage}
    (subscribes : command.type = Command.subscribe)
    (long : subscribeParamsLength ≤ command.data.length) :
    Consistent (w.step retries (.process (.addCommand client command))).1 := by
  have sound := @Process.step_sound retries w.toProcess (.addCommand client command)
    consistent.sound
  have same := (@Process.step_sameThreads retries w.toProcess (.addCommand client command)
    (by simp) (by simp) (by simp)).1
  rw [step_process (by simp) (by simp)]
  have outside : w.toProcess.step retries (.addCommand client command) =
      ({ w.toProcess with mux := w.mux.addCommand client command }, []) := by
    rw [Process.step, if_neg consistent.running]
    simp only [Process.outerStep, Mux.step, if_neg consistent.running, Mux.perform]
  rw [outside] at sound same ⊢
  unfold Mux.addCommand at sound same ⊢
  split at sound
  case isFalse unhandled =>
      rw [if_neg unhandled]
      exact consistent
  case isTrue handled =>
      rw [if_pos handled] at same ⊢
      refine consistent.aside sound same rfl id (fun _ => id) ?_
        (consistent.unions.aside same rfl rfl ?_ (Or.inl rfl))
      · intro cmd mem
        rcases List.mem_append.1 mem with old | new
        · exact Or.inl old
        · right
          rw [List.mem_singleton.1 new]
          refine ⟨subscribes, long, handled.2, ?_, (fun absurd => by cases absurd), by simp⟩
          rintro _ ⟨⟩ waiting
          have authenticated := handled.1
          simp only [Mux.handles, Bool.and_eq_true, beq_iff_eq] at authenticated
          rw [authenticated.2] at waiting
          cases waiting
      · intro target
        exact ultimate_append_of_neg (by simp [ClientCommand.isResubscribe]) _ _

/-- A departure begins. -/
theorem Consistent.removeClient
    (consistent : Consistent w)
    (client : ClientId) :
    Consistent (w.step retries (.process (.removeClient client))).1 := by
  have sound := @Process.step_sound retries w.toProcess (.removeClient client) consistent.sound
  have same := Process.removeClient_sameThreads w.toProcess client
  rw [step_process (by simp) (by simp)]
  rw [Process.step_removeClient consistent.running] at sound ⊢
  unfold Process.removeClient at sound same ⊢
  split at sound
  case isFalse unhandled =>
      rw [if_neg unhandled]
      exact consistent
  case isTrue handled =>
      rw [if_pos handled] at same ⊢
      have notRemoving : w.removal = none := by
        have free : w.mux.removing = none := by
          simp only [Mux.handles, Bool.and_eq_true, Option.isNone_iff_eq_none] at handled
          exact handled.1.1.2
        cases removal : w.removal with
        | none => rfl
        | some stage =>
            have removing := consistent.sound.removing (by rw [removal]; rfl)
            rw [free] at removing
            cases removing
      refine consistent.aside sound same rfl id ?_ (fun _ => Or.inl)
        (consistent.unions.aside same rfl ?_ (fun _ => rfl) (Or.inr ?_))
      · intro other waiting
        by_cases leaving : other = client
        · subst leaving
          simpa [Mux.updateClient] using waiting
        · simpa [Mux.updateClient, leaving] using waiting
      · exact Mux.newParamsUnion_congr w.mux.objects
          (fun other => by rw [same.subscriber]) _
      · rw [notRemoving]
        refine ⟨by simp, by simp, ?_⟩
        dsimp only
        split
        · exact Or.inr rfl
        · exact Or.inl rfl

/-- A statement of `removeClient`: the union that it stores is the present one, and if
that is new, a re-SUBSCRIBE of it is queued. -/
theorem removalStep_unions
    (unions : w.Unions)
    (apart : w.ErasesApart) :
    ({ w with toProcess := w.toProcess.removalStep } : World).Unions := by
  have same := Process.removalStep_sameThreads w.toProcess
  have statement := Process.removalStep_statement w.toProcess
  generalize w.toProcess.removalStep = next at same statement ⊢
  obtain ⟨joined, departed, foundSame, union, aims, written⟩ := id unions
  have calm (stage : RemovalStage) (isStage : w.removal = some stage)
      (notResubscribing : ¬stage.resubscribes) :
      ultimate w.mux.commands w.target = some w.mux.filterUnion :=
    aims (by rw [isStage]; exact notResubscribing)
  cases statement with
  | rests => exact unions
  | marks stage =>
      refine unions.aside same rfl rfl (fun _ => rfl) (Or.inr ?_)
      rw [stage]
      simp [RemovalStage.isOutdated, RemovalStage.resubscribes]
  | misses _ stage =>
      refine unions.aside same rfl rfl (fun _ => rfl) (Or.inr ?_)
      rw [stage]
      simp [Process.returned]
  | erases removing stage registered =>
      have notJoining := apart stage _ removing registered
      refine ⟨fun inside isInside => ?_, (fun _ impossible => by cases impossible),
        (fun _ impossible => by cases impossible), fun _ outdated => ?_, fun _ => ?_,
        (fun _ impossible => by cases impossible)⟩
      · rw [notJoining] at isInside
        cases isInside
      · exact absurd rfl outdated
      · exact aims (by simp [stage])
  | unites stage =>
      refine ⟨joined, ?_, ?_, fun _ outdated => absurd rfl outdated,
        fun _ => calm _ stage (by simp [RemovalStage.resubscribes]),
        (fun _ impossible => by cases impossible)⟩
      · rintro _ ⟨⟩
        rfl
      · rintro _ ⟨⟩ impossible
        cases impossible
  | @compares newParamsUnion stage =>
      refine ⟨joined, ?_, ?_, fun _ outdated => absurd rfl outdated,
        fun _ => calm _ stage (by simp [RemovalStage.resubscribes]),
        (fun _ impossible => by cases impossible)⟩
      · rintro _ ⟨⟩
        exact departed (.comparing newParamsUnion) stage
      · rintro _ ⟨⟩ unchanged
        simpa [RecomputeStage.foundSame, RecomputeStage.newParamsUnion] using unchanged
  | @saves newParamsUnion changed stage =>
      refine ⟨joined, ?_, ?_, fun _ outdated => absurd rfl outdated,
        fun _ => calm _ stage (by simp [RemovalStage.resubscribes]),
        (fun _ impossible => by cases impossible)⟩
      · rintro _ ⟨⟩
        exact departed (.saving newParamsUnion changed) stage
      · rintro _ ⟨⟩
        exact foundSame (.saving newParamsUnion changed) stage
  | stores stage =>
      exact ⟨joined, (fun _ impossible => by cases impossible),
        (fun _ impossible => by cases impossible), fun _ _ => departed _ stage,
        fun resubscribing => absurd rfl resubscribing, (fun _ impossible => by cases impossible)⟩
  | @ends newParamsUnion stage =>
      have unchanged : newParamsUnion = w.mux.filterUnion := foundSame _ stage rfl
      rw [unchanged] at same ⊢
      refine ⟨joined, (fun _ impossible => by cases impossible),
        (fun _ impossible => by cases impossible), fun _ _ => ?_, fun _ => ?_,
        (fun _ impossible => by cases impossible)⟩
      · rw [← unchanged]
        exact departed _ stage
      · exact calm _ stage (by simp [RemovalStage.resubscribes])
  | serialises stage payload =>
      refine ⟨joined, (fun _ impossible => by cases impossible),
        (fun _ impossible => by cases impossible), fun notRecomputing _ => ?_,
        fun resubscribing => absurd rfl resubscribing, ?_⟩
      · exact union notRecomputing (by simp [stage, RemovalStage.isOutdated])
      · rintro _ ⟨⟩
        exact ⟨vectorToFilter_of_filterToVector payload,
          (filterToVector_length payload).trans List.length_replicate⟩
  | queues stage =>
      refine ⟨joined, (fun _ impossible => by cases impossible),
        (fun _ impossible => by cases impossible), fun notRecomputing _ => ?_, fun _ => ?_,
        (fun _ impossible => by cases impossible)⟩
      · exact union notRecomputing (by simp [stage, RemovalStage.isOutdated])
      · exact (ultimate_append_of_pos rfl _ _).trans (written _ stage).1

theorem Consistent.eraseClient
    (consistent : Consistent w)
    (apart : w.ErasesApart) :
    Consistent (w.step retries (.process .eraseClient)).1 := by
  have sound := @Process.step_sound retries w.toProcess .eraseClient consistent.sound
  have same := Process.removalStep_sameThreads w.toProcess
  have unions := removalStep_unions consistent.unions apart
  have queued := @Process.mem_removalStep_commands w.toProcess
  have statement := Process.removalStep_statement w.toProcess
  rw [step_process (by simp) (by simp)]
  rw [Process.step_eraseClient consistent.running] at sound ⊢
  generalize w.toProcess.removalStep = next at sound same unions queued statement ⊢
  refine consistent.aside sound same ?_ ?_ ?_ ?_ unions
  · cases statement <;> rfl
  · cases statement with
    | marks => exact fun impossible => by cases impossible
    | _ => exact id
  · cases statement <;> exact fun _ => id
  · intro cmd mem
    rcases queued mem with old | ⟨payload, stage, rfl⟩
    · exact Or.inl old
    · have length := (consistent.unions.written payload stage).2
      exact Or.inr ⟨rfl, length.ge, length.le.trans (by decide), (fun _ absurd => by cases absurd),
        fun _ => length, by simp⟩

/-! ## Answers -/

/-- A response is handled only while its command waits. -/
theorem Consistent.arriving
    (consistent : Consistent w)
    (handles : w.mux.picard ≠ .reading) :
    ∃ cmd i,
      w.mux.loop = .waiting cmd i ∧ (w.block = none → w.mux.currentCommand.result ≠ .ok) ∧
        w.Arriving := by
  have exchange := consistent.exchange
  cases phase : w.mux.loop <;> rw [phase] at exchange
  case waiting cmd i =>
      rcases exchange with answered | ⟨notOk, awaited | arriving⟩
      · exact absurd answered.2 handles
      · exact absurd awaited.1 handles
      · exact ⟨cmd, i, rfl, notOk, arriving⟩
  case restoring | resetting | timingOut | disconnecting | crashed => exact exchange.elim
  case sending => exact absurd exchange.1.2 handles
  case recording => exact absurd exchange.1.2 handles
  case concluding => exact absurd exchange.1.2 handles
  all_goals exact absurd exchange.2 handles

/-- The command that waits is the current command. -/
theorem Consistent.current
    (consistent : Consistent w)
    {cmd : ClientCommand}
    {i : Nat}
    (phase : w.mux.loop = .waiting cmd i) :
    w.mux.currentCommand.client = cmd.client ∧
      w.mux.currentCommand.command.type = Command.subscribe ∧ cmd.Serves w.mux.objects := by
  have agrees := consistent.sound.mux.agrees
  rw [phase] at agrees
  have serves : cmd.Serves w.mux.objects := by
    refine consistent.held cmd (List.mem_append_left _ ?_)
    rw [phase]
    exact List.mem_singleton.2 rfl
  exact ⟨agrees.1, by rw [agrees.2, serves.subscribes], serves⟩

/-- The Picard thread goes on with the response to the command that waits. -/
theorem Consistent.proceeds
    (consistent : Consistent w)
    {next : Process}
    (sound : next.Sound)
    {cmd : ClientCommand}
    {i : Nat}
    (phase : w.mux.loop = .waiting cmd i)
    (handles : w.mux.picard ≠ .reading)
    (goesOn : next.mux.picard ≠ .reading)
    (current : ClientCommand)
    (picard : PicardPhase)
    (sameMux : next.mux = { w.mux with currentCommand := current, picard := picard })
    (removal : next.removal = w.removal)
    (recompute : next.recompute = w.recompute)
    (exchange : ({ w with toProcess := next } : World).Exchanges (.waiting cmd i)) :
    Consistent { w with toProcess := next } := by
  have settled := consistent.settled
  have open' : ¬w.AllAnswered := fun answered => handles answered.2
  have stillOpen : ¬({ w with toProcess := next } : World).AllAnswered :=
    fun answered => goesOn answered.2
  have samePhase : next.mux.loop = .waiting cmd i := by rw [sameMux, ← phase]
  have sameTarget : ({ w with toProcess := next } : World).target = w.target := by
    simp only [target, sameMux]
  have samePending : ({ w with toProcess := next } : World).pending = w.pending := by
    simp only [pending, samePhase, phase, if_neg open', if_neg stillOpen]
  have unions : ({ w with toProcess := next } : World).Unions := by
    refine consistent.unions.moves ?_ ?_ recompute removal ?_ ?_
    · dsimp only
      rw [sameMux]
    · dsimp only
      rw [sameMux]
    · exact fun _ => consistent.unions.union (by simp [phase])
    · rw [sameTarget]
      dsimp only
      rw [sameMux]
      exact consistent.unions.aims
  refine ⟨sound, ?_, ?_, ?_, ?_, ?_, unions, ?_⟩
  · rw [sameMux]
    exact consistent.registered
  · rw [sameMux]
    exact consistent.held
  · rw [sameMux]
    exact consistent.forwarded
  · rw [sameMux]
    exact consistent.newcomers
  · rw [samePending, sameMux]
    exact settled
  · dsimp only
    rw [samePhase]
    exact exchange

/-- The Picard thread is done with the response: the filter of the command that waits is
settled. -/
theorem Consistent.done
    (consistent : Consistent w)
    {cmd : ClientCommand}
    {i : Nat}
    (phase : w.mux.loop = .waiting cmd i)
    (handles : w.mux.picard ≠ .reading)
    (answered : w.answered = w.received.length)
    (change : Subscriber → Subscriber)
    (newParams : ∀ subscriber, (change subscriber).newParams = subscriber.newParams)
    (params : ∀ client, cmd.client = some client →
      (change (w.mux.objects client).subscriber).params =
        (w.mux.objects client).subscriber.newParams)
    (sound : Process.Sound (Process.leave
      { w.toProcess with mux := w.mux.updateSubscriber cmd.client change })) :
    Consistent { w with
      toProcess := Process.leave
        { w.toProcess with mux := w.mux.updateSubscriber cmd.client change } } := by
  obtain ⟨-, -, serves⟩ := consistent.current phase
  have settled := consistent.settled
  have open' : ¬w.AllAnswered := fun all => handles all.2
  simp only [pending, phase, if_neg open'] at settled
  have subscribers : ∀ client,
      ((w.mux.updateSubscriber cmd.client change).objects client).subscriber =
        if some client = cmd.client then change (w.mux.objects client).subscriber
        else (w.mux.objects client).subscriber := by
    intro client
    cases owner : cmd.client with
    | none => rfl
    | some subscribing =>
        simp only [Mux.updateSubscriber_subscriber, Option.some.injEq]
        by_cases same : client = subscribing
        · rw [same]
        · simp only [same, if_false]
  have sameUnion : Mux.newParamsUnion (w.mux.updateSubscriber cmd.client change).objects
      w.mux.clients = Mux.newParamsUnion w.mux.objects w.mux.clients := by
    apply Mux.newParamsUnion_congr
    intro client
    rw [subscribers]
    split
    · exact newParams _
    · rfl
  have sameTarget : ({ w with
      toProcess := Process.leave
        { w.toProcess with mux := w.mux.updateSubscriber cmd.client change } } : World).target =
      w.target := by
    simp [target, Process.leave]
  refine ⟨sound, ?_, ?_, ?_, ?_, ?_, consistent.unions.moves ?_ ?_ rfl rfl ?_ ?_, ?_⟩
  · simpa [Process.leave] using consistent.registered
  · intro other mem
    simp only [Mux.held, Process.leave, Mux.updateSubscriber_loop,
      Mux.updateSubscriber_commands] at mem
    exact (consistent.held other mem).mono fun client waiting => by
      simpa [Process.leave] using waiting
  · simpa [Process.leave] using consistent.forwarded
  · intro client waiting
    simp only [Process.leave, Mux.updateSubscriber_initState] at waiting ⊢
    rw [subscribers, if_neg fun same => serves.owner client same.symm waiting]
    exact consistent.newcomers client waiting
  · intro client _
    simp only [Process.leave]
    rw [subscribers]
    split
    · rename_i same
      rw [newParams, params client same.symm]
    · rename_i different
      exact settled client different
  · simpa [Process.leave] using sameUnion
  · simp [Process.leave]
  · exact fun _ => consistent.unions.union (by simp [phase])
  · rw [sameTarget]
    simpa [Process.leave] using consistent.unions.aims
  · simp only [Process.leave, Mux.updateSubscriber_loop, phase]
    exact Or.inl ⟨answered, rfl⟩

/-- A statement of `commandComplete`: the new filter is committed before the Picard
thread reads again. -/
theorem Consistent.complete
    (consistent : Consistent w) :
    Consistent (w.step retries (.process .complete)).1 := by
  have sound := consistent.sound.complete
  have statement := Process.completeStep_statement w.toProcess
  rw [step_process (by simp) (by simp), Process.step_complete consistent.running]
  by_cases reading : w.mux.picard = .reading
  · have rests : w.toProcess.completeStep = (w.toProcess, []) := by
      rw [Process.completeStep, reading]
    rw [rests]
    exact consistent
  obtain ⟨cmd, i, phase, notOk, last, expected, hasClient, response, handles, sameType,
    sameSeqNo, ok⟩ := consistent.arriving reading
  obtain ⟨sameClient, type, -⟩ := consistent.current phase
  have notRejecting : ∀ other, w.mux.picard ≠ .rejecting other := by
    intro other rejecting
    rw [rejecting] at handles
    simp at handles
  have handled : ∀ other, w.mux.picard.response = some other → other = response := by
    intro other isOther
    rcases handles with validating | delivering
    · rw [validating] at isOther
      exact (Option.some.inj isOther).symm
    · rw [delivering] at isOther
      exact (Option.some.inj isOther).symm
  generalize w.toProcess.completeStep = result at sound statement ⊢
  cases statement with
  | rests => exact consistent
  | @expects other validating called =>
      refine consistent.proceeds sound phase reading reading w.mux.currentCommand w.mux.picard
        rfl rfl rfl
        (Or.inr ⟨notOk,
          Or.inr ⟨last, ?_, hasClient, response, handles, sameType, sameSeqNo, ok⟩⟩)
      rintro _ ⟨⟩
      rfl
  | @refuses other expectedSeq validating isExpected differs =>
      obtain rfl := handled other (by rw [validating]; rfl)
      rcases differs with otherType | otherSeq
      · exact absurd (sameType.trans type.symm) otherType
      · exact absurd (sameSeqNo.trans (expected expectedSeq isExpected).symm) otherSeq
  | @rejects other _ validating _ _ _ rejected =>
      obtain rfl := handled other (by rw [validating]; rfl)
      exact absurd ok rejected.2
  | @accepts other _ validating =>
      obtain rfl := handled other (by rw [validating]; rfl)
      exact consistent.proceeds sound phase reading (by simp) w.mux.currentCommand _ rfl rfl rfl
        (Or.inr ⟨notOk, Or.inr ⟨last, (fun _ impossible => by cases impossible),
          hasClient, other, Or.inr rfl, sameType, sameSeqNo, ok⟩⟩)
  | restores rejecting => exact absurd rejecting (notRejecting _)
  | marks =>
      exact consistent.proceeds sound phase reading reading _ w.mux.picard rfl rfl rfl
        (Or.inr ⟨(fun impossible => by cases impossible),
          Or.inr ⟨last, expected, (fun impossible => by simp at impossible), response, handles,
            sameType, sameSeqNo, ok⟩⟩)
  | finds _ _ present =>
      exact consistent.proceeds sound phase reading reading w.mux.currentCommand w.mux.picard
        rfl rfl rfl
        (Or.inr ⟨(fun impossible => by cases impossible),
          Or.inr ⟨last, expected, fun _ => present, response, handles, sameType, sameSeqNo, ok⟩⟩)
  | skips _ _ absent =>
      have owner : cmd.client = none := sameClient.symm.trans absent
      have same : w.mux.updateSubscriber cmd.client id = w.mux := by
        rw [owner]
        rfl
      have left := consistent.done phase reading last id (fun _ => rfl)
        (fun client isOwner => by rw [owner] at isOwner; cases isOwner)
      rw [same] at left
      exact left sound
  | @writes other delivering writing =>
      obtain rfl := handled other (by rw [delivering]; rfl)
      dsimp only at sound ⊢
      rw [if_pos sameType] at sound ⊢
      exact consistent.proceeds sound phase reading reading w.mux.currentCommand w.mux.picard
        rfl rfl rfl
        (Or.inr ⟨(fun impossible => by cases impossible),
          Or.inr ⟨last, expected, fun _ => hasClient (Or.inl writing), other, handles, sameType,
            sameSeqNo, ok⟩⟩)
  | @commits _ client _ _ present =>
      have owner : cmd.client = some client := sameClient.symm.trans present
      rw [← owner] at sound ⊢
      exact consistent.done phase reading last _ (fun _ => rfl) (fun _ _ => rfl) sound
  | crashes _ committing absent =>
      have present := hasClient (Or.inr committing)
      rw [absent] at present
      cases present

/-- A request that is not answered is that of the command that waits. -/
theorem Consistent.awaited
    (consistent : Consistent w)
    (unanswered : w.answered < w.received.length) :
    ∃ cmd i,
      w.mux.loop = .waiting cmd i ∧ (w.block = none → w.mux.currentCommand.result ≠ .ok) ∧
        w.Awaited cmd := by
  have exchange := consistent.exchange
  have open' : ¬w.AllAnswered := fun answered => unanswered.ne answered.1
  cases phase : w.mux.loop <;> rw [phase] at exchange
  case waiting cmd i =>
      rcases exchange with answered | ⟨notOk, awaited | arriving⟩
      · exact absurd answered open'
      · exact ⟨cmd, i, rfl, notOk, awaited⟩
      · exact absurd arriving.1 unanswered.ne
  case restoring | resetting | timingOut | disconnecting | crashed => exact exchange.elim
  case sending => exact absurd exchange.1 open'
  case recording => exact absurd exchange.1 open'
  case concluding => exact absurd exchange.1 open'
  all_goals exact absurd exchange open'

/-- Picard answers the request that is awaited, and takes its filter. -/
theorem Consistent.answered
    (consistent : Consistent w)
    (payload : ByteVector) :
    Consistent (w.step retries (.answer w.answered ErrorCode.ok payload)).1 := by
  unfold World.step
  dsimp only
  split
  case h_2 => exact consistent
  case h_1 request found =>
  split_ifs with possible
  case neg => exact consistent
  obtain ⟨reads, -, short⟩ := possible
  have unanswered : w.answered < w.received.length := (List.getElem?_eq_some_iff.1 found).1
  obtain ⟨cmd, i, phase, notOk, reading, earlier, last, received, position, type, seqNo,
    carries⟩ := consistent.awaited unanswered
  obtain ⟨-, -, serves⟩ := consistent.current phase
  obtain rfl : last = request := by
    rw [received, position] at found
    simpa using found
  have total : w.answered + 1 = w.received.length := by
    rw [received, position, List.length_append, List.length_singleton]
  obtain ⟨params, decodes⟩ := vectorToFilter_of_length serves.long
  have newFilter : w.filterAfter last ErrorCode.ok = params := by
    rw [filterAfter, if_pos ⟨type, rfl⟩, carries, ClientCommand.params, decodes,
      Option.getD_some]
  have settled := consistent.settled
  obtain ⟨joined, departed, foundSame, union, aims, written⟩ := consistent.unions
  simp only [pending, target, AllAnswered, phase, unanswered.ne, unanswered, false_and,
    if_false, if_true] at settled aims
  have inRange : Command.notification < last.type := by
    rw [type]
    decide
  have sound := @Process.step_sound retries w.toProcess
    (.receive (last.answerFrame ErrorCode.ok payload)) consistent.sound
  have notExpecting : w.expectedSeq = none :=
    consistent.sound.not_expecting (by simp [reading])
  have notBlocked : w.block = none := by
    cases block : w.block with
    | none => rfl
    | some stage =>
        obtain ⟨_, delivering, -⟩ := consistent.sound.inBlock stage block
        rw [reading] at delivering
        cases delivering
  rw [step_answerFrame reads inRange short, if_pos consistent.registered] at sound ⊢
  rw [newFilter]
  refine ⟨sound, consistent.registered, consistent.held, consistent.forwarded,
    consistent.newcomers, ?_, ⟨joined, departed, foundSame, union, ?_, written⟩, ?_⟩
  · intro client notPending
    refine settled client ?_
    simpa [pending, AllAnswered, advance, phase] using notPending
  · intro notResubscribing
    have newTarget : cmd.params = some params := decodes
    rw [newTarget] at aims
    simpa [target, advance, phase, total] using aims notResubscribing
  · dsimp only [advance, List.foldl]
    rw [phase]
    refine Or.inr ⟨notOk, Or.inr ⟨total, fun number isNumber => ?_, fun impossible => ?_, _,
      Or.inl rfl, type, seqNo, rfl⟩⟩
    · rw [notExpecting] at isNumber
      cases isNumber
    · rw [notBlocked] at impossible
      simp at impossible

/-! ## The command thread -/

end World

/-- The command in progress, if any, has no effect on the filters yet or any
more. -/
def LoopPhase.Rests : LoopPhase → Prop
  | .starting | .checking | .popping | .finished | .replying _ _ _ | .subscribing _
  | .clearing _ => True
  | .concluding _ result => result = .ok
  | .finding _ | .recomputing _ | .rewriting _ | .installing _ | .sending _ _
  | .recording _ _ _ | .waiting _ _ | .restoring _ | .resetting _ | .timingOut _
  | .disconnecting _ | .crashed => False

/-- Where `commandLoop` goes on with a SUBSCRIBE. -/
theorem Mux.dispatch_subscribe
    {m : Mux}
    {cmd : ClientCommand}
    (subscribes : cmd.command.type = Command.subscribe) :
    m.dispatch cmd =
      if maxSerialApiCmdLen < cmd.command.size then
        .replying cmd .commandError
          (MuxOutput.make cmd.command.type 0 ErrorCode.invalidCmd [])
      else if cmd.client.isSome then .subscribing cmd
      else .installing cmd := by
  have notInfo : Command.subscribe ≠ MuxCommand.muxInfo := by decide
  have valid : isPicardApiCommand Command.subscribe := by decide
  simp [Mux.dispatch, subscribes, notInfo, valid]

namespace World

/-- What holds while no command affects the filters. -/
structure Rest (w : World) : Prop where
  answered : w.AllAnswered
  settled : ∀ client,
    (w.mux.objects client).subscriber.newParams = (w.mux.objects client).subscriber.params
  union : ¬w.removal.any RemovalStage.isOutdated →
    w.mux.filterUnion = Mux.newParamsUnion w.mux.objects w.mux.clients
  aims : ¬w.removal.any RemovalStage.resubscribes →
    ultimate w.mux.commands (some w.filter) = some w.mux.filterUnion

theorem Consistent.rest
    (consistent : Consistent w)
    (rests : w.mux.loop.Rests) :
    w.Rest := by
  obtain ⟨-, -, -, -, -, settled, ⟨-, -, -, union, aims, -⟩, exchange⟩ := consistent
  cases phase : w.mux.loop <;> rw [phase] at rests exchange union <;>
    simp only [pending, target, phase] at settled aims
  case concluding =>
      exact ⟨exchange.1, fun client => settled client (by simp), union (by simp), aims⟩
  case starting | checking | popping | finished | replying | subscribing | clearing =>
      exact ⟨exchange, fun client => settled client (by simp), union (by simp), aims⟩
  all_goals exact rests.elim

/-- The command thread goes on to a statement that has no effect on the
filters. -/
theorem Consistent.ofRest
    (consistent : Consistent w)
    (rest : w.Rest)
    (next : LoopPhase)
    (rests : next.Rests)
    {current : ClientCommand}
    {isRunning : Bool}
    (sound : Process.Sound { w.toProcess with
      mux := { w.mux with isRunning := isRunning, loop := next, currentCommand := current } })
    (command : next.command = none ∨ next.command = w.mux.loop.command)
    (forwarded : ∀ cmd, next.forwarded = some cmd → cmd.command.size ≤ maxSerialApiCmdLen)
    (taken : Nat) :
    Consistent
      { w with
        mux := { w.mux with isRunning := isRunning, loop := next, currentCommand := current }
        taken := taken } := by
  have held : ∀ cmd ∈ next.command.toList ++ w.mux.commands, cmd ∈ w.mux.held := by
    intro cmd mem
    rcases List.mem_append.1 mem with popped | queued
    · rcases command with none' | same
      · rw [none'] at popped
        cases popped
      · rw [same] at popped
        exact List.mem_append_left _ popped
    · exact List.mem_append_right _ queued
  refine ⟨sound, consistent.registered, fun cmd mem => consistent.held cmd (held cmd mem),
    forwarded, consistent.newcomers, fun client _ => rest.settled client,
    consistent.unions.moves rfl rfl rfl rfl (fun _ => rest.union) ?_, ?_⟩
  · cases next
    case starting | checking | popping | finished | replying | subscribing | clearing
        | concluding => exact rest.aims
    all_goals exact rests.elim
  · cases next
    case starting | checking | popping | finished | replying | subscribing | clearing =>
        exact rest.answered
    case concluding => exact ⟨rest.answered, rests⟩
    all_goals exact rests.elim

/-- The command thread has no command any more. -/
theorem Consistent.idles
    (consistent : Consistent w)
    (rest : w.Rest)
    {next : LoopPhase}
    (idle : next.isIdle)
    {current : ClientCommand}
    {isRunning : Bool}
    (sound : Process.Sound { w.toProcess with
      mux := { w.mux with isRunning := isRunning, loop := next, currentCommand := current } }) :
    Consistent { w with
      mux := { w.mux with isRunning := isRunning, loop := next, currentCommand := current } } := by
  cases next
  case starting | checking | popping | finished =>
      exact consistent.ofRest rest _ (by trivial) sound (Or.inl rfl)
        (fun _ forwarded => by cases forwarded) w.taken
  all_goals cases idle

/-- A command is popped. -/
theorem Consistent.popped
    (consistent : Consistent w)
    (phase : w.mux.loop = .popping)
    {cmd : ClientCommand}
    {rest : List ClientCommand}
    (queued : w.mux.commands = cmd :: rest)
    (sound : Process.Sound { w.toProcess with
      mux := { w.mux with commands := rest, loop := .finding cmd } }) :
    Consistent { w with mux := { w.mux with commands := rest, loop := .finding cmd } } := by
  have resting := consistent.rest (by rw [phase]; trivial)
  have sameHeld : w.mux.held = cmd :: rest := by
    rw [Mux.held, phase, queued]
    rfl
  refine ⟨sound, consistent.registered, fun other mem => ?_, (fun _ absurd => by cases absurd),
    consistent.newcomers, fun client _ => resting.settled client,
    consistent.unions.moves rfl rfl rfl rfl (fun _ => resting.union) ?_, resting.answered⟩
  · exact consistent.held other (by rw [sameHeld]; exact mem)
  · intro notResubscribing
    have aims := resting.aims notResubscribing
    rw [queued, ultimate_cons] at aims
    exact aims

theorem Consistent.popped_serves
    (consistent : Consistent w)
    {cmd : ClientCommand}
    (popped : w.mux.loop.command = some cmd) :
    cmd.Serves w.mux.objects := by
  refine consistent.held cmd ?_
  rw [Mux.held_of_command popped]
  exact List.mem_cons_self

/-- A re-SUBSCRIBE is accepted. -/
theorem Consistent.acceptedResubscribe
    (consistent : Consistent w)
    {cmd : ClientCommand}
    (phase : w.mux.loop = .finding cmd)
    (resubscribe : cmd.client = none)
    (sound : Process.Sound { w.toProcess with mux := { w.mux with loop := .installing cmd } })
    (taken : Nat) :
    Consistent
      { w with mux := { w.mux with loop := .installing cmd }, taken := taken } := by
  have isResubscribe : cmd.isResubscribe := ClientCommand.isResubscribe_iff.2 resubscribe
  have sameHeld := Mux.held_of_command (show w.mux.loop.command = some cmd by rw [phase]; rfl)
  have settled := consistent.settled
  have aims := consistent.unions.aims
  have exchange := consistent.exchange
  rw [phase] at exchange
  simp only [pending, target, phase, isResubscribe, if_true] at settled aims
  refine ⟨sound, consistent.registered, fun other mem => ?_, ?_, consistent.newcomers, ?_,
    consistent.unions.moves rfl rfl rfl rfl
      (fun _ => consistent.unions.union (by simp [phase])) aims, exchange⟩
  · exact consistent.held other (by rw [sameHeld]; exact mem)
  · rintro _ ⟨⟩
    have length := (consistent.popped_serves
      (show w.mux.loop.command = some cmd by rw [phase]; rfl)).resubscribe resubscribe
    rw [MuxMessage.size, length]
    decide
  · exact fun client _ => settled client (by simp)

/-- A client's command is found. -/
theorem Consistent.found
    (consistent : Consistent w)
    {cmd : ClientCommand}
    (phase : w.mux.loop = .finding cmd)
    (present : cmd.client ≠ none) :
    w.Rest := by
  have ofClient : ¬cmd.isResubscribe := fun absent =>
    present (ClientCommand.isResubscribe_iff.1 absent)
  have settled := consistent.settled
  have aims := consistent.unions.aims
  have exchange := consistent.exchange
  rw [phase] at exchange
  simp only [pending, target, phase, if_neg ofClient] at settled aims
  exact ⟨exchange, fun client => settled client (by simp),
    consistent.unions.union (by simp [phase]), aims⟩

/-- A command is accepted. -/
theorem Consistent.accepted
    (consistent : Consistent w)
    {cmd : ClientCommand}
    (phase : w.mux.loop = .finding cmd)
    (sound : Process.Sound { w.toProcess with
      mux := { w.mux with loop := w.mux.dispatch cmd } }) :
    Consistent
      { w with
        mux := { w.mux with loop := w.mux.dispatch cmd }
        taken := w.taken + 1 } := by
  have popped : w.mux.loop.command = some cmd := by rw [phase]; rfl
  have serves := consistent.popped_serves popped
  rw [Mux.dispatch_subscribe serves.subscribes] at sound ⊢
  by_cases resubscribe : cmd.client = none
  · have short : ¬maxSerialApiCmdLen < cmd.command.size := by
      rw [MuxMessage.size, serves.resubscribe resubscribe]
      decide
    rw [if_neg short, if_neg (by simp [resubscribe])] at sound ⊢
    exact consistent.acceptedResubscribe phase resubscribe sound _
  · have resting := consistent.found phase resubscribe
    split_ifs at sound ⊢ with long ofClient
    · exact consistent.ofRest resting (.replying cmd _ _) trivial sound (Or.inr popped.symm)
        (fun _ absurd => by cases absurd) _
    · refine consistent.ofRest resting (.subscribing cmd) trivial sound (Or.inr popped.symm)
        ?_ _
      rintro _ ⟨⟩
      exact BitVec.not_lt.1 long
    · exact absurd (Option.isSome_iff_ne_none.2 resubscribe) ofClient

/-- The subscriber takes the new filter. -/
theorem Consistent.subscribed
    (consistent : Consistent w)
    {cmd : ClientCommand}
    (phase : w.mux.loop = .subscribing cmd)
    (apart : ¬w.removal.any RemovalStage.isRecomputing)
    (params : SubscriptionParams)
    (sound : Process.Sound { w.toProcess with
      mux := { w.mux.updateSubscriber cmd.client (Subscriber.setSubscription params) with
        loop := .recomputing cmd } }) :
    Consistent
      { w with
        mux := { w.mux.updateSubscriber cmd.client (Subscriber.setSubscription params) with
          loop := .recomputing cmd } } := by
  have resting := consistent.rest (by rw [phase]; trivial)
  have sameHeld := Mux.held_of_command (show w.mux.loop.command = some cmd by rw [phase]; rfl)
  have serves := consistent.held cmd (by rw [sameHeld]; exact List.mem_cons_self)
  have notRecomputing : w.recompute = none := (consistent.sound.between (by simp [phase])
    (by simp [phase])).1
  have notForming : ∀ stage, w.removal ≠ some (.recomputing stage) :=
    fun stage inside => apart (by rw [inside]; rfl)
  have others : ∀ client, some client ≠ cmd.client →
      ((w.mux.updateSubscriber cmd.client
        (Subscriber.setSubscription params)).objects client).subscriber =
      (w.mux.objects client).subscriber := by
    intro client different
    cases owner : cmd.client with
    | none => rfl
    | some subscribing =>
        rw [owner, Ne, Option.some.injEq] at different
        rw [Mux.updateSubscriber_subscriber, if_neg different]
  constructor
  case sound => exact sound
  case registered => simpa using consistent.registered
  case held =>
      intro other mem
      simp only [Mux.held, LoopPhase.command, Option.toList_some, List.singleton_append,
        Mux.updateSubscriber_commands] at mem
      rw [← sameHeld] at mem
      exact (consistent.held other mem).mono fun client waiting => by simpa using waiting
  case forwarded =>
      have forwarded := consistent.forwarded
      rw [phase] at forwarded
      exact forwarded
  case newcomers =>
      intro client waiting
      dsimp only at waiting ⊢
      rw [Mux.updateSubscriber_initState] at waiting
      rw [others client fun same => serves.owner client same.symm waiting]
      exact consistent.newcomers client waiting
  case settled =>
      intro client different
      dsimp only
      rw [others client different]
      exact resting.settled client
  case unions =>
      refine ⟨fun stage inside => ?_, fun stage inside => absurd inside (notForming stage),
        fun stage inside => absurd inside (notForming stage), fun computed => absurd rfl
        (computed cmd), fun notResubscribing => ?_, ?_⟩
      · dsimp only at inside
        rw [notRecomputing] at inside
        cases inside
      · simpa [target] using resting.aims notResubscribing
      · simpa using consistent.unions.written
  case exchange => simpa [Exchanges, AllAnswered] using resting.answered

/-- The union is formed, compared with the one before, or that is saved. -/
theorem Consistent.recomputes
    (consistent : Consistent w)
    {cmd : ClientCommand}
    (phase : w.mux.loop = .recomputing cmd)
    {stage : RecomputeStage}
    {prevfilter : SubscriptionParams}
    (formed : stage.newParamsUnion = Mux.newParamsUnion w.mux.objects w.mux.clients)
    (sound : Process.Sound { w.toProcess with
      mux := { w.mux with prevfilter := prevfilter }, recompute := some stage }) :
    Consistent
      { w with mux := { w.mux with prevfilter := prevfilter }, recompute := some stage } := by
  obtain ⟨-, departed, foundSame, -, aims, written⟩ := consistent.unions
  have exchange := consistent.exchange
  refine ⟨sound, consistent.registered, consistent.held, consistent.forwarded,
    consistent.newcomers, consistent.settled,
    ⟨?_, departed, foundSame, fun computed => absurd phase (computed cmd), aims, written⟩, ?_⟩
  · rintro _ ⟨⟩
    exact formed
  · dsimp only
    rw [phase] at exchange ⊢
    exact exchange

/-- The union is stored: it changes only if there is no re-SUBSCRIBE. -/
theorem Consistent.stored
    (consistent : Consistent w)
    {cmd : ClientCommand}
    (phase : w.mux.loop = .recomputing cmd)
    {newParamsUnion : SubscriptionParams}
    {changed : Bool}
    (stage : w.recompute = some (.storing newParamsUnion changed))
    (keeps : w.resubscribes → newParamsUnion = w.mux.filterUnion)
    (sound : Process.Sound { w.toProcess with
      mux := { w.mux with filterUnion := newParamsUnion, loop := .rewriting cmd }
      recompute := none }) :
    Consistent
      { w with
        mux := { w.mux with filterUnion := newParamsUnion, loop := .rewriting cmd }
        recompute := none } := by
  obtain ⟨joined, departed, foundSame, -, aims, written⟩ := consistent.unions
  have present : newParamsUnion = Mux.newParamsUnion w.mux.objects w.mux.clients :=
    joined _ stage
  have settled := consistent.settled
  have forwarded := consistent.forwarded
  have exchange := consistent.exchange
  have sameHeld := Mux.held_of_command (show w.mux.loop.command = some cmd by rw [phase]; rfl)
  rw [phase] at forwarded exchange
  simp only [pending, target, phase] at settled aims
  refine ⟨sound, consistent.registered, fun other mem => ?_, forwarded, consistent.newcomers,
    settled, ⟨(fun _ impossible => by cases impossible), departed, fun other inside _ => ?_,
      fun _ _ => present, fun notResubscribing => ?_, fun payload inside => ?_⟩, exchange⟩
  · exact consistent.held other (by rw [sameHeld]; exact mem)
  · exact (departed other inside).trans present.symm
  · change ultimate w.mux.commands (some newParamsUnion) = some newParamsUnion
    by_cases queued : w.mux.commands.any ClientCommand.isResubscribe
    · rw [ultimate_of_any queued _ (some w.filter), aims notResubscribing,
        keeps (by rw [resubscribes, queued]; rfl)]
    · exact ultimate_of_not_any queued _
  · have sameUnion : newParamsUnion = w.mux.filterUnion := by
      refine keeps ?_
      dsimp only at inside
      simp [resubscribes, inside, RemovalStage.isQueueing]
    dsimp only
    rw [sameUnion]
    exact written payload inside

/-- The union is written into the command. -/
theorem Consistent.rewritten
    (consistent : Consistent w)
    {cmd : ClientCommand}
    (phase : w.mux.loop = .rewriting cmd)
    {data : ByteVector}
    (written : filterToVector w.mux.filterUnion cmd.command.data = some data)
    (sound : Process.Sound { w.toProcess with
      mux := { w.mux with loop := .installing { cmd with command.data := data } } }) :
    Consistent
      { w with
        mux := { w.mux with loop := .installing { cmd with command.data := data } } } := by
  have sameHeld := Mux.held_of_command (show w.mux.loop.command = some cmd by rw [phase]; rfl)
  have serves := consistent.held cmd (by rw [sameHeld]; exact List.mem_cons_self)
  have sameLength := filterToVector_length written
  have settled := consistent.settled
  have aims := consistent.unions.aims
  have exchange := consistent.exchange
  rw [phase] at exchange
  simp only [pending, target, phase] at settled aims
  refine ⟨sound, consistent.registered, fun other mem => ?_, ?_, consistent.newcomers, settled,
    consistent.unions.moves rfl rfl rfl rfl
      (fun _ => consistent.unions.union (by simp [phase])) ?_, exchange⟩
  · rcases List.mem_cons.1 mem with same | queued
    · rw [same]
      exact ⟨serves.subscribes, sameLength ▸ serves.long, sameLength ▸ serves.short,
        serves.owner, fun none' => sameLength.trans (serves.resubscribe none'),
        serves.unanswered⟩
    · exact consistent.held other (by rw [sameHeld]; exact List.mem_cons_of_mem _ queued)
  · rintro _ ⟨⟩
    have short := consistent.forwarded cmd (by rw [phase]; rfl)
    rw [MuxMessage.size] at short ⊢
    rwa [sameLength]
  · intro notResubscribing
    change ultimate w.mux.commands (vectorToFilter data) = _
    rw [vectorToFilter_of_filterToVector written]
    exact aims notResubscribing

/-- The command thread goes on with the command that it forwards, whose filter Picard
shall have. -/
theorem Consistent.forwards
    (consistent : Consistent w)
    {cmd : ClientCommand}
    (command : w.mux.loop.command = some cmd)
    (forwarded : w.mux.loop.forwarded = some cmd)
    (next : LoopPhase)
    (current : ClientCommand)
    (recorded : Bool)
    (sameCommand : next.command = some cmd)
    (sameForwarded : next.forwarded = some cmd)
    (computed : ∀ other, w.mux.loop ≠ .recomputing other)
    (sound : Process.Sound { w.toProcess with
      mux := { w.mux with loop := next, currentCommand := current }, recorded := recorded })
    (pendingClient : w.pending = cmd.client)
    (samePending : ({ w with
      mux := { w.mux with loop := next, currentCommand := current }
      recorded := recorded } : World).pending = cmd.client)
    (targets : w.target = cmd.params)
    (sameTarget : ({ w with
      mux := { w.mux with loop := next, currentCommand := current }
      recorded := recorded } : World).target = cmd.params)
    (exchange : ({ w with
      mux := { w.mux with loop := next, currentCommand := current }
      recorded := recorded } : World).Exchanges next) :
    Consistent
      { w with
        mux := { w.mux with loop := next, currentCommand := current }
        recorded := recorded } := by
  refine ⟨sound, consistent.registered, fun other mem => ?_, ?_, consistent.newcomers, ?_,
    consistent.unions.moves rfl rfl rfl rfl (fun _ => consistent.unions.union computed) ?_,
    exchange⟩
  · refine consistent.held other ?_
    dsimp only [Mux.held] at mem ⊢
    rw [sameCommand] at mem
    rw [command]
    exact mem
  · dsimp only
    rw [sameForwarded, ← forwarded]
    exact consistent.forwarded
  · rw [samePending, ← pendingClient]
    exact consistent.settled
  · rw [sameTarget, ← targets]
    exact consistent.unions.aims

/-- The request in the frame of a command that is not too long. -/
theorem ofFrame_commandFrame
    {command : MuxMessage}
    (inRange : command.data.length ≤ 65532)
    (short : command.size ≤ maxSerialApiCmdLen)
    (owner : Nat)
    (seqNo : Byte) :
    Request.ofFrame owner (BasePicard.commandFrame command seqNo) =
      { owner := owner, type := command.type, seqNo := seqNo, payload := command.data } := by
  have size : command.size.toNat = command.data.length := command.size_toNat (by omega)
  have length : (lowByte command.size).toNat = command.data.length := by
    have bound : command.size.toNat ≤ 128 := short
    rw [lowByte_toNat, size]
    omega
  have whole : command.data.take (lowByte command.size).toNat = command.data := by
    rw [length, List.take_length]
  exact congrArg (Request.mk owner command.type seqNo) whole

/-- The frame of the command is sent. -/
theorem Consistent.sent
    (consistent : Consistent w)
    {cmd : ClientCommand}
    {i : Nat}
    {frame : ByteVector}
    (phase : w.mux.loop = .recording cmd i frame)
    (recorded : w.recorded)
    (sound : Process.Sound { w.toProcess with
      mux := { w.mux with loop := .waiting cmd i }, recorded := false }) :
    Consistent
      { w with
        mux := { w.mux with loop := .waiting cmd i }
        recorded := false
        received := w.received ++ [Request.ofFrame w.taken frame] } := by
  have sameHeld := Mux.held_of_command (show w.mux.loop.command = some cmd by rw [phase]; rfl)
  have serves := consistent.held cmd (by rw [sameHeld]; exact List.mem_cons_self)
  have settled := consistent.settled
  have aims := consistent.unions.aims
  have exchange := consistent.exchange
  rw [phase] at exchange
  simp only [pending, target, phase] at settled aims
  obtain ⟨answered, notOk, rfl, sameSeq⟩ := exchange
  rw [ofFrame_commandFrame serves.short (consistent.forwarded cmd (by rw [phase]; rfl))]
  have unanswered : w.answered < (w.received ++ [
      { owner := w.taken, type := cmd.command.type, seqNo := w.mux.io.seqNo,
        payload := cmd.command.data : Request }]).length := by
    rw [List.length_append, answered.1]
    exact Nat.lt_succ_self _
  refine ⟨sound, consistent.registered, fun other mem => ?_, (fun _ absurd => ?_),
    consistent.newcomers, ?_,
    consistent.unions.moves rfl rfl rfl rfl
      (fun _ => consistent.unions.union (by simp [phase])) ?_, ?_⟩
  · exact consistent.held other (by rw [sameHeld]; exact mem)
  · cases absurd
    exact consistent.forwarded cmd (by rw [phase]; rfl)
  · simpa only [pending, AllAnswered, unanswered.ne, false_and, if_false] using settled
  · simpa only [target, unanswered, if_true] using aims
  · exact Or.inr ⟨fun _ => notOk, Or.inl ⟨answered.2, w.received, _, rfl, answered.1,
      serves.subscribes, (sameSeq recorded).symm, rfl⟩⟩

/-- The command has been answered when the command thread goes on. -/
theorem Consistent.concludes
    (consistent : Consistent w)
    {cmd : ClientCommand}
    {i : Nat}
    (phase : w.mux.loop = .waiting cmd i)
    (free : w.block = none)
    (ok : w.mux.currentCommand.result = .ok) :
    w.Rest := by
  obtain ⟨-, -, -, -, -, settled, ⟨-, -, -, union, aims, -⟩, exchange⟩ := consistent
  rw [phase] at exchange union
  rcases exchange with answered | ⟨notOk, -⟩
  · simp only [pending, target, phase, answered, answered.1, lt_irrefl, if_true, if_false]
      at settled aims
    exact ⟨answered, fun client => settled client (by simp), union (by simp), aims⟩
  · exact absurd ok (notOk free)

/-- The statements of the command thread that `Mux` takes as a whole. -/
theorem Consistent.wholeLoop
    (consistent : Consistent w)
    (notRecomputing : ∀ cmd, w.mux.loop ≠ .recomputing cmd)
    (notRecording : ∀ cmd i frame, w.mux.loop ≠ .recording cmd i frame)
    (unlocked : w.mux.loop.isWaiting → w.block = none)
    (inTime : w.InTime retries w.mux.loop)
    (keeps : w.KeepsUnion w.mux.loop)
    (sound : Process.Sound { w.toProcess with mux := (w.mux.loopStep retries).1 }) :
    Consistent (w.advance
      ({ w.toProcess with mux := (w.mux.loopStep retries).1 }, (w.mux.loopStep retries).2)) := by
  have exchange := consistent.exchange
  cases phase : w.mux.loop <;> rw [phase] at inTime keeps exchange unlocked <;>
    simp only [Mux.loopStep, phase] at sound ⊢
  case starting =>
      rw [advance_silent (by simp)]
      exact consistent.idles (consistent.rest (by rw [phase]; trivial)) rfl sound
  case checking =>
      have resting := consistent.rest (by rw [phase]; trivial)
      rw [advance_silent (by simp)]
      by_cases running : w.mux.isRunning
      · simp only [if_pos running] at sound ⊢
        exact consistent.idles resting rfl sound
      · simp only [if_neg running] at sound ⊢
        exact consistent.idles resting rfl sound
  case popping =>
      split
      · rename_i empty
        rw [advance_silent (by simp)]
        exact consistent.idles (consistent.rest (by rw [phase]; trivial)) rfl
          (by simpa only [empty] using sound)
      · rename_i cmd rest queued
        simp only [queued] at sound
        rw [advance_silent (by simp)]
        exact consistent.popped phase queued sound
  case finding cmd =>
      by_cases expected : w.mux.isExpected cmd
      · rw [if_pos expected] at sound ⊢
        exact consistent.accepted phase sound
      · rw [if_neg expected] at sound ⊢
        rw [advance_silent (by simp)]
        have present : cmd.client ≠ none := fun none' => expected (by rw [Mux.isExpected, none'])
        exact consistent.idles (consistent.found phase present) rfl sound
  case replying cmd sender resp =>
      rw [advance_silent (Mux.sendResponse_silent _ _ _)]
      exact consistent.idles (consistent.rest (by rw [phase]; trivial)) rfl sound
  case subscribing cmd =>
      obtain ⟨params, decodes⟩ := vectorToFilter_of_length
        (consistent.popped_serves (show w.mux.loop.command = some cmd by rw [phase]; rfl)).long
      simp only [decodes] at sound ⊢
      rw [advance_silent (by simp)]
      exact consistent.subscribed phase keeps params sound
  case recomputing cmd => exact absurd phase (notRecomputing cmd)
  case rewriting cmd =>
      obtain ⟨data, written, -⟩ := filterToVector_of_length w.mux.filterUnion
        (consistent.popped_serves (show w.mux.loop.command = some cmd by rw [phase]; rfl)).long
      simp only [written] at sound ⊢
      rw [advance_silent (by simp)]
      exact consistent.rewritten phase written sound
  case installing cmd =>
      have sends : Mux.attempt retries cmd 0 .timeout = (.sending cmd 0, []) :=
        if_pos ⟨rfl, inTime⟩
      have serves := consistent.popped_serves (show w.mux.loop.command = some cmd by
        rw [phase]; rfl)
      simp only [sends] at sound ⊢
      rw [advance_silent (by simp)]
      exact consistent.forwards (by rw [phase]; rfl) (by rw [phase]; rfl) _ _ w.recorded rfl rfl
        notRecomputing sound (by simp [pending, phase]) rfl (by simp [target, phase]) rfl
        ⟨exchange, serves.unanswered⟩
  case sending cmd i =>
      have notRecorded := (consistent.sound.between notRecomputing notRecording).2
      rw [advance_silent (by simp)]
      exact consistent.forwards (by rw [phase]; rfl) (by rw [phase]; rfl) _ _ w.recorded rfl rfl
        notRecomputing sound (by simp [pending, phase]) rfl (by simp [target, phase]) rfl
        ⟨exchange.1, exchange.2, rfl, fun recorded => by simp [notRecorded] at recorded⟩
  case recording cmd i frame => exact absurd phase (notRecording cmd i frame)
  case waiting cmd i =>
      have free := unlocked rfl
      have ok : w.mux.currentCommand.result = .ok := by
        cases result : w.mux.currentCommand.result with
        | ok => rfl
        | timeout => exact absurd result (inTime free)
        | disconnect => exact absurd result (keeps free)
      have concludes : Mux.attempt retries cmd (i + 1) w.mux.currentCommand.result =
          (.concluding cmd .ok, [.concluded .ok]) := by
        rw [ok]
        exact if_neg (by simp)
      simp only [concludes] at sound ⊢
      rw [advance_silent (by simp [Output.isSilent])]
      exact consistent.ofRest (consistent.concludes phase free ok) (.concluding cmd .ok) rfl sound
        (Or.inr (by rw [phase]; rfl)) (fun _ absurd => by cases absurd) w.taken
  case concluding cmd result =>
      have ok : ¬(result ≠ .ok ∧ cmd.client.isSome) := fun failed => failed.1 exchange.2
      simp only [if_neg ok] at sound ⊢
      rw [advance_silent (by simp)]
      exact consistent.ofRest (consistent.rest (by rw [phase]; exact exchange.2))
        (.clearing cmd) trivial sound (Or.inr (by rw [phase]; rfl))
        (fun _ absurd => by cases absurd) w.taken
  case clearing cmd =>
      rw [advance_silent (by simp)]
      exact consistent.idles (consistent.rest (by rw [phase]; trivial)) rfl sound
  case finished =>
      rw [advance_silent (by simp)]
      exact consistent
  case restoring | resetting | timingOut | disconnecting | crashed => exact exchange.elim

/-- Every statement of the command thread keeps the filters consistent. -/
theorem Consistent.loop
    (consistent : Consistent w)
    (inTime : w.InTime retries w.mux.loop)
    (keeps : w.KeepsUnion w.mux.loop) :
    Consistent (w.step retries (.process .loop)).1 := by
  change Consistent (w.advance (w.toProcess.step retries .loop))
  have sound := @Process.Sound.loop retries w.toProcess consistent.sound consistent.running
  have statement := @Process.loopStep_statement retries w.toProcess consistent.running
  rw [Process.step_loop consistent.running]
  generalize w.toProcess.loopStep retries = result at sound statement ⊢
  cases statement with
  | waits =>
      rw [advance_silent (by simp)]
      exact consistent
  | unites phase called =>
      rw [advance_silent (by simp)]
      exact consistent.recomputes phase rfl sound
  | @compares _ newParamsUnion phase stage =>
      rw [advance_silent (by simp)]
      exact consistent.recomputes phase
        (consistent.unions.joined (.comparing newParamsUnion) stage) sound
  | @saves _ newParamsUnion changed phase stage =>
      rw [advance_silent (by simp)]
      exact consistent.recomputes phase
        (consistent.unions.joined (.saving newParamsUnion changed) stage) sound
  | @stores _ newParamsUnion changed phase stage =>
      rw [phase] at keeps
      rw [advance_silent (by simp)]
      refine consistent.stored phase stage (fun behind => ?_) sound
      exact keeps behind newParamsUnion (by rw [stage]; rfl)
  | @records cmd i frame phase notRecorded =>
      have exchange := consistent.exchange
      rw [phase] at exchange
      rw [advance_silent (by simp)]
      have forwards := consistent.forwards (by rw [phase]; rfl) (by rw [phase]; rfl)
        (.recording cmd i frame) { w.mux.currentCommand with seq := w.mux.io.seqNo } true rfl rfl
        (by simp [phase])
      rw [← phase] at forwards
      exact forwards sound (by simp [pending, phase]) (by simp [pending, phase])
        (by simp [target, phase]) (by simp [target, phase])
        (by rw [phase]; exact ⟨exchange.1, exchange.2.1, exchange.2.2.1, fun _ => rfl⟩)
  | sends phase recorded => exact consistent.sent phase recorded sound
  | whole notRecomputing notRecording unlocked =>
      exact consistent.wholeLoop notRecomputing notRecording unlocked inTime keeps sound

/-- Every step of the runs keeps the filters consistent. -/
theorem Consistent.step
    (consistent : Consistent w)
    {action : WorldAction}
    (subscribing : w.Subscribing retries action)
    (keeps : w.KeepsFilters action) :
    Consistent (w.step retries action).1 := by
  cases action with
  | process action =>
      cases action with
      | addClient client => exact consistent.addClient client
      | addCommand client command =>
          exact consistent.addCommand client subscribing.1 subscribing.2
      | removeClient client => exact consistent.removeClient client
      | eraseClient => exact consistent.eraseClient (keeps.2 rfl)
      | loop => exact consistent.loop subscribing (keeps.1 rfl)
      | complete => exact consistent.complete
      | hangUp | receive | unregisterCallback | stop | clearCommands => exact subscribing.elim
  | answer index respCode payload =>
      obtain ⟨rfl, rfl⟩ := subscribing
      exact consistent.answered payload
  | announce frame => exact subscribing.elim

theorem start_consistent (io : BasePicard) (protocolVersion : Byte) :
    Consistent (start io protocolVersion) where
  sound := Process.start_sound io protocolVersion
  registered := rfl
  held := fun _ absurd => by cases absurd
  forwarded := fun _ absurd => by cases absurd
  newcomers := fun _ _ => rfl
  settled := fun _ _ => rfl
  unions := ⟨(fun _ absurd => by cases absurd), (fun _ absurd => by cases absurd),
    (fun _ absurd => by cases absurd), fun _ _ => rfl, fun _ => rfl,
    (fun _ absurd => by cases absurd)⟩
  exchange := ⟨rfl, rfl⟩

/-- In a run in which clients come, subscribe and leave and Picard answers in
time, the filters agree at rest, if the union is never changed behind a
re-SUBSCRIBE, no filter changes between the forming of a union and its storing,
and no departure is taken for that of the client served. -/
theorem filters_agree
    (retries : Int)
    (io : BasePicard)
    (protocolVersion : Byte)
    (actions : List WorldAction)
    (subscribing : Machine.Meets (World.step retries) (Subscribing retries)
      (start io protocolVersion) actions)
    (keeps : Machine.Meets (World.step retries) KeepsFilters (start io protocolVersion)
      actions) :
    (Machine.run (World.step retries) (start io protocolVersion) actions).1.Agrees :=
  (Machine.state_invariant_run Consistent
    (fun _ _ consistent conditions => consistent.step conditions.1 conditions.2)
    (start_consistent io protocolVersion) (Machine.meets_and.2 ⟨subscribing, keeps⟩)).agree

/-- Picard answers a request, and the command is finished. -/
def finishes (index : Nat) : List WorldAction :=
  [.answer index ErrorCode.ok []] ++ List.replicate 6 (.process .complete) ++
    List.replicate 3 (.process .loop)

/-- A client subscribes. -/
def firstSubscribe : List WorldAction :=
  [.process (.addClient 1), .process (.addCommand 1 (subscribeTo 16))] ++
    List.replicate 14 (.process .loop) ++ finishes 0

/-- A departure that changes the union. -/
def leaves (client : ClientId) : List WorldAction :=
  [.process (.removeClient client)] ++ List.replicate 7 (.process .eraseClient)

/-- The client leaves, and the re-SUBSCRIBE is answered. -/
def subscribeAndLeave : List WorldAction :=
  firstSubscribe ++ leaves 1 ++ List.replicate 7 (.process .loop) ++ finishes 1

theorem filters_agree_example :
    (Machine.run (World.step 1) (start {} 4) subscribeAndLeave).1.Agrees :=
  filters_agree 1 {} 4 subscribeAndLeave (by decide +kernel) (by decide +kernel)

/-- The client leaves while the SUBSCRIBE of another is queued. -/
def leaveBehindSubscribe : List WorldAction :=
  firstSubscribe ++
    [.process (.addClient 2), .process (.addCommand 2 (subscribeTo 32))] ++ leaves 1 ++
    List.replicate 13 (.process .loop) ++ finishes 1 ++
    List.replicate 7 (.process .loop) ++ finishes 2

/-- The re-SUBSCRIBE carries the union without the other client's filter, and
Picard forgets that filter. -/
theorem stale_resubscribe_drops_filter :
    Machine.Meets (World.step 1) (Subscribing 1) (start {} 4) leaveBehindSubscribe ∧
      let reached := (Machine.run (World.step 1) (start {} 4) leaveBehindSubscribe).1
      ¬reached.Agrees ∧ reached.mux.loop = .checking ∧ reached.mux.commands = [] ∧
        reached.mux.clients = [2] ∧ reached.mux.committedUnion = { filter := 32 } ∧
        reached.mux.filterUnion = { filter := 32 } ∧ reached.filter = {} := by
  decide +kernel

/-- The SUBSCRIBE is processed while `removeClient` has formed the union and not stored it. -/
def subscribeBetween : List WorldAction :=
  List.flatten [firstSubscribe,
    [.process (.addClient 2), .process (.addCommand 2 (subscribeTo 32)),
      .process (.removeClient 1)],
    List.replicate 2 (.process .eraseClient), List.replicate 13 (.process .loop),
    finishes 1, List.replicate 5 (.process .eraseClient),
    List.replicate 7 (.process .loop), finishes 2]

-- here no re-SUBSCRIBE is queued when the union changes
example :
    let reached := (Machine.run (World.step 1) (start {} 4) subscribeBetween).1
    reached.mux.loop = .checking ∧ reached.mux.committedUnion = { filter := 32 } ∧
      reached.mux.filterUnion = {} ∧ reached.filter = {} := by
  decide +kernel

end World

end SerialMux
