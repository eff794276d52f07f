import SerialMux.Invariant

/-!
# The statements of the threads

A step of `Mux` takes some calls and locked blocks as a whole: the call of
`recomputeSubscribeFilter`, the two halves of `removeClient`, the validation of a
response and the locked block of `commandComplete`, and the end of `sendCommand`.
The command thread holds no lock when it writes `m_currentCommand`, the filter of a
client or `m_filterUnion`, so its statements come between those of the other threads.
`Process` steps through the statements; what is not interrupted is a step of `Mux`.
-/

namespace SerialMux

/-- The next statement of `recomputeSubscribeFilter` once the union is formed, with
the local variables. -/
inductive RecomputeStage
  | comparing (newParamsUnion : SubscriptionParams)
  | saving (newParamsUnion : SubscriptionParams) (changed : Bool)
  | storing (newParamsUnion : SubscriptionParams) (changed : Bool)
  deriving DecidableEq, Repr

namespace RecomputeStage

/-- The union that was formed. -/
def newParamsUnion : RecomputeStage → SubscriptionParams
  | .comparing newParamsUnion | .saving newParamsUnion _ | .storing newParamsUnion _ =>
      newParamsUnion

/-- Whether the union is known to differ from the one before. -/
def changed : RecomputeStage → Bool
  | .comparing _ => false
  | .saving _ changed | .storing _ changed => changed

end RecomputeStage

/-- The next statement of `removeClient`, unless that takes `m_lock`. -/
inductive RemovalStage
  | marking
  | uniting
  | recomputing (stage : RecomputeStage)
  | serialising
  | queueing (payload : ByteVector)
  deriving DecidableEq, Repr

/-- Whether `removeClient` holds `m_lock`. -/
def RemovalStage.locksClients : RemovalStage → Bool
  | .marking => false
  | .uniting | .recomputing _ | .serialising | .queueing _ => true

/-- The next statement of the locked block of `commandComplete`, after the first one. -/
inductive BlockStage
  | testing
  | writing
  | committing
  deriving DecidableEq, Repr

/-- Whether an event takes `m_lock`. -/
def PicardEvent.locksClients : PicardEvent → Bool
  | .handleNotif _ _ | .resetConnection => true
  | .sendRaw _ | .commandComplete _ | .notifyConnect => false

namespace Mux

theorem not_hasCrashed_iff {m : Mux} :
    ¬m.hasCrashed ↔ m.loop ≠ .crashed ∧ m.picard ≠ .crashed := by
  simp [hasCrashed]

/-- The next statement of `recomputeSubscribeFilter`, and the one behind it. -/
def recomputeStep (m : Mux) : RecomputeStage → Mux × Option RecomputeStage
  | .comparing newParamsUnion =>
      (m, some (.saving newParamsUnion (newParamsUnion != m.filterUnion)))
  | .saving newParamsUnion changed =>
      ({ m with prevfilter := m.filterUnion }, some (.storing newParamsUnion changed))
  | .storing newParamsUnion _ => ({ m with filterUnion := newParamsUnion }, none)

/-- Where `commandComplete` goes on with a response. -/
def validate (m : Mux) (response : Response) (expectedSeq : Byte) : PicardPhase :=
  if response.cmdType ≠ m.currentCommand.command.type ∨ response.seqNo ≠ expectedSeq then
    .reading
  else if response.cmdType = Command.subscribe ∧ response.respCode ≠ ErrorCode.ok then
    .rejecting response
  else .delivering response

end Mux

/-- The process with the places of its threads inside the steps of `Mux`: the number that
`commandComplete` has read, the statement of its locked block, that of the command thread's
`recomputeSubscribeFilter`, whether `sendCommand` has recorded the number and not written
the frame, and the statement of `removeClient`. -/
structure Process where
  mux : Mux
  expectedSeq : Option Byte := none
  block : Option BlockStage := none
  recompute : Option RecomputeStage := none
  recorded : Bool := false
  removal : Option RemovalStage := none

namespace Process

/-- A step that `Mux` does not take as a whole. -/
def outerStep (retries : Int) (p : Process) (action : Action) : Process × List Output :=
  let (mux, outputs) := p.mux.step retries action
  ({ p with mux := mux }, outputs)

/-! ## The I/O thread -/

/-- `removeClient` holds `m_lock`. -/
def clientsLocked (p : Process) : Bool :=
  p.removal.any RemovalStage.locksClients

/-- A read error: `removeClient` up to its test of the current command. -/
def removeClient (p : Process) (client : ClientId) : Process :=
  if p.mux.handles client .authenticated then
    let failed := p.mux.updateClient client fun object => { object with reading := false }
    { p with
      mux := { failed with removing := some client }
      removal := if p.mux.currentCommand.client.isSome then some .marking else none }
  else p

/-- `removeClient` returns. -/
def returned (p : Process) : Process :=
  { p with mux := { p.mux with removing := none }, removal := none }

/-- The next statement of `removeClient`. -/
def removalStep (p : Process) : Process :=
  match p.mux.removing with
  | none => p
  | some client =>
      match p.removal with
      | some .marking =>
          { p with
            mux := { p.mux with currentCommand.result := .disconnect }
            removal := none }
      | none =>
          if client ∈ p.mux.clients then
            { p with
              mux := { p.mux with clients := p.mux.clients.erase client }
              removal := some .uniting }
          else p.returned
      | some .uniting =>
          { p with
            removal := some (.recomputing
              (.comparing (Mux.newParamsUnion p.mux.objects p.mux.clients))) }
      | some (.recomputing stage) =>
          match p.mux.recomputeStep stage with
          | (mux, some next) => { p with mux := mux, removal := some (.recomputing next) }
          | (mux, none) =>
              if stage.changed then { p with mux := mux, removal := some .serialising }
              else returned { p with mux := mux }
      | some .serialising =>
          match filterToVector p.mux.filterUnion
              (List.replicate subscribeParamsLength 0) with
          | some payload => { p with removal := some (.queueing payload) }
          | none => p.returned
      | some (.queueing payload) =>
          returned { p with
            mux := { p.mux with
              commands := p.mux.commands ++
                [{ command := MuxMessage.ofPayload Command.subscribe payload }] } }

/-! ## The command thread -/

/-- The next statement of `commandLoop`.  It waits for `m_inProgressMutex` where it reads
the result, and for `m_lock` where it closes the clients. -/
def loopStep (retries : Int) (p : Process) : Process × List Output :=
  match p.mux.loop with
  | .recomputing cmd =>
      match p.recompute with
      | none =>
          ({ p with
            recompute :=
              some (.comparing (Mux.newParamsUnion p.mux.objects p.mux.clients)) }, [])
      | some stage =>
          match p.mux.recomputeStep stage with
          | (mux, some next) => ({ p with mux := mux, recompute := some next }, [])
          | (mux, none) =>
              ({ p with mux := { mux with loop := .rewriting cmd }, recompute := none }, [])
  | .recording cmd i frame =>
      if p.recorded then
        ({ p with mux := { p.mux with loop := .waiting cmd i }, recorded := false },
          [.sent frame])
      else
        ({ p with
          mux := { p.mux with currentCommand.seq := p.mux.io.seqNo }
          recorded := true }, [])
  | .waiting _ _ => if p.block.isSome then (p, []) else p.outerStep retries .loop
  | .disconnecting _ => if p.clientsLocked then (p, []) else p.outerStep retries .loop
  | _ => p.outerStep retries .loop

/-! ## The Picard thread -/

/-- Handle a frame up to the call of `commandComplete`, once the lock that this takes
is free. -/
def receive (retries : Int) (p : Process) (frame : ByteVector) : Process × List Output :=
  if p.clientsLocked ∧ (p.mux.io.frameComplete frame).2.any PicardEvent.locksClients then
    (p, [])
  else p.outerStep retries (.receive frame)

/-- Leave the block. -/
def leave (p : Process) : Process :=
  { p with mux := { p.mux with picard := .reading }, block := none }

/-- The next statement of the block. -/
def blockStep (p : Process) (response : Response) : Process × List Output :=
  match p.block with
  | none =>
      ({ p with
        mux := { p.mux with currentCommand.result := .ok }
        block := some .testing }, [])
  | some .testing =>
      if p.mux.currentCommand.client.isSome then ({ p with block := some .writing }, [])
      else (p.leave, [])
  | some .writing =>
      (if response.cmdType = Command.subscribe then { p with block := some .committing }
        else p.leave,
        Mux.sendResponse p.mux.currentCommand.client .commandComplete
          (MuxOutput.make response.cmdType 0 response.respCode response.payload))
  | some .committing =>
      -- without a client, `m_currentCommand.client` is a null pointer here
      match p.mux.currentCommand.client with
      | some client =>
          (leave { p with mux := p.mux.updateSubscriber (some client) Subscriber.commitFilter },
            [])
      | none => ({ p with mux := { p.mux with picard := .crashed }, block := none }, [])

/-- The next statement of `commandComplete`. -/
def completeStep (p : Process) : Process × List Output :=
  match p.mux.picard with
  | .validating response =>
      match p.expectedSeq with
      | none => ({ p with expectedSeq := some p.mux.currentCommand.seq }, [])
      | some expectedSeq =>
          ({ p with
            mux := { p.mux with picard := p.mux.validate response expectedSeq }
            expectedSeq := none }, [])
  | .rejecting response =>
      ({ p with
        mux := { p.mux with
          filterUnion := p.mux.prevfilter
          picard := .delivering response } }, [])
  | .delivering response => p.blockStep response
  | .reading | .stopped | .crashed => (p, [])

/-! ## Steps and runs -/

/-- One step of the process. -/
def step (retries : Int) (p : Process) (action : Action) : Process × List Output :=
  if p.mux.hasCrashed then (p, [])
  else
    match action with
    | .loop => p.loopStep retries
    | .complete => p.completeStep
    | .receive frame => p.receive retries frame
    | .removeClient client => (p.removeClient client, [])
    | .eraseClient => (p.removalStep, [])
    | .addClient client => p.outerStep retries (.addClient client)
    | .addCommand client command => p.outerStep retries (.addCommand client command)
    | .hangUp client => p.outerStep retries (.hangUp client)
    | .unregisterCallback => p.outerStep retries .unregisterCallback
    | .stop => p.outerStep retries .stop
    | .clearCommands => p.outerStep retries .clearCommands

/-- The process when its threads are started. -/
def start (io : BasePicard) (protocolVersion : Byte) : Process where
  mux := Mux.start io protocolVersion

section Steps

variable {retries : Int} {p : Process}

theorem step_of_crashed
    (crashed : p.mux.hasCrashed)
    (action : Action) :
    p.step retries action = (p, []) :=
  if_pos crashed

theorem step_loop
    (running : ¬p.mux.hasCrashed) :
    p.step retries .loop = p.loopStep retries :=
  if_neg running

theorem step_complete
    (running : ¬p.mux.hasCrashed) :
    p.step retries .complete = p.completeStep :=
  if_neg running

theorem step_receive
    (running : ¬p.mux.hasCrashed)
    (frame : ByteVector) :
    p.step retries (.receive frame) = p.receive retries frame :=
  if_neg running

theorem step_removeClient
    (running : ¬p.mux.hasCrashed)
    (client : ClientId) :
    p.step retries (.removeClient client) = (p.removeClient client, []) :=
  if_neg running

theorem step_eraseClient
    (running : ¬p.mux.hasCrashed) :
    p.step retries .eraseClient = (p.removalStep, []) :=
  if_neg running

end Steps

/-! ## Steps without interruption -/

section Uninterrupted

variable {retries : Int} {m : Mux}

/-- The command thread recomputes the union. -/
theorem run_recompute
    (running : ¬m.hasCrashed)
    {cmd : ClientCommand}
    (recomputing : m.loop = .recomputing cmd) :
    Machine.run (step retries) { mux := m } (List.replicate 4 .loop) =
      ({ mux := (m.loopStep retries).1 }, (m.loopStep retries).2) := by
  have reads := (Mux.not_hasCrashed_iff.mp running).2
  simp [step, loopStep, recomputing, Mux.loopStep, Mux.recomputeStep, Mux.hasCrashed, reads,
    Mux.recomputeSubscribeFilter]

/-- The command thread records the number and writes the frame. -/
theorem run_record
    (running : ¬m.hasCrashed)
    {cmd : ClientCommand}
    {i : Nat}
    {frame : ByteVector}
    (recording : m.loop = .recording cmd i frame) :
    Machine.run (step retries) { mux := m } (List.replicate 2 .loop) =
      ({ mux := (m.loopStep retries).1 }, (m.loopStep retries).2) := by
  have reads := (Mux.not_hasCrashed_iff.mp running).2
  simp [step, loopStep, recording, Mux.loopStep, Mux.hasCrashed, reads]

/-- The Picard thread validates a response. -/
theorem run_validate
    (running : ¬m.hasCrashed)
    {response : Response}
    (validating : m.picard = .validating response) :
    Machine.run (step retries) { mux := m } (List.replicate 2 .complete) =
      ({ mux := m.completeStep.1 }, m.completeStep.2) := by
  have loopRuns := (Mux.not_hasCrashed_iff.mp running).1
  simp only [List.replicate, Machine.run_cons, Machine.run_nil, step, completeStep, validating,
    Mux.hasCrashed, Mux.validate, Mux.completeStep]
  split_ifs <;> simp_all

/-- The number of statements in the block. -/
def blockLength (current : ClientCommand) (response : Response) : Nat :=
  if current.client.isNone then 2 else if response.cmdType = Command.subscribe then 4 else 3

/-- A block that the command thread does not interrupt delivers the response in one
piece. -/
theorem run_block
    (running : ¬m.hasCrashed)
    {response : Response}
    (delivering : m.picard = .delivering response) :
    Machine.run (step retries) { mux := m }
        (List.replicate (blockLength m.currentCommand response) .complete) =
      ({ mux := (m.deliver response).1 }, (m.deliver response).2) := by
  have loopRuns := (Mux.not_hasCrashed_iff.mp running).1
  unfold blockLength Mux.deliver
  cases client : m.currentCommand.client with
  | none =>
      simp [step, completeStep, blockStep, leave, delivering, client, Mux.hasCrashed, loopRuns,
        Mux.updateSubscriber, Mux.sendResponse]
  | some client =>
      by_cases subscribe : response.cmdType = Command.subscribe <;>
        simp [step, completeStep, blockStep, leave, delivering, client, Mux.hasCrashed, loopRuns,
          subscribe, Mux.updateSubscriber, Mux.updateClient, Mux.sendResponse]

/-- The statements of `removeClient` in front of its lock. -/
theorem run_removeClient
    (running : ¬m.hasCrashed)
    (client : ClientId) :
    ∃ statements, Machine.run (step retries) { mux := m } statements =
      ({ mux := m.removeClient client }, []) := by
  obtain ⟨loopRuns, reads⟩ := Mux.not_hasCrashed_iff.mp running
  by_cases handled : m.handles client .authenticated
  · by_cases current : m.currentCommand.client.isSome
    · refine ⟨[.removeClient client, .eraseClient], ?_⟩
      simp [step, Mux.hasCrashed, loopRuns, reads, removeClient, Mux.removeClient, handled, current,
        removalStep, Mux.updateClient]
    · refine ⟨[.removeClient client], ?_⟩
      simp [step, running, removeClient, Mux.removeClient, handled, current, Mux.updateClient]
  · exact ⟨[], by simp [Mux.removeClient, handled]⟩

/-- The block of `removeClient`. -/
theorem run_eraseClient
    (running : ¬m.hasCrashed) :
    ∃ statements, Machine.run (step retries) { mux := m } statements =
      ({ mux := m.eraseClient }, []) := by
  obtain ⟨loopRuns, reads⟩ := Mux.not_hasCrashed_iff.mp running
  cases removing : m.removing with
  | none => exact ⟨[], by simp [Mux.eraseClient, removing]⟩
  | some client =>
      by_cases registered : client ∈ m.clients
      · by_cases changed :
          Mux.newParamsUnion m.objects (m.clients.erase client) = m.filterUnion
        · refine ⟨List.replicate 5 .eraseClient, ?_⟩
          simp [step, Mux.hasCrashed, loopRuns, reads, removalStep, removing, registered,
            Mux.recomputeStep, RecomputeStage.changed, returned, Mux.eraseClient,
            Mux.recomputeSubscribeFilter, changed]
        · obtain ⟨payload, written, -⟩ := filterToVector_of_length
            (Mux.newParamsUnion m.objects (m.clients.erase client))
            (List.length_replicate (n := subscribeParamsLength) (a := 0#8)).ge
          refine ⟨List.replicate 7 .eraseClient, ?_⟩
          simp [step, Mux.hasCrashed, loopRuns, reads, removalStep, removing, registered,
            Mux.recomputeStep, RecomputeStage.changed, returned, Mux.eraseClient,
            Mux.recomputeSubscribeFilter, changed, Mux.resubscribe, written]
      · refine ⟨[.eraseClient], ?_⟩
        simp [step, running, removalStep, removing, registered, returned, Mux.eraseClient]

/-- Every step of `Mux` is a run of statements. -/
theorem exists_statements (m : Mux) (action : Action) :
    ∃ statements, Machine.run (step retries) { mux := m } statements =
      ({ mux := (m.step retries action).1 }, (m.step retries action).2) := by
  by_cases crashed : m.hasCrashed
  · exact ⟨[], by rw [Mux.step, if_pos crashed]; rfl⟩
  have one (outside : (step retries { mux := m } action) = outerStep retries { mux := m } action) :
      Machine.run (step retries) { mux := m } [action] =
        ({ mux := (m.step retries action).1 }, (m.step retries action).2) := by
    rw [Machine.run_cons, outside, Machine.run_nil, List.append_nil]
    rfl
  cases action with
  | loop =>
      cases phase : m.loop with
      | recomputing cmd =>
          refine ⟨_, (run_recompute crashed phase).trans ?_⟩
          rw [Mux.step, if_neg crashed]
          rfl
      | recording cmd i frame =>
          refine ⟨_, (run_record crashed phase).trans ?_⟩
          rw [Mux.step, if_neg crashed]
          rfl
      | _ =>
          refine ⟨[.loop], one ?_⟩
          rw [step_loop crashed]
          simp [loopStep, phase, clientsLocked]
  | complete =>
      have sameStep : m.step retries .complete = m.completeStep := if_neg crashed
      rw [sameStep]
      cases phase : m.picard with
      | validating response => exact ⟨_, run_validate crashed phase⟩
      | delivering response =>
          refine ⟨_, (run_block crashed phase).trans ?_⟩
          rw [Mux.completeStep, phase]
      | _ =>
          refine ⟨[.complete], ?_⟩
          rw [Machine.run_cons, step_complete crashed]
          simp [completeStep, phase, Mux.completeStep]
  | receive frame =>
      refine ⟨_, one ?_⟩
      rw [step_receive crashed]
      simp [receive, clientsLocked]
  | removeClient client =>
      obtain ⟨statements, result⟩ := run_removeClient crashed client
      exact ⟨statements, result.trans (by rw [Mux.step, if_neg crashed]; rfl)⟩
  | eraseClient =>
      obtain ⟨statements, result⟩ := run_eraseClient crashed
      exact ⟨statements, result.trans (by rw [Mux.step, if_neg crashed]; rfl)⟩
  | _ => exact ⟨_, one (if_neg crashed)⟩

end Uninterrupted

/-- Every run of `Mux` is a run in which no block is interrupted. -/
theorem exists_block_run (retries : Int) (m : Mux) (actions : List Action) :
    ∃ statements, Machine.run (step retries) { mux := m } statements =
      ({ mux := (Machine.run (Mux.step retries) m actions).1 },
        (Machine.run (Mux.step retries) m actions).2) := by
  induction actions generalizing m with
  | nil => exact ⟨[], rfl⟩
  | cons action rest inductionHypothesis =>
      obtain ⟨first, now⟩ := @exists_statements retries m action
      obtain ⟨statements, later⟩ := inductionHypothesis (m.step retries action).1
      refine ⟨first ++ statements, ?_⟩
      rw [Machine.run_append, now, later]
      rfl

/-! ## What each statement does -/

/-- What a statement of `commandLoop` does. -/
inductive LoopStatement (retries : Int) (p : Process) : Process × List Output → Prop
  | waits
      (locked : p.mux.loop.isWaiting ∧ p.block.isSome ∨
        (∃ cmd, p.mux.loop = .disconnecting cmd) ∧ p.clientsLocked) :
      LoopStatement retries p (p, [])
  | unites
      {cmd : ClientCommand}
      (phase : p.mux.loop = .recomputing cmd)
      (called : p.recompute = none) :
      LoopStatement retries p
        ({ p with
          recompute :=
            some (.comparing (Mux.newParamsUnion p.mux.objects p.mux.clients)) }, [])
  | compares
      {cmd : ClientCommand}
      {newParamsUnion : SubscriptionParams}
      (phase : p.mux.loop = .recomputing cmd)
      (stage : p.recompute = some (.comparing newParamsUnion)) :
      LoopStatement retries p
        ({ p with
          recompute := some (.saving newParamsUnion (newParamsUnion != p.mux.filterUnion)) }, [])
  | saves
      {cmd : ClientCommand}
      {newParamsUnion : SubscriptionParams}
      {changed : Bool}
      (phase : p.mux.loop = .recomputing cmd)
      (stage : p.recompute = some (.saving newParamsUnion changed)) :
      LoopStatement retries p
        ({ p with
          mux := { p.mux with prevfilter := p.mux.filterUnion }
          recompute := some (.storing newParamsUnion changed) }, [])
  | stores
      {cmd : ClientCommand}
      {newParamsUnion : SubscriptionParams}
      {changed : Bool}
      (phase : p.mux.loop = .recomputing cmd)
      (stage : p.recompute = some (.storing newParamsUnion changed)) :
      LoopStatement retries p
        ({ p with
          mux := { p.mux with filterUnion := newParamsUnion, loop := .rewriting cmd }
          recompute := none }, [])
  | records
      {cmd : ClientCommand}
      {i : Nat}
      {frame : ByteVector}
      (phase : p.mux.loop = .recording cmd i frame)
      (notRecorded : p.recorded = false) :
      LoopStatement retries p
        ({ p with
          mux := { p.mux with currentCommand.seq := p.mux.io.seqNo }
          recorded := true }, [])
  | sends
      {cmd : ClientCommand}
      {i : Nat}
      {frame : ByteVector}
      (phase : p.mux.loop = .recording cmd i frame)
      (recorded : p.recorded = true) :
      LoopStatement retries p
        ({ p with mux := { p.mux with loop := .waiting cmd i }, recorded := false },
          [.sent frame])
  | whole
      (notRecomputing : ∀ cmd, p.mux.loop ≠ .recomputing cmd)
      (notRecording : ∀ cmd i frame, p.mux.loop ≠ .recording cmd i frame)
      (unlocked : p.mux.loop.isWaiting → p.block = none) :
      LoopStatement retries p
        ({ p with mux := (p.mux.loopStep retries).1 }, (p.mux.loopStep retries).2)

/-- What a statement of `removeClient` does. -/
inductive RemovalStatement (p : Process) : Process → Prop
  | rests (notRemoving : p.mux.removing = none) : RemovalStatement p p
  | marks
      (stage : p.removal = some .marking) :
      RemovalStatement p
        { p with
          mux := { p.mux with currentCommand.result := .disconnect }
          removal := none }
  | erases
      {client : ClientId}
      (removing : p.mux.removing = some client)
      (stage : p.removal = none)
      (registered : client ∈ p.mux.clients) :
      RemovalStatement p
        { p with
          mux := { p.mux with clients := p.mux.clients.erase client }
          removal := some .uniting }
  | misses
      {client : ClientId}
      (removing : p.mux.removing = some client)
      (stage : p.removal = none)
      (unregistered : client ∉ p.mux.clients) :
      RemovalStatement p p.returned
  | unites
      (stage : p.removal = some .uniting) :
      RemovalStatement p
        { p with
          removal := some (.recomputing
            (.comparing (Mux.newParamsUnion p.mux.objects p.mux.clients))) }
  | compares
      {newParamsUnion : SubscriptionParams}
      (stage : p.removal = some (.recomputing (.comparing newParamsUnion))) :
      RemovalStatement p
        { p with
          removal := some (.recomputing
            (.saving newParamsUnion (newParamsUnion != p.mux.filterUnion))) }
  | saves
      {newParamsUnion : SubscriptionParams}
      {changed : Bool}
      (stage : p.removal = some (.recomputing (.saving newParamsUnion changed))) :
      RemovalStatement p
        { p with
          mux := { p.mux with prevfilter := p.mux.filterUnion }
          removal := some (.recomputing (.storing newParamsUnion changed)) }
  | stores
      {newParamsUnion : SubscriptionParams}
      (stage : p.removal = some (.recomputing (.storing newParamsUnion true))) :
      RemovalStatement p
        { p with
          mux := { p.mux with filterUnion := newParamsUnion }
          removal := some .serialising }
  | ends
      {newParamsUnion : SubscriptionParams}
      (stage : p.removal = some (.recomputing (.storing newParamsUnion false))) :
      RemovalStatement p
        (returned { p with mux := { p.mux with filterUnion := newParamsUnion } })
  | serialises
      {payload : ByteVector}
      (stage : p.removal = some .serialising)
      (written : filterToVector p.mux.filterUnion (List.replicate subscribeParamsLength 0) =
        some payload) :
      RemovalStatement p { p with removal := some (.queueing payload) }
  | queues
      {payload : ByteVector}
      (stage : p.removal = some (.queueing payload)) :
      RemovalStatement p
        (returned { p with
          mux := { p.mux with
            commands := p.mux.commands ++
              [{ command := MuxMessage.ofPayload Command.subscribe payload }] } })

/-- What a statement of `commandComplete` does. -/
inductive CompleteStatement (p : Process) : Process × List Output → Prop
  | rests
      (idle : p.mux.picard.response = none) :
      CompleteStatement p (p, [])
  | expects
      {response : Response}
      (phase : p.mux.picard = .validating response)
      (called : p.expectedSeq = none) :
      CompleteStatement p ({ p with expectedSeq := some p.mux.currentCommand.seq }, [])
  | refuses
      {response : Response}
      {expectedSeq : Byte}
      (phase : p.mux.picard = .validating response)
      (expected : p.expectedSeq = some expectedSeq)
      (differs : response.cmdType ≠ p.mux.currentCommand.command.type ∨
        response.seqNo ≠ expectedSeq) :
      CompleteStatement p
        ({ p with mux := { p.mux with picard := .reading }, expectedSeq := none }, [])
  | rejects
      {response : Response}
      {expectedSeq : Byte}
      (phase : p.mux.picard = .validating response)
      (expected : p.expectedSeq = some expectedSeq)
      (sameType : response.cmdType = p.mux.currentCommand.command.type)
      (sameSeq : response.seqNo = expectedSeq)
      (rejected : response.cmdType = Command.subscribe ∧ response.respCode ≠ ErrorCode.ok) :
      CompleteStatement p
        ({ p with mux := { p.mux with picard := .rejecting response }, expectedSeq := none }, [])
  | accepts
      {response : Response}
      {expectedSeq : Byte}
      (phase : p.mux.picard = .validating response)
      (expected : p.expectedSeq = some expectedSeq)
      (sameType : response.cmdType = p.mux.currentCommand.command.type)
      (sameSeq : response.seqNo = expectedSeq)
      (passed : ¬(response.cmdType = Command.subscribe ∧ response.respCode ≠ ErrorCode.ok)) :
      CompleteStatement p
        ({ p with mux := { p.mux with picard := .delivering response }, expectedSeq := none },
          [])
  | restores
      {response : Response}
      (phase : p.mux.picard = .rejecting response) :
      CompleteStatement p
        ({ p with
          mux := { p.mux with
            filterUnion := p.mux.prevfilter
            picard := .delivering response } }, [])
  | marks
      {response : Response}
      (phase : p.mux.picard = .delivering response)
      (stage : p.block = none) :
      CompleteStatement p
        ({ p with
          mux := { p.mux with currentCommand.result := .ok }
          block := some .testing }, [])
  | finds
      {response : Response}
      (phase : p.mux.picard = .delivering response)
      (stage : p.block = some .testing)
      (present : p.mux.currentCommand.client.isSome) :
      CompleteStatement p ({ p with block := some .writing }, [])
  | skips
      {response : Response}
      (phase : p.mux.picard = .delivering response)
      (stage : p.block = some .testing)
      (absent : p.mux.currentCommand.client = none) :
      CompleteStatement p (p.leave, [])
  | writes
      {response : Response}
      (phase : p.mux.picard = .delivering response)
      (stage : p.block = some .writing) :
      CompleteStatement p
        (if response.cmdType = Command.subscribe then { p with block := some .committing }
          else p.leave,
          Mux.sendResponse p.mux.currentCommand.client .commandComplete
            (MuxOutput.make response.cmdType 0 response.respCode response.payload))
  | commits
      {response : Response}
      {client : ClientId}
      (phase : p.mux.picard = .delivering response)
      (stage : p.block = some .committing)
      (present : p.mux.currentCommand.client = some client) :
      CompleteStatement p
        (leave { p with mux := p.mux.updateSubscriber (some client) Subscriber.commitFilter }, [])
  | crashes
      {response : Response}
      (phase : p.mux.picard = .delivering response)
      (stage : p.block = some .committing)
      (absent : p.mux.currentCommand.client = none) :
      CompleteStatement p
        ({ p with mux := { p.mux with picard := .crashed }, block := none }, [])

section Statements

variable {retries : Int} {p : Process}

theorem loopStep_statement
    (running : ¬p.mux.hasCrashed) :
    LoopStatement retries p (p.loopStep retries) := by
  have sameStep : p.mux.step retries .loop = p.mux.loopStep retries := if_neg running
  have whole : p.outerStep retries .loop =
      ({ p with mux := (p.mux.loopStep retries).1 }, (p.mux.loopStep retries).2) := by
    rw [outerStep, sameStep]
  unfold loopStep
  split
  case h_1 cmd phase =>
      split
      · rename_i called
        exact .unites phase called
      · rename_i stage inside
        cases stage with
        | comparing newParamsUnion => exact .compares phase inside
        | saving newParamsUnion changed => exact .saves phase inside
        | storing newParamsUnion changed => exact .stores phase inside
  case h_2 cmd i frame phase =>
      split
      · rename_i recorded
        exact .sends phase recorded
      · rename_i notRecorded
        exact .records phase (by simpa using notRecorded)
  case h_3 phase =>
      split
      · rename_i locked
        exact .waits (Or.inl ⟨by rw [phase]; rfl, locked⟩)
      · rename_i free
        rw [whole]
        exact .whole (by simp [phase]) (by simp [phase])
          (fun _ => Option.not_isSome_iff_eq_none.mp free)
  case h_4 cmd phase =>
      split
      · rename_i locked
        exact .waits (Or.inr ⟨⟨cmd, phase⟩, locked⟩)
      · rw [whole]
        exact .whole (by simp [phase]) (by simp [phase])
          (fun waiting => by rw [phase] at waiting; cases waiting)
  case h_5 notRecomputing notRecording notWaiting _ =>
      rw [whole]
      refine .whole notRecomputing notRecording fun waiting => ?_
      cases phase : p.mux.loop <;> rw [phase] at waiting
      case waiting cmd i => exact absurd phase (notWaiting cmd i)
      all_goals cases waiting

theorem removalStep_statement (p : Process) : RemovalStatement p p.removalStep := by
  unfold removalStep
  split
  case h_1 notRemoving => exact .rests notRemoving
  case h_2 client isRemoving =>
      split
      case h_1 stage => exact .marks stage
      case h_2 stage =>
          split
          · rename_i registered
            exact .erases isRemoving stage registered
          · rename_i unregistered
            exact .misses isRemoving stage unregistered
      case h_3 stage => exact .unites stage
      case h_4 stage inside =>
          cases stage with
          | comparing newParamsUnion => exact .compares inside
          | saving newParamsUnion changed => exact .saves inside
          | storing newParamsUnion changed =>
              cases changed
              · exact .ends inside
              · exact .stores inside
      case h_5 stage =>
          obtain ⟨payload, written, -⟩ := filterToVector_of_length p.mux.filterUnion
            (List.length_replicate (n := subscribeParamsLength) (a := (0 : Byte))).ge
          rw [written]
          exact .serialises stage written
      case h_6 payload stage => exact .queues stage

theorem completeStep_statement (p : Process) : CompleteStatement p p.completeStep := by
  unfold completeStep
  split
  case h_1 response phase =>
      split
      · rename_i called
        exact .expects phase called
      · rename_i expectedSeq expected
        unfold Mux.validate
        split_ifs with differs rejected
        · exact .refuses phase expected differs
        · rw [not_or, not_not, not_not] at differs
          exact .rejects phase expected differs.1 differs.2 rejected
        · rw [not_or, not_not, not_not] at differs
          exact .accepts phase expected differs.1 differs.2 rejected
  case h_2 response phase => exact .restores phase
  case h_3 response phase =>
      unfold blockStep
      split
      · rename_i stage
        exact .marks phase stage
      · rename_i stage
        split
        · rename_i present
          exact .finds phase stage present
        · rename_i absent
          exact .skips phase stage (Option.not_isSome_iff_eq_none.mp absent)
      · rename_i stage
        exact .writes phase stage
      · rename_i stage
        split
        · rename_i client present
          exact .commits phase stage present
        · rename_i absent
          exact .crashes phase stage absent
  all_goals
    rename_i phase
    exact .rests (by rw [phase]; rfl)

end Statements

/-! ## What the threads leave alone -/

/-- The command thread and the Picard thread stay where they are, and nothing changes of
the filters of the clients and of the current command but its result. -/
structure SameThreads (before after : Process) : Prop where
  loop : after.mux.loop = before.mux.loop
  picard : after.mux.picard = before.mux.picard
  seqNo : after.mux.io.seqNo = before.mux.io.seqNo
  current : ∃ result,
    after.mux.currentCommand = { before.mux.currentCommand with result := result }
  subscriber : ∀ client,
    (after.mux.objects client).subscriber = (before.mux.objects client).subscriber
  expectedSeq : after.expectedSeq = before.expectedSeq
  block : after.block = before.block
  recompute : after.recompute = before.recompute
  recorded : after.recorded = before.recorded

theorem SameThreads.refl (p : Process) : SameThreads p p :=
  ⟨rfl, rfl, rfl, ⟨p.mux.currentCommand.result, rfl⟩, fun _ => rfl, rfl, rfl, rfl, rfl⟩

section Threads

variable {retries : Int} {p : Process}

theorem removeClient_sameThreads (p : Process) (client : ClientId) :
    SameThreads p (p.removeClient client) := by
  have same : Mux.SameManager p.mux
      (p.mux.updateClient client fun object => { object with reading := false }) :=
    Mux.updateClient_same fun _ => rfl
  unfold removeClient
  split
  · exact ⟨rfl, rfl, rfl, ⟨p.mux.currentCommand.result, rfl⟩, same.subscriber, rfl, rfl, rfl,
      rfl⟩
  · exact SameThreads.refl p

theorem removalStep_sameThreads (p : Process) : SameThreads p p.removalStep := by
  have unchanged : ∃ result,
      p.mux.currentCommand = { p.mux.currentCommand with result := result } :=
    ⟨p.mux.currentCommand.result, rfl⟩
  have statement := removalStep_statement p
  generalize p.removalStep = next at statement ⊢
  cases statement with
  | rests => exact SameThreads.refl p
  | marks => exact ⟨rfl, rfl, rfl, ⟨.disconnect, rfl⟩, fun _ => rfl, rfl, rfl, rfl, rfl⟩
  | _ => exact ⟨rfl, rfl, rfl, unchanged, fun _ => rfl, rfl, rfl, rfl, rfl⟩

/-- The other threads write nothing. -/
theorem step_sameThreads
    {action : Action}
    (notLoop : action ≠ .loop)
    (notComplete : action ≠ .complete)
    (notReceive : ∀ frame, action ≠ .receive frame) :
    SameThreads p (p.step retries action).1 ∧ (p.step retries action).2 = [] := by
  by_cases crashed : p.mux.hasCrashed
  · rw [step_of_crashed crashed]
    exact ⟨SameThreads.refl p, rfl⟩
  have outer (calm : action.isQuiet ∨ (∃ client command, action = .addCommand client command) ∨
      action = .clearCommands)
      (outside : p.step retries action = p.outerStep retries action) :
      SameThreads p (p.step retries action).1 ∧ (p.step retries action).2 = [] := by
    have frame := @Mux.step_picard_frame retries p.mux action notReceive notComplete
    obtain ⟨loop, current⟩ := @Mux.step_frame retries p.mux action notLoop
    rw [outside]
    refine ⟨⟨loop, frame.1, frame.2, current, ?_, rfl, rfl, rfl, rfl⟩, ?_⟩
    · intro client
      rcases calm with quiet | ⟨client, command, rfl⟩ | rfl
      · exact (Mux.step_quiet quiet retries p.mux).1.subscriber _
      all_goals
        simp only [outerStep, Mux.step, if_neg crashed, Mux.perform, Mux.addCommand]
        split <;> rfl
    · rw [outerStep, Mux.step, if_neg crashed]
      cases action with
      | unregisterCallback | stop | clearCommands =>
          simp only [Mux.perform]
          split <;> rfl
      | loop => exact absurd rfl notLoop
      | complete => exact absurd rfl notComplete
      | receive received => exact absurd rfl (notReceive received)
      | _ => rfl
  cases action with
  | loop => exact absurd rfl notLoop
  | complete => exact absurd rfl notComplete
  | receive frame => exact absurd rfl (notReceive frame)
  | removeClient client =>
      rw [step_removeClient crashed]
      exact ⟨removeClient_sameThreads p client, rfl⟩
  | eraseClient =>
      rw [step_eraseClient crashed]
      exact ⟨removalStep_sameThreads p, rfl⟩
  | addCommand client command =>
      exact outer (Or.inr (Or.inl ⟨client, command, rfl⟩)) (if_neg crashed)
  | clearCommands => exact outer (Or.inr (Or.inr rfl)) (if_neg crashed)
  | addClient | hangUp | unregisterCallback | stop =>
      exact outer (Or.inl rfl) (if_neg crashed)

/-- A frame waits for the lock, or is handled as by `Mux`. -/
theorem receive_cases (p : Process) (frame : ByteVector) :
    p.receive retries frame = (p, []) ∨
      p.receive retries frame = p.outerStep retries (.receive frame) := by
  unfold receive
  split
  · exact Or.inl rfl
  · exact Or.inr rfl

end Threads

/-- `commandComplete` handles no other response than the one it was called with, and
leaves the command thread where it is. -/
theorem step_complete_response (retries : Int) (p : Process) :
    (p.step retries .complete).1.mux.loop = p.mux.loop ∧
      ∀ response, (p.step retries .complete).1.mux.picard.response = some response →
        p.mux.picard.response = some response := by
  by_cases crashed : p.mux.hasCrashed
  · rw [step_of_crashed crashed]
    exact ⟨rfl, fun _ => id⟩
  rw [step_complete crashed]
  have statement := completeStep_statement p
  generalize p.completeStep = result at statement ⊢
  cases statement with
  | rests | expects | marks | finds => exact ⟨rfl, fun _ => id⟩
  | refuses | skips | crashes => exact ⟨rfl, fun _ impossible => by cases impossible⟩
  | rejects phase | accepts phase | restores phase =>
      rw [phase]
      exact ⟨rfl, fun _ => id⟩
  | writes =>
      dsimp only
      split
      · exact ⟨rfl, fun _ => id⟩
      · exact ⟨rfl, fun _ impossible => by cases impossible⟩
  | commits =>
      refine ⟨by simp [leave], fun _ impossible => ?_⟩
      cases impossible

/-- A frame leaves the command thread, its command and the places inside the steps
alone. -/
theorem step_receive_loop (retries : Int) (p : Process) (frame : ByteVector) :
    (p.step retries (.receive frame)).1.mux.loop = p.mux.loop ∧
      (p.step retries (.receive frame)).1.mux.currentCommand = p.mux.currentCommand ∧
      (p.step retries (.receive frame)).1.expectedSeq = p.expectedSeq ∧
      (p.step retries (.receive frame)).1.block = p.block ∧
      (p.step retries (.receive frame)).1.recorded = p.recorded := by
  by_cases crashed : p.mux.hasCrashed
  · rw [step_of_crashed crashed]
    exact ⟨rfl, rfl, rfl, rfl, rfl⟩
  rw [step_receive crashed]
  rcases @receive_cases retries p frame with waits | handled
  · rw [waits]
    exact ⟨rfl, rfl, rfl, rfl, rfl⟩
  · have same := (@Mux.step_quiet (.receive frame) rfl retries p.mux).1
    rw [handled]
    exact ⟨same.loop, same.currentCommand, rfl, rfl, rfl⟩

/-- `removeClient` queues nothing but a re-SUBSCRIBE. -/
theorem mem_removalStep_commands
    {p : Process}
    {cmd : ClientCommand}
    (queued : cmd ∈ p.removalStep.mux.commands) :
    cmd ∈ p.mux.commands ∨
      ∃ payload, p.removal = some (.queueing payload) ∧
        cmd = { command := MuxMessage.ofPayload Command.subscribe payload } := by
  have statement := removalStep_statement p
  generalize p.removalStep = next at statement queued
  cases statement with
  | @queues payload stage =>
      rcases List.mem_append.mp queued with old | new
      · exact Or.inl old
      · exact Or.inr ⟨payload, stage, List.mem_singleton.mp new⟩
  | _ => exact Or.inl queued

/-- A frame leads to outputs that are no response only. -/
theorem step_receive_passive
    (retries : Int)
    (p : Process)
    (frame : ByteVector) :
    ∀ output ∈ (p.step retries (.receive frame)).2, output.isPassive := by
  by_cases crashed : p.mux.hasCrashed
  · rw [step_of_crashed crashed]
    simp
  rw [step_receive crashed]
  rcases @receive_cases retries p frame with waits | handled
  · rw [waits]
    simp
  · rw [handled]
    exact (@Mux.step_quiet (.receive frame) rfl retries p.mux).2

/-- The other threads leave the command thread where it is. -/
theorem step_commandThread
    (retries : Int)
    (p : Process)
    {action : Action}
    (notLoop : action ≠ .loop) :
    (p.step retries action).1.mux.loop = p.mux.loop ∧
      (p.step retries action).1.recompute = p.recompute ∧
      (p.step retries action).1.recorded = p.recorded := by
  by_cases complete : action = .complete
  · subst complete
    refine ⟨(step_complete_response retries p).1, ?_⟩
    by_cases crashed : p.mux.hasCrashed
    · rw [step_of_crashed crashed]
      exact ⟨rfl, rfl⟩
    rw [step_complete crashed]
    have statement := completeStep_statement p
    generalize p.completeStep = result at statement ⊢
    cases statement with
    | writes =>
        dsimp only
        split <;> exact ⟨rfl, rfl⟩
    | _ => exact ⟨rfl, rfl⟩
  by_cases receives : ∃ frame, action = .receive frame
  · obtain ⟨frame, rfl⟩ := receives
    obtain ⟨loop, -, -, -, recorded⟩ := step_receive_loop retries p frame
    refine ⟨loop, ?_, recorded⟩
    by_cases crashed : p.mux.hasCrashed
    · rw [step_of_crashed crashed]
    rw [step_receive crashed]
    rcases @receive_cases retries p frame with waits | handled
    · rw [waits]
    · rw [handled]
      rfl
  · have same := (@step_sameThreads retries p action notLoop complete
      fun frame receive => receives ⟨frame, receive⟩).1
    exact ⟨same.loop, same.recompute, same.recorded⟩

/-- Apart from the command thread and the Picard thread, only the mark of a departure changes
the current command. -/
theorem step_currentCommand
    (retries : Int)
    (p : Process)
    {action : Action}
    (notLoop : action ≠ .loop)
    (notComplete : action ≠ .complete) :
    (p.step retries action).1.mux.currentCommand = p.mux.currentCommand ∨
      action = .eraseClient ∧ p.removal = some .marking ∧
        (p.step retries action).1.mux.currentCommand =
          { p.mux.currentCommand with result := .disconnect } := by
  by_cases crashed : p.mux.hasCrashed
  · exact Or.inl (by rw [step_of_crashed crashed])
  cases action with
  | loop => exact absurd rfl notLoop
  | complete => exact absurd rfl notComplete
  | receive frame => exact Or.inl (step_receive_loop retries p frame).2.1
  | removeClient client =>
      left
      rw [step_removeClient crashed]
      unfold removeClient
      split <;> rfl
  | eraseClient =>
      rw [step_eraseClient crashed]
      have statement := removalStep_statement p
      generalize p.removalStep = next at statement ⊢
      cases statement with
      | marks stage => exact Or.inr ⟨rfl, stage, rfl⟩
      | _ => exact Or.inl rfl
  | addCommand client command =>
      left
      simp only [step, if_neg crashed, outerStep, Mux.step, Mux.perform, Mux.addCommand]
      split <;> rfl
  | clearCommands =>
      left
      simp only [step, if_neg crashed, outerStep, Mux.step, Mux.perform]
      split <;> rfl
  | addClient | hangUp | unregisterCallback | stop =>
      left
      rw [step, if_neg crashed]
      exact (Mux.step_quiet rfl retries p.mux).1.currentCommand

/-- Once the current command has a result, only the command thread takes it away. -/
theorem step_result
    (retries : Int)
    (p : Process)
    {action : Action}
    (notLoop : action ≠ .loop)
    (marked : p.mux.currentCommand.result ≠ .timeout) :
    (p.step retries action).1.mux.currentCommand.result ≠ .timeout := by
  by_cases complete : action = .complete
  · subst complete
    by_cases crashed : p.mux.hasCrashed
    · rw [step_of_crashed crashed]
      exact marked
    rw [step_complete crashed]
    have statement := completeStep_statement p
    generalize p.completeStep = result at statement ⊢
    cases statement with
    | marks => simp
    | writes =>
        dsimp only
        split <;> exact marked
    | commits => simpa [leave] using marked
    | _ => exact marked
  · rcases step_currentCommand retries p notLoop complete with same | ⟨-, -, disconnected⟩
    · rw [same]
      exact marked
    · rw [disconnected]
      simp

/-- Only `commandComplete` reads the number that it expects. -/
theorem step_expectedSeq
    (retries : Int)
    (p : Process)
    {action : Action}
    (notLoop : action ≠ .loop)
    (notComplete : action ≠ .complete) :
    (p.step retries action).1.expectedSeq = p.expectedSeq := by
  by_cases receives : ∃ frame, action = .receive frame
  · obtain ⟨frame, rfl⟩ := receives
    exact (step_receive_loop retries p frame).2.2.1
  · exact (@step_sameThreads retries p action notLoop notComplete
      fun frame receive => receives ⟨frame, receive⟩).1.expectedSeq

/-- Only `commandComplete` enters and leaves its locked block. -/
theorem step_block
    (retries : Int)
    (p : Process)
    {action : Action}
    (notLoop : action ≠ .loop)
    (notComplete : action ≠ .complete) :
    (p.step retries action).1.block = p.block := by
  by_cases receives : ∃ frame, action = .receive frame
  · obtain ⟨frame, rfl⟩ := receives
    exact (step_receive_loop retries p frame).2.2.2.1
  · exact (@step_sameThreads retries p action notLoop notComplete
      fun frame receive => receives ⟨frame, receive⟩).1.block

/-- Apart from the command thread, `commandComplete` and a departure, nobody touches the
filters. -/
theorem step_filters
    (retries : Int)
    (p : Process)
    {action : Action}
    (notLoop : action ≠ .loop)
    (notComplete : action ≠ .complete)
    (notErase : action ≠ .eraseClient) :
    (p.step retries action).1.mux.filterUnion = p.mux.filterUnion ∧
      (p.step retries action).1.mux.prevfilter = p.mux.prevfilter ∧
      ∀ other, ((p.step retries action).1.mux.objects other).subscriber =
        (p.mux.objects other).subscriber := by
  by_cases crashed : p.mux.hasCrashed
  · rw [step_of_crashed crashed]
    exact ⟨rfl, rfl, fun _ => rfl⟩
  have outer (quiet : action.isQuiet)
      (outside : p.step retries action = p.outerStep retries action) :
      (p.step retries action).1.mux.filterUnion = p.mux.filterUnion ∧
        (p.step retries action).1.mux.prevfilter = p.mux.prevfilter ∧
        ∀ other, ((p.step retries action).1.mux.objects other).subscriber =
          (p.mux.objects other).subscriber := by
    have same := (Mux.step_quiet quiet retries p.mux).1
    rw [outside]
    exact ⟨same.filterUnion, same.prevfilter, same.subscriber⟩
  cases action with
  | loop => exact absurd rfl notLoop
  | complete => exact absurd rfl notComplete
  | eraseClient => exact absurd rfl notErase
  | removeClient client =>
      have same := (removeClient_sameThreads p client).subscriber
      rw [step_removeClient crashed]
      refine ⟨?_, ?_, same⟩ <;> unfold removeClient <;> split <;> rfl
  | receive frame =>
      rcases @receive_cases retries p frame with waits | handled
      · rw [step_receive crashed, waits]
        exact ⟨rfl, rfl, fun _ => rfl⟩
      · exact outer rfl ((step_receive crashed frame).trans handled)
  | addCommand client command =>
      simp only [step, if_neg crashed, outerStep, Mux.step, Mux.perform, Mux.addCommand]
      split <;> exact ⟨rfl, rfl, fun _ => rfl⟩
  | clearCommands =>
      simp only [step, if_neg crashed, outerStep, Mux.step, Mux.perform]
      split <;> exact ⟨rfl, rfl, fun _ => rfl⟩
  | addClient | hangUp | unregisterCallback | stop => exact outer rfl (if_neg crashed)

/-- Apart from `commandComplete`, a step leaves the Picard thread where it is, or moves it
where it reads a frame. -/
theorem step_picard
    (retries : Int)
    (p : Process)
    {action : Action}
    (notComplete : action ≠ .complete) :
    (p.step retries action).1.mux.picard = p.mux.picard ∨
      p.mux.picard = .reading ∧ ¬(p.step retries action).1.mux.picard.isCompleting := by
  by_cases crashed : p.mux.hasCrashed
  · exact Or.inl (by rw [step_of_crashed crashed])
  by_cases loop : action = .loop
  · subst loop
    rw [step_loop crashed]
    have statement := @loopStep_statement retries p crashed
    generalize p.loopStep retries = result at statement ⊢
    cases statement with
    | whole => exact Or.inl (Mux.loopStep_picard p.mux).1
    | _ => exact Or.inl rfl
  by_cases receives : ∃ frame, action = .receive frame
  · obtain ⟨frame, rfl⟩ := receives
    rw [step_receive crashed]
    rcases @receive_cases retries p frame with waits | handled
    · exact Or.inl (by rw [waits])
    rw [handled, outerStep, Mux.step, if_neg crashed]
    by_cases reading : p.mux.picard = .reading
    · refine Or.inr ⟨reading, fun completing => ?_⟩
      have same := Mux.receive_completing completing
      rw [Mux.perform, same, reading] at completing
      cases completing
    · left
      rw [Mux.perform, Mux.receive, if_neg reading]
  · exact Or.inl (@step_sameThreads retries p action loop notComplete
      fun frame receive => receives ⟨frame, receive⟩).1.picard

/-- Only frames move the number. -/
theorem step_seqNo
    (retries : Int)
    (p : Process)
    {action : Action}
    (notLoop : action ≠ .loop)
    (notReceive : ∀ frame, action ≠ .receive frame) :
    (p.step retries action).1.mux.io.seqNo = p.mux.io.seqNo := by
  by_cases complete : action = .complete
  · subst complete
    by_cases crashed : p.mux.hasCrashed
    · rw [step_of_crashed crashed]
    rw [step_complete crashed]
    have statement := completeStep_statement p
    generalize p.completeStep = result at statement ⊢
    cases statement with
    | writes =>
        dsimp only
        split <;> rfl
    | commits => simp [leave]
    | _ => rfl
  · exact (@step_sameThreads retries p action notLoop complete notReceive).1.seqNo

/-- Only the command thread records a number. -/
theorem step_seq
    (retries : Int)
    (p : Process)
    {action : Action}
    (notLoop : action ≠ .loop) :
    (p.step retries action).1.mux.currentCommand.seq = p.mux.currentCommand.seq := by
  by_cases complete : action = .complete
  · subst complete
    by_cases crashed : p.mux.hasCrashed
    · rw [step_of_crashed crashed]
    rw [step_complete crashed]
    have statement := completeStep_statement p
    generalize p.completeStep = result at statement ⊢
    cases statement with
    | writes =>
        dsimp only
        split <;> rfl
    | commits => simp [leave]
    | _ => rfl
  · rcases step_currentCommand retries p notLoop complete with same | ⟨-, -, marked⟩
    · rw [same]
    · rw [marked]

/-- A queued command was queued before, is queued by its client, or is the re-SUBSCRIBE of
a client that leaves. -/
theorem mem_step_commands
    {retries : Int}
    {p : Process}
    {action : Action}
    {cmd : ClientCommand}
    (queued : cmd ∈ (p.step retries action).1.mux.commands) :
    cmd ∈ p.mux.commands ∨
      (∃ client command, action = .addCommand client command ∧
        cmd = { client := some client, command := command }) ∨
      ∃ payload, cmd = { command := MuxMessage.ofPayload Command.subscribe payload } := by
  by_cases crashed : p.mux.hasCrashed
  · rw [step_of_crashed crashed] at queued
    exact Or.inl queued
  have outer (kept : (p.mux.step retries action).1.commands = p.mux.commands)
      (outside : (p.step retries action).1 = (p.outerStep retries action).1) :
      cmd ∈ p.mux.commands := by
    rw [outside, outerStep] at queued
    rwa [← kept]
  cases action with
  | loop =>
      rw [step_loop crashed] at queued
      have statement := @loopStep_statement retries p crashed
      generalize p.loopStep retries = result at statement queued
      cases statement with
      | whole => exact Or.inl (Mux.mem_loopStep_commands queued)
      | _ => exact Or.inl queued
  | complete =>
      rw [step_complete crashed] at queued
      have statement := completeStep_statement p
      generalize p.completeStep = result at statement queued
      cases statement with
      | writes =>
          dsimp only at queued
          split at queued <;> exact Or.inl queued
      | commits => exact Or.inl (by simpa [leave] using queued)
      | _ => exact Or.inl queued
  | removeClient client =>
      rw [step_removeClient crashed] at queued
      unfold removeClient at queued
      split at queued <;> exact Or.inl queued
  | eraseClient =>
      rw [step_eraseClient crashed] at queued
      rcases mem_removalStep_commands queued with old | ⟨payload, -, new⟩
      · exact Or.inl old
      · exact Or.inr (Or.inr ⟨payload, new⟩)
  | receive frame =>
      rw [step_receive crashed] at queued
      rcases @receive_cases retries p frame with waits | handled
      · rw [waits] at queued
        exact Or.inl queued
      · rw [handled, outerStep] at queued
        rw [(Mux.step_quiet rfl retries p.mux).1.commands] at queued
        exact Or.inl queued
  | addCommand client command =>
      rw [step, if_neg crashed, outerStep] at queued
      simp only [Mux.step, if_neg crashed, Mux.perform, Mux.addCommand] at queued
      split at queued
      · rcases List.mem_append.mp queued with old | new
        · exact Or.inl old
        · exact Or.inr (Or.inl ⟨client, command, rfl, List.mem_singleton.mp new⟩)
      · exact Or.inl queued
  | clearCommands =>
      rw [step, if_neg crashed, outerStep] at queued
      simp only [Mux.step, if_neg crashed, Mux.perform] at queued
      split at queued
      · cases queued
      · exact Or.inl queued
  | addClient | hangUp | unregisterCallback | stop =>
      exact Or.inl (outer (Mux.step_quiet rfl retries p.mux).1.commands
        (congrArg Prod.fst (if_neg crashed)))

/-! ## What holds in every state -/

/-- A thread is inside a step of `Mux` only where that step begins. -/
structure Sound (p : Process) : Prop where
  mux : p.mux.Sound
  expecting : p.expectedSeq.isSome → ∃ response, p.mux.picard = .validating response
  inBlock : ∀ stage, p.block = some stage → ∃ response,
    p.mux.picard = .delivering response ∧
      (stage = .committing → response.cmdType = Command.subscribe)
  recomputing : p.recompute.isSome → ∃ cmd, p.mux.loop = .recomputing cmd
  recording : p.recorded → ∃ cmd i frame, p.mux.loop = .recording cmd i frame
  removing : p.removal.isSome → p.mux.removing.isSome

theorem start_sound (io : BasePicard) (protocolVersion : Byte) :
    Sound (start io protocolVersion) where
  mux := Mux.start_sound io protocolVersion
  expecting := fun impossible => by cases impossible
  inBlock := fun _ impossible => by cases impossible
  recomputing := fun impossible => by cases impossible
  recording := fun impossible => by cases impossible
  removing := fun impossible => by cases impossible

section Sound

variable {retries : Int} {p : Process}

/-- The I/O thread stays in `removeClient` until this returns. -/
theorem removalStep_removing
    (removing : p.removal.isSome → p.mux.removing.isSome) :
    p.removalStep.removal.isSome → p.removalStep.mux.removing.isSome := by
  have statement := removalStep_statement p
  generalize p.removalStep = next at statement ⊢
  cases statement with
  | rests => exact removing
  | erases isRemoving => exact fun _ => by rw [isRemoving]; rfl
  | unites stage | compares stage | saves stage | stores stage | serialises stage =>
      exact fun _ => removing (by rw [stage]; rfl)
  | marks | misses | ends | queues => exact fun impossible => by cases impossible

/-- The I/O thread keeps the threads where they are. -/
theorem Sound.aside
    {next : Process}
    (sound : Sound p)
    (same : SameThreads p next)
    (queued : ∀ cmd ∈ next.mux.commands, cmd.Fresh)
    (removing : next.removal.isSome → next.mux.removing.isSome) :
    Sound next where
  mux := {
    agrees := by
      obtain ⟨result, current⟩ := same.current
      have agrees := sound.mux.agrees
      rw [same.loop, current]
      cases phase : p.mux.loop <;> rw [phase] at agrees <;> exact agrees
    queued := queued
    prepared := by
      rw [same.loop]
      exact sound.mux.prepared
    answers := by
      rw [same.picard]
      exact sound.mux.answers }
  expecting := by
    rw [same.expectedSeq, same.picard]
    exact sound.expecting
  inBlock := by
    rw [same.block, same.picard]
    exact sound.inBlock
  recomputing := by
    rw [same.recompute, same.loop]
    exact sound.recomputing
  recording := by
    rw [same.recorded, same.loop]
    exact sound.recording
  removing := removing

/-- The fields behind the places stay as they are. -/
theorem Sound.outer
    (sound : Sound p)
    {action : Action}
    (picard : (p.mux.step retries action).1.picard = p.mux.picard ∨
      p.mux.picard = .reading)
    (loop : (p.mux.step retries action).1.loop = p.mux.loop ∨
      p.recompute = none ∧ p.recorded = false)
    (removing : (p.mux.step retries action).1.removing = p.mux.removing ∨ p.removal = none) :
    Sound (p.outerStep retries action).1 where
  mux := Mux.step_sound action sound.mux
  expecting expects := by
    obtain ⟨response, validating⟩ := sound.expecting expects
    rcases picard with same | reading
    · exact ⟨response, same.trans validating⟩
    · rw [reading] at validating
      cases validating
  inBlock stage isStage := by
    obtain ⟨response, delivering, isSubscribe⟩ := sound.inBlock stage isStage
    rcases picard with same | reading
    · exact ⟨response, same.trans delivering, isSubscribe⟩
    · rw [reading] at delivering
      cases delivering
  recomputing recomputes := by
    rcases loop with same | ⟨none, -⟩
    · obtain ⟨cmd, phase⟩ := sound.recomputing recomputes
      exact ⟨cmd, same.trans phase⟩
    · rw [outerStep, none] at recomputes
      cases recomputes
  recording records := by
    rcases loop with same | ⟨-, not⟩
    · obtain ⟨cmd, i, frame, phase⟩ := sound.recording records
      exact ⟨cmd, i, frame, same.trans phase⟩
    · rw [outerStep, not] at records
      cases records
  removing isRemoval := by
    rcases removing with same | none
    · exact (congrArg Option.isSome same).trans (sound.removing isRemoval)
    · rw [outerStep, none] at isRemoval
      cases isRemoval

/-- Away from the two calls, no place in them is kept. -/
theorem Sound.between
    (sound : Sound p)
    (notRecomputing : ∀ cmd, p.mux.loop ≠ .recomputing cmd)
    (notRecording : ∀ cmd i frame, p.mux.loop ≠ .recording cmd i frame) :
    p.recompute = none ∧ p.recorded = false := by
  constructor
  · cases recompute : p.recompute with
    | none => rfl
    | some stage =>
        obtain ⟨cmd, phase⟩ := sound.recomputing (by rw [recompute]; rfl)
        exact absurd phase (notRecomputing cmd)
  · cases recorded : p.recorded with
    | false => rfl
    | true =>
        obtain ⟨cmd, i, frame, phase⟩ := sound.recording recorded
        exact absurd phase (notRecording cmd i frame)

/-- A statement of the command thread. -/
theorem Sound.loop
    (sound : Sound p)
    (running : ¬p.mux.hasCrashed) :
    Sound (p.loopStep retries).1 := by
  obtain ⟨⟨agrees, queued, prepared, answers⟩, expecting, inBlock, recomputing, recording,
    removing⟩ := id sound
  have statement := @loopStep_statement retries p running
  generalize p.loopStep retries = result at statement ⊢
  cases statement with
  | waits => exact sound
  | @unites cmd phase called =>
      exact { sound with recomputing := fun _ => ⟨cmd, phase⟩ }
  | @compares cmd _ phase stage =>
      exact { sound with recomputing := fun _ => ⟨cmd, phase⟩ }
  | @saves cmd _ _ phase stage =>
      exact ⟨⟨agrees, queued, prepared, answers⟩, expecting, inBlock, fun _ => ⟨cmd, phase⟩,
        recording, removing⟩
  | @stores cmd _ _ phase stage =>
      rw [phase] at agrees prepared
      refine ⟨⟨agrees, queued, prepared, answers⟩, expecting, inBlock,
        (fun impossible => by cases impossible), fun recorded => ?_, removing⟩
      obtain ⟨_, _, _, other⟩ := recording recorded
      rw [phase] at other
      cases other
  | @records cmd i frame phase notRecorded =>
      refine ⟨⟨?_, queued, prepared, answers⟩, expecting, inBlock, recomputing,
        fun _ => ⟨cmd, i, frame, phase⟩, removing⟩
      rw [phase] at agrees ⊢
      exact agrees
  | @sends cmd i frame phase recorded =>
      rw [phase] at agrees
      refine ⟨⟨agrees, queued, (fun _ impossible => by cases impossible), answers⟩, expecting,
        inBlock, fun recomputes => ?_, (fun impossible => by cases impossible), removing⟩
      obtain ⟨_, other⟩ := recomputing recomputes
      rw [phase] at other
      cases other
  | whole notRecomputing notRecording =>
      have loopStep : p.mux.step retries .loop = p.mux.loopStep retries := if_neg running
      rw [← loopStep]
      refine sound.outer (Or.inl ?_) (Or.inr (sound.between notRecomputing notRecording))
        (Or.inl ?_) <;> rw [loopStep]
      · exact (Mux.loopStep_picard p.mux).1
      · exact Mux.loopStep_removing p.mux

theorem Sound.leave
    (sound : Sound p)
    (client : Option ClientId)
    (change : Subscriber → Subscriber)
    {response : Response}
    (delivering : p.mux.picard = .delivering response) :
    Sound (leave { p with mux := p.mux.updateSubscriber client change }) where
  mux := {
    agrees := by simpa [Process.leave] using sound.mux.agrees
    queued := by simpa [Process.leave] using sound.mux.queued
    prepared := by simpa [Process.leave] using sound.mux.prepared
    answers := fun _ impossible => by cases impossible }
  expecting expects := by
    obtain ⟨_, validating⟩ := sound.expecting expects
    rw [delivering] at validating
    cases validating
  inBlock := fun _ impossible => by cases impossible
  recomputing := by simpa [Process.leave] using sound.recomputing
  recording := by simpa [Process.leave] using sound.recording
  removing := by simpa [Process.leave] using sound.removing

/-- The Picard thread goes on in front of the block. -/
theorem Sound.completing
    (sound : Sound p)
    {phase : PicardPhase}
    {filterUnion : SubscriptionParams}
    {expectedSeq : Option Byte}
    (notDelivering : ¬p.mux.picard.isDelivering)
    (response : ∀ response, phase.response = some response →
      p.mux.picard.response = some response)
    (expecting : expectedSeq.isSome → ∃ response, phase = .validating response) :
    Sound { p with
      mux := { p.mux with filterUnion := filterUnion, picard := phase }
      expectedSeq := expectedSeq } where
  mux := ⟨sound.mux.agrees, sound.mux.queued, sound.mux.prepared,
    fun handled isHandled => sound.mux.answers handled (response handled isHandled)⟩
  expecting := expecting
  inBlock stage isStage := by
    obtain ⟨_, delivering, -⟩ := sound.inBlock stage isStage
    exact absurd (by rw [delivering]; rfl) notDelivering
  recomputing := sound.recomputing
  recording := sound.recording
  removing := sound.removing

/-- `commandComplete` has read no number except where it validates a response. -/
theorem Sound.not_expecting
    (sound : Sound p)
    (notValidating : ∀ response, p.mux.picard ≠ .validating response) :
    p.expectedSeq = none := by
  cases expectedSeq : p.expectedSeq with
  | none => rfl
  | some number =>
      obtain ⟨response, validating⟩ := sound.expecting (by rw [expectedSeq]; rfl)
      exact absurd validating (notValidating response)

/-- The Picard thread goes on in the block. -/
theorem Sound.block
    (sound : Sound p)
    {response : Response}
    (phase : p.mux.picard = .delivering response)
    {stage : BlockStage}
    (subscribes : stage = .committing → response.cmdType = Command.subscribe)
    (result : ClientResult) :
    Sound { p with
      mux := { p.mux with currentCommand.result := result }
      block := some stage } where
  mux := {
    agrees := by
      have agrees := sound.mux.agrees
      dsimp only
      cases loop : p.mux.loop <;> rw [loop] at agrees <;> exact agrees
    queued := sound.mux.queued
    prepared := sound.mux.prepared
    answers := sound.mux.answers }
  expecting := sound.expecting
  inBlock other isStage := by
    obtain rfl := Option.some.inj isStage
    exact ⟨response, phase, subscribes⟩
  recomputing := sound.recomputing
  recording := sound.recording
  removing := sound.removing

/-- A statement of `commandComplete`. -/
theorem Sound.complete
    (sound : Sound p) :
    Sound p.completeStep.1 := by
  have statement := completeStep_statement p
  generalize p.completeStep = result at statement ⊢
  cases statement with
  | rests => exact sound
  | @expects response phase => exact { sound with expecting := fun _ => ⟨response, phase⟩ }
  | refuses phase =>
      exact sound.completing (by rw [phase]; simp [PicardPhase.isDelivering])
        (fun _ impossible => by cases impossible) (fun impossible => by cases impossible)
  | rejects phase | accepts phase =>
      exact sound.completing (by rw [phase]; simp [PicardPhase.isDelivering])
        (by rw [phase]; exact fun _ => id) (fun impossible => by cases impossible)
  | restores phase =>
      have notExpecting := sound.not_expecting (by simp [phase])
      exact sound.completing (by rw [phase]; simp [PicardPhase.isDelivering])
        (by rw [phase]; exact fun _ => id) (fun impossible => by simp [notExpecting] at impossible)
  | marks phase => exact sound.block phase (fun impossible => by cases impossible) .ok
  | finds phase =>
      exact sound.block phase (fun impossible => by cases impossible) p.mux.currentCommand.result
  | skips phase => exact sound.leave none id phase
  | writes phase =>
      dsimp only
      split
      · rename_i subscribe
        exact sound.block phase (fun _ => subscribe) p.mux.currentCommand.result
      · exact sound.leave none id phase
  | commits phase => exact sound.leave _ _ phase
  | crashes phase =>
      have notExpecting := sound.not_expecting (by simp [phase])
      exact ⟨⟨sound.mux.agrees, sound.mux.queued, sound.mux.prepared,
        (fun _ impossible => by cases impossible)⟩,
        (fun impossible => by simp [notExpecting] at impossible),
        (fun _ impossible => by cases impossible), sound.recomputing, sound.recording,
        sound.removing⟩

theorem Sound.receive
    (sound : Sound p)
    (frame : ByteVector) :
    Sound (p.receive retries frame).1 := by
  rcases @receive_cases retries p frame with waits | handled
  · rw [waits]
    exact sound
  · rw [handled]
    have same := (@Mux.step_quiet (.receive frame) rfl retries p.mux).1
    refine sound.outer ?_ (Or.inl same.loop) (Or.inl same.removing)
    by_cases reading : p.mux.picard = .reading
    · exact Or.inr reading
    · left
      rw [Mux.step]
      split
      · rfl
      · rw [Mux.perform, Mux.receive, if_neg reading]

theorem step_sound
    (action : Action)
    (sound : Sound p) :
    Sound (p.step retries action).1 := by
  by_cases crashed : p.mux.hasCrashed
  · rw [step_of_crashed crashed]
    exact sound
  have outer (quiet : action.isQuiet ∨ (∃ client command, action = .addCommand client command) ∨
      action = .clearCommands) (outside : p.step retries action = p.outerStep retries action)
      (notReceive : ∀ frame, action ≠ .receive frame) :
      Sound (p.step retries action).1 := by
    have notLoop : action ≠ .loop := by
      rintro rfl
      simp [Action.isQuiet] at quiet
    have notComplete : action ≠ .complete := by
      rintro rfl
      simp [Action.isQuiet] at quiet
    rw [outside]
    refine sound.outer (Or.inl (Mux.step_picard_frame notReceive notComplete).1)
      (Or.inl (Mux.step_frame notLoop).1) (Or.inl ?_)
    rcases quiet with quiet | ⟨client, command, rfl⟩ | rfl
    · exact (Mux.step_quiet quiet retries p.mux).1.removing
    all_goals
      simp only [Mux.step, if_neg crashed, Mux.perform, Mux.addCommand]
      split <;> rfl
  cases action with
  | loop =>
      rw [step_loop crashed]
      exact sound.loop crashed
  | complete =>
      rw [step_complete crashed]
      exact sound.complete
  | receive frame =>
      rw [step_receive crashed]
      exact sound.receive frame
  | removeClient client =>
      rw [step_removeClient crashed]
      refine sound.aside (removeClient_sameThreads p client) ?_ ?_ <;> unfold removeClient <;>
        split
      · exact sound.mux.queued
      · exact sound.mux.queued
      · exact fun _ => rfl
      · exact sound.removing
  | eraseClient =>
      rw [step_eraseClient crashed]
      refine sound.aside (removalStep_sameThreads p) ?_ (removalStep_removing sound.removing)
      intro cmd queued
      rcases mem_removalStep_commands queued with old | ⟨payload, -, rfl⟩
      · exact sound.mux.queued cmd old
      · exact ⟨rfl, rfl⟩
  | addCommand client command =>
      exact outer (Or.inr (Or.inl ⟨client, command, rfl⟩)) (if_neg crashed) (by simp)
  | clearCommands => exact outer (Or.inr (Or.inr rfl)) (if_neg crashed) (by simp)
  | addClient | hangUp | unregisterCallback | stop =>
      exact outer (Or.inl rfl) (if_neg crashed) (by simp)

/-- The states that a run can reach. -/
def Reachable (retries : Int) (p : Process) : Prop :=
  ∃ io protocolVersion actions,
    (Machine.run (step retries) (start io protocolVersion) actions).1 = p

theorem Reachable.run
    (reachable : Reachable retries p)
    (actions : List Action) :
    Reachable retries (Machine.run (step retries) p actions).1 := by
  obtain ⟨io, protocolVersion, earlier, rfl⟩ := reachable
  exact ⟨io, protocolVersion, earlier ++ actions, by rw [Machine.run_append]⟩

theorem reachable_sound
    (reachable : Reachable retries p) :
    Sound p := by
  obtain ⟨io, protocolVersion, actions, rfl⟩ := reachable
  exact Machine.state_invariant_run Sound (fun _ action sound _ => step_sound action sound)
    (start_sound io protocolVersion) (Machine.meets_true _ actions)

theorem run_of_crashed
    (crashed : p.mux.hasCrashed)
    (actions : List Action) :
    Machine.run (step retries) p actions = (p, []) := by
  induction actions with
  | nil => rfl
  | cons action rest inductionHypothesis =>
      rw [Machine.run_cons, step_of_crashed crashed, inductionHypothesis]
      rfl

end Sound

end Process

end SerialMux
