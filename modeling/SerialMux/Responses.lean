import SerialMux.Process

/-!
# One response for each command

While the command thread processes a command of a client, the client waits for
one response.  `awaits` says in which states it is still to come; along a run
the commands accepted and the responses written alternate as long as the Picard
thread enters its locked block for no command that is already answered or given
up, the command thread installs no other command before the block has written,
and no departure overwrites the result of an answer.
-/

namespace SerialMux

/-- A turn in the dialogue between a client and the command thread. -/
inductive Turn
  | asked
  | answered
  deriving DecidableEq, Repr

/-- The turn that an output means for a client. -/
def Output.turn (client : ClientId) : Output → Option Turn
  | .accepted cmd => if cmd.client = some client then some .asked else none
  | .response other _ _ => if other = client then some .answered else none
  | .concluded _ | .notified _ _ | .sent _ | .acked _ | .reset _ => none

/-- The commands of a client that were accepted and the responses written to
it, in order. -/
def dialogue (client : ClientId) (outputs : List Output) : List Turn :=
  outputs.filterMap (Output.turn client)

/-- A number of commands, each followed by its response, and possibly one more
command whose response is pending. -/
def exchanges (count : Nat) (pending : Bool) : List Turn :=
  (List.replicate count [.asked, .answered]).flatten ++ if pending then [.asked] else []

@[simp] theorem dialogue_nil (client : ClientId) : dialogue client [] = [] := rfl

@[simp] theorem dialogue_append (client : ClientId) (earlier later : List Output) :
    dialogue client (earlier ++ later) =
      dialogue client earlier ++ dialogue client later :=
  List.filterMap_append

theorem dialogue_of_passive
    {client : ClientId}
    {outputs : List Output}
    (passive : ∀ output ∈ outputs, output.isPassive) :
    dialogue client outputs = [] := by
  rw [dialogue, List.filterMap_eq_nil_iff]
  intro output mem
  have isPassive := passive output mem
  cases output <;> simp_all [Output.isPassive, Output.turn]

theorem exchanges_asked (count : Nat) :
    exchanges count false ++ [.asked] = exchanges count true := by
  simp [exchanges]

theorem exchanges_answered (count : Nat) :
    exchanges count true ++ [.answered] = exchanges (count + 1) false := by
  simp [exchanges, List.replicate_succ', List.flatten_append]

/-- The turns that a step may add, given whether a response is pending before
and after it. -/
inductive Adds : Bool → List Turn → Bool → Prop
  | silent (pending : Bool) : Adds pending [] pending
  | asked : Adds false [.asked] true
  | answered : Adds true [.answered] false

theorem Adds.same
    {before after : Bool}
    (same : after = before) :
    Adds before [] after := by
  rw [same]
  exact Adds.silent before

theorem Adds.extend
    {before after : Bool}
    {turns earlier : List Turn}
    (adds : Adds before turns after)
    (alternates : ∃ count, earlier = exchanges count before) :
    ∃ count, earlier ++ turns = exchanges count after := by
  obtain ⟨count, rfl⟩ := alternates
  cases adds with
  | silent => exact ⟨count, List.append_nil _⟩
  | asked => exact ⟨count, exchanges_asked count⟩
  | answered => exact ⟨count + 1, exchanges_answered count⟩

/-! ## Which states await a response -/

namespace LoopPhase

/-- Whether the response to a command of the client is still to come. -/
def awaits (client : ClientId) (current : ClientCommand) : LoopPhase → Bool
  | .replying cmd _ _ | .subscribing cmd | .recomputing cmd | .rewriting cmd
  | .installing cmd | .restoring cmd | .resetting cmd | .timingOut cmd =>
      cmd.client == some client
  | .sending cmd _ | .recording cmd _ _ | .waiting cmd _ =>
      cmd.client == some client && current.result != .ok
  | .concluding cmd result => cmd.client == some client && result != .ok
  | .starting | .checking | .popping | .finding _ | .disconnecting _ | .clearing _
  | .finished | .crashed => false

/-- A bound on the statements that the command thread executes before it asks
for the next command. -/
def rank (retries : Int) : LoopPhase → Nat
  | .starting | .checking | .popping | .finished | .crashed => 0
  | .replying _ _ _ => 1
  | .clearing _ => 1
  | .disconnecting _ => 2
  | .timingOut _ => 3
  | .resetting _ => 4
  | .restoring _ => 5
  | .concluding _ _ => 6
  | .waiting _ i => 7 + 3 * (retries.toNat - (i + 1))
  | .recording _ i _ => 8 + 3 * (retries.toNat - (i + 1))
  | .sending _ i => 9 + 3 * (retries.toNat - (i + 1))
  | .installing _ => 10 + 3 * retries.toNat
  | .rewriting _ => 11 + 3 * retries.toNat
  | .recomputing _ => 12 + 3 * retries.toNat
  | .subscribing _ => 13 + 3 * retries.toNat
  | .finding _ => 14 + 3 * retries.toNat

/-- The command that is not installed yet has no result, and the filter of a
SUBSCRIBE of the client can be read and rewritten. -/
def Prepared (client : ClientId) : LoopPhase → Prop
  | .finding cmd =>
      cmd.result = .timeout ∧
        (cmd.client = some client → cmd.command.type = Command.subscribe →
          subscribeParamsLength ≤ cmd.command.data.length)
  | .subscribing cmd | .recomputing cmd | .rewriting cmd =>
      cmd.result = .timeout ∧
        (cmd.client = some client →
          subscribeParamsLength ≤ cmd.command.data.length)
  | .installing cmd => cmd.result = .timeout
  | _ => True

end LoopPhase

namespace Mux

variable {retries : Int} {client : ClientId} {m : Mux}

/-- Whether a frame carries a notification whose filter bit exists. -/
def notifTypeInRange : ByteVector → Bool
  | _ :: type :: _ :: _ :: notifType :: _ =>
      type != Command.notification || notifType.toNat < 32
  | _ => true

theorem dialogue_sendResponse (cmd : ClientCommand) (sender : Sender) (resp : MuxOutput) :
    dialogue client (sendResponse cmd.client sender resp) =
      if cmd.client = some client then [.answered] else [] := by
  unfold sendResponse
  split
  · rename_i absent
    simp [absent]
  · rename_i other present
    by_cases same : other = client <;> simp [present, same, dialogue, Output.turn]

theorem dialogue_accepted (cmd : ClientCommand) :
    dialogue client [.accepted cmd] =
      if cmd.client = some client then [.asked] else [] := by
  by_cases same : cmd.client = some client <;> simp [same, dialogue, Output.turn]

theorem adds_of_answer
    {cmd : ClientCommand}
    {sender : Sender}
    {resp : MuxOutput} :
    Adds (cmd.client == some client)
      (dialogue client (sendResponse cmd.client sender resp)) false := by
  rw [dialogue_sendResponse]
  by_cases same : cmd.client = some client
  · simpa [same] using Adds.answered
  · have notWaiting : (cmd.client == some client) = false := by simpa using same
    rw [if_neg same, notWaiting]
    exact Adds.silent false

theorem adds_of_command (cmd : ClientCommand) :
    Adds false (dialogue client [.accepted cmd]) (cmd.client == some client) := by
  rw [dialogue_accepted]
  by_cases same : cmd.client = some client
  · simpa [same] using Adds.asked
  · have notWaiting : (cmd.client == some client) = false := by simpa using same
    rw [if_neg same, notWaiting]
    exact Adds.silent false

/-- A command whose filter is too short is not one of the client's. -/
theorem adds_of_undefined
    {cmd : ClientCommand}
    (undefined : ¬subscribeParamsLength ≤ cmd.command.data.length)
    (prepared : cmd.client = some client →
      subscribeParamsLength ≤ cmd.command.data.length) :
    Adds (cmd.client == some client) (dialogue client []) false := by
  have other : (cmd.client == some client) = false := by
    simpa using fun same => undefined (prepared same)
  rw [other]
  exact Adds.silent false

theorem attempt_adds
    {cmd current : ClientCommand}
    {i : Nat}
    {result : ClientResult}
    (same : current.result = result) :
    Adds (cmd.client == some client && result != .ok)
      (dialogue client (attempt retries cmd i result).2)
      ((attempt retries cmd i result).1.awaits client current) := by
  refine attempt_cases (fun next =>
    Adds _ (dialogue client next.2) (next.1.awaits client current)) ?_ ?_
  · intro _ _
    rw [← same]
    exact Adds.silent _
  · intro _
    exact Adds.silent _

theorem loopStep_adds
    (prepared : m.loop.Prepared client) :
    Adds (m.loop.awaits client m.currentCommand)
      (dialogue client (m.loopStep retries).2)
      ((m.loopStep retries).1.loop.awaits client (m.loopStep retries).1.currentCommand) := by
  cases phase : m.loop <;> rw [phase] at prepared <;> simp only [Mux.loopStep, phase]
  case starting => exact Adds.silent _
  case checking => split <;> exact Adds.silent _
  case popping => split <;> exact Adds.silent _
  case finding cmd =>
      split
      · refine dispatch_cases (fun next => Adds false (dialogue client [.accepted cmd])
          (next.awaits client m.currentCommand)) ?_ ?_ ?_ ?_
        · intro absent
          rw [dialogue_accepted, absent, if_neg (by simp)]
          exact Adds.silent false
        · exact fun _ _ _ => adds_of_command cmd
        · exact fun _ _ _ => adds_of_command cmd
        · exact fun _ _ => adds_of_command cmd
      · exact Adds.silent _
  case replying => exact adds_of_answer
  case subscribing cmd =>
      split
      · exact Adds.silent _
      · rename_i undefined
        refine adds_of_undefined (fun long => ?_) prepared.2
        obtain ⟨params, defined⟩ := vectorToFilter_of_length long
        rw [undefined] at defined
        cases defined
  case recomputing => exact Adds.silent _
  case rewriting cmd =>
      split
      · exact Adds.silent _
      · rename_i undefined
        refine adds_of_undefined (fun long => ?_) prepared.2
        obtain ⟨written, defined, -⟩ := filterToVector_of_length m.filterUnion long
        rw [undefined] at defined
        cases defined
  case installing cmd =>
      have pending : (LoopPhase.installing cmd).awaits client m.currentCommand =
          (cmd.client == some client && ClientResult.timeout != .ok) := by
        simp [LoopPhase.awaits]
      rw [pending]
      exact attempt_adds prepared
  case sending => exact Adds.silent _
  case recording => exact Adds.silent _
  case waiting cmd i => exact attempt_adds rfl
  case concluding cmd result =>
      split
      · rename_i failed
        have pending : (LoopPhase.concluding cmd result).awaits client m.currentCommand =
            (cmd.client == some client) := by
          simp [LoopPhase.awaits, failed.1]
        rw [pending]
        split <;> exact Adds.silent _
      · rename_i done
        have answered : (LoopPhase.concluding cmd result).awaits client m.currentCommand =
            false := by
          cases present : cmd.client <;> simp_all [LoopPhase.awaits]
        rw [answered]
        exact Adds.silent _
  case restoring => exact Adds.silent _
  case resetting => exact Adds.silent _
  case timingOut => exact adds_of_answer
  case disconnecting => split <;> exact Adds.silent _
  case clearing => exact Adds.silent _
  case finished => exact Adds.silent _
  case crashed => exact Adds.silent _

theorem dispatch_prepared
    {cmd : ClientCommand}
    (prepared : (LoopPhase.finding cmd).Prepared client) :
    (m.dispatch cmd).Prepared client := by
  refine dispatch_cases (fun next => next.Prepared client) ?_ ?_ ?_ ?_
  · exact fun _ => trivial
  · exact fun _ _ _ => trivial
  · exact fun subscribe _ _ => ⟨prepared.1, fun same => prepared.2 same subscribe⟩
  · exact fun _ _ => prepared.1

/-- The command being prepared stays well-formed. -/
theorem loopStep_prepared
    (queued : ∀ cmd ∈ m.commands, (LoopPhase.finding cmd).Prepared client)
    (prepared : m.loop.Prepared client) :
    (m.loopStep retries).1.loop.Prepared client := by
  cases phase : m.loop <;> rw [phase] at prepared <;> simp only [Mux.loopStep, phase]
  case checking => split <;> trivial
  case popping =>
      split
      · trivial
      · rename_i cmd rest commands
        rw [commands] at queued
        exact queued cmd List.mem_cons_self
  case finding cmd =>
      split
      · exact dispatch_prepared prepared
      · trivial
  case subscribing cmd =>
      split
      · exact prepared
      · trivial
  case recomputing => exact prepared
  case rewriting =>
      split
      · exact prepared.1
      · trivial
  case installing cmd =>
      exact attempt_cases (fun next => next.1.Prepared client) (fun _ _ => trivial)
        (fun _ => trivial)
  case waiting cmd i =>
      exact attempt_cases (fun next => next.1.Prepared client) (fun _ _ => trivial)
        (fun _ => trivial)
  case concluding => split_ifs <;> trivial
  case disconnecting => split <;> trivial
  all_goals trivial

theorem agreesWith_result
    {phase : LoopPhase}
    {current : ClientCommand}
    (agrees : phase.AgreesWith current)
    (result : ClientResult) :
    phase.AgreesWith { current with result := result } := by
  cases phase <;> exact agrees

theorem awaits_iff_of_transmitting
    {phase : LoopPhase}
    {current : ClientCommand}
    (transmitting : phase.transmitting)
    (agrees : phase.AgreesWith current) :
    phase.awaits client current ↔ current.client = some client ∧ current.result ≠ .ok := by
  cases phase <;> simp only [LoopPhase.transmitting, Bool.false_eq_true] at transmitting
  all_goals simp [LoopPhase.awaits, agrees.1]

/-- Only the result of the client's command in transmission matters. -/
theorem awaits_result
    {phase : LoopPhase}
    {current : ClientCommand}
    {result : ClientResult}
    (agrees : phase.AgreesWith current)
    (keeps : phase.transmitting → current.client = some client →
      (result = .ok ↔ current.result = .ok)) :
    phase.awaits client { current with result := result } = phase.awaits client current := by
  by_cases transmitting : phase.transmitting
  · rw [Bool.eq_iff_iff, awaits_iff_of_transmitting transmitting agrees,
      awaits_iff_of_transmitting transmitting (agreesWith_result agrees result)]
    exact and_congr_right fun same => not_congr (keeps transmitting same)
  · cases phase <;> simp only [LoopPhase.transmitting, not_true_eq_false] at transmitting <;>
      rfl

/-! ## Progress -/

theorem dispatch_rank (cmd : ClientCommand) :
    (m.dispatch cmd).rank retries < (LoopPhase.finding cmd).rank retries := by
  refine dispatch_cases
    (fun next => next.rank retries < (LoopPhase.finding cmd).rank retries) ?_ ?_ ?_ ?_
  · exact fun _ => by simp only [LoopPhase.rank]; omega
  · exact fun _ _ _ => by simp only [LoopPhase.rank]; omega
  · exact fun _ _ _ => by simp only [LoopPhase.rank]; omega
  · exact fun _ _ => by simp only [LoopPhase.rank]; omega

theorem attempt_rank
    {cmd : ClientCommand}
    {i : Nat}
    {result : ClientResult} :
    (attempt retries cmd i result).1.rank retries < 7 + 3 * (retries.toNat - i) := by
  refine attempt_cases (fun next => next.1.rank retries < 7 + 3 * (retries.toNat - i)) ?_ ?_
  · intro _ goesOn
    simp only [LoopPhase.rank]
    omega
  · intro _
    simp only [LoopPhase.rank]
    omega

/-- Every statement of the command thread brings it nearer to the next command. -/
theorem loopStep_rank
    (positive : 0 < m.loop.rank retries) :
    (m.loopStep retries).1.loop.rank retries < m.loop.rank retries := by
  cases phase : m.loop <;> rw [phase] at positive <;> simp only [Mux.loopStep, phase]
  case starting | checking | popping | finished | crashed =>
      simp [LoopPhase.rank] at positive
  case finding cmd =>
      split
      · exact dispatch_rank cmd
      · simp only [LoopPhase.rank]
        omega
  case subscribing | rewriting | disconnecting =>
      split <;> simp only [LoopPhase.rank] <;> omega
  case concluding => split_ifs <;> simp only [LoopPhase.rank] <;> omega
  case installing cmd =>
      have lower : (attempt retries cmd 0 .timeout).1.rank retries <
          7 + 3 * (retries.toNat - 0) := attempt_rank
      rw [LoopPhase.rank]
      omega
  case waiting cmd i => exact attempt_rank
  all_goals simp only [LoopPhase.rank]; omega

theorem awaits_of_rank_zero
    {phase : LoopPhase}
    (done : phase.rank retries = 0)
    (current : ClientCommand) :
    phase.awaits client current = false := by
  cases phase <;> simp only [LoopPhase.rank] at done <;> first | rfl | omega

/-! ## The Picard thread survives -/

theorem notifyEach_isSome
    (objects : ClientId → Client)
    {notifType : Byte}
    (inRange : notifType.toNat < 32)
    (payload : ByteVector)
    (clients : List ClientId) :
    ∃ outputs, notifyEach objects notifType payload clients = some outputs := by
  induction clients with
  | nil => exact ⟨[], rfl⟩
  | cons other rest inductionHypothesis =>
      obtain ⟨others, notified⟩ := inductionHypothesis
      simp only [notifyEach, notified, Subscriber.isSubscribed, subscribeFilterMatch,
        if_pos inRange, Option.bind_eq_bind, Option.bind_some]
      split <;> exact ⟨_, rfl⟩

/-- A frame passes on no notification but its own. -/
theorem frameComplete_handleNotif
    {io : BasePicard}
    {frame : ByteVector}
    {notifType : Byte}
    {payload : ByteVector}
    (inRange : notifTypeInRange frame)
    (passed : .handleNotif notifType payload ∈ (io.frameComplete frame).2) :
    notifType.toNat < 32 := by
  unfold BasePicard.frameComplete at passed
  split at passed
  · rename_i control type seqNo len body
    split_ifs at passed with malformed hello mgr notif response
    · cases passed
    · unfold BasePicard.helloResponse at passed
      split at passed
      · dsimp only at passed
        split_ifs at passed <;> simp at passed
      · cases passed
    · unfold BasePicard.mgrHello at passed
      split at passed
      · dsimp only at passed
        split_ifs at passed <;> simp at passed
      · cases passed
    · cases body with
      | nil => cases passed
      | cons carried rest =>
          have same : notifType = carried := by
            simp only [BasePicard.notification] at passed
            split_ifs at passed <;> simp_all [BasePicard.sendAck]
          subst same
          simpa [notifTypeInRange, notif.1] using inRange
    · unfold BasePicard.commandResponse at passed
      split at passed
      · dsimp only at passed
        split_ifs at passed <;> simp at passed
      · cases passed
    · cases passed
  · cases passed

theorem handleEvent_picard
    {event : PicardEvent}
    (inRange : ∀ notifType payload, event = .handleNotif notifType payload →
      notifType.toNat < 32)
    (runs : m.picard ≠ .crashed) :
    (m.handleEvent event).1.picard ≠ .crashed := by
  cases event with
  | sendRaw data => exact runs
  | handleNotif notifType payload =>
      obtain ⟨outputs, notified⟩ := notifyEach_isSome m.objects
        (inRange notifType payload rfl) payload m.clients
      simpa [handleEvent, handleNotif, notified] using runs
  | commandComplete response => simp [handleEvent]
  | notifyConnect => exact runs
  | resetConnection =>
      have same := (resetConnection_threads m).1
      simp only [handleEvent]
      split <;> rename_i closed reset <;> rw [reset] at same
      · have samePicard : closed.picard = m.picard := same
        rw [samePicard]
        exact runs
      · simp

theorem handleEvents_picard
    {events : List PicardEvent}
    (inRange : ∀ notifType payload, .handleNotif notifType payload ∈ events →
      notifType.toNat < 32)
    (runs : m.picard ≠ .crashed) :
    (m.handleEvents events).1.picard ≠ .crashed := by
  induction events generalizing m with
  | nil => exact runs
  | cons event rest inductionHypothesis =>
      have first : (m.handleEvent event).1.picard ≠ .crashed :=
        handleEvent_picard
          (fun notifType payload same => inRange notifType payload (by simp [same])) runs
      exact inductionHypothesis
        (fun notifType payload mem => inRange notifType payload (List.mem_cons_of_mem _ mem))
        first

theorem receive_picard
    {frame : ByteVector}
    (inRange : notifTypeInRange frame)
    (runs : m.picard ≠ .crashed) :
    (m.receive frame).1.picard ≠ .crashed := by
  unfold receive
  split
  · exact handleEvents_picard
      (fun _ _ passed => frameComplete_handleNotif inRange passed) runs
  · exact runs

end Mux

namespace Process

variable {retries : Int} {client : ClientId} {p : Process} {outputs : List Output}

/-- The Picard thread has entered the locked block of `commandComplete` and not written
the response. -/
def answering (p : Process) : Bool :=
  p.block == some .testing || p.block == some .writing

/-- Whether the response to a command of the client is still to come. -/
def awaits (client : ClientId) (p : Process) : Bool :=
  p.mux.loop.awaits client p.mux.currentCommand ||
    p.answering && p.mux.currentCommand.client == some client

/-- The next statement of `commandLoop` waits for a lock that another thread holds. -/
def waitsForLock (p : Process) : Bool :=
  match p.mux.loop with
  | .waiting _ _ => p.block.isSome
  | .disconnecting _ => p.clientsLocked
  | _ => false

/-- The command thread installs no command of the client before the block is left or has
written its response. -/
def InstallsApart (client : ClientId) (p : Process) : LoopPhase → Prop
  | .installing cmd => p.answering → cmd.client ≠ some client
  | _ => True

/-- The block is entered for a command of the client only while the command thread
transmits it and it is not answered; the client whose filter is committed exists. -/
def EntersOnce (client : ClientId) (p : Process) : Prop :=
  match p.block with
  | none =>
      p.mux.picard.isDelivering → p.mux.currentCommand.client = some client →
        p.mux.currentCommand.result ≠ .ok ∧ p.mux.loop.transmitting
  | some .committing => p.mux.currentCommand.client.isSome
  | some .testing | some .writing => True

/-- The steps after which a client still gets one response for each command.  The client
does not leave, and no other departure marks its command between an answer and the
command thread's reading of the result.  Filters of the client have eight bytes, and
filter bits exist. -/
def AnswersOnce (client : ClientId) (p : Process) : Action → Prop
  | .loop => p.InstallsApart client p.mux.loop
  | .complete => p.EntersOnce client
  | .removeClient other => other ≠ client
  | .eraseClient =>
      p.removal = some .marking → p.mux.currentCommand.client = some client →
        p.mux.currentCommand.result = .ok → ¬p.mux.loop.transmitting
  | .addCommand other command =>
      other = client → command.type = Command.subscribe →
        subscribeParamsLength ≤ command.data.length
  | .receive frame => Mux.notifTypeInRange frame
  | _ => True

instance (client : ClientId) (p : Process) :
    (phase : LoopPhase) → Decidable (InstallsApart client p phase)
  | .installing _ => inferInstanceAs (Decidable (_ → _))
  | .starting | .checking | .popping | .finding _ | .replying _ _ _ | .subscribing _
  | .recomputing _ | .rewriting _ | .sending _ _ | .recording _ _ _ | .waiting _ _
  | .concluding _ _ | .restoring _ | .resetting _ | .timingOut _ | .disconnecting _
  | .clearing _ | .finished | .crashed => isTrue trivial

instance (client : ClientId) (p : Process) : Decidable (EntersOnce client p) := by
  unfold EntersOnce
  split <;> infer_instance

instance (client : ClientId) (p : Process) :
    (action : Action) → Decidable (AnswersOnce client p action)
  | .loop => inferInstanceAs (Decidable (InstallsApart _ _ _))
  | .complete => inferInstanceAs (Decidable (EntersOnce _ _))
  | .removeClient _ => inferInstanceAs (Decidable (_ ≠ _))
  | .eraseClient => inferInstanceAs (Decidable (_ → _ → _ → _))
  | .addCommand _ _ => inferInstanceAs (Decidable (_ → _ → _))
  | .receive _ => inferInstanceAs (Decidable (_ = true))
  | .addClient _ | .hangUp _ | .unregisterCallback | .stop | .clearCommands => isTrue trivial

/-- The block was entered for the command of the client that is current, and this is still
transmitted. -/
def Entered (client : ClientId) (p : Process) : Prop :=
  p.answering → p.mux.currentCommand.client = some client →
    p.mux.currentCommand.result = .ok ∧ p.mux.loop.transmitting

/-- What holds along the runs whose steps meet `AnswersOnce`. -/
structure Converses (client : ClientId) (p : Process) (outputs : List Output) : Prop where
  sound : p.Sound
  queued : ∀ cmd ∈ p.mux.commands, (LoopPhase.finding cmd).Prepared client
  prepared : p.mux.loop.Prepared client
  entered : Entered client p
  turns : ∃ count, dialogue client outputs = exchanges count (p.awaits client)

/-! ## Turns of the command thread -/

/-- A transmission that neither waits nor records the number is about to build its frame. -/
theorem exists_sending
    {phase : LoopPhase}
    (transmitting : phase.transmitting)
    (notWaiting : ¬phase.isWaiting)
    (notRecording : ∀ cmd i frame, phase ≠ .recording cmd i frame) :
    ∃ cmd i, phase = .sending cmd i := by
  cases phase with
  | sending cmd i => exact ⟨cmd, i, rfl⟩
  | recording cmd i frame => exact absurd rfl (notRecording cmd i frame)
  | waiting => exact absurd rfl notWaiting
  | _ => cases transmitting

/-- Only by installing a command of a client, the command thread makes it current. -/
theorem loopStep_client
    {m : Mux}
    (apart : ∀ cmd, m.loop = .installing cmd → cmd.client ≠ some client)
    (present : (m.loopStep retries).1.currentCommand.client = some client) :
    m.currentCommand.client = some client := by
  rcases Mux.loopStep_current retries m with ⟨same, -⟩ | installing | absent
  · rwa [← same]
  · exact absurd present (apart _ installing)
  · rw [absent] at present
    cases present

/-- What `m_currentCommand` and the block add to the turn of the command thread. -/
theorem awaits_eq_of_not_present
    (notPresent : p.answering → p.mux.currentCommand.client ≠ some client) :
    p.awaits client = p.mux.loop.awaits client p.mux.currentCommand := by
  cases inside : p.answering with
  | false => simp [awaits, inside]
  | true => simp [awaits, notPresent inside]

/-- A response that the block is going to write is awaited. -/
theorem awaits_of_present
    (inside : p.answering)
    (present : p.mux.currentCommand.client = some client) :
    p.awaits client = true := by
  simp [awaits, inside, present]

/-- The command thread, its command and the block stay where they are. -/
theorem awaits_congr
    {next : Process}
    (loop : next.mux.loop = p.mux.loop)
    (current : next.mux.currentCommand = p.mux.currentCommand)
    (answering : next.answering = p.answering) :
    next.awaits client = p.awaits client := by
  rw [awaits, awaits, loop, current, answering]

theorem InstallsApart.ne_client
    {phase : LoopPhase}
    (apart : p.InstallsApart client phase)
    (inside : p.answering)
    (cmd : ClientCommand)
    (installing : phase = .installing cmd) :
    cmd.client ≠ some client := by
  rw [installing] at apart
  exact apart inside

/-- A statement that the command thread shares with `Mux` leaves a response that the block
is going to write awaited. -/
theorem Converses.whole
    (converses : Converses client p outputs)
    (apart : p.InstallsApart client p.mux.loop)
    (notRecording : ∀ cmd i frame, p.mux.loop ≠ .recording cmd i frame)
    (unlocked : p.mux.loop.isWaiting → p.block = none) :
    Entered client { p with mux := (p.mux.loopStep retries).1 } ∧
      Adds (p.awaits client) (dialogue client (p.mux.loopStep retries).2)
        (awaits client { p with mux := (p.mux.loopStep retries).1 }) := by
  have sending (inside : p.answering) (present : p.mux.currentCommand.client = some client) :
      ∃ cmd i, p.mux.loop = .sending cmd i := by
    refine exists_sending (converses.entered inside present).2 (fun waiting => ?_) notRecording
    simp [answering, unlocked waiting] at inside
  have before (inside : p.answering)
      (present : (p.mux.loopStep retries).1.currentCommand.client = some client) :
      p.mux.currentCommand.client = some client :=
    loopStep_client (apart.ne_client inside) present
  refine ⟨fun inside present => ?_, ?_⟩
  · obtain ⟨cmd, i, phase⟩ := sending inside (before inside present)
    have isOk := (converses.entered inside (before inside present)).1
    simpa [Mux.loopStep, phase, LoopPhase.transmitting] using isOk
  by_cases both : p.answering ∧ p.mux.currentCommand.client = some client
  · obtain ⟨inside, present⟩ := both
    obtain ⟨cmd, i, phase⟩ := sending inside present
    rw [awaits_of_present inside present, @awaits_of_present client]
    · simpa [Mux.loopStep, phase] using Adds.silent true
    · exact inside
    · simpa [Mux.loopStep, phase] using present
  · have notPresent : p.answering → p.mux.currentCommand.client ≠ some client :=
      fun inside present => both ⟨inside, present⟩
    rw [awaits_eq_of_not_present notPresent, awaits_eq_of_not_present]
    · exact Mux.loopStep_adds converses.prepared
    · exact fun inside present => notPresent inside (before inside present)

/-- A statement of the command thread. -/
theorem Converses.loop
    (converses : Converses client p outputs)
    (running : ¬p.mux.hasCrashed)
    (apart : p.InstallsApart client p.mux.loop) :
    Entered client (p.loopStep retries).1 ∧
      Adds (p.awaits client) (dialogue client (p.loopStep retries).2)
        ((p.loopStep retries).1.awaits client) := by
  have entered := converses.entered
  have statement := @loopStep_statement retries p running
  generalize p.loopStep retries = result at statement ⊢
  cases statement with
  | waits | unites | compares | saves => exact ⟨entered, Adds.silent _⟩
  | stores phase =>
      refine ⟨fun inside present => ?_,
        Adds.same (by simp [awaits, phase, LoopPhase.awaits, answering])⟩
      have transmitting := (entered inside present).2
      rw [phase] at transmitting
      cases transmitting
  | records phase =>
      exact ⟨entered, Adds.same (by simp [awaits, phase, LoopPhase.awaits, answering])⟩
  | sends phase =>
      exact ⟨fun inside present => ⟨(entered inside present).1, rfl⟩,
        Adds.same (by simp [awaits, phase, LoopPhase.awaits, answering])⟩
  | whole _ notRecording unlocked => exact converses.whole apart notRecording unlocked

/-! ## Turns of the Picard thread -/

/-- An answer that is due makes the response one that the block is going to write. -/
theorem Converses.marks
    (converses : Converses client p outputs)
    (stage : p.block = none)
    (due : p.mux.currentCommand.client = some client →
      p.mux.currentCommand.result ≠ .ok ∧ p.mux.loop.transmitting) :
    awaits client { p with
      mux := { p.mux with currentCommand.result := .ok }
      block := some .testing } = p.awaits client := by
  have outside : p.answering = false := by simp [answering, stage]
  by_cases present : p.mux.currentCommand.client = some client
  · obtain ⟨notOk, transmitting⟩ := due present
    have awaited : p.mux.loop.awaits client p.mux.currentCommand = true :=
      (Mux.awaits_iff_of_transmitting transmitting converses.sound.mux.agrees).2 ⟨present, notOk⟩
    have before : p.awaits client = true := by rw [awaits, awaited, Bool.true_or]
    rw [before]
    exact awaits_of_present rfl present
  · have before : p.awaits client = p.mux.loop.awaits client p.mux.currentCommand :=
      awaits_eq_of_not_present fun _ => present
    have kept : p.mux.loop.awaits client { p.mux.currentCommand with result := .ok } =
        p.mux.loop.awaits client p.mux.currentCommand :=
      Mux.awaits_result converses.sound.mux.agrees fun _ same => absurd same present
    rw [before, ← kept]
    exact awaits_eq_of_not_present fun _ => present

/-- A response that is awaited is written. -/
theorem Converses.writes
    (converses : Converses client p outputs)
    (stage : p.block = some .writing)
    (resp : MuxOutput)
    {next : Process}
    (loop : next.mux.loop = p.mux.loop)
    (current : next.mux.currentCommand = p.mux.currentCommand)
    (left : next.answering = false) :
    Adds (p.awaits client)
      (dialogue client (Mux.sendResponse p.mux.currentCommand.client .commandComplete resp))
      (next.awaits client) := by
  have inside : p.answering = true := by simp [answering, stage]
  have after : next.awaits client = p.mux.loop.awaits client p.mux.currentCommand := by
    rw [awaits_eq_of_not_present (by simp [left]), loop, current]
  rw [after, Mux.dialogue_sendResponse]
  split
  · rename_i present
    obtain ⟨isOk, transmitting⟩ := converses.entered inside present
    have answered : p.mux.loop.awaits client p.mux.currentCommand = false := by
      rw [Bool.eq_false_iff, ne_eq,
        Mux.awaits_iff_of_transmitting transmitting converses.sound.mux.agrees]
      simp [isOk]
    rw [awaits_of_present inside present, answered]
    exact Adds.answered
  · rename_i different
    rw [awaits_eq_of_not_present fun _ => different]
    exact Adds.silent _

/-- A statement of `commandComplete`. -/
theorem Converses.complete
    (converses : Converses client p outputs)
    (enters : p.EntersOnce client) :
    Entered client p.completeStep.1 ∧
      Adds (p.awaits client) (dialogue client p.completeStep.2)
        (p.completeStep.1.awaits client) := by
  have entered := converses.entered
  have statement := completeStep_statement p
  generalize p.completeStep = result at statement ⊢
  cases statement with
  | rests | expects | refuses | rejects | accepts | restores =>
      exact ⟨entered, Adds.silent _⟩
  | @marks response phase stage =>
      have due : p.mux.currentCommand.client = some client →
          p.mux.currentCommand.result ≠ .ok ∧ p.mux.loop.transmitting := by
        rw [EntersOnce, stage] at enters
        exact enters (by rw [phase]; rfl)
      exact ⟨fun _ present => ⟨rfl, (due present).2⟩, Adds.same (converses.marks stage due)⟩
  | finds _ stage =>
      have inside : p.answering := by simp [answering, stage]
      exact ⟨fun _ => entered inside, Adds.same (awaits_congr rfl rfl (by rw [inside]; rfl))⟩
  | skips _ _ absent =>
      have notPresent : p.mux.currentCommand.client ≠ some client := by simp [absent]
      have before : p.awaits client = p.mux.loop.awaits client p.mux.currentCommand :=
        awaits_eq_of_not_present fun _ => notPresent
      refine ⟨(fun impossible => by simp [answering, leave] at impossible), Adds.same ?_⟩
      rw [before]
      exact awaits_eq_of_not_present fun _ => notPresent
  | writes _ stage =>
      dsimp only
      split
      · exact ⟨(fun impossible => by simp [answering] at impossible),
          converses.writes stage _ rfl rfl (by simp [answering])⟩
      · exact ⟨(fun impossible => by simp [answering, leave] at impossible),
          converses.writes stage _ rfl rfl (by simp [answering, leave])⟩
  | commits _ stage =>
      have outside : p.answering = false := by simp [answering, stage]
      exact ⟨(fun impossible => by simp [answering, leave] at impossible),
        Adds.same (awaits_congr (by simp [leave]) (by simp [leave]) (by rw [outside]; rfl))⟩
  | crashes _ stage =>
      have outside : p.answering = false := by simp [answering, stage]
      exact ⟨(fun impossible => by simp [answering] at impossible),
        Adds.same (awaits_congr rfl rfl (by rw [outside]; rfl))⟩

/-! ## Steps and runs -/

/-- Commands are queued without a result, and those of the client well-formed. -/
theorem Converses.step_queued
    (converses : Converses client p outputs)
    {action : Action}
    (answers : p.AnswersOnce client action) :
    ∀ cmd ∈ (p.step retries action).1.mux.commands,
      (LoopPhase.finding cmd).Prepared client := by
  intro cmd queued
  rcases mem_step_commands queued with old | ⟨other, command, rfl, rfl⟩ | ⟨payload, rfl⟩
  · exact converses.queued cmd old
  · exact ⟨rfl, fun same => answers (Option.some.inj same)⟩
  · exact ⟨rfl, fun absurd => by cases absurd⟩

/-- The command that is being prepared stays well-formed. -/
theorem Converses.step_prepared
    (converses : Converses client p outputs)
    (action : Action) :
    (p.step retries action).1.mux.loop.Prepared client := by
  by_cases loop : action = .loop
  · subst loop
    by_cases crashed : p.mux.hasCrashed
    · rw [step_of_crashed crashed]
      exact converses.prepared
    rw [step_loop crashed]
    have prepared := converses.prepared
    have statement := @loopStep_statement retries p crashed
    generalize p.loopStep retries = result at statement ⊢
    cases statement with
    | waits | unites | compares | saves | records => exact prepared
    | stores phase =>
        rw [phase] at prepared
        exact prepared
    | sends => trivial
    | whole => exact Mux.loopStep_prepared converses.queued prepared
  · rw [(step_commandThread retries p loop).1]
    exact converses.prepared

/-- The turn stays with the client or goes on by what is written. -/
theorem Converses.step_turns
    (converses : Converses client p outputs)
    {action : Action}
    (answers : p.AnswersOnce client action) :
    Entered client (p.step retries action).1 ∧
      Adds (p.awaits client) (dialogue client (p.step retries action).2)
        ((p.step retries action).1.awaits client) := by
  by_cases crashed : p.mux.hasCrashed
  · rw [step_of_crashed crashed]
    exact ⟨converses.entered, Adds.silent _⟩
  by_cases loop : action = .loop
  · subst loop
    rw [step_loop crashed]
    exact converses.loop crashed answers
  by_cases complete : action = .complete
  · subst complete
    rw [step_complete crashed]
    exact converses.complete answers
  have sameLoop := (step_commandThread retries p loop).1
  have silent : dialogue client (p.step retries action).2 = [] := by
    by_cases receives : ∃ frame, action = .receive frame
    · obtain ⟨frame, rfl⟩ := receives
      exact dialogue_of_passive (step_receive_passive retries p frame)
    · rw [(@step_sameThreads retries p action loop complete
        fun frame receive => receives ⟨frame, receive⟩).2, dialogue_nil]
  have sameAnswering : (p.step retries action).1.answering = p.answering := by
    rw [answering, step_block retries p loop complete]
    rfl
  rw [silent]
  rcases step_currentCommand retries p loop complete with same | ⟨rfl, stage, marked⟩
  · refine ⟨?_, Adds.same (awaits_congr sameLoop same sameAnswering)⟩
    rw [Entered, sameAnswering, same, sameLoop]
    exact converses.entered
  · have keeps : p.mux.loop.transmitting → p.mux.currentCommand.client = some client →
        p.mux.currentCommand.result ≠ .ok :=
      fun transmitting present isOk => answers stage present isOk transmitting
    have notPresent : p.answering → p.mux.currentCommand.client ≠ some client := by
      intro inside present
      obtain ⟨isOk, transmitting⟩ := converses.entered inside present
      exact keeps transmitting present isOk
    refine ⟨?_, Adds.same ?_⟩
    · rw [Entered, sameAnswering, marked]
      exact fun inside present => absurd present (notPresent inside)
    · have before : p.awaits client = p.mux.loop.awaits client p.mux.currentCommand :=
        awaits_eq_of_not_present notPresent
      rw [before, awaits_eq_of_not_present, sameLoop, marked]
      · exact Mux.awaits_result converses.sound.mux.agrees fun transmitting present =>
          iff_of_false (by simp) (keeps transmitting present)
      · rw [sameAnswering, marked]
        exact notPresent

theorem step_converses
    {action : Action}
    (converses : Converses client p outputs)
    (answers : p.AnswersOnce client action) :
    Converses client (p.step retries action).1 (outputs ++ (p.step retries action).2) where
  sound := step_sound action converses.sound
  queued := converses.step_queued answers
  prepared := converses.step_prepared action
  entered := (converses.step_turns answers).1
  turns := by
    rw [dialogue_append]
    exact (converses.step_turns answers).2.extend converses.turns

theorem start_converses (io : BasePicard) (protocolVersion : Byte) :
    Converses client (start io protocolVersion) [] where
  sound := start_sound io protocolVersion
  queued := by simp [start, Mux.start]
  prepared := trivial
  entered := fun impossible => by cases impossible
  turns := ⟨0, rfl⟩

/-! ## Progress -/

/-- A bound on the statements inside a step of `Mux` that are still to be executed. -/
def unfinished (p : Process) : Nat :=
  (match p.recompute with
    | none => 3
    | some (.comparing _) => 2
    | some (.saving _ _) => 1
    | some (.storing _ _) => 0) +
  if p.recorded then 0 else 1

/-- A bound on the statements that the command thread executes before it asks for the next
command, or the process has crashed. -/
def rank (retries : Int) (p : Process) : Nat :=
  if p.mux.hasCrashed ∨ p.mux.loop.rank retries = 0 then 0
  else 5 * p.mux.loop.rank retries + p.unfinished

/-- The step is a statement of `commandLoop` that waits for no lock. -/
def advancesLoop (p : Process) (action : Action) : Bool :=
  action == .loop && !p.waitsForLock

theorem unfinished_le (p : Process) : p.unfinished ≤ 4 := by
  unfold unfinished
  split <;> split <;> omega

theorem rank_lt
    {next : Process}
    (positive : 0 < p.rank retries)
    (nearer : 5 * next.mux.loop.rank retries + next.unfinished <
      5 * p.mux.loop.rank retries + p.unfinished) :
    next.rank retries < p.rank retries := by
  unfold rank at positive ⊢
  split_ifs at positive ⊢ <;> omega

theorem rank_lt_of_loop
    {next : Process}
    (positive : 0 < p.rank retries)
    (nearer : next.mux.loop.rank retries < p.mux.loop.rank retries) :
    next.rank retries < p.rank retries := by
  have atMost := unfinished_le next
  exact rank_lt positive (by omega)

/-- A statement of the command thread that waits for no lock brings it nearer to the next
command. -/
theorem step_rank_lowers
    {action : Action}
    (advances : p.advancesLoop action)
    (positive : 0 < p.rank retries) :
    (p.step retries action).1.rank retries < p.rank retries := by
  have notDone : ¬(p.mux.hasCrashed ∨ p.mux.loop.rank retries = 0) := by
    intro done
    simp [rank, done] at positive
  obtain ⟨running, busy⟩ := not_or.mp notDone
  simp only [advancesLoop, Bool.and_eq_true, beq_iff_eq, Bool.not_eq_true'] at advances
  obtain ⟨rfl, free⟩ := advances
  rw [step_loop running]
  have statement := @loopStep_statement retries p running
  generalize p.loopStep retries = result at statement ⊢
  cases statement with
  | waits locked =>
      rcases locked with ⟨waiting, inside⟩ | ⟨⟨cmd, phase⟩, inside⟩
      · cases phase : p.mux.loop <;> rw [phase] at waiting
        case waiting => simp [waitsForLock, phase, inside] at free
        all_goals cases waiting
      · simp [waitsForLock, phase, inside] at free
  | unites _ called => exact rank_lt positive (by simp [unfinished, called])
  | compares _ stage | saves _ stage => exact rank_lt positive (by simp [unfinished, stage])
  | stores phase =>
      exact rank_lt_of_loop positive (by simp only [phase, LoopPhase.rank]; omega)
  | records _ notRecorded => exact rank_lt positive (by simp [unfinished, notRecorded])
  | sends phase =>
      exact rank_lt_of_loop positive (by simp only [phase, LoopPhase.rank]; omega)
  | whole => exact rank_lt_of_loop positive (Mux.loopStep_rank (Nat.pos_of_ne_zero busy))

theorem step_rank_keeps
    {action : Action}
    (stays : ¬p.advancesLoop action) :
    (p.step retries action).1.rank retries ≤ p.rank retries := by
  by_cases crashed : p.mux.hasCrashed
  · rw [step_of_crashed crashed]
  by_cases loop : action = .loop
  · subst loop
    have locked : p.waitsForLock := by simpa [advancesLoop] using stays
    have waits : p.loopStep retries = (p, []) := by
      unfold waitsForLock at locked
      split at locked <;> rename_i phase
      · simp [loopStep, phase, locked]
      · simp [loopStep, phase, locked]
      · cases locked
    rw [step_loop crashed, waits]
  · obtain ⟨sameLoop, recompute, recorded⟩ := step_commandThread retries p loop
    have same : (p.step retries action).1.unfinished = p.unfinished := by
      rw [unfinished, recompute, recorded]
      rfl
    unfold rank
    rw [sameLoop, same]
    split_ifs <;> simp_all

/-- Where the command thread asks for the next command, no response is awaited. -/
theorem Converses.awaits_of_rank_zero
    (converses : Converses client p outputs)
    (done : p.mux.loop.rank retries = 0) :
    p.awaits client = false := by
  have notPresent : p.answering → p.mux.currentCommand.client ≠ some client := by
    intro inside present
    have transmitting := (converses.entered inside present).2
    cases phase : p.mux.loop <;> rw [phase] at transmitting done
    case sending | recording | waiting =>
        simp only [LoopPhase.rank] at done
        omega
    all_goals cases transmitting
  rw [awaits_eq_of_not_present notPresent]
  exact Mux.awaits_of_rank_zero done _

/-! ## The Picard thread survives -/

theorem step_picard_runs
    {action : Action}
    (answers : p.AnswersOnce client action)
    (runs : p.mux.picard ≠ .crashed) :
    (p.step retries action).1.mux.picard ≠ .crashed := by
  by_cases crashed : p.mux.hasCrashed
  · rw [step_of_crashed crashed]
    exact runs
  cases action with
  | loop =>
      rw [step_loop crashed]
      have statement := @loopStep_statement retries p crashed
      generalize p.loopStep retries = result at statement ⊢
      cases statement with
      | whole => exact (Mux.loopStep_picard p.mux).1 ▸ runs
      | _ => exact runs
  | complete =>
      rw [step_complete crashed]
      have enters : p.EntersOnce client := answers
      have statement := completeStep_statement p
      generalize p.completeStep = result at statement ⊢
      cases statement with
      | rests | expects | marks | finds => exact runs
      | refuses | rejects | accepts | restores => simp
      | skips | commits => simp [leave]
      | writes =>
          dsimp only
          split
          · exact runs
          · simp [leave]
      | crashes _ stage absent => simp [EntersOnce, stage, absent] at enters
  | receive frame =>
      rw [step_receive crashed]
      rcases @receive_cases retries p frame with waits | handled
      · rw [waits]
        exact runs
      · rw [handled, outerStep, Mux.step, if_neg crashed]
        exact Mux.receive_picard answers runs
  | _ =>
      rw [(@step_sameThreads retries p _ (by simp) (by simp) (by simp)).1.picard]
      exact runs

/-! ## Every command gets exactly one response -/

theorem run_converses
    {actions : List Action}
    (converses : Converses client p outputs)
    (answers : Machine.Meets (step retries) (AnswersOnce client) p actions) :
    Converses client (Machine.run (step retries) p actions).1
      (outputs ++ (Machine.run (step retries) p actions).2) :=
  Machine.invariant_run (Converses client) (fun _ _ _ => step_converses) converses answers

theorem run_picard
    {actions : List Action}
    (runs : p.mux.picard ≠ .crashed)
    (answers : Machine.Meets (step retries) (AnswersOnce client) p actions) :
    (Machine.run (step retries) p actions).1.mux.picard ≠ .crashed :=
  Machine.state_invariant_run (fun p => p.mux.picard ≠ .crashed)
    (fun _ _ runs answers => step_picard_runs answers runs) runs answers

theorem loop_rank_zero
    (runs : p.mux.picard ≠ .crashed)
    (done : p.rank retries = 0) :
    p.mux.loop.rank retries = 0 := by
  by_cases crashed : p.mux.loop = .crashed
  · rw [crashed]
    rfl
  · have running : ¬p.mux.hasCrashed := Mux.not_hasCrashed_iff.mpr ⟨crashed, runs⟩
    rw [rank] at done
    split_ifs at done with isDone
    · exact isDone.resolve_left running
    · omega

/-- As long as every step meets `AnswersOnce`, the commands of a client and the
responses to it alternate, a response is pending exactly in the states that
await one, and in any continuation with as many statements of the command thread
that wait for no lock as the rank of the state it comes. -/
theorem one_response_per_command
    (retries : Int)
    (io : BasePicard)
    (protocolVersion : Byte)
    (client : ClientId)
    (actions : List Action)
    (answers : Machine.Meets (step retries) (AnswersOnce client)
      (start io protocolVersion) actions) :
    let reached := Machine.run (step retries) (start io protocolVersion) actions
    (∃ count, dialogue client reached.2 = exchanges count (reached.1.awaits client)) ∧
    ∀ more, Machine.Meets (step retries) (AnswersOnce client) reached.1 more →
      reached.1.rank retries ≤
        Machine.occurrences (step retries) advancesLoop reached.1 more →
      ∃ earlier later count, more = earlier ++ later ∧
        dialogue client
          (reached.2 ++ (Machine.run (step retries) reached.1 earlier).2) =
            exchanges count false := by
  intro reached
  have converses : Converses client reached.1 reached.2 := by
    simpa using run_converses (start_converses io protocolVersion) answers
  have runs : reached.1.mux.picard ≠ .crashed :=
    run_picard (by simp [start, Mux.start]) answers
  refine ⟨converses.turns, fun more moreAnswers enough => ?_⟩
  obtain ⟨earlier, later, split, done⟩ :=
    Machine.exists_rank_zero (step retries) (rank retries) advancesLoop
      (fun _ _ => step_rank_lowers) (fun _ _ => step_rank_keeps) enough
  rw [split, Machine.meets_append] at moreAnswers
  have afterwards := run_converses converses moreAnswers.1
  obtain ⟨count, turns⟩ := afterwards.turns
  refine ⟨earlier, later, count, split, ?_⟩
  rw [turns, afterwards.awaits_of_rank_zero (loop_rank_zero (run_picard runs moreAnswers.1) done)]

/-- A client that sends one command, which Picard answers. -/
def answeredCommand : List Action :=
  [.addClient 1, .addCommand 1 (MuxMessage.ofPayload 42 [7])] ++
    List.replicate 8 .loop ++ [.receive [3, 42, 0, 1, 0]] ++ List.replicate 5 .complete

/-- A command is answered, another client leaves, and the next command is given up before its
answer is delivered. -/
def answeredAndUnanswered : List Action :=
  List.flatten [[.addClient 2], answeredCommand, List.replicate 3 .loop, [.removeClient 2],
    List.replicate 5 .eraseClient, [.addCommand 1 (MuxMessage.ofPayload 43 [])],
    List.replicate 8 .loop, [.receive [3, 43, 1, 1, 0]], List.replicate 3 .loop,
    [.complete, .complete]]

theorem one_response_per_command_example :
    ∃ count, dialogue 1 (Machine.run (step 1) (start {} 4) answeredAndUnanswered).2 =
      exchanges count
        ((Machine.run (step 1) (start {} 4) answeredAndUnanswered).1.awaits 1) :=
  (one_response_per_command 1 {} 4 1 answeredAndUnanswered (by decide +kernel)).1

/-- Picard answers one transmission twice before the command thread wakes: the
client stays registered and gets two responses to its command. -/
theorem two_responses_to_one_command :
    dialogue 1 (Machine.run (step 3) (start {} 4)
      (answeredCommand ++ [.receive [3, 42, 0, 1, 0]] ++ List.replicate 5 .complete)).2 =
        [.asked, .answered, .answered] ∧
    1 ∈ (Machine.run (step 3) (start {} 4)
      (answeredCommand ++ [.receive [3, 42, 0, 1, 0]] ++
        List.replicate 5 .complete)).1.mux.clients := by
  decide +kernel

/-- A second answer to client 1 is in the block when the command of client 2 is installed. -/
def answeredAcross : List Action :=
  List.flatten [answeredCommand,
    [.addClient 2, .addCommand 2 (MuxMessage.ofPayload 43 []), .receive [3, 42, 0, 1, 0],
      .complete, .complete, .loop, .complete, .complete],
    List.replicate 6 .loop, [.complete], List.replicate 3 .loop,
    [.receive [3, 43, 1, 1, 0]], List.replicate 5 .complete]

example :
    dialogue 2 (Machine.run (step 3) (start {} 4) answeredAcross).2 =
        [.asked, .answered, .answered] ∧
      ¬Machine.Meets (step 3) (AnswersOnce 2) (start {} 4) answeredAcross := by
  decide +kernel

end Process

end SerialMux
