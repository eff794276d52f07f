import SerialMux.Process
import SerialMux.FailedSubscribe

/-!
# Filters take effect after the reply

A client gets a notification only when it has been told that a SUBSCRIBE for it is
processed: `commandComplete` writes the reply before it commits the filter.  The
reply and the commit go to the same command as long as no client's command is
installed between the two.
-/

namespace SerialMux

/-! ## What was written to a client -/

/-- The command that the command thread went on with last, and the outputs since. -/
def InProgress (outputs : List Output) (cmd : ClientCommand) (since : List Output) : Prop :=
  (∃ before, outputs = before ++ .accepted cmd :: since) ∧
    ∀ other, Output.accepted other ∉ since

/-- `commandComplete` has written a reply to a SUBSCRIBE. -/
def RepliedTo (client : ClientId) (since : List Output) : Prop :=
  ∃ respCode payload,
    .response client .commandComplete (MuxOutput.make Command.subscribe 0 respCode payload) ∈
      since

/-- A SUBSCRIBE of the client for a notification type was in progress, and the reply
to it was written. -/
def Granted (outputs : List Output) (client : ClientId) (notifType : Nat) : Prop :=
  ∃ earlier cmd since params, earlier <+: outputs ∧ InProgress earlier cmd since ∧
    cmd.Subscribes client ∧ vectorToFilter cmd.command.data = some params ∧
    params.filter.getLsbD notifType ∧ RepliedTo client since

/-- Every notification is preceded by the reply to a SUBSCRIBE for it. -/
def AfterReply (outputs : List Output) : Prop :=
  ∀ earlier client notifType payload later,
    outputs = earlier ++
      .notified client (MuxOutput.make Command.notification 0 notifType payload) :: later →
    notifType.toNat < 32 → Granted earlier client notifType.toNat

/-- Some SUBSCRIBE of the client is in progress.  What is pending was requested by it
or granted before, and the reply is written if that is asked for. -/
def Requested (outputs : List Output) (client : ClientId) (newParams : SubscriptionParams)
    (replied : Prop) : Prop :=
  ∃ sent since params, InProgress outputs sent since ∧ sent.Subscribes client ∧
    vectorToFilter sent.command.data = some params ∧
    (∀ notifType, newParams.filter.getLsbD notifType →
      params.filter.getLsbD notifType ∨ Granted outputs client notifType) ∧
    (replied → RepliedTo client since)

section Outputs

variable {outputs more since : List Output} {cmd : ClientCommand} {client : ClientId}

theorem inProgress_accepted (outputs : List Output) (cmd : ClientCommand) :
    InProgress (outputs ++ [.accepted cmd]) cmd [] :=
  ⟨⟨outputs, rfl⟩, by simp⟩

theorem InProgress.append
    (inProgress : InProgress outputs cmd since)
    (noCommand : ∀ other, Output.accepted other ∉ more) :
    InProgress (outputs ++ more) cmd (since ++ more) := by
  obtain ⟨⟨before, shape⟩, unique⟩ := inProgress
  refine ⟨⟨before, ?_⟩, ?_⟩
  · rw [shape, List.append_assoc, List.cons_append]
  · intro other accepted
    rcases List.mem_append.mp accepted with old | new
    · exact unique other old
    · exact noCommand other new

theorem Granted.append
    {notifType : Nat}
    (granted : Granted outputs client notifType)
    (more : List Output) :
    Granted (outputs ++ more) client notifType := by
  obtain ⟨earlier, cmd, since, params, isPrefix, rest⟩ := granted
  exact ⟨earlier, cmd, since, params, isPrefix.trans (List.prefix_append ..), rest⟩

theorem Requested.append
    {newParams : SubscriptionParams}
    {replied repliedNow : Prop}
    (requested : Requested outputs client newParams replied)
    (noCommand : ∀ other, Output.accepted other ∉ more)
    (replies : repliedNow → replied ∨ RepliedTo client more) :
    Requested (outputs ++ more) client newParams repliedNow := by
  obtain ⟨sent, since, params, inProgress, subscribes, read, pending, reply⟩ := requested
  refine ⟨sent, since ++ more, params, inProgress.append noCommand, subscribes, read, ?_, ?_⟩
  · intro notifType isPending
    exact (pending notifType isPending).imp id fun granted => granted.append more
  · intro now
    rcases replies now with before | ⟨respCode, payload, written⟩
    · obtain ⟨respCode, payload, written⟩ := reply before
      exact ⟨respCode, payload, List.mem_append_left _ written⟩
    · exact ⟨respCode, payload, List.mem_append_right _ written⟩

/-- What was requested is granted with the reply. -/
theorem Requested.granted
    {newParams : SubscriptionParams}
    {replied : Prop}
    {notifType : Nat}
    (requested : Requested outputs client newParams replied)
    (reply : replied)
    (isPending : newParams.filter.getLsbD notifType) :
    Granted outputs client notifType := by
  obtain ⟨sent, since, params, inProgress, subscribes, read, pending, written⟩ := requested
  rcases pending notifType isPending with bit | granted
  · exact ⟨outputs, sent, since, params, List.prefix_rfl, inProgress, subscribes, read, bit,
      written reply⟩
  · exact granted

theorem Granted.exists_reply
    {notifType : Nat}
    (granted : Granted outputs client notifType) :
    RepliedTo client outputs := by
  obtain ⟨earlier, cmd, since, params, isPrefix, ⟨⟨before, rfl⟩, -⟩, -, -, -, reply⟩ := granted
  obtain ⟨respCode, payload, written⟩ := reply
  refine ⟨respCode, payload, isPrefix.subset ?_⟩
  exact List.mem_append_right _ (List.mem_cons_of_mem _ written)

/-- Notifications that were granted may follow. -/
theorem AfterReply.append
    (ordered : AfterReply outputs)
    (allowed : ∀ client notifType payload,
      .notified client (MuxOutput.make Command.notification 0 notifType payload) ∈ more →
      notifType.toNat < 32 → Granted outputs client notifType.toNat) :
    AfterReply (outputs ++ more) := by
  intro earlier client notifType payload later shape inRange
  rcases List.append_eq_append_iff.mp shape with
    ⟨passed, rfl, rest⟩ | ⟨left, rfl, rest⟩
  · have isNew : Output.notified client
        (MuxOutput.make Command.notification 0 notifType payload) ∈ more := by
      rw [rest]
      exact List.mem_append_right _ List.mem_cons_self
    exact (allowed client notifType payload isNew inRange).append passed
  · cases left with
    | nil =>
        have isNew : Output.notified client
            (MuxOutput.make Command.notification 0 notifType payload) ∈ more := by
          rw [List.nil_append] at rest
          rw [← rest]
          exact List.mem_cons_self
        rw [List.append_nil] at allowed
        exact allowed client notifType payload isNew inRange
    | cons first left =>
        obtain ⟨rfl, -⟩ := List.cons_eq_cons.mp rest
        exact ordered earlier client notifType payload left rfl inRange

end Outputs

/-! ## The condition and the invariant -/

/-- The command that is installed next. -/
def LoopPhase.installs : LoopPhase → Option ClientCommand
  | .installing cmd => some cmd
  | _ => none

/-- The command whose filter, if it is a client's SUBSCRIBE, is pending. -/
def LoopPhase.requesting : LoopPhase → Option ClientCommand
  | .recomputing cmd | .rewriting cmd | .installing cmd | .sending cmd _
  | .recording cmd _ _ | .waiting cmd _ | .concluding cmd _ | .restoring cmd
  | .resetting cmd | .timingOut cmd | .disconnecting cmd | .clearing cmd => some cmd
  | _ => none

/-- The response that has been validated and is not delivered yet. -/
def PicardPhase.completing : PicardPhase → Option Response
  | .rejecting response | .delivering response => some response
  | .reading | .validating _ | .stopped | .crashed => none

namespace Process

/-- While the answer to a SUBSCRIBE is delivered, no client's command is installed
that is not a SUBSCRIBE, and none at all between the reply and the commit. -/
def CommitsItsReply (p : Process) (action : Action) : Prop :=
  action = .loop → ∀ cmd ∈ p.mux.loop.installs, ∀ response ∈ p.mux.picard.completing,
    cmd.client.isSome → response.cmdType = Command.subscribe →
      cmd.command.type = Command.subscribe ∧ p.block ≠ some .committing

instance (p : Process) (action : Action) : Decidable (p.CommitsItsReply action) :=
  inferInstanceAs (Decidable (_ → _))

/-- The filters of all clients are covered by replies. -/
structure Covered (p : Process) (outputs : List Output) : Prop where
  sound : p.Sound
  granted : ∀ client notifType,
    (p.mux.objects client).subscriber.params.filter.getLsbD notifType →
    Granted outputs client notifType
  announced : ∀ cmd, p.mux.loop = .subscribing cmd → ∃ since, InProgress outputs cmd since
  requested : ∀ cmd client, p.mux.loop.requesting = some cmd → cmd.Subscribes client →
    Requested outputs client (p.mux.objects client).subscriber.newParams
      (p.block = some .committing ∧ p.mux.currentCommand.client = some client)
  matched : ∀ response client, p.mux.picard.completing = some response →
    response.cmdType = Command.subscribe → p.mux.currentCommand.client = some client →
    p.mux.currentCommand.command.type = Command.subscribe
  ordered : AfterReply outputs

theorem start_covered (io : BasePicard) (protocolVersion : Byte) :
    Covered (start io protocolVersion) [] where
  sound := start_sound io protocolVersion
  granted := by simp [start, Mux.start]
  announced := fun _ impossible => by cases impossible
  requested := fun _ _ impossible => by cases impossible
  matched := fun _ _ impossible => by cases impossible
  ordered := fun earlier _ _ _ _ impossible => by cases earlier <;> cases impossible

variable {retries : Int} {p next : Process} {outputs more : List Output}

/-- The command in progress stays the same, and no filter changes. -/
theorem Covered.within
    (covered : Covered p outputs)
    (sound : next.Sound)
    (subscribing : ∀ cmd, next.mux.loop = .subscribing cmd → p.mux.loop = .subscribing cmd)
    (requesting : next.mux.loop.requesting = p.mux.loop.requesting)
    (client : next.mux.currentCommand.client = p.mux.currentCommand.client)
    (command : next.mux.currentCommand.command = p.mux.currentCommand.command)
    (subscriber : ∀ client,
      (next.mux.objects client).subscriber = (p.mux.objects client).subscriber)
    (completing : ∀ response, next.mux.picard.completing = some response →
      p.mux.picard.completing = some response ∨
        p.mux.currentCommand.command.type = response.cmdType)
    (replies : ∀ client, next.block = some .committing →
      p.mux.currentCommand.client = some client →
      p.block = some .committing ∨ RepliedTo client more)
    (noCommand : ∀ cmd, Output.accepted cmd ∉ more)
    (allowed : ∀ client notifType payload,
      .notified client (MuxOutput.make Command.notification 0 notifType payload) ∈ more →
      (p.mux.objects client).subscriber.params.filter.getLsbD notifType.toNat) :
    Covered next (outputs ++ more) := by
  refine ⟨sound, ?_, ?_, ?_, ?_, ?_⟩
  · intro client notifType bit
    rw [subscriber] at bit
    exact (covered.granted client notifType bit).append more
  · intro cmd isSubscribing
    obtain ⟨since, inProgress⟩ := covered.announced cmd (subscribing cmd isSubscribing)
    exact ⟨since ++ more, inProgress.append noCommand⟩
  · intro cmd addressee isRequesting subscribes
    rw [requesting] at isRequesting
    rw [subscriber, client]
    refine (covered.requested cmd addressee isRequesting subscribes).append noCommand ?_
    rintro ⟨committing, isClient⟩
    exact (replies addressee committing isClient).imp (fun before => ⟨before, isClient⟩) id
  · intro response addressee completes subscribe isClient
    rw [client] at isClient
    rw [command]
    rcases completing response completes with before | same
    · exact covered.matched response addressee before subscribe isClient
    · exact same.trans subscribe
  · apply covered.ordered.append
    intro addressee notifType payload notified _
    exact covered.granted addressee notifType.toNat (allowed addressee notifType payload notified)

/-- A statement that writes nothing and leaves the block and the filters alone. -/
theorem Covered.quietly
    (covered : Covered p outputs)
    (sound : next.Sound)
    (subscribing : ∀ cmd, next.mux.loop = .subscribing cmd → p.mux.loop = .subscribing cmd)
    (requesting : next.mux.loop.requesting = p.mux.loop.requesting)
    (client : next.mux.currentCommand.client = p.mux.currentCommand.client)
    (command : next.mux.currentCommand.command = p.mux.currentCommand.command)
    (subscriber : ∀ client,
      (next.mux.objects client).subscriber = (p.mux.objects client).subscriber)
    (completing : ∀ response, next.mux.picard.completing = some response →
      p.mux.picard.completing = some response ∨
        p.mux.currentCommand.command.type = response.cmdType)
    (block : next.block = some .committing → p.block = some .committing) :
    Covered next (outputs ++ []) :=
  covered.within sound subscribing requesting client command subscriber completing
    (fun _ committing _ => Or.inl (block committing)) (by simp) (by simp)

/-! ## The block -/

/-- A client of `m_currentCommand` is the one of the command in progress. -/
theorem Covered.requesting_of_client
    (covered : Covered p outputs)
    (running : ¬p.mux.hasCrashed)
    {client : ClientId}
    (isClient : p.mux.currentCommand.client = some client) :
    ∃ cmd, p.mux.loop.requesting = some cmd ∧ cmd.client = some client ∧
      cmd.command = p.mux.currentCommand.command := by
  have agrees := covered.sound.mux.agrees
  cases phase : p.mux.loop <;> rw [phase] at agrees
  case crashed => exact absurd (by simp [Mux.hasCrashed, phase]) running
  case sending cmd i | waiting cmd i | concluding cmd i =>
      exact ⟨cmd, rfl, agrees.1.symm.trans isClient, agrees.2.symm⟩
  case recording cmd i frame =>
      exact ⟨cmd, rfl, agrees.1.symm.trans isClient, agrees.2.symm⟩
  case restoring cmd | resetting cmd | timingOut cmd | disconnecting cmd | clearing cmd =>
      exact ⟨cmd, rfl, agrees.1.symm.trans isClient, agrees.2.symm⟩
  all_goals
    rw [agrees.1] at isClient
    cases isClient

/-- The commit finds the reply written. -/
theorem Covered.granted_of_committing
    (covered : Covered p outputs)
    (running : ¬p.mux.hasCrashed)
    (committing : p.block = some .committing)
    {client : ClientId}
    (isClient : p.mux.currentCommand.client = some client)
    {notifType : Nat}
    (isPending : (p.mux.objects client).subscriber.newParams.filter.getLsbD notifType) :
    Granted outputs client notifType := by
  obtain ⟨response, delivering, isSubscribe⟩ := covered.sound.inBlock .committing committing
  obtain ⟨cmd, requesting, ofClient, sameCommand⟩ :=
    covered.requesting_of_client running isClient
  have subscribe := covered.matched response client (by rw [delivering]; rfl)
    (isSubscribe rfl) isClient
  have requested := covered.requested cmd client requesting
    ⟨ofClient, by rw [sameCommand]; exact subscribe⟩
  exact requested.granted ⟨committing, isClient⟩ isPending

/-- The commit. -/
theorem Covered.commit
    (covered : Covered p outputs)
    (running : ¬p.mux.hasCrashed)
    (committing : p.block = some .committing)
    {client : ClientId}
    (isClient : p.mux.currentCommand.client = some client) :
    Covered
      (leave { p with mux := p.mux.updateSubscriber (some client) Subscriber.commitFilter })
      outputs where
  sound := by
    obtain ⟨response, delivering, -⟩ := covered.sound.inBlock .committing committing
    exact covered.sound.leave _ _ delivering
  granted other notifType bit := by
    simp only [leave, Mux.updateSubscriber_subscriber] at bit
    split_ifs at bit with same
    · rw [same]
      exact covered.granted_of_committing running committing isClient bit
    · exact covered.granted other notifType bit
  announced cmd subscribing := covered.announced cmd (by simpa [leave] using subscribing)
  requested cmd other requesting subscribes := by
    have before := covered.requested cmd other (by simpa [leave] using requesting) subscribes
    have sameParams :
        (((leave { p with
          mux := p.mux.updateSubscriber (some client) Subscriber.commitFilter }).mux.objects
            other).subscriber).newParams = (p.mux.objects other).subscriber.newParams := by
      simp only [leave, Mux.updateSubscriber_subscriber]
      split_ifs with same
      · rw [same]
        rfl
      · rfl
    rw [sameParams, ← List.append_nil outputs]
    exact before.append (by simp) (fun later => by cases later.1)
  matched _ _ impossible := by cases impossible
  ordered := covered.ordered

/-- The block is left. -/
theorem Covered.leave
    (covered : Covered p outputs)
    {response : Response}
    (delivering : p.mux.picard = .delivering response)
    (noCommand : ∀ cmd, Output.accepted cmd ∉ more)
    (noNotification : ∀ client notif, Output.notified client notif ∉ more) :
    Covered p.leave (outputs ++ more) :=
  covered.within (covered.sound.leave none id delivering)
    (fun _ => id) rfl rfl rfl (fun _ => rfl) (fun _ impossible => by cases impossible)
    (fun _ impossible => by cases impossible) noCommand
    (fun client _ _ notified => absurd notified (noNotification client _))

/-- The reply is written. -/
theorem Covered.write
    (covered : Covered p outputs)
    {response : Response}
    (delivering : p.mux.picard = .delivering response)
    (subscribe : response.cmdType = Command.subscribe) :
    Covered { p with block := some .committing }
      (outputs ++ Mux.sendResponse p.mux.currentCommand.client .commandComplete
        (MuxOutput.make response.cmdType 0 response.respCode response.payload)) := by
  obtain ⟨noCommand, noNotification⟩ := Mux.sendResponse_only_responds
    p.mux.currentCommand.client .commandComplete
    (MuxOutput.make response.cmdType 0 response.respCode response.payload)
  refine covered.within { covered.sound with inBlock := ?_ } (fun _ => id) rfl rfl rfl
    (fun _ => rfl) (fun _ => Or.inl) ?_ noCommand
    (fun client _ _ notified => absurd notified (noNotification client _))
  · rintro _ ⟨⟩
    exact ⟨response, delivering, fun _ => subscribe⟩
  · intro client _ isClient
    refine Or.inr ⟨response.respCode, response.payload, ?_⟩
    rw [isClient, subscribe]
    exact List.mem_singleton_self _

end Process

/-! ## Frames -/

namespace Mux

variable {retries : Int} {m : Mux}

/-- A notification goes to clients with its bit in their filter. -/
theorem notifyEach_notified
    {objects : ClientId → Client}
    {notifType : Byte}
    {payload : ByteVector}
    {clients : List ClientId}
    {outputs : List Output}
    (notified : notifyEach objects notifType payload clients = some outputs) :
    ∀ output ∈ outputs, ∃ client,
      output = .notified client (MuxOutput.make Command.notification 0 notifType payload) ∧
        (objects client).subscriber.params.filter.getLsbD notifType.toNat := by
  induction clients generalizing outputs with
  | nil =>
      rw [notifyEach, Option.some.injEq] at notified
      simp [← notified]
  | cons client rest inductionHypothesis =>
      simp only [notifyEach, Option.bind_eq_bind, Option.bind_eq_some_iff] at notified
      obtain ⟨subscribed, passes, others, notifiedRest, result⟩ := notified
      have later := inductionHypothesis notifiedRest
      split at result
      · rename_i isSubscribed
        rw [Option.some.injEq] at result
        subst result isSubscribed
        rw [List.forall_mem_cons]
        exact ⟨⟨client, rfl, getLsbD_of_subscribeFilterMatch passes⟩, later⟩
      · rw [Option.some.injEq] at result
        subst result
        exact later

/-- Only clients with the bit of a notification get it. -/
def NotifiesSubscribed (m : Mux) (outputs : List Output) : Prop :=
  ∀ client notifType payload,
    .notified client (MuxOutput.make Command.notification 0 notifType payload) ∈ outputs →
    (m.objects client).subscriber.params.filter.getLsbD notifType.toNat

theorem handleEvent_notifies (m : Mux) (event : PicardEvent) :
    m.NotifiesSubscribed (m.handleEvent event).2 := by
  intro client notifType payload notified
  cases event with
  | handleNotif carried content =>
      simp only [handleEvent, handleNotif] at notified
      split at notified
      · rename_i outputs passed
        obtain ⟨other, same, bit⟩ := notifyEach_notified passed _ notified
        simp only [MuxOutput.make, Output.notified.injEq, MuxOutput.mk.injEq,
          List.cons.injEq] at same
        obtain ⟨rfl, -, -, -, rfl, -⟩ := same
        exact bit
      · cases notified
  | resetConnection =>
      simp only [handleEvent] at notified
      split at notified <;> simp at notified
  | sendRaw data => simp [handleEvent] at notified
  | commandComplete response => simp [handleEvent] at notified
  | notifyConnect => simp [handleEvent] at notified

theorem handleEvents_notifies (m : Mux) (events : List PicardEvent) :
    m.NotifiesSubscribed (m.handleEvents events).2 := by
  induction events generalizing m with
  | nil => simp [NotifiesSubscribed, handleEvents]
  | cons event rest inductionHypothesis =>
      intro client notifType payload notified
      simp only [handleEvents, List.mem_append] at notified
      rcases notified with now | later
      · exact handleEvent_notifies m event client notifType payload now
      · have bit := inductionHypothesis (m.handleEvent event).1 client notifType payload later
        rw [(handleEvent_same m event).subscriber client] at bit
        exact bit

theorem receive_notifies (m : Mux) (frame : ByteVector) :
    m.NotifiesSubscribed (m.receive frame).2 := by
  unfold receive
  split
  · exact handleEvents_notifies { m with io := (m.io.frameComplete frame).1 } _
  · simp [NotifiesSubscribed]

/-! ## The command thread -/

theorem dispatch_requesting
    {cmd other : ClientCommand}
    (requesting : (m.dispatch cmd).requesting = some other) :
    other = cmd ∧ ¬(cmd.command.type = Command.subscribe ∧ cmd.client.isSome) := by
  refine dispatch_cases
    (fun next => next.requesting = some other →
      other = cmd ∧ ¬(cmd.command.type = Command.subscribe ∧ cmd.client.isSome))
    ?_ ?_ ?_ ?_ requesting
  · exact fun _ impossible => by cases impossible
  · exact fun _ _ _ impossible => by cases impossible
  · exact fun _ _ _ impossible => by cases impossible
  · exact fun _ plain same => ⟨(Option.some.inj same).symm, plain⟩

theorem dispatch_subscribing
    {cmd other : ClientCommand}
    (subscribing : m.dispatch cmd = .subscribing other) :
    other = cmd := by
  refine dispatch_cases (fun next => next = .subscribing other → other = cmd)
    ?_ ?_ ?_ ?_ subscribing
  · exact fun _ impossible => by cases impossible
  · exact fun _ _ _ impossible => by cases impossible
  · exact fun _ _ _ same => (LoopPhase.subscribing.inj same).symm
  · exact fun _ _ impossible => by cases impossible

theorem attempt_requesting (cmd : ClientCommand) (i : Nat) (result : ClientResult) :
    (attempt retries cmd i result).1.requesting = some cmd :=
  attempt_cases (fun next => next.1.requesting = some cmd) (fun _ _ => rfl) (fun _ => rfl)

theorem attempt_silent (cmd : ClientCommand) (i : Nat) (result : ClientResult) :
    (∀ other, Output.accepted other ∉ (attempt retries cmd i result).2) ∧
      ∀ client notif, Output.notified client notif ∉ (attempt retries cmd i result).2 :=
  attempt_cases
    (fun next => (∀ other, Output.accepted other ∉ next.2) ∧
      ∀ client notif, Output.notified client notif ∉ next.2)
    (fun _ _ => by simp) (fun _ => by simp)

theorem attempt_not_subscribing
    (cmd other : ClientCommand)
    (i : Nat)
    (result : ClientResult) :
    (attempt retries cmd i result).1 ≠ .subscribing other :=
  attempt_cases (fun next => next.1 ≠ .subscribing other) (fun _ _ => by simp) (fun _ => by simp)

/-- The command thread announces the command that it goes on with, and notifies
nobody. -/
theorem loopStep_outputs (m : Mux) :
    (∀ cmd, .accepted cmd ∈ (m.loopStep retries).2 → m.loop = .finding cmd) ∧
      ∀ client notif, .notified client notif ∉ (m.loopStep retries).2 := by
  cases phase : m.loop <;> simp only [loopStep, phase]
  case installing cmd =>
      have silent := @attempt_silent retries cmd 0 .timeout
      exact ⟨fun other accepted => absurd accepted (silent.1 other), silent.2⟩
  case waiting cmd i =>
      have silent := @attempt_silent retries cmd (i + 1) m.currentCommand.result
      exact ⟨fun other accepted => absurd accepted (silent.1 other), silent.2⟩
  case finding cmd => split <;> simp
  case replying cmd sender resp =>
      have responds := sendResponse_only_responds cmd.client sender resp
      exact ⟨fun other accepted => absurd accepted (responds.1 other), responds.2⟩
  case timingOut cmd =>
      have responds := sendResponse_only_responds cmd.client .commandTimeout
        (MuxOutput.make cmd.command.type 0 ErrorCode.commandTimeout [])
      exact ⟨fun other accepted => absurd accepted (responds.1 other), responds.2⟩
  case popping | subscribing | rewriting | disconnecting => split <;> simp
  case concluding => split_ifs <;> simp
  all_goals simp

/-- A client's SUBSCRIBE is processed next after it was announced. -/
theorem loopStep_subscribing
    {cmd : ClientCommand}
    (subscribing : (m.loopStep retries).1.loop = .subscribing cmd) :
    (m.loopStep retries).2 = [.accepted cmd] := by
  cases phase : m.loop <;> simp only [loopStep, phase] at subscribing ⊢
  case finding other =>
      split at subscribing
      · rename_i expected
        rw [if_pos expected, dispatch_subscribing subscribing]
      · cases subscribing
  case installing other => exact absurd subscribing (attempt_not_subscribing _ _ _ _)
  case waiting other i => exact absurd subscribing (attempt_not_subscribing _ _ _ _)
  case popping | subscribing | rewriting | disconnecting =>
    split at subscribing <;> cases subscribing
  case concluding => split_ifs at subscribing
  case checking => split at subscribing <;> cases subscribing
  all_goals cases subscribing

/-- How a command comes to have its filter pending: it had before, it is a client's
SUBSCRIBE whose filter is set now, or it is not a client's SUBSCRIBE. -/
theorem loopStep_requesting
    {cmd : ClientCommand}
    (requesting : (m.loopStep retries).1.loop.requesting = some cmd) :
    (∃ before, m.loop.requesting = some before ∧ cmd.client = before.client ∧
      cmd.command.type = before.command.type ∧
      ∀ other, ((m.loopStep retries).1.objects other).subscriber.newParams =
          (m.objects other).subscriber.newParams ∨
        ((m.loopStep retries).1.objects other).subscriber.newParams =
          (m.objects other).subscriber.params) ∨
    (m.loop = .subscribing cmd ∧ ∃ params, vectorToFilter cmd.command.data = some params ∧
      (m.loopStep retries).1.objects =
        (m.updateSubscriber cmd.client (Subscriber.setSubscription params)).objects) ∨
    m.loop = .finding cmd ∧ ¬(cmd.command.type = Command.subscribe ∧ cmd.client.isSome) := by
  cases phase : m.loop <;> simp only [loopStep, phase] at requesting ⊢
  case finding other =>
      split at requesting
      · rename_i expected
        obtain ⟨rfl, plain⟩ := dispatch_requesting requesting
        exact Or.inr (Or.inr ⟨rfl, plain⟩)
      · cases requesting
  case subscribing other =>
      split at requesting
      · rename_i params read
        cases requesting
        refine Or.inr (Or.inl ⟨rfl, params, read, ?_⟩)
        rfl
      · cases requesting
  case recomputing other =>
      cases requesting
      exact Or.inl ⟨cmd, rfl, rfl, rfl, fun _ => Or.inl rfl⟩
  case rewriting other =>
      split at requesting
      · cases requesting
        exact Or.inl ⟨other, rfl, rfl, rfl, fun _ => Or.inl rfl⟩
      · cases requesting
  case installing other =>
      rw [attempt_requesting] at requesting
      cases requesting
      exact Or.inl ⟨cmd, rfl, rfl, rfl, fun _ => Or.inl trivial⟩
  case waiting other i =>
      rw [attempt_requesting] at requesting
      cases requesting
      exact Or.inl ⟨cmd, rfl, rfl, rfl, fun _ => Or.inl trivial⟩
  case concluding other result =>
      refine Or.inl ⟨other, rfl, ?_⟩
      split_ifs at requesting ⊢ <;> cases requesting <;> exact ⟨rfl, rfl, fun _ => Or.inl rfl⟩
  case resetting other =>
      cases requesting
      refine Or.inl ⟨cmd, rfl, rfl, rfl, fun client => ?_⟩
      cases target : cmd.client with
      | none => exact Or.inl rfl
      | some target =>
          rw [updateSubscriber_subscriber]
          split_ifs with same
          · rw [same]
            exact Or.inr rfl
          · exact Or.inl rfl
  case disconnecting other =>
      have same := (resetConnection_same m).subscriber
      split at requesting
      · rename_i closed reset
        cases requesting
        refine Or.inl ⟨cmd, rfl, rfl, rfl, fun client => Or.inl ?_⟩
        rw [reset] at same
        exact congrArg Subscriber.newParams (same client)
      · cases requesting
  case popping => split at requesting <;> cases requesting
  case checking => split at requesting <;> cases requesting
  case sending | recording | restoring | timingOut =>
      cases requesting
      exact Or.inl ⟨cmd, rfl, rfl, rfl, fun _ => Or.inl trivial⟩
  all_goals cases requesting

end Mux

namespace Process

variable {retries : Int} {p : Process} {outputs : List Output}

/-- What is pending after a statement of the command thread. -/
theorem Covered.loop_requested
    (covered : Covered p outputs)
    (commits : p.CommitsItsReply .loop)
    {cmd : ClientCommand}
    {client : ClientId}
    (requesting : (p.mux.loopStep retries).1.loop.requesting = some cmd)
    (subscribes : cmd.Subscribes client) :
    Requested (outputs ++ (p.mux.loopStep retries).2) client
      ((p.mux.loopStep retries).1.objects client).subscriber.newParams
      (p.block = some .committing ∧
        (p.mux.loopStep retries).1.currentCommand.client = some client) := by
  rcases Mux.loopStep_requesting requesting with
    ⟨before, wasRequesting, sameClient, sameType, newParams⟩ |
    ⟨subscribing, params, read, objects⟩ | ⟨-, plain⟩
  · -- the command was in progress already
    have wasSubscribing : before.Subscribes client :=
      ⟨sameClient.symm.trans subscribes.1, sameType.symm.trans subscribes.2⟩
    have noCommand : ∀ other, Output.accepted other ∉ (p.mux.loopStep retries).2 := by
      intro other accepted
      rw [(Mux.loopStep_outputs p.mux).1 other accepted] at wasRequesting
      cases wasRequesting
    have sameAddressee : p.block = some .committing ∧
        (p.mux.loopStep retries).1.currentCommand.client = some client →
        p.block = some .committing ∧ p.mux.currentCommand.client = some client := by
      rintro ⟨committing, isClient⟩
      refine ⟨committing, ?_⟩
      rcases Mux.loopStep_current retries p.mux with ⟨same, -⟩ | installing | none
      · rw [← same]
        exact isClient
      · obtain ⟨response, delivering, isSubscribe⟩ := covered.sound.inBlock .committing committing
        have distinct := (commits rfl _ (by rw [installing]; rfl) response
          (by rw [delivering]; rfl) (by rw [isClient]; rfl) (isSubscribe rfl)).2
        exact absurd committing distinct
      · rw [none] at isClient
        cases isClient
    have carried := (covered.requested before client wasRequesting wasSubscribing).append
      noCommand (fun now => Or.inl (sameAddressee now))
    obtain ⟨sent, since, params, inProgress, ofClient, read, pending, reply⟩ := carried
    refine ⟨sent, since, params, inProgress, ofClient, read, ?_, reply⟩
    intro notifType isPending
    rcases newParams client with same | committed
    · exact pending notifType (same ▸ isPending)
    · exact Or.inr ((covered.granted client notifType (committed ▸ isPending)).append _)
  · -- the filter of the command is set now
    obtain ⟨since, inProgress⟩ := covered.announced cmd subscribing
    have noClient : (p.mux.loopStep retries).1.currentCommand.client = none := by
      have agrees := covered.sound.mux.agrees
      rw [subscribing] at agrees
      simp only [Mux.loopStep, subscribing, read]
      simpa using agrees.1
    refine ⟨cmd, since ++ (p.mux.loopStep retries).2, params, inProgress.append ?_, subscribes,
      read, ?_, ?_⟩
    · intro other accepted
      have finding := (Mux.loopStep_outputs p.mux).1 other accepted
      rw [subscribing] at finding
      cases finding
    · intro notifType isPending
      rw [objects, subscribes.1, Mux.updateSubscriber_subscriber, if_pos rfl] at isPending
      exact Or.inl isPending
    · rintro ⟨-, isClient⟩
      rw [noClient] at isClient
      cases isClient
  · exact absurd ⟨subscribes.2, by rw [subscribes.1]; rfl⟩ plain

/-- A statement of the command thread. -/
theorem Covered.loop
    (covered : Covered p outputs)
    (sound : Sound { p with mux := (p.mux.loopStep retries).1 })
    (commits : p.CommitsItsReply .loop) :
    Covered { p with mux := (p.mux.loopStep retries).1 }
      (outputs ++ (p.mux.loopStep retries).2) where
  sound := sound
  granted client notifType bit := by
    dsimp only at bit
    rw [Mux.loopStep_params] at bit
    exact (covered.granted client notifType bit).append _
  announced cmd subscribing := by
    rw [Mux.loopStep_subscribing subscribing]
    exact ⟨[], inProgress_accepted outputs cmd⟩
  requested cmd client requesting subscribes :=
    covered.loop_requested commits requesting subscribes
  matched response client completing subscribe isClient := by
    dsimp only at completing isClient ⊢
    rw [(Mux.loopStep_picard p.mux).1] at completing
    rcases Mux.loopStep_current retries p.mux with
      ⟨sameClient, sameCommand⟩ | installing | none
    · rw [sameClient] at isClient
      rw [sameCommand]
      exact covered.matched response client completing subscribe isClient
    · exact (commits rfl _ (by rw [installing]; rfl) response completing
        (by rw [isClient]; rfl) subscribe).1
    · rw [none] at isClient
      cases isClient
  ordered := by
    apply covered.ordered.append
    intro client notifType payload notified _
    exact absurd notified ((Mux.loopStep_outputs p.mux).2 client _)

/-- A statement of the command thread. -/
theorem loopStep_covered
    (covered : Covered p outputs)
    (running : ¬p.mux.hasCrashed)
    (commits : p.CommitsItsReply .loop) :
    Covered (p.loopStep retries).1 (outputs ++ (p.loopStep retries).2) := by
  have sound := @Sound.loop retries p covered.sound running
  have statement := @loopStep_statement retries p running
  generalize p.loopStep retries = result at sound statement ⊢
  cases statement with
  | waits =>
      rw [List.append_nil]
      exact covered
  | unites | compares | saves | records =>
      exact covered.quietly sound (fun _ => id) rfl rfl rfl (fun _ => rfl) (fun _ => Or.inl) id
  | stores phase =>
      refine covered.quietly sound (fun _ impossible => by cases impossible) ?_ rfl rfl
        (fun _ => rfl) (fun _ => Or.inl) id
      rw [phase]
      rfl
  | sends phase =>
      refine covered.within sound (fun _ impossible => by cases impossible) ?_ rfl rfl
        (fun _ => rfl) (fun _ => Or.inl) (fun _ committing _ => Or.inl committing) (by simp)
        (by simp)
      rw [phase]
      rfl
  | whole => exact covered.loop sound commits

/-! ## The other threads -/

/-- A statement of `commandComplete`. -/
theorem completeStep_covered
    (covered : Covered p outputs)
    (running : ¬p.mux.hasCrashed) :
    Covered p.completeStep.1 (outputs ++ p.completeStep.2) := by
  have sound := covered.sound.complete
  have statement := completeStep_statement p
  generalize p.completeStep = result at sound statement ⊢
  cases statement with
  | rests =>
      rw [List.append_nil]
      exact covered
  | expects =>
      exact covered.quietly sound (fun _ => id) rfl rfl rfl (fun _ => rfl) (fun _ => Or.inl) id
  | refuses =>
      exact covered.quietly sound (fun _ => id) rfl rfl rfl (fun _ => rfl)
        (fun _ impossible => by cases impossible) id
  | rejects _ _ sameType | accepts _ _ sameType =>
      refine covered.quietly sound (fun _ => id) rfl rfl rfl (fun _ => rfl) ?_ id
      rintro _ ⟨⟩
      exact Or.inr sameType.symm
  | restores phase =>
      refine covered.quietly sound (fun _ => id) rfl rfl rfl (fun _ => rfl) ?_ id
      rw [phase]
      exact fun _ => Or.inl
  | marks | finds =>
      exact covered.quietly sound (fun _ => id) rfl rfl rfl (fun _ => rfl) (fun _ => Or.inl)
        (fun impossible => by cases impossible)
  | skips phase => exact covered.leave phase (by simp) (by simp)
  | @writes response phase =>
      dsimp only
      split_ifs with subscribe
      · exact covered.write phase subscribe
      · obtain ⟨noCommand, noNotification⟩ := Mux.sendResponse_only_responds
          p.mux.currentCommand.client .commandComplete
          (MuxOutput.make response.cmdType 0 response.respCode response.payload)
        exact covered.leave phase noCommand noNotification
  | commits _ committing present =>
      rw [List.append_nil]
      exact covered.commit running committing present
  | crashes =>
      exact covered.quietly sound (fun _ => id) rfl rfl rfl (fun _ => rfl)
        (fun _ impossible => by cases impossible) (fun impossible => by cases impossible)

/-- A frame is handled. -/
theorem receive_covered
    (covered : Covered p outputs)
    (running : ¬p.mux.hasCrashed)
    (frame : ByteVector) :
    Covered (p.receive retries frame).1 (outputs ++ (p.receive retries frame).2) := by
  have sound := @Sound.receive retries p covered.sound frame
  rcases @receive_cases retries p frame with waits | handled
  · rw [waits, List.append_nil]
    exact covered
  · obtain ⟨same, passive⟩ := @Mux.step_quiet (.receive frame) rfl retries p.mux
    rw [handled] at sound ⊢
    refine covered.within sound ?_ (congrArg LoopPhase.requesting same.loop)
      (congrArg ClientCommand.client same.currentCommand)
      (congrArg ClientCommand.command same.currentCommand) same.subscriber ?_
      (fun _ committing _ => Or.inl committing) ?_ ?_
    · intro cmd subscribing
      rw [← same.loop]
      exact subscribing
    · intro response completing
      left
      have received : p.mux.step retries (.receive frame) = p.mux.receive frame := if_neg running
      dsimp only [outerStep] at completing
      rw [received] at completing
      have samePicard : (p.mux.receive frame).1.picard = p.mux.picard := by
        apply Mux.receive_completing
        cases phase : (p.mux.receive frame).1.picard <;>
          simp [phase, PicardPhase.completing] at completing
        · rfl
        · rfl
      rwa [samePicard] at completing
    · intro cmd accepted
      exact absurd (passive _ accepted) (by simp [Output.isPassive])
    · have received : p.mux.step retries (.receive frame) = p.mux.receive frame := if_neg running
      dsimp only [outerStep]
      rw [received]
      exact Mux.receive_notifies p.mux frame

/-! ## Runs -/

theorem Covered.step
    (covered : Covered p outputs)
    {action : Action}
    (commits : p.CommitsItsReply action) :
    Covered (p.step retries action).1 (outputs ++ (p.step retries action).2) := by
  by_cases crashed : p.mux.hasCrashed
  · rw [step_of_crashed crashed, List.append_nil]
    exact covered
  by_cases loop : action = .loop
  · subst loop
    rw [step_loop crashed]
    exact loopStep_covered covered crashed commits
  by_cases complete : action = .complete
  · subst complete
    rw [step_complete crashed]
    exact completeStep_covered covered crashed
  by_cases receives : ∃ frame, action = .receive frame
  · obtain ⟨frame, rfl⟩ := receives
    rw [step_receive crashed]
    exact receive_covered covered crashed frame
  · obtain ⟨same, silent⟩ := @step_sameThreads retries p action loop complete
      (fun frame receive => receives ⟨frame, receive⟩)
    obtain ⟨result, current⟩ := same.current
    rw [silent]
    refine covered.quietly (step_sound action covered.sound) ?_
      (congrArg LoopPhase.requesting same.loop) (by rw [current]) (by rw [current])
      same.subscriber ?_ ?_
    · rw [same.loop]
      exact fun _ => id
    · rw [same.picard]
      exact fun _ => Or.inl
    · rw [same.block]
      exact id

/-- A notification reaches a client only after the reply to a SUBSCRIBE for it, in every
run in which the reply and the commit go to the same SUBSCRIBE. -/
theorem afterReply_of_commitsItsReply
    (retries : Int)
    (io : BasePicard)
    (protocolVersion : Byte)
    (actions : List Action)
    (commits : Machine.Meets (step retries) CommitsItsReply (start io protocolVersion) actions) :
    AfterReply (Machine.run (step retries) (start io protocolVersion) actions).2 := by
  have covered := @Machine.invariant_run _ _ _ (step retries) CommitsItsReply Covered
    (fun _ _ _ covered commits => covered.step commits) _ [] actions
    (start_covered io protocolVersion) commits
  exact covered.ordered

/-- Picard answers the SUBSCRIBE of client 1, which is committed before the command of
client 2 is installed, and then sends a notification. -/
def answeredBlock : List Action :=
  List.flatten
    [[.addClient 1, .addCommand 1 (subscribeTo 32), .addClient 2,
        .addCommand 2 (subscribeTo 2)], List.replicate 14 .loop,
      [.receive [3, 22, 0, 1, 0]], List.replicate 6 .complete,
      List.replicate 13 .loop, [.receive [2, 20, 0, 2, 5, 1]]]

theorem afterReply_example :
    AfterReply (Machine.run (step 1) (start {} 4) answeredBlock).2 :=
  afterReply_of_commitsItsReply 1 {} 4 answeredBlock (by decide +kernel)

/-- The SUBSCRIBE of client 1 is transmitted twice and answered twice, and the command
thread goes on to the SUBSCRIBE of client 2 between the second reply and the commit. -/
def interruptedBlock : List Action :=
  List.flatten
    [[.addClient 1, .addCommand 1 (subscribeTo 2), .addClient 2,
        .addCommand 2 (subscribeTo 32)], List.replicate 18 .loop,
      [.receive [3, 22, 0, 1, 0]], List.replicate 6 .complete, [.loop],
      [.receive [3, 22, 0, 1, 0]], List.replicate 5 .complete, List.replicate 12 .loop,
      [.complete, .receive [2, 20, 0, 2, 5, 1]]]

/-- The filter of client 2 is committed instead, and a notification is written to it
before any reply. -/
theorem interrupted_block_commits_early :
    ¬AfterReply (Machine.run (step 2) (start {} 4) interruptedBlock).2 := by
  intro ordered
  have granted := ordered
    (Machine.run (step 2) (start {} 4) interruptedBlock).2.dropLast 2 5 [1] []
    (by decide +kernel) (by decide)
  obtain ⟨respCode, payload, reply⟩ := granted.exists_reply
  have noReply : (Machine.run (step 2) (start {} 4) interruptedBlock).2.dropLast.all
      (fun output =>
        match output with
        | .response client _ _ => client != 2
        | _ => true) = true := by
    decide +kernel
  exact absurd (List.all_eq_true.mp noReply _ reply) (by simp)

end Process

end SerialMux
