import SerialMux.Steps

/-!
# Routing of notifications

`handleNotif` writes a notification to every registered client whose committed
filter has the bit of its type.  The type comes unchecked from Picard, and the test
shifts an `int` by it, so routing is exact for the types below 32, and for the others
as long as no client is registered.
-/

namespace SerialMux

namespace Mux

variable {retries : Int} {m : Mux}

/-- The message that `handleNotif` writes. -/
def notificationFor (notifType : Byte) (payload : ByteVector) (client : ClientId) : Output :=
  .notified client (MuxOutput.make Command.notification 0 notifType payload)

/-- The committed filter of a client has the bit of a type. -/
def HasBit (m : Mux) (notifType : Byte) (client : ClientId) : Prop :=
  (m.objects client).subscriber.params.filter.getLsbD notifType.toNat = true

/-- A notification is routed exactly: no test shifts by 32 or more, the call returns
without a change of the state, every registered client with the bit gets one message,
and nothing else is written. -/
structure RoutesExactly (m : Mux) (notifType : Byte) (payload : ByteVector) : Prop where
  shifts : ∀ client ∈ m.clients, notifType.toNat < 32
  returns : (m.handleNotif notifType payload).1 = m
  once : ∀ client ∈ m.clients, m.HasBit notifType client →
    (m.handleNotif notifType payload).2.count (notificationFor notifType payload client) = 1
  only : ∀ output ∈ (m.handleNotif notifType payload).2,
    ∃ client ∈ m.clients, m.HasBit notifType client ∧
      output = notificationFor notifType payload client

/-! ## The registered clients -/

/-- Clients are registered once, and none of them waits for its hello. -/
structure Registered (m : Mux) : Prop where
  once : m.clients.Nodup
  notWaiting : ∀ client ∈ m.clients, (m.objects client).initState ≠ .waiting

/-- The list of clients is kept or cleared, and no connection begins to wait. -/
structure Keeps (before after : Mux) : Prop where
  clients : after.clients = before.clients ∨ after.clients = []
  left : ∀ client, (before.objects client).initState ≠ .waiting →
    (after.objects client).initState ≠ .waiting

namespace Keeps

theorem refl (m : Mux) : Keeps m m :=
  ⟨Or.inl rfl, fun _ => id⟩

theorem trans
    {first second third : Mux}
    (earlier : Keeps first second)
    (later : Keeps second third) :
    Keeps first third where
  clients := by
    rcases later.clients with same | cleared
    · rw [same]
      exact earlier.clients
    · exact Or.inr cleared
  left client notWaiting := later.left client (earlier.left client notWaiting)

theorem registered
    {before after : Mux}
    (keeps : Keeps before after)
    (registered : Registered before) :
    Registered after := by
  rcases keeps.clients with same | cleared
  · constructor
    · rw [same]
      exact registered.once
    · intro client listed
      rw [same] at listed
      exact keeps.left client (registered.notWaiting client listed)
  · constructor
    · rw [cleared]
      exact List.nodup_nil
    · simp [cleared]

end Keeps

/-- Changing a client without its state. -/
theorem updateClient_keeps
    {client : ClientId}
    {change : Client → Client}
    (state : ∀ object, (change object).initState = object.initState) :
    Keeps m (m.updateClient client change) := by
  refine ⟨Or.inl rfl, ?_⟩
  intro other notWaiting
  by_cases same : other = client
  · subst same
    simpa [updateClient, state] using notWaiting
  · simpa [updateClient, same] using notWaiting

theorem closeEach_initState
    (objects : ClientId → Client)
    (clients : List ClientId)
    (other : ClientId) :
    ((closeEach objects clients).1 other).initState = (objects other).initState ∨
      ((closeEach objects clients).1 other).initState = .closed := by
  rw [closeEach_eq_actEach]
  apply FamilyLoop.actEach_rel (fun before after : Client =>
    after.initState = before.initState ∨ after.initState = .closed)
  · exact fun _ => Or.inl rfl
  · rintro first second third earlier (same | isClosed)
    · rw [same]
      exact earlier
    · exact Or.inr isClosed
  · intro client
    cases done : client.close with
    | none => exact Or.inl rfl
    | some closed => exact Or.inr (Client.close_closes done).1

theorem closeClients_keeps (m : Mux) : Keeps m m.closeClients.1 := by
  have states := closeEach_initState m.objects m.clients
  have left (objects : ClientId → Client)
      (changed : ∀ client, (objects client).initState = (m.objects client).initState ∨
        (objects client).initState = .closed)
      (client : ClientId)
      (notWaiting : (m.objects client).initState ≠ .waiting) :
      (objects client).initState ≠ .waiting := by
    rcases changed client with same | isClosed
    · rw [same]
      exact notWaiting
    · rw [isClosed]
      decide
  unfold closeClients
  split <;> rename_i objects done <;> rw [done] at states
  · exact ⟨Or.inr rfl, left objects states⟩
  · exact ⟨Or.inl rfl, left objects states⟩

theorem resetConnection_keeps (m : Mux) : Keeps m m.resetConnection.1 := by
  have keeps := closeClients_keeps { m with io := { m.io with isRunning := false } }
  unfold resetConnection
  split <;> rename_i closed reset <;> rw [reset] at keeps <;>
    exact ⟨keeps.clients, keeps.left⟩

/-! ## Steps -/

theorem handleEvent_keeps (m : Mux) (event : PicardEvent) :
    Keeps m (m.handleEvent event).1 := by
  cases event with
  | sendRaw data => exact Keeps.refl m
  | handleNotif notifType payload =>
      simp only [handleEvent, handleNotif]
      split <;> exact ⟨Or.inl rfl, fun _ => id⟩
  | commandComplete response => exact ⟨Or.inl rfl, fun _ => id⟩
  | notifyConnect => exact Keeps.refl m
  | resetConnection =>
      have keeps := resetConnection_keeps m
      simp only [handleEvent]
      split <;> rename_i closed reset <;> rw [reset] at keeps
      · exact keeps
      · exact ⟨keeps.clients, keeps.left⟩

theorem handleEvents_keeps (m : Mux) (events : List PicardEvent) :
    Keeps m (m.handleEvents events).1 := by
  induction events generalizing m with
  | nil => exact Keeps.refl m
  | cons event rest inductionHypothesis =>
      exact (handleEvent_keeps m event).trans (inductionHypothesis (m.handleEvent event).1)

theorem receive_keeps (m : Mux) (frame : ByteVector) :
    Keeps m (m.receive frame).1 := by
  unfold receive
  split
  · have keeps := handleEvents_keeps { m with io := (m.io.frameComplete frame).1 }
      (m.io.frameComplete frame).2
    exact ⟨keeps.clients, keeps.left⟩
  · exact Keeps.refl m

theorem updateSubscriber_keeps
    (m : Mux)
    (client : Option ClientId)
    (change : Subscriber → Subscriber) :
    Keeps m (m.updateSubscriber client change) :=
  ⟨Or.inl (by simp), fun other notWaiting => by simpa using notWaiting⟩

theorem completeStep_keeps (m : Mux) : Keeps m m.completeStep.1 := by
  unfold completeStep
  split
  · split_ifs <;> exact ⟨Or.inl rfl, fun _ => id⟩
  · exact ⟨Or.inl rfl, fun _ => id⟩
  · rename_i response _
    unfold deliver
    dsimp only
    split
    · have keeps := updateSubscriber_keeps
        { m with currentCommand.result := .ok, picard := .reading } m.currentCommand.client
        Subscriber.commitFilter
      exact ⟨keeps.clients, keeps.left⟩
    · exact ⟨Or.inl rfl, fun _ => id⟩
  all_goals exact Keeps.refl m

theorem loopStep_keeps (m : Mux) : Keeps m (m.loopStep retries).1 := by
  have same (next : Mux) (objects : next.objects = m.objects)
      (clients : next.clients = m.clients) : Keeps m next := by
    refine ⟨Or.inl clients, fun client notWaiting => ?_⟩
    rw [objects]
    exact notWaiting
  cases phase : m.loop <;> simp only [loopStep, phase]
  case popping | finding | rewriting => split <;> exact same _ rfl rfl
  case concluding => split_ifs <;> exact same _ rfl rfl
  case subscribing cmd =>
      split
      · have keeps := updateSubscriber_keeps m cmd.client
        exact ⟨(keeps _).clients, (keeps _).left⟩
      · exact same _ rfl rfl
  case resetting cmd =>
      have keeps := updateSubscriber_keeps m cmd.client Subscriber.resetFilter
      exact ⟨keeps.clients, keeps.left⟩
  case disconnecting =>
      have keeps := resetConnection_keeps m
      split <;> rename_i closed reset <;> rw [reset] at keeps <;>
        exact ⟨keeps.clients, keeps.left⟩
  all_goals exact same _ rfl rfl

/-- A client is registered only while it waits, and then no longer waits. -/
theorem addClient_registered
    (registered : Registered m)
    (client : ClientId) :
    Registered (m.addClient client) := by
  unfold addClient
  split
  · rename_i handles
    have waits : (m.objects client).initState = .waiting := by
      rw [Mux.handles, Bool.and_eq_true, beq_iff_eq] at handles
      exact handles.2
    have unlisted : client ∉ m.clients :=
      fun listed => registered.notWaiting client listed waits
    constructor
    · refine List.Nodup.append registered.once (List.nodup_singleton client) ?_
      simpa [updateClient] using unlisted
    · intro other listed
      by_cases same : other = client
      · subst same
        simp [updateClient]
      · have old := (List.mem_append.mp listed).resolve_right (by simpa using same)
        simpa [updateClient, same] using registered.notWaiting other old
  · exact registered

theorem eraseClient_registered
    (registered : Registered m) :
    Registered m.eraseClient := by
  have erased (client : ClientId) (next : Mux) (objects : next.objects = m.objects)
      (clients : next.clients = m.clients.erase client) : Registered next := by
    constructor
    · rw [clients]
      exact registered.once.erase client
    · intro other listed
      rw [clients] at listed
      rw [objects]
      exact registered.notWaiting other (List.mem_of_mem_erase listed)
  unfold eraseClient
  split
  · exact registered
  · rename_i client _
    dsimp only [recomputeSubscribeFilter]
    split_ifs
    · exact erased client _ rfl rfl
    · exact erased client _ rfl rfl
    · exact ⟨registered.once, registered.notWaiting⟩

theorem step_registered
    (action : Action)
    (registered : Registered m) :
    Registered (step retries m action).1 := by
  unfold step
  split
  · exact registered
  · cases action with
    | addClient client => exact addClient_registered registered client
    | addCommand client command =>
        simp only [perform, addCommand]
        split <;> exact ⟨registered.once, registered.notWaiting⟩
    | removeClient client =>
        simp only [perform, removeClient]
        split
        · have failed : Keeps m
              (m.updateClient client fun object => { object with reading := false }) :=
            updateClient_keeps fun _ => rfl
          have kept := failed.registered registered
          split <;> exact ⟨kept.once, kept.notWaiting⟩
        · exact registered
    | eraseClient => exact eraseClient_registered registered
    | hangUp client =>
        have gone : Keeps m
            (m.updateClient client fun object => { object with peerGone := true }) :=
          updateClient_keeps fun _ => rfl
        exact gone.registered registered
    | loop => exact (loopStep_keeps m).registered registered
    | receive frame => exact (receive_keeps m frame).registered registered
    | complete => exact (completeStep_keeps m).registered registered
    | unregisterCallback | stop | clearCommands =>
        simp only [perform]
        split <;> exact ⟨registered.once, registered.notWaiting⟩

/-- In every reachable state clients are registered once. -/
theorem reachable_registered
    (reachable : Reachable retries m) :
    Registered m := by
  obtain ⟨io, protocolVersion, actions, rfl⟩ := reachable
  have initially : Registered (start io protocolVersion) := ⟨List.nodup_nil, by simp [start]⟩
  have always : Machine.Meets (step retries) (fun _ _ => True)
      (start io protocolVersion) actions := Machine.meets_true _ _
  exact Machine.state_invariant_run Registered
    (fun _ action registered _ => step_registered action registered) initially always

/-! ## Routing -/

instance (m : Mux) (notifType : Byte) (client : ClientId) :
    Decidable (m.HasBit notifType client) :=
  inferInstanceAs (Decidable (_ = true))

/-- Below 32 the messages go to the clients with the bit, in the order of the list. -/
theorem handleNotif_eq
    (m : Mux)
    {notifType : Byte}
    (inRange : notifType.toNat < 32 ∨ m.clients = [])
    (payload : ByteVector) :
    m.handleNotif notifType payload =
      (m, (m.clients.filter (m.HasBit notifType ·)).map (notificationFor notifType payload)) := by
  have each (clients : List ClientId) (inRange : notifType.toNat < 32) :
      notifyEach m.objects notifType payload clients =
        some ((clients.filter (m.HasBit notifType ·)).map
          (notificationFor notifType payload)) := by
    induction clients with
    | nil => rfl
    | cons client rest inductionHypothesis =>
        rw [notifyEach, inductionHypothesis, Subscriber.isSubscribed,
          subscribeFilterMatch_eq _ inRange, List.filter_cons]
        by_cases bit : m.HasBit notifType client
        · have passes : (m.objects client).subscriber.params.filter.getLsbD notifType.toNat =
              true := bit
          simp [bit, passes, notificationFor]
        · have stops : (m.objects client).subscriber.params.filter.getLsbD notifType.toNat =
              false := Bool.eq_false_iff.mpr bit
          simp [bit, stops]
  unfold handleNotif
  rcases inRange with inRange | nobody
  · rw [each m.clients inRange]
  · rw [nobody]
    rfl

/-- In every reachable state a notification is routed exactly if and only if its type is
below 32 or no client is registered. -/
theorem routesExactly_iff
    (retries : Int)
    (m : Mux)
    (reachable : Reachable retries m)
    (notifType : Byte)
    (payload : ByteVector) :
    m.RoutesExactly notifType payload ↔ notifType.toNat < 32 ∨ m.clients = [] := by
  constructor
  · intro exact'
    rcases List.eq_nil_or_concat m.clients with nobody | ⟨others, client, listed⟩
    · exact Or.inr nobody
    · exact Or.inl (exact'.shifts client (by simp [listed]))
  · intro inRange
    have routed := m.handleNotif_eq inRange payload
    have different : Function.Injective (notificationFor notifType payload) := by
      intro left right same
      exact (Output.notified.inj same).1
    refine ⟨?_, ?_, ?_, ?_⟩
    · intro client listed
      exact inRange.resolve_right (List.ne_nil_of_mem listed)
    · rw [routed]
    · intro client listed bit
      rw [routed, List.count_map_of_injective _ _ different]
      refine List.count_eq_one_of_mem ((reachable_registered reachable).once.filter _) ?_
      exact List.mem_filter.mpr ⟨listed, by simpa using bit⟩
    · intro output written
      rw [routed] at written
      obtain ⟨client, kept, rfl⟩ := List.mem_map.mp written
      obtain ⟨listed, bit⟩ := List.mem_filter.mp kept
      exact ⟨client, listed, by simpa using bit, rfl⟩

/-- Two clients are registered, and the first one's SUBSCRIBE of type 1 is answered. -/
def answeredSubscribe : List Action :=
  List.flatten
    [[.addClient 1, .addClient 2, .addCommand 1 (subscribeTo 2)], List.replicate 10 .loop,
      [.receive [3, Command.subscribe, 0, 1, 0], .complete, .complete]]

/-- A notification of type 1 goes to the first client only. -/
theorem routesExactly_example :
    (Machine.run (step 3) (start {} 4) answeredSubscribe).1.RoutesExactly 1 [9] ∧
    ((Machine.run (step 3) (start {} 4) answeredSubscribe).1.handleNotif 1 [9]).2 =
      [notificationFor 1 [9] 1] :=
  ⟨(routesExactly_iff 3 _ ⟨{}, 4, answeredSubscribe, rfl⟩ 1 [9]).mpr (Or.inl (by decide)),
    by decide +kernel⟩

/-- A notification of type 33 shifts by more than the width of an `int`. -/
theorem notification_shifts_too_far :
    ((Machine.run (step 3) (start {} 4) answeredSubscribe).1.handleNotif 33 [9]).1.picard =
        .crashed ∧
      ¬(Machine.run (step 3) (start {} 4) answeredSubscribe).1.RoutesExactly 33 [9] := by
  refine ⟨by decide +kernel, ?_⟩
  intro exact'
  have inRange := exact'.shifts 1 (by decide +kernel)
  revert inRange
  decide

end Mux

end SerialMux
