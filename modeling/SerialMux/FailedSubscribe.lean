import SerialMux.Process

/-!
# Failed subscriptions

A SUBSCRIBE that Picard rejects or never answers should change no filter.  The
command thread restores the filter union and the client's pending filter when it
gives the command up, and `commandComplete` restores the union on a rejection;
but it then commits the pending filter.  So the filters survive as long as that
commit finds nothing pending, and as long as no response to an earlier command
restores another union or marks the SUBSCRIBE.
-/

namespace SerialMux

/-- A client's SUBSCRIBE. -/
def ClientCommand.Subscribes (cmd : ClientCommand) (client : ClientId) : Prop :=
  cmd.client = some client ∧ cmd.command.type = Command.subscribe

/-- A response that `commandComplete` has accepted rejects a SUBSCRIBE, and once the
union is restored, it is the one before. -/
def PicardPhase.Rejects (before filterUnion : SubscriptionParams) : PicardPhase → Prop
  | .rejecting response => response.cmdType = Command.subscribe
  | .delivering response => response.cmdType = Command.subscribe ∧ filterUnion = before
  | .reading | .validating _ | .stopped | .crashed => True

namespace Mux

variable {retries : Int} {m : Mux}

/-- All filters are the same in two states. -/
structure SameFilters (before after : Mux) : Prop where
  filterUnion : after.filterUnion = before.filterUnion
  params : ∀ client,
    (after.objects client).subscriber.params = (before.objects client).subscriber.params
  newParams : ∀ client,
    (after.objects client).subscriber.newParams =
      (before.objects client).subscriber.newParams

/-- The command thread commits nothing. -/
theorem loopStep_params (m : Mux) (other : ClientId) :
    ((m.loopStep retries).1.objects other).subscriber.params =
      (m.objects other).subscriber.params := by
  have kept : ∀ (target : Option ClientId) (change : Subscriber → Subscriber),
      (∀ subscriber, (change subscriber).params = subscriber.params) →
      ((m.updateSubscriber target change).objects other).subscriber.params =
        (m.objects other).subscriber.params := by
    intro target change keeps
    cases target with
    | none => rfl
    | some target =>
        rw [updateSubscriber_subscriber]
        split
        · rename_i same
          rw [keeps, same]
        · rfl
  cases phase : m.loop <;> simp only [loopStep, phase]
  case popping | finding | rewriting => split <;> rfl
  case concluding => split_ifs <;> rfl
  case subscribing cmd =>
      split
      · rename_i params defined
        exact kept cmd.client (Subscriber.setSubscription params) fun _ => rfl
      · rfl
  case resetting cmd => exact kept cmd.client Subscriber.resetFilter fun _ => rfl
  case recomputing => rfl
  case disconnecting =>
      have same := (resetConnection_same m).subscriber other
      split <;> rename_i closed reset <;> rw [reset] at same <;>
        exact congrArg Subscriber.params same

end Mux

namespace Process

variable {retries : Int} {client : ClientId} {before : Mux} {p : Process}

/-- The locked block of `commandComplete` ends with a commit. -/
def commits (p : Process) : Bool :=
  match p.mux.picard with
  | .delivering response => response.cmdType == Command.subscribe && p.block.isSome
  | .reading | .validating _ | .rejecting _ | .stopped | .crashed => false

/-- `commandComplete` accepts a response with the code OK next. -/
def acceptsOk (p : Process) : Bool :=
  match p.mux.picard, p.expectedSeq with
  | .validating response, some expectedSeq =>
      response.cmdType == p.mux.currentCommand.command.type &&
        response.seqNo == expectedSeq && response.respCode == ErrorCode.ok
  | _, _ => false

/-- The client has no pending filter. -/
def Settled (client : ClientId) (p : Process) : Prop :=
  (p.mux.objects client).subscriber.newParams = (p.mux.objects client).subscriber.params

/-- The steps while a SUBSCRIBE is processed that fails: the command thread does
not go on to another command, no client leaves, and Picard does not answer OK. -/
def Fails (p : Process) : Action → Prop
  | .loop => p.mux.loop ≠ .checking
  | .removeClient _ | .eraseClient => False
  | .complete => ¬p.acceptsOk
  | .addClient _ | .addCommand _ _ | .hangUp _ | .receive _ | .unregisterCallback
  | .stop | .clearCommands => True

/-- The command thread installs no command while `commandComplete` stands between the
validation of a response to an earlier command and its locked block. -/
def InstallsBehind (p : Process) : LoopPhase → Prop
  | .installing _ => p.mux.picard.isCompleting → p.block.isSome
  | _ => True

/-- `commandComplete` restores the union of before the SUBSCRIBE, and its commit finds no
pending filter of the client. -/
def RestoresOnly (client : ClientId) (before : Mux) (p : Process) : PicardPhase → Prop
  | .rejecting _ => p.mux.prevfilter = before.filterUnion
  | .delivering _ =>
      p.block = some .committing → p.mux.currentCommand.client = some client → p.Settled client
  | .reading | .validating _ | .stopped | .crashed => True

/-- A step does nothing that the failure of the SUBSCRIBE leaves undone. -/
def RollsBack (client : ClientId) (before : Mux) (p : Process) (action : Action) : Prop :=
  (action = .loop → p.InstallsBehind p.mux.loop) ∧
    (action = .complete → p.RestoresOnly client before p.mux.picard)

instance (client : ClientId) (p : Process) : Decidable (Settled client p) :=
  inferInstanceAs (Decidable (_ = _))

instance (p : Process) : (action : Action) → Decidable (Fails p action)
  | .loop => inferInstanceAs (Decidable (p.mux.loop ≠ .checking))
  | .complete => inferInstanceAs (Decidable ¬p.acceptsOk)
  | .removeClient _ | .eraseClient => isFalse id
  | .addClient _ | .addCommand _ _ | .hangUp _ | .receive _ | .unregisterCallback
  | .stop | .clearCommands => isTrue trivial

instance (p : Process) : (phase : LoopPhase) → Decidable (InstallsBehind p phase)
  | .installing _ => inferInstanceAs (Decidable (_ → _))
  | .starting | .checking | .popping | .finding _ | .replying _ _ _ | .subscribing _
  | .recomputing _ | .rewriting _ | .sending _ _ | .recording _ _ _ | .waiting _ _
  | .concluding _ _ | .restoring _ | .resetting _ | .timingOut _ | .disconnecting _
  | .clearing _ | .finished | .crashed => isTrue trivial

instance (client : ClientId) (before : Mux) (p : Process) :
    (phase : PicardPhase) → Decidable (RestoresOnly client before p phase)
  | .rejecting _ => inferInstanceAs (Decidable (_ = _))
  | .delivering _ => inferInstanceAs (Decidable (_ → _ → _))
  | .reading | .validating _ | .stopped | .crashed => isTrue trivial

instance (client : ClientId) (before : Mux) (p : Process) (action : Action) :
    Decidable (RollsBack client before p action) :=
  inferInstanceAs (Decidable (_ ∧ _))

/-- How the filter union, the union kept, and the client's pending filter stand
to their values before the client's SUBSCRIBE was popped. -/
def Undoable (client : ClientId) (before : Mux) (p : Process) : LoopPhase → Prop
  | .finding cmd | .subscribing cmd =>
      cmd.Subscribes client ∧ p.mux.filterUnion = before.filterUnion ∧
        (p.mux.objects client).subscriber.newParams = (before.objects client).subscriber.params
  | .replying _ _ _ | .checking =>
      p.mux.filterUnion = before.filterUnion ∧
        (p.mux.objects client).subscriber.newParams = (before.objects client).subscriber.params
  | .recomputing cmd =>
      cmd.Subscribes client ∧
        match p.recompute with
        | some (.storing _ _) => p.mux.prevfilter = before.filterUnion
        | _ => p.mux.filterUnion = before.filterUnion
  | .rewriting cmd | .installing cmd | .restoring cmd =>
      cmd.Subscribes client ∧ p.mux.prevfilter = before.filterUnion
  | .sending cmd _ | .recording cmd _ _ | .waiting cmd _ =>
      cmd.Subscribes client ∧ p.mux.prevfilter = before.filterUnion ∧
        (p.mux.currentCommand.result = .ok → p.mux.filterUnion = before.filterUnion ∧
          ((p.mux.objects client).subscriber.newParams =
              (before.objects client).subscriber.params ∨ p.commits))
  | .concluding cmd decided =>
      cmd.Subscribes client ∧ p.mux.prevfilter = before.filterUnion ∧
        (decided = .ok → p.mux.filterUnion = before.filterUnion ∧
          (p.mux.objects client).subscriber.newParams =
            (before.objects client).subscriber.params)
  | .resetting cmd =>
      cmd.Subscribes client ∧ p.mux.prevfilter = before.filterUnion ∧
        p.mux.filterUnion = before.filterUnion
  | .timingOut cmd | .disconnecting cmd | .clearing cmd =>
      cmd.Subscribes client ∧ p.mux.prevfilter = before.filterUnion ∧
        p.mux.filterUnion = before.filterUnion ∧
        (p.mux.objects client).subscriber.newParams = (before.objects client).subscriber.params
  | .starting | .popping | .finished => False
  | .crashed => True

/-- What holds while a SUBSCRIBE that fails is processed. -/
structure Window (client : ClientId) (before : Mux) (p : Process) : Prop where
  sound : p.Sound
  undoable : p.Undoable client before p.mux.loop
  params : ∀ other,
    (p.mux.objects other).subscriber.params = (before.objects other).subscriber.params
  others : ∀ other, other ≠ client →
    (p.mux.objects other).subscriber.newParams = (before.objects other).subscriber.newParams
  rejects : p.block = none → p.mux.currentCommand.client.isSome →
    p.mux.picard.Rejects before.filterUnion p.mux.filterUnion

/-- What a SUBSCRIBE leaves to undo depends on the filters and the result, and on whether the
filter is reset where the commit is not to come. -/
theorem Undoable.congr
    {next : Process}
    {phase : LoopPhase}
    (undoable : p.Undoable client before phase)
    (filterUnion : next.mux.filterUnion = p.mux.filterUnion)
    (prevfilter : next.mux.prevfilter = p.mux.prevfilter)
    (newParams : (next.mux.objects client).subscriber.newParams =
      (p.mux.objects client).subscriber.newParams)
    (result : next.mux.currentCommand.result = p.mux.currentCommand.result)
    (recompute : next.recompute = p.recompute)
    (commits : phase.transmitting → p.commits →
      (p.mux.objects client).subscriber.newParams = (before.objects client).subscriber.params ∨
        next.commits) :
    next.Undoable client before phase := by
  cases phase <;> simp only [Undoable] at undoable ⊢ <;>
    simp only [filterUnion, prevfilter, newParams, result, recompute] <;> try exact undoable
  all_goals
    refine ⟨undoable.1, undoable.2.1, fun isOk => ?_⟩
    obtain ⟨union, settled⟩ := undoable.2.2 isOk
    exact ⟨union, settled.elim Or.inl (commits rfl)⟩

/-- A step that changes no filter and accepts nothing. -/
theorem Window.move
    {next : Process}
    (window : Window client before p)
    (sound : next.Sound)
    (undoable : next.Undoable client before next.mux.loop)
    (filterUnion : next.mux.filterUnion = p.mux.filterUnion)
    (filters : ∀ other,
      (next.mux.objects other).subscriber.params = (p.mux.objects other).subscriber.params ∧
        (next.mux.objects other).subscriber.newParams =
          (p.mux.objects other).subscriber.newParams)
    (rejects : next.block = none → next.mux.currentCommand.client.isSome →
      next.mux.picard.isCompleting →
        p.block = none ∧ p.mux.currentCommand.client.isSome ∧ next.mux.picard = p.mux.picard) :
    Window client before next where
  sound := sound
  undoable := undoable
  params other := (filters other).1.trans (window.params other)
  others other different := (filters other).2.trans (window.others other different)
  rejects outside present := by
    rw [filterUnion]
    cases phase : next.mux.picard with
    | rejecting response | delivering response =>
        obtain ⟨wasOutside, wasPresent, same⟩ :=
          rejects outside present (by rw [phase]; rfl)
        rw [← phase, same]
        exact window.rejects wasOutside wasPresent
    | _ => trivial

/-! ## The Picard thread -/

/-- The command in progress is the client's SUBSCRIBE or none. -/
theorem Undoable.current
    {phase : LoopPhase}
    (undoable : p.Undoable client before phase)
    (agrees : phase.AgreesWith p.mux.currentCommand)
    (running : phase ≠ .crashed) :
    p.mux.currentCommand.client = none ∧ p.mux.currentCommand.command = {} ∨
      p.mux.currentCommand.Subscribes client := by
  cases phase
  case sending | recording | waiting | concluding | restoring | resetting | timingOut
      | disconnecting | clearing =>
      exact Or.inr ⟨agrees.1.trans undoable.1.1, by rw [agrees.2]; exact undoable.1.2⟩
  case crashed => exact absurd rfl running
  all_goals exact Or.inl ⟨agrees.1, agrees.2.1⟩

/-- Restoring the filter union undoes no more than was done. -/
theorem Undoable.restored
    {phase : LoopPhase}
    {picard : PicardPhase}
    (undoable : p.Undoable client before phase)
    (kept : p.mux.prevfilter = before.filterUnion)
    (notCommitting : ¬p.commits) :
    Undoable client before
      { p with mux := { p.mux with filterUnion := p.mux.prevfilter, picard := picard } } phase := by
  cases phase <;> simp only [Undoable] at undoable ⊢
  case finding | subscribing => exact ⟨undoable.1, kept, undoable.2.2⟩
  case replying | checking => exact ⟨kept, undoable.2⟩
  case recomputing =>
      refine ⟨undoable.1, ?_⟩
      split <;> exact kept
  case sending | recording | waiting =>
      refine ⟨undoable.1, kept, fun isOk => ⟨kept, Or.inl ?_⟩⟩
      exact (undoable.2.2 isOk).2.resolve_right notCommitting
  case concluding => exact ⟨undoable.1, kept, fun isOk => ⟨kept, (undoable.2.2 isOk).2⟩⟩
  case resetting => exact ⟨undoable.1, kept, kept⟩
  case timingOut | disconnecting | clearing => exact ⟨undoable.1, kept, kept, undoable.2.2.2⟩
  all_goals exact undoable

/-- An answer to the SUBSCRIBE finds the union restored, and will find the filter reset. -/
theorem Undoable.marked
    {phase : LoopPhase}
    (undoable : p.Undoable client before phase)
    (sameUnion : phase.transmitting → p.mux.filterUnion = before.filterUnion)
    (commits : phase.transmitting → commits { p with
      mux := { p.mux with currentCommand.result := .ok }
      block := some .testing }) :
    Undoable client before { p with
      mux := { p.mux with currentCommand.result := .ok }
      block := some .testing } phase := by
  cases phase
  case sending | recording | waiting =>
      exact ⟨undoable.1, undoable.2.1, fun _ => ⟨sameUnion rfl, Or.inr (commits rfl)⟩⟩
  all_goals exact undoable

/-- `commandComplete` accepts no response but a rejection of the SUBSCRIBE. -/
theorem Window.accepted
    (window : Window client before p)
    (running : p.mux.loop ≠ .crashed)
    {response : Response}
    (handled : p.mux.picard.response = some response)
    (sameType : response.cmdType = p.mux.currentCommand.command.type) :
    response.cmdType = Command.subscribe := by
  have inRange := window.sound.mux.answers response handled
  rcases window.undoable.current window.sound.mux.agrees running with ⟨-, empty⟩ | subscribes
  · rw [sameType, empty] at inRange
    exact absurd inRange (by decide)
  · exact sameType.trans subscribes.2

/-- A transmitted command has a client. -/
theorem Window.present
    (window : Window client before p)
    (transmitting : p.mux.loop.transmitting) :
    p.mux.currentCommand.client = some client := by
  have agrees := window.sound.mux.agrees
  have undoable := window.undoable
  cases phase : p.mux.loop <;> rw [phase] at transmitting agrees undoable
  case sending | recording | waiting => exact agrees.1.trans undoable.1.1
  all_goals cases transmitting

/-- A commit that finds nothing pending changes no filter. -/
theorem commitFilter_settled
    (settled : p.Settled client)
    (other : ClientId) :
    let committed := p.mux.updateSubscriber (some client) Subscriber.commitFilter
    (committed.objects other).subscriber.params = (p.mux.objects other).subscriber.params ∧
      (committed.objects other).subscriber.newParams =
        (p.mux.objects other).subscriber.newParams := by
  intro committed
  rw [Mux.updateSubscriber_subscriber]
  split
  · rename_i same
    rw [same]
    exact ⟨settled, rfl⟩
  · exact ⟨rfl, rfl⟩

/-- The commit finds nothing pending. -/
theorem Window.commit
    (window : Window client before p)
    (running : p.mux.loop ≠ .crashed)
    {committed : ClientId}
    (present : p.mux.currentCommand.client = some committed)
    (settles : p.mux.currentCommand.client = some client → p.Settled client)
    (sound : Sound (leave { p with
      mux := p.mux.updateSubscriber (some committed) Subscriber.commitFilter })) :
    Window client before (leave { p with
      mux := p.mux.updateSubscriber (some committed) Subscriber.commitFilter }) := by
  obtain rfl : committed = client := by
    rcases window.undoable.current window.sound.mux.agrees running with ⟨absent, -⟩ | subscribes
    · rw [present] at absent
      cases absent
    · exact Option.some.inj (present.symm.trans subscribes.1)
  have settled : p.Settled committed := settles present
  have same := commitFilter_settled settled
  have sameLoop : (leave { p with
      mux := p.mux.updateSubscriber (some committed) Subscriber.commitFilter }).mux.loop =
      p.mux.loop := by
    simp [leave]
  refine window.move sound ?_ (by simp [leave]) same (fun _ _ absurd => by cases absurd)
  rw [sameLoop]
  refine window.undoable.congr (by simp [leave]) (by simp [leave]) (same committed).2
    (by simp [leave]) rfl fun _ _ => Or.inl ?_
  exact settled.trans (window.params committed)

/-- The answer to the SUBSCRIBE marks it. -/
theorem Window.mark
    (window : Window client before p)
    {response : Response}
    (phase : p.mux.picard = .delivering response)
    (stage : p.block = none)
    (sound : Sound { p with
      mux := { p.mux with currentCommand.result := .ok }
      block := some .testing }) :
    Window client before { p with
      mux := { p.mux with currentCommand.result := .ok }
      block := some .testing } := by
  have rejects (transmitting : p.mux.loop.transmitting) :
      response.cmdType = Command.subscribe ∧ p.mux.filterUnion = before.filterUnion := by
    have rejects := window.rejects stage (by rw [window.present transmitting]; rfl)
    rwa [phase] at rejects
  exact
    { sound := sound
      undoable := window.undoable.marked (fun transmitting => (rejects transmitting).2)
        (fun transmitting => by simp [commits, phase, (rejects transmitting).1])
      params := window.params
      others := window.others
      rejects := fun outside => by cases outside }

/-- A statement of `commandComplete`. -/
theorem Window.complete
    (window : Window client before p)
    (running : p.mux.loop ≠ .crashed)
    (fails : ¬p.acceptsOk)
    (restores : p.RestoresOnly client before p.mux.picard) :
    Window client before p.completeStep.1 := by
  have sound := window.sound.complete
  have undoable := window.undoable
  have statement := completeStep_statement p
  generalize p.completeStep = result at sound statement ⊢
  cases statement with
  | rests => exact window
  | expects => exact { window with sound := sound, undoable := undoable }
  | refuses phase =>
      have notCommitting : ¬p.commits := by simp [commits, phase]
      refine window.move sound ?_ rfl (fun _ => ⟨rfl, rfl⟩) (fun _ _ absurd => by cases absurd)
      exact undoable.congr rfl rfl rfl rfl rfl fun _ inside => absurd inside notCommitting
  | rejects phase _ sameType =>
      have notCommitting : ¬p.commits := by simp [commits, phase]
      exact
        { sound := sound
          undoable := undoable.congr rfl rfl rfl rfl rfl
            fun _ inside => absurd inside notCommitting
          params := window.params
          others := window.others
          rejects := fun _ _ => window.accepted running (by rw [phase]; rfl) sameType }
  | @accepts response expectedSeq phase expected sameType sameSeq passed =>
      have subscribe := window.accepted running (by rw [phase]; rfl) sameType
      have isOk : response.respCode = ErrorCode.ok :=
        by_contra fun notOk => passed ⟨subscribe, notOk⟩
      refine absurd ?_ fails
      simp [acceptsOk, phase, expected, sameType, sameSeq, isOk]
  | @restores response phase =>
      have kept : p.mux.prevfilter = before.filterUnion := by
        rw [phase] at restores
        exact restores
      have notCommitting : ¬p.commits := by simp [commits, phase]
      exact
        { sound := sound
          undoable := undoable.restored kept notCommitting
          params := window.params
          others := window.others
          rejects := fun outside present => by
            have rejects := window.rejects outside present
            rw [phase] at rejects
            exact ⟨rejects, kept⟩ }
  | marks phase stage => exact window.mark phase stage sound
  | @finds response phase stage =>
      refine window.move sound ?_ rfl (fun _ => ⟨rfl, rfl⟩) (fun outside => by cases outside)
      refine undoable.congr rfl rfl rfl rfl rfl fun _ inside => Or.inr ?_
      simpa [commits, phase, stage] using inside
  | @skips response phase stage absent =>
      refine window.move sound ?_ rfl (fun _ => ⟨rfl, rfl⟩) (fun _ _ absurd => by cases absurd)
      refine undoable.congr rfl rfl rfl rfl rfl fun transmitting _ => ?_
      rw [window.present transmitting] at absent
      cases absent
  | @writes response phase stage =>
      by_cases subscribe : response.cmdType = Command.subscribe
      · simp only [if_pos subscribe] at sound ⊢
        refine window.move sound ?_ rfl (fun _ => ⟨rfl, rfl⟩) (fun outside => by cases outside)
        refine undoable.congr rfl rfl rfl rfl rfl fun _ inside => Or.inr ?_
        simpa [commits, phase, stage] using inside
      · simp only [if_neg subscribe] at sound ⊢
        refine window.move sound ?_ rfl (fun _ => ⟨rfl, rfl⟩) (fun _ _ absurd => by cases absurd)
        refine undoable.congr rfl rfl rfl rfl rfl fun _ inside => ?_
        simp [commits, phase, subscribe] at inside
  | commits phase stage present =>
      rw [phase] at restores
      exact window.commit running present (restores stage) sound
  | crashes phase stage absent =>
      refine window.move sound ?_ rfl (fun _ => ⟨rfl, rfl⟩) (fun _ _ absurd => by cases absurd)
      refine undoable.congr rfl rfl rfl rfl rfl fun transmitting _ => ?_
      rw [window.present transmitting] at absent
      cases absent

/-! ## The command thread -/

theorem dispatch_undoable
    {cmd : ClientCommand}
    (subscribes : cmd.Subscribes client)
    (union : p.mux.filterUnion = before.filterUnion)
    (pending : (p.mux.objects client).subscriber.newParams =
      (before.objects client).subscriber.params) :
    p.Undoable client before (p.mux.dispatch cmd) := by
  refine Mux.dispatch_cases (fun next => p.Undoable client before next) ?_ ?_ ?_ ?_
  · exact fun _ => trivial
  · exact fun _ _ _ => ⟨union, pending⟩
  · exact fun _ _ _ => ⟨subscribes, union, pending⟩
  · intro _ other
    exact absurd ⟨subscribes.2, by rw [subscribes.1]; rfl⟩ other

theorem attempt_undoable
    {cmd : ClientCommand}
    {i : Nat}
    {result : ClientResult}
    (subscribes : cmd.Subscribes client)
    (kept : p.mux.prevfilter = before.filterUnion)
    (read : p.mux.currentCommand.result = result)
    (done : result = .ok → p.mux.filterUnion = before.filterUnion ∧
      (p.mux.objects client).subscriber.newParams =
        (before.objects client).subscriber.params) :
    p.Undoable client before (Mux.attempt retries cmd i result).1 := by
  refine Mux.attempt_cases (fun next => p.Undoable client before next.1) ?_ ?_
  · refine fun _ _ => ⟨subscribes, kept, fun isOk => ?_⟩
    obtain ⟨union, pending⟩ := done (read.symm.trans isOk)
    exact ⟨union, Or.inl pending⟩
  · exact fun _ => ⟨subscribes, kept, done⟩

/-- The command thread changes the pending filter of the client only. -/
theorem Window.pend
    (window : Window client before p)
    {cmd : ClientCommand}
    {next : LoopPhase}
    {change : Subscriber → Subscriber}
    (sound : Sound { p with mux := { p.mux.updateSubscriber cmd.client change with loop := next } })
    (subscribes : cmd.Subscribes client)
    (undoable : Undoable client before
      { p with mux := { p.mux.updateSubscriber (some client) change with loop := next } } next)
    (keeps : (change (p.mux.objects client).subscriber).params =
      (p.mux.objects client).subscriber.params) :
    Window client before
      { p with mux := { p.mux.updateSubscriber cmd.client change with loop := next } } := by
  rw [subscribes.1] at sound ⊢
  refine ⟨sound, undoable, fun other => ?_, fun other different => ?_, ?_⟩
  · dsimp only
    rw [Mux.updateSubscriber_subscriber]
    split
    · rename_i same
      rw [keeps, same]
      exact window.params client
    · exact window.params other
  · dsimp only
    rw [Mux.updateSubscriber_subscriber, if_neg different]
    exact window.others other different
  · simpa using window.rejects

/-- A statement of the command thread that leaves the filters and its command alone. -/
theorem Window.advance
    (window : Window client before p)
    {next : Process}
    (sound : next.Sound)
    (undoable : next.Undoable client before next.mux.loop)
    (filterUnion : next.mux.filterUnion = p.mux.filterUnion)
    (filters : ∀ other,
      (next.mux.objects other).subscriber.params = (p.mux.objects other).subscriber.params ∧
        (next.mux.objects other).subscriber.newParams =
          (p.mux.objects other).subscriber.newParams)
    (current : next.mux.currentCommand.client = p.mux.currentCommand.client)
    (picard : next.mux.picard = p.mux.picard)
    (block : next.block = p.block) :
    Window client before next :=
  window.move sound undoable filterUnion filters fun outside present _ =>
    ⟨block.symm.trans outside, by rwa [← current], picard⟩

/-- A statement of the command thread that only moves on. -/
theorem Window.walk
    (window : Window client before p)
    {next : LoopPhase}
    (sound : Sound { p with mux := { p.mux with loop := next } })
    (undoable : Undoable client before { p with mux := { p.mux with loop := next } } next) :
    Window client before { p with mux := { p.mux with loop := next } } :=
  window.advance sound undoable rfl (fun _ => ⟨rfl, rfl⟩) rfl rfl rfl

/-- The command thread restores the union. -/
theorem Window.restore
    (window : Window client before p)
    {cmd : ClientCommand}
    (subscribes : cmd.Subscribes client)
    (kept : p.mux.prevfilter = before.filterUnion)
    (sound : Sound { p with
      mux := { p.mux with filterUnion := p.mux.prevfilter, loop := .resetting cmd } }) :
    Window client before { p with
      mux := { p.mux with filterUnion := p.mux.prevfilter, loop := .resetting cmd } } := by
  refine ⟨sound, ⟨subscribes, kept, kept⟩, window.params, window.others, ?_⟩
  intro outside present
  have rejects := window.rejects outside present
  cases picard : p.mux.picard with
  | rejecting response => rwa [picard] at rejects
  | delivering response =>
      rw [picard] at rejects
      exact ⟨rejects.1, kept⟩
  | _ => trivial

/-- A statement that the command thread shares with `Mux`. -/
theorem Window.whole
    (window : Window client before p)
    (sound : Sound { p with mux := (p.mux.loopStep retries).1 })
    (goesOn : p.mux.loop ≠ .checking)
    (installs : p.InstallsBehind p.mux.loop)
    (notRecomputing : ∀ cmd, p.mux.loop ≠ .recomputing cmd)
    (notRecording : ∀ cmd i frame, p.mux.loop ≠ .recording cmd i frame)
    (unlocked : p.mux.loop.isWaiting → p.block = none) :
    Window client before { p with mux := (p.mux.loopStep retries).1 } := by
  have undoable := window.undoable
  have recompute := (window.sound.between notRecomputing notRecording).1
  cases phase : p.mux.loop <;> rw [phase] at undoable <;>
    simp only [Mux.loopStep, phase] at sound ⊢
  case starting => exact absurd undoable id
  case checking => exact absurd phase goesOn
  case popping => exact absurd undoable id
  case finding cmd =>
      obtain ⟨subscribes, union, pending⟩ := undoable
      split at sound <;> split
      · exact window.walk sound (dispatch_undoable subscribes union pending)
      · contradiction
      · contradiction
      · exact window.walk sound ⟨union, pending⟩
  case replying => exact window.walk sound undoable
  case subscribing cmd =>
      obtain ⟨subscribes, union, -⟩ := undoable
      split at sound
      · rename_i params defined
        exact window.pend sound subscribes ⟨subscribes, by rw [recompute]; simpa using union⟩ rfl
      · exact window.walk sound trivial
  case recomputing cmd => exact absurd phase (notRecomputing cmd)
  case rewriting cmd =>
      split at sound
      · exact window.walk sound undoable
      · exact window.walk sound trivial
  case installing cmd =>
      have noResult : cmd.result = .timeout :=
        (window.sound.mux.prepared cmd (by rw [phase]; rfl)).1
      rw [phase] at installs
      refine window.move sound ?_ rfl (fun _ => ⟨rfl, rfl⟩) fun outside _ completing => ?_
      · exact attempt_undoable undoable.1 undoable.2 noResult (by simp)
      · have inside := installs completing
        rw [show p.block = none from outside] at inside
        cases inside
  case sending cmd i => exact window.walk sound undoable
  case recording cmd i frame => exact absurd phase (notRecording cmd i frame)
  case waiting cmd i =>
      have notCommitting : ¬p.commits := by
        have outside := unlocked (by rw [phase]; rfl)
        unfold commits
        split <;> simp [outside]
      refine window.advance sound ?_ rfl (fun _ => ⟨rfl, rfl⟩) rfl rfl rfl
      refine attempt_undoable undoable.1 undoable.2.1 rfl fun isOk => ?_
      obtain ⟨union, pending⟩ := undoable.2.2 isOk
      exact ⟨union, pending.resolve_right notCommitting⟩
  case concluding cmd result =>
      obtain ⟨subscribes, kept, done⟩ := undoable
      split_ifs at sound ⊢ with failed subscribe
      · exact window.walk sound ⟨subscribes, kept⟩
      · exact absurd subscribes.2 subscribe
      · have isOk : result = .ok :=
          by_contra fun notOk => failed ⟨notOk, by rw [subscribes.1]; rfl⟩
        exact window.walk sound ⟨subscribes, kept, done isOk⟩
  case restoring cmd =>
      obtain ⟨subscribes, kept⟩ := undoable
      exact window.restore subscribes kept sound
  case resetting cmd =>
      obtain ⟨subscribes, kept, union⟩ := undoable
      refine window.pend sound subscribes ⟨subscribes, ?_, ?_, ?_⟩ rfl
      · simpa using kept
      · simpa using union
      · dsimp only
        rw [Mux.updateSubscriber_subscriber, if_pos rfl]
        exact window.params client
  case timingOut => exact window.walk sound undoable
  case disconnecting cmd =>
      have same := Mux.resetConnection_same p.mux
      have samePicard := (Mux.resetConnection_threads p.mux).1
      split at sound <;> rename_i closed reset <;> rw [reset] at same samePicard
      · refine window.advance sound ?_ same.filterUnion
          (fun other => ⟨by rw [same.subscriber], by rw [same.subscriber]⟩)
          (by rw [same.currentCommand]) samePicard rfl
        have kept : Undoable client before { p with mux := closed } (.disconnecting cmd) :=
          undoable.congr same.filterUnion same.prevfilter (by rw [same.subscriber])
            (by rw [same.currentCommand]) rfl fun absurd => by cases absurd
        exact kept
      · exact window.advance sound trivial same.filterUnion
          (fun other => ⟨by rw [same.subscriber], by rw [same.subscriber]⟩)
          (by rw [same.currentCommand]) samePicard rfl
  case clearing cmd =>
      refine window.move sound undoable.2.2 rfl (fun _ => ⟨rfl, rfl⟩) ?_
      exact fun _ present => by cases present
  case finished => exact absurd undoable id
  case crashed => exact window

/-- A statement of the command thread while a SUBSCRIBE that fails is processed. -/
theorem Window.loop
    (window : Window client before p)
    (running : ¬p.mux.hasCrashed)
    (goesOn : p.mux.loop ≠ .checking)
    (installs : p.InstallsBehind p.mux.loop) :
    Window client before (p.loopStep retries).1 := by
  have sound := @Sound.loop retries p window.sound running
  have undoable := window.undoable
  have agrees := window.sound.mux.agrees
  have statement := @loopStep_statement retries p running
  generalize p.loopStep retries = result at sound statement ⊢
  cases statement with
  | waits => exact window
  | @unites cmd phase called | @compares cmd _ phase called =>
      rw [phase] at undoable
      simp only [Undoable, called] at undoable
      refine window.advance sound ?_ rfl (fun _ => ⟨rfl, rfl⟩) rfl rfl rfl
      dsimp only
      rw [phase]
      exact undoable
  | @saves cmd _ _ phase stage =>
      rw [phase] at undoable
      simp only [Undoable, stage] at undoable
      refine window.advance sound ?_ rfl (fun _ => ⟨rfl, rfl⟩) rfl rfl rfl
      dsimp only
      rw [phase]
      exact undoable
  | @stores cmd _ _ phase stage =>
      rw [phase] at undoable agrees
      simp only [Undoable, stage] at undoable
      refine ⟨sound, undoable, window.params, window.others, fun _ present => ?_⟩
      rw [show p.mux.currentCommand.client = none from agrees.1] at present
      cases present
  | @records cmd i frame phase =>
      refine window.advance sound ?_ rfl (fun _ => ⟨rfl, rfl⟩) rfl rfl rfl
      exact undoable.congr rfl rfl rfl rfl rfl fun _ => Or.inr
  | @sends cmd i frame phase =>
      rw [phase] at undoable
      refine window.advance sound ?_ rfl (fun _ => ⟨rfl, rfl⟩) rfl rfl rfl
      exact undoable
  | whole notRecomputing notRecording unlocked =>
      exact window.whole sound goesOn installs notRecomputing notRecording unlocked

/-! ## Steps and runs -/

/-- The other steps, no departure among them. -/
theorem Window.aside
    (window : Window client before p)
    {action : Action}
    (notLoop : action ≠ .loop)
    (notComplete : action ≠ .complete)
    (fails : p.Fails action) :
    Window client before (p.step retries action).1 := by
  have notErase : action ≠ .eraseClient := by
    rintro rfl
    exact fails
  obtain ⟨filterUnion, prevfilter, subscriber⟩ :=
    step_filters retries p notLoop notComplete notErase
  obtain ⟨loop, recompute, -⟩ := step_commandThread retries p notLoop
  have current : (p.step retries action).1.mux.currentCommand = p.mux.currentCommand :=
    (step_currentCommand retries p notLoop notComplete).resolve_right
      fun erases => notErase erases.1
  have block := step_block retries p notLoop notComplete
  have picard := step_picard retries p notComplete
  refine window.move (step_sound action window.sound) ?_ filterUnion
    (fun other => ⟨by rw [subscriber], by rw [subscriber]⟩) fun outside present completing => ?_
  · rw [loop]
    refine window.undoable.congr filterUnion prevfilter (by rw [subscriber]) (by rw [current])
      recompute fun _ inside => Or.inr ?_
    rcases picard with same | ⟨reading, -⟩
    · rw [commits, same, block]
      exact inside
    · simp [commits, reading] at inside
  · rw [block] at outside
    rw [current] at present
    exact ⟨outside, present, picard.resolve_right fun moved => moved.2 completing⟩

theorem Window.step
    (window : Window client before p)
    {action : Action}
    (fails : p.Fails action)
    (rollsBack : p.RollsBack client before action) :
    Window client before (p.step retries action).1 := by
  by_cases crashed : p.mux.hasCrashed
  · rw [step_of_crashed crashed]
    exact window
  by_cases loop : action = .loop
  · subst loop
    rw [step_loop crashed]
    exact window.loop crashed fails (rollsBack.1 rfl)
  by_cases complete : action = .complete
  · subst complete
    rw [step_complete crashed]
    exact window.complete (Mux.not_hasCrashed_iff.mp crashed).1 fails (rollsBack.2 rfl)
  · exact window.aside loop complete fails

/-- The window opens when the command is popped. -/
theorem window_opens
    {cmd : ClientCommand}
    {rest : List ClientCommand}
    (sound : p.Sound)
    (running : ¬p.mux.hasCrashed)
    (popping : p.mux.loop = .popping)
    (queued : p.mux.commands = cmd :: rest)
    (subscribes : cmd.Subscribes client)
    (settled : p.Settled client) :
    Window client p.mux (p.step retries .loop).1 := by
  have cleared := sound.mux.agrees
  rw [popping] at cleared
  have opened := @step_sound retries p .loop sound
  have popped : (p.step retries .loop).1 =
      { p with mux := { p.mux with commands := rest, loop := .finding cmd } } := by
    rw [step_loop running]
    simp only [loopStep, popping, outerStep, Mux.step, if_neg running, Mux.perform, Mux.loopStep,
      queued]
  rw [popped] at opened ⊢
  refine ⟨opened, ⟨subscribes, rfl, settled⟩, fun _ => rfl, fun _ _ => rfl, fun _ present => ?_⟩
  rw [show p.mux.currentCommand.client = none from cleared.1] at present
  cases present

/-- In a reachable state a client's SUBSCRIBE is next, and the client has no pending
filter.  When the command thread has finished the command, which Picard has not answered
OK, all filters are what they were, if every step rolls back. -/
theorem failed_subscribe_changes_nothing
    {cmd : ClientCommand}
    {rest : List ClientCommand}
    {actions : List Action}
    (reachable : Reachable retries p)
    (popping : p.mux.loop = .popping)
    (queued : p.mux.commands = cmd :: rest)
    (subscribes : cmd.Subscribes client)
    (settled : p.Settled client)
    (fails : Machine.Meets (step retries) Fails (p.step retries .loop).1 actions)
    (rollsBack : Machine.Meets (step retries) (RollsBack client p.mux)
      (p.step retries .loop).1 actions)
    (finished : (Machine.run (step retries) p (.loop :: actions)).1.mux.loop = .checking) :
    Mux.SameFilters p.mux (Machine.run (step retries) p (.loop :: actions)).1.mux := by
  have running : ¬p.mux.hasCrashed := by
    intro crashed
    rw [run_of_crashed crashed, popping] at finished
    cases finished
  have opened : Window client p.mux (p.step retries .loop).1 :=
    window_opens (reachable_sound reachable) running popping queued subscribes settled
  rw [Machine.run_cons] at finished ⊢
  have window := Machine.state_invariant_run (Window client p.mux)
    (fun _ _ window conditions => window.step conditions.1 conditions.2) opened
    (Machine.meets_and.2 ⟨fails, rollsBack⟩)
  have restored := window.undoable
  rw [finished] at restored
  refine ⟨restored.1, window.params, fun other => ?_⟩
  by_cases same : other = client
  · rw [same]
    exact restored.2.trans settled.symm
  · exact window.others other same

/-- A registered client has sent a SUBSCRIBE, which is next. -/
def subscribeNext : Process :=
  (Machine.run (step 2) (start {} 4)
    [.addClient 1, .addCommand 1 (subscribeTo 16), .loop, .loop]).1

/-- Picard answers a SUBSCRIBE that is next with a response code, and the command thread
finishes it. -/
def answerSubscribe (seqNo respCode : Byte) : List Action :=
  List.flatten [List.replicate 11 .loop, [.receive [3, 22, seqNo, 1, respCode]],
    List.replicate 7 .complete, List.replicate 3 .loop]

/-- The client has the filter that it asks for once more. -/
def subscribeAgain : Process :=
  (Machine.run (step 2) subscribeNext
    (.loop :: answerSubscribe 0 0 ++ [.addCommand 1 (subscribeTo 16), .loop])).1

/-- The second SUBSCRIBE is rejected. -/
theorem failed_subscribe_changes_nothing_example :
    Mux.SameFilters subscribeAgain.mux
      (Machine.run (step 2) subscribeAgain (.loop :: answerSubscribe 1 1)).1.mux :=
  failed_subscribe_changes_nothing (Reachable.run ⟨{}, 4, _, rfl⟩ _) (by decide +kernel)
    (show subscribeAgain.mux.commands = [{ client := some 1, command := subscribeTo 16 }] by
      decide +kernel)
    ⟨rfl, by decide⟩ (by decide +kernel) (by decide +kernel) (by decide +kernel)
    (by decide +kernel)

/-- The SUBSCRIBE is rejected: the filter union is restored, but the client's
filter is the rejected one, also for the notifications it gets. -/
theorem rejected_subscribe_is_committed :
    let finished := (Machine.run (step 2) subscribeNext (.loop :: answerSubscribe 0 1)).1
    finished.mux.loop = .checking ∧
      finished.mux.filterUnion = subscribeNext.mux.filterUnion ∧
      (subscribeNext.mux.objects 1).subscriber.params = {} ∧
      (finished.mux.objects 1).subscriber.params = { filter := 16 } ∧
      finished.mux.clients = [1] := by
  decide +kernel

end Process

end SerialMux
