import SerialMux.ResetProgress

/-!
# When the listener starts to accept clients

The listen thread is there to have the protocol version from the Hello Response before clients
are accepted.  `waitForHello` returns whether there is a connection, and `listen_thread` does not
look at it: a thread that wakes for another reason than the response accepts clients as well.
-/

namespace SerialMux

/-- The thread has notified the listen thread, and goes on to end the service. -/
def PicardThread.hasNotified : PicardThread → Bool
  | .resetting reset _ => reset ≠ .notifying
  | .absent | .testing | .reading _ | .finished => false

def ClientThread.hasNotified : ClientThread → Bool
  | .resetting reset => reset ≠ .notifying
  | .absent | .starting | .testing | .working | .finished => false

def StopperThread.hasNotified : StopperThread → Bool
  | .resetting reset => reset ≠ .notifying
  | .idle | .flagging | .entering | .blocked | .returned => false

theorem PicardThread.hasNotified_iff {phase : PicardThread} :
    phase.hasNotified = true ↔
      ∃ reset left, phase = .resetting reset left ∧ reset ≠ .notifying := by
  cases phase <;> simp [hasNotified]

theorem ClientThread.hasNotified_iff {phase : ClientThread} :
    phase.hasNotified = true ↔ ∃ reset, phase = .resetting reset ∧ reset ≠ .notifying := by
  cases phase <;> simp [hasNotified]

theorem StopperThread.hasNotified_iff {phase : StopperThread} :
    phase.hasNotified = true ↔ ∃ reset, phase = .resetting reset ∧ reset ≠ .notifying := by
  cases phase <;> simp [hasNotified]

namespace Lifecycle

variable {l : Lifecycle}

/-- A reset has come to its notification, and the components are not yet deleted. -/
def UnderReset (l : Lifecycle) : Prop :=
  l.TearsDown ∨ l.serviceStopped = true ∨ l.picard.hasNotified = true ∨
    l.client.hasNotified = true ∨ l.stopper.hasNotified = true

instance (l : Lifecycle) : Decidable l.UnderReset :=
  inferInstanceAs (Decidable (_ ∨ _ ∨ _ ∨ _ ∨ _))

/-- The listen thread need no longer wait. -/
def Answered (l : Lifecycle) : Prop :=
  l.connected = true ∨ l.UnderReset

/-- The listen thread is past `waitForHello`. -/
def PastWait (l : Lifecycle) : Prop :=
  l.listen = .listening ∨ l.listen = .finished

theorem resetStep_serviceStopped (reset : ResetPhase) (stopped : l.serviceStopped = true) :
    (l.resetStep reset).1.serviceStopped = true := by
  cases reset <;> simp only [resetStep]
  · split <;> exact stopped
  all_goals exact stopped

/-- Behind a notification, or with one, a reset goes on to end the service. -/
theorem resetStep_goesOn
    {reset : ResetPhase}
    (goesOn : reset ≠ .notifying ∨ l.picardIo = true) :
    (∃ next, (l.resetStep reset).2.1 = some next ∧ next ≠ .notifying) ∨
      (l.resetStep reset).2.1 = none ∧ (l.resetStep reset).1.serviceStopped = true := by
  cases reset <;> simp_all [resetStep]

theorem step_serviceStopped
    {action : LifecycleAction}
    (stopped : l.serviceStopped = true)
    (notMain : action.thread ≠ some .main) :
    (step l action).1.serviceStopped = true := by
  cases action with
  | main => exact absurd rfl notMain
  | listen => rw [step, listenStep_frame, stopped]
  | wakeListen => exact stopped
  | stop | wakeStopper =>
      simp only [step]
      split <;> exact stopped
  | picard result =>
      simp only [step, picardStep]
      cases l.picard with
      | absent | testing | finished => exact stopped
      | resetting reset left => exact resetStep_serviceStopped reset stopped
      | reading left =>
          cases left with
          | zero => exact stopped
          | succ left =>
              cases result <;> dsimp only <;> first | exact stopped | (split <;> exact stopped)
  | client timesOut =>
      simp only [step, clientStep]
      cases l.client with
      | resetting reset => exact resetStep_serviceStopped reset stopped
      | absent | starting | testing | working | finished => exact stopped
  | stopper =>
      simp only [step, stopperStep]
      cases l.stopper with
      | resetting reset => exact resetStep_serviceStopped reset stopped
      | idle | flagging | entering | blocked | returned => exact stopped

theorem picardStep_underReset
    {reset : ResetPhase}
    {left : Option Nat}
    (result : ReadResult)
    (resetting : l.picard = .resetting reset left)
    (goesOn : reset ≠ .notifying ∨ l.picardIo = true) :
    (l.picardStep result).1.UnderReset := by
  unfold picardStep
  rw [resetting]
  rcases resetStep_goesOn goesOn with ⟨next, goes, later⟩ | ⟨-, stopped⟩
  · refine Or.inr (Or.inr (Or.inl ?_))
    simpa [goes, PicardThread.hasNotified] using later
  · exact Or.inr (Or.inl stopped)

theorem clientStep_underReset
    {reset : ResetPhase}
    (timesOut : Bool)
    (resetting : l.client = .resetting reset)
    (goesOn : reset ≠ .notifying ∨ l.picardIo = true) :
    (l.clientStep timesOut).1.UnderReset := by
  unfold clientStep
  rw [resetting]
  rcases resetStep_goesOn goesOn with ⟨next, goes, later⟩ | ⟨-, stopped⟩
  · refine Or.inr (Or.inr (Or.inr (Or.inl ?_)))
    simpa [goes, ClientThread.hasNotified] using later
  · exact Or.inr (Or.inl stopped)

theorem stopperStep_underReset
    {reset : ResetPhase}
    (resetting : l.stopper = .resetting reset)
    (goesOn : reset ≠ .notifying ∨ l.picardIo = true) :
    l.stopperStep.1.UnderReset := by
  unfold stopperStep
  rw [resetting]
  rcases resetStep_goesOn goesOn with ⟨next, goes, later⟩ | ⟨-, stopped⟩
  · refine Or.inr (Or.inr (Or.inr (Or.inr ?_)))
    simpa [goes, StopperThread.hasNotified] using later
  · exact Or.inr (Or.inl stopped)

theorem step_stopper_resetting
    {action : LifecycleAction}
    {reset : ResetPhase}
    (resetting : l.stopper = .resetting reset)
    (notMain : action.thread ≠ some .main)
    (notStopper : action ≠ .stopper) :
    (step l action).1.stopper = l.stopper := by
  cases action with
  | main => exact absurd rfl notMain
  | stopper => exact absurd rfl notStopper
  | picard result => exact (l.picardStep_frame result).2.2.1
  | client timesOut => exact (l.clientStep_frame timesOut).2.2.1
  | listen => rw [step, listenStep_frame]
  | wakeListen => rfl
  | stop | wakeStopper => simp [step, resetting]

/-- A reset goes on until the main thread has deleted the components. -/
theorem underReset_kept
    {action : LifecycleAction}
    (under : l.UnderReset)
    (notMain : action.thread ≠ some .main) :
    (step l action).1.UnderReset := by
  rcases under with tearsDown | stopped | picard | client | stopper
  · exact Or.inl (by rwa [TearsDown, step_main notMain])
  · exact Or.inr (Or.inl (step_serviceStopped stopped notMain))
  · by_cases isPicard : action.thread = some .picard
    · obtain ⟨result, rfl⟩ := thread_eq_picard.mp isPicard
      obtain ⟨reset, left, resetting, later⟩ := PicardThread.hasNotified_iff.mp picard
      exact picardStep_underReset result resetting (Or.inl later)
    · exact Or.inr (Or.inr (Or.inl (by rwa [step_picard notMain isPicard])))
  · by_cases isClient : action.thread = some .client
    · obtain ⟨timesOut, rfl⟩ := thread_eq_client.mp isClient
      obtain ⟨reset, resetting, later⟩ := ClientThread.hasNotified_iff.mp client
      exact clientStep_underReset timesOut resetting (Or.inl later)
    · exact Or.inr (Or.inr (Or.inr (Or.inl (by rwa [(step_client notMain isClient).1]))))
  · obtain ⟨reset, resetting, later⟩ := StopperThread.hasNotified_iff.mp stopper
    by_cases isStopper : action = .stopper
    · rw [isStopper]
      exact stopperStep_underReset resetting (Or.inl later)
    · have same := step_stopper_resetting resetting notMain isStopper
      exact Or.inr (Or.inr (Or.inr (Or.inr (by rwa [same]))))

/-- A notification comes with a Hello Response or with a reset. -/
theorem step_pastWait
    {action : LifecycleAction}
    (ordered : Ordered l)
    (notMain : action.thread ≠ some .main)
    (notWoken : action ≠ .wakeListen)
    (waits : ¬l.PastWait)
    (past : (step l action).1.PastWait) :
    (step l action).1.Answered := by
  have exists' : l.listen ≠ .absent := by
    intro absent
    have next := (step_ordered ordered action).listen
    rw [step_main notMain, ← ordered.listen, absent] at next
    simp [PastWait, next.mpr rfl] at past
  have present := (ordered.alive (Or.inr (Or.inr exists'))).1
  have changes : (step l action).1.listen ≠ l.listen := by
    intro same
    exact waits (by rwa [PastWait, same] at past)
  cases action with
  | main => exact absurd rfl notMain
  | wakeListen => exact absurd rfl notWoken
  | stop | wakeStopper =>
      refine absurd ?_ changes
      simp only [step]
      split <;> rfl
  | listen =>
      left
      cases phase : l.listen with
      | absent => exact absurd phase exists'
      | listening => exact absurd (Or.inl phase) waits
      | finished => exact absurd (Or.inr phase) waits
      | blocked => exact absurd (by simp [step, listenStep, phase]) changes
      | entering => simp [PastWait, step, listenStep, phase] at past
      | checking =>
          by_cases connected : l.connected = true
          · simpa [step, listenStep, phase] using connected
          · simp [PastWait, step, listenStep, phase, connected] at past
  | picard result =>
      by_cases resetting : ∃ reset left, l.picard = .resetting reset left
      · obtain ⟨reset, left, phase⟩ := resetting
        exact Or.inr (picardStep_underReset result phase (Or.inr present))
      · left
        unfold step picardStep at changes ⊢
        cases phase : l.picard with
        | resetting reset left => exact absurd ⟨reset, left, phase⟩ resetting
        | absent | testing | finished => simp [phase] at changes
        | reading left =>
            cases left with
            | zero => simp [phase] at changes
            | succ left =>
                cases result with
                | nothing | callback | mgrHello | portError => simp [phase] at changes
                | helloResponse =>
                    dsimp only
                    split
                    · assumption
                    · rfl
  | client timesOut =>
      refine absurd ?_ changes
      simp only [step, clientStep]
      cases phase : l.client with
      | resetting reset => exact absurd (Or.inr (ordered.listened reset phase)) waits
      | absent | starting | testing | working | finished => rfl
  | stopper =>
      cases phase : l.stopper with
      | resetting reset => exact Or.inr (stopperStep_underReset phase (Or.inr present))
      | idle | flagging | entering | blocked | returned =>
          exact absurd (by simp [step, stopperStep, phase]) changes

/-- The main thread tears down after the service has ended, and joins the listen thread then. -/
theorem mainStep_answered
    {opens : Bool}
    (ordered : Ordered l)
    (known : l.PastWait → l.Answered)
    (past : (l.mainStep opens).PastWait) :
    (l.mainStep opens).Answered := by
  cases phase : l.main
  case running =>
    by_cases stopped : l.serviceStopped = true
    · exact Or.inr (Or.inl (by
        simp [mainStep, phase, stopped, TearsDown, MainPhase.Between, MainPhase.place]))
    · have same : l.mainStep opens = l := by simp [mainStep, phase, stopped]
      rw [same] at past ⊢
      exact known past
  case resettingAgain | unregistering | stoppingManager | joiningClient | joiningListen =>
    have tearsDown : l.TearsDown := by
      simp [TearsDown, phase, MainPhase.Between, MainPhase.place]
    refine Or.inr (Or.inl ((mainStep_within tearsDown opens).resolve_right ?_))
    simp only [mainStep, phase]
    first | simp | (split <;> simp [phase])
  all_goals
    have absent : l.listen = .absent := by
      rw [ordered.listen, phase]
      decide
    simp only [PastWait, mainStep, phase] at past
    try split at past
    all_goals simp [absent] at past

/-- The threads are where the main one is, and a listen thread that does not wait is answered. -/
def ListensInTime (l : Lifecycle) : Prop :=
  Ordered l ∧ (l.PastWait → l.Answered)

theorem step_listensInTime
    {action : LifecycleAction}
    (inTime : l.ListensInTime)
    (notWoken : action ≠ .wakeListen) :
    (step l action).1.ListensInTime := by
  obtain ⟨ordered, known⟩ := inTime
  refine ⟨step_ordered ordered action, fun past => ?_⟩
  by_cases isMain : action.thread = some .main
  · obtain ⟨opens, rfl⟩ := thread_eq_main.mp isMain
    exact mainStep_answered ordered known past
  by_cases before : l.PastWait
  · exact (known before).imp (step_connected · isMain) (underReset_kept · isMain)
  · exact step_pastWait ordered isMain notWoken before past

/-- In every run in which the listen thread does not wake for no reason, the listener accepts
clients only behind a Hello Response of the manager, unless the connection is being reset. -/
theorem listens_behind_hello
    (actions : List LifecycleAction)
    (noWake : .wakeListen ∉ actions)
    (listens : (Machine.run step {} actions).1.listen = .listening) :
    (Machine.run step {} actions).1.connected = true ∨
      (Machine.run step {} actions).1.UnderReset := by
  have meets : Machine.Meets step (fun _ action => action ≠ .wakeListen) {} actions :=
    Machine.meets_of_forall _ fun _ member _ => ne_of_mem_of_not_mem member noWake
  have inTime := Machine.state_invariant_run ListensInTime
    (fun _ _ inTime notWoken => step_listensInTime inTime notWoken)
    ⟨initially_ordered, by simp [PastWait]⟩ meets
  exact inTime.2 (Or.inl listens)

theorem listens_behind_hello_example :
    (Machine.run step {} (List.replicate 9 (.main true) ++
      [.picard .nothing, .picard .helloResponse, .listen])).1.connected = true ∨
      (Machine.run step {} (List.replicate 9 (.main true) ++
        [.picard .nothing, .picard .helloResponse, .listen])).1.UnderReset :=
  listens_behind_hello _ (by decide) (by decide +kernel)

/-- A listen thread that wakes for no reason accepts clients without a Hello Response. -/
example :
    let l := (Machine.run step {} (List.replicate 9 (.main true) ++
      [.listen, .listen, .wakeListen])).1
    l.listen = .listening ∧ l.connected = false ∧ ¬l.UnderReset := by
  decide +kernel

end Lifecycle

end SerialMux
