import SerialMux.ResetProgress

/-!
# When a reset hangs

The command thread sets its own flag to true when it starts, and `waitForHello` waits without a
loop.  A reset hangs where the command thread starts behind the call that clears the flag, or
where the listen thread waits behind the last notification.
-/

namespace SerialMux

/-- The Picard thread goes on to read, or to the rest of a read. -/
def PicardThread.goesOn (running : Bool) : PicardThread → Bool
  | .testing => running
  | .reading left => left ≠ 0 || running
  | .resetting _ left => left.any (· ≠ 0)
  | .absent | .finished => false

/-- A Picard connection that is stopped does not make its thread go on. -/
theorem PicardThread.goesOn_eq_false
    {phase : PicardThread}
    {running next : Bool}
    (stops : running = false → next = false)
    (noRead : phase.goesOn running = false) :
    phase.goesOn next = false := by
  cases phase with
  | testing => exact stops noRead
  | reading left =>
      obtain ⟨none, stopped⟩ : left = 0 ∧ running = false := by simpa [goesOn] using noRead
      simp [goesOn, none, stops stopped]
  | absent | resetting | finished => exact noRead

namespace Lifecycle

variable {l : Lifecycle}

/-! ## Resets that hang -/

/-- The command thread is joined, and has not started or has not been told to end. -/
def ClientStuck (l : Lifecycle) : Prop :=
  l.main = .joiningClient ∧ l.client ≠ .finished ∧
    (l.client = .starting ∨ l.managerRunning = true)

instance (l : Lifecycle) : Decidable l.ClientStuck := inferInstanceAs (Decidable (_ ∧ _ ∧ _))

/-- The Picard thread may read a Hello or a failure, or a thread has begun to reset. -/
def CanNotify (l : Lifecycle) : Prop :=
  l.picard.goesOn l.picardRunning = true ∨ l.AboutToNotify

instance (l : Lifecycle) : Decidable l.CanNotify := inferInstanceAs (Decidable (_ ∨ _))

/-- The listen thread waits or is about to. -/
def Waits (l : Lifecycle) : Prop :=
  l.listen = .checking ∧ l.connected = false ∨ l.listen = .entering ∨ l.listen = .blocked

instance (l : Lifecycle) : Decidable l.Waits := inferInstanceAs (Decidable (_ ∨ _ ∨ _))

/-- The listen thread has to be joined and waits, and nobody is left to notify it. -/
def ListenStuck (l : Lifecycle) : Prop :=
  MainPhase.Between .resettingAgain .joiningListen l.main ∧ l.Waits ∧ ¬l.CanNotify

instance (l : Lifecycle) : Decidable l.ListenStuck := inferInstanceAs (Decidable (_ ∧ _ ∧ _))

/-- A command thread that hangs goes on to hang. -/
theorem clientStuck_kept
    (stuck : l.ClientStuck)
    (action : LifecycleAction) :
    (step l action).1.ClientStuck := by
  obtain ⟨joins, notFinished, untold⟩ := stuck
  by_cases isMain : action.thread = some .main
  · obtain ⟨opens, rfl⟩ := thread_eq_main.mp isMain
    have same : l.mainStep opens = l := by simp [mainStep, joins, notFinished]
    rw [step, same]
    exact ⟨joins, notFinished, untold⟩
  refine ⟨(step_main isMain).trans joins, ?_⟩
  by_cases isClient : action.thread = some .client
  · obtain ⟨timesOut, rfl⟩ := thread_eq_client.mp isClient
    simp only [step, clientStep]
    cases phase : l.client with
    | finished => exact absurd phase notFinished
    | absent => exact ⟨notFinished, untold⟩
    | starting => simp
    | testing | working =>
        have running : l.managerRunning = true := by simpa [phase] using untold
        dsimp only
        split <;> simp_all
    | resetting reset =>
        have running : l.managerRunning = true := by simpa [phase] using untold
        cases further : (l.resetStep reset).2.1 <;> simp [further, running]
  · obtain ⟨client, flag⟩ := step_client (l := l) isMain isClient
    rw [client, flag]
    exact ⟨notFinished, untold⟩

/-- The listen thread waits while nobody is about to notify it. -/
structure Quiet (l : Lifecycle) : Prop where
  ordered : Ordered l
  between : MainPhase.Between .resettingAgain .joiningListen l.main
  waits : l.Waits
  silent : ¬l.AboutToNotify

/-- A reset goes past its first statement, and reading nothing starts none. -/
theorem picardStep_passes
    {result : ReadResult}
    (nothing : ∀ left, l.picard = .reading (left + 1) → result = .nothing) :
    (l.picardStep result).1.connected = l.connected ∧
      (l.picardStep result).1.picard.notifies = false := by
  unfold picardStep
  cases phase : l.picard with
  | absent | finished => exact ⟨rfl, by simp [phase, PicardThread.notifies]⟩
  | testing => exact ⟨rfl, by dsimp only; split <;> rfl⟩
  | reading left =>
      cases left with
      | zero => exact ⟨rfl, rfl⟩
      | succ left =>
          rw [nothing left phase]
          exact ⟨rfl, rfl⟩
  | resetting reset left =>
      exact ⟨by simp, PicardThread.notifies_elim (l.resetStep_ne_notifying reset) left⟩

theorem stopperStep_passes (l : Lifecycle) :
    l.stopperStep.1.stopper ≠ .flagging ∧
      (l.stopper ≠ .flagging → l.stopperStep.1.stopper ≠ .resetting .notifying) := by
  unfold stopperStep
  cases phase : l.stopper with
  | idle | blocked | returned => simp [phase]
  | flagging | entering => simp
  | resetting reset =>
      have notAgain := l.resetStep_ne_notifying reset
      cases further : (l.resetStep reset).2.1 with
      | none => simp [further]
      | some next =>
          rw [further] at notAgain
          simpa [further] using notAgain

theorem picardStep_silent
    {result : ReadResult}
    (present : l.picardIo = true)
    (notNotifying : l.picard.notifies = false)
    (nothing : ∀ left, l.picard = .reading (left + 1) → result = .nothing) :
    (l.picardStep result).1.listen = l.listen := by
  unfold picardStep
  cases phase : l.picard with
  | absent | testing | finished => rfl
  | reading left =>
      cases left with
      | zero => rfl
      | succ left => rw [nothing left phase]
  | resetting reset left =>
      have later : reset ≠ .notifying := by simpa [phase, PicardThread.notifies] using notNotifying
      simp [resetStep_listen present, later]

theorem stopperStep_silent
    (present : l.picardIo = true)
    (notNotifying : l.stopper ≠ .resetting .notifying) :
    l.stopperStep.1.listen = l.listen := by
  unfold stopperStep
  cases phase : l.stopper with
  | idle | flagging | entering | blocked | returned => rfl
  | resetting reset =>
      have later : reset ≠ .notifying := by simpa [phase] using notNotifying
      simp [resetStep_listen present, later]

theorem Waits.not_finished (waits : l.Waits) : l.listen ≠ .finished := by
  rcases waits with ⟨checking, -⟩ | entering | blocked <;> simp_all

/-- The main thread joins no waiting listen thread, and leaves alone what it waits for. -/
theorem mainStep_waits
    (between : MainPhase.Between .resettingAgain .joiningListen l.main)
    (waits : l.Waits)
    (opens : Bool) :
    MainPhase.Between .resettingAgain .joiningListen (l.mainStep opens).main ∧
      (l.mainStep opens).listen = l.listen ∧ (l.mainStep opens).connected = l.connected ∧
      (l.mainStep opens).picard = l.picard ∧ (l.mainStep opens).stopper = l.stopper ∧
      (l.mainStep opens).picardRunning = l.picardRunning := by
  have notFinished := waits.not_finished
  cases phase : l.main
  case resettingAgain | unregistering | stoppingManager =>
    simp [mainStep, phase, MainPhase.Between, MainPhase.place]
  case joiningClient =>
    simp only [mainStep, phase]
    split <;> simp [phase, MainPhase.Between, MainPhase.place]
  case joiningListen =>
    simp only [mainStep, phase, notFinished]
    exact ⟨by rw [if_neg not_false, phase]; decide, by simp⟩
  all_goals simp [phase, MainPhase.Between, MainPhase.place] at between

/-- The listen thread goes on to wait unless `serial_mux_stop` is called, the thread wakes for
no reason, or the Picard thread reads a Hello or fails to read. -/
theorem quiet_kept
    {action : LifecycleAction}
    (quiet : l.Quiet)
    (notStop : action ≠ .stop)
    (notWoken : action ≠ .wakeListen)
    (nothing : ∀ result left, action = .picard result → l.picard = .reading (left + 1) →
      result = .nothing) :
    (step l action).1.Quiet := by
  obtain ⟨ordered, between, waits, silent⟩ := quiet
  have ordered' := step_ordered ordered action
  have present := (tearsDown_of_between between).present ordered
  simp only [AboutToNotify, not_or, Bool.not_eq_true] at silent
  obtain ⟨picard, flagging, stopper⟩ := silent
  by_cases isMain : action.thread = some .main
  · obtain ⟨opens, rfl⟩ := thread_eq_main.mp isMain
    obtain ⟨between', listen, connected, samePicard, sameStopper, -⟩ :=
      mainStep_waits between waits opens
    refine ⟨ordered', between', ?_, ?_⟩
    · rwa [step, Waits, listen, connected]
    · rw [step, AboutToNotify, samePicard, sameStopper]
      simp [picard, flagging, stopper]
  have between' : MainPhase.Between .resettingAgain .joiningListen (step l action).1.main := by
    rwa [step_main isMain]
  suffices both : (step l action).1.Waits ∧ ¬(step l action).1.AboutToNotify from
    ⟨ordered', between', both.1, both.2⟩
  cases action with
  | main => exact absurd rfl isMain
  | stop => exact absurd rfl notStop
  | wakeListen => exact absurd rfl notWoken
  | picard result =>
      have listen := picardStep_silent present picard fun left => nothing result left rfl
      obtain ⟨connected, notNotifying⟩ := picardStep_passes fun left => nothing result left rfl
      have sameStopper := (l.picardStep_frame result).2.2.1
      refine ⟨by rwa [step, Waits, listen, connected], ?_⟩
      rw [step, AboutToNotify, sameStopper]
      simp [notNotifying, flagging, stopper]
  | stopper =>
      have listen := stopperStep_silent present stopper
      obtain ⟨notFlagging, notNotifying⟩ := l.stopperStep_passes
      obtain ⟨-, samePicard, -, connected, -⟩ := l.stopperStep_frame
      refine ⟨by rwa [step, Waits, listen, connected], ?_⟩
      rw [step, AboutToNotify, samePicard]
      simp [notNotifying flagging, notFlagging, picard]
  | client timesOut =>
      obtain ⟨-, samePicard, sameStopper, connected⟩ := l.clientStep_frame timesOut
      have listen : (l.clientStep timesOut).1.listen = l.listen := by
        unfold clientStep
        cases phase : l.client with
        | resetting reset => exact absurd (ordered.listened reset phase) waits.not_finished
        | absent | starting | testing | working | finished => rfl
      refine ⟨by rwa [step, Waits, listen, connected], ?_⟩
      rw [step, AboutToNotify, samePicard, sameStopper]
      simp [picard, flagging, stopper]
  | listen =>
      refine ⟨?_, ?_⟩
      · rcases waits with ⟨checking, unconnected⟩ | entering | blocked
        · exact Or.inr (Or.inl (by simp [step, listenStep, checking, unconnected]))
        · exact Or.inr (Or.inr (by simp [step, listenStep, entering]))
        · exact Or.inr (Or.inr (by simp [step, listenStep, blocked]))
      · rw [step, listenStep_frame]
        simp [AboutToNotify, picard, flagging, stopper]
  | wakeStopper =>
      simp only [step]
      split
      · exact ⟨waits, by simp [AboutToNotify, picard]⟩
      · exact ⟨waits, by simp [AboutToNotify, picard, flagging, stopper]⟩

/-- A stopped Picard connection starts no more in a reset. -/
theorem step_stopped
    {action : LifecycleAction}
    (stopped : l.picardRunning = false)
    (notMain : action.thread ≠ some .main) :
    (step l action).1.picardRunning = false := by
  have resets (reset : ResetPhase) : (l.resetStep reset).1.picardRunning = false :=
    (l.resetStep_frame reset).1.stopped stopped
  cases action with
  | main => exact absurd rfl notMain
  | listen => rw [step, listenStep_frame, stopped]
  | wakeListen => exact stopped
  | stop | wakeStopper =>
      simp only [step]
      split <;> exact stopped
  | picard result =>
      simp only [step, picardStep]
      cases l.picard with
      | absent | testing | finished => exact stopped
      | resetting reset left => exact resets reset
      | reading left =>
          cases left with
          | zero => exact stopped
          | succ left =>
              cases result <;> dsimp only <;> first | exact stopped | (split <;> exact stopped)
  | client timesOut =>
      simp only [step, clientStep]
      cases l.client with
      | resetting reset => exact resets reset
      | absent | starting | testing | working | finished => exact stopped
  | stopper =>
      simp only [step, stopperStep]
      cases l.stopper with
      | resetting reset => exact resets reset
      | idle | flagging | entering | blocked | returned => exact stopped

/-- A Picard thread that does not go on to read goes on not to. -/
theorem picardStep_reads_no_more
    {result : ReadResult}
    (ordered : Ordered l)
    (noRead : l.picard.goesOn l.picardRunning = false)
    (notNotifying : l.picard.notifies = false) :
    (l.picardStep result).1.picard.goesOn (l.picardStep result).1.picardRunning = false := by
  unfold picardStep
  cases phase : l.picard with
  | absent | finished => simpa [phase] using noRead
  | testing =>
      have stopped : l.picardRunning = false := by simpa [phase, PicardThread.goesOn] using noRead
      simp [stopped, PicardThread.goesOn]
  | reading left =>
      obtain ⟨rfl, stopped⟩ : left = 0 ∧ l.picardRunning = false := by
        simpa [phase, PicardThread.goesOn] using noRead
      exact stopped
  | resetting reset left =>
      have halted := ordered.halted reset left phase
      have notFirst : reset ≠ .notifying := by
        simpa [phase, PicardThread.notifies] using notNotifying
      have noBytes : left.any (· ≠ 0) = false := by
        simpa only [phase, PicardThread.goesOn] using noRead
      cases reset with
      | notifying => exact absurd rfl notFirst
      | stoppingPicard | closingClients | stoppingListener => exact noBytes
      | stoppingService =>
          cases left with
          | none => exact halted rfl
          | some bytes =>
              have stopped := halted rfl
              simp_all [resetStep, PicardThread.rest, PicardThread.goesOn]

/-- A listen thread that hangs goes on to hang, unless `serial_mux_stop` is called or the thread
wakes for no reason. -/
theorem listenStuck_kept
    {action : LifecycleAction}
    (ordered : Ordered l)
    (stuck : l.ListenStuck)
    (notStop : action ≠ .stop)
    (notWoken : action ≠ .wakeListen) :
    (step l action).1.ListenStuck := by
  obtain ⟨between, waits, noNotify⟩ := stuck
  simp only [CanNotify, not_or, Bool.not_eq_true] at noNotify
  obtain ⟨noRead, silent⟩ := noNotify
  have notNotifying : l.picard.notifies = false := by
    simpa using (not_or.mp silent).1
  have quiet : l.Quiet := ⟨ordered, between, waits, silent⟩
  have next := quiet_kept quiet notStop notWoken fun _ left _ reads => by
    simp [reads, PicardThread.goesOn] at noRead
  suffices reads : (step l action).1.picard.goesOn (step l action).1.picardRunning = false by
    refine ⟨next.between, next.waits, ?_⟩
    simp only [CanNotify, not_or, Bool.not_eq_true]
    exact ⟨reads, next.silent⟩
  by_cases isMain : action.thread = some .main
  · obtain ⟨opens, rfl⟩ := thread_eq_main.mp isMain
    obtain ⟨-, -, -, samePicard, -, sameRunning⟩ := mainStep_waits between waits opens
    rw [step, samePicard, sameRunning]
    exact noRead
  by_cases isPicard : action.thread = some .picard
  · obtain ⟨result, rfl⟩ := thread_eq_picard.mp isPicard
    exact picardStep_reads_no_more ordered noRead notNotifying
  · rw [step_picard isMain isPicard]
    exact PicardThread.goesOn_eq_false (fun stopped => step_stopped stopped isMain) noRead

theorem not_testing_of_stuck (stuck : l.ClientStuck ∨ l.Quiet) : l.main ≠ .testing := by
  rcases stuck with ⟨joins, -⟩ | quiet
  · simp [joins]
  · exact (tearsDown_of_between quiet.between).not_testing

/-- A schedule leads to a thread that hangs, and does not end the reset on the way. -/
def Hangs (l : Lifecycle) : Prop :=
  ∃ opening,
    (∀ earlier, earlier <+: opening → (Machine.run step l earlier).1.main ≠ .testing) ∧
      ((Machine.run step l opening).1.ClientStuck ∨ (Machine.run step l opening).1.Quiet)

theorem hangs_of_stuck (stuck : l.ClientStuck ∨ l.Quiet) : l.Hangs := by
  refine ⟨[], ?_, stuck⟩
  intro earlier isPrefix
  rw [List.prefix_nil.mp isPrefix]
  exact not_testing_of_stuck stuck

theorem Hangs.of_step
    (action : LifecycleAction)
    (tearsDown : l.TearsDown)
    (hangs : (step l action).1.Hangs) :
    l.Hangs := by
  obtain ⟨opening, goesOn, stuck⟩ := hangs
  refine ⟨action :: opening, ?_, stuck⟩
  intro earlier isPrefix
  cases earlier with
  | nil => exact tearsDown.not_testing
  | cons first earlier =>
      obtain ⟨rfl, ofOpening⟩ := List.cons_prefix_cons.mp isPrefix
      exact goesOn earlier ofOpening

/-- The main thread can be as far as the join before the command thread starts. -/
theorem hangs_of_starting
    (between : MainPhase.Between .resettingAgain .joiningClient l.main)
    (starting : l.client = .starting) :
    l.Hangs := by
  have tearsDown (l : Lifecycle)
      (between : MainPhase.Between .resettingAgain .joiningClient l.main) : l.TearsDown :=
    ⟨between.1, Nat.le_trans between.2 (by decide)⟩
  have joins {l : Lifecycle} (phase : l.main = .joiningClient) (starting : l.client = .starting) :
      l.Hangs :=
    hangs_of_stuck (Or.inl ⟨phase, by simp [starting], Or.inl starting⟩)
  have stops {l : Lifecycle} (phase : l.main = .stoppingManager) (starting : l.client = .starting) :
      l.Hangs :=
    Hangs.of_step (.main true) (tearsDown l (by rw [phase]; decide))
      (joins (by simp [step, mainStep, phase]) (by simpa [step, mainStep, phase] using starting))
  have unregisters {l : Lifecycle} (phase : l.main = .unregistering)
      (starting : l.client = .starting) : l.Hangs :=
    Hangs.of_step (.main true) (tearsDown l (by rw [phase]; decide))
      (stops (by simp [step, mainStep, phase]) (by simpa [step, mainStep, phase] using starting))
  cases phase : l.main
  case joiningClient => exact joins phase starting
  case stoppingManager => exact stops phase starting
  case unregistering => exact unregisters phase starting
  case resettingAgain =>
    exact Hangs.of_step (.main true) (tearsDown l between)
      (unregisters (by simp [step, mainStep, phase])
        (by simpa [step, mainStep, phase] using starting))
  all_goals simp [phase, MainPhase.Between, MainPhase.place] at between

/-- The listen thread has yet to call `wait`. -/
structure Enters (l : Lifecycle) : Prop where
  ordered : Ordered l
  between : MainPhase.Between .resettingAgain .joiningListen l.main
  enters : l.listen = .checking ∧ l.connected = false ∨ l.listen = .entering

theorem Enters.tearsDown (enters : l.Enters) : l.TearsDown := tearsDown_of_between enters.between

/-- A notification does nothing to a listen thread that has yet to call `wait`. -/
theorem Enters.of_step
    {action : LifecycleAction}
    (enters : l.Enters)
    (notMain : action.thread ≠ some .main)
    (notListen : action.thread ≠ some .listen)
    (connected : (step l action).1.connected = l.connected) :
    (step l action).1.Enters := by
  have present := enters.tearsDown.present enters.ordered
  have same : (step l action).1.listen = l.listen := by
    rcases step_listen present notMain notListen with same | notified
    · exact same
    · rw [notified]
      rcases enters.enters with ⟨checking, -⟩ | entering
      · rw [checking, ListenThread.notified]
        simp
      · rw [entering, ListenThread.notified]
        simp
  refine ⟨step_ordered enters.ordered action, ?_, ?_⟩
  · rw [step_main notMain]
    exact enters.between
  · rw [same, connected]
    exact enters.enters

/-- The other threads can have notified before the listen thread waits. -/
theorem Enters.hangs (enters : l.Enters) : l.Hangs := by
  -- one step of the Picard thread and two of the stopping one take both past the notification
  obtain ⟨connected, passed⟩ : (step l (.picard .nothing)).1.connected = l.connected ∧
      (step l (.picard .nothing)).1.picard.notifies = false :=
    picardStep_passes (fun _ _ => rfl)
  have first := enters.of_step (by simp) (by simp) connected
  refine Hangs.of_step (.picard .nothing) enters.tearsDown ?_
  generalize (step l (.picard .nothing)).1 = l at passed first
  obtain ⟨-, samePicard, -, connected, -⟩ := l.stopperStep_frame
  have second : (step l .stopper).1.Enters := first.of_step (by simp) (by simp) connected
  have flagged : (step l .stopper).1.stopper ≠ .flagging := l.stopperStep_passes.1
  refine Hangs.of_step .stopper first.tearsDown ?_
  rw [← samePicard] at passed
  change (step l .stopper).1.picard.notifies = false at passed
  generalize (step l .stopper).1 = l at passed second flagged
  obtain ⟨-, samePicard, -, connected, -⟩ := l.stopperStep_frame
  have third : (step l .stopper).1.Enters := second.of_step (by simp) (by simp) connected
  obtain ⟨notFlagging, notNotifying⟩ := l.stopperStep_passes
  refine Hangs.of_step .stopper second.tearsDown
    (hangs_of_stuck (Or.inr ⟨third.ordered, third.between, ?_, ?_⟩))
  · exact third.enters.imp_right Or.inl
  · rintro (notifies | flags | notifies)
    · rw [step, samePicard, passed] at notifies
      cases notifies
    · exact notFlagging flags
    · exact notNotifying flagged notifies

/-- A step of every thread, in which the Picard thread reads nothing. -/
def everybody : List LifecycleAction :=
  [.main true, .picard .nothing, .client false, .listen, .stopper]

/-- A thread that hangs does so through the steps of `everybody`. -/
theorem stuck_kept
    {action : LifecycleAction}
    (member : action ∈ everybody)
    (stuck : l.ClientStuck ∨ l.Quiet) :
    (step l action).1.ClientStuck ∨ (step l action).1.Quiet := by
  rcases stuck with client | quiet
  · exact Or.inl (clientStuck_kept client action)
  · refine Or.inr (quiet_kept quiet ?_ ?_ ?_)
    · rintro rfl
      simp [everybody] at member
    · rintro rfl
      simp [everybody] at member
    · rintro result left rfl -
      simpa [everybody] using member

/-- Where some thread may hang, fair rounds need not end the reset. -/
theorem Hangs.exists_rounds
    (hangs : l.Hangs)
    (count : Nat) :
    ∃ rounds, Machine.Fair LifecycleAction.thread rounds ∧ count ≤ rounds.length ∧
      ∀ earlier, earlier <+: rounds.flatten → (Machine.run step l earlier).1.main ≠ .testing := by
  obtain ⟨opening, goesOn, stuck⟩ := hangs
  refine ⟨(opening ++ everybody) :: List.replicate count everybody, ?_, by simp, ?_⟩
  · intro round member thread
    have takes : ∃ action ∈ everybody, action.thread = some thread := by
      cases thread <;> decide
    rcases List.mem_cons.mp member with rfl | later
    · exact takes.imp fun action => And.imp_left (List.mem_append_right opening)
    · rwa [(List.mem_replicate.mp later).2]
  · rw [List.flatten_cons, List.append_assoc]
    refine (Machine.forall_prefix_append fun l : Lifecycle => l.main ≠ .testing).mpr
      ⟨goesOn, ?_⟩
    intro earlier isPrefix
    refine not_testing_of_stuck (Machine.forall_prefix_of_kept
      (fun l : Lifecycle => l.ClientStuck ∨ l.Quiet) (fun l action member => stuck_kept ?_) stuck
      earlier isPrefix)
    rcases List.mem_append.mp member with first | later
    · exact first
    · obtain ⟨round, isRound, mem⟩ := List.mem_flatten.mp later
      rwa [(List.mem_replicate.mp isRound).2] at mem

/-- Where the command thread or the listen thread may hang, a schedule leads there. -/
theorem hangs_of_not_ends
    (ordered : Ordered l)
    (notEnds : ¬(l.ClientEnds ∧ l.ListenEnds)) :
    l.Hangs := by
  by_cases clientEnds : l.ClientEnds
  · have notListen : ¬l.ListenEnds := fun listenEnds => notEnds ⟨clientEnds, listenEnds⟩
    simp only [ListenEnds, ListenReady, Classical.not_imp, not_or, not_and,
      Bool.not_eq_true] at notListen
    obtain ⟨between, notFinished, notListening, notConnected, notAbout⟩ := notListen
    cases phase : l.listen with
    | absent =>
        have joined := ordered.listen.mp phase
        exact absurd ⟨Nat.le_trans (by decide) between.1, between.2⟩ joined
    | finished => exact absurd phase notFinished
    | listening => exact absurd phase notListening
    | checking => exact Enters.hangs ⟨ordered, between, Or.inl ⟨phase, notConnected phase⟩⟩
    | entering => exact Enters.hangs ⟨ordered, between, Or.inr phase⟩
    | blocked =>
        exact hangs_of_stuck (Or.inr ⟨ordered, between, Or.inr (Or.inr phase), notAbout phase⟩)
  · simp only [ClientEnds, Classical.not_imp, not_or, not_and, Bool.not_eq_false] at clientEnds
    obtain ⟨between, notFinished, untold⟩ := clientEnds
    by_cases starting : l.client = .starting
    · exact hangs_of_starting between starting
    · obtain ⟨joins, running⟩ := untold starting
      exact hangs_of_stuck (Or.inl ⟨joins, notFinished, Or.inr running⟩)

/-- In every reset, enough fair rounds are sure to end it if and only if the command thread has
started or ended when the main one joins it, and the listen thread need not wait or waits for a
notification to come. -/
theorem reset_certain_iff
    (reachable : Reachable l)
    (tearsDown : l.TearsDown) :
    (∃ count, ∀ rounds, Machine.Fair LifecycleAction.thread rounds → count ≤ rounds.length →
      ∃ earlier, earlier <+: rounds.flatten ∧ (Machine.run step l earlier).1.main = .testing) ↔
      l.ClientEnds ∧ l.ListenEnds := by
  have ordered := reachable_ordered reachable
  constructor
  · rintro ⟨count, completes⟩
    by_contra notEnds
    obtain ⟨rounds, fair, enough, never⟩ := (hangs_of_not_ends ordered notEnds).exists_rounds count
    obtain ⟨earlier, isPrefix, ends⟩ := completes rounds fair enough
    exact never earlier isPrefix ends
  · rintro ⟨clientEnds, listenEnds⟩
    exact ⟨l.rank, fun rounds fair enough =>
      completes_of_certain ⟨ordered, Or.inl tearsDown, clientEnds, listenEnds⟩ fair enough⟩

/-- A read fails behind the first Hello Response. -/
theorem reset_certain_iff_example :
    ∃ count, ∀ rounds, Machine.Fair LifecycleAction.thread rounds → count ≤ rounds.length →
      ∃ earlier, earlier <+: rounds.flatten ∧
        (Machine.run step (Machine.run step {}
          (List.replicate 9 (.main true) ++ [.client false, .picard .nothing,
            .picard .helloResponse] ++ List.replicate 6 (.picard .portError) ++
            [.main true])).1 earlier).1.main = .testing :=
  (reset_certain_iff ⟨_, rfl⟩ (by decide +kernel)).mpr
    ⟨fun _ => Or.inr (by decide +kernel), fun _ => Or.inr (Or.inr (Or.inl (by decide +kernel)))⟩

/-! ## Resets that can end -/

/-- The reset can end without a call of `serial_mux_stop` and without a thread that wakes for no
reason. -/
def CanEnd (l : Lifecycle) : Prop :=
  ∃ actions, .stop ∉ actions ∧ .wakeListen ∉ actions ∧
    (Machine.run step l actions).1.main = .testing

theorem CanEnd.of_step
    (action : LifecycleAction)
    (notStop : action ≠ .stop)
    (notWoken : action ≠ .wakeListen)
    (canEnd : (step l action).1.CanEnd) :
    l.CanEnd := by
  obtain ⟨actions, noStop, noWake, ends⟩ := canEnd
  exact ⟨action :: actions, List.not_mem_cons_of_ne_of_not_mem notStop.symm noStop,
    List.not_mem_cons_of_ne_of_not_mem notWoken.symm noWake, ends⟩

theorem canEnd_of_certain (certain : l.Certain) : l.CanEnd := by
  have fair : Machine.Fair LifecycleAction.thread (List.replicate l.rank everybody) := by
    intro round member thread
    rw [(List.mem_replicate.mp member).2]
    cases thread <;> decide
  have absent {action : LifecycleAction} (notThere : action ∉ everybody)
      {earlier : List LifecycleAction}
      (isPrefix : earlier <+: (List.replicate l.rank everybody).flatten) : action ∉ earlier := by
    intro member
    obtain ⟨round, isRound, mem⟩ := List.mem_flatten.mp (isPrefix.subset member)
    rw [(List.mem_replicate.mp isRound).2] at mem
    exact notThere mem
  obtain ⟨earlier, isPrefix, ends⟩ := completes_of_certain certain fair (by simp)
  exact ⟨earlier, absent (by decide) isPrefix, absent (by decide) isPrefix, ends⟩

/-- The listen thread is still to be joined, and the command thread does not hang. -/
structure Joinable (l : Lifecycle) : Prop where
  ordered : Ordered l
  between : MainPhase.Between .resettingAgain .joiningListen l.main
  clientEnds : l.ClientEnds

theorem Joinable.of_step
    {action : LifecycleAction}
    (joinable : l.Joinable)
    (notMain : action.thread ≠ some .main) :
    (step l action).1.Joinable := by
  refine ⟨step_ordered joinable.ordered action, ?_, clientEnds_kept joinable.clientEnds notMain⟩
  rw [step_main notMain]
  exact joinable.between

theorem Joinable.canEnd_of_ready (joinable : l.Joinable) (ready : l.ListenReady) : l.CanEnd :=
  canEnd_of_certain ⟨joinable.ordered, Or.inl (tearsDown_of_between joinable.between),
    joinable.clientEnds, fun _ => ready⟩

/-- The Picard thread can read a Hello Response or, behind the first one, a Manager Hello. -/
theorem Joinable.canEnd_of_reading
    {left : Nat}
    (joinable : l.Joinable)
    (blocked : l.listen = .blocked)
    (reading : l.picard = .reading (left + 1)) :
    l.CanEnd := by
  cases connected : l.connected with
  | true =>
      refine CanEnd.of_step (.picard .mgrHello) (by simp) (by simp)
        ((joinable.of_step (by simp)).canEnd_of_ready (Or.inr (Or.inr (Or.inr ⟨?_, Or.inl ?_⟩))))
      · simpa [step, picardStep, reading] using blocked
      · simp [step, picardStep, reading, connected, PicardThread.notifies]
  | false =>
      refine CanEnd.of_step (.picard .helloResponse) (by simp) (by simp)
        ((joinable.of_step (by simp)).canEnd_of_ready (Or.inr (Or.inl ?_)))
      simp [step, picardStep, reading, connected, blocked, ListenThread.notified]

theorem Joinable.canEnd_of_testing
    (joinable : l.Joinable)
    (blocked : l.listen = .blocked)
    (tests : l.picard = .testing)
    (running : l.picardRunning = true) :
    l.CanEnd := by
  refine CanEnd.of_step (.picard .nothing) (by simp) (by simp)
    ((joinable.of_step (by simp)).canEnd_of_reading ?_ (?_ : _ = PicardThread.reading (1023 + 1)))
  · simpa [step, picardStep, tests] using blocked
  · simp [step, picardStep, tests, running, inputBufferLen]

/-- A reset in the middle of a read comes to the rest of the read. -/
theorem Joinable.canEnd_of_resetting
    {reset : ResetPhase}
    {left : Nat}
    (joinable : l.Joinable)
    (blocked : l.listen = .blocked)
    (resetting : l.picard = .resetting reset (some (left + 1))) :
    l.CanEnd := by
  induction count : reset.remaining using Nat.strong_induction_on generalizing l reset with
  | _ count inductionHypothesis =>
      by_cases notifying : reset = .notifying
      · refine joinable.canEnd_of_ready (Or.inr (Or.inr (Or.inr ⟨blocked, Or.inl ?_⟩)))
        simp [resetting, notifying, PicardThread.notifies]
      have present := (tearsDown_of_between joinable.between).present joinable.ordered
      have next : (step l (.picard .nothing)).1.Joinable := joinable.of_step (by simp)
      have waits : (step l (.picard .nothing)).1.listen = .blocked := by
        simpa [step, picardStep, resetting, resetStep_listen present, notifying] using blocked
      have fewer := l.resetStep_remaining reset
      refine CanEnd.of_step (.picard .nothing) (by simp) (by simp) ?_
      cases further : (l.resetStep reset).2.1 with
      | none =>
          refine next.canEnd_of_reading waits (?_ : _ = PicardThread.reading (left + 1))
          simp [step, picardStep, resetting, further, PicardThread.rest]
      | some other =>
          rw [further] at fewer
          refine inductionHypothesis other.remaining (count ▸ fewer) next waits
            (?_ : _ = PicardThread.resetting other (some (left + 1))) rfl
          simp [step, picardStep, resetting, further]

theorem Joinable.canEnd_of_blocked
    (joinable : l.Joinable)
    (blocked : l.listen = .blocked)
    (canNotify : l.CanNotify) :
    l.CanEnd := by
  rcases canNotify with reads | about
  · cases phase : l.picard with
    | absent | finished => simp [phase, PicardThread.goesOn] at reads
    | testing =>
        have running : l.picardRunning = true := by simpa [phase, PicardThread.goesOn] using reads
        exact joinable.canEnd_of_testing blocked phase running
    | reading left =>
        cases left with
        | succ left => exact joinable.canEnd_of_reading blocked phase
        | zero =>
            refine CanEnd.of_step (.picard .nothing) (by simp) (by simp)
              ((joinable.of_step (by simp)).canEnd_of_testing ?_ ?_ ?_)
            · simpa [step, picardStep, phase] using blocked
            · simp [step, picardStep, phase]
            · simpa [step, picardStep, phase, PicardThread.goesOn] using reads
    | resetting reset left =>
        cases left with
        | none => simp [phase, PicardThread.goesOn] at reads
        | some left =>
            cases left with
            | zero => simp [phase, PicardThread.goesOn] at reads
            | succ left => exact joinable.canEnd_of_resetting blocked phase
  · exact joinable.canEnd_of_ready (Or.inr (Or.inr (Or.inr ⟨blocked, about⟩)))

/-- Wherever the listen thread is before it waits, it can wait before it is notified. -/
theorem Joinable.canEnd_of_waits
    (joinable : l.Joinable)
    (waits : l.Waits)
    (canNotify : l.CanNotify) :
    l.CanEnd := by
  have enters {l : Lifecycle} (joinable : l.Joinable) (entering : l.listen = .entering)
      (canNotify : l.CanNotify) : l.CanEnd := by
    refine CanEnd.of_step .listen (by simp) (by simp)
      ((joinable.of_step (by simp)).canEnd_of_blocked ?_ ?_)
    · simp [step, listenStep, entering]
    · rwa [step, listenStep_frame]
  rcases waits with ⟨checking, unconnected⟩ | entering | blocked
  · refine CanEnd.of_step .listen (by simp) (by simp) (enters (joinable.of_step (by simp)) ?_ ?_)
    · simp [step, listenStep, checking, unconnected]
    · rwa [step, listenStep_frame]
  · exact enters joinable entering canNotify
  · exact joinable.canEnd_of_blocked blocked canNotify

theorem canEnd_of_clientEnds
    (ordered : Ordered l)
    (tearsDown : l.TearsDown)
    (clientEnds : l.ClientEnds)
    (notStuck : ¬l.ListenStuck) :
    l.CanEnd := by
  by_cases between : MainPhase.Between .resettingAgain .joiningListen l.main
  · have joinable : l.Joinable := ⟨ordered, between, clientEnds⟩
    by_cases waits : l.Waits
    · have canNotify : l.CanNotify := by
        by_contra noNotify
        exact notStuck ⟨between, waits, noNotify⟩
      exact joinable.canEnd_of_waits waits canNotify
    · refine joinable.canEnd_of_ready ?_
      simp only [Waits, not_or, not_and, Bool.not_eq_false] at waits
      cases phase : l.listen with
      | absent =>
          have joined := ordered.listen.mp phase
          exact absurd ⟨Nat.le_trans (by decide) between.1, between.2⟩ joined
      | finished => exact Or.inl phase
      | listening => exact Or.inr (Or.inl phase)
      | checking => exact Or.inr (Or.inr (Or.inl ⟨phase, waits.1 phase⟩))
      | entering => exact absurd phase waits.2.1
      | blocked => exact absurd phase waits.2.2
  · exact canEnd_of_certain
      ⟨ordered, Or.inl tearsDown, clientEnds, fun inside => absurd inside between⟩

/-- A thread that hangs does so in every run without a call of `serial_mux_stop` and without a
thread that wakes for no reason. -/
theorem stuck_run
    {actions : List LifecycleAction}
    (ordered : Ordered l)
    (stuck : l.ClientStuck ∨ l.ListenStuck)
    (noStop : .stop ∉ actions)
    (noWake : .wakeListen ∉ actions) :
    (Machine.run step l actions).1.ClientStuck ∨ (Machine.run step l actions).1.ListenStuck := by
  induction actions generalizing l with
  | nil => exact stuck
  | cons action rest inductionHypothesis =>
      simp only [List.mem_cons, not_or] at noStop noWake
      refine inductionHypothesis (step_ordered ordered action) ?_ noStop.2 noWake.2
      exact stuck.imp (fun client => clientStuck_kept client action) fun listen =>
        listenStuck_kept ordered listen (Ne.symm noStop.1) (Ne.symm noWake.1)

/-- In every reset, some run ends it without a call of `serial_mux_stop` and without a thread that
wakes for no reason if and only if neither the command thread nor the listen thread hangs. -/
theorem reset_possible_iff
    (reachable : Reachable l)
    (tearsDown : l.TearsDown) :
    l.CanEnd ↔ ¬l.ClientStuck ∧ ¬l.ListenStuck := by
  have ordered := reachable_ordered reachable
  constructor
  · rintro ⟨actions, noStop, noWake, ends⟩
    rw [← not_or]
    intro stuck
    rcases stuck_run ordered stuck noStop noWake with client | ⟨between, -⟩
    · exact not_testing_of_stuck (Or.inl client) ends
    · exact (tearsDown_of_between between).not_testing ends
  · rintro ⟨notClient, notListen⟩
    by_cases clientEnds : l.ClientEnds
    · exact canEnd_of_clientEnds ordered tearsDown clientEnds notListen
    simp only [ClientEnds, Classical.not_imp, not_or, not_and, Bool.not_eq_false] at clientEnds
    obtain ⟨between, notFinished, untold⟩ := clientEnds
    by_cases starting : l.client = .starting
    · have notJoins : l.main ≠ .joiningClient := fun joins =>
        notClient ⟨joins, notFinished, Or.inl starting⟩
      have next : (step l (.client false)).1 =
          { l with managerRunning := true, client := .testing } := by
        simp [step, clientStep, starting]
      refine CanEnd.of_step (.client false) (by simp) (by simp) ?_
      refine canEnd_of_clientEnds (step_ordered ordered _) ?_ ?_ ?_ <;> rw [next]
      · exact tearsDown
      · exact fun _ => Or.inr ⟨by simp, fun joins => absurd joins notJoins⟩
      · exact notListen
    · obtain ⟨joins, running⟩ := untold starting
      exact absurd ⟨joins, notFinished, Or.inr running⟩ notClient

/-- The listen thread waits, and the Picard thread has not read the first Hello Response when the
stopping thread ends the service. -/
theorem reset_possible_iff_example :
    (Machine.run step {} (List.replicate 9 (.main true) ++
      [.client false, .listen, .listen, .stop, .stopper] ++ List.replicate 5 .stopper ++
      [.main true])).1.CanEnd :=
  (reset_possible_iff ⟨_, rfl⟩ (by decide +kernel)).mpr (by decide +kernel)

/-- A read fails, and the Picard thread resets the connection before the listen thread waits. -/
example :
    (Machine.run step {} (List.replicate 9 (.main true) ++ [.client false, .picard .nothing] ++
      List.replicate 6 (.picard .portError) ++ [.main true, .listen, .listen])).1.ListenStuck := by
  decide +kernel

/-- A read fails, and the main thread is as far as the join before the command thread starts. -/
example :
    (Machine.run step {} (List.replicate 9 (.main true) ++ [.picard .nothing] ++
      List.replicate 6 (.picard .portError) ++ List.replicate 4 (.main true))).1.ClientStuck := by
  decide +kernel

end Lifecycle

end SerialMux
