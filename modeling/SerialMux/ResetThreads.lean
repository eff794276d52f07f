import SerialMux.Lifecycle

/-!
# The threads in a reset

Behind the end of `io_service.run()` the main thread joins the command thread, the listen thread
and the Picard thread, and deletes the components.  This module says which of the threads end,
and what the steps of a thread leave to the others.
-/

namespace SerialMux

/-- The threads that a scheduler chooses from. -/
inductive Scheduled
  | main
  | picard
  | client
  | listen
  | stopper
  deriving DecidableEq, Repr

/-- The thread that takes a step. -/
def LifecycleAction.thread : LifecycleAction → Option Scheduled
  | .main _ => some .main
  | .picard _ => some .picard
  | .client _ => some .client
  | .listen => some .listen
  | .stopper => some .stopper
  | .stop | .wakeListen | .wakeStopper => none

/-- The number of statements up to the end of `resetConnection`. -/
def ResetPhase.remaining : ResetPhase → Nat
  | .notifying => 5
  | .stoppingPicard => 4
  | .closingClients => 3
  | .stoppingListener => 2
  | .stoppingService => 1

/-- A bound on the number of statements up to the end of `threadMain`, once the loop ends. -/
def PicardThread.remaining : PicardThread → Nat
  | .absent | .finished => 0
  | .testing => 1
  | .reading left => 7 * left + 7
  | .resetting reset none => reset.remaining + 1
  | .resetting reset (some left) => reset.remaining + (7 * left + 7)

/-- A bound on the number of statements up to the end of `commandLoop`, once the loop ends. -/
def ClientThread.remaining : ClientThread → Nat
  | .absent | .starting | .finished => 0
  | .testing => 1
  | .resetting reset => reset.remaining + 1
  | .working => 7

/-- The number of statements up to the notification by a stopping thread, or one more. -/
def StopperThread.delay : StopperThread → Nat
  | .resetting .notifying => 1
  | .flagging => 2
  | .idle | .resetting _ | .entering | .blocked | .returned => 3

/-- The Picard thread has begun to reset the connection, and has not yet notified. -/
def PicardThread.notifies : PicardThread → Bool
  | .resetting reset _ => reset = .notifying
  | .absent | .testing | .reading _ | .finished => false

def PicardThread.delay (phase : PicardThread) : Nat := if phase.notifies then 0 else 1

theorem StopperThread.delay_pos (phase : StopperThread) : 0 < phase.delay := by
  unfold delay
  split <;> decide

theorem StopperThread.delay_le (phase : StopperThread) : phase.delay ≤ 3 := by
  unfold delay
  split <;> decide

theorem PicardThread.delay_le (phase : PicardThread) : phase.delay ≤ 1 := by
  unfold delay
  split <;> decide

@[simp] theorem PicardThread.notifies_rest (left : Option Nat) :
    (PicardThread.rest left).notifies = false := by
  cases left <;> rfl

theorem PicardThread.notifies_elim
    {further : Option ResetPhase}
    (notNotifying : further ≠ some .notifying)
    (left : Option Nat) :
    (further.elim (PicardThread.rest left) (.resetting · left)).notifies = false := by
  cases further with
  | none => exact notifies_rest left
  | some reset => simpa [notifies] using notNotifying

theorem StopperThread.delay_eq
    {phase : StopperThread}
    (notFlagging : phase ≠ .flagging)
    (notNotifying : phase ≠ .resetting .notifying) :
    phase.delay = 3 := by
  cases phase with
  | resetting reset => cases reset <;> first | rfl | exact absurd rfl notNotifying
  | flagging => exact absurd rfl notFlagging
  | idle | entering | blocked | returned => rfl

theorem StopperThread.delay_elim
    {further : Option ResetPhase}
    (notNotifying : further ≠ some .notifying) :
    (further.elim StopperThread.entering .resetting).delay = 3 := by
  cases further with
  | none => rfl
  | some reset => exact delay_eq (by simp) (by simpa using notNotifying)

theorem ResetPhase.remaining_le (reset : ResetPhase) : reset.remaining ≤ 5 := by
  cases reset <;> decide

theorem PicardThread.remaining_le (phase : PicardThread) :
    phase.remaining ≤ 7 * phase.left + 12 := by
  cases phase with
  | resetting reset left =>
      have := reset.remaining_le
      cases left <;> simp only [remaining, left] <;> omega
  | absent | testing | reading | finished => simp [remaining, left]

theorem ClientThread.remaining_le (phase : ClientThread) : phase.remaining ≤ 7 := by
  cases phase with
  | resetting reset =>
      have := reset.remaining_le
      simp only [remaining]
      omega
  | absent | starting | testing | working | finished => decide

theorem PicardThread.remaining_resetting (reset : ResetPhase) (left : Option Nat) :
    (PicardThread.resetting reset left).remaining =
      reset.remaining + (PicardThread.rest left).remaining := by
  cases left <;> rfl

@[simp] theorem ClientThread.remaining_resetting (reset : ResetPhase) :
    (ClientThread.resetting reset).remaining = reset.remaining + 1 := rfl

theorem PicardThread.remaining_elim (further : Option ResetPhase) (left : Option Nat) :
    (further.elim (PicardThread.rest left) (.resetting · left)).remaining =
      further.elim 0 ResetPhase.remaining + (PicardThread.rest left).remaining := by
  cases further with
  | none => simp
  | some reset => exact remaining_resetting reset left

@[simp] theorem ClientThread.remaining_elim (further : Option ResetPhase) :
    (further.elim ClientThread.testing .resetting).remaining =
      further.elim 0 ResetPhase.remaining + 1 := by
  cases further <;> rfl

namespace Lifecycle

/-! ## Which threads end -/

/-- The service has ended, and the components are not yet deleted. -/
def TearsDown (l : Lifecycle) : Prop :=
  MainPhase.Between .resettingAgain .deletingPicard l.main

instance (l : Lifecycle) : Decidable l.TearsDown := inferInstanceAs (Decidable (_ ∧ _))

/-- A thread has begun to reset the connection, and has not yet notified the listen thread. -/
def AboutToNotify (l : Lifecycle) : Prop :=
  l.picard.notifies = true ∨ l.stopper = .flagging ∨ l.stopper = .resetting .notifying

instance (l : Lifecycle) : Decidable l.AboutToNotify := inferInstanceAs (Decidable (_ ∨ _ ∨ _))

/-- The command thread has ended, or has started, and its flag is cleared before it is joined. -/
def ClientEnds (l : Lifecycle) : Prop :=
  MainPhase.Between .resettingAgain .joiningClient l.main →
    l.client = .finished ∨
      l.client ≠ .starting ∧ (l.main = .joiningClient → l.managerRunning = false)

/-- The listen thread need not wait, or waits for a notification that is to come. -/
def ListenReady (l : Lifecycle) : Prop :=
  l.listen = .finished ∨ l.listen = .listening ∨
    l.listen = .checking ∧ l.connected = true ∨ l.listen = .blocked ∧ l.AboutToNotify

/-- The listen thread has been joined, or does not hang. -/
def ListenEnds (l : Lifecycle) : Prop :=
  MainPhase.Between .resettingAgain .joiningListen l.main → l.ListenReady

variable {l : Lifecycle}

theorem tearsDown_of_between
    (between : MainPhase.Between .resettingAgain .joiningListen l.main) :
    l.TearsDown :=
  ⟨between.1, Nat.le_trans between.2 (by decide)⟩

theorem TearsDown.not_testing (tearsDown : l.TearsDown) : l.main ≠ .testing := by
  intro tests
  simp [TearsDown, tests, MainPhase.Between, MainPhase.place] at tearsDown

theorem TearsDown.present (tearsDown : TearsDown l) (ordered : Ordered l) : l.picardIo = true := by
  rw [ordered.picardIo, decide_eq_true_eq]
  simp only [TearsDown, MainPhase.Between, MainPhase.place] at tearsDown ⊢
  omega

/-! ## What the threads leave alone -/

@[simp] theorem resetStep_main (reset : ResetPhase) : (l.resetStep reset).1.main = l.main :=
  (l.resetStep_frame reset).1.main

@[simp] theorem resetStep_picard (reset : ResetPhase) : (l.resetStep reset).1.picard = l.picard :=
  (l.resetStep_frame reset).2.1

@[simp] theorem resetStep_client (reset : ResetPhase) : (l.resetStep reset).1.client = l.client :=
  (l.resetStep_frame reset).2.2.1

@[simp] theorem resetStep_stopper (reset : ResetPhase) :
    (l.resetStep reset).1.stopper = l.stopper := by
  cases reset <;> simp only [resetStep]
  split <;> rfl

@[simp] theorem resetStep_connected (reset : ResetPhase) :
    (l.resetStep reset).1.connected = l.connected := by
  cases reset <;> simp only [resetStep]
  split <;> rfl

@[simp] theorem resetStep_managerRunning (reset : ResetPhase) :
    (l.resetStep reset).1.managerRunning = l.managerRunning := by
  cases reset <;> simp only [resetStep]
  split <;> rfl

/-- Only the first statement of a reset notifies. -/
theorem resetStep_listen (present : l.picardIo = true) (reset : ResetPhase) :
    (l.resetStep reset).1.listen =
      if reset = .notifying then l.listen.notified else l.listen := by
  cases reset <;> simp [resetStep, present]

/-- A reset never goes back to its first statement. -/
theorem resetStep_ne_notifying (reset : ResetPhase) :
    (l.resetStep reset).2.1 ≠ some .notifying := by
  cases reset <;> simp only [resetStep]
  · split <;> simp
  all_goals simp

theorem resetStep_remaining (reset : ResetPhase) :
    (l.resetStep reset).2.1.elim 0 ResetPhase.remaining < reset.remaining := by
  cases reset <;> simp only [resetStep]
  · split <;> simp [ResetPhase.remaining]
  all_goals simp [ResetPhase.remaining]

theorem picardStep_frame (l : Lifecycle) (result : ReadResult) :
    (l.picardStep result).1.main = l.main ∧ (l.picardStep result).1.client = l.client ∧
      (l.picardStep result).1.stopper = l.stopper ∧
      (l.picardStep result).1.managerRunning = l.managerRunning := by
  unfold picardStep
  cases l.picard with
  | reading left =>
      cases left with
      | zero => simp
      | succ left => cases result <;> dsimp only <;> first | (split <;> simp) | simp
  | absent | testing | resetting | finished => simp

theorem clientStep_frame (l : Lifecycle) (timesOut : Bool) :
    (l.clientStep timesOut).1.main = l.main ∧ (l.clientStep timesOut).1.picard = l.picard ∧
      (l.clientStep timesOut).1.stopper = l.stopper ∧
      (l.clientStep timesOut).1.connected = l.connected := by
  unfold clientStep
  cases l.client <;> simp

theorem listenStep_frame (l : Lifecycle) :
    l.listenStep.1 = { l with listen := l.listenStep.1.listen } := by
  unfold listenStep
  split <;> simp

theorem stopperStep_frame (l : Lifecycle) :
    l.stopperStep.1.main = l.main ∧ l.stopperStep.1.picard = l.picard ∧
      l.stopperStep.1.client = l.client ∧ l.stopperStep.1.connected = l.connected ∧
      l.stopperStep.1.managerRunning = l.managerRunning := by
  unfold stopperStep
  cases l.stopper <;> simp

theorem step_main
    {action : LifecycleAction}
    (notMain : action.thread ≠ some .main) :
    (step l action).1.main = l.main := by
  cases action with
  | main => exact absurd rfl notMain
  | picard result => exact (l.picardStep_frame result).1
  | client timesOut => exact (l.clientStep_frame timesOut).1
  | stopper => exact l.stopperStep_frame.1
  | listen => rw [step, listenStep_frame]
  | wakeListen => rfl
  | stop | wakeStopper =>
      simp only [step]
      split <;> rfl

theorem step_client
    {action : LifecycleAction}
    (notMain : action.thread ≠ some .main)
    (notClient : action.thread ≠ some .client) :
    (step l action).1.client = l.client ∧
      (step l action).1.managerRunning = l.managerRunning := by
  cases action with
  | main => exact absurd rfl notMain
  | client => exact absurd rfl notClient
  | picard result =>
      obtain ⟨-, client, -, flag⟩ := l.picardStep_frame result
      exact ⟨client, flag⟩
  | stopper =>
      obtain ⟨-, -, client, -, flag⟩ := l.stopperStep_frame
      exact ⟨client, flag⟩
  | listen => exact ⟨by rw [step, listenStep_frame], by rw [step, listenStep_frame]⟩
  | wakeListen => exact ⟨rfl, rfl⟩
  | stop | wakeStopper =>
      simp only [step]
      split <;> exact ⟨rfl, rfl⟩

theorem step_picard
    {action : LifecycleAction}
    (notMain : action.thread ≠ some .main)
    (notPicard : action.thread ≠ some .picard) :
    (step l action).1.picard = l.picard := by
  cases action with
  | main => exact absurd rfl notMain
  | picard => exact absurd rfl notPicard
  | client timesOut => exact (l.clientStep_frame timesOut).2.1
  | stopper => exact l.stopperStep_frame.2.1
  | listen => rw [step, listenStep_frame]
  | wakeListen => rfl
  | stop | wakeStopper =>
      simp only [step]
      split <;> rfl

@[simp] theorem thread_eq_main {action : LifecycleAction} :
    action.thread = some .main ↔ ∃ opens, action = .main opens := by
  cases action <;> simp [LifecycleAction.thread]

@[simp] theorem thread_eq_picard {action : LifecycleAction} :
    action.thread = some .picard ↔ ∃ result, action = .picard result := by
  cases action <;> simp [LifecycleAction.thread]

@[simp] theorem thread_eq_client {action : LifecycleAction} :
    action.thread = some .client ↔ ∃ timesOut, action = .client timesOut := by
  cases action <;> simp [LifecycleAction.thread]

@[simp] theorem thread_eq_listen {action : LifecycleAction} :
    action.thread = some .listen ↔ action = .listen := by
  cases action <;> simp [LifecycleAction.thread]

end Lifecycle

end SerialMux
