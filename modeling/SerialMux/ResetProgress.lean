import SerialMux.ResetThreads

/-!
# Resets that end

In each state of a reset one thread is helpful: the main one, or the one that it joins, or the one
that is to notify the listen thread.  If no thread hangs, a step of the helpful thread lowers a
rank, and no step of another thread raises it.
-/

namespace SerialMux
namespace Lifecycle

variable {l : Lifecycle}

/-! ## The thread that the main one waits for -/

/-- The command thread ends once its flag is cleared. -/
theorem client_goesOn
    {action : LifecycleAction}
    (ends : l.client = .finished ∨ l.client ≠ .starting ∧ l.managerRunning = false)
    (exists' : l.client ≠ .absent)
    (notMain : action.thread ≠ some .main) :
    (step l action).1.client.remaining < l.client.remaining ∨
      (step l action).1.client = l.client ∧
        (l.client = .finished ∨ action.thread ≠ some .client) := by
  by_cases isClient : action.thread = some .client
  · obtain ⟨timesOut, rfl⟩ := thread_eq_client.mp isClient
    cases phase : l.client with
    | absent => exact absurd phase exists'
    | starting => simp [phase] at ends
    | finished => exact Or.inr ⟨by simp [step, clientStep, phase], Or.inl rfl⟩
    | testing =>
        have cleared : l.managerRunning = false := by simpa [phase] using ends
        exact Or.inl (by simp [step, clientStep, phase, cleared, ClientThread.remaining])
    | working =>
        left
        simp only [step, clientStep, phase]
        split <;> decide
    | resetting reset =>
        left
        simp only [step, clientStep, phase, ClientThread.remaining_elim,
          ClientThread.remaining_resetting]
        exact Nat.add_lt_add_right (l.resetStep_remaining reset) 1
  · exact Or.inr ⟨(step_client notMain isClient).1, Or.inr isClient⟩

/-- The Picard thread ends once its flag is cleared. -/
theorem picard_goesOn
    {action : LifecycleAction}
    (stopped : l.picardRunning = false)
    (exists' : l.picard ≠ .absent)
    (notMain : action.thread ≠ some .main) :
    (step l action).1.picard.remaining < l.picard.remaining ∨
      (step l action).1.picard = l.picard ∧
        (l.picard = .finished ∨ action.thread ≠ some .picard) := by
  by_cases isPicard : action.thread = some .picard
  · obtain ⟨result, rfl⟩ := thread_eq_picard.mp isPicard
    cases phase : l.picard with
    | absent => exact absurd phase exists'
    | finished => exact Or.inr ⟨by simp [step, picardStep, phase], Or.inl rfl⟩
    | testing => exact Or.inl (by simp [step, picardStep, phase, stopped, PicardThread.remaining])
    | reading bytes =>
        left
        cases bytes with
        | zero => simp [step, picardStep, phase, PicardThread.remaining]
        | succ left =>
            cases result <;> simp only [step, picardStep, phase]
            case helloResponse | mgrHello =>
              split <;> simp [PicardThread.remaining, ResetPhase.remaining] <;> omega
            all_goals simp [PicardThread.remaining, ResetPhase.remaining]
    | resetting reset further =>
        left
        simp only [step, picardStep, phase, PicardThread.remaining_elim,
          PicardThread.remaining_resetting]
        exact Nat.add_lt_add_right (l.resetStep_remaining reset) _
  · exact Or.inr ⟨step_picard notMain isPicard, Or.inr isPicard⟩

/-- The number of steps up to the end of the listen thread. -/
def listenRemaining (l : Lifecycle) : Nat :=
  match l.listen with
  | .absent | .entering | .finished => 0
  | .listening => 1
  | .checking => 2
  | .blocked => l.picard.delay + l.stopper.delay + 1

/-- The thread that brings the listen thread to its end. -/
def listenHelper (l : Lifecycle) : Scheduled :=
  match l.listen with
  | .finished => .main
  | .blocked => if l.picard.delay = 0 then .picard else .stopper
  | .absent | .checking | .entering | .listening => .listen

/-- A notification is to come if a delay is shorter than its maximum. -/
theorem aboutToNotify_iff : l.AboutToNotify ↔ l.picard.delay + l.stopper.delay < 4 := by
  by_cases picard : l.picard.notifies
  · have := l.stopper.delay_le
    simp [AboutToNotify, picard, PicardThread.delay]
    omega
  by_cases flagging : l.stopper = .flagging
  · simp [AboutToNotify, flagging, picard, PicardThread.delay, StopperThread.delay]
  by_cases stopper : l.stopper = .resetting .notifying
  · simp [AboutToNotify, stopper, picard, PicardThread.delay, StopperThread.delay]
  · simp [AboutToNotify, picard, flagging, stopper, PicardThread.delay,
      StopperThread.delay_eq flagging stopper]

/-- The Picard thread notifies the waiting thread, or the notification comes no later. -/
theorem picardStep_blocked
    (present : l.picardIo = true)
    (blocked : l.listen = .blocked)
    (result : ReadResult) :
    (l.picardStep result).1.listen = .listening ∨
      (l.picardStep result).1.listen = .blocked ∧
        ((l.picardStep result).1.picard.delay < l.picard.delay ∨
          (l.picardStep result).1.picard.delay = l.picard.delay ∧ l.picard.delay = 1) := by
  unfold picardStep
  cases phase : l.picard with
  | absent | finished => simp [phase, blocked, PicardThread.delay, PicardThread.notifies]
  | testing =>
      right
      refine ⟨blocked, Or.inr ⟨?_, rfl⟩⟩
      dsimp only
      split <;> rfl
  | reading left =>
      cases left with
      | zero => exact Or.inr ⟨blocked, Or.inr ⟨rfl, rfl⟩⟩
      | succ left =>
          cases result with
          | nothing | callback => exact Or.inr ⟨blocked, Or.inr ⟨rfl, rfl⟩⟩
          | portError => exact Or.inr ⟨blocked, Or.inl Nat.one_pos⟩
          | mgrHello =>
              dsimp only
              split
              · exact Or.inr ⟨blocked, Or.inl Nat.one_pos⟩
              · exact Or.inr ⟨blocked, Or.inr ⟨rfl, rfl⟩⟩
          | helloResponse =>
              dsimp only
              split
              · exact Or.inr ⟨blocked, Or.inr ⟨rfl, rfl⟩⟩
              · exact Or.inl (by simp [blocked, ListenThread.notified])
  | resetting reset left =>
      dsimp only
      rw [resetStep_listen present, blocked]
      by_cases notifying : reset = .notifying
      · exact Or.inl (by rw [if_pos notifying, ListenThread.notified])
      · have before : (PicardThread.resetting reset left).notifies = false := by
          simpa [PicardThread.notifies] using notifying
        have after := PicardThread.notifies_elim (l.resetStep_ne_notifying reset) left
        right
        simp [PicardThread.delay, before, after, notifying]

/-- The stopping thread notifies the waiting thread, or the notification comes no later. -/
theorem stopperStep_blocked
    (present : l.picardIo = true)
    (blocked : l.listen = .blocked) :
    l.stopperStep.1.listen = .listening ∨
      l.stopperStep.1.listen = .blocked ∧
        (l.stopperStep.1.stopper.delay < l.stopper.delay ∨
          l.stopperStep.1.stopper.delay = l.stopper.delay ∧ l.stopper.delay = 3) := by
  unfold stopperStep
  cases phase : l.stopper with
  | idle | blocked | returned => simp [phase, blocked, StopperThread.delay]
  | entering => exact Or.inr ⟨blocked, Or.inr ⟨rfl, rfl⟩⟩
  | flagging => exact Or.inr ⟨blocked, Or.inl Nat.one_lt_two⟩
  | resetting reset =>
      dsimp only
      rw [resetStep_listen present, blocked]
      by_cases notifying : reset = .notifying
      · exact Or.inl (by rw [if_pos notifying, ListenThread.notified])
      · have before : (StopperThread.resetting reset).delay = 3 :=
          StopperThread.delay_eq (by simp) (by simpa using notifying)
        rw [if_neg notifying, before, StopperThread.delay_elim (resetStep_ne_notifying reset)]
        simp

/-- The other threads do nothing to the listen thread but notify it. -/
theorem step_listen
    {action : LifecycleAction}
    (present : l.picardIo = true)
    (notMain : action.thread ≠ some .main)
    (notListen : action.thread ≠ some .listen) :
    (step l action).1.listen = l.listen ∨ (step l action).1.listen = l.listen.notified := by
  cases action with
  | main => exact absurd rfl notMain
  | listen => exact absurd rfl notListen
  | wakeListen => exact Or.inr rfl
  | stop | wakeStopper =>
      left
      simp only [step]
      split <;> rfl
  | picard result =>
      simp only [step, picardStep]
      cases l.picard with
      | absent | testing | finished => exact Or.inl rfl
      | resetting reset =>
          dsimp only
          rw [resetStep_listen present]
          split <;> simp
      | reading left =>
          cases left with
          | zero => exact Or.inl rfl
          | succ left =>
              cases result with
              | nothing | callback | mgrHello | portError => exact Or.inl rfl
              | helloResponse =>
                  dsimp only
                  split <;> simp
  | client timesOut =>
      simp only [step, clientStep]
      cases l.client with
      | resetting reset =>
          dsimp only
          rw [resetStep_listen present]
          split <;> simp
      | absent | starting | testing | working | finished => exact Or.inl rfl
  | stopper =>
      simp only [step, stopperStep]
      cases l.stopper with
      | resetting reset =>
          dsimp only
          rw [resetStep_listen present]
          split <;> simp
      | idle | flagging | entering | blocked | returned => exact Or.inl rfl

theorem step_connected
    {action : LifecycleAction}
    (connected : l.connected = true)
    (notMain : action.thread ≠ some .main) :
    (step l action).1.connected = true := by
  cases action with
  | main => exact absurd rfl notMain
  | client timesOut => exact (l.clientStep_frame timesOut).2.2.2.trans connected
  | stopper => exact l.stopperStep_frame.2.2.2.1.trans connected
  | listen => rw [step, listenStep_frame, connected]
  | wakeListen => exact connected
  | stop | wakeStopper =>
      simp only [step]
      split <;> exact connected
  | picard result =>
      simp only [step, picardStep]
      cases l.picard with
      | absent | testing | finished => exact connected
      | resetting reset left => simpa using connected
      | reading left =>
          cases left with
          | zero => exact connected
          | succ left => cases result <;> simp [connected]

/-- A thread that waits for a notification to come is brought nearer to it by every step of the
thread that will notify, and by no step of another thread farther from it. -/
theorem blocked_goesOn
    {action : LifecycleAction}
    (present : l.picardIo = true)
    (blocked : l.listen = .blocked)
    (about : l.AboutToNotify)
    (notMain : action.thread ≠ some .main) :
    (step l action).1.listen = .listening ∨
      (step l action).1.listen = .blocked ∧
        ((step l action).1.picard.delay + (step l action).1.stopper.delay <
            l.picard.delay + l.stopper.delay ∨
          (step l action).1.picard.delay = l.picard.delay ∧
            (step l action).1.stopper.delay = l.stopper.delay ∧
            action.thread ≠ some l.listenHelper) := by
  have helper : l.listenHelper = if l.picard.delay = 0 then .picard else .stopper := by
    rw [listenHelper, blocked]
  rw [aboutToNotify_iff] at about
  rw [helper]
  cases action with
  | main => exact absurd rfl notMain
  | picard result =>
      have sameStopper := (l.picardStep_frame result).2.2.1
      rcases picardStep_blocked present blocked result with
        notified | ⟨stays, nearer | ⟨same, delay⟩⟩
      · exact Or.inl notified
      · exact Or.inr ⟨stays, Or.inl (by simp only [step, sameStopper]; omega)⟩
      · exact Or.inr ⟨stays, Or.inr ⟨same, by rw [step, sameStopper],
          by simp [delay, LifecycleAction.thread]⟩⟩
  | stopper =>
      have samePicard := l.stopperStep_frame.2.1
      rcases stopperStep_blocked present blocked with notified | ⟨stays, nearer | ⟨same, delay⟩⟩
      · exact Or.inl notified
      · exact Or.inr ⟨stays, Or.inl (by simp only [step, samePicard]; omega)⟩
      · have picard : l.picard.delay = 0 := by omega
        exact Or.inr ⟨stays, Or.inr ⟨by rw [step, samePicard], same,
          by simp [picard, LifecycleAction.thread]⟩⟩
  | client timesOut =>
      obtain ⟨-, samePicard, sameStopper, -⟩ := l.clientStep_frame timesOut
      rcases step_listen present notMain (by simp) with same | notified
      · refine Or.inr ⟨same.trans blocked, Or.inr ⟨by rw [step, samePicard],
          by rw [step, sameStopper], ?_⟩⟩
        split <;> simp [LifecycleAction.thread]
      · exact Or.inl (notified.trans (by rw [blocked, ListenThread.notified]))
  | listen =>
      have unchanged : l.listenStep.1 = l := by simp [listenStep, blocked]
      rw [step, unchanged]
      refine Or.inr ⟨blocked, Or.inr ⟨rfl, rfl, ?_⟩⟩
      split <;> simp [LifecycleAction.thread]
  | wakeListen => exact Or.inl (by simp [step, blocked, ListenThread.notified])
  | stop =>
      right
      simp only [step]
      split
      · rename_i idle
        exact ⟨blocked, Or.inl (by simp [idle, StopperThread.delay])⟩
      · exact ⟨blocked, Or.inr ⟨rfl, rfl, by simp [LifecycleAction.thread]⟩⟩
  | wakeStopper =>
      right
      simp only [step]
      split
      · rename_i waits
        exact ⟨blocked, Or.inr ⟨rfl, by rw [waits]; rfl, by simp [LifecycleAction.thread]⟩⟩
      · exact ⟨blocked, Or.inr ⟨rfl, rfl, by simp [LifecycleAction.thread]⟩⟩

/-- A listen thread that does not hang goes on not to hang, and its helper brings it nearer to
its end. -/
theorem listen_goesOn
    {action : LifecycleAction}
    (present : l.picardIo = true)
    (ready : l.ListenReady)
    (notMain : action.thread ≠ some .main) :
    (step l action).1.ListenReady ∧
      ((step l action).1.listenRemaining < l.listenRemaining ∨
        (step l action).1.listenRemaining = l.listenRemaining ∧
          (step l action).1.listenHelper = l.listenHelper ∧
          action.thread ≠ some l.listenHelper) := by
  have others (runs : l.listen ≠ .blocked) (notListen : action ≠ .listen) :
      (step l action).1.listen = l.listen := by
    rcases step_listen present notMain (mt thread_eq_listen.mp notListen) with same | notified
    · exact same
    · rw [notified]
      cases phase : l.listen <;> first | rfl | exact absurd phase runs
  rcases ready with finished | listening | ⟨checking, connected⟩ | ⟨blocked, about⟩
  · have same : (step l action).1.listen = .finished := by
      by_cases isListen : action = .listen
      · simp [isListen, step, listenStep, finished]
      · rw [others (by simp [finished]) isListen, finished]
    refine ⟨Or.inl same, Or.inr ⟨?_, ?_, ?_⟩⟩
    · rw [listenRemaining, listenRemaining, same, finished]
    · rw [listenHelper, listenHelper, same, finished]
    · rwa [listenHelper, finished]
  · by_cases isListen : action = .listen
    · have ends : (step l action).1.listen = .finished := by
        simp [isListen, step, listenStep, listening]
      exact ⟨Or.inl ends, Or.inl (by simp [listenRemaining, ends, listening])⟩
    · have same := (others (by simp [listening]) isListen).trans listening
      refine ⟨Or.inr (Or.inl same), Or.inr ?_⟩
      simp [listenRemaining, listenHelper, same, listening, isListen]
  · by_cases isListen : action = .listen
    · have passes : (step l action).1.listen = .listening := by
        simp [isListen, step, listenStep, checking, connected]
      exact ⟨Or.inr (Or.inl passes), Or.inl (by simp [listenRemaining, passes, checking])⟩
    · have same := (others (by simp [checking]) isListen).trans checking
      refine ⟨Or.inr (Or.inr (Or.inl ⟨same, step_connected connected notMain⟩)), Or.inr ?_⟩
      simp [listenRemaining, listenHelper, same, checking, isListen]
  · have remaining : l.listenRemaining = l.picard.delay + l.stopper.delay + 1 := by
      rw [listenRemaining, blocked]
    rcases blocked_goesOn present blocked about notMain with
      notified | ⟨stays, nearer | ⟨samePicard, sameStopper, notHelper⟩⟩
    · refine ⟨Or.inr (Or.inl notified), Or.inl ?_⟩
      have := l.stopper.delay_pos
      rw [remaining]
      simp only [listenRemaining, notified]
      omega
    · refine ⟨Or.inr (Or.inr (Or.inr ⟨stays, ?_⟩)), Or.inl ?_⟩
      · rw [aboutToNotify_iff] at about ⊢
        omega
      · rw [remaining]
        simp only [listenRemaining, stays]
        omega
    · refine ⟨Or.inr (Or.inr (Or.inr ⟨stays, ?_⟩)), Or.inr ⟨?_, ?_, notHelper⟩⟩
      · rw [aboutToNotify_iff] at about ⊢
        omega
      · rw [remaining, listenRemaining, stays, samePicard, sameStopper]
      · rw [listenHelper, listenHelper, stays, blocked, samePicard]

/-- A command thread that has started does not start again or set its flag, and one that has
ended stays ended. -/
theorem client_kept
    {action : LifecycleAction}
    (notMain : action.thread ≠ some .main) :
    (l.client = .finished → (step l action).1.client = .finished) ∧
      (l.client ≠ .starting → (step l action).1.client ≠ .starting ∧
        (step l action).1.managerRunning = l.managerRunning) := by
  by_cases isClient : action.thread = some .client
  · obtain ⟨timesOut, rfl⟩ := thread_eq_client.mp isClient
    simp only [step, clientStep]
    cases phase : l.client with
    | absent | finished => simp [phase]
    | starting => simp
    | testing | working =>
        dsimp only
        split <;> simp
    | resetting reset => cases further : (l.resetStep reset).2.1 <;> simp [further]
  · obtain ⟨client, flag⟩ := step_client (l := l) notMain isClient
    rw [client, flag]
    exact ⟨id, fun started => ⟨started, rfl⟩⟩

/-! ## A rank -/

/-- The steps up to the end of the thread that the main one joins. -/
def waiting (l : Lifecycle) : Nat :=
  match l.main with
  | .joiningClient => l.client.remaining
  | .joiningListen => l.listenRemaining
  | .joiningPicard => l.picard.remaining
  | _ => 0

/-- More than the steps that the main thread waits for at a time. -/
def longestWait : Nat := 7 * inputBufferLen + 13

/-- A bound on the number of steps that bring the main thread to the end of the reset. -/
def rank (l : Lifecycle) : Nat :=
  if l.TearsDown then longestWait * (20 - l.main.place) + l.waiting else 0

/-- The thread whose step the main one needs next. -/
def helpful (l : Lifecycle) : Scheduled :=
  match l.main with
  | .joiningClient => if l.client = .finished then .main else .client
  | .joiningListen => l.listenHelper
  | .joiningPicard => if l.picard = .finished then .main else .picard
  | _ => .main

/-- The reset goes on or has just ended, and no thread hangs. -/
structure Certain (l : Lifecycle) : Prop where
  ordered : Ordered l
  within : l.TearsDown ∨ l.main = .testing
  clientEnds : ClientEnds l
  listenEnds : ListenEnds l

theorem waiting_lt (ordered : Ordered l) : l.waiting < longestWait := by
  have bounded := ordered.bounded
  unfold waiting longestWait
  split
  · have := l.client.remaining_le
    omega
  · have := l.stopper.delay_le
    have := l.picard.delay_le
    unfold listenRemaining
    split <;> omega
  · have := l.picard.remaining_le
    omega
  · omega

theorem rank_pos_iff : 0 < l.rank ↔ l.TearsDown := by
  unfold rank
  split
  · rename_i tearsDown
    have last : l.main.place ≤ 19 := tearsDown.2
    have positive : 0 < longestWait * (20 - l.main.place) :=
      Nat.mul_pos (by decide) (Nat.sub_pos_of_lt (Nat.lt_succ_of_le last))
    exact iff_of_true (Nat.add_pos_left positive _) tearsDown
  · rename_i ended
    simp [ended]

/-- The rank falls where the main thread goes on. -/
theorem rank_lt
    {next : Lifecycle}
    (tearsDown : l.TearsDown)
    (ordered : Ordered next)
    (goesOn : next.TearsDown → l.main.place < next.main.place) :
    next.rank < l.rank := by
  by_cases remains : next.TearsDown
  · have farther := goesOn remains
    have last : next.main.place ≤ 19 := remains.2
    have fewer : 20 - next.main.place + 1 ≤ 20 - l.main.place := by omega
    rw [rank, rank, if_pos remains, if_pos tearsDown]
    calc longestWait * (20 - next.main.place) + next.waiting
        < longestWait * (20 - next.main.place + 1) := Nat.add_lt_add_left (waiting_lt ordered) _
      _ ≤ longestWait * (20 - l.main.place) := Nat.mul_le_mul_left _ fewer
      _ ≤ longestWait * (20 - l.main.place) + l.waiting := Nat.le_add_right _ _
  · rw [rank, if_neg remains]
    exact rank_pos_iff.mpr tearsDown

/-- The main thread goes on, or waits for a thread that has not ended. -/
theorem mainStep_rank
    (tearsDown : l.TearsDown)
    (ordered : Ordered l)
    (opens : Bool) :
    (l.mainStep opens).rank < l.rank ∨ l.mainStep opens = l ∧ l.helpful ≠ .main := by
  have still := mainStep_ordered ordered opens
  cases phase : l.main
  case joiningClient =>
      by_cases finished : l.client = .finished
      · left
        exact rank_lt tearsDown still (by simp [mainStep, phase, finished, MainPhase.place])
      · exact Or.inr (by simp [mainStep, helpful, phase, finished])
  case joiningListen =>
      by_cases finished : l.listen = .finished
      · left
        exact rank_lt tearsDown still (by simp [mainStep, phase, finished, MainPhase.place])
      · refine Or.inr ⟨by simp [mainStep, phase, finished], ?_⟩
        rw [helpful, phase]
        cases listens : l.listen <;> simp_all [listenHelper]
        split <;> simp
  case joiningPicard =>
      by_cases finished : l.picard = .finished
      · left
        exact rank_lt tearsDown still (by simp [mainStep, phase, finished, MainPhase.place])
      · exact Or.inr (by simp [mainStep, helpful, phase, finished])
  case resettingAgain | unregistering | stoppingManager | stoppingPicard | deletingManager |
      deletingListener =>
    exact Or.inl (rank_lt tearsDown still (by simp [mainStep, phase, MainPhase.place]))
  case deletingPicard =>
    exact Or.inl (rank_lt tearsDown still (by
      simp [mainStep, phase, TearsDown, MainPhase.Between, MainPhase.place]))
  all_goals simp [TearsDown, MainPhase.Between, MainPhase.place, phase] at tearsDown

/-- The thread that the main one needs brings it nearer to the end of the reset. -/
theorem rank_goesOn
    (certain : l.Certain)
    (tearsDown : l.TearsDown)
    (action : LifecycleAction) :
    (step l action).1.rank < l.rank ∨
      (step l action).1.rank = l.rank ∧ (step l action).1.helpful = l.helpful ∧
        action.thread ≠ some l.helpful := by
  obtain ⟨ordered, -, clientEnds, listenEnds⟩ := certain
  by_cases isMain : action.thread = some .main
  · obtain ⟨opens, rfl⟩ := thread_eq_main.mp isMain
    rcases mainStep_rank tearsDown ordered opens with lower | ⟨same, notMain⟩
    · exact Or.inl lower
    · right
      rw [step, same]
      exact ⟨rfl, rfl, by simpa [LifecycleAction.thread] using notMain.symm⟩
  have sameMain : (step l action).1.main = l.main := step_main isMain
  have ranks : l.rank = longestWait * (20 - l.main.place) + l.waiting := by
    rw [rank, if_pos tearsDown]
  have nextRanks : (step l action).1.rank =
      longestWait * (20 - l.main.place) + (step l action).1.waiting := by
    rw [rank, if_pos (by rwa [TearsDown, sameMain]), sameMain]
  rw [ranks, nextRanks]
  cases phase : l.main
  case joiningClient =>
    have exists' : l.client ≠ .absent := by
      rw [Ne, ordered.client, phase]
      decide
    have ends : l.client = .finished ∨ l.client ≠ .starting ∧ l.managerRunning = false := by
      simpa [ClientEnds, phase, MainPhase.Between, MainPhase.place] using clientEnds
    simp only [waiting, helpful, sameMain, phase]
    rcases client_goesOn ends exists' isMain with nearer | ⟨same, finishedOrOther⟩
    · exact Or.inl (by omega)
    · rw [same]
      refine Or.inr ⟨rfl, rfl, ?_⟩
      split
      · exact isMain
      · rename_i notFinished
        exact finishedOrOther.resolve_left notFinished
  case joiningListen =>
    have ready : l.ListenReady := listenEnds (by rw [phase]; decide)
    simp only [waiting, helpful, sameMain, phase]
    rcases (listen_goesOn (tearsDown.present ordered) ready isMain).2 with nearer | ⟨same, rest⟩
    · exact Or.inl (by omega)
    · exact Or.inr ⟨by rw [same], rest⟩
  case joiningPicard =>
    have exists' : l.picard ≠ .absent := by
      rw [Ne, ordered.picard, phase]
      decide
    simp only [waiting, helpful, sameMain, phase]
    rcases picard_goesOn (ordered.stopped phase) exists' isMain with
      nearer | ⟨same, finishedOrOther⟩
    · exact Or.inl (by omega)
    · rw [same]
      refine Or.inr ⟨rfl, rfl, ?_⟩
      split
      · exact isMain
      · rename_i notFinished
        exact finishedOrOther.resolve_left notFinished
  all_goals
    simp only [waiting, helpful, sameMain, phase]
    exact Or.inr ⟨trivial, trivial, isMain⟩

/-- The main thread does not go back within a reset. -/
theorem mainStep_between
    {opens : Bool}
    {last : MainPhase}
    (tearsDown : l.TearsDown)
    (between : MainPhase.Between .resettingAgain last (l.mainStep opens).main) :
    MainPhase.Between .resettingAgain last l.main := by
  cases phase : l.main
  case joiningClient | joiningListen | joiningPicard =>
    simp only [mainStep, phase] at between
    split at between <;> simp [phase, MainPhase.Between, MainPhase.place] at between ⊢ <;> omega
  case resettingAgain | unregistering | stoppingManager | stoppingPicard | deletingManager |
      deletingListener | deletingPicard =>
    simp [mainStep, phase, MainPhase.Between, MainPhase.place] at between ⊢
    try omega
  all_goals simp [TearsDown, MainPhase.Between, MainPhase.place, phase] at tearsDown

theorem mainStep_clientEnds
    (tearsDown : l.TearsDown)
    (clientEnds : l.ClientEnds)
    (opens : Bool) :
    (l.mainStep opens).ClientEnds := by
  intro between
  have inside := mainStep_between tearsDown between
  have before := clientEnds inside
  cases phase : l.main
  case resettingAgain | unregistering | stoppingManager =>
    refine before.imp ?_ ?_ <;> simp +contextual [mainStep, phase]
  case joiningClient =>
    by_cases finished : l.client = .finished
    · simp [mainStep, phase, finished, MainPhase.Between, MainPhase.place] at between
    · simpa [mainStep, phase, finished] using before
  all_goals simp [phase, MainPhase.Between, MainPhase.place] at inside

theorem mainStep_listenEnds
    (tearsDown : l.TearsDown)
    (listenEnds : l.ListenEnds)
    (opens : Bool) :
    (l.mainStep opens).ListenEnds := by
  intro between
  have inside := mainStep_between tearsDown between
  have before := listenEnds inside
  cases phase : l.main
  case resettingAgain | unregistering | stoppingManager =>
    simpa [mainStep, phase, ListenReady, AboutToNotify] using before
  case joiningClient =>
    by_cases finished : l.client = .finished
    · simpa [mainStep, phase, finished, ListenReady, AboutToNotify] using before
    · simpa [mainStep, phase, finished, ListenReady, AboutToNotify] using before
  case joiningListen =>
    by_cases finished : l.listen = .finished
    · simp [mainStep, phase, finished, MainPhase.Between, MainPhase.place] at between
    · simpa [mainStep, phase, finished, ListenReady, AboutToNotify] using before
  all_goals simp [phase, MainPhase.Between, MainPhase.place] at inside

/-- The main thread stays within a reset or ends it. -/
theorem mainStep_within
    (tearsDown : l.TearsDown)
    (opens : Bool) :
    (l.mainStep opens).TearsDown ∨ (l.mainStep opens).main = .testing := by
  cases phase : l.main
  case joiningClient | joiningListen | joiningPicard =>
    left
    simp only [mainStep, phase]
    split
    · simp [TearsDown, MainPhase.Between, MainPhase.place]
    · exact tearsDown
  case deletingPicard => exact Or.inr (by simp [mainStep, phase])
  case resettingAgain | unregistering | stoppingManager | stoppingPicard | deletingManager |
      deletingListener =>
    left
    simp only [mainStep, phase]
    simp [TearsDown, MainPhase.Between, MainPhase.place]
  all_goals simp [TearsDown, MainPhase.Between, MainPhase.place, phase] at tearsDown

theorem clientEnds_kept
    {action : LifecycleAction}
    (clientEnds : l.ClientEnds)
    (notMain : action.thread ≠ some .main) :
    (step l action).1.ClientEnds := by
  obtain ⟨finished, started⟩ := client_kept (l := l) notMain
  have sameMain : (step l action).1.main = l.main := step_main notMain
  intro between
  rw [sameMain] at between ⊢
  rcases clientEnds between with ended | ⟨began, told⟩
  · exact Or.inl (finished ended)
  · obtain ⟨stays, flag⟩ := started began
    exact Or.inr ⟨stays, flag.symm ▸ told⟩

theorem certain_kept
    (certain : l.Certain)
    (tearsDown : l.TearsDown)
    (action : LifecycleAction) :
    (step l action).1.Certain := by
  have ordered := step_ordered certain.ordered action
  by_cases isMain : action.thread = some .main
  · obtain ⟨opens, rfl⟩ := thread_eq_main.mp isMain
    exact ⟨ordered, mainStep_within tearsDown opens,
      mainStep_clientEnds tearsDown certain.clientEnds opens,
      mainStep_listenEnds tearsDown certain.listenEnds opens⟩
  have sameMain : (step l action).1.main = l.main := step_main isMain
  refine ⟨ordered, Or.inl (by rwa [TearsDown, sameMain]),
    clientEnds_kept certain.clientEnds isMain, ?_⟩
  intro between
  rw [sameMain] at between
  exact (listen_goesOn (tearsDown.present certain.ordered) (certain.listenEnds between) isMain).1

/-- The helpful thread brings a reset in which no thread hangs to its end. -/
theorem helped : Machine.Helped step LifecycleAction.thread Certain rank helpful where
  kept _ action certain positive := certain_kept certain (rank_pos_iff.mp positive) action
  goesOn _ action certain positive := rank_goesOn certain (rank_pos_iff.mp positive) action

/-- Enough rounds end a reset in which no thread hangs. -/
theorem completes_of_certain
    (certain : l.Certain)
    {rounds : List (List LifecycleAction)}
    (fair : Machine.Fair LifecycleAction.thread rounds)
    (enough : l.rank ≤ rounds.length) :
    ∃ earlier, earlier <+: rounds.flatten ∧ (Machine.run step l earlier).1.main = .testing := by
  obtain ⟨earlier, isPrefix, still, ended⟩ :=
    helped.rank_zero_of_rounds certain fair enough
  refine ⟨earlier, isPrefix, still.within.resolve_left ?_⟩
  intro goesOn
  exact absurd (rank_pos_iff.mpr goesOn) (by omega)

end Lifecycle

end SerialMux
