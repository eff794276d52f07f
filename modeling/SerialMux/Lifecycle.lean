import SerialMux.SerialRead

/-!
# The life of the components

`serial_mux_loop` creates the Picard connection, the client manager and the listener, starts a
thread for each, and runs the I/O service until somebody resets the connection.  It then stops
and joins the threads, deletes the components and starts again.  `resetConnection` runs in the
Picard thread, in the command thread or in the thread that calls `serial_mux_stop`, and
`m_connect` is a condition variable for which only the listen thread waits.  It is assumed that
closing the clients does not throw: where the shutdown of a socket fails, the exception ends the
reset, and in the command thread the process.
-/

namespace SerialMux

/-- The objects behind `gPicardIO`, `gClientMgr` and `gListener`. -/
inductive Component
  | picardIo
  | clientMgr
  | listener
  deriving DecidableEq, Repr

/-- The threads beside the main one. -/
inductive MuxThread
  | picard
  | client
  | listen
  | stopper
  deriving DecidableEq, Repr

/-- The next statement of `resetConnection`. -/
inductive ResetPhase
  | notifying
  | stoppingPicard
  | closingClients
  | stoppingListener
  | stoppingService
  deriving DecidableEq, Repr

/-- The next statement of `serial_mux_loop`. -/
inductive MainPhase
  | testing
  | resettingService
  | connecting
  | creating
  | starting
  | spawningPicard
  | spawningClient
  | listening
  | spawningListen
  | running
  | resettingAgain
  | unregistering
  | stoppingManager
  | joiningClient
  | joiningListen
  | stoppingPicard
  | joiningPicard
  | deletingManager
  | deletingListener
  | deletingPicard
  | notifying
  | ended
  deriving DecidableEq, Repr

/-- The next statement of `threadMain`: the test of its loop, or a read with the bytes that are
left of it.  A reset in the middle of a read goes back to these bytes.  There is no thread before
it is started and once it is joined. -/
inductive PicardThread
  | absent
  | testing
  | reading (left : Nat)
  | resetting (reset : ResetPhase) (left : Option Nat)
  | finished
  deriving DecidableEq, Repr

/-- What follows a reset: the rest of a read, or the test of the loop. -/
def PicardThread.rest : Option Nat → PicardThread
  | some left => .reading left
  | none => .testing

/-- The next statement of `commandLoop`: its first one, the test of its loop, or a command. -/
inductive ClientThread
  | absent
  | starting
  | testing
  | working
  | resetting (reset : ResetPhase)
  | finished
  deriving DecidableEq, Repr

/-- The next statement of `listen_thread`: the test of `waitForHello`, its call of `wait`, and
what follows it. -/
inductive ListenThread
  | absent
  | checking
  | entering
  | blocked
  | listening
  | finished
  deriving DecidableEq, Repr

/-- `m_connect.notify_all`. -/
def ListenThread.notified : ListenThread → ListenThread
  | .blocked => .listening
  | phase => phase

@[simp] theorem ListenThread.notified_eq_absent (phase : ListenThread) :
    phase.notified = .absent ↔ phase = .absent := by
  cases phase <;> simp [notified]

@[simp] theorem ListenThread.notified_finished : ListenThread.finished.notified = .finished := rfl

/-- The next statement of `serial_mux_stop`. -/
inductive StopperThread
  | idle
  | flagging
  | resetting (reset : ResetPhase)
  | entering
  | blocked
  | returned
  deriving DecidableEq, Repr

/-- The global variables, the fields of the components that the threads test, and the place of
each thread. -/
structure Lifecycle where
  muxRunning : Bool := true
  serviceStopped : Bool := false
  picardIo : Bool := false
  clientMgr : Bool := false
  listener : Bool := false
  picardRunning : Bool := false
  connected : Bool := false
  callback : Bool := false
  managerRunning : Bool := false
  main : MainPhase := .testing
  picard : PicardThread := .absent
  client : ClientThread := .absent
  listen : ListenThread := .absent
  stopper : StopperThread := .idle
  deriving DecidableEq, Repr

/-- What a read of the Picard thread comes to: its end, a frame that is passed on to the client
manager, a Hello Response, a Manager Hello, or an exception.  All but the end take some byte. -/
inductive ReadResult
  | nothing
  | callback
  | helloResponse
  | mgrHello
  | portError
  deriving DecidableEq, Repr

/-- What can happen next: a statement of a thread, with what decides how it goes on, a call of
`serial_mux_stop`, or a thread that leaves a wait for no reason. -/
inductive LifecycleAction
  | main (opens : Bool)
  | picard (result : ReadResult)
  | client (timesOut : Bool)
  | listen
  | stopper
  | stop
  | wakeListen
  | wakeStopper
  deriving DecidableEq, Repr

/-- A component that a thread uses, and whether it exists. -/
structure Use where
  thread : MuxThread
  component : Component
  alive : Bool
  deriving DecidableEq, Repr

namespace Lifecycle

def has (l : Lifecycle) : Component → Bool
  | .picardIo => l.picardIo
  | .clientMgr => l.clientMgr
  | .listener => l.listener

/-- The uses of some components by a thread. -/
def uses (l : Lifecycle) (thread : MuxThread) (components : List Component) : List Use :=
  components.map fun component =>
    { thread := thread, component := component, alive := l.has component }

/-- One statement of `resetConnection`, with the next one and the components it uses.  Each
pointer is tested once, and that of the Picard connection is used twice behind its test. -/
def resetStep (l : Lifecycle) : ResetPhase → Lifecycle × Option ResetPhase × List Component
  | .notifying =>
      if l.picardIo then
        ({ l with listen := l.listen.notified }, some .stoppingPicard, [.picardIo])
      else (l, some .closingClients, [])
  | .stoppingPicard => ({ l with picardRunning := false }, some .closingClients, [.picardIo])
  | .closingClients => (l, some .stoppingListener, if l.clientMgr then [.clientMgr] else [])
  | .stoppingListener => (l, some .stoppingService, if l.listener then [.listener] else [])
  | .stoppingService => ({ l with serviceStopped := true }, none, [])

/-- The next statement of `serial_mux_loop`.  The connection may not open. -/
def mainStep (l : Lifecycle) (opens : Bool) : Lifecycle :=
  match l.main with
  | .testing => { l with main := if l.muxRunning then .resettingService else .notifying }
  | .resettingService => { l with serviceStopped := false, main := .connecting }
  | .connecting =>
      if opens then
        { l with
          picardIo := true
          picardRunning := false
          connected := false
          callback := false
          main := .creating }
      else { l with main := .testing }
  | .creating =>
      { l with clientMgr := true, managerRunning := false, callback := true, main := .starting }
  | .starting => { l with picardRunning := true, main := .spawningPicard }
  | .spawningPicard => { l with picard := .testing, main := .spawningClient }
  | .spawningClient => { l with client := .starting, main := .listening }
  | .listening => { l with listener := true, main := .spawningListen }
  | .spawningListen => { l with listen := .checking, main := .running }
  | .running => if l.serviceStopped then { l with main := .resettingAgain } else l
  | .resettingAgain => { l with serviceStopped := false, main := .unregistering }
  | .unregistering => { l with callback := false, main := .stoppingManager }
  | .stoppingManager => { l with managerRunning := false, main := .joiningClient }
  | .joiningClient =>
      if l.client = .finished then { l with client := .absent, main := .joiningListen } else l
  | .joiningListen =>
      if l.listen = .finished then { l with listen := .absent, main := .stoppingPicard } else l
  | .stoppingPicard => { l with picardRunning := false, main := .joiningPicard }
  | .joiningPicard =>
      if l.picard = .finished then { l with picard := .absent, main := .deletingManager } else l
  | .deletingManager => { l with clientMgr := false, main := .deletingListener }
  | .deletingListener => { l with listener := false, main := .deletingPicard }
  | .deletingPicard => { l with picardIo := false, main := .testing }
  | .notifying =>
      { l with
        main := .ended
        stopper := if l.stopper = .blocked then .returned else l.stopper }
  | .ended => l

/-- The next statement of `threadMain`. -/
def picardStep (l : Lifecycle) (result : ReadResult) : Lifecycle × List Use :=
  match l.picard with
  | .testing =>
      ({ l with picard := if l.picardRunning then .reading inputBufferLen else .finished },
        l.uses .picard [.picardIo])
  | .reading 0 => ({ l with picard := .testing }, l.uses .picard [.picardIo])
  | .reading (left + 1) =>
      match result with
      | .nothing => ({ l with picard := .testing }, l.uses .picard [.picardIo])
      | .callback =>
          ({ l with picard := .reading left },
            l.uses .picard (if l.callback then [.picardIo, .clientMgr] else [.picardIo]))
      | .helloResponse =>
          (if l.connected then { l with picard := .reading left }
            else { l with connected := true, listen := l.listen.notified, picard := .reading left },
            l.uses .picard [.picardIo])
      | .mgrHello =>
          ({ l with
              picard :=
                if l.connected then .resetting .notifying (some left) else .reading left },
            l.uses .picard [.picardIo])
      | .portError =>
          ({ l with picard := .resetting .notifying none }, l.uses .picard [.picardIo])
  | .resetting reset left =>
      let (next, further, components) := l.resetStep reset
      ({ next with picard := further.elim (.rest left) (.resetting · left) },
        l.uses .picard components)
  | .absent | .finished => (l, [])

/-- The next statement of `commandLoop`.  Only a command of a client times out, and clients
connect behind the end of the listen thread. -/
def clientStep (l : Lifecycle) (timesOut : Bool) : Lifecycle × List Use :=
  match l.client with
  | .starting =>
      ({ l with managerRunning := true, client := .testing }, l.uses .client [.clientMgr])
  | .testing =>
      ({ l with client := if l.managerRunning then .working else .finished },
        l.uses .client [.clientMgr])
  | .working =>
      ({ l with
          client := if timesOut ∧ l.listen = .finished then .resetting .notifying else .testing },
        l.uses .client [.clientMgr, .picardIo])
  | .resetting reset =>
      let (next, further, components) := l.resetStep reset
      ({ next with client := further.elim .testing .resetting }, l.uses .client components)
  | .absent | .finished => (l, [])

/-- The next statement of `listen_thread`. -/
def listenStep (l : Lifecycle) : Lifecycle × List Use :=
  match l.listen with
  | .checking =>
      ({ l with listen := if l.connected then .listening else .entering },
        l.uses .listen [.picardIo])
  | .entering => ({ l with listen := .blocked }, l.uses .listen [.picardIo])
  | .listening => ({ l with listen := .finished }, l.uses .listen [.picardIo, .listener])
  | .absent | .blocked | .finished => (l, [])

/-- The next statement of `serial_mux_stop`. -/
def stopperStep (l : Lifecycle) : Lifecycle × List Use :=
  match l.stopper with
  | .flagging => ({ l with muxRunning := false, stopper := .resetting .notifying }, [])
  | .resetting reset =>
      let (next, further, components) := l.resetStep reset
      ({ next with stopper := further.elim .entering .resetting }, l.uses .stopper components)
  | .entering => ({ l with stopper := .blocked }, [])
  | .idle | .blocked | .returned => (l, [])

/-- One step. -/
def step (l : Lifecycle) : LifecycleAction → Lifecycle × List Use
  | .main opens => (l.mainStep opens, [])
  | .picard result => l.picardStep result
  | .client timesOut => l.clientStep timesOut
  | .listen => l.listenStep
  | .stopper => l.stopperStep
  | .stop => (if l.stopper = .idle then { l with stopper := .flagging } else l, [])
  | .wakeListen => ({ l with listen := l.listen.notified }, [])
  | .wakeStopper => (if l.stopper = .blocked then { l with stopper := .returned } else l, [])

/-- The states that a run can reach. -/
def Reachable (l : Lifecycle) : Prop :=
  ∃ actions, (Machine.run step {} actions).1 = l

end Lifecycle

/-! ## Components and threads -/

/-- The place of a statement in `serial_mux_loop`. -/
def MainPhase.place : MainPhase → Nat
  | .testing => 0
  | .resettingService => 1
  | .connecting => 2
  | .creating => 3
  | .starting => 4
  | .spawningPicard => 5
  | .spawningClient => 6
  | .listening => 7
  | .spawningListen => 8
  | .running => 9
  | .resettingAgain => 10
  | .unregistering => 11
  | .stoppingManager => 12
  | .joiningClient => 13
  | .joiningListen => 14
  | .stoppingPicard => 15
  | .joiningPicard => 16
  | .deletingManager => 17
  | .deletingListener => 18
  | .deletingPicard => 19
  | .notifying => 20
  | .ended => 21

/-- A statement stands between two others, which count. -/
def MainPhase.Between (first last phase : MainPhase) : Prop :=
  first.place ≤ phase.place ∧ phase.place ≤ last.place

instance (first last phase : MainPhase) : Decidable (MainPhase.Between first last phase) :=
  inferInstanceAs (Decidable (_ ∧ _))

/-- The reset has stopped the Picard connection. -/
def ResetPhase.hasStopped : ResetPhase → Bool
  | .notifying | .stoppingPicard => false
  | .closingClients | .stoppingListener | .stoppingService => true

/-- The bytes that are left of a read. -/
def PicardThread.left : PicardThread → Nat
  | .reading left | .resetting _ (some left) => left
  | .absent | .testing | .resetting _ none | .finished => 0

namespace Lifecycle

/-- In which part of the loop each component and each thread exists. -/
structure Ordered (l : Lifecycle) : Prop where
  picardIo : l.picardIo = decide (MainPhase.Between .creating .deletingPicard l.main)
  clientMgr : l.clientMgr = decide (MainPhase.Between .starting .deletingManager l.main)
  listener : l.listener = decide (MainPhase.Between .spawningListen .deletingListener l.main)
  callback : l.callback → MainPhase.Between .starting .unregistering l.main
  picard : l.picard = .absent ↔ ¬MainPhase.Between .spawningClient .joiningPicard l.main
  client : l.client = .absent ↔ ¬MainPhase.Between .listening .joiningClient l.main
  listen : l.listen = .absent ↔ ¬MainPhase.Between .running .joiningListen l.main
  listened : ∀ reset, l.client = .resetting reset → l.listen = .finished
  halted : ∀ reset left, l.picard = .resetting reset left → reset.hasStopped →
    l.picardRunning = false
  stopped : l.main = .joiningPicard → l.picardRunning = false
  bounded : l.picard.left ≤ inputBufferLen

variable {l : Lifecycle}

/-- The main thread: each of its statements ends or begins parts of the loop. -/
theorem mainStep_ordered (ordered : Ordered l) (opens : Bool) : Ordered (l.mainStep opens) := by
  obtain ⟨picardIo, clientMgr, listener, callback, picard, client, listen, listened, halted,
    stopped, bounded⟩ := ordered
  unfold mainStep
  cases phase : l.main
  all_goals
    rw [phase] at picardIo clientMgr listener callback picard client listen
    simp only [MainPhase.Between, MainPhase.place, Nat.reduceLeDiff, and_true, and_false, and_self,
      not_true_eq_false, not_false_eq_true, decide_true, decide_false,
      iff_true, iff_false] at picardIo clientMgr listener callback picard client listen
    dsimp only
    first
      | (split <;> constructor <;>
          first
            | exact halted
            | exact bounded
            | simp_all [MainPhase.Between, MainPhase.place, PicardThread.left])
      | (constructor <;>
          first
            | exact halted
            | exact bounded
            | simp_all [MainPhase.Between, MainPhase.place, PicardThread.left])

/-- What the other threads leave alone. -/
structure SameLoop (before after : Lifecycle) : Prop where
  main : after.main = before.main
  picardIo : after.picardIo = before.picardIo
  clientMgr : after.clientMgr = before.clientMgr
  listener : after.listener = before.listener
  callback : after.callback = before.callback
  picard : after.picard = .absent ↔ before.picard = .absent
  client : after.client = .absent ↔ before.client = .absent
  listen : after.listen = .absent ↔ before.listen = .absent
  stopped : before.picardRunning = false → after.picardRunning = false

theorem SameLoop.ordered
    {next : Lifecycle}
    (same : SameLoop l next)
    (ordered : Ordered l)
    (listened : ∀ reset, next.client = .resetting reset → next.listen = .finished)
    (halted : ∀ reset left, next.picard = .resetting reset left → reset.hasStopped →
      next.picardRunning = false)
    (bounded : next.picard.left ≤ inputBufferLen) :
    Ordered next where
  picardIo := by rw [same.picardIo, same.main]; exact ordered.picardIo
  clientMgr := by rw [same.clientMgr, same.main]; exact ordered.clientMgr
  listener := by rw [same.listener, same.main]; exact ordered.listener
  callback := by rw [same.callback, same.main]; exact ordered.callback
  picard := by rw [same.picard, same.main]; exact ordered.picard
  client := by rw [same.client, same.main]; exact ordered.client
  listen := by rw [same.listen, same.main]; exact ordered.listen
  listened := listened
  halted := halted
  stopped isJoining := same.stopped (ordered.stopped (same.main.symm.trans isJoining))
  bounded := bounded

/-- What a statement of `resetConnection` changes. -/
theorem resetStep_frame (l : Lifecycle) (reset : ResetPhase) :
    SameLoop l (l.resetStep reset).1 ∧ (l.resetStep reset).1.picard = l.picard ∧
      (l.resetStep reset).1.client = l.client ∧
      (l.listen = .finished → (l.resetStep reset).1.listen = .finished) := by
  have unchanged : SameLoop l l := ⟨rfl, rfl, rfl, rfl, rfl, Iff.rfl, Iff.rfl, Iff.rfl, id⟩
  cases reset with
  | notifying =>
      rw [resetStep]
      split
      · exact ⟨{ unchanged with listen := by simp }, rfl, rfl, fun finished => by simp [finished]⟩
      · exact ⟨unchanged, rfl, rfl, id⟩
  | stoppingPicard => exact ⟨{ unchanged with stopped := fun _ => rfl }, rfl, rfl, id⟩
  | closingClients | stoppingListener => exact ⟨unchanged, rfl, rfl, id⟩
  | stoppingService => exact ⟨{ unchanged with }, rfl, rfl, id⟩

/-- Behind the statement that stops an existing Picard connection, it is stopped. -/
theorem resetStep_halted
    {reset next : ResetPhase}
    (present : l.picardIo = true)
    (halted : reset.hasStopped → l.picardRunning = false)
    (further : (l.resetStep reset).2.1 = some next)
    (hasStopped : next.hasStopped) :
    (l.resetStep reset).1.picardRunning = false := by
  cases reset with
  | notifying =>
      rw [resetStep, if_pos present] at further
      cases further
      cases hasStopped
  | stoppingPicard => rfl
  | closingClients | stoppingListener | stoppingService => exact halted rfl

/-- A thread other than the main one runs only where the components that it uses exist. -/
theorem Ordered.alive
    (ordered : Ordered l)
    (runs : l.picard ≠ .absent ∨ l.client ≠ .absent ∨ l.listen ≠ .absent) :
    l.picardIo = true ∧ l.clientMgr = true ∧ (l.listen ≠ .absent → l.listener = true) := by
  rw [ordered.picardIo, ordered.clientMgr, ordered.listener]
  rw [Ne, Ne, Ne, ordered.picard, ordered.client, ordered.listen, not_not, not_not, not_not] at runs
  rw [Ne, ordered.listen, not_not]
  simp only [decide_eq_true_eq]
  simp only [MainPhase.Between, MainPhase.place] at runs ⊢
  omega

theorem picardStep_ordered (ordered : Ordered l) (result : ReadResult) :
    Ordered (l.picardStep result).1 := by
  have unchanged : SameLoop l l := ⟨rfl, rfl, rfl, rfl, rfl, Iff.rfl, Iff.rfl, Iff.rfl, id⟩
  have goesTo {next : PicardThread} (exists' : l.picard ≠ .absent) (goesOn : next ≠ .absent)
      (noReset : ∀ reset left, next = .resetting reset left → reset = .notifying)
      (bounded : next.left ≤ inputBufferLen) :
      Ordered { l with picard := next } := by
    refine SameLoop.ordered { unchanged with picard := by simp [exists', goesOn] } ordered
      ordered.listened ?_ bounded
    intro reset left resetting hasStopped
    rw [noReset reset left resetting] at hasStopped
    cases hasStopped
  have bounded := ordered.bounded
  unfold picardStep
  cases phase : l.picard with
  | absent | finished => exact ordered
  | testing =>
      dsimp only
      split
      · exact goesTo (by simp [phase]) (by simp) (by simp) (le_refl inputBufferLen)
      · exact goesTo (by simp [phase]) (by simp) (by simp) (Nat.zero_le _)
  | reading left =>
      rw [phase] at bounded
      cases left with
      | zero => exact goesTo (by simp [phase]) (by simp) (by simp) (Nat.zero_le _)
      | succ left =>
          have fewer : left ≤ inputBufferLen := Nat.le_of_succ_le bounded
          have goesOn : Ordered { l with picard := .reading left } :=
            goesTo (by simp [phase]) (by simp) (by simp) fewer
          cases result with
          | nothing => exact goesTo (by simp [phase]) (by simp) (by simp) (Nat.zero_le _)
          | callback => exact goesOn
          | portError =>
              exact goesTo (by simp [phase]) (by simp) (by simp +contextual) (Nat.zero_le _)
          | mgrHello =>
              dsimp only
              split
              · exact goesTo (by simp [phase]) (by simp) (by simp +contextual) fewer
              · exact goesOn
          | helloResponse =>
              dsimp only
              split
              · exact goesOn
              · refine SameLoop.ordered
                  { unchanged with picard := by simp [phase], listen := by simp } ordered ?_
                  (by simp) fewer
                intro reset resetting
                simp [ordered.listened reset resetting]
  | resetting reset left =>
      rw [phase] at bounded
      obtain ⟨same, -, sameClient, finished⟩ := l.resetStep_frame reset
      have present := (ordered.alive (Or.inl (by simp [phase]))).1
      dsimp only
      refine SameLoop.ordered { same with picard := ?_ } ordered ?_ ?_ ?_
      · cases (l.resetStep reset).2.1 <;> cases left <;> simp [phase, PicardThread.rest]
      · intro other resetting
        exact finished (ordered.listened other (sameClient.symm.trans resetting))
      · intro next further resetting hasStopped
        cases goesOn : (l.resetStep reset).2.1 with
        | none => cases left <;> simp [goesOn, PicardThread.rest] at resetting
        | some other =>
            obtain ⟨rfl, -⟩ : other = next ∧ left = further := by simpa [goesOn] using resetting
            exact resetStep_halted present (ordered.halted reset left phase) goesOn hasStopped
      · cases (l.resetStep reset).2.1 <;> cases left <;> exact bounded

theorem clientStep_ordered (ordered : Ordered l) (timesOut : Bool) :
    Ordered (l.clientStep timesOut).1 := by
  have unchanged : SameLoop l l := ⟨rfl, rfl, rfl, rfl, rfl, Iff.rfl, Iff.rfl, Iff.rfl, id⟩
  unfold clientStep
  cases phase : l.client with
  | absent | finished => exact ordered
  | starting =>
      exact SameLoop.ordered { unchanged with client := by simp [phase] } ordered (by simp)
        ordered.halted ordered.bounded
  | testing =>
      refine SameLoop.ordered { unchanged with client := ?_ } ordered ?_ ordered.halted
        ordered.bounded <;> dsimp only <;> split <;> simp [phase]
  | working =>
      dsimp only
      split
      · rename_i timeout
        exact SameLoop.ordered { unchanged with client := by simp [phase] } ordered
          (fun _ _ => timeout.2) ordered.halted ordered.bounded
      · exact SameLoop.ordered { unchanged with client := by simp [phase] } ordered (by simp)
          ordered.halted ordered.bounded
  | resetting reset =>
      obtain ⟨same, samePicard, -, finished⟩ := l.resetStep_frame reset
      dsimp only
      refine SameLoop.ordered { same with client := ?_ } ordered ?_ ?_ ?_
      · cases (l.resetStep reset).2.1 <;> simp [phase]
      · exact fun _ _ => finished (ordered.listened reset phase)
      · intro other left resetting hasStopped
        exact same.stopped
          (ordered.halted other left (samePicard.symm.trans resetting) hasStopped)
      · rw [samePicard]
        exact ordered.bounded

theorem listenStep_ordered (ordered : Ordered l) : Ordered l.listenStep.1 := by
  have unchanged : SameLoop l l := ⟨rfl, rfl, rfl, rfl, rfl, Iff.rfl, Iff.rfl, Iff.rfl, id⟩
  have notResetting (phase : l.listen ≠ .finished) (reset : ResetPhase) :
      l.client ≠ .resetting reset := fun resetting => phase (ordered.listened reset resetting)
  unfold listenStep
  cases phase : l.listen with
  | absent | blocked | finished => exact ordered
  | checking =>
      refine SameLoop.ordered { unchanged with listen := ?_ } ordered ?_ ordered.halted
        ordered.bounded
      · dsimp only
        split <;> simp [phase]
      · exact fun reset resetting => absurd resetting (notResetting (by simp [phase]) reset)
  | entering | listening =>
      exact SameLoop.ordered { unchanged with listen := by simp [phase] } ordered
        (fun reset resetting => absurd resetting (notResetting (by simp [phase]) reset))
        ordered.halted ordered.bounded

theorem stopperStep_ordered (ordered : Ordered l) : Ordered l.stopperStep.1 := by
  unfold stopperStep
  cases phase : l.stopper with
  | idle | blocked | returned => exact ordered
  | flagging | entering => exact { ordered with }
  | resetting reset =>
      obtain ⟨same, samePicard, sameClient, finished⟩ := l.resetStep_frame reset
      refine SameLoop.ordered { same with } ordered ?_ ?_ ?_
      · intro other resetting
        exact finished (ordered.listened other (sameClient.symm.trans resetting))
      · intro other left resetting hasStopped
        exact same.stopped
          (ordered.halted other left (samePicard.symm.trans resetting) hasStopped)
      · exact (congrArg PicardThread.left samePicard).trans_le ordered.bounded

theorem step_ordered (ordered : Ordered l) (action : LifecycleAction) :
    Ordered (step l action).1 := by
  cases action with
  | main opens => exact mainStep_ordered ordered opens
  | picard result => exact picardStep_ordered ordered result
  | client timesOut => exact clientStep_ordered ordered timesOut
  | listen => exact listenStep_ordered ordered
  | stopper => exact stopperStep_ordered ordered
  | stop =>
      rw [step]
      dsimp only
      split
      · exact { ordered with }
      · exact ordered
  | wakeListen =>
      have unchanged : SameLoop l l := ⟨rfl, rfl, rfl, rfl, rfl, Iff.rfl, Iff.rfl, Iff.rfl, id⟩
      refine SameLoop.ordered { unchanged with listen := by simp [step] } ordered ?_ ordered.halted
        ordered.bounded
      intro reset resetting
      simp [step, ordered.listened reset resetting]
  | wakeStopper =>
      rw [step]
      dsimp only
      split
      · exact { ordered with }
      · exact ordered

theorem initially_ordered : Ordered {} := by
  constructor <;> simp [MainPhase.Between, MainPhase.place, PicardThread.left]

theorem reachable_ordered (reachable : Reachable l) : Ordered l := by
  obtain ⟨actions, rfl⟩ := reachable
  exact Machine.state_invariant_run Ordered (fun _ action ordered _ => step_ordered ordered action)
    initially_ordered (Machine.meets_true _ actions)

/-! ## What the threads use -/

theorem alive_of_mem_uses
    {thread : MuxThread}
    {components : List Component}
    {use : Use}
    (present : ∀ component ∈ components, l.has component = true)
    (used : use ∈ l.uses thread components) :
    use.alive = true := by
  obtain ⟨component, mem, rfl⟩ := List.mem_map.mp used
  exact present component mem

/-- `resetConnection` uses what exists if the Picard connection does. -/
theorem resetStep_uses
    {reset : ResetPhase}
    (present : l.picardIo = true) :
    ∀ component ∈ (l.resetStep reset).2.2, l.has component = true := by
  intro component used
  cases reset with
  | notifying =>
      rw [resetStep, if_pos present, List.mem_singleton] at used
      rw [used]
      exact present
  | stoppingPicard =>
      rw [resetStep, List.mem_singleton] at used
      rw [used]
      exact present
  | closingClients | stoppingListener =>
      simp only [resetStep] at used
      split at used
      · rename_i exists'
        rw [List.mem_singleton.mp used]
        exact exists'
      · cases used
  | stoppingService => cases used

theorem picardStep_uses
    {result : ReadResult}
    {use : Use}
    (picardIo : l.picardIo = true)
    (clientMgr : l.clientMgr = true)
    (used : use ∈ (l.picardStep result).2) :
    use.alive = true := by
  have connection : ∀ component ∈ [Component.picardIo], l.has component = true := by
    simpa [has] using picardIo
  unfold picardStep at used
  cases phase : l.picard with
  | absent | finished =>
      rw [phase] at used
      cases used
  | testing =>
      rw [phase] at used
      exact alive_of_mem_uses connection used
  | reading left =>
      rw [phase] at used
      cases left with
      | zero => exact alive_of_mem_uses connection used
      | succ left =>
          cases result with
          | callback =>
              dsimp only at used
              split at used
              · exact alive_of_mem_uses (by simpa [has] using ⟨picardIo, clientMgr⟩) used
              · exact alive_of_mem_uses connection used
          | nothing | helloResponse | mgrHello | portError =>
              exact alive_of_mem_uses connection used
  | resetting reset left =>
      rw [phase] at used
      exact alive_of_mem_uses (resetStep_uses picardIo) used

theorem clientStep_uses
    {timesOut : Bool}
    {use : Use}
    (picardIo : l.picardIo = true)
    (clientMgr : l.clientMgr = true)
    (used : use ∈ (l.clientStep timesOut).2) :
    use.alive = true := by
  unfold clientStep at used
  cases phase : l.client with
  | absent | finished =>
      rw [phase] at used
      cases used
  | starting | testing =>
      rw [phase] at used
      exact alive_of_mem_uses (by simpa [has] using clientMgr) used
  | working =>
      rw [phase] at used
      exact alive_of_mem_uses (by simpa [has] using ⟨clientMgr, picardIo⟩) used
  | resetting reset =>
      rw [phase] at used
      exact alive_of_mem_uses (resetStep_uses picardIo) used

theorem listenStep_uses
    {use : Use}
    (picardIo : l.picardIo = true)
    (listener : l.listener = true)
    (used : use ∈ l.listenStep.2) :
    use.alive = true := by
  unfold listenStep at used
  cases phase : l.listen with
  | absent | blocked | finished =>
      rw [phase] at used
      cases used
  | checking | entering =>
      rw [phase] at used
      exact alive_of_mem_uses (by simpa [has] using picardIo) used
  | listening =>
      rw [phase] at used
      exact alive_of_mem_uses (by simpa [has] using ⟨picardIo, listener⟩) used

/-- In every step the Picard thread, the command thread and the listen thread use components
that exist. -/
theorem step_uses
    (ordered : Ordered l)
    {action : LifecycleAction}
    {use : Use}
    (used : use ∈ (step l action).2)
    (notStopper : use.thread ≠ .stopper) :
    use.alive = true := by
  cases action with
  | main | stop | wakeListen | wakeStopper => cases used
  | stopper =>
      simp only [step, stopperStep] at used
      split at used
      · cases used
      · obtain ⟨component, -, rfl⟩ := List.mem_map.mp used
        exact absurd rfl notStopper
      · cases used
      all_goals cases used
  | picard result =>
      by_cases absent : l.picard = .absent
      · simp [step, picardStep, absent] at used
      · obtain ⟨picardIo, clientMgr, -⟩ := ordered.alive (Or.inl absent)
        exact picardStep_uses picardIo clientMgr used
  | client timesOut =>
      by_cases absent : l.client = .absent
      · simp [step, clientStep, absent] at used
      · obtain ⟨picardIo, clientMgr, -⟩ := ordered.alive (Or.inr (Or.inl absent))
        exact clientStep_uses picardIo clientMgr used
  | listen =>
      by_cases absent : l.listen = .absent
      · simp [step, listenStep, absent] at used
      · obtain ⟨picardIo, -, listener⟩ := ordered.alive (Or.inr (Or.inr absent))
        exact listenStep_uses picardIo (listener absent) used

/-- The threads are where the main one is, and none but the caller of `serial_mux_stop` has used
a component that does not exist. -/
def UsesAlive (l : Lifecycle) (outputs : List Use) : Prop :=
  Ordered l ∧ ∀ use ∈ outputs, use.thread ≠ .stopper → use.alive = true

theorem step_usesAlive
    {outputs : List Use}
    (known : UsesAlive l outputs)
    (action : LifecycleAction) :
    UsesAlive (step l action).1 (outputs ++ (step l action).2) := by
  refine ⟨step_ordered known.1 action, ?_⟩
  intro use used notStopper
  rcases List.mem_append.mp used with before | now
  · exact known.2 use before notStopper
  · exact step_uses known.1 now notStopper

/-- Whatever the order of steps, and whenever connections fail, Picard resets, commands time out
and `serial_mux_stop` is called: the Picard thread, the command thread and the listen thread use
no component before it is created or after it is deleted. -/
theorem components_outlive_threads
    (actions : List LifecycleAction)
    (use : Use)
    (used : use ∈ (Machine.run step {} actions).2) :
    use.thread = .stopper ∨ use.alive = true := by
  have initially : UsesAlive {} [] := ⟨initially_ordered, by simp⟩
  have known := Machine.invariant_run UsesAlive
    (fun _ _ action known _ => step_usesAlive known action) initially
    (Machine.meets_true _ actions)
  exact or_iff_not_imp_left.mpr (known.2 use used)

theorem components_outlive_threads_example :
    (⟨.picard, .clientMgr, true⟩ : Use) ∈ (Machine.run step {}
      (List.replicate 10 (.main true) ++ [.picard .nothing, .picard .callback])).2 ∧
      (MuxThread.picard = .stopper ∨ true = true) :=
  ⟨by decide +kernel, components_outlive_threads
    (List.replicate 10 (.main true) ++ [.picard .nothing, .picard .callback])
    ⟨.picard, .clientMgr, true⟩ (by decide +kernel)⟩

/-- The thread that calls `serial_mux_stop` tests the pointer to the Picard connection, and uses
it when the main thread has deleted the connection. -/
example :
    (⟨.stopper, .picardIo, false⟩ : Use) ∈ (Machine.run step {}
      (List.flatten [List.replicate 10 (.main true),
        [.stop, .stopper, .picard .nothing, .picard .helloResponse, .listen, .listen,
          .client false, .picard .portError, .stopper],
        List.replicate 5 (.picard .nothing), List.replicate 4 (.main true),
        [.client false], List.replicate 3 (.main true), [.picard .nothing],
        List.replicate 4 (.main true), [.stopper]])).2 := by
  decide +kernel

end Lifecycle

end SerialMux
