import SerialMux.Responses

/-!
# Stopping the command loop

`stop` clears the flag that the command loop tests, but the loop itself sets the
flag in its first statement.  Here `addCommand` and `stop` may be called at any
time.  A stop stays in force exactly when the loop has passed that statement.
-/

namespace SerialMux

namespace LoopPhase

/-- A bound on the statements before a loop whose flag is false has ended. -/
def exitRank (retries : Int) : LoopPhase → Nat
  | .finished | .crashed => 0
  | .popping => 16 + 3 * retries.toNat
  | phase => phase.rank retries + 1

theorem exitRank_of_rank_pos
    {retries : Int}
    {phase : LoopPhase}
    (positive : 0 < phase.rank retries) :
    phase.exitRank retries = phase.rank retries + 1 := by
  cases phase <;> first | rfl | cases positive

theorem exitRank_le_rank
    {retries : Int}
    {phase : LoopPhase}
    (notPopping : phase ≠ .popping) :
    phase.exitRank retries ≤ phase.rank retries + 1 := by
  cases phase <;> first | exact absurd rfl notPopping | exact le_refl _ | exact Nat.zero_le _

/-- The way is longest before a command is taken. -/
theorem exitRank_le_popping (retries : Int) (phase : LoopPhase) :
    phase.exitRank retries ≤ exitRank retries .popping := by
  cases phase <;> simp only [exitRank, rank] <;> omega

theorem eq_of_exitRank_zero
    {retries : Int}
    {phase : LoopPhase}
    (done : phase.exitRank retries = 0) :
    phase = .finished ∨ phase = .crashed := by
  cases phase <;> simp [exitRank] at done ⊢

end LoopPhase

namespace Mux

variable {retries : Int} {m : Mux}

/-- One step when any thread may call `addCommand` and `stop` at any time. -/
def freeStep (retries : Int) (m : Mux) (action : Action) : Mux × List Output :=
  if m.hasCrashed then (m, [])
  else
    match action with
    | .addCommand client command =>
        ({ m with commands := m.commands ++ [{ client := some client, command := command }] },
          [])
    | .stop => ({ m with isRunning := false, stopping := true }, [])
    | action => m.perform retries action

theorem freeStep_of_crashed (crashed : m.hasCrashed) (action : Action) :
    freeStep retries m action = (m, []) := if_pos crashed

theorem freeStep_clearCommands
    (running : ¬m.hasCrashed)
    (stopping : m.stopping = true) :
    freeStep retries m .clearCommands = ({ m with commands := [], stopping := false }, []) := by
  have performed : freeStep retries m .clearCommands = m.perform retries .clearCommands :=
    if_neg running
  rw [performed]
  exact if_pos stopping

theorem freeStep_starting
    (running : ¬m.hasCrashed)
    (starting : m.loop = .starting) :
    freeStep retries m .loop = ({ m with isRunning := true, loop := .checking }, []) := by
  have performed : freeStep retries m .loop = m.loopStep retries := if_neg running
  rw [performed]
  simp only [loopStep, starting]

/-- A step of the process is a free step or leaves the process alone. -/
theorem step_eq_freeStep_or_idle (m : Mux) (action : Action) :
    step retries m action = freeStep retries m action ∨ step retries m action = (m, []) := by
  unfold step freeStep
  split
  · exact Or.inr rfl
  · cases action with
    | addCommand client command =>
        simp only [perform, addCommand]
        split
        · exact Or.inl rfl
        · exact Or.inr rfl
    | stop =>
        simp only [perform]
        split
        · exact Or.inl rfl
        · exact Or.inr rfl
    | _ => exact Or.inl rfl

/-- So every run of the process is a free run. -/
theorem exists_free_run (m : Mux) (actions : List Action) :
    ∃ taken, Machine.run (step retries) m actions = Machine.run (freeStep retries) m taken := by
  induction actions generalizing m with
  | nil => exact ⟨[], rfl⟩
  | cons action rest inductionHypothesis =>
      obtain ⟨taken, later⟩ := inductionHypothesis (step retries m action).1
      rcases step_eq_freeStep_or_idle m action with free | idle
      · refine ⟨action :: taken, ?_⟩
        rw [Machine.run_cons, Machine.run_cons, later, free]
      · refine ⟨taken, ?_⟩
        rw [Machine.run_cons, later, idle]
        rfl

/-- The number of commands that the loop takes from the queue in a run. -/
def pops (step : Mux → Action → Mux × List Output) (m : Mux) : List Action → Nat
  | [] => 0
  | action :: rest =>
      (if action = .loop ∧ ¬m.hasCrashed ∧ m.loop = .popping ∧ m.commands ≠ [] then 1 else 0) +
        pops step (step m action).1 rest

/-- In a run the flag ends false, the loop takes at most one command, and it has
ended if it has executed enough statements. -/
structure StaysStopped (step : Mux → Action → Mux × List Output) (retries : Int) (m : Mux)
    (actions : List Action) : Prop where
  flag : (Machine.run step m actions).1.isRunning = false
  takes : pops step m actions ≤ 1
  ends : LoopPhase.exitRank retries .popping ≤ actions.count .loop →
    (Machine.run step m actions).1.loop = .finished ∨
      (Machine.run step m actions).1.hasCrashed

/-! ## The flag -/

theorem closeClients_isRunning (m : Mux) : m.closeClients.1.isRunning = m.isRunning := by
  unfold closeClients
  split <;> rfl

theorem resetConnection_isRunning (m : Mux) :
    m.resetConnection.1.isRunning = m.isRunning := by
  have same := closeClients_isRunning { m with io := { m.io with isRunning := false } }
  unfold resetConnection
  split <;> rename_i closed reset <;> rw [reset] at same <;> exact same

theorem handleEvents_isRunning (m : Mux) (events : List PicardEvent) :
    (m.handleEvents events).1.isRunning = m.isRunning := by
  induction events generalizing m with
  | nil => rfl
  | cons event rest inductionHypothesis =>
      rw [handleEvents]
      dsimp only
      rw [inductionHypothesis]
      cases event with
      | handleNotif notifType payload =>
          simp only [handleEvent, handleNotif]
          split <;> rfl
      | resetConnection =>
          have same := resetConnection_isRunning m
          simp only [handleEvent]
          split <;> rename_i closed reset <;> rw [reset] at same <;> exact same
      | sendRaw | commandComplete | notifyConnect => rfl

theorem updateSubscriber_isRunning
    (m : Mux)
    (client : Option ClientId)
    (change : Subscriber → Subscriber) :
    (m.updateSubscriber client change).isRunning = m.isRunning := by
  cases client <;> rfl

/-- The loop sets its flag in its first statement and nowhere else. -/
theorem loopStep_isRunning (started : m.loop ≠ .starting) :
    (m.loopStep retries).1.isRunning = m.isRunning := by
  cases phase : m.loop <;> simp only [loopStep, phase]
  case starting => exact absurd phase started
  case popping | finding | rewriting => split <;> rfl
  case concluding => split_ifs <;> rfl
  case subscribing =>
      split
      · exact updateSubscriber_isRunning _ _ _
      · rfl
  case resetting => exact updateSubscriber_isRunning _ _ _
  case recomputing => rfl
  case disconnecting =>
      have same := resetConnection_isRunning m
      split <;> rename_i closed reset <;> rw [reset] at same <;> exact same

/-- A false flag stays false once the loop has passed its first statement. -/
theorem freeStep_isRunning
    (started : m.loop ≠ .starting)
    (stopped : m.isRunning = false)
    (action : Action) :
    (freeStep retries m action).1.isRunning = false := by
  rw [← stopped]
  unfold freeStep
  split
  · rfl
  · cases action with
    | loop => exact loopStep_isRunning started
    | receive frame =>
        simp only [perform, receive]
        split
        · exact handleEvents_isRunning _ _
        · rfl
    | complete =>
        simp only [perform, completeStep]
        split
        · split_ifs <;> rfl
        · rfl
        · simp only [deliver]
          split
          · exact updateSubscriber_isRunning _ _ _
          · rfl
        all_goals rfl
    | removeClient client =>
        simp only [perform, removeClient]
        split
        · dsimp only
          split <;> rfl
        · rfl
    | eraseClient =>
        simp only [perform, eraseClient]
        split
        · rfl
        · split_ifs <;> rfl
    | addClient client =>
        simp only [perform, addClient]
        split <;> rfl
    | addCommand | hangUp => rfl
    | stop => exact stopped.symm
    | unregisterCallback | clearCommands =>
        simp only [perform]
        split <;> rfl

/-! ## The way to the end -/

/-- Only a set flag leads the loop to the queue, and nothing leads it back to its
first statement. -/
theorem loopStep_not_popping (stopped : m.isRunning = false) :
    (m.loopStep retries).1.loop ≠ .popping ∧
      (m.loop ≠ .starting → (m.loopStep retries).1.loop ≠ .starting) := by
  have dispatched (cmd : ClientCommand) :
      m.dispatch cmd ≠ .popping ∧ m.dispatch cmd ≠ .starting :=
    dispatch_cases (fun next => next ≠ .popping ∧ next ≠ .starting) (by simp) (by simp)
      (by simp) (by simp)
  have attempted (cmd : ClientCommand) (i : Nat) (result : ClientResult) :
      (attempt retries cmd i result).1 ≠ .popping ∧
        (attempt retries cmd i result).1 ≠ .starting :=
    attempt_cases (fun next => next.1 ≠ .popping ∧ next.1 ≠ .starting) (by simp) (by simp)
  cases phase : m.loop <;> simp only [loopStep, phase]
  case checking => simp [stopped]
  case popping | subscribing | rewriting => split <;> simp
  case finding cmd =>
      split
      · exact ⟨(dispatched cmd).1, fun _ => (dispatched cmd).2⟩
      · simp
  case installing cmd => exact ⟨(attempted cmd _ _).1, fun _ => (attempted cmd _ _).2⟩
  case waiting cmd i => exact ⟨(attempted cmd _ _).1, fun _ => (attempted cmd _ _).2⟩
  case concluding => split_ifs <;> simp
  case disconnecting => split <;> simp
  case finished | crashed => simp
  all_goals simp

/-- Every statement of a loop whose flag is false brings it nearer to its end. -/
theorem loopStep_exitRank
    (stopped : m.isRunning = false)
    (started : m.loop ≠ .starting)
    (positive : 0 < m.loop.exitRank retries) :
    (m.loopStep retries).1.loop.exitRank retries < m.loop.exitRank retries := by
  by_cases busy : 0 < m.loop.rank retries
  · have lower := loopStep_rank busy
    have upper : (m.loopStep retries).1.loop.exitRank retries ≤ _ :=
      LoopPhase.exitRank_le_rank (loopStep_not_popping stopped).1
    rw [LoopPhase.exitRank_of_rank_pos busy]
    omega
  · cases phase : m.loop <;> rw [phase] at busy positive started <;>
      simp only [loopStep, phase]
    case starting => exact absurd rfl started
    case checking => simp [stopped, LoopPhase.exitRank, LoopPhase.rank]
    case popping =>
        split <;> simp only [LoopPhase.exitRank, LoopPhase.rank] <;> omega
    case finished | crashed => cases positive
    all_goals exact absurd (by simp only [LoopPhase.rank]; omega) busy

/-- A bound on the statements before a stopped process has ended its loop. -/
def exitRank (retries : Int) (m : Mux) : Nat :=
  if m.hasCrashed then 0 else m.loop.exitRank retries

theorem freeStep_loop
    {action : Action}
    (notLoop : action ≠ .loop) :
    (freeStep retries m action).1.loop = m.loop := by
  have same := (@step_frame retries m action notLoop).1
  unfold freeStep
  unfold step at same
  split
  · rfl
  · rename_i running
    rw [if_neg running] at same
    cases action with
    | addCommand | stop => rfl
    | _ => exact same

theorem freeStep_exitRank_lowers
    (stopped : m.isRunning = false)
    (started : m.loop ≠ .starting) :
    (freeStep retries m .loop).1.exitRank retries ≤ m.exitRank retries - 1 := by
  by_cases crashed : m.hasCrashed
  · rw [freeStep_of_crashed crashed, exitRank, if_pos crashed]
  · have next : freeStep retries m .loop = m.loopStep retries := if_neg crashed
    have before : m.exitRank retries = m.loop.exitRank retries := if_neg crashed
    rw [next, before, exitRank]
    split
    · exact Nat.zero_le _
    · rcases Nat.eq_zero_or_pos (m.loop.exitRank retries) with done | positive
      · -- a loop that has ended executes nothing
        have ended : m.loopStep retries = (m, []) := by
          rcases LoopPhase.eq_of_exitRank_zero done with phase | phase <;> simp [loopStep, phase]
        rw [ended, done]
      · have lower := loopStep_exitRank stopped started positive
        omega

theorem freeStep_exitRank_keeps
    {action : Action}
    (notLoop : action ≠ .loop) :
    (freeStep retries m action).1.exitRank retries ≤ m.exitRank retries := by
  by_cases crashed : m.hasCrashed
  · rw [freeStep_of_crashed crashed]
  · rw [exitRank, exitRank, if_neg crashed, freeStep_loop notLoop]
    split
    · exact Nat.zero_le _
    · exact le_refl _

/-- The loop does not return to its first statement. -/
theorem freeStep_started
    (stopped : m.isRunning = false)
    (started : m.loop ≠ .starting)
    (action : Action) :
    (freeStep retries m action).1.loop ≠ .starting := by
  by_cases loop : action = .loop
  · subst loop
    unfold freeStep
    split
    · exact started
    · exact (loopStep_not_popping stopped).2 started
  · rw [freeStep_loop loop]
    exact started

/-- A step takes a command only if the loop stands at the queue, and leaves it
elsewhere. -/
theorem pops_step
    (stopped : m.isRunning = false)
    (action : Action) :
    (if action = .loop ∧ ¬m.hasCrashed ∧ m.loop = .popping ∧ m.commands ≠ [] then 1 else 0) +
        (if (freeStep retries m action).1.loop = .popping then 1 else 0) ≤
      if m.loop = .popping then 1 else 0 := by
  by_cases loop : action = .loop
  · subst loop
    by_cases crashed : m.hasCrashed
    · simp [crashed, freeStep_of_crashed crashed]
    · have next : freeStep retries m .loop = m.loopStep retries := if_neg crashed
      have elsewhere := (@loopStep_not_popping retries m stopped).1
      rw [next, if_neg elsewhere]
      split_ifs with takes popping
      · exact le_refl 1
      · exact absurd takes.2.2.1 popping
      · exact Nat.zero_le _
      · exact Nat.zero_le _
  · rw [freeStep_loop loop]
    simp [loop]

/-- What a run keeps once the flag is false and the loop has passed its first
statement. -/
theorem stopped_run
    (stopped : m.isRunning = false)
    (started : m.loop ≠ .starting)
    (actions : List Action) :
    (Machine.run (freeStep retries) m actions).1.isRunning = false ∧
      pops (freeStep retries) m actions ≤ (if m.loop = .popping then 1 else 0) ∧
      (Machine.run (freeStep retries) m actions).1.exitRank retries ≤
        m.exitRank retries - actions.count .loop := by
  induction actions generalizing m with
  | nil => exact ⟨stopped, Nat.zero_le _, le_refl _⟩
  | cons action rest inductionHypothesis =>
      obtain ⟨flag, takes, exits⟩ := inductionHypothesis
        (freeStep_isRunning started stopped action) (freeStep_started stopped started action)
      refine ⟨flag, ?_, ?_⟩
      · have now := @pops_step retries m stopped action
        rw [pops]
        omega
      · rw [Machine.run_cons, List.count_cons]
        dsimp only
        by_cases loop : action = .loop
        · subst loop
          have lower := @freeStep_exitRank_lowers retries m stopped started
          simp only [beq_self_eq_true, if_true]
          omega
        · have keeps := @freeStep_exitRank_keeps retries m action loop
          simp only [beq_iff_eq, loop, if_false]
          omega

theorem staysStopped_of_started
    (stopped : m.isRunning = false)
    (started : m.loop ≠ .starting)
    (actions : List Action) :
    StaysStopped (freeStep retries) retries m actions := by
  obtain ⟨flag, takes, exits⟩ := @stopped_run retries m stopped started actions
  refine ⟨flag, ?_, ?_⟩
  · refine takes.trans ?_
    split_ifs
    · exact le_refl _
    · exact Nat.zero_le _
  · intro enough
    have far : m.exitRank retries ≤ LoopPhase.exitRank retries .popping := by
      rw [exitRank]
      split
      · exact Nat.zero_le _
      · exact LoopPhase.exitRank_le_popping retries m.loop
    have done : (Machine.run (freeStep retries) m actions).1.exitRank retries = 0 := by omega
    rw [exitRank] at done
    split at done
    · rename_i crashed
      exact Or.inr crashed
    · rename_i running
      refine Or.inl ?_
      rcases LoopPhase.eq_of_exitRank_zero done with finished | crashed
      · exact finished
      · exact absurd (by simp [hasCrashed, crashed]) running

/-! ## When a stop stays in force -/

/-- A stop that is carried out in a running process stays in force, whatever is
called before and after it returns, exactly when the loop has executed its first
statement before it. -/
theorem stop_stays_iff
    (retries : Int)
    (io : BasePicard)
    (protocolVersion : Byte)
    (earlier : List Action)
    (running : ¬(Machine.run (freeStep retries) (start io protocolVersion)
      earlier).1.hasCrashed) :
    (∀ between later,
      StaysStopped (freeStep retries) retries
        (Machine.run (freeStep retries) (start io protocolVersion) (earlier ++ [.stop])).1
        (between ++ .clearCommands :: later)) ↔
      (Machine.run (freeStep retries) (start io protocolVersion) earlier).1.loop ≠
        .starting := by
  generalize (start io protocolVersion) = initial at running ⊢
  rw [Machine.run_append]
  dsimp only
  generalize (Machine.run (freeStep retries) initial earlier).1 = m at running ⊢
  have stopped : (Machine.run (freeStep retries) m [.stop]).1 =
      { m with isRunning := false, stopping := true } := by
    simp [freeStep, running]
  rw [stopped]
  constructor
  · intro stays starting
    have flag := (stays [] [.loop]).flag
    have cleared : freeStep retries { m with isRunning := false, stopping := true }
        .clearCommands = _ := freeStep_clearCommands running rfl
    have restarted : freeStep retries
        { m with isRunning := false, commands := [], stopping := false } .loop = _ :=
      freeStep_starting running starting
    rw [List.nil_append, Machine.run_cons, cleared, Machine.run_cons, restarted] at flag
    cases flag
  · intro started between later
    exact @staysStopped_of_started retries { m with isRunning := false, stopping := true } rfl
      started _

/-- A stop while the loop waits for its next command. -/
theorem stop_stays_example :
    (∀ between later,
      StaysStopped (freeStep 3) 3
        (Machine.run (freeStep 3) (start {} 4) ([.loop, .loop] ++ [.stop])).1
        (between ++ .clearCommands :: later)) ↔
      (Machine.run (freeStep 3) (start {} 4) [.loop, .loop]).1.loop ≠ .starting :=
  stop_stays_iff 3 {} 4 [.loop, .loop] (by decide)

/-- Picard restarts before the command thread has executed its first statement: the
listener is told to stop, the handler is removed, and `stop` is called. -/
def earlyReset : List Action :=
  [.receive [0, 2, 0, 5, 0, 4, 0, 0, 0], .receive [0, 3, 0, 2, 4, 0], .unregisterCallback]

/-- In this run of the process the command thread, which starts afterwards, undoes
the stop. -/
theorem early_stop_is_undone :
    ¬∀ (io : BasePicard) (protocolVersion : Byte) (earlier between later : List Action),
      ¬(Machine.run (step 3) (start io protocolVersion) earlier).1.hasCrashed →
      (Machine.run (step 3) (start io protocolVersion) earlier).1.io.callback = false →
      StaysStopped (step 3) 3
        (Machine.run (step 3) (start io protocolVersion) (earlier ++ [.stop])).1
        (between ++ .clearCommands :: later) := by
  intro always
  have stays := always {} 4 earlyReset [] [.loop] (by decide) (by decide)
  exact absurd stays.flag (by decide)

end Mux

end SerialMux
