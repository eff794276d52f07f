import SerialMux.Library.ConditionVariable
import SerialMux.Library.Machine

/-!
# The queue between threads

`CSyncQueue` is a queue with a lock and a condition variable.  A call of `timedPop` waits
at most once: when it wakes up, by a notification, by the timeout or for no reason, it
takes the front element or reports that there is none.  A step is a block under the lock.
-/

namespace SerialMux

/-- The class `CSyncQueue`. -/
structure SyncQueue (E : Type*) where
  queue : List E := []
  cond : ConditionVariable Nat := {}
  deriving DecidableEq, Repr

/-- What the threads do with a queue.  A call of `timedPop` is entered, and if it has to
wait, its wait expires or is ended by a notification, and it resumes.  `pick` is the choice
of `notify_one`. -/
inductive QueueAction (E : Type*)
  | push (el : E) (pick : Nat)
  | clear
  | enter (thread : Nat)
  | expire (thread : Nat)
  | resume (thread : Nat)
  deriving DecidableEq, Repr

/-- What goes into a queue and what comes out.  A call of `timedPop` that returns false has
`missed`. -/
inductive QueueOutput (E : Type*)
  | pushed (el : E)
  | cleared (els : List E)
  | popped (thread : Nat) (el : E)
  | missed (thread : Nat)
  deriving DecidableEq, Repr

namespace QueueOutput

variable {E : Type*}

/-- The element that an output puts into the queue. -/
def input : QueueOutput E → List E
  | .pushed el => [el]
  | .cleared _ | .popped _ _ | .missed _ => []

/-- The elements that an output takes out of the queue. -/
def removed : QueueOutput E → List E
  | .pushed _ | .missed _ => []
  | .cleared els => els
  | .popped _ el => [el]

end QueueOutput

namespace SyncQueue

variable {E : Type*}

def push (q : SyncQueue E) (el : E) (pick : Nat) : SyncQueue E :=
  let wasEmpty := q.queue.isEmpty
  { queue := q.queue ++ [el]
    cond := if wasEmpty then q.cond.notifyOne pick else q.cond }

def clear (q : SyncQueue E) : SyncQueue E where
  cond := q.cond.notifyAll

def empty (q : SyncQueue E) : Bool := q.queue.isEmpty

/-- The end of `timedPop`: the front element, if there is one. -/
def takeFront (q : SyncQueue E) : SyncQueue E × Option E :=
  match q.queue with
  | [] => (q, none)
  | el :: rest => ({ q with queue := rest }, some el)

/-- The result of a call of `timedPop` as an output. -/
def popOutput (thread : Nat) : Option E → QueueOutput E
  | some el => .popped thread el
  | none => .missed thread

/-- One step of a thread. -/
def step (q : SyncQueue E) : QueueAction E → SyncQueue E × List (QueueOutput E)
  | .push el pick => (q.push el pick, [.pushed el])
  | .clear => (q.clear, [.cleared q.queue])
  | .enter thread =>
      if thread ∈ q.cond.inside then (q, [])
      else if q.queue.isEmpty then ({ q with cond := q.cond.wait thread }, [])
      else (q.takeFront.1, [popOutput thread q.takeFront.2])
  | .expire thread => ({ q with cond := q.cond.expire thread }, [])
  | .resume thread =>
      if thread ∈ q.cond.woken then
        let owner := { q with cond := q.cond.resume thread }
        (owner.takeFront.1, [popOutput thread owner.takeFront.2])
      else (q, [])

/-! ## Elements -/

/-- What `timedPop` returns was the front of the queue. -/
theorem removed_takeFront (q : SyncQueue E) (thread : Nat) :
    (popOutput thread q.takeFront.2).removed ++ q.takeFront.1.queue = q.queue ∧
      (popOutput thread q.takeFront.2).input = [] := by
  unfold takeFront
  split
  · rename_i empty
    exact ⟨by rw [empty]; rfl, rfl⟩
  · rename_i el rest shape
    exact ⟨by rw [shape]; rfl, rfl⟩

/-- Each step takes from the front and adds at the back. -/
theorem step_conserves (q : SyncQueue E) (action : QueueAction E) :
    (q.step action).2.flatMap QueueOutput.removed ++ (q.step action).1.queue =
      q.queue ++ (q.step action).2.flatMap QueueOutput.input := by
  cases action with
  | push el pick => simp [step, push, QueueOutput.removed, QueueOutput.input]
  | clear => simp [step, clear, QueueOutput.removed, QueueOutput.input]
  | enter thread =>
      obtain ⟨kept, noInput⟩ := q.removed_takeFront thread
      unfold step
      dsimp only
      split_ifs
      · simp
      · simp
      · simp [kept, noInput]
  | expire thread => simp [step]
  | resume thread =>
      unfold step
      dsimp only
      split_ifs
      · obtain ⟨kept, noInput⟩ :=
          removed_takeFront { q with cond := q.cond.resume thread } thread
        simp [kept, noInput]
      · simp

/-- Over a run, what was removed, followed by what is still queued, is what was queued at
first, followed by what was pushed. -/
theorem run_conserves (q : SyncQueue E) (actions : List (QueueAction E)) :
    (Machine.run step q actions).2.flatMap QueueOutput.removed ++
        (Machine.run step q actions).1.queue =
      q.queue ++ (Machine.run step q actions).2.flatMap QueueOutput.input := by
  induction actions generalizing q with
  | nil => simp
  | cons action rest inductionHypothesis =>
      rw [Machine.run_cons]
      dsimp only
      rw [List.flatMap_append, List.flatMap_append, List.append_assoc, inductionHypothesis,
        ← List.append_assoc, step_conserves, List.append_assoc]

/-! ## One consumer -/

/-- At most the consumer is in a call of `timedPop`, and it is not blocked while there is an
element to take. -/
structure SoleConsumer (consumer : Nat) (q : SyncQueue E) : Prop where
  alone : ∀ thread ∈ q.cond.inside, thread = consumer
  once : q.cond.inside.length ≤ 1
  awake : q.queue ≠ [] → q.cond.blocked = []

namespace SoleConsumer

variable {consumer : Nat} {q : SyncQueue E}

theorem fresh : SoleConsumer consumer ({} : SyncQueue E) where
  alone := by simp [ConditionVariable.inside]
  once := Nat.zero_le 1
  awake _ := rfl

/-- Threads that only change places inside their calls. -/
theorem moved
    (sole : SoleConsumer consumer q)
    {cond : ConditionVariable Nat}
    {queue : List E}
    (inside : cond.inside.Perm q.cond.inside)
    (awake : queue ≠ [] → cond.blocked = []) :
    SoleConsumer consumer { queue := queue, cond := cond } where
  alone thread member := sole.alone thread (inside.mem_iff.mp member)
  once := Nat.le_trans (Nat.le_of_eq inside.length_eq) sole.once
  awake := awake

theorem blocked_length (sole : SoleConsumer consumer q) : q.cond.blocked.length ≤ 1 := by
  have once := sole.once
  rw [ConditionVariable.inside, List.length_append] at once
  omega

theorem push (sole : SoleConsumer consumer q) (el : E) (pick : Nat) :
    SoleConsumer consumer (q.push el pick) := by
  unfold SyncQueue.push
  dsimp only
  split_ifs with wasEmpty
  · refine sole.moved (q.cond.notifyOne_inside pick) fun _ => ?_
    have remaining := q.cond.notifyOne_blocked_length pick
    have blocked := sole.blocked_length
    exact List.length_eq_zero_iff.mp (by omega)
  · refine sole.moved (List.Perm.refl _) fun _ => sole.awake ?_
    rwa [List.isEmpty_iff] at wasEmpty

theorem takeFront (sole : SoleConsumer consumer q) : SoleConsumer consumer q.takeFront.1 := by
  unfold SyncQueue.takeFront
  split
  · exact sole
  · rename_i el rest shape
    refine sole.moved (List.Perm.refl _) fun _ => sole.awake ?_
    rw [shape]
    exact List.cons_ne_nil _ _

/-- Every step of threads of which only the consumer enters `timedPop`. -/
theorem step
    (sole : SoleConsumer consumer q)
    {action : QueueAction E}
    (only : ∀ thread, action = .enter thread → thread = consumer) :
    SoleConsumer consumer (q.step action).1 := by
  cases action with
  | push el pick => exact sole.push el pick
  | clear => exact sole.moved q.cond.notifyAll_inside fun _ => rfl
  | enter thread =>
      have isConsumer := only thread rfl
      subst isConsumer
      unfold SyncQueue.step
      dsimp only
      split_ifs with inside isEmpty
      · exact sole
      · have nobody : q.cond.inside = [] :=
          List.eq_nil_iff_forall_not_mem.mpr fun other member =>
            inside (sole.alone other member ▸ member)
        obtain ⟨noneBlocked, noneWoken⟩ := List.append_eq_nil_iff.mp nobody
        rw [List.isEmpty_iff] at isEmpty
        constructor
        · simp [ConditionVariable.inside, ConditionVariable.wait, noneBlocked, noneWoken]
        · simp [ConditionVariable.inside, ConditionVariable.wait, noneBlocked, noneWoken]
        · exact fun nonempty => absurd isEmpty nonempty
      · exact sole.takeFront
  | expire thread =>
      refine sole.moved (q.cond.expire_inside thread) fun nonempty => ?_
      have noneBlocked := sole.awake nonempty
      simp [ConditionVariable.expire, noneBlocked]
  | resume thread =>
      unfold SyncQueue.step
      dsimp only
      split_ifs with isWoken
      · refine SoleConsumer.takeFront ⟨?_, ?_, sole.awake⟩
        · intro other member
          refine sole.alone other ?_
          rcases List.mem_append.mp member with blocked | woken
          · exact List.mem_append_left _ blocked
          · exact List.mem_append_right _ (List.mem_of_mem_erase woken)
        · refine Nat.le_trans ?_ sole.once
          unfold ConditionVariable.inside
          rw [List.length_append, List.length_append]
          exact Nat.add_le_add_left List.length_erase_le _
      · exact sole

theorem run
    (sole : SoleConsumer consumer q)
    {actions : List (QueueAction E)}
    (only : ∀ thread, .enter thread ∈ actions → thread = consumer) :
    SoleConsumer consumer (Machine.run SyncQueue.step q actions).1 := by
  induction actions generalizing q with
  | nil => exact sole
  | cons action rest inductionHypothesis =>
      have first := sole.step fun thread isEnter =>
        only thread (isEnter ▸ List.mem_cons_self)
      exact inductionHypothesis first fun thread member =>
        only thread (List.mem_cons_of_mem _ member)

/-- While there is an element, a call of the consumer takes it without further waiting. -/
theorem resume
    (sole : SoleConsumer consumer q)
    (inside : consumer ∈ q.cond.inside)
    {el : E}
    {rest : List E}
    (shape : q.queue = el :: rest) :
    q.step (.resume consumer) = ({ queue := rest }, [.popped consumer el]) := by
  have noneBlocked : q.cond.blocked = [] := sole.awake (by rw [shape]; exact List.cons_ne_nil _ _)
  have once := sole.once
  rw [ConditionVariable.inside, noneBlocked, List.nil_append] at inside once
  have onlyWoken : q.cond.woken = [consumer] := by
    obtain ⟨other, woken⟩ := List.length_eq_one_iff.mp
      (Nat.le_antisymm once (List.length_pos_of_mem inside))
    rw [woken, List.mem_singleton] at inside
    rw [woken, inside]
  simp [SyncQueue.step, onlyWoken, noneBlocked, ConditionVariable.resume, SyncQueue.takeFront,
    popOutput, shape]

end SoleConsumer

/-- With one consumer, elements leave the queue in the order in which they came, each once,
and no push is slept through: whenever there is an element and the consumer is in a call of
`timedPop`, the call takes the front element in its next step. -/
theorem sole_consumer_prompt
    (consumer : Nat)
    (actions : List (QueueAction E))
    (only : ∀ thread, .enter thread ∈ actions → thread = consumer) :
    (Machine.run step {} actions).2.flatMap QueueOutput.removed ++
          (Machine.run step {} actions).1.queue =
        (Machine.run step {} actions).2.flatMap QueueOutput.input ∧
      ∀ el rest,
        consumer ∈ (Machine.run step {} actions).1.cond.inside →
        (Machine.run step {} actions).1.queue = el :: rest →
        (Machine.run step {} actions).1.step (.resume consumer) =
          ({ queue := rest }, [.popped consumer el]) := by
  constructor
  · rw [run_conserves]
    rfl
  · intro el rest inside shape
    exact (SoleConsumer.fresh.run only).resume inside shape

/-- The consumer waits, and is woken by the first of two pushes. -/
theorem sole_consumer_prompt_example :
    (Machine.run step {} [.enter 0, .push 5 0, .push 6 0]).2.flatMap QueueOutput.removed ++
          (Machine.run step {} [.enter 0, .push 5 0, .push 6 0]).1.queue =
        (Machine.run step {} [.enter 0, .push 5 0, .push 6 0]).2.flatMap QueueOutput.input ∧
      ∀ el rest,
        0 ∈ (Machine.run step {} [.enter 0, .push 5 0, .push 6 0]).1.cond.inside →
        (Machine.run step {} [.enter 0, .push 5 0, .push 6 0]).1.queue = el :: rest →
        (Machine.run step {} [.enter 0, .push 5 0, .push 6 0]).1.step (.resume 0) =
          ({ queue := rest }, [.popped 0 el]) :=
  sole_consumer_prompt 0 [.enter 0, .push 5 0, .push 6 0] (by simp)

/-- Of two consumers the second push wakes none, and one sleeps beside the element. -/
example :
    (Machine.run step {} [.enter 0, .enter 1, .push 5 0, .push 6 0, .resume 0]).1 =
      { queue := [6], cond := { blocked := [1], woken := [] } } := by decide

end SyncQueue

end SerialMux
