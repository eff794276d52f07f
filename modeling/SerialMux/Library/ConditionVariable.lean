import Mathlib.Data.List.Perm.Basic

/-!
# Condition variables

A thread that waits on a condition variable gives up its lock and is blocked until it
is notified.  A thread that is blocked may also leave by a timeout, or for no reason.
It then has to get its lock back before it goes on.
-/

/-- The threads that are blocked, the longest first, and those that are no longer blocked
and have not got their lock back. -/
structure ConditionVariable (ι : Type*) where
  blocked : List ι := []
  woken : List ι := []
  deriving DecidableEq, Repr

namespace ConditionVariable

variable {ι : Type*}

/-- A thread starts to wait. -/
def wait (cond : ConditionVariable ι) (thread : ι) : ConditionVariable ι :=
  { cond with blocked := cond.blocked ++ [thread] }

/-- Wake the thread at a position. -/
def wakeAt (cond : ConditionVariable ι) (position : Nat) : ConditionVariable ι :=
  { blocked := cond.blocked.eraseIdx position
    woken := cond.woken ++ cond.blocked[position]?.toList }

/-- Wake one thread if any is blocked.  Nothing is promised about which one. -/
def notifyOne (cond : ConditionVariable ι) (pick : Nat) : ConditionVariable ι :=
  cond.wakeAt (pick % cond.blocked.length)

/-- Wake all threads. -/
def notifyAll (cond : ConditionVariable ι) : ConditionVariable ι where
  woken := cond.woken ++ cond.blocked

/-- The threads in a call of `wait`. -/
def inside (cond : ConditionVariable ι) : List ι := cond.blocked ++ cond.woken

section

variable [DecidableEq ι]

/-- A thread that is blocked leaves without a notification. -/
def expire (cond : ConditionVariable ι) (thread : ι) : ConditionVariable ι :=
  if thread ∈ cond.blocked then cond.wakeAt (cond.blocked.idxOf thread) else cond

/-- A thread gets its lock back, and its wait is over. -/
def resume (cond : ConditionVariable ι) (thread : ι) : ConditionVariable ι :=
  { cond with woken := cond.woken.erase thread }

end

/-- Waking a thread does not end its wait. -/
theorem wakeAt_inside (cond : ConditionVariable ι) (position : Nat) :
    (cond.wakeAt position).inside.Perm cond.inside := by
  unfold inside wakeAt
  dsimp only
  rcases Nat.lt_or_ge position cond.blocked.length with valid | beyond
  · rw [List.getElem?_eq_getElem valid, Option.toList_some, ← List.append_assoc]
    refine List.perm_append_singleton _ _ |>.trans ?_
    rw [← List.cons_append]
    exact (List.getElem_cons_eraseIdx_perm valid).append_right _
  · rw [List.eraseIdx_of_length_le beyond, List.getElem?_eq_none beyond, Option.toList_none,
      List.append_nil]

theorem notifyOne_inside (cond : ConditionVariable ι) (pick : Nat) :
    (cond.notifyOne pick).inside.Perm cond.inside :=
  cond.wakeAt_inside _

theorem notifyAll_inside (cond : ConditionVariable ι) :
    cond.notifyAll.inside.Perm cond.inside := by
  simpa [inside, notifyAll] using List.perm_append_comm

theorem expire_inside [DecidableEq ι] (cond : ConditionVariable ι) (thread : ι) :
    (cond.expire thread).inside.Perm cond.inside := by
  unfold expire
  split_ifs
  · exact cond.wakeAt_inside _
  · exact List.Perm.refl _

/-- A notification leaves one thread less blocked. -/
theorem notifyOne_blocked_length (cond : ConditionVariable ι) (pick : Nat) :
    (cond.notifyOne pick).blocked.length = cond.blocked.length - 1 := by
  unfold notifyOne wakeAt
  rcases Nat.eq_zero_or_pos cond.blocked.length with none | some
  · rw [List.length_eq_zero_iff] at none
    simp [none]
  · rw [List.length_eraseIdx_of_lt (Nat.mod_lt _ some)]

/-- A thread that leaves is not blocked any more, if it was blocked once. -/
theorem expire_not_blocked
    [DecidableEq ι]
    {cond : ConditionVariable ι}
    {thread : ι}
    (alone : cond.blocked.length ≤ 1) :
    thread ∉ (cond.expire thread).blocked := by
  unfold expire
  split_ifs with blocked
  · have only : cond.blocked = [thread] := by
      match shape : cond.blocked, blocked, alone with
      | [other], blocked, _ => rw [List.mem_singleton.mp blocked]
    simp [wakeAt, only]
  · exact blocked

end ConditionVariable
