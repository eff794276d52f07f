import Mathlib.Data.List.Basic

/-!
# Logs of numbered requests

A sender stamps every request with its next number, and only an answer moves
that number: to the successor of the number answered.  Requests are answered in
the order of the log, each as often as the other side likes.  Then the entries
that can still be answered carry the next number or its predecessor, and those
with the predecessor come first.  This needs no bound on the log, so the numbers
may wrap around.
-/

namespace NumberedLog

variable {ν : Type*} (succ : ν → ν)

/-- From position `first` on, the entries before `boundary` carry the
predecessor of `next`, and the others carry `next`. -/
structure Split (log : List ν) (next : ν) (first boundary : Nat) : Prop where
  inside : boundary ≤ log.length
  before : ∀ index number,
    first ≤ index → index < boundary → log[index]? = some number → succ number = next
  behind : ∀ index number,
    first ≤ index → boundary ≤ index → log[index]? = some number → number = next

variable {succ} {log : List ν} {next number : ν} {first boundary index : Nat}

theorem getElem?_append_singleton
    {last : ν}
    (found : (log ++ [last])[index]? = some number) :
    log[index]? = some number ∨ index = log.length ∧ last = number := by
  rcases Nat.lt_or_ge index log.length with old | new
  · left
    rwa [List.getElem?_append_left old] at found
  · right
    rw [List.getElem?_append_right new, List.getElem?_singleton] at found
    split at found
    · exact ⟨by omega, Option.some.inj found⟩
    · cases found

namespace Split

/-- The empty log. -/
theorem nil : Split succ [] next 0 0 where
  inside := Nat.le_refl 0
  before := by simp
  behind := by simp

/-- A request is sent under the next number. -/
theorem send
    (split : Split succ log next first boundary) :
    Split succ (log ++ [next]) next first boundary where
  inside := by
    have inside := split.inside
    rw [List.length_append]
    omega
  before index number reached early found := by
    have inside := split.inside
    rcases getElem?_append_singleton found with old | ⟨last, -⟩
    · exact split.before index number reached early old
    · omega
  behind index number reached late found := by
    rcases getElem?_append_singleton found with old | ⟨-, same⟩
    · exact split.behind index number reached late old
    · exact same.symm

/-- A request that was stamped before the last answer is sent after it. -/
theorem sendStale
    (split : Split succ log next first log.length)
    (stale : succ number = next) :
    Split succ (log ++ [number]) next first (log ++ [number]).length where
  inside := Nat.le_refl _
  before index other reached _ found := by
    rcases getElem?_append_singleton found with old | ⟨-, same⟩
    · have early : index < log.length := (List.getElem?_eq_some_iff.1 old).1
      exact split.before index other reached early old
    · rw [← same]
      exact stale
  behind index other _ late found := by
    have early := (List.getElem?_eq_some_iff.1 found).1
    omega

/-- An entry before the boundary is answered: the number stays. -/
theorem answerBefore
    (split : Split succ log next first boundary)
    (inOrder : first ≤ index) :
    Split succ log next index boundary where
  inside := split.inside
  before other _ reached := split.before other _ (Nat.le_trans inOrder reached)
  behind other _ reached := split.behind other _ (Nat.le_trans inOrder reached)

/-- An entry behind the boundary is answered: the number moves on. -/
theorem answerBehind
    (split : Split succ log next first boundary)
    (inOrder : first ≤ index)
    (late : boundary ≤ index) :
    Split succ log (succ next) index log.length where
  inside := Nat.le_refl _
  before other number reached _ found := by
    rw [split.behind other number (Nat.le_trans inOrder reached)
      (Nat.le_trans late reached) found]
  behind other number _ beyond found := by
    have early := (List.getElem?_eq_some_iff.1 found).1
    omega

end Split

end NumberedLog
