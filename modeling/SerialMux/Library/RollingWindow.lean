import SerialMux.Library.Machine

/-!
# A window that rolls over a growing log

The window holds the newest segments of a log, the oldest first.  Rotating it drops
the oldest segment and begins a new one; writing appends to the newest.  Nothing else
is lost: what was dropped, followed by the window, is the initial window followed by
all that was written.
-/

namespace RollingWindow

variable {α : Type*}

/-- What can happen to a window. -/
inductive Operation (α : Type*)
  | rotate
  | write (content : List α)

/-- What an operation adds to the log. -/
def Operation.content : Operation α → List α
  | .rotate => []
  | .write content => content

/-- One operation, with the segments that it drops. -/
def step (window : List (List α)) : Operation α → List (List α) × List (List α)
  | .rotate => (window.tail ++ [[]], window.head?.toList)
  | .write content => (window.dropLast ++ [window.getLast?.getD [] ++ content], [])

/-- Writing to a window whose newest segment is known. -/
theorem step_write
    (older : List (List α))
    (newest content : List α) :
    step (older ++ [newest]) (.write content) = (older ++ [newest ++ content], []) := by
  simp [step]

theorem step_rotate
    (oldest : List α)
    (newer : List (List α)) :
    step (oldest :: newer) .rotate = (newer ++ [[]], [oldest]) := rfl

/-- The number of segments does not change. -/
theorem step_length
    {window : List (List α)}
    (nonempty : window ≠ [])
    (operation : Operation α) :
    (step window operation).1.length = window.length := by
  have positive := List.length_pos_iff.mpr nonempty
  cases operation with
  | rotate =>
      simp only [step, List.length_append, List.length_tail, List.length_singleton]
      omega
  | write content =>
      simp only [step, List.length_append, List.length_dropLast, List.length_singleton]
      omega

/-- An operation loses only what it drops. -/
theorem step_conserves
    {window : List (List α)}
    (nonempty : window ≠ [])
    (operation : Operation α) :
    (step window operation).2.flatten ++ (step window operation).1.flatten =
      window.flatten ++ operation.content := by
  cases operation with
  | rotate =>
      obtain ⟨oldest, newer, rfl⟩ := List.exists_cons_of_ne_nil nonempty
      simp [step_rotate, Operation.content]
  | write content =>
      obtain ⟨older, newest, rfl⟩ := (List.eq_nil_or_concat window).resolve_left nonempty
      simp [step_write, Operation.content]

/-- A run loses only what it drops. -/
theorem run_conserves
    {window : List (List α)}
    (nonempty : window ≠ [])
    (operations : List (Operation α)) :
    (Machine.run step window operations).2.flatten ++
        (Machine.run step window operations).1.flatten =
      window.flatten ++ operations.flatMap Operation.content := by
  induction operations generalizing window with
  | nil => simp
  | cons operation rest inductionHypothesis =>
      have next : (step window operation).1 ≠ [] := by
        rw [← List.length_pos_iff, step_length nonempty operation]
        exact List.length_pos_iff.mpr nonempty
      rw [Machine.run_cons]
      dsimp only
      rw [List.flatten_append, List.append_assoc, inductionHypothesis next,
        ← List.append_assoc, step_conserves nonempty operation, List.append_assoc,
        List.flatMap_cons]

end RollingWindow
