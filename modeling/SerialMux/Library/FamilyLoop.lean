import Mathlib.Logic.Function.Basic
import Mathlib.Data.List.Basic

/-!
# Acting on the objects of a family

An action changes an object and may fail.  A loop acts on the objects of a list, one
after the other, and ends with the first action that fails.
-/

namespace FamilyLoop

variable {ι σ : Type*} [DecidableEq ι]

/-- Act on the objects of a list until an action fails; whether none did. -/
def actEach (act : σ → σ × Bool) (objects : ι → σ) : List ι → (ι → σ) × Bool
  | [] => (objects, true)
  | index :: rest =>
      if (act (objects index)).2 then
        actEach act (Function.update objects index (act (objects index)).1) rest
      else (Function.update objects index (act (objects index)).1, false)

variable {act : σ → σ × Bool}

/-- What an action does to an object the loop does to every object, any number of
times. -/
theorem actEach_rel
    (relation : σ → σ → Prop)
    (refl : ∀ object, relation object object)
    (trans : ∀ first second third,
      relation first second → relation second third → relation first third)
    (acts : ∀ object, relation object (act object).1)
    (objects : ι → σ)
    (indices : List ι)
    (other : ι) :
    relation (objects other) ((actEach act objects indices).1 other) := by
  induction indices generalizing objects with
  | nil => exact refl _
  | cons index rest inductionHypothesis =>
      have now : relation (objects other)
          (Function.update objects index (act (objects index)).1 other) := by
        by_cases same : other = index
        · subst same
          rw [Function.update_self]
          exact acts _
        · rw [Function.update_of_ne same]
          exact refl _
      rw [actEach]
      split_ifs
      · exact trans _ _ _ now (inductionHypothesis _)
      · exact now

section

variable {fails : σ → Prop}
variable (failsIff : ∀ object, (act object).2 = false ↔ fails object)

include failsIff

/-- If an action that succeeded does not fail the next time, the loop comes to its end
exactly if no action fails at first. -/
theorem actEach_returns_iff
    (settles : ∀ object, ¬fails object → ¬fails (act object).1)
    (objects : ι → σ)
    (indices : List ι) :
    (actEach act objects indices).2 = true ↔ ∀ index ∈ indices, ¬fails (objects index) := by
  induction indices generalizing objects with
  | nil => simp [actEach]
  | cons index rest inductionHypothesis =>
      rw [List.forall_mem_cons, actEach]
      split_ifs with succeeds
      · have works : ¬fails (objects index) := by
          rw [← failsIff, succeeds]
          decide
        have others (other : ι) :
            fails (Function.update objects index (act (objects index)).1 other) ↔
              fails (objects other) := by
          by_cases same : other = index
          · subst same
            rw [Function.update_self]
            exact iff_of_false (settles _ works) works
          · rw [Function.update_of_ne same]
        rw [inductionHypothesis]
        simp only [others, works, not_false_eq_true, true_and]
      · rw [Bool.not_eq_true, failsIff] at succeeds
        exact iff_of_false (by simp) fun works => works.1 succeeds

end

/-- What actions that succeed bring about, and none undoes, holds of every object of the
list when the loop has come to its end. -/
theorem actEach_done
    (done : σ → Prop)
    (acts : ∀ object, (act object).2 = true → done (act object).1)
    (kept : ∀ object, done object → done (act object).1)
    {objects : ι → σ}
    {indices : List ι}
    (returns : (actEach act objects indices).2 = true) :
    ∀ index ∈ indices, done ((actEach act objects indices).1 index) := by
  induction indices generalizing objects with
  | nil => simp
  | cons index rest inductionHypothesis =>
      rw [actEach] at returns ⊢
      split_ifs at returns ⊢ with succeeds
      rw [List.forall_mem_cons]
      refine ⟨?_, inductionHypothesis returns⟩
      have keeps := actEach_rel (fun before after => done before → done after) (fun _ => id)
        (fun _ _ _ earlier later => later ∘ earlier) kept
        (Function.update objects index (act (objects index)).1) rest index
      rw [Function.update_self] at keeps
      exact keeps (acts _ succeeds)

end FamilyLoop
