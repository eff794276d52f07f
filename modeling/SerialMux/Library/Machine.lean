import Mathlib.Data.List.Basic

/-!
# Machines with outputs

A machine is a total step function that returns the next state and the outputs
of the step in order.  Runs are finite lists of actions.  A condition on single
steps is met by a run if it holds of every step in the state in which the step
is taken; an invariant may speak of the state and of all outputs so far.
-/

namespace Machine

variable {σ α ω : Type*}

/-- The last state and the outputs of a run. -/
def run (step : σ → α → σ × List ω) (state : σ) : List α → σ × List ω
  | [] => (state, [])
  | action :: rest =>
      ((run step (step state action).1 rest).1,
        (step state action).2 ++ (run step (step state action).1 rest).2)

/-- Every step of a run meets a condition in the state in which it is taken. -/
def Meets (step : σ → α → σ × List ω) (condition : σ → α → Prop) (state : σ) :
    List α → Prop
  | [] => True
  | action :: rest =>
      condition state action ∧ Meets step condition (step state action).1 rest

variable {step : σ → α → σ × List ω} {condition : σ → α → Prop}

@[simp] theorem run_nil (state : σ) : run step state [] = (state, []) := rfl

@[simp] theorem run_cons (state : σ) (action : α) (rest : List α) :
    run step state (action :: rest) =
      ((run step (step state action).1 rest).1,
        (step state action).2 ++ (run step (step state action).1 rest).2) := rfl

@[simp] theorem meets_nil (state : σ) : Meets step condition state [] := trivial

@[simp] theorem meets_cons (state : σ) (action : α) (rest : List α) :
    Meets step condition state (action :: rest) ↔
      condition state action ∧
        Meets step condition (step state action).1 rest := Iff.rfl

instance decidableMeets
    [∀ state action, Decidable (condition state action)]
    (state : σ) :
    (actions : List α) → Decidable (Meets step condition state actions)
  | [] => isTrue trivial
  | action :: rest =>
      @instDecidableAnd _ _ inferInstance
        (decidableMeets (step state action).1 rest)

/-- A run of two parts continues from the state that the first part reached. -/
theorem run_append (state : σ) (earlier later : List α) :
    run step state (earlier ++ later) =
      ((run step (run step state earlier).1 later).1,
        (run step state earlier).2 ++
          (run step (run step state earlier).1 later).2) := by
  induction earlier generalizing state with
  | nil => rfl
  | cons action rest inductionHypothesis =>
      simp only [List.cons_append, run_cons, inductionHypothesis, List.append_assoc]

theorem meets_append {state : σ} {earlier later : List α} :
    Meets step condition state (earlier ++ later) ↔
      Meets step condition state earlier ∧
        Meets step condition (run step state earlier).1 later := by
  induction earlier generalizing state with
  | nil => simp
  | cons action rest inductionHypothesis =>
      simp only [List.cons_append, meets_cons, run_cons, inductionHypothesis, and_assoc]

theorem meets_and
    {other : σ → α → Prop}
    {state : σ}
    {actions : List α} :
    Meets step (fun state action => condition state action ∧ other state action) state
        actions ↔
      Meets step condition state actions ∧ Meets step other state actions := by
  induction actions generalizing state with
  | nil => simp
  | cons action rest inductionHypothesis =>
      simp only [meets_cons, inductionHypothesis]
      exact and_and_and_comm

/-- Every run meets the condition that asks for nothing. -/
theorem meets_true (state : σ) (actions : List α) :
    Meets step (fun _ _ => True) state actions := by
  induction actions generalizing state with
  | nil => trivial
  | cons action rest inductionHypothesis => exact ⟨trivial, inductionHypothesis _⟩

/-- A run meets a condition that each of its actions meets in every state. -/
theorem meets_of_forall
    (state : σ)
    {actions : List α}
    (all : ∀ action ∈ actions, ∀ state, condition state action) :
    Meets step condition state actions := by
  induction actions generalizing state with
  | nil => trivial
  | cons action rest inductionHypothesis =>
      obtain ⟨now, later⟩ := List.forall_mem_cons.mp all
      exact ⟨now state, inductionHypothesis (step state action).1 later⟩

/-- What every step that meets the condition preserves holds after every run
whose steps meet it. -/
theorem invariant_run
    (invariant : σ → List ω → Prop)
    (preserved : ∀ state outputs action,
      invariant state outputs → condition state action →
      invariant (step state action).1 (outputs ++ (step state action).2))
    {state : σ}
    {outputs : List ω}
    {actions : List α}
    (initially : invariant state outputs)
    (meets : Meets step condition state actions) :
    invariant (run step state actions).1
      (outputs ++ (run step state actions).2) := by
  induction actions generalizing state outputs with
  | nil => simpa using initially
  | cons action rest inductionHypothesis =>
      obtain ⟨now, afterwards⟩ := meets
      have next := preserved state outputs action initially now
      simpa using inductionHypothesis next afterwards

/-- An invariant of the state alone. -/
theorem state_invariant_run
    (invariant : σ → Prop)
    (preserved : ∀ state action,
      invariant state → condition state action → invariant (step state action).1)
    {state : σ}
    {actions : List α}
    (initially : invariant state)
    (meets : Meets step condition state actions) :
    invariant (run step state actions).1 := by
  induction actions generalizing state with
  | nil => exact initially
  | cons action rest inductionHypothesis =>
      obtain ⟨now, afterwards⟩ := meets
      exact inductionHypothesis (preserved state action initially now) afterwards

/-- If a condition is exactly what a step needs to reach a good state, the runs that
meet it are those that stay in good states. -/
theorem forall_prefix_iff_meets
    (good always : σ → Prop)
    (kept : ∀ state action, always state → always (step state action).1)
    (needed : ∀ state action, good state → always state →
      (good (step state action).1 ↔ condition state action))
    {state : σ}
    {actions : List α}
    (initiallyGood : good state)
    (initially : always state) :
    (∀ earlier, earlier <+: actions → good (run step state earlier).1) ↔
      Meets step condition state actions := by
  induction actions generalizing state with
  | nil =>
      refine iff_of_true ?_ trivial
      intro earlier isPrefix
      rw [List.prefix_nil.mp isPrefix]
      exact initiallyGood
  | cons action rest inductionHypothesis =>
      rw [meets_cons, ← needed state action initiallyGood initially]
      constructor
      · intro stays
        have next : good (step state action).1 :=
          stays [action] (List.cons_prefix_cons.mpr ⟨rfl, List.nil_prefix⟩)
        refine ⟨next, (inductionHypothesis next (kept state action initially)).mp ?_⟩
        intro earlier isPrefix
        exact stays (action :: earlier) (List.cons_prefix_cons.mpr ⟨rfl, isPrefix⟩)
      · rintro ⟨next, afterwards⟩ earlier isPrefix
        cases earlier with
        | nil => exact initiallyGood
        | cons first earlier =>
            obtain ⟨rfl, ofRest⟩ := List.cons_prefix_cons.mp isPrefix
            exact (inductionHypothesis next (kept state first initially)).mpr afterwards
              earlier ofRest

variable (step) in
/-- The number of steps of a run that satisfy a predicate in the state in which they are
taken. -/
def occurrences (occurs : σ → α → Bool) (state : σ) : List α → Nat
  | [] => 0
  | action :: rest =>
      (if occurs state action then 1 else 0) + occurrences occurs (step state action).1 rest

variable (step) in
/-- A rank that some steps lower and no step raises reaches zero in every run with enough of
these steps. -/
theorem exists_rank_zero
    (rank : σ → Nat)
    (lowering : σ → α → Bool)
    (lowers : ∀ state action, lowering state action → 0 < rank state →
      rank (step state action).1 < rank state)
    (keeps : ∀ state action, ¬lowering state action →
      rank (step state action).1 ≤ rank state)
    {state : σ}
    {actions : List α}
    (enough : rank state ≤ occurrences step lowering state actions) :
    ∃ earlier later, actions = earlier ++ later ∧
      rank (run step state earlier).1 = 0 := by
  induction actions generalizing state with
  | nil => exact ⟨[], [], rfl, Nat.le_zero.mp enough⟩
  | cons action rest inductionHypothesis =>
      rcases Nat.eq_zero_or_pos (rank state) with done | positive
      · exact ⟨[], action :: rest, rfl, done⟩
      · have remaining : rank (step state action).1 ≤
            occurrences step lowering (step state action).1 rest := by
          rw [occurrences] at enough
          by_cases lowered : lowering state action
          · have smaller := lowers state action lowered positive
            rw [if_pos lowered] at enough
            omega
          · have notLarger := keeps state action lowered
            rw [if_neg lowered] at enough
            omega
        obtain ⟨earlier, later, split, reached⟩ := inductionHypothesis remaining
        exact ⟨action :: earlier, later, by rw [split, List.cons_append], by simpa using reached⟩

variable (step) in
/-- A rank that some actions lower, and that others raise by a bounded amount, is brought to
zero by one of the steps of every run with enough of the former actions. -/
theorem exists_step_to_rank_zero
    (rank : σ → Nat)
    (always : σ → Prop)
    (lowering raising : α → Bool)
    (amount : Nat)
    {actions : List α}
    (kept : ∀ state, ∀ action ∈ actions, always state → always (step state action).1)
    (lowers : ∀ state, ∀ action ∈ actions, always state → lowering action → 0 < rank state →
      rank (step state action).1 < rank state)
    (raises : ∀ state, ∀ action ∈ actions, always state → ¬lowering action →
      rank (step state action).1 ≤ rank state + if raising action then amount else 0)
    {state : σ}
    (initially : always state)
    (positive : 0 < rank state)
    (enough : rank state + amount * actions.countP raising ≤ actions.countP lowering) :
    ∃ earlier action later, actions = earlier ++ action :: later ∧
      always (run step state earlier).1 ∧
      0 < rank (run step state earlier).1 ∧
      rank (step (run step state earlier).1 action).1 = 0 := by
  induction actions generalizing state with
  | nil =>
      rw [List.countP_nil, List.countP_nil] at enough
      omega
  | cons action rest inductionHypothesis =>
      rcases Nat.eq_zero_or_pos (rank (step state action).1) with done | goesOn
      · exact ⟨[], action, rest, rfl, initially, positive, done⟩
      · have remaining : rank (step state action).1 + amount * rest.countP raising ≤
            rest.countP lowering := by
          have member : action ∈ action :: rest := List.mem_cons_self
          by_cases lowered : lowering action
          · have smaller := lowers state action member initially lowered positive
            have fewer : amount * rest.countP raising ≤
                amount * (action :: rest).countP raising :=
              Nat.mul_le_mul_left amount (List.sublist_cons_self action rest).countP_le
            rw [List.countP_cons_of_pos lowered] at enough
            omega
          · have atMost := raises state action member initially lowered
            rw [List.countP_cons_of_neg lowered] at enough
            by_cases raised : raising action
            · rw [if_pos raised] at atMost
              rw [List.countP_cons_of_pos raised, Nat.mul_add, Nat.mul_one] at enough
              omega
            · rw [if_neg raised] at atMost
              rw [List.countP_cons_of_neg raised] at enough
              omega
        obtain ⟨earlier, last, later, split, holds, before, after⟩ :=
          inductionHypothesis
            (fun state other member => kept state other (List.mem_cons_of_mem _ member))
            (fun state other member => lowers state other (List.mem_cons_of_mem _ member))
            (fun state other member => raises state other (List.mem_cons_of_mem _ member))
            (kept state action List.mem_cons_self initially) goesOn remaining
        exact ⟨action :: earlier, last, later, by rw [split, List.cons_append], holds, before,
          after⟩

/-! ## Rounds

Several parties take the steps of a run.  In each state one of them is helpful: its next step
lowers a rank, and until then the steps of the others leave the rank and the helpful party as
they are, or lower the rank as well.
-/

section Rounds

variable {κ : Type*}

/-- Every party takes a step in every round. -/
def Fair (party : α → Option κ) (rounds : List (List α)) : Prop :=
  ∀ round ∈ rounds, ∀ member, ∃ action ∈ round, party action = some member

variable (step) in
/-- The rule of the helpful party, up to the first state of rank zero. -/
structure Helped
    (party : α → Option κ)
    (always : σ → Prop)
    (rank : σ → Nat)
    (helpful : σ → κ) : Prop where
  kept : ∀ state action, always state → 0 < rank state → always (step state action).1
  goesOn : ∀ state action, always state → 0 < rank state →
    rank (step state action).1 < rank state ∨
      rank (step state action).1 = rank state ∧ helpful (step state action).1 = helpful state ∧
        party action ≠ some (helpful state)

theorem forall_prefix_append
    (good : σ → Prop)
    {state : σ}
    {earlier later : List α} :
    (∀ actions, actions <+: earlier ++ later → good (run step state actions).1) ↔
      (∀ actions, actions <+: earlier → good (run step state actions).1) ∧
        ∀ actions, actions <+: later →
          good (run step (run step state earlier).1 actions).1 := by
  constructor
  · intro every
    refine ⟨fun actions isPrefix => every actions (isPrefix.trans (List.prefix_append _ _)), ?_⟩
    intro actions isPrefix
    have whole := every (earlier ++ actions) ((List.prefix_append_right_inj earlier).mpr isPrefix)
    rwa [run_append] at whole
  · rintro ⟨first, second⟩ actions ⟨rest, split⟩
    rcases List.append_eq_append_iff.mp split with ⟨more, rfl, -⟩ | ⟨more, rfl, splitLater⟩
    · exact first actions (List.prefix_append _ _)
    · rw [run_append]
      exact second more ⟨rest, splitLater.symm⟩

/-- An invariant holds after every part of a run whose actions keep it. -/
theorem forall_prefix_of_kept
    (invariant : σ → Prop)
    {actions : List α}
    (kept : ∀ state, ∀ action ∈ actions, invariant state → invariant (step state action).1)
    {state : σ}
    (initially : invariant state) :
    ∀ earlier, earlier <+: actions → invariant (run step state earlier).1 := by
  induction actions generalizing state with
  | nil =>
      intro earlier isPrefix
      rw [List.prefix_nil.mp isPrefix]
      exact initially
  | cons action rest inductionHypothesis =>
      intro earlier isPrefix
      cases earlier with
      | nil => exact initially
      | cons first earlier =>
          obtain ⟨rfl, ofRest⟩ := List.cons_prefix_cons.mp isPrefix
          exact inductionHypothesis
            (fun state other member => kept state other (List.mem_cons_of_mem _ member))
            (kept state first List.mem_cons_self initially) earlier ofRest

variable
    {party : α → Option κ}
    {always : σ → Prop}
    {rank : σ → Nat}
    {helpful : σ → κ}

/-- A run in which the helpful party takes a step lowers the rank, unless a part of it has
brought the rank to zero. -/
theorem Helped.lowers_or_done
    (helped : Helped step party always rank helpful)
    {state : σ}
    {actions : List α}
    (initially : always state)
    (positive : 0 < rank state) :
    (∃ earlier, earlier <+: actions ∧ always (run step state earlier).1 ∧
        rank (run step state earlier).1 = 0) ∨
      (always (run step state actions).1 ∧
        rank (run step state actions).1 ≤ rank state ∧
        ((∃ action ∈ actions, party action = some (helpful state)) →
          rank (run step state actions).1 < rank state)) := by
  induction actions generalizing state with
  | nil => exact Or.inr ⟨initially, Nat.le_refl _, by simp⟩
  | cons action rest inductionHypothesis =>
      have next := helped.kept state action initially positive
      rcases Nat.eq_zero_or_pos (rank (step state action).1) with done | goesOn
      · exact Or.inl ⟨[action], List.cons_prefix_cons.mpr ⟨rfl, List.nil_prefix⟩, next, done⟩
      · rcases inductionHypothesis next goesOn with
          ⟨earlier, isPrefix, reached⟩ | ⟨holds, notLarger, smaller⟩
        · exact Or.inl ⟨action :: earlier, List.cons_prefix_cons.mpr ⟨rfl, isPrefix⟩, reached⟩
        · refine Or.inr ⟨holds, ?_⟩
          rcases helped.goesOn state action initially positive with
            lowered | ⟨sameRank, sameHelpful, notHelpful⟩
          · have below := Nat.lt_of_le_of_lt notLarger lowered
            exact ⟨Nat.le_of_lt below, fun _ => below⟩
          · rw [sameRank] at notLarger smaller
            refine ⟨notLarger, ?_⟩
            rintro ⟨other, member, takes⟩
            rcases List.mem_cons.mp member with rfl | later
            · exact absurd takes notHelpful
            · exact smaller ⟨other, later, by rw [takes, sameHelpful]⟩

/-- Enough rounds bring the rank to zero. -/
theorem Helped.rank_zero_of_rounds
    (helped : Helped step party always rank helpful)
    {state : σ}
    {rounds : List (List α)}
    (initially : always state)
    (fair : Fair party rounds)
    (enough : rank state ≤ rounds.length) :
    ∃ earlier, earlier <+: rounds.flatten ∧ always (run step state earlier).1 ∧
      rank (run step state earlier).1 = 0 := by
  induction rounds generalizing state with
  | nil => exact ⟨[], List.nil_prefix, initially, Nat.le_zero.mp enough⟩
  | cons round rest inductionHypothesis =>
      obtain ⟨fairRound, fairRest⟩ := List.forall_mem_cons.mp fair
      rcases Nat.eq_zero_or_pos (rank state) with done | positive
      · exact ⟨[], List.nil_prefix, initially, done⟩
      rw [List.flatten_cons]
      rcases helped.lowers_or_done initially positive with
        ⟨earlier, isPrefix, reached⟩ | ⟨holds, -, smaller⟩
      · exact ⟨earlier, isPrefix.trans (List.prefix_append _ _), reached⟩
      · have lowered := smaller (fairRound (helpful state))
        rw [List.length_cons] at enough
        obtain ⟨earlier, isPrefix, reached⟩ := inductionHypothesis holds fairRest (by omega)
        refine ⟨round ++ earlier, (List.prefix_append_right_inj round).mpr isPrefix, ?_⟩
        rwa [run_append]

end Rounds

end Machine
