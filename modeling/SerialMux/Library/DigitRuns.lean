import Mathlib.Data.List.Forall2

/-!
# Runs of digits, two digits at a time

A text that spells values has its digits taken two at a time from the left of each
run; a last single digit stands for itself.  `Delimited` is the grammar of runs with
single separators between them, and `spelled` reads any text, ignoring what is not a
digit.  Two texts with digits at the same places spell equally many values, and the
same ones only if the digits agree.
-/

namespace DigitRuns

variable {α β : Type*}

section Definitions

variable (isDigit isSeparator : α → Bool) (single : α → β) (double : α → α → β)

/-- Nonempty runs of digits with single separators between them. -/
inductive Delimited : List α → List (List α) → Prop
  | last {run : List α} (nonempty : run ≠ []) (digits : ∀ digit ∈ run, isDigit digit) :
      Delimited run [run]
  | more {run rest : List α} {separator : α} {runs : List (List α)}
      (nonempty : run ≠ []) (digits : ∀ digit ∈ run, isDigit digit)
      (separates : isSeparator separator) (delimited : Delimited rest runs) :
      Delimited (run ++ separator :: rest) (run :: runs)

/-- The values of a run. -/
def inPairs : List α → List β
  | [] => []
  | [digit] => [single digit]
  | first :: second :: rest => double first second :: inPairs rest

/-- The values of a text. -/
def spelled : List α → List β
  | [] => []
  | [last] => if isDigit last then [single last] else []
  | first :: second :: rest =>
      if isDigit first then
        if isDigit second then double first second :: spelled rest
        else single first :: spelled (second :: rest)
      else spelled (second :: rest)

/-- The number of values that some runs spell: for each half its length, rounded up. -/
def valueCount : List (List α) → Nat
  | [] => 0
  | run :: runs => (run.length + 1) / 2 + valueCount runs

end Definitions

variable {isDigit isSeparator : α → Bool} {single : α → β} {double : α → α → β}

@[simp] theorem valueCount_nil : valueCount ([] : List (List α)) = 0 := rfl

@[simp] theorem valueCount_cons (run : List α) (runs : List (List α)) :
    valueCount (run :: runs) = (run.length + 1) / 2 + valueCount runs := rfl

theorem length_inPairs (run : List α) :
    (inPairs single double run).length = (run.length + 1) / 2 := by
  induction run using inPairs.induct with
  | case1 => simp [inPairs]
  | case2 => simp [inPairs]
  | case3 first second rest inductionHypothesis =>
      rw [inPairs, List.length_cons, inductionHypothesis, List.length_cons, List.length_cons]
      omega

theorem length_flatMap_inPairs (runs : List (List α)) :
    (runs.flatMap (inPairs single double)).length = valueCount runs := by
  induction runs with
  | nil => rfl
  | cons run rest inductionHypothesis =>
      rw [List.flatMap_cons, List.length_append, length_inPairs, inductionHypothesis,
        valueCount_cons]

theorem Delimited.valueCount_pos
    {text : List α}
    {runs : List (List α)}
    (delimited : Delimited isDigit isSeparator text runs) :
    0 < valueCount runs := by
  cases delimited with
  | last nonempty | more nonempty =>
      have positive := List.length_pos_iff.mpr nonempty
      rw [valueCount_cons]
      omega

theorem Delimited.ne_nil
    {text : List α}
    {runs : List (List α)}
    (delimited : Delimited isDigit isSeparator text runs) :
    text ≠ [] := by
  cases delimited with
  | last nonempty => exact nonempty
  | more nonempty => exact List.append_ne_nil_of_left_ne_nil nonempty _

/-! ## Reading a text -/

theorem spelled_cons_of_not
    {first : α}
    (other : isDigit first = false)
    (rest : List α) :
    spelled isDigit single double (first :: rest) = spelled isDigit single double rest := by
  cases rest with
  | nil => simp [spelled, other]
  | cons second rest => simp [spelled, other]

/-- A text is read up to an element that is no digit, and then from there on. -/
theorem spelled_append_cons
    (left right : List α)
    {stop : α}
    (other : isDigit stop = false) :
    spelled isDigit single double (left ++ stop :: right) =
      spelled isDigit single double left ++ spelled isDigit single double right := by
  have skip := @spelled_cons_of_not α β isDigit single double stop other right
  induction left using spelled.induct isDigit with
  | case1 => simpa [spelled] using skip
  | case2 last isLast => simp [spelled, isLast, other, skip]
  | case3 last notLast => simp [spelled, notLast, skip]
  | case4 first second rest isFirst isSecond inductionHypothesis =>
      simp [spelled, isFirst, isSecond, inductionHypothesis]
  | case5 first second rest isFirst notSecond inductionHypothesis =>
      simpa [spelled, isFirst, notSecond] using inductionHypothesis
  | case6 first second rest notFirst inductionHypothesis =>
      simpa [spelled, notFirst] using inductionHypothesis

/-- A run is read in pairs. -/
theorem spelled_run
    {run : List α}
    (digits : ∀ digit ∈ run, isDigit digit) :
    spelled isDigit single double run = inPairs single double run := by
  induction run using inPairs.induct with
  | case1 => rfl
  | case2 last => simp [spelled, inPairs, digits last]
  | case3 first second rest inductionHypothesis =>
      rw [List.forall_mem_cons, List.forall_mem_cons] at digits
      simp [spelled, inPairs, digits.1, digits.2.1, inductionHypothesis digits.2.2]

/-- A text without digits spells nothing. -/
theorem spelled_of_none
    {text : List α}
    (others : ∀ element ∈ text, isDigit element = false) :
    spelled isDigit single double text = [] := by
  induction text with
  | nil => rfl
  | cons first rest inductionHypothesis =>
      rw [List.forall_mem_cons] at others
      rw [spelled_cons_of_not others.1, inductionHypothesis others.2]

theorem spelled_append_of_none_left
    {left : List α}
    (others : ∀ element ∈ left, isDigit element = false)
    (right : List α) :
    spelled isDigit single double (left ++ right) = spelled isDigit single double right := by
  induction left with
  | nil => rfl
  | cons first rest inductionHypothesis =>
      rw [List.forall_mem_cons] at others
      rw [List.cons_append, spelled_cons_of_not others.1, inductionHypothesis others.2]

theorem spelled_append_of_none_right
    (left : List α)
    {right : List α}
    (others : ∀ element ∈ right, isDigit element = false) :
    spelled isDigit single double (left ++ right) = spelled isDigit single double left := by
  cases right with
  | nil => rw [List.append_nil]
  | cons stop rest =>
      rw [List.forall_mem_cons] at others
      rw [spelled_append_cons left rest others.1, spelled_of_none others.2, List.append_nil]

/-- A text in the grammar spells the values of its runs. -/
theorem Delimited.spelled_eq
    (separators : ∀ element, isSeparator element → isDigit element = false)
    {text : List α}
    {runs : List (List α)}
    (delimited : Delimited isDigit isSeparator text runs) :
    spelled isDigit single double text = runs.flatMap (inPairs single double) := by
  induction delimited with
  | last nonempty digits => simp [spelled_run digits]
  | more nonempty digits separates delimited inductionHypothesis =>
      rw [spelled_append_cons _ _ (separators _ separates), spelled_run digits,
        inductionHypothesis, List.flatMap_cons]

/-! ## Texts of one shape -/

/-- Two texts have digits at the same places, and are the same elsewhere. -/
def SameShape (isDigit : α → Bool) : List α → List α → Prop :=
  List.Forall₂ fun left right => left = right ∨ isDigit left ∧ isDigit right

theorem SameShape.exists_cons
    {first : α}
    {rest right : List α}
    (shape : SameShape isDigit (first :: rest) right) :
    ∃ first' rest', right = first' :: rest' ∧ isDigit first' = isDigit first ∧
      SameShape isDigit rest rest' := by
  cases shape with
  | cons same shape =>
      refine ⟨_, _, rfl, ?_, shape⟩
      rcases same with rfl | ⟨isFirst, isFirst'⟩
      · rfl
      · rw [isFirst, isFirst']

theorem SameShape.refl (text : List α) : SameShape isDigit text text :=
  List.forall₂_same.mpr fun _ _ => Or.inl rfl

/-- A digit in the place of another does not change the shape. -/
theorem SameShape.replace
    {text left right : List α}
    {digit other : α}
    (split : text = left ++ digit :: right)
    (isDigit' : isDigit digit)
    (isOther : isDigit other) :
    SameShape isDigit text (left ++ other :: right) := by
  subst split
  induction left with
  | nil => exact .cons (Or.inr ⟨isDigit', isOther⟩) (SameShape.refl right)
  | cons first rest inductionHypothesis => exact .cons (Or.inl rfl) inductionHypothesis

/-- Texts are related only if the elements at one place are. -/
theorem rel_of_forall₂_replaced
    {relation : α → α → Prop}
    {text left right : List α}
    {digit other : α}
    (split : text = left ++ digit :: right)
    (related : List.Forall₂ relation text (left ++ other :: right)) :
    relation digit other := by
  subst split
  induction left with
  | nil => exact (List.forall₂_cons.mp related).1
  | cons first rest inductionHypothesis =>
      exact inductionHypothesis (List.forall₂_cons.mp related).2

/-- Without digits only the same text has the shape. -/
theorem SameShape.eq_of_none
    {left right : List α}
    (shape : SameShape isDigit left right)
    (others : ∀ element ∈ left, isDigit element = false) :
    right = left := by
  induction shape with
  | nil => rfl
  | cons same _ inductionHypothesis =>
      rw [List.forall_mem_cons] at others
      rcases same with rfl | ⟨isFirst, -⟩
      · rw [inductionHypothesis others.2]
      · rw [others.1] at isFirst
        cases isFirst

/-- Texts of one shape are left at the same place by a condition that tells no digits
apart. -/
theorem SameShape.dropWhile
    {condition : α → Bool}
    {answer : Bool}
    (blind : ∀ digit, isDigit digit → condition digit = answer)
    {left right : List α}
    (shape : SameShape isDigit left right) :
    SameShape isDigit (left.dropWhile condition) (right.dropWhile condition) := by
  induction shape with
  | nil => exact .nil
  | @cons first first' rest rest' same shape inductionHypothesis =>
      have agrees : condition first = condition first' := by
        rcases same with rfl | ⟨isFirst, isFirst'⟩
        · rfl
        · rw [blind first isFirst, blind first' isFirst']
      rw [List.dropWhile_cons, List.dropWhile_cons, ← agrees]
      split_ifs
      · exact inductionHypothesis
      · exact .cons same shape

/-- Texts of one shape spell equally many values, and if the values are the same, the
digits agree. -/
theorem SameShape.spelled
    {agree : α → α → Prop}
    (singleAgrees : ∀ left right, isDigit left → isDigit right →
      single left = single right → agree left right)
    (doubleAgrees : ∀ left right left' right', isDigit left → isDigit right →
      isDigit left' → isDigit right' → double left left' = double right right' →
      agree left right ∧ agree left' right')
    {left right : List α}
    (shape : SameShape isDigit left right) :
    (spelled isDigit single double left).length =
        (spelled isDigit single double right).length ∧
      (spelled isDigit single double left = spelled isDigit single double right →
        List.Forall₂ (fun left right => isDigit left → agree left right) left right) := by
  induction left using spelled.induct isDigit generalizing right with
  | case1 =>
      cases shape
      simp
  | case2 last isLast =>
      obtain ⟨last', rest', rfl, isLast', shape⟩ := shape.exists_cons
      cases shape
      rw [isLast] at isLast'
      simpa [DigitRuns.spelled, isLast, isLast'] using singleAgrees last last' isLast isLast'
  | case3 last notLast =>
      obtain ⟨last', rest', rfl, notLast', shape⟩ := shape.exists_cons
      cases shape
      rw [Bool.not_eq_true] at notLast
      rw [notLast] at notLast'
      simp [DigitRuns.spelled, notLast, notLast']
  | case4 first second rest isFirst isSecond inductionHypothesis =>
      obtain ⟨first', rest', rfl, isFirst', shape⟩ := shape.exists_cons
      obtain ⟨second', rest', rfl, isSecond', shape⟩ := shape.exists_cons
      rw [isFirst] at isFirst'
      rw [isSecond] at isSecond'
      obtain ⟨length, digits⟩ := inductionHypothesis shape
      simp only [DigitRuns.spelled, isFirst, isFirst', isSecond, isSecond', if_true,
        List.length_cons, length, List.cons.injEq, true_and, List.forall₂_cons]
      rintro ⟨pair, others⟩
      obtain ⟨agreeFirst, agreeSecond⟩ :=
        doubleAgrees first first' second second' isFirst isFirst' isSecond isSecond' pair
      exact ⟨fun _ => agreeFirst, fun _ => agreeSecond, digits others⟩
  | case5 first second rest isFirst notSecond inductionHypothesis =>
      obtain ⟨first', rest', rfl, isFirst', shape⟩ := shape.exists_cons
      obtain ⟨length, digits⟩ := inductionHypothesis shape
      obtain ⟨second', rest', rfl, notSecond', -⟩ := shape.exists_cons
      rw [Bool.not_eq_true] at notSecond
      rw [isFirst] at isFirst'
      rw [notSecond] at notSecond'
      simp only [DigitRuns.spelled, isFirst, isFirst', notSecond, notSecond', if_true,
        Bool.false_eq_true, if_false, List.length_cons, length, List.cons.injEq, true_and]
      rintro ⟨one, others⟩
      exact List.forall₂_cons.mpr
        ⟨fun _ => singleAgrees first first' isFirst isFirst' one, digits others⟩
  | case6 first second rest notFirst inductionHypothesis =>
      obtain ⟨first', rest', rfl, notFirst', shape⟩ := shape.exists_cons
      obtain ⟨length, digits⟩ := inductionHypothesis shape
      rw [Bool.not_eq_true] at notFirst
      rw [notFirst] at notFirst'
      rw [spelled_cons_of_not notFirst, spelled_cons_of_not notFirst', List.forall₂_cons]
      refine ⟨length, fun same => ⟨?_, digits same⟩⟩
      simp [notFirst]

end DigitRuns
