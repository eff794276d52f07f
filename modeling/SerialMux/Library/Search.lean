import Mathlib.Data.List.Infix

/-!
# First occurrence of a pattern in a list

`search` is the position of the first occurrence of a pattern, and `after` is
the rest of the list behind that occurrence.  The lemmas say how both behave
when the list grows at its end, when a part without occurrence is dropped from
its front, and when an unbordered pattern follows a list that lacks it.
-/

namespace PatternSearch

variable {α : Type*} [DecidableEq α]

/-- Position of the first occurrence of `pattern`. -/
def search (pattern : List α) : List α → Option Nat
  | [] => if pattern = [] then some 0 else none
  | head :: tail =>
      if pattern <+: head :: tail then some 0
      else (search pattern tail).map (· + 1)

/-- What follows the first occurrence of `pattern`. -/
def after (pattern text : List α) : Option (List α) :=
  (search pattern text).map fun position => text.drop (position + pattern.length)

/-- No proper suffix of the pattern is one of its prefixes. -/
def Unbordered (pattern : List α) : Prop :=
  ∀ shift, 0 < shift → shift < pattern.length → ¬pattern.drop shift <+: pattern

variable {pattern text rest : List α}

theorem search_of_occurs (occurs : pattern <+: text) :
    search pattern text = some 0 := by
  cases text with
  | nil => simp [search, List.prefix_nil.mp occurs]
  | cons head tail => simp [search, occurs]

theorem after_pattern_append (pattern rest : List α) :
    after pattern (pattern ++ rest) = some rest := by
  simp [after, search_of_occurs (List.prefix_append pattern rest)]

/-- A position where the pattern does not start can be skipped. -/
theorem after_cons_of_absent
    {head : α} {tail : List α}
    (absent : ¬pattern <+: head :: tail) :
    after pattern (head :: tail) = after pattern tail := by
  simp only [after, search, absent, if_false, Option.map_map]
  congr 1
  funext position
  simp [Function.comp, Nat.add_right_comm]

/-- The search fails exactly on the lists that do not contain the pattern. -/
theorem search_eq_none_iff (nonempty : pattern ≠ []) :
    search pattern text = none ↔ ¬pattern <:+: text := by
  induction text with
  | nil => simp [search, nonempty, List.infix_nil]
  | cons head tail inductionHypothesis =>
      by_cases here : pattern <+: head :: tail
      · simp [search, here, here.isInfix]
      · simp [search, here, inductionHypothesis, List.infix_cons_iff]

theorem after_eq_none_iff (nonempty : pattern ≠ []) :
    after pattern text = none ↔ ¬pattern <:+: text := by
  rw [← search_eq_none_iff nonempty]
  simp [after]

/-- The pattern stands at the position that is found. -/
theorem prefix_of_search
    {position : Nat}
    (found : search pattern text = some position) :
    pattern <+: text.drop position := by
  induction text generalizing position with
  | nil =>
      rw [search] at found
      split_ifs at found with empty
      simp [empty]
  | cons head tail inductionHypothesis =>
      rw [search] at found
      split_ifs at found with here
      · cases found
        exact here
      · obtain ⟨later, foundLater, rfl⟩ := Option.map_eq_some_iff.mp found
        rw [List.drop_succ_cons]
        exact inductionHypothesis foundLater

/-- The pattern ends inside the list. -/
theorem search_length
    (nonempty : pattern ≠ [])
    {position : Nat}
    (found : search pattern text = some position) :
    position + pattern.length ≤ text.length := by
  have inside := (prefix_of_search found).length_le
  have positive := List.length_pos_iff.mpr nonempty
  rw [List.length_drop] at inside
  omega

/-- An occurrence that was found stays the first one when the list grows. -/
theorem search_append
    (nonempty : pattern ≠ [])
    {position : Nat}
    (found : search pattern text = some position)
    (extra : List α) :
    search pattern (text ++ extra) = some position := by
  induction text generalizing position with
  | nil => simp [search, nonempty] at found
  | cons head tail inductionHypothesis =>
      have inside := search_length nonempty found
      rw [search] at found
      rw [List.cons_append, search]
      by_cases here : pattern <+: head :: tail
      · have stillHere : pattern <+: head :: (tail ++ extra) :=
          here.trans (List.prefix_append (head :: tail) extra)
        rw [if_pos here] at found
        rw [if_pos stillHere, found]
      · rw [if_neg here] at found
        obtain ⟨later, foundLater, rfl⟩ := Option.map_eq_some_iff.mp found
        have stillAbsent : ¬pattern <+: head :: (tail ++ extra) := by
          intro occurs
          apply here
          rw [← List.cons_append] at occurs
          exact List.prefix_of_prefix_length_le occurs (List.prefix_append _ extra) (by omega)
        rw [if_neg stillAbsent, inductionHypothesis foundLater]
        rfl

/-- An occurrence that a list without one gets when it grows ends behind it. -/
theorem search_append_of_absent
    (absent : ¬pattern <:+: text)
    {extra : List α}
    {position : Nat}
    (found : search pattern (text ++ extra) = some position) :
    text.length < position + pattern.length := by
  by_contra inside
  have occurs := prefix_of_search found
  rw [List.drop_append_of_le_length (by omega)] at occurs
  have within : pattern <+: text.drop position := by
    refine List.prefix_of_prefix_length_le occurs (List.prefix_append _ extra) ?_
    rw [List.length_drop]
    omega
  exact absent (within.isInfix.trans (List.drop_suffix position text).isInfix)

/-- What follows an occurrence grows with the list. -/
theorem after_append
    (nonempty : pattern ≠ [])
    (found : after pattern text = some rest)
    (extra : List α) :
    after pattern (text ++ extra) = some (rest ++ extra) := by
  rw [after, Option.map_eq_some_iff] at found
  obtain ⟨position, found, rfl⟩ := found
  rw [after, search_append nonempty found, Option.map_some,
    List.drop_append_of_le_length (search_length nonempty found)]

/-- A list without occurrence can lose its front, as long as it keeps one
element less than the pattern has: an occurrence that the list completes later
starts in the kept part. -/
theorem after_drop_append
    (absent : ¬pattern <:+: text)
    (count : Nat)
    (kept : pattern.length ≤ text.length - count + 1)
    (extra : List α) :
    after pattern (text.drop count ++ extra) = after pattern (text ++ extra) := by
  induction count generalizing text with
  | zero => rfl
  | succ count inductionHypothesis =>
      cases text with
      | nil => rfl
      | cons head tail =>
          rw [List.infix_cons_iff, not_or] at absent
          have notHere : ¬pattern <+: head :: (tail ++ extra) := by
            intro occurs
            apply absent.1
            rw [← List.cons_append] at occurs
            refine List.prefix_of_prefix_length_le occurs
              (List.prefix_append _ extra) ?_
            simp only [List.length_cons] at kept ⊢
            omega
          rw [List.drop_succ_cons, List.cons_append,
            after_cons_of_absent notHere]
          refine inductionHypothesis absent.2 ?_
          simp only [List.length_cons] at kept
          omega

/-- Junk without occurrence in front of an unbordered pattern does not move
the first occurrence, even when the junk ends in a prefix of the pattern. -/
theorem after_junk
    (unbordered : Unbordered pattern)
    {junk : List α}
    (absent : ¬pattern <:+: junk)
    (rest : List α) :
    after pattern (junk ++ (pattern ++ rest)) = some rest := by
  induction junk with
  | nil => simpa using after_pattern_append pattern rest
  | cons head tail inductionHypothesis =>
      rw [List.infix_cons_iff, not_or] at absent
      have notHere : ¬pattern <+: head :: (tail ++ (pattern ++ rest)) := by
        intro occurs
        rw [← List.cons_append] at occurs
        by_cases short : (head :: tail).length < pattern.length
        · apply unbordered (head :: tail).length (by simp) short
          have overlap : pattern.drop (head :: tail).length <+: pattern ++ rest := by
            simpa using occurs.drop (head :: tail).length
          exact List.prefix_of_prefix_length_le overlap
            (List.prefix_append _ rest) (by simp)
        · exact absent.1 (List.prefix_of_prefix_length_le occurs
            (List.prefix_append _ _) (by omega))
      rw [List.cons_append, after_cons_of_absent notHere]
      exact inductionHypothesis absent.2

end PatternSearch
