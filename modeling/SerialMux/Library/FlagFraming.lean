import Mathlib.Data.List.Basic

/-!
# Framing with flags and escapes

A flag ends a frame, and an escape makes the next element a content element
whatever it is.  `cut` and `unstuff` describe a stream piece by piece: cut it at
the flags, then undo the escapes.  `lex` and `frames` describe it the way an
automaton reads it: first the escapes, element by element, then the flags.
Both descriptions agree, and stuffed content reads back as itself.
-/

namespace FlagFraming

variable {α : Type*} [DecidableEq α]

/-- Escape every flag and every escape of a content. -/
def stuff (flag escape : α) (mask : α → α) (content : List α) : List α :=
  content.flatMap fun element =>
    if element = flag ∨ element = escape then [escape, mask element] else [element]

/-- Undo the escapes of a piece. -/
def unstuff (escape : α) (mask : α → α) : List α → List α
  | [] => []
  | element :: rest =>
      if element = escape then
        match rest with
        | [] => []
        | escaped :: rest => mask escaped :: unstuff escape mask rest
      else element :: unstuff escape mask rest

/-- The pieces of a stream that end in a flag which is not escaped, given the
part of the first piece that was already read. -/
def cut (flag escape : α) (piece : List α) : List α → List (List α)
  | [] => []
  | element :: rest =>
      if element = escape then
        match rest with
        | [] => []
        | escaped :: rest => cut flag escape (piece ++ [element, escaped]) rest
      else if element = flag then piece :: cut flag escape [] rest
      else cut flag escape (piece ++ [element]) rest

/-- A content element or the end of a frame. -/
inductive Symbol (α : Type*)
  | octet (value : α)
  | boundary

/-- Read a stream as symbols; an escape at its very end yields nothing. -/
def lex (flag escape : α) (mask : α → α) : List α → List (Symbol α)
  | [] => []
  | element :: rest =>
      if element = escape then
        match rest with
        | [] => []
        | escaped :: rest => .octet (mask escaped) :: lex flag escape mask rest
      else if element = flag then .boundary :: lex flag escape mask rest
      else .octet element :: lex flag escape mask rest

/-- The complete frames of a sequence of symbols, given the content read
before. -/
def frames (content : List α) : List (Symbol α) → List (List α)
  | [] => []
  | .octet value :: rest => frames (content ++ [value]) rest
  | .boundary :: rest => content :: frames [] rest

variable {flag escape : α} {mask : α → α}

/-! ## Lexing -/

theorem lex_escape (escaped : α) (rest : List α) :
    lex flag escape mask (escape :: escaped :: rest) =
      .octet (mask escaped) :: lex flag escape mask rest := by
  rw [lex.eq_def]
  simp

theorem lex_flag (different : flag ≠ escape) (rest : List α) :
    lex flag escape mask (flag :: rest) = .boundary :: lex flag escape mask rest := by
  rw [lex.eq_def]
  simp [different]

theorem lex_other
    {element : α}
    (notEscape : element ≠ escape)
    (notFlag : element ≠ flag)
    (rest : List α) :
    lex flag escape mask (element :: rest) =
      .octet element :: lex flag escape mask rest := by
  rw [lex.eq_def]
  simp [notEscape, notFlag]

/-! ## The two descriptions agree -/

theorem unstuff_escape (escaped : α) (rest : List α) :
    unstuff escape mask (escape :: escaped :: rest) =
      mask escaped :: unstuff escape mask rest := by
  rw [unstuff.eq_def]
  simp

theorem unstuff_other
    {element : α}
    (notEscape : element ≠ escape)
    (rest : List α) :
    unstuff escape mask (element :: rest) = element :: unstuff escape mask rest := by
  rw [unstuff.eq_def]
  simp [notEscape]

theorem cut_escape (piece : List α) (escaped : α) (rest : List α) :
    cut flag escape piece (escape :: escaped :: rest) =
      cut flag escape (piece ++ [escape, escaped]) rest := by
  rw [cut.eq_def]
  simp

theorem cut_flag (different : flag ≠ escape) (piece rest : List α) :
    cut flag escape piece (flag :: rest) = piece :: cut flag escape [] rest := by
  rw [cut.eq_def]
  simp [different]

theorem cut_other
    {element : α}
    (notEscape : element ≠ escape)
    (notFlag : element ≠ flag)
    (piece rest : List α) :
    cut flag escape piece (element :: rest) =
      cut flag escape (piece ++ [element]) rest := by
  rw [cut.eq_def]
  simp [notEscape, notFlag]

/-- A piece whose escapes are all paired. -/
def Closed (escape : α) (mask : α → α) (piece : List α) : Prop :=
  ∀ rest, unstuff escape mask (piece ++ rest) =
    unstuff escape mask piece ++ unstuff escape mask rest

namespace Closed

theorem nil : Closed escape mask [] := fun _ => rfl

theorem append
    {piece more : List α}
    (closed : Closed escape mask piece)
    (moreClosed : Closed escape mask more) :
    Closed escape mask (piece ++ more) := by
  intro rest
  rw [List.append_assoc, closed, closed, moreClosed, List.append_assoc]

theorem escaped (element : α) : Closed escape mask [escape, element] := by
  intro rest
  simp only [List.cons_append, List.nil_append, unstuff_escape]
  rfl

theorem other
    {element : α}
    (notEscape : element ≠ escape) :
    Closed escape mask [element] := by
  intro rest
  simp only [List.cons_append, List.nil_append, unstuff_other notEscape]
  rfl

end Closed

/-- Cutting first and undoing the escapes of each piece gives the frames of the
symbols. -/
theorem map_unstuff_cut
    (different : flag ≠ escape)
    {piece : List α}
    (closed : Closed escape mask piece)
    (stream : List α) :
    (cut flag escape piece stream).map (unstuff escape mask) =
      frames (unstuff escape mask piece) (lex flag escape mask stream) := by
  induction piece, stream using cut.induct flag escape with
  | case1 piece => rfl
  | case2 piece => simp [cut, lex, frames]
  | case3 piece escaped rest inductionHypothesis =>
      have grown := closed.append (Closed.escaped escaped)
      rw [lex_escape, cut_escape, frames, inductionHypothesis grown, closed,
        unstuff_escape]
      rfl
  | case4 piece rest isFlag inductionHypothesis =>
      rw [lex_flag different, cut_flag different, frames, List.map_cons,
        inductionHypothesis Closed.nil]
      rfl
  | case5 piece element rest notEscape notFlag inductionHypothesis =>
      have grown := closed.append (Closed.other notEscape)
      rw [lex_other notEscape notFlag, cut_other notEscape notFlag, frames,
        inductionHypothesis grown, closed, unstuff_other notEscape]
      rfl

/-! ## Strings written by stuffing -/

/-- A string in which no flag occurs and every escape is followed by a masked flag
or a masked escape. -/
inductive Canonical (flag escape : α) (mask : α → α) : List α → Prop
  | nil : Canonical flag escape mask []
  | escaped {element : α} {rest : List α}
      (special : element = flag ∨ element = escape)
      (canonical : Canonical flag escape mask rest) :
      Canonical flag escape mask (escape :: mask element :: rest)
  | other {element : α} {rest : List α}
      (notFlag : element ≠ flag)
      (notEscape : element ≠ escape)
      (canonical : Canonical flag escape mask rest) :
      Canonical flag escape mask (element :: rest)

/-- What stands behind each escape decides whether a string without flags is
canonical. -/
theorem canonical_of_positions
    (string : List α)
    (noFlag : flag ∉ string)
    (followed : ∀ index : Nat, string[index]? = some escape →
      string[index + 1]? = some (mask flag) ∨ string[index + 1]? = some (mask escape)) :
    Canonical flag escape mask string := by
  induction string using unstuff.induct escape with
  | case1 => exact Canonical.nil
  | case2 =>
      have absent := followed 0 rfl
      simp at absent
  | case3 escaped rest inductionHypothesis =>
      have behind : escaped = mask flag ∨ escaped = mask escape := by
        simpa using followed 0 rfl
      have tail : Canonical flag escape mask rest := by
        apply inductionHypothesis
        · intro member
          exact noFlag (List.mem_cons_of_mem _ (List.mem_cons_of_mem _ member))
        · intro index isEscape
          exact followed (index + 2) isEscape
      rcases behind with rfl | rfl
      · exact Canonical.escaped (Or.inl rfl) tail
      · exact Canonical.escaped (Or.inr rfl) tail
  | case4 element rest notEscape inductionHypothesis =>
      rw [List.mem_cons, not_or] at noFlag
      refine Canonical.other (Ne.symm noFlag.1) notEscape (inductionHypothesis noFlag.2 ?_)
      intro index isEscape
      exact followed (index + 1) isEscape

/-- Stuffing a canonical string again, after its escapes were undone, gives it
back. -/
theorem Canonical.stuff_unstuff
    (involutive : Function.Involutive mask)
    {string : List α}
    (canonical : Canonical flag escape mask string) :
    stuff flag escape mask (unstuff escape mask string) = string := by
  induction canonical with
  | nil => rfl
  | @escaped element rest special _ inductionHypothesis =>
      rw [unstuff_escape, involutive element, stuff, List.flatMap_cons, if_pos special,
        ← stuff, inductionHypothesis]
      rfl
  | @other element rest notFlag notEscape _ inductionHypothesis =>
      have plain : ¬(element = flag ∨ element = escape) := not_or.mpr ⟨notFlag, notEscape⟩
      rw [unstuff_other notEscape, stuff, List.flatMap_cons, if_neg plain, ← stuff,
        inductionHypothesis]
      rfl

end FlagFraming
