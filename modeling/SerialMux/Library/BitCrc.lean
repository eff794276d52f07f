import Mathlib.Logic.Function.Iterate
import SerialMux.Library.TableCrc

/-!
# Bit-by-bit check sequences

A reflected register is advanced one message bit at a time.  Moving the register
is linear in exclusive or, so a message of at most one register width acts like
an exclusive or before the moves (`run_eq_iterate`).  Two things follow: a table
of moved bytes advances the register a byte at a time, and messages that differ
only within one register width end in different registers.
-/

namespace BitCrc

variable {width : Nat}

/-- Move the register down by one place; a one that leaves it adds the
polynomial. -/
def move (polynomial register : BitVec width) : BitVec width :=
  if register.getLsbD 0 then (register >>> 1) ^^^ polynomial else register >>> 1

/-- Advance the register by one message bit. -/
def bitStep (polynomial register : BitVec width) (bit : Bool) : BitVec width :=
  if (register.getLsbD 0).xor bit then (register >>> 1) ^^^ polynomial
  else register >>> 1

/-- Advance the register by a list of message bits. -/
def run (polynomial register : BitVec width) (bits : List Bool) : BitVec width :=
  bits.foldl (bitStep polynomial) register

/-- The bits of a value, least significant bit first. -/
def valueBits {size : Nat} (value : BitVec size) : List Bool :=
  List.ofFn fun index : Fin size => value.getLsbD index

/-- The bits of a list of values, one value after the other. -/
def messageBits {size : Nat} (values : List (BitVec size)) : List Bool :=
  values.flatMap valueBits

/-- A register filled with bits from its least significant end. -/
def word (width : Nat) : List Bool → BitVec width
  | [] => BitVec.ofNat width 0
  | bit :: rest => (word width rest <<< 1) ^^^ (BitVec.ofBool bit).setWidth width

variable {polynomial : BitVec width}

theorem run_append (register : BitVec width) (left right : List Bool) :
    run polynomial register (left ++ right) =
      run polynomial (run polynomial register left) right :=
  List.foldl_append

@[simp] theorem length_valueBits {size : Nat} (value : BitVec size) :
    (valueBits value).length = size := List.length_ofFn

/-- A bit of a filled register is the bit at that place of the list. -/
theorem getLsbD_word (bits : List Bool) (index : Nat) :
    (word width bits).getLsbD index = (decide (index < width) && bits.getD index false) := by
  induction bits generalizing index with
  | nil => simp [word]
  | cons bit rest inductionHypothesis =>
      rw [word, BitVec.getLsbD_xor, BitVec.getLsbD_shiftLeft, inductionHypothesis]
      cases index with
      | zero => cases bit <;> simp
      | succ index =>
          by_cases inside : index + 1 < width
          · have below : index < width := by omega
            simp [inside, below]
          · simp [inside]

/-- Lists that fit in the register fill it in the same way only if they agree. -/
theorem word_injective
    {left right : List Bool}
    (sameLength : left.length = right.length)
    (fits : left.length ≤ width)
    (sameWord : word width left = word width right) :
    left = right := by
  apply List.ext_getElem sameLength
  intro index leftBound rightBound
  have bit := congrArg (fun register => register.getLsbD index) sameWord
  have inside : index < width := by omega
  rw [getLsbD_word, getLsbD_word] at bit
  simpa [inside, leftBound, rightBound] using bit

theorem word_valueBits {size : Nat} (value : BitVec size) :
    word width (valueBits value) = value.setWidth width := by
  apply BitVec.eq_of_getLsbD_eq
  intro index inside
  rw [getLsbD_word, BitVec.getLsbD_setWidth]
  by_cases within : index < size
  · simp [valueBits, within]
  · rw [BitVec.getLsbD_of_ge value index (by omega)]
    simp [valueBits, within]

/-! ## Moving the register -/

/-- Moving the register is linear. -/
theorem move_xor (left right : BitVec width) :
    move polynomial (left ^^^ right) = move polynomial left ^^^ move polynomial right := by
  unfold move
  rw [BitVec.getLsbD_xor, BitVec.ushiftRight_xor_distrib]
  cases left.getLsbD 0 <;> cases right.getLsbD 0
  · rfl
  · exact BitVec.xor_assoc _ _ _
  · simp only [Bool.xor_false, if_true, Bool.false_eq_true, if_false]
    ac_rfl
  · have cancelled : (left >>> 1 ^^^ polynomial) ^^^ (right >>> 1 ^^^ polynomial) =
        (left >>> 1 ^^^ right >>> 1) ^^^ (polynomial ^^^ polynomial) := by ac_rfl
    simpa using cancelled.symm

theorem iterate_move_xor (count : Nat) (left right : BitVec width) :
    (move polynomial)^[count] (left ^^^ right) =
      (move polynomial)^[count] left ^^^ (move polynomial)^[count] right := by
  induction count generalizing left right with
  | zero => rfl
  | succ count inductionHypothesis =>
      simp only [Function.iterate_succ_apply, move_xor, inductionHypothesis]

/-- A register whose low bits are clear only moves down. -/
theorem iterate_move_of_low_clear
    (count : Nat)
    (register : BitVec width)
    (clear : ∀ index < count, register.getLsbD index = false) :
    (move polynomial)^[count] register = register >>> count := by
  induction count with
  | zero => simp
  | succ count inductionHypothesis =>
      have below : ∀ index < count, register.getLsbD index = false := by
        intro index bound
        exact clear index (by omega)
      have bottom : (register >>> count).getLsbD 0 = false := by
        simpa using clear count (by omega)
      rw [Function.iterate_succ_apply', inductionHypothesis below, move, bottom,
        BitVec.shiftRight_add]
      rfl

/-- The low part of the register is moved, and the rest comes down unchanged. -/
theorem iterate_move_split (count : Nat) (register : BitVec width) :
    (move polynomial)^[count] register =
      (register >>> count) ^^^
        (move polynomial)^[count] ((register.setWidth count).setWidth width) := by
  have parts : register =
      (register ^^^ (register.setWidth count).setWidth width) ^^^
        (register.setWidth count).setWidth width := by
    rw [BitVec.xor_assoc, BitVec.xor_self, BitVec.xor_zero]
  have clear : ∀ index < count,
      (register ^^^ (register.setWidth count).setWidth width).getLsbD index = false := by
    intro index bound
    by_cases inside : index < width
    · simp [bound, inside]
    · exact BitVec.getLsbD_of_ge _ index (by omega)
  have above : (register ^^^ (register.setWidth count).setWidth width) >>> count =
      register >>> count := by
    apply BitVec.eq_of_getLsbD_eq
    intro index inside
    simp [BitVec.getLsbD_ushiftRight, BitVec.getLsbD_xor, BitVec.getLsbD_setWidth]
  conv_lhs => rw [parts]
  rw [iterate_move_xor, iterate_move_of_low_clear count _ clear, above]

/-- With the top bit of the polynomial set, no two registers move to one. -/
theorem move_injective (top : polynomial.getLsbD (width - 1) = true) :
    Function.Injective (move polynomial) := by
  have positive : 0 < width := by
    by_contra empty
    rw [BitVec.getLsbD_of_ge polynomial (width - 1) (by omega)] at top
    cases top
  -- the top bit after the move tells which bit has left
  have left (register : BitVec width) :
      (move polynomial register).getLsbD (width - 1) = register.getLsbD 0 := by
    have shifted : (register >>> 1).getLsbD (width - 1) = false := by
      rw [BitVec.getLsbD_ushiftRight]
      exact BitVec.getLsbD_of_ge register _ (by omega)
    rw [move]
    cases register.getLsbD 0 <;> simp [shifted, top]
  intro first second same
  have bottom : first.getLsbD 0 = second.getLsbD 0 := by rw [← left, same, left]
  have shifted : first >>> 1 = second >>> 1 := by
    unfold move at same
    rw [bottom] at same
    split at same
    · exact (BitVec.xor_left_inj _).mp same
    · exact same
  apply BitVec.eq_of_getLsbD_eq
  intro index inside
  cases index with
  | zero => exact bottom
  | succ index =>
      have bit := congrArg (fun register => register.getLsbD index) shifted
      simpa [BitVec.getLsbD_ushiftRight, Nat.add_comm] using bit

/-! ## Message bits -/

/-- A message bit is added at the bottom of the register before the move. -/
theorem bitStep_eq_move (positive : 0 < width) (register : BitVec width) (bit : Bool) :
    bitStep polynomial register bit = move polynomial (register ^^^ word width [bit]) := by
  have bottom : (word width [bit]).getLsbD 0 = bit := by
    rw [getLsbD_word]
    simp [positive]
  have above : word width [bit] >>> 1 = BitVec.ofNat width 0 := by
    apply BitVec.eq_of_getLsbD_eq
    intro index inside
    simp [BitVec.getLsbD_ushiftRight, getLsbD_word, Nat.add_comm 1 index]
  rw [bitStep, move, BitVec.getLsbD_xor, bottom, BitVec.ushiftRight_xor_distrib, above,
    BitVec.xor_zero]

/-- A message that fits in the register can be added at once. -/
theorem run_eq_iterate
    (register : BitVec width)
    (bits : List Bool)
    (fits : bits.length ≤ width) :
    run polynomial register bits =
      (move polynomial)^[bits.length] (register ^^^ word width bits) := by
  induction bits generalizing register with
  | nil => simp [run, word]
  | cons bit rest inductionHypothesis =>
      rw [List.length_cons] at fits
      have parts : word width (bit :: rest) = word width [bit] ^^^ (word width rest <<< 1) := by
        rw [word, word, word, BitVec.zero_shiftLeft, BitVec.zero_xor]
        exact BitVec.xor_comm _ _
      have clear : ∀ index < 1, (word width rest <<< 1).getLsbD index = false := by
        intro index bound
        simp [show index = 0 by omega]
      have restored : (word width rest <<< 1) >>> 1 = word width rest := by
        apply BitVec.eq_of_getLsbD_eq
        intro index inside
        rw [BitVec.getLsbD_ushiftRight, BitVec.getLsbD_shiftLeft, Nat.add_comm 1 index,
          getLsbD_word, getLsbD_word]
        by_cases last : index + 1 < width
        · simp [last, inside]
        · have absent : rest[index]? = none := List.getElem?_eq_none (by omega)
          simp [last, absent]
      have moved : move polynomial (word width rest <<< 1) = word width rest := by
        have once : (move polynomial)^[1] (word width rest <<< 1) =
            (word width rest <<< 1) >>> 1 := iterate_move_of_low_clear 1 _ clear
        rwa [Function.iterate_one, restored] at once
      rw [List.length_cons, Function.iterate_succ_apply, parts, ← BitVec.xor_assoc, move_xor,
        moved, ← bitStep_eq_move (by omega)]
      exact inductionHypothesis (bitStep polynomial register bit) (by omega)

/-- With the top bit of the polynomial set, a message keeps registers apart. -/
theorem run_injective
    (top : polynomial.getLsbD (width - 1) = true)
    (positive : 0 < width)
    (bits : List Bool) :
    Function.Injective fun register => run polynomial register bits := by
  induction bits with
  | nil => exact fun first second same => same
  | cons bit rest inductionHypothesis =>
      intro first second same
      have stepped : bitStep polynomial first bit = bitStep polynomial second bit :=
        inductionHypothesis same
      rw [bitStep_eq_move positive, bitStep_eq_move positive] at stepped
      exact (BitVec.xor_left_inj _).mp (move_injective top stepped)

/-- Messages that differ only within one register width end in different
registers. -/
theorem run_burst_ne
    (top : polynomial.getLsbD (width - 1) = true)
    (positive : 0 < width)
    (register : BitVec width)
    (before after : List Bool)
    {first second : List Bool}
    (sameLength : first.length = second.length)
    (fits : first.length ≤ width)
    (different : first ≠ second) :
    run polynomial register (before ++ first ++ after) ≠
      run polynomial register (before ++ second ++ after) := by
  intro same
  rw [run_append _ (before ++ first), run_append _ (before ++ second), run_append _ before,
    run_append _ before] at same
  have middle := run_injective top positive after same
  have alsoFits : second.length ≤ width := by omega
  rw [run_eq_iterate _ first fits, run_eq_iterate _ second alsoFits, sameLength] at middle
  have entered := (move_injective top).iterate second.length middle
  exact different (word_injective sameLength fits ((BitVec.xor_right_inj _).mp entered))

/-- Two messages of one length whose differing bits lie within one register width
end in different registers. -/
theorem run_ne_of_burst
    (top : polynomial.getLsbD (width - 1) = true)
    (positive : 0 < width)
    (register : BitVec width)
    {first second : List Bool}
    (sameLength : first.length = second.length)
    (different : first ≠ second)
    (start : Nat)
    (burst : ∀ index, first[index]? ≠ second[index]? →
      start ≤ index ∧ index < start + width) :
    run polynomial register first ≠ run polynomial register second := by
  have before : first.take start = second.take start := by
    apply List.ext_getElem?
    intro index
    rw [List.getElem?_take, List.getElem?_take]
    split_ifs with early
    · by_contra differs
      exact absurd (burst index differs).1 (by omega)
    · rfl
  have after : (first.drop start).drop width = (second.drop start).drop width := by
    apply List.ext_getElem?
    intro index
    rw [List.drop_drop, List.drop_drop, List.getElem?_drop, List.getElem?_drop]
    by_contra differs
    exact absurd (burst _ differs).2 (by omega)
  have parts (bits : List Bool) :
      bits = bits.take start ++ (bits.drop start).take width ++ (bits.drop start).drop width := by
    rw [List.append_assoc, List.take_append_drop, List.take_append_drop]
  rw [parts first, parts second] at different ⊢
  rw [before, after] at different ⊢
  refine run_burst_ne top positive register _ _ ?_ ?_ ?_
  · rw [List.length_take, List.length_take, List.length_drop, List.length_drop, sameLength]
  · exact List.length_take_le _ _
  · intro same
    exact different (by rw [same])

/-! ## Values as messages -/

theorem valueBits_injective {size : Nat} :
    Function.Injective (valueBits : BitVec size → List Bool) := by
  intro first second same
  have agree := List.ofFn_injective same
  apply BitVec.eq_of_getLsbD_eq
  intro index inside
  exact congrFun agree ⟨index, inside⟩

theorem length_messageBits {size : Nat} (values : List (BitVec size)) :
    (messageBits values).length = values.length * size := by
  induction values with
  | nil => simp [messageBits]
  | cons value rest inductionHypothesis =>
      have parts : messageBits (value :: rest) = valueBits value ++ messageBits rest :=
        List.flatMap_cons
      rw [parts, List.length_append, inductionHypothesis, length_valueBits, List.length_cons,
        Nat.succ_mul, Nat.add_comm]

/-- Lists of one length have the same bits only if they agree. -/
theorem messageBits_injective
    {size : Nat}
    {first second : List (BitVec size)}
    (sameLength : first.length = second.length)
    (sameBits : messageBits first = messageBits second) :
    first = second := by
  induction first generalizing second with
  | nil => exact (List.length_eq_zero_iff.mp sameLength.symm).symm
  | cons value rest inductionHypothesis =>
      cases second with
      | nil => cases sameLength
      | cons otherValue otherRest =>
          rw [messageBits, messageBits, List.flatMap_cons, List.flatMap_cons] at sameBits
          obtain ⟨sameValue, sameRest⟩ := List.append_inj sameBits (by simp)
          rw [valueBits_injective sameValue,
            inductionHypothesis (Nat.succ.inj sameLength) sameRest]

end BitCrc

/-! ## A table of moved bytes -/

/-- A table of moved bytes advances the register by the eight bits of a byte. -/
theorem TableCrc.step_eq_run
    {table : BitVec 8 → BitVec 16}
    {polynomial : BitVec 16}
    (moved : ∀ index, table index = (BitCrc.move polynomial)^[8] (index.setWidth 16))
    (register : BitVec 16)
    (byte : BitVec 8) :
    TableCrc.step table register byte =
      BitCrc.run polynomial register (BitCrc.valueBits byte) := by
  have above : (register ^^^ byte.setWidth 16) >>> 8 = register >>> 8 := by
    rw [BitVec.ushiftRight_xor_distrib]
    apply BitVec.eq_of_getLsbD_eq
    intro index inside
    simp [BitVec.getLsbD_xor, BitVec.getLsbD_ushiftRight, BitVec.getLsbD_setWidth]
  have below : (register ^^^ byte.setWidth 16).setWidth 8 = register.setWidth 8 ^^^ byte := by
    rw [BitVec.setWidth_xor]
    simp
  rw [BitCrc.run_eq_iterate _ _ (by simp), BitCrc.length_valueBits, BitCrc.word_valueBits,
    BitCrc.iterate_move_split, above, below, TableCrc.step, moved]

/-- So a list of bytes goes through the table as its bits go through the
register. -/
theorem TableCrc.run_eq_run
    {table : BitVec 8 → BitVec 16}
    {polynomial : BitVec 16}
    (moved : ∀ index, table index = (BitCrc.move polynomial)^[8] (index.setWidth 16))
    (register : BitVec 16)
    (bytes : List (BitVec 8)) :
    TableCrc.run table register bytes =
      BitCrc.run polynomial register (BitCrc.messageBits bytes) := by
  induction bytes generalizing register with
  | nil => rfl
  | cons byte bytes inductionHypothesis =>
      have first : TableCrc.run table register (byte :: bytes) =
          TableCrc.run table (TableCrc.step table register byte) bytes := rfl
      have bits : BitCrc.messageBits (byte :: bytes) =
          BitCrc.valueBits byte ++ BitCrc.messageBits bytes := List.flatMap_cons
      rw [first, inductionHypothesis, TableCrc.step_eq_run moved, bits, BitCrc.run_append]
