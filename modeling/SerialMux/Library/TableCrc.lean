import Mathlib.Data.BitVec

/-!
# Table-driven 16-bit check sequences

A reflected 16-bit register is advanced one byte at a time through a table.
`step_step_eq_iff` says which two bytes bring the register to a given residue:
when the high bytes of the table entries identify the entries, there is exactly
one such pair for every register value.
-/

namespace TableCrc

/-- Advance the register by one byte. -/
def step (table : BitVec 8 → BitVec 16) (register : BitVec 16)
    (byte : BitVec 8) : BitVec 16 :=
  (register >>> 8) ^^^ table (register.setWidth 8 ^^^ byte)

/-- Advance the register by a list of bytes. -/
def run (table : BitVec 8 → BitVec 16) (register : BitVec 16)
    (bytes : List (BitVec 8)) : BitVec 16 :=
  bytes.foldl (step table) register

variable {table : BitVec 8 → BitVec 16}

theorem run_append (register : BitVec 16) (left right : List (BitVec 8)) :
    run table register (left ++ right) = run table (run table register left) right :=
  List.foldl_append

/-- Exclusive or can be moved to the other side of an equation. -/
theorem xor_eq_iff {width : Nat} (left right target : BitVec width) :
    left ^^^ right = target ↔ right = left ^^^ target := by
  constructor
  · rintro rfl
    rw [← BitVec.xor_assoc, BitVec.xor_self, BitVec.zero_xor]
  · rintro rfl
    rw [← BitVec.xor_assoc, BitVec.xor_self, BitVec.zero_xor]

theorem shift_shift (register : BitVec 16) : (register >>> 8) >>> 8 = 0#16 := by
  apply BitVec.eq_of_toNat_eq
  have bound := register.isLt
  simp only [BitVec.toNat_ushiftRight, Nat.shiftRight_eq_div_pow]
  simp
  omega

/-- The high byte of the advanced register is that of the table entry. -/
theorem step_shift (register : BitVec 16) (byte : BitVec 8) :
    step table register byte >>> 8 = table (register.setWidth 8 ^^^ byte) >>> 8 := by
  rw [step, BitVec.ushiftRight_xor_distrib, shift_shift, BitVec.zero_xor]

/-- The two bytes that bring a register to a residue. -/
theorem step_step_eq_iff
    {residue : BitVec 16}
    {firstIndex secondIndex : BitVec 8}
    (secondEntry : ∀ index, table index >>> 8 = residue >>> 8 ↔ index = secondIndex)
    (firstEntry : ∀ index,
      table index >>> 8 = residue ^^^ table secondIndex ↔ index = firstIndex)
    (register : BitVec 16)
    (first second : BitVec 8) :
    step table (step table register first) second = residue ↔
      first = register.setWidth 8 ^^^ firstIndex ∧
        second = ((register >>> 8) ^^^ table firstIndex).setWidth 8 ^^^ secondIndex := by
  constructor
  · intro reached
    have shifted : step table (step table register first) second >>> 8 =
        residue >>> 8 := by rw [reached]
    rw [step_shift, secondEntry] at shifted
    have between : table (register.setWidth 8 ^^^ first) >>> 8 =
        residue ^^^ table secondIndex := by
      rw [← reached, step, shifted, step_shift, BitVec.xor_assoc, BitVec.xor_self,
        BitVec.xor_zero]
    rw [firstEntry] at between
    rw [xor_eq_iff] at shifted
    refine ⟨(xor_eq_iff _ _ _).mp between, ?_⟩
    rw [shifted, step, between]
  · rintro ⟨rfl, rfl⟩
    have entered : step table register (register.setWidth 8 ^^^ firstIndex) =
        (register >>> 8) ^^^ table firstIndex := by
      rw [step, ← BitVec.xor_assoc, BitVec.xor_self, BitVec.zero_xor]
    rw [entered, step, ← BitVec.xor_assoc, BitVec.xor_self, BitVec.zero_xor,
      BitVec.ushiftRight_xor_distrib, shift_shift, BitVec.zero_xor,
      (firstEntry firstIndex).mpr rfl, BitVec.xor_assoc, BitVec.xor_self,
      BitVec.xor_zero]

end TableCrc
