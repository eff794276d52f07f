import SerialMux.Common

/-!
# Characters and numbers in text

The character classes of the C locale, decimal numbers, and the text of a literal.
Bytes from 128 on belong to no class.
-/

namespace SerialMux

/-- The bytes of an ASCII literal. -/
def asciiBytes (text : String) : ByteVector :=
  text.toList.map fun character => BitVec.ofNat 8 character.toNat

/-- White space of the C locale. -/
def isspace (c : Byte) : Bool :=
  c == 0x20 || (0x09 ≤ c && c ≤ 0x0D)

def isdigit (c : Byte) : Bool :=
  0x30 ≤ c && c ≤ 0x39

def isxdigit (c : Byte) : Bool :=
  isdigit c || (0x41 ≤ c && c ≤ 0x46) || (0x61 ≤ c && c ≤ 0x66)

def tolower (c : Byte) : Byte :=
  if 0x41 ≤ c && c ≤ 0x5A then c + 0x20 else c

/-- A number in decimal, as a stream prints it. -/
def decimal (number : Nat) : ByteVector :=
  (Nat.toDigits 10 number).map fun digit => BitVec.ofNat 8 digit.toNat

/-- The number that the digits at the start of a text stand for. -/
def magnitude (text : ByteVector) : Int :=
  (text.takeWhile isdigit).foldl (fun value c => value * 10 + (c.toNat - 0x30 : Nat)) 0

/-- The number at the start of a text, behind white space and a sign. -/
def atoi (text : ByteVector) : Int :=
  match text.dropWhile isspace with
  | [] => 0
  | c :: rest =>
      if c == 0x2D then -magnitude rest
      else if c == 0x2B then magnitude rest
      else magnitude (c :: rest)

/-- The printed bytes are the characters of the digits. -/
theorem map_ofNat_decimal (number : Nat) :
    (decimal number).map (fun c => Char.ofNat c.toNat) = Nat.toDigits 10 number := by
  rw [decimal, List.map_map]
  conv_rhs => rw [← List.map_id (Nat.toDigits 10 number)]
  apply List.map_congr_left
  intro digit member
  have isDigit := Nat.isDigit_of_mem_toDigits (by decide) (by decide) member
  have bound := (Char.isDigit_iff_toNat.mp isDigit).2
  have fits : digit.toNat % 2 ^ 8 = digit.toNat :=
    Nat.mod_eq_of_lt (lt_of_le_of_lt bound (by decide))
  rw [Function.comp_apply, BitVec.toNat_ofNat, fits, Char.ofNat_toNat, id]

/-- Different numbers are printed differently. -/
theorem decimal_injective : Function.Injective decimal := by
  intro left right same
  have digits : Nat.toDigits 10 left = Nat.toDigits 10 right := by
    rw [← map_ofNat_decimal, same, map_ofNat_decimal]
  rw [← Nat.ofDigitChars_ten_toDigits (n := left), digits, Nat.ofDigitChars_ten_toDigits]

end SerialMux
