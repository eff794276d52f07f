import SerialMux.SerialMuxOptions
import SerialMux.Library.DigitRuns
import Mathlib.Data.List.TakeWhile
import Mathlib.Data.List.Induction

/-!
# What hexToBin accepts

The characters up to the first white space or NUL are accepted if they are runs of
digits with single separators whose bytes fit into the buffer.  Between two bytes the
loop has filled the start of the buffer and left zeros behind it, and it does not access
anything else.
-/

namespace SerialMux

open DigitRuns (Delimited inPairs valueCount)

/-- White space or NUL. -/
def endsWord (c : Byte) : Bool :=
  c == 0 || isspace c

/-- The first word of a text. -/
def firstWord (text : ByteVector) : ByteVector :=
  (text.dropWhile isspace).takeWhile fun c => !endsWord c

/-- What is behind the first word. -/
def behindWord (text : ByteVector) : ByteVector :=
  (text.dropWhile isspace).dropWhile fun c => !endsWord c

/-- The byte of two digits. -/
def hexPair (first second : Byte) : Byte :=
  (hexValue first <<< 4) + hexValue second

/-- Runs of hexadecimal digits with single separators. -/
abbrev HexRuns (text : ByteVector) (runs : List ByteVector) : Prop :=
  Delimited isxdigit isHexSeparator text runs

/-- The bytes of a run. -/
abbrev hexBytes (run : ByteVector) : ByteVector :=
  inPairs hexValue hexPair run

/-! ## Characters -/

theorem isxdigit_of_endsWord {c : Byte} (ends : endsWord c) : isxdigit c = false := by
  revert c
  decide +kernel

theorem isxdigit_of_isHexSeparator {c : Byte} (separates : isHexSeparator c) :
    isxdigit c = false := by
  revert c
  decide +kernel

theorem endsWord_of_isHexSeparator {c : Byte} (separates : isHexSeparator c) :
    endsWord c = false := by
  revert c
  decide +kernel

/-! ## The buffer -/

/-- A buffer that starts with some bytes, with zeros up to its length, and what is
behind it. -/
def filled (len : Nat) (bytes beyond : ByteVector) : ByteVector :=
  bytes ++ List.replicate (len - bytes.length) 0 ++ beyond

/-- A buffer that nothing was written behind. -/
def KeepsBeyond (len : Nat) (beyond buffer : ByteVector) : Prop :=
  buffer.length = len + beyond.length ∧ buffer.drop len = beyond

theorem keepsBeyond_filled
    {len : Nat}
    {bytes : ByteVector}
    (fits : bytes.length ≤ len)
    (beyond : ByteVector) :
    KeepsBeyond len beyond (filled len bytes beyond) := by
  have length : (bytes ++ List.replicate (len - bytes.length) 0).length = len := by
    rw [List.length_append, List.length_replicate]
    omega
  constructor
  · rw [filled, List.length_append, length]
  · rw [filled]
    exact List.drop_left' length

/-- The first digit of a byte goes to a zero. -/
theorem filled_cons_zero
    {len : Nat}
    {bytes : ByteVector}
    (room : bytes.length < len)
    (beyond : ByteVector) :
    ∃ behind, filled len bytes beyond = bytes ++ 0 :: behind ∧
      ∀ byte, filled len (bytes ++ [byte]) beyond = bytes ++ byte :: behind := by
  refine ⟨List.replicate (len - bytes.length - 1) 0 ++ beyond, ?_, ?_⟩
  · have split : len - bytes.length = len - bytes.length - 1 + 1 := by omega
    rw [filled, split, List.replicate_succ]
    simp
  · intro byte
    rw [filled, List.length_append, List.length_singleton, Nat.sub_add_eq]
    simp

/-! ## The loop -/

variable {len : Nat} {bytes beyond str : ByteVector}

/-- The loop is between two bytes, behind so many: the index of the last byte has not
been increased after its second digit. -/
def AtByte (count idx nn : Nat) : Prop :=
  nn = 0 ∧ idx = count ∨ nn = 2 ∧ idx + 1 = count

/-- The first digit of a byte. -/
theorem hexToBinLoop_first
    {digit : Byte}
    (isDigit : isxdigit digit)
    (room : bytes.length < len)
    {idx nn : Nat}
    (atByte : AtByte bytes.length idx nn)
    (wasDigit : Bool) :
    hexToBinLoop len (digit :: str) idx nn wasDigit (filled len bytes beyond) =
      hexToBinLoop len str bytes.length 1 true (filled len (bytes ++ [hexValue digit]) beyond) := by
  obtain ⟨behind, before, after⟩ := filled_cons_zero room beyond
  rw [before, after]
  rcases atByte with ⟨rfl, rfl⟩ | ⟨rfl, next⟩
  · simp [hexToBinLoop, isDigit, room]
  · simp [hexToBinLoop, isDigit, room, next]

/-- The second digit of a byte. -/
theorem hexToBinLoop_second
    {first second : Byte}
    (isDigit : isxdigit second)
    (room : bytes.length < len)
    (wasDigit : Bool) :
    hexToBinLoop len (second :: str) bytes.length 1 wasDigit
        (filled len (bytes ++ [hexValue first]) beyond) =
      hexToBinLoop len str bytes.length 2 true
        (filled len (bytes ++ [hexPair first second]) beyond) := by
  obtain ⟨behind, -, after⟩ := filled_cons_zero room beyond
  rw [after, after]
  simp [hexToBinLoop, isDigit, room, hexPair]

/-- Both digits of a byte. -/
theorem hexToBinLoop_pair
    {first second : Byte}
    (isFirst : isxdigit first)
    (isSecond : isxdigit second)
    (room : bytes.length < len)
    {idx nn : Nat}
    (atByte : AtByte bytes.length idx nn)
    (wasDigit : Bool) :
    hexToBinLoop len (first :: second :: str) idx nn wasDigit (filled len bytes beyond) =
      hexToBinLoop len str bytes.length 2 true
        (filled len (bytes ++ [hexPair first second]) beyond) := by
  rw [hexToBinLoop_first isFirst room atByte, hexToBinLoop_second isSecond room]

/-- The first digit of a byte that does not fit. -/
theorem hexToBinLoop_full
    {digit : Byte}
    (isDigit : isxdigit digit)
    (full : len ≤ bytes.length)
    {idx nn : Nat}
    (atByte : AtByte bytes.length idx nn)
    (wasDigit : Bool)
    (buffer : ByteVector) :
    hexToBinLoop len (digit :: str) idx nn wasDigit buffer = some (0, buffer) := by
  have noRoom := Nat.not_lt.mpr full
  rcases atByte with ⟨rfl, rfl⟩ | ⟨rfl, next⟩
  · simp [hexToBinLoop, isDigit, noRoom]
  · simp [hexToBinLoop, isDigit, next, noRoom]

/-- The end of the word behind a digit. -/
theorem hexToBinLoop_ends
    {stop : Byte}
    (ends : endsWord stop)
    (idx nn : Nat)
    (buffer : ByteVector) :
    hexToBinLoop len (stop :: str) idx nn true buffer = some (idx + 1, buffer) := by
  have noDigit := isxdigit_of_endsWord ends
  have noSeparator : isHexSeparator stop = false := by
    by_contra separates
    rw [Bool.not_eq_false] at separates
    rw [endsWord_of_isHexSeparator separates] at ends
    cases ends
  have stops : (stop == 0 || isspace stop) = true := ends
  unfold hexToBinLoop
  simp only [noDigit, noSeparator, stops, Bool.or_false, Bool.and_self, if_true]
  rfl

/-- A separator behind a digit. -/
theorem hexToBinLoop_separator
    {separator : Byte}
    (separates : isHexSeparator separator)
    (idx nn : Nat)
    (buffer : ByteVector) :
    hexToBinLoop len (separator :: str) idx nn true buffer =
      hexToBinLoop len str (idx + 1) 0 false buffer := by
  have noDigit := isxdigit_of_isHexSeparator separates
  simp [hexToBinLoop, separates, noDigit]

/-- Any other character, or no digit at the start of a run. -/
theorem hexToBinLoop_refuses
    {c : Byte}
    (noDigit : isxdigit c = false)
    {wasDigit : Bool}
    (refused : wasDigit → endsWord c = false ∧ isHexSeparator c = false)
    (idx nn : Nat)
    (buffer : ByteVector) :
    hexToBinLoop len (c :: str) idx nn wasDigit buffer = some (0, buffer) := by
  have notOk : (wasDigit && (c == 0 || isspace c || isHexSeparator c) || isxdigit c) = false := by
    cases wasDigit with
    | false => rw [noDigit, Bool.false_and, Bool.or_false]
    | true =>
        obtain ⟨goesOn, noSeparator⟩ := refused rfl
        rw [endsWord] at goesOn
        rw [noDigit, goesOn, noSeparator]
        rfl
  simp only [hexToBinLoop, notOk, Bool.false_eq_true, if_false]

/-! ## Runs of digits -/

theorem length_append_pair (byte : Byte) : (bytes ++ [byte]).length = bytes.length + 1 := by
  rw [List.length_append, List.length_singleton]

/-- Behind the second digit of a byte. -/
theorem atByte_append_pair (byte : Byte) : AtByte (bytes ++ [byte]).length bytes.length 2 :=
  Or.inr ⟨rfl, (length_append_pair byte).symm⟩

theorem length_append_hexBytes (run : ByteVector) :
    (bytes ++ hexBytes run).length = bytes.length + (run.length + 1) / 2 := by
  rw [List.length_append, DigitRuns.length_inPairs]

/-- A run whose bytes fit is read, up to the end of its last byte. -/
theorem hexToBinLoop_run
    {run : ByteVector}
    (nonempty : run ≠ [])
    (digits : ∀ digit ∈ run, isxdigit digit)
    (fits : bytes.length + (run.length + 1) / 2 ≤ len)
    {idx nn : Nat}
    (atByte : AtByte bytes.length idx nn)
    (wasDigit : Bool) :
    ∃ idx' nn', idx' + 1 = bytes.length + (run.length + 1) / 2 ∧
      hexToBinLoop len (run ++ str) idx nn wasDigit (filled len bytes beyond) =
        hexToBinLoop len str idx' nn' true (filled len (bytes ++ hexBytes run) beyond) := by
  induction run using List.twoStepInduction generalizing bytes idx nn wasDigit with
  | nil => exact absurd rfl nonempty
  | singleton last =>
      have room : bytes.length < len := by
        rw [List.length_singleton] at fits
        omega
      refine ⟨bytes.length, 1, by simp, ?_⟩
      exact hexToBinLoop_first (digits last List.mem_cons_self) room atByte wasDigit
  | cons_cons first second rest inductionHypothesis =>
      rw [List.forall_mem_cons, List.forall_mem_cons] at digits
      obtain ⟨isFirst, isSecond, others⟩ := digits
      rw [List.length_cons, List.length_cons] at fits ⊢
      have room : bytes.length < len := by omega
      rw [List.cons_append, List.cons_append, hexToBinLoop_pair isFirst isSecond room atByte]
      by_cases finished : rest = []
      · subst finished
        exact ⟨bytes.length, 2, rfl, rfl⟩
      · have fitsBehind : (bytes ++ [hexPair first second]).length + (rest.length + 1) / 2 ≤
            len := by
          rw [length_append_pair]
          omega
        obtain ⟨idx', nn', position, loop⟩ :=
          inductionHypothesis finished others fitsBehind (atByte_append_pair _) true
        refine ⟨idx', nn', ?_, ?_⟩
        · rw [position, length_append_pair]
          omega
        · rw [loop, List.append_assoc]
          rfl

/-- A run whose bytes do not fit is refused. -/
theorem hexToBinLoop_overflow
    {run : ByteVector}
    (digits : ∀ digit ∈ run, isxdigit digit)
    (sofar : bytes.length ≤ len)
    (tooMany : len < bytes.length + (run.length + 1) / 2)
    {idx nn : Nat}
    (atByte : AtByte bytes.length idx nn)
    (wasDigit : Bool) :
    ∃ buffer, KeepsBeyond len beyond buffer ∧
      hexToBinLoop len (run ++ str) idx nn wasDigit (filled len bytes beyond) =
        some (0, buffer) := by
  induction run using List.twoStepInduction generalizing bytes idx nn wasDigit with
  | nil =>
      rw [List.length_nil] at tooMany
      omega
  | singleton last =>
      rw [List.length_singleton] at tooMany
      exact ⟨_, keepsBeyond_filled sofar beyond,
        hexToBinLoop_full (digits last List.mem_cons_self) (by omega) atByte wasDigit _⟩
  | cons_cons first second rest inductionHypothesis =>
      rw [List.forall_mem_cons, List.forall_mem_cons] at digits
      obtain ⟨isFirst, isSecond, others⟩ := digits
      rw [List.length_cons, List.length_cons] at tooMany
      rcases Nat.lt_or_ge bytes.length len with room | full
      · rw [List.cons_append, List.cons_append, hexToBinLoop_pair isFirst isSecond room atByte]
        apply inductionHypothesis others _ _ (atByte_append_pair _) true
        · rw [length_append_pair]
          omega
        · rw [length_append_pair]
          omega
      · exact ⟨_, keepsBeyond_filled sofar beyond,
          hexToBinLoop_full isFirst full atByte wasDigit _⟩

/-! ## Words -/

/-- A word in the grammar whose bytes fit is read to its end. -/
theorem hexToBinLoop_of_hexRuns
    {word : ByteVector}
    {runs : List ByteVector}
    (hexRuns : HexRuns word runs)
    (fits : bytes.length + valueCount runs ≤ len)
    {stop : Byte}
    (ends : endsWord stop)
    (str beyond : ByteVector) :
    hexToBinLoop len (word ++ stop :: str) bytes.length 0 false (filled len bytes beyond) =
      some (bytes.length + valueCount runs,
        filled len (bytes ++ runs.flatMap hexBytes) beyond) := by
  induction hexRuns generalizing bytes with
  | last nonempty digits =>
      rw [DigitRuns.valueCount_cons, DigitRuns.valueCount_nil, Nat.add_zero] at fits ⊢
      obtain ⟨idx, nn, position, loop⟩ :=
        hexToBinLoop_run nonempty digits fits (Or.inl ⟨rfl, rfl⟩) false
      rw [loop, hexToBinLoop_ends ends, position, List.flatMap_singleton]
  | @more run rest separator runs nonempty digits separates _ inductionHypothesis =>
      rw [DigitRuns.valueCount_cons] at fits ⊢
      have fitsRun : bytes.length + (run.length + 1) / 2 ≤ len := by omega
      obtain ⟨idx, nn, position, loop⟩ :=
        hexToBinLoop_run nonempty digits fitsRun (Or.inl ⟨rfl, rfl⟩) false
      have length := @length_append_hexBytes bytes run
      have fitsBehind : (bytes ++ hexBytes run).length + valueCount runs ≤ len := by
        rw [length]
        omega
      rw [List.append_assoc, List.cons_append, loop, hexToBinLoop_separator separates, position,
        ← length, inductionHypothesis fitsBehind, length, List.append_assoc, Nat.add_assoc,
        List.flatMap_cons]

/-- The run of digits at the start of a word. -/
theorem exists_run (word : ByteVector) :
    ∃ run tail, word = run ++ tail ∧ (∀ digit ∈ run, isxdigit digit) ∧
      ∀ c rest, tail = c :: rest → isxdigit c = false := by
  refine ⟨word.takeWhile isxdigit, word.dropWhile isxdigit, ?_, ?_, ?_⟩
  · exact List.takeWhile_append_dropWhile.symm
  · intro digit member
    exact List.mem_takeWhile_imp member
  · intro c rest tail
    have stops := List.head?_dropWhile_not isxdigit word
    rw [tail] at stops
    simpa using stops

/-- Whatever the word is, the loop stays within its memory, and if it returns a number of
bytes, the word is in the grammar and its bytes fit. -/
theorem hexToBinLoop_sound
    (word : ByteVector)
    (inWord : ∀ c ∈ word, endsWord c = false)
    (sofar : bytes.length ≤ len)
    {stop : Byte}
    (ends : endsWord stop)
    (str beyond : ByteVector) :
    ∃ n buffer, KeepsBeyond len beyond buffer ∧
      hexToBinLoop len (word ++ stop :: str) bytes.length 0 false (filled len bytes beyond) =
        some (n, buffer) ∧
      (0 < n → ∃ runs, HexRuns word runs ∧ bytes.length + valueCount runs ≤ len) := by
  induction size : word.length using Nat.strong_induction_on generalizing word bytes with
  | _ count inductionHypothesis =>
      obtain ⟨run, tail, rfl, digits, stops⟩ := exists_run word
      have atByte : AtByte bytes.length bytes.length 0 := Or.inl ⟨rfl, rfl⟩
      have never {P : Prop} (impossible : 0 < 0) : P := absurd impossible (Nat.lt_irrefl 0)
      rcases Nat.lt_or_ge len (bytes.length + (run.length + 1) / 2) with tooMany | fits
      · obtain ⟨buffer, keeps, refused⟩ :=
          hexToBinLoop_overflow digits sofar tooMany atByte false
        rw [List.append_assoc]
        exact ⟨0, buffer, keeps, refused, never⟩
      by_cases nonempty : run = []
      · subst nonempty
        refine ⟨0, _, keepsBeyond_filled sofar beyond, ?_, never⟩
        cases tail with
        | nil => exact hexToBinLoop_refuses (isxdigit_of_endsWord ends) (by simp) ..
        | cons c rest => exact hexToBinLoop_refuses (stops c rest rfl) (by simp) ..
      obtain ⟨idx, nn, position, loop⟩ := hexToBinLoop_run nonempty digits fits atByte false
      have length := @length_append_hexBytes bytes run
      have sofar' : (bytes ++ hexBytes run).length ≤ len := by rwa [length]
      rw [List.append_assoc, loop]
      cases tail with
      | nil =>
          refine ⟨idx + 1, _, keepsBeyond_filled sofar' beyond, hexToBinLoop_ends ends .., ?_⟩
          intro _
          rw [List.append_nil]
          exact ⟨[run], .last nonempty digits, by simpa using fits⟩
      | cons c rest =>
          rw [List.forall_mem_append, List.forall_mem_cons] at inWord
          cases separates : isHexSeparator c with
          | false =>
              refine ⟨0, _, keepsBeyond_filled sofar' beyond, ?_, never⟩
              exact hexToBinLoop_refuses (stops c rest rfl)
                (fun _ => ⟨inWord.2.1, separates⟩) ..
          | true =>
              have shorter : rest.length < count := by
                rw [← size, List.length_append, List.length_cons]
                omega
              rw [List.cons_append, hexToBinLoop_separator separates, position, ← length]
              obtain ⟨n, buffer, keeps, result, accepted⟩ :=
                inductionHypothesis rest.length shorter rest inWord.2.2 sofar' rfl
              refine ⟨n, buffer, keeps, result, ?_⟩
              intro positive
              obtain ⟨runs, hexRuns, fitsBehind⟩ := accepted positive
              refine ⟨run :: runs, .more nonempty digits separates hexRuns, ?_⟩
              rw [length] at fitsBehind
              rw [DigitRuns.valueCount_cons]
              omega

/-! ## Texts -/

theorem firstWord_behindWord (text : ByteVector) :
    firstWord text ++ behindWord text = text.dropWhile isspace :=
  List.takeWhile_append_dropWhile

theorem not_endsWord_of_mem_firstWord
    {text : ByteVector} :
    ∀ c ∈ firstWord text, endsWord c = false := by
  intro c member
  simpa using List.mem_takeWhile_imp member

/-- The word ends in the string, at the latest with the NUL. -/
theorem exists_stop (text : ByteVector) :
    ∃ stop str, cString (behindWord text) = stop :: str ∧ endsWord stop := by
  cases behind : behindWord text with
  | nil => exact ⟨0, [], rfl, rfl⟩
  | cons stop rest =>
      refine ⟨stop, rest ++ [0], rfl, ?_⟩
      have stops := List.head?_dropWhile_not (fun c => !endsWord c) (text.dropWhile isspace)
      rw [← behindWord, behind] at stops
      simpa using stops

/-- Leading white space is skipped, and the NUL is none. -/
theorem dropWhile_cString (text : ByteVector) :
    (cString text).dropWhile isspace = firstWord text ++ cString (behindWord text) := by
  rw [cString, cString, ← List.append_assoc, firstWord_behindWord]
  induction text with
  | nil => rfl
  | cons c rest inductionHypothesis =>
      rw [List.cons_append, List.dropWhile_cons, List.dropWhile_cons]
      split_ifs
      · exact inductionHypothesis
      · rfl

section

variable {text outBuf : ByteVector}

theorem hexToBin_eq
    (room : len ≤ outBuf.length) :
    hexToBin (cString text) outBuf len =
      hexToBinLoop len (firstWord text ++ cString (behindWord text)) 0 0 false
        (filled len [] (outBuf.drop len)) := by
  rw [hexToBin, if_pos room, dropWhile_cString]
  rfl

/-- A text whose first word is in the grammar is converted if its bytes fit. -/
theorem hexToBin_of_hexRuns
    {runs : List ByteVector}
    (hexRuns : HexRuns (firstWord text) runs)
    (fits : valueCount runs ≤ len)
    (room : len ≤ outBuf.length) :
    hexToBin (cString text) outBuf len =
      some (valueCount runs, filled len (runs.flatMap hexBytes) (outBuf.drop len)) := by
  obtain ⟨stop, str, string, ends⟩ := exists_stop text
  have fitsBehind : ([] : ByteVector).length + valueCount runs ≤ len := by simpa using fits
  have result := hexToBinLoop_of_hexRuns hexRuns fitsBehind ends str (outBuf.drop len)
  rw [List.length_nil, Nat.zero_add, List.nil_append] at result
  rw [hexToBin_eq room, string, result]

/-- Whatever the text is, the conversion stays within its memory, and if it succeeds, the
first word is in the grammar and its bytes fit. -/
theorem hexToBin_sound
    (text : ByteVector)
    (room : len ≤ outBuf.length) :
    ∃ n buffer, KeepsBeyond len (outBuf.drop len) buffer ∧
      hexToBin (cString text) outBuf len = some (n, buffer) ∧
      (0 < n → ∃ runs, HexRuns (firstWord text) runs ∧ valueCount runs ≤ len) := by
  obtain ⟨stop, str, string, ends⟩ := exists_stop text
  have sofar : ([] : ByteVector).length ≤ len := Nat.zero_le _
  obtain ⟨n, buffer, keeps, result, accepted⟩ :=
    hexToBinLoop_sound (firstWord text) not_endsWord_of_mem_firstWord sofar ends str
      (outBuf.drop len)
  rw [List.length_nil] at result accepted
  refine ⟨n, buffer, keeps, ?_, ?_⟩
  · rw [hexToBin_eq room, string, result]
  · simpa using accepted

end

/-- A text is accepted exactly if its first word is in the grammar and its bytes fit into
the buffer, which then holds them and zeros behind them.  No access is outside the string
or the buffer. -/
theorem hexToBin_accepts_grammar
    (text outBuf : ByteVector)
    (len : Nat)
    (room : len ≤ outBuf.length) :
    ∃ n buffer, hexToBin (cString text) outBuf len = some (n, buffer) ∧
      buffer.length = outBuf.length ∧ buffer.drop len = outBuf.drop len ∧
      (0 < n ↔ ∃ runs, HexRuns (firstWord text) runs ∧ valueCount runs ≤ len) ∧
      ∀ runs, HexRuns (firstWord text) runs → valueCount runs ≤ len →
        n = valueCount runs ∧
          buffer.take len = runs.flatMap hexBytes ++ List.replicate (len - n) 0 := by
  obtain ⟨n, buffer, ⟨length, beyond⟩, result, accepted⟩ := hexToBin_sound text room
  have converted : ∀ runs, HexRuns (firstWord text) runs → valueCount runs ≤ len →
      n = valueCount runs ∧
        buffer.take len = runs.flatMap hexBytes ++ List.replicate (len - n) 0 := by
    intro runs hexRuns fits
    rw [hexToBin_of_hexRuns hexRuns fits room, Option.some.injEq, Prod.mk.injEq] at result
    obtain ⟨rfl, rfl⟩ := result
    refine ⟨rfl, ?_⟩
    rw [filled, DigitRuns.length_flatMap_inPairs]
    apply List.take_left'
    rw [List.length_append, DigitRuns.length_flatMap_inPairs, List.length_replicate]
    omega
  refine ⟨n, buffer, result, ?_, beyond, ⟨accepted, ?_⟩, converted⟩
  · rw [length, List.length_drop]
    omega
  · rintro ⟨runs, hexRuns, fits⟩
    rw [(converted runs hexRuns fits).1]
    exact hexRuns.valueCount_pos

/-- Two runs, the first of odd length, into the first four bytes of five. -/
theorem hexToBin_accepts_grammar_example :
    ∃ n buffer,
      hexToBin (cString (asciiBytes " 012-AbcD ")) [9, 9, 9, 9, 9] 4 = some (n, buffer) ∧
      buffer.length = 5 ∧ buffer.drop 4 = [9] ∧
      (0 < n ↔ ∃ runs, HexRuns (firstWord (asciiBytes " 012-AbcD ")) runs ∧
        valueCount runs ≤ 4) ∧
      ∀ runs, HexRuns (firstWord (asciiBytes " 012-AbcD ")) runs → valueCount runs ≤ 4 →
        n = valueCount runs ∧
          buffer.take 4 = runs.flatMap hexBytes ++ List.replicate (4 - n) 0 :=
  hexToBin_accepts_grammar (asciiBytes " 012-AbcD ") [9, 9, 9, 9, 9] 4 (by decide)

example :
    hexToBin (cString (asciiBytes " 012-AbcD ")) [9, 9, 9, 9, 9] 4 =
      some (4, [0x01, 0x02, 0xAB, 0xCD, 9]) := by
  decide +kernel

end SerialMux
