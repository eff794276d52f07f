import SerialMux.HexToken

/-!
# The authentication token

A token is accepted if `hexToBin` converts any byte at all.  A first word that spells
fewer bytes than a token has is completed with zeros, and what is behind the first word
is ignored.
-/

namespace SerialMux

open DigitRuns (Delimited SameShape spelled valueCount)

/-- The bytes that all hexadecimal digits of a text spell. -/
def spelledBytes (text : ByteVector) : ByteVector :=
  spelled isxdigit hexValue hexPair text

/-- The surroundings with another token in the configuration file. -/
def Surroundings.withToken (surroundings : Surroundings) (text : ByteVector) : Surroundings :=
  { surroundings with
    parseConfigFile := fun content =>
      match surroundings.parseConfigFile content with
      | .ok stored => .ok { stored with authToken := some text }
      | .error error => .error error }

/-- The program is started in such a way that it reads a configuration file. -/
def ReadsConfiguration
    (surroundings : Surroundings)
    (options : SerialMuxOptions)
    (argv : List ByteVector) :
    Prop :=
  ∃ commandLine content stored,
    surroundings.parseCommandLine argv = .ok commandLine ∧
      commandLine.help = false ∧ commandLine.version = false ∧
      commandLine.directory.all surroundings.isDirectory ∧
      surroundings.readFile commandLine.directory
        (commandLine.config.getD options.configFile) = some content ∧
      surroundings.parseConfigFile content = .ok stored

/-- Where the token of the configuration is accepted, it is what the digits of its text
spell, and a text with another digit anywhere does not give the same token. -/
def TakesWholeToken
    (surroundings : Surroundings)
    (options : SerialMuxOptions)
    (argv : List ByteVector)
    (text : ByteVector) :
    Prop :=
  ∀ configured,
    parseConfiguration (surroundings.withToken text) options argv = .ok configured →
      List.ofFn configured.options.authToken = spelledBytes text ∧
      ∀ changed other, SameShape isxdigit text changed →
        parseConfiguration (surroundings.withToken changed) options argv = .ok other →
        other.options.authToken = configured.options.authToken →
        List.Forall₂ (fun left right => isxdigit left → hexValue left = hexValue right)
          text changed

/-- A text that is refused, or whose first word spells a whole token with no digit behind
it. -/
def RefusedOrWhole (text : ByteVector) : Prop :=
  ∀ runs, HexRuns (firstWord text) runs → valueCount runs ≤ authenticationLen →
    valueCount runs = authenticationLen ∧ ∀ c ∈ behindWord text, isxdigit c = false

/-! ## The configuration -/

/-- The token is taken over from the configuration file. -/
theorem parseConfiguration_withToken
    {surroundings : Surroundings}
    {options : SerialMuxOptions}
    {argv : List ByteVector}
    (reads : ReadsConfiguration surroundings options argv) :
    ∃ (general : GeneralOptions) (before : SerialMuxOptions), ∀ text,
      parseConfiguration (surroundings.withToken text) options argv =
        (parseAuthToken text before).map fun options =>
          { result := 0, options := parseFlags general options } := by
  obtain ⟨commandLine, content, stored, parsed, help, version, directory, file, parsedFile⟩ :=
    reads
  refine ⟨commandLine.toGeneralOptions.store stored.toGeneralOptions, ?before, ?_⟩
  case before =>
    let notified := commandLine.toGeneralOptions.notify options
    let named : SerialMuxOptions :=
      { notified with configFile := commandLine.config.getD options.configFile }
    let again := (commandLine.toGeneralOptions.store stored.toGeneralOptions).notify named
    exact parsePort { again with baudRate := stored.baud.getD again.baudRate }
  intro text
  have notDirectory : (commandLine.directory.any fun name => !surroundings.isDirectory name) =
      false := by
    cases given : commandLine.directory with
    | none => rfl
    | some name => simpa [given] using directory
  have readsFile : readConfigFile (surroundings.withToken text) commandLine
      (commandLine.config.getD options.configFile) =
        .ok (some { stored with authToken := some text }) := by
    rw [readConfigFile]
    simp only [Surroundings.withToken, file, parsedFile]
    rfl
  have named : commandLine.config.getD (commandLine.notify options).configFile =
      commandLine.config.getD options.configFile := rfl
  unfold parseConfiguration
  rw [show (surroundings.withToken text).parseCommandLine argv = .ok commandLine from parsed]
  simp only [pure_bind, help, version, Bool.false_eq_true, if_false]
  rw [show (surroundings.withToken text).isDirectory = surroundings.isDirectory from rfl,
    notDirectory, named, readsFile]
  rw [if_neg Bool.false_ne_true]
  change (parseAuthToken text _).bind _ = (parseAuthToken text _).map _
  cases parseAuthToken text _ with
  | ok set => rfl
  | error thrown => rfl

/-! ## The token -/

/-- What a buffer of the length of a token holds is the token. -/
theorem ofFn_getD
    {buffer : ByteVector}
    (length : buffer.length = authenticationLen) :
    List.ofFn (fun i : Fin 8 => buffer.getD i 0) = buffer := by
  apply List.ext_getElem
  · rw [List.length_ofFn, length, authenticationLen]
  · intro index _ inside
    rw [List.getElem_ofFn, List.getD_eq_getElem?_getD, List.getElem?_eq_getElem inside,
      Option.getD_some]

/-- A text whose first word is in the grammar is accepted if its bytes fit, and completed
with zeros. -/
theorem parseAuthToken_of_hexRuns
    {text : ByteVector}
    {runs : List ByteVector}
    (hexRuns : HexRuns (firstWord text) runs)
    (fits : valueCount runs ≤ authenticationLen)
    (options : SerialMuxOptions) :
    ∃ set, parseAuthToken text options = .ok set ∧
      List.ofFn set.authToken =
        runs.flatMap hexBytes ++ List.replicate (authenticationLen - valueCount runs) 0 := by
  have length : (List.ofFn options.authToken).length = authenticationLen := List.length_ofFn
  have converts := hexToBin_of_hexRuns hexRuns fits length.ge
  have beyond : (List.ofFn options.authToken).drop authenticationLen = [] :=
    List.drop_eq_nil_of_le length.le
  rw [beyond, filled, List.append_nil, DigitRuns.length_flatMap_inPairs] at converts
  have notZero : valueCount runs ≠ 0 := hexRuns.valueCount_pos.ne'
  refine ⟨_, by rw [parseAuthToken, converts]; exact if_neg notZero, ?_⟩
  apply ofFn_getD
  rw [List.length_append, DigitRuns.length_flatMap_inPairs, List.length_replicate]
  omega

/-- Only a text whose first word is in the grammar and whose bytes fit is accepted. -/
theorem hexRuns_of_parseAuthToken
    {text : ByteVector}
    {options set : SerialMuxOptions}
    (accepted : parseAuthToken text options = .ok set) :
    ∃ runs, HexRuns (firstWord text) runs ∧ valueCount runs ≤ authenticationLen := by
  have length : (List.ofFn options.authToken).length = authenticationLen := List.length_ofFn
  obtain ⟨n, buffer, -, converts, sound⟩ := hexToBin_sound text length.ge
  rw [parseAuthToken, converts] at accepted
  apply sound
  by_contra zero
  rw [Nat.not_lt, Nat.le_zero] at zero
  subst zero
  cases accepted

/-! ## What a text spells -/

theorem text_eq (text : ByteVector) :
    text = text.takeWhile isspace ++ (firstWord text ++ behindWord text) := by
  rw [firstWord_behindWord, List.takeWhile_append_dropWhile]

theorem isxdigit_of_isspace {c : Byte} (space : isspace c) : isxdigit c = false := by
  apply isxdigit_of_endsWord
  rw [endsWord, space, Bool.or_true]

/-- Without digits behind it the first word spells everything. -/
theorem spelledBytes_of_hexRuns
    {text : ByteVector}
    {runs : List ByteVector}
    (hexRuns : HexRuns (firstWord text) runs)
    (others : ∀ c ∈ behindWord text, isxdigit c = false) :
    spelledBytes text = runs.flatMap hexBytes := by
  have spaces : ∀ c ∈ text.takeWhile isspace, isxdigit c = false :=
    fun c member => isxdigit_of_isspace (List.mem_takeWhile_imp member)
  rw [spelledBytes, text_eq text, DigitRuns.spelled_append_of_none_left spaces,
    DigitRuns.spelled_append_of_none_right _ others]
  exact hexRuns.spelled_eq fun _ => isxdigit_of_isHexSeparator

/-- The first word of a text whose parts are known. -/
theorem firstWord_append
    {lead word : ByteVector}
    (spaces : ∀ c ∈ lead, isspace c)
    (nonempty : word ≠ [])
    (inWord : ∀ c ∈ word, endsWord c = false)
    {stop : Byte}
    (ends : endsWord stop)
    (rest : ByteVector) :
    firstWord (lead ++ (word ++ stop :: rest)) = word := by
  obtain ⟨first, more, rfl⟩ := List.exists_cons_of_ne_nil nonempty
  have noSpace : isspace first = false := by
    have goesOn := inWord first List.mem_cons_self
    rw [endsWord, Bool.or_eq_false_iff] at goesOn
    exact goesOn.2
  have started : (first :: more ++ stop :: rest).dropWhile isspace =
      first :: more ++ stop :: rest := by
    rw [List.cons_append, List.dropWhile_cons_of_neg (by simp [noSpace])]
  rw [firstWord, List.dropWhile_append_of_pos spaces, started,
    List.takeWhile_append_of_pos (by simpa using inWord),
    List.takeWhile_cons_of_neg (by simp [ends]), List.append_nil]

/-- A digit with another value. -/
theorem exists_other_digit (digit : Byte) :
    ∃ other, isxdigit other ∧ hexValue digit ≠ hexValue other := by
  by_cases zero : hexValue digit = 0
  · exact ⟨0x31, by decide, by rw [zero]; decide⟩
  · refine ⟨0x30, by decide, ?_⟩
    intro same
    exact zero (same.trans (by decide))

/-- A digit behind the first word can be changed without changing the word. -/
theorem exists_changed
    {text : ByteVector}
    (nonempty : firstWord text ≠ [])
    {digit : Byte}
    (behind : digit ∈ behindWord text)
    (isDigit : isxdigit digit) :
    ∃ changed, SameShape isxdigit text changed ∧ firstWord changed = firstWord text ∧
      ¬List.Forall₂ (fun left right => isxdigit left → hexValue left = hexValue right)
        text changed := by
  obtain ⟨other, isOther, differs⟩ := exists_other_digit digit
  obtain ⟨left, right, split⟩ := List.append_of_mem behind
  obtain ⟨stop, str, string, ends⟩ := exists_stop text
  rw [split, cString] at string
  cases left with
  | nil =>
      obtain ⟨rfl, -⟩ := List.cons.inj string
      rw [isxdigit_of_endsWord ends] at isDigit
      cases isDigit
  | cons first rest =>
      obtain ⟨rfl, -⟩ := List.cons.inj string
      have whole : text = text.takeWhile isspace ++ firstWord text ++ first :: rest ++
          digit :: right := by
        conv_lhs => rw [text_eq text, split]
        simp only [List.append_assoc, List.cons_append]
      refine ⟨text.takeWhile isspace ++ firstWord text ++ first :: rest ++ other :: right,
        SameShape.replace whole isDigit isOther, ?_, ?_⟩
      · rw [List.append_assoc, List.append_assoc]
        exact firstWord_append (fun c member => List.mem_takeWhile_imp member) nonempty
          not_endsWord_of_mem_firstWord ends (rest ++ other :: right)
      · intro agree
        exact differs (DigitRuns.rel_of_forall₂_replaced whole agree isDigit)

theorem hexValue_lt {c : Byte} (isDigit : isxdigit c) : (hexValue c).toNat < 16 := by
  revert c
  decide +kernel

theorem hexPair_toNat
    {first second : Byte}
    (isFirst : isxdigit first)
    (isSecond : isxdigit second) :
    (hexPair first second).toNat = (hexValue first).toNat * 16 + (hexValue second).toNat := by
  have firstLt := hexValue_lt isFirst
  have secondLt := hexValue_lt isSecond
  rw [hexPair, BitVec.toNat_add, BitVec.toNat_shiftLeft, Nat.shiftLeft_eq]
  omega

/-- The digits of equal bytes have equal values. -/
theorem hexPair_agree
    (left right left' right' : Byte)
    (isLeft : isxdigit left)
    (isRight : isxdigit right)
    (isLeft' : isxdigit left')
    (isRight' : isxdigit right')
    (same : hexPair left left' = hexPair right right') :
    hexValue left = hexValue right ∧ hexValue left' = hexValue right' := by
  have value := congrArg BitVec.toNat same
  rw [hexPair_toNat isLeft isLeft', hexPair_toNat isRight isRight'] at value
  have leftLt := hexValue_lt isLeft'
  have rightLt := hexValue_lt isRight'
  rw [← BitVec.toNat_inj, ← BitVec.toNat_inj]
  omega

theorem not_endsWord_of_isxdigit {c : Byte} (isDigit : isxdigit c) : endsWord c = false := by
  by_contra ends
  rw [Bool.not_eq_false] at ends
  rw [isxdigit_of_endsWord ends] at isDigit
  cases isDigit

/-- If there are no digits behind the first word of a text, the texts of its shape have the
same characters there. -/
theorem behindWord_of_sameShape
    {text changed : ByteVector}
    (shape : SameShape isxdigit text changed)
    (others : ∀ c ∈ behindWord text, isxdigit c = false) :
    behindWord changed = behindWord text := by
  have noSpace : ∀ c, isxdigit c → isspace c = false := by
    intro c isDigit
    have goesOn := not_endsWord_of_isxdigit isDigit
    rw [endsWord, Bool.or_eq_false_iff] at goesOn
    exact goesOn.2
  have inWord : ∀ c, isxdigit c → (!endsWord c) = true := by
    intro c isDigit
    rw [not_endsWord_of_isxdigit isDigit, Bool.not_false]
  exact ((shape.dropWhile noSpace).dropWhile inWord).eq_of_none others

/-- Texts of one shape spell equally many bytes, and other bytes if a digit differs. -/
theorem digits_agree
    {text changed : ByteVector}
    (shape : SameShape isxdigit text changed) :
    (spelledBytes text).length = (spelledBytes changed).length ∧
      (spelledBytes text = spelledBytes changed →
        List.Forall₂ (fun left right => isxdigit left → hexValue left = hexValue right)
          text changed) :=
  shape.spelled (fun _ _ _ _ same => same) hexPair_agree

/-! ## Accepted texts -/

section

variable {surroundings : Surroundings} {options : SerialMuxOptions} {argv : List ByteVector}
variable (reads : ReadsConfiguration surroundings options argv)

include reads

theorem exists_configured_of_hexRuns
    {text : ByteVector}
    {runs : List ByteVector}
    (hexRuns : HexRuns (firstWord text) runs)
    (fits : valueCount runs ≤ authenticationLen) :
    ∃ configured,
      parseConfiguration (surroundings.withToken text) options argv = .ok configured ∧
      List.ofFn configured.options.authToken =
        runs.flatMap hexBytes ++ List.replicate (authenticationLen - valueCount runs) 0 := by
  obtain ⟨general, before, parses⟩ := parseConfiguration_withToken reads
  obtain ⟨set, accepted, token⟩ := parseAuthToken_of_hexRuns hexRuns fits before
  exact ⟨_, by rw [parses, accepted]; rfl, token⟩

theorem hexRuns_of_parseConfiguration
    {text : ByteVector}
    {configured : Configured}
    (accepted : parseConfiguration (surroundings.withToken text) options argv = .ok configured) :
    ∃ runs, HexRuns (firstWord text) runs ∧ valueCount runs ≤ authenticationLen := by
  obtain ⟨general, before, parses⟩ := parseConfiguration_withToken reads
  rw [parses] at accepted
  cases set : parseAuthToken text before with
  | ok after => exact hexRuns_of_parseAuthToken set
  | error thrown =>
      rw [set] at accepted
      cases accepted

/-- An accepted text that spells as many bytes as a token has, none of them behind the first
word, gives these. -/
theorem ofFn_authToken_eq
    {text : ByteVector}
    {configured : Configured}
    (accepted : parseConfiguration (surroundings.withToken text) options argv = .ok configured)
    (others : ∀ c ∈ behindWord text, isxdigit c = false)
    (length : (spelledBytes text).length = authenticationLen) :
    List.ofFn configured.options.authToken = spelledBytes text := by
  obtain ⟨runs, hexRuns, fits⟩ := hexRuns_of_parseConfiguration reads accepted
  obtain ⟨same, acceptedSame, token⟩ := exists_configured_of_hexRuns reads hexRuns fits
  rw [accepted, Except.ok.injEq] at acceptedSame
  rw [spelledBytes_of_hexRuns hexRuns others] at length ⊢
  rw [DigitRuns.length_flatMap_inPairs] at length
  rw [acceptedSame, token, length, Nat.sub_self, List.replicate_zero, List.append_nil]

end

/-- A token is the whole text exactly if the text is refused or its first word spells all
bytes of the token with no digit behind it. -/
theorem takesWholeToken_iff
    {surroundings : Surroundings}
    {options : SerialMuxOptions}
    {argv : List ByteVector}
    (reads : ReadsConfiguration surroundings options argv)
    (text : ByteVector) :
    TakesWholeToken surroundings options argv text ↔ RefusedOrWhole text := by
  constructor
  · intro takesWhole runs hexRuns fits
    obtain ⟨configured, accepted, token⟩ := exists_configured_of_hexRuns reads hexRuns fits
    obtain ⟨spells, distinguishes⟩ := takesWhole configured accepted
    have others : ∀ c ∈ behindWord text, isxdigit c = false := by
      intro c member
      by_contra isDigit
      rw [Bool.not_eq_false] at isDigit
      obtain ⟨changed, shape, sameWord, differs⟩ := exists_changed hexRuns.ne_nil member isDigit
      rw [← sameWord] at hexRuns
      obtain ⟨other, acceptedOther, tokenOther⟩ :=
        exists_configured_of_hexRuns reads hexRuns fits
      apply differs
      apply distinguishes changed other shape acceptedOther
      exact List.ofFn_injective (tokenOther.trans token.symm)
    refine ⟨?_, others⟩
    rw [spelledBytes_of_hexRuns hexRuns others] at spells
    have length := congrArg List.length spells
    rw [List.length_ofFn, DigitRuns.length_flatMap_inPairs] at length
    rw [← length, authenticationLen]
  · intro whole configured accepted
    obtain ⟨runs, hexRuns, fits⟩ := hexRuns_of_parseConfiguration reads accepted
    obtain ⟨count, others⟩ := whole runs hexRuns fits
    have length : (spelledBytes text).length = authenticationLen := by
      rw [spelledBytes_of_hexRuns hexRuns others, DigitRuns.length_flatMap_inPairs, count]
    have token := ofFn_authToken_eq reads accepted others length
    refine ⟨token, ?_⟩
    intro changed other shape acceptedOther sameToken
    obtain ⟨sameLength, agrees⟩ := digits_agree shape
    have othersChanged : ∀ c ∈ behindWord changed, isxdigit c = false := by
      rwa [behindWord_of_sameShape shape others]
    have tokenOther := ofFn_authToken_eq reads acceptedOther othersChanged
      (sameLength.symm.trans length)
    apply agrees
    exact token.symm.trans ((congrArg List.ofFn sameToken.symm).trans tokenOther)

/-- A configuration file with the token 31, and no options on the command line. -/
def shortToken : Surroundings where
  parseCommandLine := fun _ => .ok {}
  parseConfigFile := fun _ => .ok { authToken := some (asciiBytes "31") }
  isDirectory := fun _ => true
  readFile := fun _ _ => some (asciiBytes "authToken = 31\n")
  usage := []

theorem takesWholeToken_iff_example :
    TakesWholeToken shortToken {} [] (asciiBytes "31") ↔ RefusedOrWhole (asciiBytes "31") :=
  takesWholeToken_iff ⟨{}, _, _, rfl, rfl, rfl, rfl, rfl, rfl⟩ (asciiBytes "31")

/-- A token of one byte is completed with seven zeros. -/
theorem short_token_is_completed :
    (∃ configured, parseConfiguration shortToken {} [] = .ok configured ∧
      List.ofFn configured.options.authToken = [0x31, 0, 0, 0, 0, 0, 0, 0]) ∧
      ¬TakesWholeToken shortToken {} [] (asciiBytes "31") := by
  have accepted : ∃ configured, parseConfiguration shortToken {} [] = .ok configured ∧
      List.ofFn configured.options.authToken = [0x31, 0, 0, 0, 0, 0, 0, 0] :=
    ⟨_, rfl, rfl⟩
  refine ⟨accepted, ?_⟩
  intro takesWhole
  obtain ⟨configured, parses, token⟩ := accepted
  have spells := (takesWhole configured parses).1
  rw [token] at spells
  revert spells
  decide

end SerialMux
