import SerialMux.MuxStream

/-!
# The size of a client's input buffer

What the parser keeps after a read is the start of a message that is not complete,
with the junk in front of it, or less than a token.  Junk in front of a token is
kept only if it was read together with the token's end, so a connection's buffer is
bounded by the longest message, one read and the 128 initial bytes.
-/

namespace SerialMux

open PatternSearch

/-- The size of the array that a connection reads into. -/
def inputSize : Nat := 256

/-- The largest size of the buffer. -/
def partialInputBound : Nat := 65920

/-- A message that is not complete: its length field is cut, or its body. -/
def IsIncomplete : ByteVector → Prop
  | high :: low :: body => body.length < announcedLength high low
  | _ => True

/-- The buffer holds less than a token, or a first token behind which the message is
not complete. -/
def Settled (buffer : ByteVector) : Prop :=
  (¬magicToken <:+: buffer ∧ buffer.length ≤ 3) ∨
    ∃ position, search magicToken buffer = some position ∧
      IsIncomplete (buffer.drop (position + 4))

/-- The first token, if there is one, ends within the first read of a new parser. -/
def StartsEarly (buffer : ByteVector) : Prop :=
  ∀ position, search magicToken buffer = some position → position + 4 ≤ 128 + inputSize

/-! ## What is kept -/

theorem announcedLength_le (high low : Byte) : announcedLength high low ≤ 65535 := by
  have highBound := high.isLt
  have lowBound := low.isLt
  rw [announcedLength]
  omega

theorem IsIncomplete.length_le
    {behind : ByteVector}
    (incomplete : IsIncomplete behind) :
    behind.length ≤ 65536 := by
  match behind, incomplete with
  | [], _ => simp
  | [_], _ => simp
  | high :: low :: body, incomplete =>
      have announced := announcedLength_le high low
      simp only [IsIncomplete] at incomplete
      simp only [List.length_cons]
      omega

theorem startsEarly_of_length
    {buffer : ByteVector}
    (short : buffer.length ≤ 128 + inputSize) :
    StartsEarly buffer := by
  intro position found
  have inside := search_length magicToken_ne_nil found
  rw [magicToken_length] at inside
  omega

/-- A settled buffer is bounded if its token comes early. -/
theorem Settled.length_le
    {buffer : ByteVector}
    (settled : Settled buffer)
    (early : StartsEarly buffer) :
    buffer.length ≤ partialInputBound := by
  rcases settled with ⟨-, short⟩ | ⟨position, found, incomplete⟩
  · rw [partialInputBound]
    omega
  · have starts := early position found
    have behind := incomplete.length_le
    rw [List.length_drop] at behind
    rw [inputSize] at starts
    rw [partialInputBound]
    omega

namespace MuxParser

/-- A settled buffer is left as it is. -/
theorem parse_of_settled
    {parser : MuxParser}
    (settled : Settled parser.partialInput) :
    parser.parse = (none, parser) := by
  unfold parse
  rcases settled with ⟨absent, short⟩ | ⟨position, found, incomplete⟩
  · rw [(search_eq_none_iff magicToken_ne_nil).mpr absent]
    simp only [if_neg (Nat.not_lt.mpr short)]
  · rw [found]
    dsimp only
    split
    · rename_i high low body rest
      rw [rest] at incomplete
      simp only [IsIncomplete, announcedLength] at incomplete
      rw [if_neg (Nat.not_le.mpr incomplete)]
    · rfl

/-- A call of `parse` that delivers nothing leaves a settled buffer. -/
theorem settled_of_parse_none
    {parser next : MuxParser}
    (parsed : parser.parse = (none, next)) :
    Settled next.partialInput ∧
      (StartsEarly parser.partialInput → StartsEarly next.partialInput) := by
  unfold parse at parsed
  split at parsed
  case h_1 position found =>
    have kept : parser = next ∧ IsIncomplete (parser.partialInput.drop (position + 4)) := by
      split at parsed
      case h_1 high low body rest =>
        dsimp only at parsed
        split at parsed
        · simp at parsed
        · rename_i incomplete
          rw [rest]
          exact ⟨(Prod.mk.inj parsed).2, Nat.not_le.mp incomplete⟩
      case h_2 cut =>
        refine ⟨(Prod.mk.inj parsed).2, ?_⟩
        unfold IsIncomplete
        split
        · rename_i high low body rest
          exact absurd rest (cut high low body)
        · trivial
    obtain ⟨rfl, incomplete⟩ := kept
    exact ⟨Or.inr ⟨position, found, incomplete⟩, id⟩
  case h_2 notFound =>
    have absent := (search_eq_none_iff magicToken_ne_nil).mp notFound
    have kept : ¬magicToken <:+: next.partialInput ∧ next.partialInput.length ≤ 3 := by
      split at parsed
      · rw [← (Prod.mk.inj parsed).2]
        refine ⟨fun occurs => absent (occurs.trans (List.drop_suffix _ _).isInfix), ?_⟩
        rw [List.length_drop]
        omega
      · rename_i short
        rw [← (Prod.mk.inj parsed).2]
        exact ⟨absent, Nat.not_lt.mp short⟩
    refine ⟨Or.inl kept, fun _ => startsEarly_of_length ?_⟩
    rw [inputSize]
    omega

/-- An incomplete message ends behind the buffer. -/
theorem length_lt_of_settled
    {buffer chunk body : ByteVector}
    {high low : Byte}
    {position : Nat}
    (waits : ¬magicToken <:+: buffer ∨ Settled buffer)
    (found : search magicToken (buffer ++ chunk) = some position)
    (rest : (buffer ++ chunk).drop (position + 4) = high :: low :: body) :
    buffer.length < position + 6 + announcedLength high low := by
  have cases : ¬magicToken <:+: buffer ∨ ∃ position, search magicToken buffer = some position ∧
      IsIncomplete (buffer.drop (position + 4)) := by
    rcases waits with absent | ⟨absent, -⟩ | token
    · exact Or.inl absent
    · exact Or.inl absent
    · exact Or.inr token
  rcases cases with absent | ⟨first, foundFirst, incomplete⟩
  · have behind := search_append_of_absent absent found
    rw [magicToken_length] at behind
    omega
  · have same := search_append magicToken_ne_nil foundFirst chunk
    rw [found, Option.some.injEq] at same
    subst same
    have inside := search_length magicToken_ne_nil foundFirst
    rw [magicToken_length] at inside
    rw [List.drop_append_of_le_length inside] at rest
    have total := List.length_drop (i := position + 4) (l := buffer)
    match kept : buffer.drop (position + 4), incomplete with
    | [], _ =>
        rw [kept, List.length_nil] at total
        omega
    | [_], _ =>
        rw [kept, List.length_singleton] at total
        omega
    | keptHigh :: keptLow :: keptBody, incomplete =>
        rw [kept] at rest total
        rw [List.cons_append, List.cons_append, List.cons.injEq, List.cons.injEq] at rest
        obtain ⟨rfl, rfl, -⟩ := rest
        simp only [IsIncomplete] at incomplete
        simp only [List.length_cons] at total
        omega

/-- What a delivered message leaves was read after what completed it. -/
theorem length_of_parse_some
    {buffer chunk : ByteVector}
    {next : MuxParser}
    {message : MuxMessage}
    (waits : ¬magicToken <:+: buffer ∨ Settled buffer)
    (parsed : parse { partialInput := buffer ++ chunk } = (some message, next)) :
    next.partialInput.length ≤ chunk.length := by
  unfold parse at parsed
  split at parsed
  case h_1 position found =>
    dsimp only at found
    split at parsed
    case h_1 high low body rest =>
      dsimp only at parsed rest
      split at parsed
      case isTrue complete =>
        have behind := length_lt_of_settled waits found rest
        have left := congrArg (fun parser => parser.partialInput.length) (Prod.mk.inj parsed).2
        have total := congrArg List.length rest
        simp only [List.length_drop, List.length_append, List.length_cons] at left total
        rw [announcedLength] at behind
        omega
      case isFalse => simp at parsed
    case h_2 => simp at parsed
  case h_2 => split at parsed <;> simp at parsed

/-- Parsing everything leaves a settled buffer. -/
theorem settled_parseAll (parser : MuxParser) : Settled parser.parseAll.2.partialInput := by
  induction parser using MuxParser.parseAll.induct with
  | case1 parser message next parsed messages final ending inductionHypothesis =>
      rw [parseAll_of_some parsed]
      exact inductionHypothesis
  | case2 parser next parsed =>
      rw [parseAll_of_none parsed]
      exact (settled_of_parse_none parsed).1

/-- Parsing one read's bytes leaves an early token. -/
theorem startsEarly_parseAll
    (parser : MuxParser)
    (short : parser.partialInput.length ≤ inputSize) :
    StartsEarly parser.parseAll.2.partialInput := by
  induction parser using MuxParser.parseAll.induct with
  | case1 parser message next parsed messages final ending inductionHypothesis =>
      rw [parseAll_of_some parsed]
      exact inductionHypothesis ((parse_shrinks parsed).le.trans short)
  | case2 parser next parsed =>
      rw [parseAll_of_none parsed]
      exact (settled_of_parse_none parsed).2 (startsEarly_of_length (by omega))

/-! ## Reads -/

/-- What a buffer is before a read: settled with an early token, or new. -/
def Ready (buffer : ByteVector) : Prop :=
  (Settled buffer ∧ StartsEarly buffer) ∨ (¬magicToken <:+: buffer ∧ buffer.length ≤ 128)

/-- The bytes of one read do not move the first token behind the bound. -/
theorem Ready.startsEarly_append
    {buffer : ByteVector}
    (ready : Ready buffer)
    {chunk : ByteVector}
    (short : chunk.length ≤ inputSize) :
    StartsEarly (buffer ++ chunk) := by
  have small (few : buffer.length ≤ 128) : StartsEarly (buffer ++ chunk) := by
    refine startsEarly_of_length ?_
    rw [List.length_append]
    omega
  rcases ready with ⟨⟨-, few⟩ | ⟨first, found, -⟩, early⟩ | ⟨-, few⟩
  · exact small (by omega)
  · intro position foundLater
    rw [search_append magicToken_ne_nil found chunk] at foundLater
    cases foundLater
    exact early first found
  · exact small few

/-- A read leaves a settled buffer with an early token. -/
theorem Ready.read
    {parser : MuxParser}
    (ready : Ready parser.partialInput)
    {chunk : ByteVector}
    (short : chunk.length ≤ inputSize) :
    Settled (parser.read chunk).2.partialInput ∧
      StartsEarly (parser.read chunk).2.partialInput := by
  refine ⟨settled_parseAll _, ?_⟩
  have waits : ¬magicToken <:+: parser.partialInput ∨ Settled parser.partialInput :=
    ready.elim (fun settled => Or.inr settled.1) (fun new => Or.inl new.1)
  unfold MuxParser.read
  cases parsed : parse { partialInput := parser.partialInput ++ chunk } with
  | mk message next =>
      cases message with
      | none =>
          rw [parseAll_of_none parsed]
          exact (settled_of_parse_none parsed).2 (ready.startsEarly_append short)
      | some message =>
          rw [parseAll_of_some parsed]
          exact startsEarly_parseAll next ((length_of_parse_some waits parsed).trans short)

theorem ready_new : Ready new.partialInput := by
  refine Or.inr ⟨?_, by simp [new]⟩
  intro occurs
  have first : 0xa7 ∈ new.partialInput := occurs.subset (by simp [magicToken])
  exact absurd (List.eq_of_mem_replicate first) (by decide)

theorem ready_readChunks
    {parser : MuxParser}
    (ready : Ready parser.partialInput)
    {chunks : List ByteVector}
    (short : ∀ chunk ∈ chunks, chunk.length ≤ inputSize) :
    Ready (parser.readChunks chunks).2.partialInput := by
  induction chunks generalizing parser with
  | nil => exact ready
  | cons chunk rest inductionHypothesis =>
      rw [List.forall_mem_cons] at short
      exact inductionHypothesis (Or.inl (ready.read short.1)) short.2

/-- After every read of a connection the buffer is bounded, holds less than a token or
a first token with an incomplete message, and holds nothing that one more call of
`parse` would deliver or drop. -/
theorem readChunks_settled
    (earlier : List ByteVector)
    (last : ByteVector)
    (short : ∀ chunk ∈ earlier ++ [last], chunk.length ≤ inputSize) :
    (new.readChunks (earlier ++ [last])).2.partialInput.length ≤ partialInputBound ∧
      Settled (new.readChunks (earlier ++ [last])).2.partialInput ∧
      (new.readChunks (earlier ++ [last])).2.parse =
        (none, (new.readChunks (earlier ++ [last])).2) := by
  have shortEarlier : ∀ chunk ∈ earlier, chunk.length ≤ inputSize :=
    fun chunk member => short chunk (List.mem_append_left [last] member)
  have shortLast : last.length ≤ inputSize :=
    short last (List.mem_append_right earlier (List.mem_singleton_self last))
  have afterLast : (new.readChunks (earlier ++ [last])).2 =
      ((new.readChunks earlier).2.read last).2 := by
    rw [readChunks_append]
    rfl
  obtain ⟨settled, early⟩ := (ready_readChunks ready_new shortEarlier).read shortLast
  rw [afterLast]
  exact ⟨settled.length_le early, settled, parse_of_settled settled⟩

/-- A token in two reads, and a length field that announces the longest body. -/
theorem readChunks_settled_example :
    (new.readChunks ([[0, 0xa7, 0x40, 0xa0]] ++ [[0xf5, 0xff, 0xff, 1]])).2.partialInput.length ≤
        partialInputBound ∧
      Settled (new.readChunks ([[0, 0xa7, 0x40, 0xa0]] ++ [[0xf5, 0xff, 0xff, 1]])).2.partialInput ∧
      (new.readChunks ([[0, 0xa7, 0x40, 0xa0]] ++ [[0xf5, 0xff, 0xff, 1]])).2.parse =
        (none, (new.readChunks ([[0, 0xa7, 0x40, 0xa0]] ++ [[0xf5, 0xff, 0xff, 1]])).2) :=
  readChunks_settled [[0, 0xa7, 0x40, 0xa0]] [0xf5, 0xff, 0xff, 1] (by decide)

end MuxParser

end SerialMux
