import SerialMux.Common

/-!
# The filter codec and its accesses

A filter and its unreliable mask stand big-endian in the first eight bytes of a
vector.  Reading and writing undo each other on every vector that has these bytes;
on a shorter one an index is used that the vector does not have.
-/

namespace SerialMux

/-- The eight bytes that stand for a filter. -/
def filterBytes (params : SubscriptionParams) : ByteVector :=
  [byteAt params.filter 24, byteAt params.filter 16, byteAt params.filter 8,
    byteAt params.filter 0, byteAt params.unreliable 24, byteAt params.unreliable 16,
    byteAt params.unreliable 8, byteAt params.unreliable 0]

@[simp] theorem filterBytes_length (params : SubscriptionParams) :
    (filterBytes params).length = subscribeParamsLength := rfl

/-- Writing replaces the first eight bytes. -/
theorem filterToVector_eq
    (params : SubscriptionParams)
    {data : ByteVector}
    (long : subscribeParamsLength ≤ data.length) :
    filterToVector params data =
      some (filterBytes params ++ data.drop subscribeParamsLength) := by
  match data, long with
  | _ :: _ :: _ :: _ :: _ :: _ :: _ :: _ :: rest, _ => rfl

/-! ## Indices -/

/-- The indices that `vectorToFilter` reads in a vector of some size. -/
def vectorToFilterReads (size : Nat) : List Nat :=
  [0, 1, 2, 3] ++ if 8 ≤ size then [4, 5, 6, 7] else []

/-- The indices that `filterToVector` writes. -/
def filterToVectorWrites : List Nat :=
  [0, 1, 2, 3, 4, 5, 6, 7]

theorem vectorToFilterReads_within_iff (size : Nat) :
    (∀ index ∈ vectorToFilterReads size, index < size) ↔ 4 ≤ size := by
  unfold vectorToFilterReads
  split_ifs with guarded
  · simp
    omega
  · simp
    omega

theorem filterToVectorWrites_within_iff (size : Nat) :
    (∀ index ∈ filterToVectorWrites, index < size) ↔ subscribeParamsLength ≤ size := by
  simp [filterToVectorWrites, subscribeParamsLength]
  omega

/-- A filter is read unless an index is outside the vector. -/
theorem vectorToFilter_isSome_iff (data : ByteVector) :
    (vectorToFilter data).isSome ↔
      ∀ index ∈ vectorToFilterReads data.length, index < data.length := by
  rw [vectorToFilterReads_within_iff]
  constructor
  · intro read
    unfold vectorToFilter at read
    split at read
    · simp
    · simp
    · cases read
  · intro long
    match data, long with
    | d0 :: d1 :: d2 :: d3 :: rest, _ =>
        unfold vectorToFilter
        split
        · rfl
        · rfl
        · rename_i notFour
          exact absurd rfl (notFour d0 d1 d2 d3 rest)

/-- A filter is written unless an index is outside the vector. -/
theorem filterToVector_isSome_iff (params : SubscriptionParams) (data : ByteVector) :
    (filterToVector params data).isSome ↔
      ∀ index ∈ filterToVectorWrites, index < data.length := by
  rw [filterToVectorWrites_within_iff]
  constructor
  · intro written
    unfold filterToVector at written
    split at written
    · simp [subscribeParamsLength]
    · cases written
  · intro long
    rw [filterToVector_eq params long]
    rfl

/-! ## Reading and writing -/

/-- Each byte of an `int` is one of those that it was put together from. -/
theorem byteAt_ofBytes (first second third fourth : Byte) :
    byteAt (ofBytes first second third fourth) 24 = first ∧
      byteAt (ofBytes first second third fourth) 16 = second ∧
      byteAt (ofBytes first second third fourth) 8 = third ∧
      byteAt (ofBytes first second third fourth) 0 = fourth := by
  refine ⟨?_, ?_, ?_, ?_⟩
  all_goals
    apply BitVec.eq_of_getLsbD_eq
    intro index indexLt
    interval_cases index <;> simp [ofBytes, byteAt, BitVec.getElem_sshiftRight]

/-- The filter that is read from a vector is written back unchanged. -/
theorem filterToVector_of_vectorToFilter
    {data : ByteVector}
    (long : subscribeParamsLength ≤ data.length) :
    ∃ params, vectorToFilter data = some params ∧
      filterToVector params data = some data := by
  match data, long with
  | d0 :: d1 :: d2 :: d3 :: d4 :: d5 :: d6 :: d7 :: rest, _ =>
      refine ⟨_, rfl, ?_⟩
      obtain ⟨first, second, third, fourth⟩ := byteAt_ofBytes d0 d1 d2 d3
      obtain ⟨fifth, sixth, seventh, eighth⟩ := byteAt_ofBytes d4 d5 d6 d7
      simp only [filterToVector, first, second, third, fourth, fifth, sixth, seventh, eighth]

/-- On vectors of at least eight bytes nothing is lost in either direction, and
nothing behind the eight bytes is touched. -/
theorem filterCodec_lossless
    (params : SubscriptionParams)
    (data : ByteVector)
    (long : subscribeParamsLength ≤ data.length) :
    (∃ written, filterToVector params data = some written ∧
      vectorToFilter written = some params ∧
      written.length = data.length ∧
      ∀ index, subscribeParamsLength ≤ index → written[index]? = data[index]?) ∧
    ∃ read, vectorToFilter data = some read ∧ filterToVector read data = some data := by
  refine ⟨?_, filterToVector_of_vectorToFilter long⟩
  have wrote := filterToVector_eq params long
  refine ⟨_, wrote, vectorToFilter_of_filterToVector wrote, filterToVector_length wrote, ?_⟩
  intro index behind
  rw [List.getElem?_append_right (by simpa using behind), List.getElem?_drop,
    filterBytes_length]
  congr 1
  omega

/-- The sign bits and a byte behind the filter. -/
theorem filterCodec_lossless_example :
    (∃ written,
      filterToVector { filter := 0x80000001, unreliable := 0xFFFFFFFF }
        [1, 2, 3, 4, 5, 6, 7, 8, 9] = some written ∧
      vectorToFilter written = some { filter := 0x80000001, unreliable := 0xFFFFFFFF } ∧
      written.length = 9 ∧
      ∀ index, subscribeParamsLength ≤ index →
        written[index]? = ([1, 2, 3, 4, 5, 6, 7, 8, 9] : ByteVector)[index]?) ∧
    ∃ read, vectorToFilter [1, 2, 3, 4, 5, 6, 7, 8, 9] = some read ∧
      filterToVector read [1, 2, 3, 4, 5, 6, 7, 8, 9] = some [1, 2, 3, 4, 5, 6, 7, 8, 9] :=
  filterCodec_lossless { filter := 0x80000001, unreliable := 0xFFFFFFFF }
    [1, 2, 3, 4, 5, 6, 7, 8, 9] (by decide)

end SerialMux
