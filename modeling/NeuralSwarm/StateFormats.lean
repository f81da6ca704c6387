import NeuralSwarm.CandleBackend

/-!
# Two layouts of a hidden state

A backend reads a received state as a `KVCacheState` and, if that fails, as the tuple that earlier
versions sent.  The tuple has no tag: its first four bytes are the low half of the first dimension.
Where these are the tag `0` or `1`, the other numbers are read four bytes late, and the state is
mistaken for the current layout if what is then taken for a length fits the bytes that follow.
-/

namespace NeuralSwarm

open LittleEndian

variable {T Q : Type}

/-! ## Payloads -/

/-- The bytes of an `f32` with the given bits. -/
def encodeBits (bits : UInt32) : Bytes := encode 4 bits.toNat

/-- `bincode::serialize` of `(d1, d2, d3, data)`, for data with the given bits. -/
def legacyPayload (d1 d2 d3 : ℕ) (bits : List UInt32) : Bytes :=
  encodeDims d1 d2 d3 ++ encodeVec encodeBits bits

/-- `bincode::serialize` of `KVCacheState::F32(d1, d2, d3, data)`. -/
def f32Payload (d1 d2 d3 : ℕ) (bits : List UInt32) : Bytes :=
  encode 4 0 ++ legacyPayload d1 d2 d3 bits

theorem f32Payload_eq_serialize (d1 d2 d3 : ℕ) (data : List Float32) :
    f32Payload d1 d2 d3 (data.map (·.toBits)) = (KVCacheState.f32 d1 d2 d3 data).serialize := by
  simp only [f32Payload, legacyPayload, KVCacheState.serialize, encodeVec, List.length_map,
    List.flatMap_map, List.append_assoc]
  rfl

theorem decodeF32_encodeBits_append (bits : UInt32) (rest : Bytes) :
    decodeF32 (encodeBits bits ++ rest) = .ok (float32OfBits bits, rest) := by
  have hlt : bits.toNat < 256 ^ 4 := bits.toNat_lt
  simp only [decodeF32, encodeBits, decode_encode_append hlt, Except.ok_bind, UInt32.ofNat_toNat,
    Except.pure_eq_ok]

theorem decodeVec_encodeBits {bits : List UInt32} (hlen : bits.length < 2 ^ 64) :
    decodeVec decodeF32 (encodeVec encodeBits bits) = .ok (bits.map float32OfBits, []) := by
  have hvec := decodeVec_encodeVec_append decodeF32_encodeBits_append hlen []
  rwa [List.append_nil] at hvec

section Decoding

variable {d1 d2 d3 : ℕ} {bits : List UInt32}

/-- A state in the earlier layout is read back, where it is read in that layout. -/
theorem deserializeLegacy_legacyPayload (h1 : d1 < 2 ^ 64) (h2 : d2 < 2 ^ 64) (h3 : d3 < 2 ^ 64)
    (hlen : bits.length < 2 ^ 64) :
    KVCacheState.deserializeLegacy (legacyPayload d1 d2 d3 bits) =
      .ok (d1, d2, d3, bits.map float32OfBits) := by
  simp only [KVCacheState.deserializeLegacy, legacyPayload, decodeDims_encodeDims_append h1 h2 h3,
    Except.ok_bind, decodeVec_encodeBits hlen, Except.pure_eq_ok]

theorem deserialize_f32Payload (h1 : d1 < 2 ^ 64) (h2 : d2 < 2 ^ 64) (h3 : d3 < 2 ^ 64)
    (hlen : bits.length < 2 ^ 64) :
    KVCacheState.deserialize (f32Payload d1 d2 d3 bits) =
      .ok (.f32 d1 d2 d3 (bits.map float32OfBits)) := by
  have htag : 0 < 256 ^ 4 := by decide
  simp only [KVCacheState.deserialize, f32Payload, legacyPayload, decode_encode_append htag,
    Except.ok_bind, decodeDims_encodeDims_append h1 h2 h3, decodeVec_encodeBits hlen,
    Except.pure_eq_ok]

end Decoding

/-! ## The earlier layout read as the current one -/

/-- The high half of a number followed by the low half of the next one, as one number. -/
def straddle (a b : ℕ) : ℕ := (a / 2 ^ 32 + 2 ^ 32 * b) % 2 ^ 64

/-- Behind its first four bytes, the earlier layout is one of dimensions and a number. -/
theorem legacyPayload_eq {d1 d2 d3 : ℕ} (h1 : d1 < 2 ^ 64) (h2 : d2 < 2 ^ 64) (h3 : d3 < 2 ^ 64)
    (bits : List UInt32) :
    legacyPayload d1 d2 d3 bits =
      encode 4 d1 ++ (encodeDims (straddle d1 d2) (straddle d2 d3) (straddle d3 bits.length) ++
        (encode 4 (bits.length / 2 ^ 32) ++ bits.flatMap encodeBits)) := by
  have hsplit (n : ℕ) : encode 8 n = encode 4 n ++ encode 4 (n / 2 ^ 32) := encode_add 4 4 n
  have hjoin {a : ℕ} (ha : a < 2 ^ 64) (b : ℕ) :
      encode 4 (a / 2 ^ 32) ++ encode 4 b = encode 8 (straddle a b) := by
    have hhigh : a / 2 ^ 32 < 256 ^ 4 := by omega
    have hmod : encode 8 (straddle a b) = encode 8 (a / 2 ^ 32 + 2 ^ 32 * b) := encode_mod 8 _
    rw [hmod]
    exact encode_append_encode 4 4 hhigh b
  rw [legacyPayload, encodeDims, encodeVec, encodeDims, ← hjoin h1, ← hjoin h2, ← hjoin h3,
    hsplit d1, hsplit d2, hsplit d3, hsplit bits.length]
  simp only [List.append_assoc]

theorem straddle_lt (a b : ℕ) : straddle a b < 2 ^ 64 := Nat.mod_lt _ (by decide)

theorem hasWidth_decodeF32 : HasWidth decodeF32 4 where
  ok bytes hlen := by
    obtain ⟨n, hn⟩ := (hasWidth_decode 4).ok bytes hlen
    exact ⟨_, by simp only [decodeF32, hn, Except.ok_bind]; rfl⟩
  error bytes hlen := by
    obtain ⟨e, he⟩ := (hasWidth_decode 4).error bytes hlen
    exact ⟨e, by simp only [decodeF32, he, Except.error_bind]⟩

theorem hasWidth_decodeI8 : HasWidth decodeI8 1 where
  ok bytes hlen := by
    obtain ⟨n, hn⟩ := (hasWidth_decode 1).ok bytes hlen
    exact ⟨_, by simp only [decodeI8, hn, Except.ok_bind]; rfl⟩
  error bytes hlen := by
    obtain ⟨e, he⟩ := (hasWidth_decode 1).error bytes hlen
    exact ⟨e, by simp only [decodeI8, he, Except.error_bind]⟩

/-- A vector is read exactly if its elements are there. -/
theorem decodeVec_isOk_iff {α : Type} {decodeOne : Decoder α} {width length : ℕ}
    (h : HasWidth decodeOne width) (hlength : length < 2 ^ 64) (rest : Bytes) :
    (∃ x, decodeVec decodeOne (encode 8 length ++ rest) = .ok x) ↔
      length * width ≤ rest.length := by
  simp only [decodeVec, decode_encode_usize hlength, Except.ok_bind]
  exact (h.decodeMany length).isOk_iff rest

theorem decodeVec_of_short {α : Type} (decodeOne : Decoder α) {bytes : Bytes}
    (h : bytes.length < 8) : ∀ x, decodeVec decodeOne bytes ≠ .ok x := by
  obtain ⟨e, he⟩ := (hasWidth_decode 8).error bytes h
  intro x hx
  simp only [decodeVec, he, Except.error_bind] at hx
  cases hx

/-- The tag is `0` or `1`, and the number that is then read as a length is at most that of the
elements that follow. -/
def Coincides : (tag : ℕ) → (bits : List UInt32) → Prop
  | 0, b :: rest => (rest.length + 1) / 2 ^ 32 + 2 ^ 32 * b.toNat ≤ rest.length
  | 1, b :: c :: rest => b.toNat + 2 ^ 32 * c.toNat ≤ 4 * rest.length
  | _, _ => False

@[simp] theorem length_flatMap_encodeBits (bits : List UInt32) :
    (bits.flatMap encodeBits).length = 4 * bits.length := by
  induction bits with
  | nil => rfl
  | cons b bits ih =>
    rw [List.flatMap_cons, List.length_append, ih, encodeBits, length_encode, List.length_cons]
    omega

/-- Two elements in a row are one number. -/
theorem encodeBits_append_encode (b : UInt32) (n : ℕ) :
    encodeBits b ++ encode 4 n = encode 8 (b.toNat + 2 ^ 32 * n) :=
  encode_append_encode 4 4 b.toNat_lt n

/-- What follows the dimensions, read as the elements of the variant `F32`. -/
theorem decodeVec_f32_isOk_iff {bits : List UInt32} (hlen : bits.length < 2 ^ 64) :
    (∃ x, decodeVec decodeF32 (encode 4 (bits.length / 2 ^ 32) ++ bits.flatMap encodeBits) =
      .ok x) ↔ Coincides 0 bits := by
  cases bits with
  | nil =>
    have hshort : ∀ x, decodeVec decodeF32
        (encode 4 (([] : List UInt32).length / 2 ^ 32) ++ [].flatMap encodeBits) ≠ .ok x :=
      decodeVec_of_short decodeF32 (by decide)
    exact ⟨fun ⟨x, hx⟩ => hshort x hx, fun h => h.elim⟩
  | cons b rest =>
    have hlow : (b :: rest).length / 2 ^ 32 < 256 ^ 4 := by omega
    have hb := b.toNat_lt
    have hjoin : encode 4 ((b :: rest).length / 2 ^ 32) ++ encodeBits b =
      encode 8 ((b :: rest).length / 2 ^ 32 + 2 ^ 32 * b.toNat) := encode_append_encode 4 4 hlow _
    rw [List.flatMap_cons, ← List.append_assoc, hjoin, decodeVec_isOk_iff hasWidth_decodeF32
      (by omega), length_flatMap_encodeBits, Nat.mul_comm, Nat.mul_le_mul_left_iff (by decide)]
    rfl

/-- The elements of the earlier layout, read as those of the variant `Q8_0`. -/
theorem decodeVec_i8_isOk_iff (bits : List UInt32) :
    (∃ x, decodeVec decodeI8 (bits.flatMap encodeBits) = .ok x) ↔ Coincides 1 bits := by
  rcases bits with - | ⟨b, - | ⟨c, rest⟩⟩
  · exact ⟨fun ⟨x, hx⟩ => decodeVec_of_short decodeI8 (by decide) x hx, fun h => h.elim⟩
  · have hshort : ∀ x, decodeVec decodeI8 ([b].flatMap encodeBits) ≠ .ok x :=
      decodeVec_of_short decodeI8
        (by rw [length_flatMap_encodeBits, List.length_singleton]; decide)
    exact ⟨fun ⟨x, hx⟩ => hshort x hx, fun h => h.elim⟩
  · have hb := b.toNat_lt
    have hc := c.toNat_lt
    have hjoin : encodeBits b ++ encodeBits c = encode 8 (b.toNat + 2 ^ 32 * c.toNat) :=
      encodeBits_append_encode b c.toNat
    rw [List.flatMap_cons, List.flatMap_cons, ← List.append_assoc, hjoin,
      decodeVec_isOk_iff hasWidth_decodeI8 (by omega), length_flatMap_encodeBits, Nat.mul_one]
    rfl

section Mistaken

variable {d1 d2 d3 : ℕ} {bits : List UInt32}

/-- The earlier layout read as the current one, after the tag. -/
theorem deserialize_legacyPayload (h1 : d1 < 2 ^ 64) (h2 : d2 < 2 ^ 64) (h3 : d3 < 2 ^ 64) :
    KVCacheState.deserialize (legacyPayload d1 d2 d3 bits) =
      match d1 % 2 ^ 32 with
      | 0 => do
        let (data, _) ← decodeVec decodeF32
          (encode 4 (bits.length / 2 ^ 32) ++ bits.flatMap encodeBits)
        return .f32 (straddle d1 d2) (straddle d2 d3) (straddle d3 bits.length) data
      | 1 => do
        let (scale, bytes) ← decodeF32 (encode 4 (bits.length / 2 ^ 32) ++ bits.flatMap encodeBits)
        let (qData, _) ← decodeVec decodeI8 bytes
        return .q8_0 (straddle d1 d2) (straddle d2 d3) (straddle d3 bits.length) scale qData
      | _ => .error "expected variant index 0 <= i < 2" := by
  have htag (rest : Bytes) : decode 4 (encode 4 d1 ++ rest) = .ok (d1 % 2 ^ 32, rest) :=
    decode_encode_append_mod 4 d1 rest
  have hdims (rest : Bytes) :=
    decodeDims_encodeDims_append (straddle_lt d1 d2) (straddle_lt d2 d3)
      (straddle_lt d3 bits.length) rest
  rw [legacyPayload_eq h1 h2 h3, KVCacheState.deserialize, htag, Except.ok_bind]
  rcases d1 % 2 ^ 32 with - | - | _ <;> simp only [hdims, Except.ok_bind]

/-- A state in the earlier layout is read as one in the current layout exactly if the numbers
coincide. -/
theorem deserialize_legacyPayload_isOk_iff (h1 : d1 < 2 ^ 64) (h2 : d2 < 2 ^ 64) (h3 : d3 < 2 ^ 64)
    (hlt : bits.length < 2 ^ 64) :
    (∃ state, KVCacheState.deserialize (legacyPayload d1 d2 d3 bits) = .ok state) ↔
      Coincides (d1 % 2 ^ 32) bits := by
  rw [deserialize_legacyPayload h1 h2 h3]
  rcases d1 % 2 ^ 32 with - | - | tag
  · rw [← decodeVec_f32_isOk_iff hlt]
    exact Except.exists_bind_ok
  · have hscale : decodeF32 (encode 4 (bits.length / 2 ^ 32) ++ bits.flatMap encodeBits) =
        .ok (float32OfBits (.ofNat (bits.length / 2 ^ 32)), bits.flatMap encodeBits) := by
      have hlow : bits.length / 2 ^ 32 < 256 ^ 4 := by omega
      simp only [decodeF32, decode_encode_append hlow, Except.ok_bind, Except.pure_eq_ok]
    rw [← decodeVec_i8_isOk_iff]
    simp only [hscale, Except.ok_bind]
    exact Except.exists_bind_ok
  · simp [Coincides]

/-- What is read in the current layout by mistake has dimensions that straddle those written. -/
theorem decodeState_of_mistaken (h1 : d1 < 2 ^ 64) (h2 : d2 < 2 ^ 64) (h3 : d3 < 2 ^ 64)
    {state : KVCacheState}
    (h : KVCacheState.deserialize (legacyPayload d1 d2 d3 bits) = .ok state) :
    ∃ data, CandleBackend.decodeState (legacyPayload d1 d2 d3 bits) =
      .ok (straddle d1 d2, straddle d2 d3, straddle d3 bits.length, data) := by
  have hread := h
  rw [deserialize_legacyPayload h1 h2 h3] at hread
  rw [CandleBackend.decodeState, h]
  split at hread
  · obtain ⟨⟨data, rest⟩, -, hread⟩ := Except.bind_eq_ok.1 hread
    cases hread
    exact ⟨data, rfl⟩
  · obtain ⟨⟨scale, bytes⟩, -, hread⟩ := Except.bind_eq_ok.1 hread
    obtain ⟨⟨qData, rest⟩, -, hread⟩ := Except.bind_eq_ok.1 hread
    cases hread
    exact ⟨_, rfl⟩
  · cases hread

/-- Where the numbers coincide, the dimensions that are read are not those that were written. -/
theorem straddle_ne (hlen : bits.length = d1 * d2 * d3) (hlt : bits.length < 2 ^ 64)
    (h1 : d1 < 2 ^ 64) (h2 : d2 < 2 ^ 64) (coincides : Coincides (d1 % 2 ^ 32) bits) :
    [straddle d1 d2, straddle d2 d3, straddle d3 bits.length] ≠ [d1, d2, d3] := by
  intro h
  simp only [List.cons.injEq, and_true, straddle] at h
  obtain ⟨hs1, hs2, -⟩ := h
  rcases htag : d1 % 2 ^ 32 with - | - | tag
  · -- the first dimension is zero, so there are no elements
    have hzero : d1 = 0 := by omega
    have hnil : bits = [] := by
      refine List.eq_nil_of_length_eq_zero ?_
      rw [hlen, hzero, Nat.zero_mul, Nat.zero_mul]
    rw [htag, hnil] at coincides
    exact coincides
  · -- the first two dimensions are so large that the elements do not fit an address space
    have hd1 : d1 = 2 ^ 32 + 1 := by omega
    have hd2 : d2 = 2 ^ 32 + 1 := by omega
    have hd3 : 0 < d3 := by omega
    rw [hlen, hd1, hd2] at hlt
    omega
  · rw [htag] at coincides
    exact coincides

end Mistaken

/-! ## Telling the layouts apart -/

/-- What the crate documents of `from_vec`: as many elements as the shape has make a tensor, and a
tensor has the shape that it was made with. -/
structure Candle.FromVecLaws (candle : Candle T Q) : Prop where
  fromVec_isOk : ∀ data d1 d2 d3, data.length = d1 * d2 * d3 → data.length < 2 ^ 64 →
    d1 < 2 ^ 64 → d2 < 2 ^ 64 → d3 < 2 ^ 64 → ∃ x, candle.fromVec data [d1, d2, d3] = .ok x
  dims_fromVec : ∀ data dims x, candle.fromVec data dims = .ok x → candle.dims x = dims

/-- Whatever the backend had before, it has the tensor of this shape with these elements after it
was given the payload. -/
def Stores (candle : Candle T Q) (payload : Bytes) (d1 d2 d3 : ℕ) (bits : List UInt32) : Prop :=
  ∃ tensor, candle.fromVec (bits.map float32OfBits) [d1, d2, d3] = .ok tensor ∧
    ∀ s : CandleBackend T, s.setState candle payload =
      ({ s with intermediateState := some tensor }, .ok ())

/-- Both layouts of a state are stored as the same tensor, and neither is taken for the other. -/
structure Disambiguated (candle : Candle T Q) (d1 d2 d3 : ℕ) (bits : List UInt32) : Prop where
  legacy : Stores candle (legacyPayload d1 d2 d3 bits) d1 d2 d3 bits
  f32 : Stores candle (f32Payload d1 d2 d3 bits) d1 d2 d3 bits
  not_taken : ∀ state, KVCacheState.deserialize (legacyPayload d1 d2 d3 bits) ≠ .ok state

variable {candle : Candle T Q} {d1 d2 d3 : ℕ} {bits : List UInt32}

theorem stores_of_decodeState (laws : candle.FromVecLaws) (hlen : bits.length = d1 * d2 * d3)
    (hlt : bits.length < 2 ^ 64) (h1 : d1 < 2 ^ 64) (h2 : d2 < 2 ^ 64) (h3 : d3 < 2 ^ 64)
    {payload : Bytes} (hne : payload.isEmpty = false)
    (h : CandleBackend.decodeState payload = .ok (d1, d2, d3, bits.map float32OfBits)) :
    Stores candle payload d1 d2 d3 bits := by
  have hmap : (bits.map float32OfBits).length = bits.length := List.length_map _
  obtain ⟨tensor, htensor⟩ := laws.fromVec_isOk (bits.map float32OfBits) d1 d2 d3
    (hmap.trans hlen) (hmap ▸ hlt) h1 h2 h3
  refine ⟨tensor, htensor, fun s => ?_⟩
  simp only [CandleBackend.setState, hne, Bool.false_eq_true, if_false, h, htensor]

/-- A state in the earlier layout is stored exactly if the numbers do not coincide. -/
theorem stores_legacyPayload_iff (laws : candle.FromVecLaws) (hlen : bits.length = d1 * d2 * d3)
    (hlt : bits.length < 2 ^ 64) (h1 : d1 < 2 ^ 64) (h2 : d2 < 2 ^ 64) (h3 : d3 < 2 ^ 64) :
    Stores candle (legacyPayload d1 d2 d3 bits) d1 d2 d3 bits ↔
      ¬ Coincides (d1 % 2 ^ 32) bits := by
  have hne : (legacyPayload d1 d2 d3 bits).isEmpty = false := rfl
  have hread := deserialize_legacyPayload_isOk_iff h1 h2 h3 hlt
  constructor
  · rintro ⟨tensor, htensor, hstores⟩ coincides
    obtain ⟨state, hstate⟩ := hread.2 coincides
    obtain ⟨data, hdecode⟩ := decodeState_of_mistaken h1 h2 h3 hstate
    have hset := hstores .new
    simp only [CandleBackend.setState, hne, Bool.false_eq_true, if_false, hdecode] at hset
    cases hmistaken : candle.fromVec data
      [straddle d1 d2, straddle d2 d3, straddle d3 bits.length] with
    | error e =>
      rw [hmistaken] at hset
      cases hset
    | ok mistaken =>
      rw [hmistaken] at hset
      have hsame : mistaken = tensor :=
        Option.some.inj (congrArg (fun x => x.1.intermediateState) hset)
      have hdims := laws.dims_fromVec _ _ _ hmistaken
      rw [hsame, laws.dims_fromVec _ _ _ htensor] at hdims
      exact straddle_ne hlen hlt h1 h2 coincides hdims.symm
  · intro hnot
    refine stores_of_decodeState laws hlen hlt h1 h2 h3 hne ?_
    cases hfails : KVCacheState.deserialize (legacyPayload d1 d2 d3 bits) with
    | error e =>
      simp only [CandleBackend.decodeState, hfails, deserializeLegacy_legacyPayload h1 h2 h3 hlt]
    | ok state => exact absurd (hread.1 ⟨state, hfails⟩) hnot

/-- The two layouts of a state are told apart exactly if the numbers do not coincide. -/
theorem disambiguated_iff (laws : candle.FromVecLaws) (hlen : bits.length = d1 * d2 * d3)
    (hlt : bits.length < 2 ^ 64) (h1 : d1 < 2 ^ 64) (h2 : d2 < 2 ^ 64) (h3 : d3 < 2 ^ 64) :
    Disambiguated candle d1 d2 d3 bits ↔ ¬ Coincides (d1 % 2 ^ 32) bits := by
  have hlegacy := stores_legacyPayload_iff laws hlen hlt h1 h2 h3
  constructor
  · exact fun disambiguated => hlegacy.1 disambiguated.legacy
  · intro hnot
    refine ⟨hlegacy.2 hnot, ?_, fun state hstate => ?_⟩
    · refine stores_of_decodeState laws hlen hlt h1 h2 h3 rfl ?_
      simp only [CandleBackend.decodeState, deserialize_f32Payload h1 h2 h3 hlt]
    · exact hnot ((deserialize_legacyPayload_isOk_iff h1 h2 h3 hlt).1 ⟨state, hstate⟩)

/-! ## Two zeros -/

theorem Candle.shapes_fromVecLaws : shapes.FromVecLaws where
  fromVec_isOk data d1 d2 d3 hlen hlt h1 h2 h3 := by
    have hprod : [d1, d2, d3].prod = d1 * d2 * d3 := by simp [Nat.mul_assoc]
    have hdims : ∀ d ∈ [d1, d2, d3], d < 2 ^ 64 := by
      simp only [List.forall_mem_cons]
      exact ⟨h1, h2, h3, fun _ h => absurd h List.not_mem_nil⟩
    have hcount : data.length = Shape.elemCount [d1, d2, d3] := by
      rw [Shape.elemCount, hprod, ← hlen, Nat.mod_eq_of_lt hlt]
    refine ⟨⟨[d1, d2, d3], hdims⟩, ?_⟩
    simp only [shapes, hcount, if_true]
    exact dif_pos hdims
  dims_fromVec data dims x h := by
    simp only [shapes] at h
    split at h
    · exact Shape.dims_of_ofDims h
    · cases h

theorem disambiguated_iff_ones :
    Disambiguated Candle.shapes 1 1 2 [0x3f800000, 0x3f800000] ↔
      ¬ Coincides (1 % 2 ^ 32) [0x3f800000, 0x3f800000] :=
  disambiguated_iff Candle.shapes_fromVecLaws rfl (by decide) (by decide) (by decide) (by decide)

/-- Two zeros in the earlier layout are taken for an empty `Q8_0`, whose sizes have a product that
wraps to zero. -/
theorem not_disambiguated_zeros :
    ¬ ∀ (d1 d2 d3 : ℕ) (bits : List UInt32), bits.length = d1 * d2 * d3 → bits.length < 2 ^ 64 →
      d1 < 2 ^ 64 → d2 < 2 ^ 64 → d3 < 2 ^ 64 → Disambiguated Candle.shapes d1 d2 d3 bits := by
  intro h
  obtain ⟨tensor, htensor, hstores⟩ :=
    (h 1 1 2 [0, 0] rfl (by decide) (by decide) (by decide) (by decide)).legacy
  have hdims : tensor.dims = [1, 1, 2] := Candle.shapes_fromVecLaws.dims_fromVec _ _ _ htensor
  have hmistaken : ((CandleBackend.new : CandleBackend Shape).setState Candle.shapes
      (legacyPayload 1 1 2 [0, 0])).1.intermediateState.map (·.dims) =
        some [2 ^ 32, 2 ^ 33, 2 ^ 33] := by
    decide +kernel
  rw [hstores .new, Option.map_some, hdims] at hmistaken
  revert hmistaken
  decide

end NeuralSwarm
