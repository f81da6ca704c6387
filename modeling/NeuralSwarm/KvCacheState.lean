import Mathlib.Data.Int.Notation
import NeuralSwarm.Basic.Except
import NeuralSwarm.Basic.LittleEndian

/-!
# The state format

Hidden states travel between nodes in the layout of bincode: little-endian numbers of fixed width,
a variant tag of 32 bits, sizes and lengths of 64 bits, and bytes after the end are ignored.
-/

namespace NeuralSwarm

/-! ## Bit patterns of `f32` -/

section Bits

open Float.Model Float.Model.Format Float.Model.UnpackedFloat

instance decidableValid (bits : BitVec binary32.numBits) : Decidable (binary32.Valid bits) :=
  decidable_of_iff
    (unpackExponent bits = -1 → unpackMantissa bits ≠ 0 → bits = packedNaN binary32)
    ⟨fun h => ⟨h⟩, fun h => h.eq_packedNaN⟩

/-- The number of a bit pattern; every NaN is the same. -/
def float32OfBits (bits : UInt32) : Float32 :=
  if valid : binary32.Valid bits.toBitVec then .ofModel ⟨bits, valid⟩ else .ofBits bits

@[simp] theorem float32OfBits_toBits (x : Float32) : float32OfBits x.toBits = x :=
  dif_pos x.toModel.valid

end Bits

/-! ## Encoding -/

open LittleEndian

inductive KVCacheState
  | f32 (d1 d2 d3 : ℕ) (data : List Float32)
  | q8_0 (d1 d2 d3 : ℕ) (scale : Float32) (qData : List ℤ)
  deriving DecidableEq

def encodeF32 (x : Float32) : List UInt8 := encode 4 x.toBits.toNat

def decodeF32 : Decoder Float32 := fun bytes => do
  let (bits, bytes) ← decode 4 bytes
  return (float32OfBits (.ofNat bits), bytes)

def encodeI8 (x : ℤ) : List UInt8 := encode 1 (x % 256).toNat

def decodeI8 : Decoder ℤ := fun bytes => do
  let (byte, bytes) ← decode 1 bytes
  return (if byte < 128 then (byte : ℤ) else byte - 256, bytes)

def encodeVec {α : Type} (encodeOne : α → List UInt8) (xs : List α) : List UInt8 :=
  encode 8 xs.length ++ xs.flatMap encodeOne

def decodeVec {α : Type} (decodeOne : Decoder α) : Decoder (List α) := fun bytes => do
  let (length, bytes) ← decode 8 bytes
  decodeMany decodeOne length bytes

def encodeDims (d1 d2 d3 : ℕ) : List UInt8 := encode 8 d1 ++ encode 8 d2 ++ encode 8 d3

def decodeDims : Decoder (ℕ × ℕ × ℕ) := fun bytes => do
  let (d1, bytes) ← decode 8 bytes
  let (d2, bytes) ← decode 8 bytes
  let (d3, bytes) ← decode 8 bytes
  return ((d1, d2, d3), bytes)

namespace KVCacheState

/-- `bincode::serialize`. -/
def serialize : KVCacheState → List UInt8
  | f32 d1 d2 d3 data => encode 4 0 ++ encodeDims d1 d2 d3 ++ encodeVec encodeF32 data
  | q8_0 d1 d2 d3 scale qData =>
    encode 4 1 ++ encodeDims d1 d2 d3 ++ encodeF32 scale ++ encodeVec encodeI8 qData

/-- `bincode::deserialize` of a `KVCacheState`. -/
def deserialize (bytes : List UInt8) : Except String KVCacheState := do
  let (tag, bytes) ← decode 4 bytes
  match tag with
  | 0 => do
    let ((d1, d2, d3), bytes) ← decodeDims bytes
    let (data, _) ← decodeVec decodeF32 bytes
    return f32 d1 d2 d3 data
  | 1 => do
    let ((d1, d2, d3), bytes) ← decodeDims bytes
    let (scale, bytes) ← decodeF32 bytes
    let (qData, _) ← decodeVec decodeI8 bytes
    return q8_0 d1 d2 d3 scale qData
  | _ => .error "expected variant index 0 <= i < 2"

/-- `bincode::deserialize` of the tuple that earlier versions sent. -/
def deserializeLegacy (bytes : List UInt8) : Except String (ℕ × ℕ × ℕ × List Float32) := do
  let ((d1, d2, d3), bytes) ← decodeDims bytes
  let (data, _) ← decodeVec decodeF32 bytes
  return (d1, d2, d3, data)

end KVCacheState

/-! ## Round trip -/

/-- A `usize` or a length is read back. -/
theorem decode_encode_usize {n : ℕ} (h : n < 2 ^ 64) (rest : List UInt8) :
    decode 8 (encode 8 n ++ rest) = .ok (n, rest) := by
  have hlt : n < 256 ^ 8 := h
  exact decode_encode_append hlt rest

theorem decodeF32_encodeF32_append (x : Float32) (rest : List UInt8) :
    decodeF32 (encodeF32 x ++ rest) = .ok (x, rest) := by
  have hbits : x.toBits.toNat < 256 ^ 4 := x.toBits.toNat_lt
  simp only [decodeF32, encodeF32, decode_encode_append hbits, Except.ok_bind, UInt32.ofNat_toNat,
    float32OfBits_toBits, Except.pure_eq_ok]

theorem decodeDims_encodeDims_append {d1 d2 d3 : ℕ} (h1 : d1 < 2 ^ 64) (h2 : d2 < 2 ^ 64)
    (h3 : d3 < 2 ^ 64) (rest : List UInt8) :
    decodeDims (encodeDims d1 d2 d3 ++ rest) = .ok ((d1, d2, d3), rest) := by
  simp only [decodeDims, encodeDims, List.append_assoc, decode_encode_usize h1,
    decode_encode_usize h2, decode_encode_usize h3, Except.ok_bind, Except.pure_eq_ok]

theorem decodeVec_encodeVec_append {α β : Type} {encodeOne : α → List UInt8}
    {decodeOne : Decoder β} {f : α → β}
    (h : ∀ a rest, decodeOne (encodeOne a ++ rest) = .ok (f a, rest)) {xs : List α}
    (hlen : xs.length < 2 ^ 64) (rest : List UInt8) :
    decodeVec decodeOne (encodeVec encodeOne xs ++ rest) = .ok (xs.map f, rest) := by
  simp only [decodeVec, encodeVec, List.append_assoc, decode_encode_usize hlen, Except.ok_bind,
    decodeMany_append h]

namespace KVCacheState

theorem serialize_ne_nil (state : KVCacheState) : state.serialize ≠ [] := by
  cases state <;> exact List.cons_ne_nil _ _

/-- A hidden state survives the format. -/
theorem deserialize_serialize {d1 d2 d3 : ℕ} {data : List Float32} (h1 : d1 < 2 ^ 64)
    (h2 : d2 < 2 ^ 64) (h3 : d3 < 2 ^ 64) (hlen : data.length < 2 ^ 64) :
    deserialize (f32 d1 d2 d3 data).serialize = .ok (f32 d1 d2 d3 data) := by
  have htag : 0 < 256 ^ 4 := by decide
  have hdata := decodeVec_encodeVec_append decodeF32_encodeF32_append hlen []
  rw [List.append_nil, List.map_id'] at hdata
  simp only [deserialize, serialize, List.append_assoc, decode_encode_append htag, Except.ok_bind,
    decodeDims_encodeDims_append h1 h2 h3, hdata, Except.pure_eq_ok]

end KVCacheState

end NeuralSwarm
