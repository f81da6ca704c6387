import Mathlib.Algebra.Order.Ring.Nat
import Mathlib.Data.List.Basic

/-!
# Little-endian bytes

Fixed-width encodings of natural numbers and decoders that take a value off the front of a byte
string.  Each encoder comes with the law that its decoder reads it back and leaves what follows.
Two encodings in a row are one of the common width, so that bytes can be read in other portions than
they were written; a decoder of fixed width fails on nothing but a lack of bytes.
-/

namespace LittleEndian

/-- Takes a value off the front of a byte string. -/
abbrev Decoder (α : Type) := List UInt8 → Except String (α × List UInt8)

/-- The lowest `width` bytes of a number, the least significant first. -/
def encode : (width n : ℕ) → List UInt8
  | 0, _ => []
  | width + 1, n => UInt8.ofNat n :: encode width (n / 256)

def decode : (width : ℕ) → Decoder ℕ
  | 0, bytes => .ok (0, bytes)
  | _ + 1, [] => .error "unexpected end of file"
  | width + 1, b :: bytes =>
    match decode width bytes with
    | .error e => .error e
    | .ok (n, rest) => .ok (b.toNat + 256 * n, rest)

theorem decode_encode_append {width n : ℕ} (h : n < 256 ^ width) (rest : List UInt8) :
    decode width (encode width n ++ rest) = .ok (n, rest) := by
  induction width generalizing n with
  | zero =>
    obtain rfl : n = 0 := by simpa using h
    rfl
  | succ width ih =>
    have hlt : n / 256 < 256 ^ width := by
      rw [pow_succ] at h
      omega
    have hdigit : (UInt8.ofNat n).toNat = n % 256 := UInt8.toNat_ofNat'
    simp only [encode, List.cons_append, decode, ih hlt, hdigit, Nat.mod_add_div]

/-! ## Other portions -/

@[simp] theorem length_encode (width n : ℕ) : (encode width n).length = width := by
  induction width generalizing n with
  | zero => rfl
  | succ width ih => rw [encode, List.length_cons, ih]

theorem encode_mod (width n : ℕ) : encode width (n % 256 ^ width) = encode width n := by
  induction width generalizing n with
  | zero => rfl
  | succ width ih =>
    have hdigit : UInt8.ofNat (n % 256 ^ (width + 1)) = UInt8.ofNat n := by
      refine UInt8.toNat_inj.1 ?_
      rw [UInt8.toNat_ofNat', UInt8.toNat_ofNat', pow_succ']
      exact Nat.mod_mul_right_mod n 256 (256 ^ width)
    have hrest : n % 256 ^ (width + 1) / 256 = n / 256 % 256 ^ width := by
      rw [pow_succ', Nat.mod_mul_right_div_self]
    rw [encode, encode, hdigit, hrest, ih]

/-- A number too long for the width is cut. -/
theorem decode_encode_append_mod (width n : ℕ) (rest : List UInt8) :
    decode width (encode width n ++ rest) = .ok (n % 256 ^ width, rest) := by
  rw [← encode_mod]
  exact decode_encode_append (Nat.mod_lt _ (Nat.pow_pos (by decide))) rest

/-- A number is its low part followed by its high part. -/
theorem encode_add (low high n : ℕ) :
    encode (low + high) n = encode low n ++ encode high (n / 256 ^ low) := by
  induction low generalizing n with
  | zero => simp [encode]
  | succ low ih =>
    rw [Nat.add_right_comm, encode, encode, ih, List.cons_append, Nat.div_div_eq_div_mul, pow_succ']

/-- Two numbers in a row are one. -/
theorem encode_append_encode (low high : ℕ) {m : ℕ} (hm : m < 256 ^ low) (n : ℕ) :
    encode low m ++ encode high n = encode (low + high) (m + 256 ^ low * n) := by
  have hpos : 0 < 256 ^ low := Nat.pow_pos (by decide)
  rw [encode_add, Nat.add_mul_div_left _ _ hpos, Nat.div_eq_of_lt hm, Nat.zero_add,
    ← encode_mod low (m + 256 ^ low * n), Nat.add_mul_mod_self_left, Nat.mod_eq_of_lt hm]

/-- The decoder takes a fixed number of bytes, whichever they are. -/
structure HasWidth {α : Type} (decodeOne : Decoder α) (width : ℕ) : Prop where
  ok : ∀ bytes, width ≤ bytes.length → ∃ a, decodeOne bytes = .ok (a, bytes.drop width)
  error : ∀ bytes, bytes.length < width → ∃ e, decodeOne bytes = .error e

theorem hasWidth_decode (width : ℕ) : HasWidth (decode width) width := by
  induction width with
  | zero => exact ⟨fun bytes _ => ⟨0, rfl⟩, fun bytes h => absurd h (Nat.not_lt_zero _)⟩
  | succ width ih =>
    constructor
    · intro bytes hlen
      cases bytes with
      | nil => exact absurd hlen (Nat.not_succ_le_zero _)
      | cons b bytes =>
        obtain ⟨n, hn⟩ := ih.ok bytes (Nat.le_of_succ_le_succ hlen)
        exact ⟨b.toNat + 256 * n, by simp only [decode, hn, List.drop_succ_cons]⟩
    · intro bytes hlen
      cases bytes with
      | nil => exact ⟨_, rfl⟩
      | cons b bytes =>
        obtain ⟨e, he⟩ := ih.error bytes (Nat.lt_of_succ_lt_succ hlen)
        exact ⟨e, by simp only [decode, he]⟩

/-- A number of values one after the other. -/
def decodeMany {α : Type} (decodeOne : Decoder α) : ℕ → Decoder (List α)
  | 0, bytes => .ok ([], bytes)
  | n + 1, bytes =>
    match decodeOne bytes with
    | .error e => .error e
    | .ok (a, bytes) =>
      match decodeMany decodeOne n bytes with
      | .error e => .error e
      | .ok (as, rest) => .ok (a :: as, rest)

/-- If `a` is read back as `f a`, then so are many values. -/
theorem decodeMany_append {α β : Type} {encodeOne : α → List UInt8} {decodeOne : Decoder β}
    {f : α → β} (h : ∀ a rest, decodeOne (encodeOne a ++ rest) = .ok (f a, rest)) (as : List α)
    (rest : List UInt8) :
    decodeMany decodeOne as.length (as.flatMap encodeOne ++ rest) = .ok (as.map f, rest) := by
  induction as with
  | nil => rfl
  | cons a as ih =>
    simp only [List.length_cons, decodeMany, List.flatMap_cons, List.append_assoc, h, ih,
      List.map_cons]

theorem HasWidth.decodeMany {α : Type} {decodeOne : Decoder α} {width : ℕ}
    (h : HasWidth decodeOne width) (n : ℕ) : HasWidth (decodeMany decodeOne n) (n * width) := by
  induction n with
  | zero =>
    rw [Nat.zero_mul]
    exact ⟨fun bytes _ => ⟨[], rfl⟩, fun bytes h => absurd h (Nat.not_lt_zero _)⟩
  | succ n ih =>
    rw [Nat.succ_mul]
    constructor
    · intro bytes hlen
      obtain ⟨a, ha⟩ := h.ok bytes (by omega)
      obtain ⟨as, has⟩ := ih.ok (bytes.drop width) (by rw [List.length_drop]; omega)
      refine ⟨a :: as, ?_⟩
      rw [LittleEndian.decodeMany]
      simp only [ha, has, List.drop_drop, Nat.add_comm width]
    · intro bytes hlen
      rw [LittleEndian.decodeMany]
      rcases Nat.lt_or_ge bytes.length width with hshort | hfits
      · obtain ⟨e, he⟩ := h.error bytes hshort
        exact ⟨e, by simp only [he]⟩
      · obtain ⟨a, ha⟩ := h.ok bytes hfits
        obtain ⟨e, he⟩ := ih.error (bytes.drop width) (by rw [List.length_drop]; omega)
        exact ⟨e, by simp only [ha, he]⟩

/-- A decoder of fixed width accepts exactly what is long enough. -/
theorem HasWidth.isOk_iff {α : Type} {decodeOne : Decoder α} {width : ℕ}
    (h : HasWidth decodeOne width) (bytes : List UInt8) :
    (∃ x, decodeOne bytes = .ok x) ↔ width ≤ bytes.length := by
  constructor
  · rintro ⟨x, hx⟩
    by_contra hlen
    obtain ⟨e, he⟩ := h.error bytes (Nat.lt_of_not_le hlen)
    cases hx.symm.trans he
  · intro hlen
    obtain ⟨a, ha⟩ := h.ok bytes hlen
    exact ⟨_, ha⟩

end LittleEndian
