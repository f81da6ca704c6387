import NeuralSwarm.Basic.Except
import NeuralSwarm.Basic.LittleEndian

/-!
# Codecs

A codec writes values as bytes and reads them off the front of a byte string, whatever follows.  It
is built from numbers of fixed width by pairs, options, lists, tagged unions and changes of
representation; each of these keeps the law that what fits is read back (`decode_append`), and if
the parts accept nothing but encodings, neither does the whole (`Canonical`).  So no encoding is a
proper prefix of another (`eq_of_prefix`), and what a canonical codec accepts is an encoding with
something behind it (`Canonical.decode_eq_ok_iff`).
-/

open LittleEndian

structure Codec (α : Type) where
  /-- The values that the format can hold. -/
  Fits : α → Prop
  encode : α → List UInt8
  decode : Decoder α
  decode_append : ∀ {a : α}, Fits a → ∀ rest, decode (encode a ++ rest) = .ok (a, rest)

namespace Codec

variable {α β : Type}

/-- What is accepted is an encoding and what is left. -/
structure Canonical (c : Codec α) : Prop where
  sound : ∀ {bytes rest : List UInt8} {a : α}, c.decode bytes = .ok (a, rest) →
    c.Fits a ∧ bytes = c.encode a ++ rest

variable {c : Codec α} {d : Codec β}

theorem Canonical.decode_eq_ok_iff (canonical : c.Canonical) {bytes rest : List UInt8} {a : α} :
    c.decode bytes = .ok (a, rest) ↔ c.Fits a ∧ bytes = c.encode a ++ rest := by
  constructor
  · exact canonical.sound
  · rintro ⟨hfits, rfl⟩
    exact c.decode_append hfits rest

/-- A value is determined by its encoding, even with something behind it. -/
theorem eq_of_append_eq {a b : α} (ha : c.Fits a) (hb : c.Fits b) {rest rest' : List UInt8}
    (h : c.encode a ++ rest = c.encode b ++ rest') : a = b ∧ rest = rest' := by
  have hread := c.decode_append ha rest
  rw [h, c.decode_append hb rest'] at hread
  cases hread
  exact ⟨rfl, rfl⟩

/-- No encoding is a proper prefix of another. -/
theorem eq_of_prefix {a b : α} (ha : c.Fits a) (hb : c.Fits b)
    (h : c.encode a <+: c.encode b) : a = b := by
  obtain ⟨rest, hrest⟩ := h
  rw [← List.append_nil (c.encode b)] at hrest
  exact (eq_of_append_eq ha hb hrest).1

/-! ## Numbers -/

theorem eq_encode_of_decode {width n : ℕ} {bytes rest : List UInt8}
    (h : LittleEndian.decode width bytes = .ok (n, rest)) :
    n < 256 ^ width ∧ bytes = LittleEndian.encode width n ++ rest := by
  induction width generalizing n bytes with
  | zero =>
    cases h
    exact ⟨Nat.one_pos, rfl⟩
  | succ width ih =>
    rcases bytes with - | ⟨b, bytes⟩
    · cases h
    · rw [LittleEndian.decode] at h
      rcases hrest : LittleEndian.decode width bytes with e | ⟨high, rest'⟩
      · rw [hrest] at h
        cases h
      · rw [hrest] at h
        cases h
        obtain ⟨hlt, rfl⟩ := ih hrest
        have hb : b.toNat < 256 := b.toNat_lt
        have hdigit : UInt8.ofNat (b.toNat + 256 * high) = b := by
          refine UInt8.toNat_inj.1 ?_
          rw [UInt8.toNat_ofNat']
          omega
        have hdiv : (b.toNat + 256 * high) / 256 = high := by omega
        constructor
        · rw [pow_succ]
          omega
        · rw [LittleEndian.encode, hdigit, hdiv, List.cons_append]

/-- Natural numbers of fixed width. -/
def word (width : ℕ) : Codec ℕ where
  Fits n := n < 256 ^ width
  encode := LittleEndian.encode width
  decode := LittleEndian.decode width
  decode_append := decode_encode_append

theorem canonical_word (width : ℕ) : (word width).Canonical := ⟨eq_encode_of_decode⟩

/-! ## Pairs -/

/-- One value after the other. -/
def pair (c : Codec α) (d : Codec β) : Codec (α × β) where
  Fits x := c.Fits x.1 ∧ d.Fits x.2
  encode x := c.encode x.1 ++ d.encode x.2
  decode bytes := do
    let (a, bytes) ← c.decode bytes
    let (b, bytes) ← d.decode bytes
    return ((a, b), bytes)
  decode_append h rest := by
    simp only [List.append_assoc, c.decode_append h.1, d.decode_append h.2, Except.ok_bind,
      Except.pure_eq_ok]

@[simp] theorem fits_pair {x : α × β} : (c.pair d).Fits x ↔ c.Fits x.1 ∧ d.Fits x.2 := Iff.rfl

theorem Canonical.pair (hc : c.Canonical) (hd : d.Canonical) : (c.pair d).Canonical := by
  constructor
  intro bytes rest x hdecode
  obtain ⟨⟨a, bytes1⟩, ha, h⟩ := Except.bind_eq_ok.1 hdecode
  obtain ⟨⟨b, bytes2⟩, hb, h⟩ := Except.bind_eq_ok.1 h
  cases h
  obtain ⟨hafits, rfl⟩ := hc.sound ha
  obtain ⟨hbfits, rfl⟩ := hd.sound hb
  exact ⟨⟨hafits, hbfits⟩, (List.append_assoc ..).symm⟩

/-! ## Other representations -/

/-- The values are read as `f` says, if it accepts them, and written as `g` says. -/
def convert (c : Codec α) (f : α → Option β) (g : β → α) (message : String)
    (left : ∀ b, f (g b) = some b) : Codec β where
  Fits b := c.Fits (g b)
  encode b := c.encode (g b)
  decode bytes := do
    let (a, bytes) ← c.decode bytes
    match f a with
    | some b => return (b, bytes)
    | none => .error message
  decode_append h rest := by
    simp only [c.decode_append h, Except.ok_bind, left, Except.pure_eq_ok]

theorem Canonical.convert (hc : c.Canonical) {f : α → Option β} {g : β → α} {message : String}
    {left : ∀ b, f (g b) = some b} (right : ∀ a b, c.Fits a → f a = some b → g b = a) :
    (c.convert f g message left).Canonical := by
  constructor
  intro bytes rest b hdecode
  obtain ⟨⟨a, bytes1⟩, ha, h⟩ := Except.bind_eq_ok.1 hdecode
  obtain ⟨hfits, rfl⟩ := hc.sound ha
  cases hf : f a with
  | none =>
    simp only [hf] at h
    cases h
  | some b' =>
    simp only [hf, Except.pure_eq_ok, Except.ok.injEq, Prod.mk.injEq] at h
    obtain ⟨rfl, rfl⟩ := h
    obtain rfl := right a b' hfits hf
    exact ⟨hfits, rfl⟩

/-- The values are read as `f` says and written as `g` says. -/
def map (c : Codec α) (f : α → β) (g : β → α) (left : ∀ b, f (g b) = b) : Codec β :=
  c.convert (fun a => some (f a)) g "" fun b => congrArg some (left b)

@[simp] theorem fits_map {f : α → β} {g : β → α} {left : ∀ b, f (g b) = b} {b : β} :
    (c.map f g left).Fits b ↔ c.Fits (g b) := Iff.rfl

theorem Canonical.map (hc : c.Canonical) {f : α → β} {g : β → α} {left : ∀ b, f (g b) = b}
    (right : ∀ a, c.Fits a → g (f a) = a) : (c.map f g left).Canonical :=
  hc.convert fun a b hfits h => by
    cases h
    exact right a hfits

/-! ## Tagged unions -/

/-- One of `n` alternatives, by its number. -/
def ordinal (width n : ℕ) (message : String) : Codec (Fin n) :=
  (word width).convert (fun k => if h : k < n then some ⟨k, h⟩ else none) Fin.val message
    fun i => dif_pos i.isLt

theorem fits_ordinal {width n : ℕ} (message : String) (hn : n ≤ 256 ^ width) (i : Fin n) :
    (ordinal width n message).Fits i := i.isLt.trans_le hn

theorem canonical_ordinal (width n : ℕ) (message : String) :
    (ordinal width n message).Canonical := by
  apply (canonical_word width).convert
  intro k i _ h
  by_cases hlt : k < n
  · rw [dif_pos hlt] at h
    cases h
    rfl
  · rw [dif_neg hlt] at h
    cases h

/-- A tag of some width, then a value of the format that belongs to the tag. -/
def tagged (width n : ℕ) {γ : Fin n → Type} (cs : ∀ i, Codec (γ i)) (message : String)
    (hn : n ≤ 256 ^ width) : Codec (Σ i, γ i) where
  Fits x := (cs x.1).Fits x.2
  encode x := LittleEndian.encode width x.1 ++ (cs x.1).encode x.2
  decode bytes := do
    let (tag, bytes) ← LittleEndian.decode width bytes
    if h : tag < n then do
      let (a, bytes) ← (cs ⟨tag, h⟩).decode bytes
      return (⟨⟨tag, h⟩, a⟩, bytes)
    else .error message
  decode_append {x} h rest := by
    have htag : (x.1 : ℕ) < 256 ^ width := x.1.isLt.trans_le hn
    simp only [List.append_assoc, decode_encode_append htag, Except.ok_bind, x.1.isLt,
      dif_pos, Fin.eta, (cs x.1).decode_append h, Except.pure_eq_ok]

theorem canonical_tagged {width n : ℕ} {γ : Fin n → Type} {cs : ∀ i, Codec (γ i)}
    {message : String} {hn : n ≤ 256 ^ width} (hcs : ∀ i, (cs i).Canonical) :
    (tagged width n cs message hn).Canonical := by
  constructor
  intro bytes rest x hdecode
  obtain ⟨⟨tag, bytes1⟩, htag, h⟩ := Except.bind_eq_ok.1 hdecode
  obtain ⟨-, rfl⟩ := eq_encode_of_decode htag
  by_cases hlt : tag < n
  · simp only [dif_pos hlt] at h
    obtain ⟨⟨a, bytes2⟩, ha, h⟩ := Except.bind_eq_ok.1 h
    cases h
    obtain ⟨hfits, rfl⟩ := (hcs _).sound ha
    exact ⟨hfits, (List.append_assoc ..).symm⟩
  · simp only [dif_neg hlt] at h
    cases h

/-- Nothing at all. -/
def unit : Codec Unit where
  Fits _ := True
  encode _ := []
  decode bytes := .ok ((), bytes)
  decode_append _ _ := rfl

@[simp] theorem fits_unit (a : Unit) : unit.Fits a := trivial

theorem canonical_unit : unit.Canonical := by
  constructor
  intro bytes rest a h
  cases h
  exact ⟨trivial, rfl⟩

/-! ## Options and lists -/

/-- A tag of one byte, and the value if there is one. -/
def option (c : Codec α) : Codec (Option α) where
  Fits x := ∀ a, x = some a → c.Fits a
  encode
    | none => LittleEndian.encode 1 0
    | some a => LittleEndian.encode 1 1 ++ c.encode a
  decode bytes := do
    let (tag, bytes) ← LittleEndian.decode 1 bytes
    match tag with
    | 0 => return (none, bytes)
    | 1 => do
      let (a, bytes) ← c.decode bytes
      return (some a, bytes)
    | _ => .error "invalid tag encoding"
  decode_append {x} h rest := by
    cases x with
    | none => rfl
    | some a =>
      have htag : 1 < 256 ^ 1 := by decide
      simp only [List.append_assoc, decode_encode_append htag, Except.ok_bind,
        c.decode_append (h a rfl), Except.pure_eq_ok]

@[simp] theorem fits_option {x : Option α} :
    c.option.Fits x ↔ ∀ a, x = some a → c.Fits a := Iff.rfl

theorem Canonical.option (hc : c.Canonical) : c.option.Canonical := by
  constructor
  intro bytes rest x hdecode
  obtain ⟨⟨tag, bytes1⟩, htag, h⟩ := Except.bind_eq_ok.1 hdecode
  obtain ⟨-, rfl⟩ := eq_encode_of_decode htag
  match tag, h with
  | 0, h =>
    cases h
    exact ⟨fun a ha => (by cases ha), rfl⟩
  | 1, h =>
    obtain ⟨⟨a, bytes2⟩, ha, h⟩ := Except.bind_eq_ok.1 h
    cases h
    obtain ⟨hfits, rfl⟩ := hc.sound ha
    refine ⟨fun b hb => ?_, (List.append_assoc ..).symm⟩
    cases hb
    exact hfits
  | _ + 2, h => cases h

/-- Values one after the other, as many as expected. -/
def many (c : Codec α) (n : ℕ) : Codec (List α) where
  Fits as := as.length = n ∧ ∀ a ∈ as, c.Fits a
  encode as := as.flatMap c.encode
  decode := decodeMany c.decode n
  decode_append {as} h rest := by
    obtain ⟨rfl, h⟩ := h
    induction as with
    | nil => rfl
    | cons a as ih =>
      rw [List.forall_mem_cons] at h
      simp only [List.length_cons, decodeMany, List.flatMap_cons, List.append_assoc,
        c.decode_append h.1, ih h.2]

theorem Canonical.many (hc : c.Canonical) (n : ℕ) : (c.many n).Canonical := by
  induction n with
  | zero =>
    constructor
    intro bytes rest as h
    cases h
    exact ⟨⟨rfl, fun a ha => (by cases ha)⟩, rfl⟩
  | succ n ih =>
    constructor
    intro bytes rest as h
    have h : decodeMany c.decode (n + 1) bytes = .ok (as, rest) := h
    rw [decodeMany] at h
    cases hone : c.decode bytes with
    | error e =>
      rw [hone] at h
      cases h
    | ok x =>
      obtain ⟨a, bytes1⟩ := x
      rw [hone] at h
      cases hmany : decodeMany c.decode n bytes1 with
      | error e =>
        simp only [hmany] at h
        cases h
      | ok y =>
        obtain ⟨as', bytes2⟩ := y
        simp only [hmany] at h
        cases h
        obtain ⟨hfits, rfl⟩ := hc.sound hone
        obtain ⟨⟨hlen, hall⟩, rfl⟩ := ih.sound hmany
        refine ⟨⟨congrArg (· + 1) hlen, List.forall_mem_cons.2 ⟨hfits, hall⟩⟩, ?_⟩
        exact (List.append_assoc ..).symm

/-- A length of some width, then as many values. -/
def list (width : ℕ) (c : Codec α) : Codec (List α) where
  Fits as := as.length < 256 ^ width ∧ ∀ a ∈ as, c.Fits a
  encode as := LittleEndian.encode width as.length ++ as.flatMap c.encode
  decode bytes := do
    let (length, bytes) ← LittleEndian.decode width bytes
    decodeMany c.decode length bytes
  decode_append {as} h rest := by
    have hmany : decodeMany c.decode as.length (as.flatMap c.encode ++ rest) = .ok (as, rest) :=
      (c.many as.length).decode_append ⟨rfl, h.2⟩ rest
    simp only [List.append_assoc, decode_encode_append h.1, Except.ok_bind, hmany]

theorem Canonical.list (hc : c.Canonical) (width : ℕ) : (list width c).Canonical := by
  constructor
  intro bytes rest as hdecode
  obtain ⟨⟨length, bytes1⟩, hlength, h⟩ := Except.bind_eq_ok.1 hdecode
  obtain ⟨hlt, rfl⟩ := eq_encode_of_decode hlength
  obtain ⟨⟨hlen, hall⟩, rfl⟩ := (hc.many length).sound h
  subst hlen
  exact ⟨⟨hlt, hall⟩, (List.append_assoc ..).symm⟩

end Codec
