import Mathlib.Algebra.Order.Ring.Nat
import Mathlib.Data.List.Basic

/-!
# Peer ids

The text form of libp2p peer ids: parsing, printing, and what the library documents about the two.
-/

namespace NeuralSwarm

/-- Peer ids `P` with `FromStr` and `Display`; a peer id prints as the text it was read from. -/
structure PeerIds (P : Type) where
  parse : String → Except String P
  toString : P → String
  toString_of_parse : ∀ {s p}, parse s = .ok p → toString p = s

namespace PeerIds

variable {P : Type} (ids : PeerIds P)

/-- The string is the text of a peer id. -/
def Valid (s : String) : Prop := ∃ p, ids.parse s = .ok p

instance (s : String) : Decidable (ids.Valid s) :=
  match h : ids.parse s with
  | .ok p => .isTrue ⟨p, h⟩
  | .error _ => .isFalse fun ⟨_, hp⟩ => by rw [h] at hp; cases hp

/-- The peer ids among some strings, in order: `filter_map` over `parse().ok()`. -/
def parseAll (texts : List String) : List P := texts.filterMap fun s => (ids.parse s).toOption

theorem mem_parseAll_iff {texts : List String} {p : P} :
    p ∈ ids.parseAll texts ↔ ∃ s ∈ texts, ids.parse s = .ok p := by
  simp only [parseAll, List.mem_filterMap]
  refine exists_congr fun s => and_congr_right fun _ => ?_
  cases ids.parse s <;> simp [Except.toOption]

/-- Nothing is dropped when every string is valid. -/
theorem exists_parseAll {α : Type} {text : α → String} {xs : List α}
    (valid : ∀ x ∈ xs, ids.Valid (text x)) :
    ∃ pairs : List (P × α), pairs.map (·.2) = xs ∧
      pairs.map (·.1) = ids.parseAll (xs.map text) ∧
      ∀ pair ∈ pairs, ids.parse (text pair.2) = .ok pair.1 := by
  induction xs with
  | nil => exact ⟨[], rfl, rfl, fun _ h => by cases h⟩
  | cons x xs ih =>
    obtain ⟨p, hp⟩ := valid x (List.mem_cons_self ..)
    obtain ⟨pairs, hsnd, hfst, hparse⟩ := ih fun y hy => valid y (List.mem_cons_of_mem _ hy)
    refine ⟨(p, x) :: pairs, by rw [List.map_cons, hsnd], ?_, ?_⟩
    · rw [List.map_cons, hfst]
      simp only [parseAll, List.map_cons, List.filterMap_cons, hp, Except.toOption]
    · exact List.forall_mem_cons.2 ⟨hp, hparse⟩

end PeerIds

/-! ## Peer ids of Ed25519 keys -/

/-- The value of a base58 digit: digits, then capitals, then small letters, without `0OIl`. -/
def base58Digit (c : Char) : Option ℕ :=
  let n := c.toNat
  if 49 ≤ n ∧ n ≤ 57 then some (n - 49)
  else if 65 ≤ n ∧ n ≤ 72 then some (n - 56)
  else if 74 ≤ n ∧ n ≤ 78 then some (n - 57)
  else if 80 ≤ n ∧ n ≤ 90 then some (n - 58)
  else if 97 ≤ n ∧ n ≤ 107 then some (n - 64)
  else if 109 ≤ n ∧ n ≤ 122 then some (n - 65)
  else none

/-- The number written by some base58 digits. -/
def base58Value (digits : List Char) : Option ℕ :=
  digits.foldlM (fun n c => (base58Digit c).map fun d => n * 58 + d) 0

/-- The base58 text of a zero byte, the bytes `24 08 01 12 20` and the 32 bytes of a key. -/
def isEd25519Text (s : String) : Bool :=
  match s.toList with
  | '1' :: digits =>
    digits.head? != some '1' &&
      (base58Value digits).any fun n => n / 2 ^ 256 == 0x2408011220
  | _ => false

def Ed25519PeerId : Type := { s : String // isEd25519Text s = true }

instance : DecidableEq Ed25519PeerId := inferInstanceAs (DecidableEq (Subtype _))

/-- The peer ids of Ed25519 keys, each represented by its text. -/
def PeerIds.ed25519 : PeerIds Ed25519PeerId where
  parse s := if h : isEd25519Text s = true then .ok ⟨s, h⟩ else .error "invalid multihash"
  toString p := p.1
  toString_of_parse {s p} h := by
    split at h
    · cases h; rfl
    · cases h

end NeuralSwarm
