import Mathlib.Data.Set.Basic
import Mathlib.Data.Sym.Sym2

/-!
# Symbolic messages and what an intruder deduces from them

Terms over atoms `α` and Diffie-Hellman secrets `κ`, with ideal primitives: nothing but the rules of
`Derives` yields a term.  `Harmless` is the closure argument against it: a predicate by recursion on
terms that every rule preserves, so that what is not harmless is not derivable.  `Authentic` is the
same argument for ciphertexts: what is sealed under a key that stays secret has been issued.
-/

namespace Symbolic

inductive Term (α κ : Type)
  | atom (a : α)
  | publicKey (secret : κ)
  /-- The Diffie-Hellman value of two key pairs. -/
  | sharedPoint (secrets : Sym2 κ)
  /-- The Diffie-Hellman value of a secret and bytes that are no public key. -/
  | sharedWith (secret : κ) (point : Term α κ)
  | mac (key message : Term α κ)
  | kdf (input salt info : Term α κ)
  | sealed (iv key aad message : Term α κ)
  /-- An encoding that everybody can invert. -/
  | packed (message : Term α κ)
  | pair (fst snd : Term α κ)
  deriving DecidableEq

namespace Term

variable {α κ : Type}

/-- The Diffie-Hellman value of a secret and what is given as the public key of the other side. -/
def diffieHellman (secret : κ) : Term α κ → Term α κ
  | publicKey other => sharedPoint s(secret, other)
  | point => sharedWith secret point

/-- Both sides of an exchange of public keys obtain the same value. -/
theorem diffieHellman_comm (a b : κ) :
    diffieHellman a (publicKey b : Term α κ) = diffieHellman b (publicKey a) :=
  congrArg sharedPoint Sym2.eq_swap

end Term

variable {α κ : Type}

/-- What an intruder can derive who knows the `known` terms and the atoms in `isPublic`, and whose
own secrets are those in `owned`. -/
inductive Derives (isPublic : α → Prop) (owned : κ → Prop) (known : Set (Term α κ)) :
    Term α κ → Prop
  | known {t : Term α κ} : t ∈ known → Derives isPublic owned known t
  | atom {a : α} : isPublic a → Derives isPublic owned known (.atom a)
  | publicKey {k : κ} : owned k → Derives isPublic owned known (.publicKey k)
  | diffieHellman {k : κ} {point : Term α κ} : owned k → Derives isPublic owned known point →
      Derives isPublic owned known (point.diffieHellman k)
  | mac {key message : Term α κ} : Derives isPublic owned known key →
      Derives isPublic owned known message → Derives isPublic owned known (.mac key message)
  | kdf {input salt info : Term α κ} : Derives isPublic owned known input →
      Derives isPublic owned known salt → Derives isPublic owned known info →
      Derives isPublic owned known (.kdf input salt info)
  | encrypt {iv key aad message : Term α κ} : Derives isPublic owned known iv →
      Derives isPublic owned known key → Derives isPublic owned known aad →
      Derives isPublic owned known message →
      Derives isPublic owned known (.sealed iv key aad message)
  | decrypt {iv key aad message : Term α κ} :
      Derives isPublic owned known (.sealed iv key aad message) →
      Derives isPublic owned known key → Derives isPublic owned known message
  | pack {message : Term α κ} : Derives isPublic owned known message →
      Derives isPublic owned known (.packed message)
  | unpack {message : Term α κ} : Derives isPublic owned known (.packed message) →
      Derives isPublic owned known message
  | pair {fst snd : Term α κ} : Derives isPublic owned known fst →
      Derives isPublic owned known snd → Derives isPublic owned known (.pair fst snd)
  | fst {fst snd : Term α κ} : Derives isPublic owned known (.pair fst snd) →
      Derives isPublic owned known fst
  | snd {fst snd : Term α κ} : Derives isPublic owned known (.pair fst snd) →
      Derives isPublic owned known snd

variable {isPublic secret : α → Prop} {owned : κ → Prop} {known issued : Set (Term α κ)}

/-- A term gives away no secret atom, provided that the `issued` codes are the only ones under keys
that are not harmless themselves. -/
def Harmless (secret : α → Prop) (owned : κ → Prop) (issued : Set (Term α κ)) : Term α κ → Prop
  | .atom a => ¬ secret a
  | .publicKey _ => True
  | .sharedPoint secrets => ∃ k ∈ secrets, owned k
  | .sharedWith k _ => owned k
  | .mac key message => .mac key message ∈ issued ∨ Harmless secret owned issued key
  | .kdf input _ _ => Harmless secret owned issued input
  | .sealed _ key _ message =>
    Harmless secret owned issued key → Harmless secret owned issued message
  | .packed message => Harmless secret owned issued message
  | .pair fst snd => Harmless secret owned issued fst ∧ Harmless secret owned issued snd

/-- The Diffie-Hellman value of a secret is harmless exactly if one of the two secrets is owned. -/
theorem harmless_diffieHellman {k : κ} {point : Term α κ} :
    Harmless secret owned issued (point.diffieHellman k) ↔
      owned k ∨ ∃ other, point = .publicKey other ∧ owned other := by
  cases point with
  | publicKey other => simp [Term.diffieHellman, Harmless]
  | _ => simp [Term.diffieHellman, Harmless]

/-- From harmless terms only harmless terms are derivable. -/
theorem Derives.harmless (hpublic : ∀ a, isPublic a → ¬ secret a)
    (hknown : ∀ t ∈ known, Harmless secret owned issued t) {t : Term α κ}
    (h : Derives isPublic owned known t) : Harmless secret owned issued t := by
  induction h with
  | known h => exact hknown _ h
  | atom h => exact hpublic _ h
  | publicKey _ => trivial
  | diffieHellman h _ _ => exact harmless_diffieHellman.2 (.inl h)
  | mac _ _ ihkey _ => exact .inr ihkey
  | kdf _ _ _ ihinput _ _ => exact ihinput
  | encrypt _ _ _ _ _ _ _ ihmessage => exact fun _ => ihmessage
  | decrypt _ _ ihsealed ihkey => exact ihsealed ihkey
  | pack _ ih => exact ih
  | unpack _ ih => exact ih
  | pair _ _ ihfst ihsnd => exact ⟨ihfst, ihsnd⟩
  | fst _ ih => exact ih.1
  | snd _ ih => exact ih.2

/-- Nobody forges a code under a secret key: what can be derived has been issued. -/
theorem Derives.mem_issued (hpublic : ∀ a, isPublic a → ¬ secret a)
    (hknown : ∀ t ∈ known, Harmless secret owned issued t) {a : α} (ha : secret a)
    {message : Term α κ} (h : Derives isPublic owned known (.mac (.atom a) message)) :
    .mac (.atom a) message ∈ issued :=
  (h.harmless hpublic hknown).resolve_right fun hkey => hkey ha

/-! ## Ciphertexts -/

/-- A term exposes ciphertexts that have been `issued`, or whose key and message it may expose as
well, and no secret atom. -/
def Authentic (secret : α → Prop) (issued : Set (Term α κ)) : Term α κ → Prop
  | .atom a => ¬ secret a
  | .publicKey _ | .sharedPoint _ | .sharedWith .. | .mac .. | .kdf .. => True
  | .sealed iv key aad message =>
    .sealed iv key aad message ∈ issued ∨
      Authentic secret issued key ∧ Authentic secret issued message
  | .packed message => Authentic secret issued message
  | .pair fst snd => Authentic secret issued fst ∧ Authentic secret issued snd

theorem Authentic.mono {issued' : Set (Term α κ)} (hsub : issued ⊆ issued') {t : Term α κ}
    (h : Authentic secret issued t) : Authentic secret issued' t := by
  induction t with
  | atom | publicKey | sharedPoint | sharedWith | mac | kdf => exact h
  | sealed iv key aad message _ ihkey _ ihmessage =>
    exact h.imp (@hsub _) fun h => ⟨ihkey h.1, ihmessage h.2⟩
  | packed message ih => exact ih h
  | pair fst snd ihfst ihsnd => exact ⟨ihfst h.1, ihsnd h.2⟩

/-- From authentic terms only authentic terms are derivable, provided that what has been issued is
under keys that are not exposed. -/
theorem Derives.authentic (hpublic : ∀ a, isPublic a → ¬ secret a)
    (hissued : ∀ iv key aad message, .sealed iv key aad message ∈ issued →
      ¬ Authentic secret issued key)
    (hknown : ∀ t ∈ known, Authentic secret issued t) {t : Term α κ}
    (h : Derives isPublic owned known t) : Authentic secret issued t := by
  induction h with
  | known h => exact hknown _ h
  | atom h => exact hpublic _ h
  | publicKey | mac | kdf => trivial
  | @diffieHellman k point _ _ _ => cases point <;> trivial
  | encrypt _ _ _ _ _ ihkey _ ihmessage => exact .inr ⟨ihkey, ihmessage⟩
  | decrypt _ _ ihsealed ihkey =>
    rcases ihsealed with hmem | ⟨-, hmessage⟩
    · exact absurd ihkey (hissued _ _ _ _ hmem)
    · exact hmessage
  | pack _ ih => exact ih
  | unpack _ ih => exact ih
  | pair _ _ ihfst ihsnd => exact ⟨ihfst, ihsnd⟩
  | fst _ ih => exact ih.1
  | snd _ ih => exact ih.2

/-- Nobody forges a ciphertext under a secret key. -/
theorem Authentic.sealed_mem_issued {a : α} {iv aad message : Term α κ}
    (h : Authentic secret issued (.sealed iv (.atom a) aad message)) (ha : secret a) :
    .sealed iv (.atom a) aad message ∈ issued :=
  h.resolve_right fun hkey => hkey.1 ha

end Symbolic
