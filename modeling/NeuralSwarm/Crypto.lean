import Mathlib.Data.List.Basic

/-!
# Cryptography and compression

`Crypto S B` collects the functions of the crypto module that the rest of the program calls, for
X25519 secrets `S` and byte strings `B`.  `Primitives` are the functions of the third-party crates
and `Primitives.crypto` is the module itself, over lists of bytes.  Randomness is an argument: the
bytes that the generator hands out.
-/

namespace NeuralSwarm

abbrev Bytes := List UInt8

/-- The stream of bytes that the random number generator hands out. -/
abbrev Entropy := ℕ → UInt8

/-- `fill_bytes` into an array of length `n`. -/
def Entropy.fillBytes (rng : Entropy) (n : ℕ) : Bytes := (List.range n).map rng

@[simp] theorem Entropy.length_fillBytes (rng : Entropy) (n : ℕ) :
    (rng.fillBytes n).length = n := by simp [Entropy.fillBytes]

/-- The crypto module as its callers see it. -/
structure Crypto (S B : Type) where
  /-- `str::as_bytes`. -/
  asBytes : String → B
  empty : B
  isEmpty : B → Bool
  /-- Whether a byte string has the 32 bytes of a key. -/
  isKey : B → Bool
  signHmac (nonce : B) (secret : String) : B
  verifyHmac (nonce : B) (secret : String) (receivedHash : B) : Bool
  /-- The public half of a key pair. -/
  publicKey : S → B
  deriveSessionKey (mySecret : S) (theirPublic salt : B) : B
  compress : B → Except String B
  decompress : B → Except String B
  encryptWithAad (rng : Entropy) (data key aad : B) : Except String B
  decryptWithAad (data key aad : B) : Except String B

namespace Crypto

variable {S B : Type} (crypto : Crypto S B)

/-- Compresses a hidden state and encrypts it with the task id as associated data. -/
def sealState (rng : Entropy) (key : B) (taskId : String) (state : B) : Except String B :=
  match crypto.compress state with
  | .error e => .error e
  | .ok compressed =>
    match crypto.encryptWithAad rng compressed key (crypto.asBytes taskId) with
    | .error e => .error ("Encryption failed: " ++ e)
    | .ok encrypted => .ok encrypted

/-- Decrypts a hidden state and decompresses it. -/
def openState (key : B) (taskId : String) (inputState : B) : Except String B :=
  match crypto.decryptWithAad inputState key (crypto.asBytes taskId) with
  | .error e => .error ("Decryption failed: " ++ e)
  | .ok decrypted => crypto.decompress decrypted

end Crypto

/-- The functions of the crates `hmac`, `x25519_dalek`, `hkdf`, `zstd` and `aes_gcm`. -/
structure Primitives (S : Type) where
  hmacSha256 (key message : Bytes) : Bytes
  x25519PublicKey : S → Bytes
  diffieHellman : S → Bytes → Bytes
  hkdfSha256 (salt ikm info : Bytes) (length : ℕ) : Bytes
  zstdCompress (data : Bytes) (level : ℕ) : Except String Bytes
  zstdDecompress (data : Bytes) (capacity : ℕ) : Except String Bytes
  aes256GcmEncrypt (key nonce aad message : Bytes) : Except String Bytes
  aes256GcmDecrypt (key nonce aad ciphertext : Bytes) : Except String Bytes

namespace Primitives

variable {S : Type} (prim : Primitives S)

/-- The decompression limit against zip bombs, 256 MiB. -/
def decompressLimit : ℕ := 256 * 1024 * 1024

def encryptWithAad (rng : Entropy) (data key aad : Bytes) : Except String Bytes :=
  let nonceBytes := rng.fillBytes 12
  match prim.aes256GcmEncrypt key nonceBytes aad data with
  | .error e => .error ("Encryption failed: " ++ e)
  | .ok ciphertext => .ok (nonceBytes ++ ciphertext)

def decryptWithAad (data key aad : Bytes) : Except String Bytes :=
  if data.length < 12 then .error "Data too short for decryption"
  else
    let (nonceBytes, ciphertext) := data.splitAt 12
    match prim.aes256GcmDecrypt key nonceBytes aad ciphertext with
    | .error e => .error ("Decryption failed: " ++ e)
    | .ok message => .ok message

/-- The crypto module over the crates it uses. -/
def crypto : Crypto S Bytes where
  asBytes s := s.toUTF8.toList
  empty := []
  isEmpty := List.isEmpty
  isKey b := b.length == 32
  signHmac nonce secret := prim.hmacSha256 secret.toUTF8.toList nonce
  verifyHmac nonce secret receivedHash :=
    prim.hmacSha256 secret.toUTF8.toList nonce == receivedHash
  publicKey := prim.x25519PublicKey
  deriveSessionKey mySecret theirPublic salt :=
    prim.hkdfSha256 salt (prim.diffieHellman mySecret theirPublic)
      "neural-swarm-ai-v0.2-session".toUTF8.toList 32
  compress data := prim.zstdCompress data 3
  decompress data := prim.zstdDecompress data decompressLimit
  encryptWithAad := prim.encryptWithAad
  decryptWithAad := prim.decryptWithAad

/-- What the crates document: decompression recovers what fits its capacity, and decryption under
the same key, nonce and associated data undoes encryption. -/
structure Lawful : Prop where
  zstd_roundTrip : ∀ data, ∃ compressed, prim.zstdCompress data 3 = .ok compressed ∧
    ∀ capacity, data.length ≤ capacity → prim.zstdDecompress compressed capacity = .ok data
  aes_roundTrip : ∀ key nonce aad message, ∃ ciphertext,
    prim.aes256GcmEncrypt key nonce aad message = .ok ciphertext ∧
      prim.aes256GcmDecrypt key nonce aad ciphertext = .ok message

variable {prim}

theorem decryptWithAad_nonce_append (nonceBytes ciphertext key aad : Bytes)
    (hlen : nonceBytes.length = 12) :
    prim.decryptWithAad (nonceBytes ++ ciphertext) key aad =
      match prim.aes256GcmDecrypt key nonceBytes aad ciphertext with
      | .error e => .error ("Decryption failed: " ++ e)
      | .ok message => .ok message := by
  unfold decryptWithAad
  rw [if_neg (by rw [List.length_append]; omega), List.splitAt_eq]
  simp only [← hlen, List.take_left, List.drop_left]

theorem isEmpty_nonce_append (rng : Entropy) (ciphertext : Bytes) :
    prim.crypto.isEmpty (rng.fillBytes 12 ++ ciphertext) = false := by
  show List.isEmpty (rng.fillBytes 12 ++ ciphertext) = false
  refine List.isEmpty_eq_false_iff.2 fun h => ?_
  have hlen := congrArg List.length h
  rw [List.length_append, rng.length_fillBytes, List.length_nil] at hlen
  omega

/-- Sealing accepts every message; what it returns is not empty and opens to the message. -/
theorem Lawful.encrypt_decrypt (lawful : prim.Lawful) (rng : Entropy) (data key aad : Bytes) :
    ∃ sealed, prim.crypto.encryptWithAad rng data key aad = .ok sealed ∧
      prim.crypto.isEmpty sealed = false ∧
      prim.crypto.decryptWithAad sealed key aad = .ok data := by
  obtain ⟨ciphertext, henc, hdec⟩ := lawful.aes_roundTrip key (rng.fillBytes 12) aad data
  refine ⟨rng.fillBytes 12 ++ ciphertext, ?_, ?_, ?_⟩
  · simp only [crypto, encryptWithAad, henc]
  · exact isEmpty_nonce_append rng ciphertext
  · simp only [crypto, decryptWithAad_nonce_append _ _ _ _ (rng.length_fillBytes 12), hdec]

theorem Lawful.compress_decompress (lawful : prim.Lawful) {data : Bytes}
    (hlen : data.length ≤ decompressLimit) :
    ∃ compressed, prim.crypto.compress data = .ok compressed ∧
      prim.crypto.decompress compressed = .ok data := by
  obtain ⟨compressed, hc, hd⟩ := lawful.zstd_roundTrip data
  exact ⟨compressed, hc, hd _ hlen⟩

theorem Lawful.exists_seal (lawful : prim.Lawful) (rng : Entropy) (key : Bytes) (taskId : String)
    (state : Bytes) : ∃ sealed, prim.crypto.sealState rng key taskId state = .ok sealed := by
  obtain ⟨compressed, hc, -⟩ := lawful.zstd_roundTrip state
  obtain ⟨sealed, he, -⟩ := lawful.encrypt_decrypt rng compressed key (prim.crypto.asBytes taskId)
  have hc : prim.crypto.compress state = .ok compressed := hc
  exact ⟨sealed, by simp only [Crypto.sealState, hc, he]⟩

/-- A state within the decompression limit survives sealing. -/
theorem Lawful.seal_open (lawful : prim.Lawful) (rng : Entropy) (key : Bytes) (taskId : String)
    {state : Bytes} (hlen : state.length ≤ decompressLimit) :
    ∃ sealed, prim.crypto.sealState rng key taskId state = .ok sealed ∧
      prim.crypto.isEmpty sealed = false ∧
      prim.crypto.openState key taskId sealed = .ok state := by
  obtain ⟨compressed, hc, hd⟩ := lawful.compress_decompress hlen
  obtain ⟨sealed, he, hne, hdec⟩ :=
    lawful.encrypt_decrypt rng compressed key (prim.crypto.asBytes taskId)
  refine ⟨sealed, ?_, hne, ?_⟩
  · simp only [Crypto.sealState, hc, he]
  · simp only [Crypto.openState, hdec, hd]

end Primitives

end NeuralSwarm
