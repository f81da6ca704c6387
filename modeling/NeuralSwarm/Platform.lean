import NeuralSwarm.Crypto
import NeuralSwarm.PeerIds

/-!
# The platform

The two foreign parts of the program, peer ids and cryptography, taken together.  `reference` is a
platform to compute with: Ed25519 peer ids, sealing that writes key, nonce and associated data in
front of the message and refuses to open under others, and compression that stores.
-/

namespace NeuralSwarm

/-- What the program takes from libp2p and from its crypto module. -/
structure Platform (P S B : Type) where
  peerIds : PeerIds P
  crypto : Crypto S B

/-- The platform of the crypto module over some crates. -/
def Primitives.platform {P S : Type} (prim : Primitives S) (ids : PeerIds P) :
    Platform P S Bytes :=
  { peerIds := ids, crypto := prim.crypto }

def Primitives.reference : Primitives Unit where
  hmacSha256 key message := key ++ message
  x25519PublicKey _ := List.replicate 32 9
  diffieHellman _ theirs := theirs
  hkdfSha256 salt ikm info length := (salt ++ ikm ++ info).take length
  zstdCompress data _ := .ok data
  zstdDecompress data capacity :=
    if data.length ≤ capacity then .ok data else .error "Destination buffer is too small"
  aes256GcmEncrypt key nonce aad message := .ok (key ++ nonce ++ aad ++ message)
  aes256GcmDecrypt key nonce aad ciphertext :=
    if (key ++ nonce ++ aad).isPrefixOf ciphertext then
      .ok (ciphertext.drop (key ++ nonce ++ aad).length)
    else .error "aead::Error"

theorem Primitives.reference_lawful : reference.Lawful where
  zstd_roundTrip data := ⟨data, rfl, fun _ hlen => if_pos hlen⟩
  aes_roundTrip key nonce aad message := by
    refine ⟨_, rfl, ?_⟩
    have hprefix : (key ++ nonce ++ aad).isPrefixOf (key ++ nonce ++ aad ++ message) = true :=
      List.isPrefixOf_iff_prefix.2 (List.prefix_append ..)
    simp only [reference, hprefix, if_true, List.drop_left]

def Platform.reference : Platform Ed25519PeerId Unit Bytes := Primitives.reference.platform .ed25519

/-! ## Two peers -/

def peerA : String := "12D3KooWHEZ3YnZWcqrE91bnCGJZsUS3njYBJEh7QGK3NwzrGEKn"

def peerB : String := "12D3KooWEvsVGaYUFhsVU2uM3LNs7Nh9jtrx6v42bRYyChesXFKX"

end NeuralSwarm
