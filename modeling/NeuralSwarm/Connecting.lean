import NeuralSwarm.Transport

/-!
# A call of `connect_to_cluster`

The client reads at most two items of its stream.  Whatever they are, the call ends with a cluster
key of 32 bytes or an error, unless the server, which knows the session key, seals a cluster key of
another length: `copy_from_slice` then panics.
-/

namespace NeuralSwarm

variable {F P S B : Type}

namespace Client

/-- `read.next()` on what the server sends before the stream ends. -/
def next : List (Received F P B) → Received F P B × List (Received F P B)
  | [] => (.ended, [])
  | received :: stream => (received, stream)

/-- The call as a whole; `sent` tells whether the client's two messages could be sent. -/
def connectToCluster (crypto : Crypto S B) (sharedSecret : String) (mySecret : S)
    (profile : NodeProfile) (status : NodeStatus F) (sent : Bool) (stream : List (Received F P B)) :
    Client F B :=
  let (first, stream) := next stream
  match (awaitingChallenge profile status).receive crypto sharedSecret mySecret first with
  | (client, []) => client
  | (client, _ :: _) =>
    if sent then (client.receive crypto sharedSecret mySecret (next stream).1).1
    else .failed "the message could not be sent"

/-- The call ended in `Ok` with a key of 32 bytes, or in `Err`. -/
def EndedWell : Client F Bytes → Prop
  | connected clusterKey => clusterKey.length = 32
  | failed _ => True
  | _ => False

variable (prim : Primitives S) (sharedSecret : String) (mySecret : S)

/-- The server sends a challenge and then a cluster key that opens but has not the length of one. -/
def SealsOtherLength : List (Received F P Bytes) → Prop
  | .message (.authChallenge nonce masterPublic) ::
      .message (.joinResponse _ _ encryptedClusterKey) :: _ =>
    ∃ key, prim.crypto.decryptWithAad encryptedClusterKey
        (prim.crypto.deriveSessionKey mySecret masterPublic nonce)
        (prim.crypto.asBytes clusterKeyAad) = .ok key ∧ key.length ≠ 32
  | _ => False

/-- Once the client has answered the challenge, a key of another length is all that can go wrong. -/
theorem endedWell_receive_iff (sessionKey : Bytes) (received : Received F P Bytes) :
    ((awaitingJoin sessionKey).receive prim.crypto sharedSecret mySecret received).1.EndedWell ↔
      ∀ assignedLayers totalLayers encryptedClusterKey key,
        received = .message (.joinResponse assignedLayers totalLayers encryptedClusterKey) →
        prim.crypto.decryptWithAad encryptedClusterKey sessionKey
          (prim.crypto.asBytes clusterKeyAad) = .ok key → key.length = 32 := by
  cases received with
  | message msg =>
    cases msg with
    | joinResponse assignedLayers totalLayers encryptedClusterKey =>
      simp only [receive, Received.message.injEq, SwarmMessage.joinResponse.injEq]
      cases hdec : prim.crypto.decryptWithAad encryptedClusterKey sessionKey
        (prim.crypto.asBytes clusterKeyAad) with
      | error e =>
        refine ⟨?_, fun _ => trivial⟩
        rintro - _ _ _ key ⟨rfl, rfl, rfl⟩ hkey
        rw [hdec] at hkey
        cases hkey
      | ok dec =>
        have hkey : prim.crypto.isKey dec = true ↔ dec.length = 32 := by simp [Primitives.crypto]
        constructor
        · rintro hended _ _ _ key ⟨rfl, rfl, rfl⟩ hok
          rw [hdec] at hok
          cases hok
          by_contra hlen
          simp only [if_neg (mt hkey.1 hlen)] at hended
          exact hended
        · intro h
          have hlen : dec.length = 32 := h _ _ _ dec ⟨rfl, rfl, rfl⟩ hdec
          simp only [if_pos (hkey.2 hlen)]
          exact hlen
    | _ => simp [receive, EndedWell]
  | _ => simp [receive, EndedWell]

/-- The call ends in `Ok` with a key of 32 bytes or in `Err`, whatever the server sends, unless the
client's messages are sent and the server answers with a sealed key of another length. -/
theorem endedWell_connectToCluster_iff (profile : NodeProfile) (status : NodeStatus F) (sent : Bool)
    (stream : List (Received F P Bytes)) :
    (connectToCluster prim.crypto sharedSecret mySecret profile status sent stream).EndedWell ↔
      ¬ (sent = true ∧ SealsOtherLength prim mySecret stream) := by
  rcases stream with _ | ⟨first, stream⟩
  · simp [connectToCluster, next, receive, EndedWell, SealsOtherLength]
  · cases first with
    | message msg =>
      cases msg with
      | authChallenge nonce masterPublic =>
        cases sent with
        | false => simp [connectToCluster, next, receive, EndedWell]
        | true =>
          have hjoin := endedWell_receive_iff prim sharedSecret mySecret
            (prim.crypto.deriveSessionKey mySecret masterPublic nonce) (next stream).1
          refine Iff.trans hjoin ⟨?_, ?_⟩
          · rintro h ⟨-, hseals⟩
            unfold SealsOtherLength at hseals
            split at hseals
            · rename_i heq
              cases heq
              obtain ⟨key, hkey, hlen⟩ := hseals
              exact hlen (h _ _ _ key rfl hkey)
            · exact hseals
          · rintro h assignedLayers totalLayers encryptedClusterKey key hnext hkey
            by_contra hlen
            refine h ⟨rfl, ?_⟩
            rcases stream with _ | ⟨second, stream⟩
            · cases hnext
            · obtain rfl : second = _ := hnext
              exact ⟨key, hkey, hlen⟩
      | _ => simp [connectToCluster, next, receive, EndedWell, SealsOtherLength]
    | _ => simp [connectToCluster, next, receive, EndedWell, SealsOtherLength]

/-! ## A cluster key of one byte -/

/-- What a server sends whose cluster key has one byte. -/
def shortKeyStream : List (Received Float32 Ed25519PeerId Bytes) :=
  let nonce := List.replicate 32 1
  let sessionKey := Primitives.reference.crypto.deriveSessionKey () nonce nonce
  [.message (.authChallenge nonce nonce),
    .message ((SwarmMessage.joinResponse [0, 1] 2 []).withClusterKey Primitives.reference.crypto
      (fun _ => 0) [7] sessionKey)]

theorem not_endedWell_shortKey :
    connectToCluster Primitives.reference.crypto "secret" () (makeProfile "host-a" .desktop)
        (makeStatus 0.2 2048) true shortKeyStream = .panicked ∧
      ¬ (connectToCluster Primitives.reference.crypto "secret" () (makeProfile "host-a" .desktop)
        (makeStatus 0.2 2048) true shortKeyStream).EndedWell := by
  have hpanicked : connectToCluster Primitives.reference.crypto "secret" ()
      (makeProfile "host-a" .desktop) (makeStatus 0.2 2048) true shortKeyStream = .panicked := by
    decide +kernel
  exact ⟨hpanicked, by rw [hpanicked]; exact id⟩

end Client

end NeuralSwarm
