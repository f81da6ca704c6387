import NeuralSwarm.Basic.Deduction
import NeuralSwarm.Connections

/-!
# The handshake against the network

Honest clients and the honest server run over symbolic messages; an attacker without their shared
secret delivers to them what it can derive from the messages sent so far.  The token hash of an
`AuthResponse` binds the nonce only, so the attacker can put a public key of its own beside the hash
of an honest client; without that substitution the cluster key stays secret in every run.
-/

namespace NeuralSwarm

open Symbolic

/-! ## Symbolic cryptography -/

inductive Atom
  | bytes (b : Bytes)
  /-- The nonce that the server chose for a socket. -/
  | nonce (socket : ℕ)
  | clusterKey
  deriving DecidableEq

/-- The X25519 secrets: one for each socket of the server and each client, and the attacker's. -/
inductive SecretKey
  | server (socket : ℕ)
  | client (number : ℕ)
  | attacker (number : ℕ)
  deriving DecidableEq

abbrev Message := Term Atom SecretKey

def utf8 (s : String) : Message := .atom (.bytes s.toUTF8.toList)

/-- The crypto module with ideal primitives. -/
def symbolicCrypto : Crypto SecretKey Message where
  asBytes := utf8
  empty := utf8 ""
  isEmpty t := t == utf8 ""
  isKey _ := true
  signHmac nonce secret := .mac (utf8 secret) nonce
  verifyHmac nonce secret receivedHash := .mac (utf8 secret) nonce == receivedHash
  publicKey := .publicKey
  deriveSessionKey mySecret theirPublic salt :=
    .kdf (theirPublic.diffieHellman mySecret) salt (utf8 "neural-swarm-ai-v0.2-session")
  compress t := .ok (.packed t)
  decompress
    | .packed t => .ok t
    | _ => .error "Unknown frame descriptor"
  encryptWithAad rng data key aad := .ok (.sealed (.atom (.bytes (rng.fillBytes 12))) key aad data)
  decryptWithAad data key aad :=
    match data with
    | .sealed _ key' aad' message =>
      if key = key' ∧ aad = aad' then .ok message else .error "Decryption failed: aead::Error"
    | _ => .error "Decryption failed: aead::Error"

def symbolicPlatform {P : Type} (peerIds : PeerIds P) : Platform P SecretKey Message :=
  { peerIds, crypto := symbolicCrypto }

/-! ## The network -/

/-- The byte strings in a message. -/
def SwarmMessage.byteStrings {F P B : Type} : SwarmMessage F P B → List B
  | authChallenge nonce publicKey => [nonce, publicKey]
  | authResponse _ tokenHash publicKey => [tokenHash, publicKey]
  | joinResponse _ _ encryptedClusterKey => [encryptedClusterKey]
  | processTask task => [task.inputState]
  | taskResult result => [result.outputState]
  | nodeAnnounce .. | statusUpdate _ | rebalanceCommand _ | rebalanceAck _ | drainRequest _
  | heartbeat => []

/-- The server, the clients and the byte strings that they have sent. -/
structure Network (F P : Type) where
  server : Server F P SecretKey Message
  clients : List (Client F Message)
  sent : List Message

inductive NetworkEvent (F P : Type)
  | openSocket (challengeSent : Bool)
  | startClient (profile : NodeProfile) (status : NodeStatus F)
  | toServer (socket : ℕ) (received : Received F P Message) (rng : Entropy) (now : Instant)
  | toClient (number : ℕ) (received : Received F P Message)

namespace Network

variable {F P : Type}

def new (total : UInt32) (sharedSecret : String) : Network F P :=
  { server := .new (.new total sharedSecret (.atom .clusterKey)) sharedSecret
    clients := []
    sent := [] }

variable [Scalar F] (peerIds : PeerIds P)

/-- A socket event of the server; what it sends can be read by everybody. -/
def serverStep (net : Network F P) (e : SocketEvent F P SecretKey Message) : Network F P :=
  let (server, response) := net.server.step (symbolicPlatform peerIds) e
  { net with
    server
    sent := net.sent ++ response.toList.flatMap (·.byteStrings) }

def step (net : Network F P) : NetworkEvent F P → Network F P
  | .openSocket challengeSent =>
    let socket := net.server.connections.length
    net.serverStep peerIds (.accept (.atom (.nonce socket)) (.server socket) challengeSent)
  | .startClient profile status =>
    { net with clients := net.clients ++ [.awaitingChallenge profile status] }
  | .toServer socket received rng now => net.serverStep peerIds (.receive socket received rng now)
  | .toClient number received =>
    match net.clients[number]? with
    | none => net
    | some client =>
      let (client, msgs) :=
        client.receive symbolicCrypto net.server.sharedSecret (.client number) received
      { net with
        clients := net.clients.set number client
        sent := net.sent ++ msgs.flatMap (·.byteStrings) }

/-- The network as a machine. -/
def machine : Mealy (Network F P) (NetworkEvent F P) Unit := ⟨fun net e => (net.step peerIds e, ())⟩

end Network

/-! ## The attacker -/

def SecretKey.IsAttackers : SecretKey → Prop
  | attacker _ => True
  | _ => False

instance : ∀ k : SecretKey, Decidable k.IsAttackers
  | .attacker _ => .isTrue trivial
  | .server _ | .client _ => .isFalse id

/-- A public key whose secret the attacker has. -/
def IsAttackersKey : Message → Prop
  | .publicKey k => k.IsAttackers
  | _ => False

instance : ∀ t : Message, Decidable (IsAttackersKey t)
  | .publicKey k => inferInstanceAs (Decidable k.IsAttackers)
  | .atom _ | .sharedPoint _ | .sharedWith .. | .mac .. | .kdf .. | .sealed .. | .packed _
  | .pair .. => .isFalse id

/-- The attacker knows every byte string but the shared secret. -/
def Atom.IsPublic (sharedSecret : String) : Atom → Prop
  | bytes b => b ≠ sharedSecret.toUTF8.toList
  | _ => False

def Atom.IsSecret (sharedSecret : String) : Atom → Prop
  | bytes b => b = sharedSecret.toUTF8.toList
  | nonce _ => False
  | clusterKey => True

/-- What the attacker can derive once some byte strings have been sent. -/
abbrev Attacker.Derives (sharedSecret : String) (sent : List Message) : Message → Prop :=
  Symbolic.Derives (Atom.IsPublic sharedSecret) SecretKey.IsAttackers {t | t ∈ sent}

namespace NetworkEvent

variable {F P : Type}

/-- The byte strings that an event delivers. -/
def delivered : NetworkEvent F P → List Message
  | toServer _ (.message msg) _ _ | toClient _ (.message msg) => msg.byteStrings
  | _ => []

/-- The attacker can cause the event. -/
def Possible (net : Network F P) (e : NetworkEvent F P) : Prop :=
  ∀ t ∈ e.delivered, Attacker.Derives net.server.sharedSecret net.sent t

/-- The token hash and the public key of an `AuthResponse` that an event delivers. -/
def credentials : NetworkEvent F P → Option (Message × Message)
  | toServer _ (.message (.authResponse _ tokenHash publicKey)) _ _ => some (tokenHash, publicKey)
  | _ => none

/-- A token hash that has been sent does not reach the server beside a public key of the
attacker. -/
def KeepsKey (net : Network F P) (e : NetworkEvent F P) : Prop :=
  ∀ c ∈ e.credentials, c.1 ∈ net.sent → ¬ IsAttackersKey c.2

instance (net : Network F P) (e : NetworkEvent F P) : Decidable (e.KeepsKey net) :=
  inferInstanceAs (Decidable (∀ _ ∈ _, _))

end NetworkEvent

/-! ## What the server sends -/

section Responses

variable {F P S B : Type} [Scalar F] {env : Platform P S B}

theorem Orchestrator.handleAnnounce_toOption {o : Orchestrator F P B} {deviceId : String}
    {profile : NodeProfile} {initialStatus : NodeStatus F} {now : Instant}
    {msg : SwarmMessage F P B}
    (h : (o.handleAnnounce env deviceId profile initialStatus now).2.toOption = some msg) :
    ∃ assignedLayers totalLayers encrypted,
      msg = .joinResponse assignedLayers totalLayers encrypted := by
  unfold handleAnnounce at h
  dsimp only at h
  split at h
  · cases h
  · split at h
    · cases h
    · cases h
      exact ⟨_, _, _, rfl⟩

theorem Orchestrator.handleStatusUpdate_toOption {o : Orchestrator F P B} {deviceId : String}
    {status : NodeStatus F} {now : Instant} {msg : SwarmMessage F P B}
    (h : (o.handleStatusUpdate env deviceId status now).2.toOption.join = some msg) :
    ∃ newLayers, msg = .rebalanceCommand newLayers := by
  unfold handleStatusUpdate at h
  split at h
  · cases h
  · dsimp only at h
    split_ifs at h
    all_goals cases h
    exact ⟨_, rfl⟩

theorem serve_clusterKey (o : Orchestrator F P B) (nodeId : String) (sessionKey : B)
    (rng : Entropy) (now : Instant) (received : Received F P B) :
    (serve env o nodeId sessionKey rng now received).1.clusterKey = o.clusterKey := by
  rw [serve_orchestrator]
  cases received.call nodeId now with
  | none => rfl
  | some op => exact (o.perform_config env op).2.1

/-- The only byte string that a turn of the event loop sends is the cluster key, encrypted under the
session key. -/
theorem byteStrings_serve (peerIds : PeerIds P) (o : Orchestrator F P Message) (nodeId : String)
    (sessionKey : Message) (rng : Entropy) (now : Instant) (received : Received F P Message) :
    ∀ t ∈ (serve (symbolicPlatform peerIds) o nodeId sessionKey rng now received).2.2.toList.flatMap
      (·.byteStrings), ∃ iv aad, t = .sealed iv sessionKey aad o.clusterKey := by
  intro t ht
  rw [List.mem_flatMap] at ht
  obtain ⟨msg, hmsg, ht⟩ := ht
  rw [Option.mem_toList] at hmsg
  cases received with
  | message m =>
    cases m with
    | nodeAnnounce deviceId peerId profile initialStatus =>
      by_cases hid : deviceId = nodeId
      · simp only [serve, ne_eq, hid, not_true_eq_false, if_false, Option.map_eq_some_iff] at hmsg
        obtain ⟨answer, hanswer, rfl⟩ := hmsg
        obtain ⟨assignedLayers, totalLayers, encrypted, rfl⟩ :=
          Orchestrator.handleAnnounce_toOption hanswer
        have hkey := (o.perform_config (symbolicPlatform peerIds)
          (.announce nodeId profile initialStatus now)).2.1
        exact ⟨_, _, (List.mem_singleton.1 ht).trans (congrArg _ hkey)⟩
      · simp only [serve, ne_eq, hid, not_false_eq_true, if_true] at hmsg
        cases hmsg
    | statusUpdate status =>
      obtain ⟨newLayers, rfl⟩ := Orchestrator.handleStatusUpdate_toOption hmsg
      cases ht
    | _ => cases hmsg
  | _ => cases hmsg

end Responses

/-! ## Secrecy -/

/-- A key that no choice of issued codes makes harmless. -/
def Locked (sharedSecret : String) (key : Message) : Prop :=
  ∀ issued, ¬ Harmless (Atom.IsSecret sharedSecret) SecretKey.IsAttackers issued key

/-- A term that the network may see: a code, or a term that no choice of issued codes makes
harmful. -/
def Sendable (sharedSecret : String) (t : Message) : Prop :=
  (∃ key message, t = .mac key message) ∨
    ∀ issued, Harmless (Atom.IsSecret sharedSecret) SecretKey.IsAttackers issued t

theorem harmless_of_sendable {sharedSecret : String} {sent : List Message}
    (h : ∀ t ∈ sent, Sendable sharedSecret t) :
    ∀ t ∈ sent, Harmless (Atom.IsSecret sharedSecret) SecretKey.IsAttackers {t | t ∈ sent} t := by
  intro t ht
  rcases h t ht with ⟨key, message, rfl⟩ | hall
  · exact .inl ht
  · exact hall _

theorem Atom.IsPublic.not_isSecret {sharedSecret : String} (a : Atom)
    (h : a.IsPublic sharedSecret) : ¬ a.IsSecret sharedSecret := by
  cases a with
  | bytes b => exact h
  | nonce => exact h.elim
  | clusterKey => exact h.elim

/-- A session key is locked if neither of the two secrets behind it is the attacker's. -/
theorem locked_sessionKey (sharedSecret : String) {mySecret : SecretKey}
    (hmine : ¬ mySecret.IsAttackers) {theirPublic : Message}
    (htheirs : ¬ IsAttackersKey theirPublic) (salt : Message) :
    Locked sharedSecret (symbolicCrypto.deriveSessionKey mySecret theirPublic salt) := by
  intro issued h
  rcases harmless_diffieHellman.1 h with howned | ⟨other, rfl, howned⟩
  · exact hmine howned
  · exact htheirs howned

/-- The attacker cannot make a token hash: one that it can derive has been sent. -/
theorem mem_sent_of_verifyHmac {sharedSecret : String} {sent : List Message}
    (hsent : ∀ t ∈ sent, Sendable sharedSecret t) {nonce tokenHash : Message}
    (hderives : Attacker.Derives sharedSecret sent tokenHash)
    (hverify : symbolicCrypto.verifyHmac nonce sharedSecret tokenHash = true) :
    tokenHash ∈ sent := by
  obtain rfl : .mac (utf8 sharedSecret) nonce = tokenHash := eq_of_beq hverify
  have hsecret : (Atom.bytes sharedSecret.toUTF8.toList).IsSecret sharedSecret := rfl
  exact hderives.mem_issued Atom.IsPublic.not_isSecret (harmless_of_sendable hsent) hsecret

structure NetworkInv {F P : Type} (sharedSecret : String) (net : Network F P) : Prop where
  secret_eq : net.server.sharedSecret = sharedSecret
  clusterKey_eq : net.server.orchestrator.clusterKey = .atom .clusterKey
  sent : ∀ t ∈ net.sent, Sendable sharedSecret t
  awaiting : ∀ nonce mySecret, .awaitingResponse nonce mySecret ∈ net.server.connections →
    ¬ mySecret.IsAttackers
  authenticated : ∀ nodeId sessionKey, .authenticated nodeId sessionKey ∈ net.server.connections →
    Locked sharedSecret sessionKey

theorem authenticate_eq_authenticated {F P S B : Type} {crypto : Crypto S B}
    {sharedSecret nodeId : String} {nonce sessionKey : B} {mySecret : S}
    {received : Received F P B}
    (h : authenticate crypto sharedSecret nonce mySecret received =
      .authenticated nodeId sessionKey) :
    ∃ tokenHash theirPublic, received = .message (.authResponse nodeId tokenHash theirPublic) ∧
      crypto.verifyHmac nonce sharedSecret tokenHash = true ∧
      sessionKey = crypto.deriveSessionKey mySecret theirPublic nonce := by
  unfold authenticate at h
  split at h
  · split_ifs at h with hverify
    cases h
    exact ⟨_, _, rfl, hverify, rfl⟩
  · cases h

section Step

variable {F P : Type} [Scalar F] (peerIds : PeerIds P) {sharedSecret : String} {net : Network F P}

theorem networkInv_openSocket (inv : NetworkInv sharedSecret net) (challengeSent : Bool) :
    NetworkInv sharedSecret (net.step peerIds (.openSocket challengeSent)) := by
  cases challengeSent with
  | false =>
    simp only [Network.step, Network.serverStep, Server.step, Server.accept, Bool.false_eq_true,
      if_false, Option.toList_none, List.flatMap_nil, List.append_nil]
    refine ⟨inv.secret_eq, inv.clusterKey_eq, inv.sent, fun nonce mySecret h => ?_,
      fun nodeId sessionKey h => ?_⟩
    · exact inv.awaiting nonce mySecret (by simpa using h)
    · exact inv.authenticated nodeId sessionKey (by simpa using h)
  | true =>
    simp only [Network.step, Network.serverStep, Server.step, Server.accept, if_true,
      Option.toList_some, List.flatMap_singleton, SwarmMessage.byteStrings]
    refine ⟨inv.secret_eq, inv.clusterKey_eq, fun t ht => ?_, fun nonce mySecret h => ?_,
      fun nodeId sessionKey h => ?_⟩
    · rw [List.mem_append, List.mem_pair] at ht
      rcases ht with ht | rfl | rfl
      · exact inv.sent t ht
      · exact .inr fun _ h => h
      · exact .inr fun _ => trivial
    · rw [List.mem_append, List.mem_singleton] at h
      rcases h with h | h
      · exact inv.awaiting nonce mySecret h
      · cases h
        exact id
    · exact inv.authenticated nodeId sessionKey (by simpa using h)

omit [Scalar F] in
/-- A client sends a code and a public key. -/
theorem sendable_client (client : Client F Message) (secret : String) (mySecret : SecretKey)
    (received : Received F P Message) :
    ∀ t ∈ (client.receive symbolicCrypto secret mySecret received).2.flatMap (·.byteStrings),
      Sendable sharedSecret t := by
  intro t ht
  unfold Client.receive at ht
  split at ht
  · simp only [List.flatMap_cons, SwarmMessage.byteStrings, List.flatMap_nil, List.append_nil,
      List.mem_pair] at ht
    rcases ht with rfl | rfl
    · exact .inl ⟨_, _, rfl⟩
    · exact .inr fun _ => trivial
  · cases ht
  · cases ht
  · cases ht
  · split at ht
    · cases ht
    · split_ifs at ht <;> cases ht
  · cases ht
  · cases ht

theorem networkInv_toClient (inv : NetworkInv sharedSecret net) (number : ℕ)
    (received : Received F P Message) :
    NetworkInv sharedSecret (net.step peerIds (.toClient number received)) := by
  unfold Network.step
  dsimp only
  split
  · exact inv
  · refine ⟨inv.secret_eq, inv.clusterKey_eq, fun t ht => ?_, inv.awaiting, inv.authenticated⟩
    rw [List.mem_append] at ht
    exact ht.elim (inv.sent t) (sendable_client _ _ _ _ t)

/-- The answer to the challenge leaves an authenticated connection with a locked session key. -/
theorem networkInv_authenticate (inv : NetworkInv sharedSecret net) {socket : ℕ}
    {received : Received F P Message} {rng : Entropy} {now : Instant} {nonce : Message}
    {mySecret : SecretKey}
    (hconnection : net.server.connections[socket]? = some (.awaitingResponse nonce mySecret))
    (possible : (NetworkEvent.toServer socket received rng now).Possible net)
    (keeps : (NetworkEvent.toServer socket received rng now).KeepsKey net) :
    NetworkInv sharedSecret (net.step peerIds (.toServer socket received rng now)) := by
  simp only [Network.step, Network.serverStep, Server.step, Server.receive, hconnection,
    Option.toList_none, List.flatMap_nil, List.append_nil]
  refine ⟨inv.secret_eq, inv.clusterKey_eq, inv.sent, fun nonce' mySecret' h => ?_,
    fun nodeId sessionKey h => ?_⟩
  · rcases List.mem_or_eq_of_mem_set h with h | h
    · exact inv.awaiting nonce' mySecret' h
    · have hawaiting :=
        authenticate_isAwaiting symbolicCrypto net.server.sharedSecret nonce mySecret received
      rw [show symbolicCrypto = (symbolicPlatform peerIds).crypto from rfl, ← h] at hawaiting
      cases hawaiting
  · rcases List.mem_or_eq_of_mem_set h with h | h
    · exact inv.authenticated nodeId sessionKey h
    · obtain ⟨tokenHash, theirPublic, rfl, hverify, rfl⟩ := authenticate_eq_authenticated h.symm
      have hderives := possible tokenHash (List.mem_cons_self ..)
      rw [inv.secret_eq] at hverify hderives
      have hmine := inv.awaiting nonce mySecret (List.mem_of_getElem? hconnection)
      exact locked_sessionKey sharedSecret hmine
        (keeps _ rfl (mem_sent_of_verifyHmac inv.sent hderives hverify)) nonce

theorem networkInv_serve (inv : NetworkInv sharedSecret net) {socket : ℕ}
    {received : Received F P Message} {rng : Entropy} {now : Instant} {nodeId : String}
    {sessionKey : Message}
    (hconnection : net.server.connections[socket]? = some (.authenticated nodeId sessionKey)) :
    NetworkInv sharedSecret (net.step peerIds (.toServer socket received rng now)) := by
  have hlocked := inv.authenticated nodeId sessionKey (List.mem_of_getElem? hconnection)
  simp only [Network.step, Network.serverStep, Server.step,
    Server.receive_of_authenticated _ hconnection]
  refine ⟨inv.secret_eq, ?_, fun t ht => ?_, fun nonce mySecret h => ?_,
    fun nodeId' sessionKey' h => ?_⟩
  · exact (serve_clusterKey ..).trans inv.clusterKey_eq
  · rw [List.mem_append] at ht
    rcases ht with ht | ht
    · exact inv.sent t ht
    · obtain ⟨iv, aad, rfl⟩ := byteStrings_serve peerIds _ _ _ _ _ _ t ht
      exact .inr fun issued hkey => absurd hkey (hlocked issued)
  · rcases List.mem_or_eq_of_mem_set h with h | h
    · exact inv.awaiting nonce mySecret h
    · rcases serve_connection (symbolicPlatform peerIds) net.server.orchestrator nodeId sessionKey
        rng now received with heq | heq <;> cases h.trans heq
  · rcases List.mem_or_eq_of_mem_set h with h | h
    · exact inv.authenticated nodeId' sessionKey' h
    · rcases serve_connection (symbolicPlatform peerIds) net.server.orchestrator nodeId sessionKey
        rng now received with heq | heq <;> cases h.trans heq
      exact hlocked

theorem networkInv_toServer (inv : NetworkInv sharedSecret net) {socket : ℕ}
    {received : Received F P Message} {rng : Entropy} {now : Instant}
    (possible : (NetworkEvent.toServer socket received rng now).Possible net)
    (keeps : (NetworkEvent.toServer socket received rng now).KeepsKey net) :
    NetworkInv sharedSecret (net.step peerIds (.toServer socket received rng now)) := by
  have idle (h : net.server.receive (symbolicPlatform peerIds) socket received rng now =
      (net.server, none)) :
      NetworkInv sharedSecret (net.step peerIds (.toServer socket received rng now)) := by
    simpa only [Network.step, Network.serverStep, Server.step, h, Option.toList_none,
      List.flatMap_nil, List.append_nil] using inv
  cases hconnection : net.server.connections[socket]? with
  | none => exact idle (by simp only [Server.receive, hconnection])
  | some connection =>
    cases connection with
    | awaitingResponse => exact networkInv_authenticate peerIds inv hconnection possible keeps
    | authenticated => exact networkInv_serve peerIds inv hconnection
    | returned => exact idle (Server.receive_of_returned _ hconnection)

end Step

/-! ## Whole runs -/

section Run

variable {F P : Type} [Scalar F] (peerIds : PeerIds P)

/-- Whatever the attacker does, it never derives the cluster key, unless it takes a token hash to
the server beside a public key of its own. -/
theorem clusterKey_secret (total : UInt32) (sharedSecret : String)
    (events : List (NetworkEvent F P))
    (attack : (Network.machine peerIds).Guarded (fun net e => e.Possible net ∧ e.KeepsKey net)
      (Network.new total sharedSecret) events) :
    ¬ Attacker.Derives sharedSecret
      ((Network.machine peerIds).run (Network.new total sharedSecret) events).sent
      (.atom .clusterKey) := by
  have preserved : ∀ (net : Network F P) (e : NetworkEvent F P), NetworkInv sharedSecret net →
      e.Possible net ∧ e.KeepsKey net →
      NetworkInv sharedSecret ((Network.machine peerIds).step net e).1 := by
    rintro net e inv ⟨possible, keeps⟩
    cases e with
    | openSocket challengeSent => exact networkInv_openSocket peerIds inv challengeSent
    | startClient => exact ⟨inv.secret_eq, inv.clusterKey_eq, inv.sent, inv.awaiting,
        inv.authenticated⟩
    | toServer => exact networkInv_toServer peerIds inv possible keeps
    | toClient number received => exact networkInv_toClient peerIds inv number received
  have initial : NetworkInv sharedSecret (Network.new total sharedSecret : Network F P) :=
    { secret_eq := rfl
      clusterKey_eq := rfl
      sent := by simp [Network.new]
      awaiting := by simp [Network.new, Server.new]
      authenticated := by simp [Network.new, Server.new] }
  intro h
  have inv := (Network.machine peerIds).invariant preserved initial attack
  exact h.harmless Atom.IsPublic.not_isSecret (harmless_of_sendable inv.sent) trivial

end Run

/-! ## A substituted key -/

/-- The event delivers only what has been sent, or the first public key of the attacker. -/
def NetworkEvent.Relays {F P : Type} (net : Network F P) (e : NetworkEvent F P) : Prop :=
  ∀ t ∈ e.delivered, t ∈ net.sent ∨ t = .publicKey (.attacker 0)

instance {F P : Type} (net : Network F P) (e : NetworkEvent F P) : Decidable (e.Relays net) :=
  inferInstanceAs (Decidable (∀ _ ∈ _, _))

theorem NetworkEvent.Relays.possible {F P : Type} {net : Network F P} {e : NetworkEvent F P}
    (h : e.Relays net) : e.Possible net := by
  intro t ht
  rcases h t ht with hsent | rfl
  · exact .known hsent
  · exact .publicKey trivial

/-- A client and the server, up to the `AuthResponse`. -/
def challenged : List (NetworkEvent Float32 Ed25519PeerId) :=
  [.openSocket true,
    .startClient announcementA.profile announcementA.initialStatus,
    .toClient 0 (.message (.authChallenge (.atom (.nonce 0)) (.publicKey (.server 0))))]

/-- The rest of the handshake, with a public key beside the token hash of the client. -/
def joining (theirPublic : Message) : List (NetworkEvent Float32 Ed25519PeerId) :=
  [.toServer 0 (.message (.authResponse announcementA.profile.hostname
      (symbolicCrypto.signHmac (.atom (.nonce 0)) "secret") theirPublic)) (fun _ => 0) 0,
    .toServer 0 (.message (.nodeAnnounce announcementA.profile.hostname none announcementA.profile
      announcementA.initialStatus)) (fun _ => 0) 0]

theorem clusterKey_secret_honest :
    ¬ Attacker.Derives "secret"
      ((Network.machine .ed25519).run (Network.new 32 "secret")
        (challenged ++ joining (.publicKey (.client 0)))).sent (.atom .clusterKey) := by
  have honest : (Network.machine .ed25519).Guarded (fun net e => e.Relays net ∧ e.KeepsKey net)
      (Network.new 32 "secret") (challenged ++ joining (.publicKey (.client 0))) := by
    decide +kernel
  exact clusterKey_secret .ed25519 32 "secret" _
    (honest.mono _ fun _ _ h => ⟨h.1.possible, h.2⟩)

/-- The attacker replaces the public key of the client by its own: it agrees on the session key with
the server and opens the cluster key. -/
theorem clusterKey_derived :
    let events := challenged ++ joining (.publicKey (.attacker 0))
    (Network.machine .ed25519).Guarded (fun net e => e.Possible net) (Network.new 32 "secret")
        events ∧
      Attacker.Derives "secret"
        ((Network.machine .ed25519).run (Network.new 32 "secret") events).sent
        (.atom .clusterKey) := by
  intro events
  have relayed : (Network.machine .ed25519).Guarded (fun net e => e.Relays net)
      (Network.new 32 "secret") events := by
    decide +kernel
  refine ⟨relayed.mono _ fun _ _ h => h.possible, ?_⟩
  have hsealed : .sealed (.atom (.bytes (Entropy.fillBytes (fun _ => 0) 12)))
      (symbolicCrypto.deriveSessionKey (.server 0) (.publicKey (.attacker 0)) (.atom (.nonce 0)))
      (utf8 clusterKeyAad) (.atom .clusterKey) ∈
        ((Network.machine .ed25519).run (Network.new 32 "secret") events).sent := by
    decide +kernel
  have hnonce : .atom (.nonce 0) ∈
      ((Network.machine .ed25519).run (Network.new 32 "secret") events).sent := by
    decide +kernel
  have hserver : .publicKey (.server 0) ∈
      ((Network.machine .ed25519).run (Network.new 32 "secret") events).sent := by
    decide +kernel
  have hinfo : (Atom.bytes "neural-swarm-ai-v0.2-session".toUTF8.toList).IsPublic "secret" := by
    show _ ≠ _
    decide +kernel
  refine .decrypt (.known hsealed) (.kdf ?_ (.known hnonce) (.atom hinfo))
  rw [Term.diffieHellman_comm]
  exact .diffieHellman trivial (.known hserver)

end NeuralSwarm
