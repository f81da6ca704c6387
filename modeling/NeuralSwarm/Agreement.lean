import NeuralSwarm.ConnectionFrame

/-!
# Agreement of honest handshakes

Honest clients run `connect_to_cluster` against `handle_socket` over connections that deliver every
message in order.  Each connection goes through the phases of `Phase`, whatever the others and the
other callers of the orchestrator do in between; a client that completes the handshake holds the
cluster key and was told the layers that its announce was answered with.
-/

namespace NeuralSwarm

variable {F P S B : Type}

/-! ## Clients connected to a server -/

/-- A client and the messages in flight on its connection, oldest first. -/
structure Link (F P S B : Type) where
  client : Client F B
  mySecret : S
  toServer : List (SwarmMessage F P B)
  toClient : List (SwarmMessage F P B)

/-- A server and its clients; the client on a socket has the number of the socket. -/
structure Cluster (F P S B : Type) where
  server : Server F P S B
  links : List (Link F P S B)

inductive ClusterEvent (F P S B : Type)
  /-- A client connects and the server sends its challenge. -/
  | connect (profile : NodeProfile) (status : NodeStatus F) (mySecret : S) (nonce : B)
      (serverSecret : S)
  /-- The server receives the next message of a client. -/
  | serverReceives (socket : ℕ) (rng : Entropy) (now : Instant)
  /-- A client receives the next message of the server. -/
  | clientReceives (number : ℕ)
  /-- The rest of the program calls the orchestrator. -/
  | call (op : Op F P B)

namespace Cluster

variable [Scalar F] (env : Platform P S B)

def step (c : Cluster F P S B) : ClusterEvent F P S B → Cluster F P S B
  | .connect profile status mySecret nonce serverSecret =>
    let (server, challenge) := c.server.accept env nonce serverSecret true
    let link :=
      { client := .awaitingChallenge profile status
        mySecret
        toServer := []
        toClient := challenge.toList }
    { server, links := c.links ++ [link] }
  | .serverReceives socket rng now =>
    match c.links[socket]? with
    | some { client, mySecret, toServer := msg :: toServer, toClient } =>
      let (server, response) := c.server.receive env socket (.message msg) rng now
      let link := { client, mySecret, toServer, toClient := toClient ++ response.toList }
      { server, links := c.links.set socket link }
    | _ => c
  | .clientReceives number =>
    match c.links[number]? with
    | some { client, mySecret, toServer, toClient := msg :: toClient } =>
      let (client, msgs) :=
        client.receive env.crypto c.server.sharedSecret mySecret (.message msg)
      let link := { client, mySecret, toServer := toServer ++ msgs, toClient }
      { c with links := c.links.set number link }
    | _ => c
  | .call op =>
    { c with server :=
        { c.server with orchestrator := (c.server.orchestrator.perform env op).1 } }

/-- The cluster as a machine. -/
def machine : Mealy (Cluster F P S B) (ClusterEvent F P S B) Unit :=
  ⟨fun c e => (c.step env e, ())⟩

def new (orchestrator : Orchestrator F P B) (sharedSecret : String) : Cluster F P S B :=
  { server := .new orchestrator sharedSecret, links := [] }

end Cluster

/-! ## What is recorded -/

/-- For each client, the layers of its node when `handle_announce` had processed its announce, and
the layers in the `JoinResponse` that it received. -/
structure JoinRecord where
  processed : ℕ → Option (List ℕ)
  received : ℕ → Option (List ℕ)

def JoinRecord.empty : JoinRecord := ⟨fun _ => none, fun _ => none⟩

section Record

variable [Scalar F] (env : Platform P S B)

/-- The record after an event. -/
def JoinRecord.note (record : JoinRecord) (c : Cluster F P S B) (e : ClusterEvent F P S B)
    (_ : Unit) : JoinRecord :=
  match e with
  | .serverReceives socket _ _ =>
    match c.links[socket]?.bind (·.toServer.head?) with
    | some (.nodeAnnounce deviceId ..) =>
      let layers := (c.step env e).server.orchestrator.layersOf deviceId
      { record with processed := Function.update record.processed socket (some layers) }
    | _ => record
  | .clientReceives number =>
    match c.links[number]?.bind (·.toClient.head?) with
    | some (.joinResponse assignedLayers ..) =>
      { record with received := Function.update record.received number (some assignedLayers) }
    | _ => record
  | _ => record

/-- The cluster with the record of its joins. -/
def Cluster.recording : Mealy (Cluster F P S B × JoinRecord) (ClusterEvent F P S B) Unit :=
  (machine env).observe (JoinRecord.note env)

end Record

/-! ## The phases of a handshake -/

/-- How the two ends of a connection, the messages between them and the record fit together. -/
inductive Phase (crypto : Crypto S B) (sharedSecret : String) (clusterKey : B) :
    Connection S B → Link F P S B → Option (List ℕ) → Option (List ℕ) → Prop
  | challenged (profile : NodeProfile) (status : NodeStatus F) (nonce : B)
      (mySecret serverSecret : S) :
    Phase crypto sharedSecret clusterKey (.awaitingResponse nonce serverSecret)
      { client := .awaitingChallenge profile status
        mySecret
        toServer := []
        toClient := [.authChallenge nonce (crypto.publicKey serverSecret)] } none none
  | answered (profile : NodeProfile) (status : NodeStatus F) (nonce : B)
      (mySecret serverSecret : S) :
    Phase crypto sharedSecret clusterKey (.awaitingResponse nonce serverSecret)
      { client := .awaitingJoin
          (crypto.deriveSessionKey mySecret (crypto.publicKey serverSecret) nonce)
        mySecret
        toServer := [
          .authResponse profile.hostname (crypto.signHmac nonce sharedSecret)
            (crypto.publicKey mySecret),
          .nodeAnnounce profile.hostname none profile status]
        toClient := [] } none none
  | authenticated (profile : NodeProfile) (status : NodeStatus F) (mySecret : S)
      (sessionKey : B) :
    Phase crypto sharedSecret clusterKey (.authenticated profile.hostname sessionKey)
      { client := .awaitingJoin sessionKey
        mySecret
        toServer := [.nodeAnnounce profile.hostname none profile status]
        toClient := [] } none none
  | announced (connection : Connection S B) (mySecret : S) (sessionKey : B)
      (layers : List ℕ) (totalLayers : ℕ) (encrypted : B)
      (holdsKey : ∀ key, crypto.decryptWithAad encrypted sessionKey
        (crypto.asBytes clusterKeyAad) = .ok key → key = clusterKey) :
    Phase crypto sharedSecret clusterKey connection
      { client := .awaitingJoin sessionKey
        mySecret
        toServer := []
        toClient := [.joinResponse layers totalLayers encrypted] } (some layers) none
  | idle (connection : Connection S B) (client : Client F B) (mySecret : S)
      (processed received : Option (List ℕ))
      (agrees : ∀ key, client = .connected key →
        key = clusterKey ∧ ∃ layers, received = some layers ∧ processed = some layers) :
    Phase crypto sharedSecret clusterKey connection
      { client, mySecret, toServer := [], toClient := [] } processed received

/-- What the handshake needs of the cryptography. -/
structure Crypto.HandshakeLaws (crypto : Crypto S B) : Prop where
  verify_sign : ∀ nonce secret, crypto.verifyHmac nonce secret (crypto.signHmac nonce secret) = true
  derive_comm : ∀ a b salt, crypto.deriveSessionKey a (crypto.publicKey b) salt =
    crypto.deriveSessionKey b (crypto.publicKey a) salt
  decrypt_encrypt : ∀ rng data key aad enc, crypto.encryptWithAad rng data key aad = .ok enc →
    crypto.decryptWithAad enc key aad = .ok data
  decrypt_empty : ∀ key aad data, crypto.decryptWithAad crypto.empty key aad ≠ .ok data

/-! ## The ends of a connection -/

section Ends

variable [Scalar F] {env : Platform P S B}

omit [Scalar F] in
/-- A `JoinResponse` that got the cluster key cannot be opened to anything else. -/
theorem withClusterKey_joinResponse (laws : env.crypto.HandshakeLaws) (rng : Entropy)
    (clusterKey sessionKey : B) (layers : List ℕ) (totalLayers : ℕ) :
    ∃ encrypted, SwarmMessage.withClusterKey env.crypto rng clusterKey sessionKey
        (.joinResponse layers totalLayers env.crypto.empty : SwarmMessage F P B) =
          .joinResponse layers totalLayers encrypted ∧
      ∀ key, env.crypto.decryptWithAad encrypted sessionKey
        (env.crypto.asBytes clusterKeyAad) = .ok key → key = clusterKey := by
  unfold SwarmMessage.withClusterKey
  cases henc : env.crypto.encryptWithAad rng clusterKey sessionKey
      (env.crypto.asBytes clusterKeyAad) with
  | error e =>
    exact ⟨_, rfl, fun key hkey => (laws.decrypt_empty _ _ key hkey).elim⟩
  | ok enc =>
    refine ⟨_, rfl, fun key hkey => ?_⟩
    rw [laws.decrypt_encrypt _ _ _ _ _ henc] at hkey
    cases hkey
    rfl

/-- The answer to an announce: the layers of the entry, and a ciphertext of the cluster key if it is
one at all. -/
theorem serve_announce (laws : env.crypto.HandshakeLaws) (o : Orchestrator F P B)
    (nodeId : String) (sessionKey : B) (rng : Entropy) (now : Instant) (peerId : Option String)
    (profile : NodeProfile) (status : NodeStatus F) :
    let served := serve env o nodeId sessionKey rng now
      (.message (.nodeAnnounce nodeId peerId profile status))
    served.2.2 = none ∨ ∃ totalLayers encrypted,
      served.2.2 = some (.joinResponse (served.1.layersOf nodeId) totalLayers encrypted) ∧
        ∀ key, env.crypto.decryptWithAad encrypted sessionKey
          (env.crypto.asBytes clusterKeyAad) = .ok key → key = o.clusterKey := by
  have hkey : (o.handleAnnounce env nodeId profile status now).1.clusterKey = o.clusterKey :=
    (Orchestrator.perform_config env o (.announce nodeId profile status now)).2.1
  simp only [serve, ne_eq, not_true_eq_false, if_false, hkey]
  cases hanswer : (o.handleAnnounce env nodeId profile status now).2 with
  | error e => exact .inl rfl
  | ok answer =>
    obtain rfl := Orchestrator.eq_joinResponse_of_handleAnnounce env hanswer
    obtain ⟨encrypted, heq, hopen⟩ := withClusterKey_joinResponse (F := F) (P := P) laws rng
      o.clusterKey sessionKey _ _
    exact .inr ⟨_, encrypted, congrArg some heq, hopen⟩

theorem receive_authResponse (laws : env.crypto.HandshakeLaws) {server : Server F P S B}
    {socket : ℕ} {nonce : B} {serverSecret : S} (mySecret : S) (id : String) (rng : Entropy)
    (now : Instant)
    (h : server.connections[socket]? = some (.awaitingResponse nonce serverSecret)) :
    server.receive env socket (.message (.authResponse id
        (env.crypto.signHmac nonce server.sharedSecret) (env.crypto.publicKey mySecret))) rng now =
      ({ server with
          connections := server.connections.set socket (.authenticated id
            (env.crypto.deriveSessionKey mySecret (env.crypto.publicKey serverSecret) nonce)) },
        none) := by
  simp only [Server.receive, h, authenticate, laws.verify_sign, if_true, laws.derive_comm]

omit [Scalar F] in
/-- A client that gets a `JoinResponse` holds what it decrypts to, if it is a key. -/
theorem receive_joinResponse (crypto : Crypto S B) (sharedSecret : String) (mySecret : S)
    (sessionKey : B) (layers : List ℕ) (totalLayers : ℕ) (encrypted : B) :
    ∃ client : Client F B, (Client.awaitingJoin sessionKey).receive crypto sharedSecret mySecret
        (.message (.joinResponse layers totalLayers encrypted : SwarmMessage F P B)) =
          (client, []) ∧
      ∀ key, client = .connected key →
        crypto.decryptWithAad encrypted sessionKey (crypto.asBytes clusterKeyAad) = .ok key := by
  unfold Client.receive
  dsimp only
  cases crypto.decryptWithAad encrypted sessionKey (crypto.asBytes clusterKeyAad) with
  | error e => exact ⟨_, rfl, nofun⟩
  | ok dec =>
    dsimp only
    split_ifs
    · refine ⟨_, rfl, fun key hkey => ?_⟩
      cases hkey
      rfl
    · exact ⟨_, rfl, nofun⟩

end Ends

/-! ## The invariant -/

section Invariant

variable [Scalar F] {env : Platform P S B} {sharedSecret : String} {clusterKey : B}
  {x : Cluster F P S B × JoinRecord}

/-- Every connection is in some phase of its handshake. -/
structure AgreeInv (env : Platform P S B) (sharedSecret : String) (clusterKey : B)
    (x : Cluster F P S B × JoinRecord) : Prop where
  secret_eq : x.1.server.sharedSecret = sharedSecret
  key_eq : x.1.server.orchestrator.clusterKey = clusterKey
  length_eq : x.1.server.connections.length = x.1.links.length
  phase : ∀ (number : ℕ) (connection : Connection S B) (link : Link F P S B),
    x.1.server.connections[number]? = some connection → x.1.links[number]? = some link →
      Phase env.crypto sharedSecret clusterKey connection link (x.2.processed number)
        (x.2.received number)
  fresh : ∀ number, x.1.links.length ≤ number →
    x.2.processed number = none ∧ x.2.received number = none

omit [Scalar F] in
/-- A client has a connection at the server, and the two are in some phase. -/
theorem AgreeInv.exists_connection (inv : AgreeInv env sharedSecret clusterKey x) {number : ℕ}
    {link : Link F P S B} (hlink : x.1.links[number]? = some link) :
    number < x.1.links.length ∧ ∃ connection,
      x.1.server.connections[number]? = some connection ∧
        Phase env.crypto sharedSecret clusterKey connection link (x.2.processed number)
          (x.2.received number) := by
  have hlt := (List.getElem?_eq_some_iff.1 hlink).1
  have hconnection := List.getElem?_eq_getElem (hlt.trans_eq inv.length_eq.symm)
  exact ⟨hlt, _, hconnection, inv.phase number _ link hconnection hlink⟩

omit [Scalar F] in
/-- An event on one connection keeps the phases of the others. -/
theorem AgreeInv.update (inv : AgreeInv env sharedSecret clusterKey x) {number : ℕ}
    {server : Server F P S B} {link : Link F P S B} {record : JoinRecord}
    (hsecret : server.sharedSecret = x.1.server.sharedSecret)
    (hkey : server.orchestrator.clusterKey = x.1.server.orchestrator.clusterKey)
    (hlength : server.connections.length = x.1.server.connections.length)
    (hothers : ∀ other, other ≠ number →
      server.connections[other]? = x.1.server.connections[other]? ∧
        record.processed other = x.2.processed other ∧ record.received other = x.2.received other)
    (hlt : number < x.1.links.length)
    (hphase : ∀ connection, server.connections[number]? = some connection →
      Phase env.crypto sharedSecret clusterKey connection link (record.processed number)
        (record.received number)) :
    AgreeInv env sharedSecret clusterKey
      ({ server, links := x.1.links.set number link }, record) := by
  refine ⟨hsecret.trans inv.secret_eq, hkey.trans inv.key_eq, ?_,
    fun other connection otherLink hconnection hlink => ?_, fun other hother => ?_⟩
  · rw [List.length_set, hlength, inv.length_eq]
  · by_cases hne : other = number
    · subst hne
      rw [List.getElem?_set_self hlt] at hlink
      cases hlink
      exact hphase connection hconnection
    · obtain ⟨hold, hprocessed, hreceived⟩ := hothers other hne
      rw [List.getElem?_set_ne (Ne.symm hne)] at hlink
      rw [hprocessed, hreceived]
      exact inv.phase other connection otherLink (hold ▸ hconnection) hlink
  · rw [List.length_set] at hother
    obtain ⟨-, hprocessed, hreceived⟩ := hothers other (by omega)
    rw [hprocessed, hreceived]
    exact inv.fresh other hother

theorem agreeInv_connect (inv : AgreeInv env sharedSecret clusterKey x) (profile : NodeProfile)
    (status : NodeStatus F) (mySecret : S) (nonce : B) (serverSecret : S) :
    AgreeInv env sharedSecret clusterKey ((Cluster.recording env).step x
      (.connect profile status mySecret nonce serverSecret)).1 := by
  obtain ⟨⟨server, links⟩, record⟩ := x
  have hlength : server.connections.length = links.length := inv.length_eq
  refine ⟨inv.secret_eq, inv.key_eq, ?_, fun number connection link hconnection hlink => ?_,
    fun number hnumber => ?_⟩
  · show (server.connections ++ [_]).length = (links ++ [_]).length
    rw [List.length_append, List.length_append, hlength]
    rfl
  · rcases getElem?_concat_eq_some_iff.1 hlink with hold | ⟨rfl, rfl⟩
    · have hlt : number < server.connections.length :=
        hlength ▸ (List.getElem?_eq_some_iff.1 hold).1
      have hconnection : (server.connections ++ [_])[number]? = some connection := hconnection
      rw [List.getElem?_append_left hlt] at hconnection
      exact inv.phase number connection link hconnection hold
    · rcases getElem?_concat_eq_some_iff.1 hconnection with hold | ⟨-, rfl⟩
      · have hlt : links.length < server.connections.length :=
          (List.getElem?_eq_some_iff.1 hold).1
        omega
      · obtain ⟨hprocessed, hreceived⟩ := inv.fresh links.length le_rfl
        show Phase _ _ _ _ _ (record.processed links.length) (record.received links.length)
        rw [hprocessed, hreceived]
        exact .challenged profile status nonce mySecret serverSecret
  · refine inv.fresh number ?_
    have hnumber : (links ++ [_]).length ≤ number := hnumber
    rw [List.length_append] at hnumber
    show links.length ≤ number
    omega

theorem agreeInv_call (inv : AgreeInv env sharedSecret clusterKey x) (op : Op F P B) :
    AgreeInv env sharedSecret clusterKey ((Cluster.recording env).step x (.call op)).1 := by
  have hconfig := Orchestrator.perform_config env x.1.server.orchestrator op
  exact ⟨inv.secret_eq, hconfig.2.1.trans inv.key_eq, inv.length_eq, inv.phase, inv.fresh⟩

theorem clusterKey_receive (server : Server F P S B) (socket : ℕ) (received : Received F P B)
    (rng : Entropy) (now : Instant) :
    (server.receive env socket received rng now).1.orchestrator.clusterKey =
      server.orchestrator.clusterKey := by
  rcases Server.receive_orchestrator env server socket received rng now with
    heq | ⟨id, op, -, -, heq⟩
  · rw [heq]
  · rw [heq]
    exact (Orchestrator.perform_config env server.orchestrator op).2.1

theorem agreeInv_serverReceives (laws : env.crypto.HandshakeLaws)
    (inv : AgreeInv env sharedSecret clusterKey x) (socket : ℕ) (rng : Entropy) (now : Instant) :
    AgreeInv env sharedSecret clusterKey
      ((Cluster.recording env).step x (.serverReceives socket rng now)).1 := by
  show AgreeInv env sharedSecret clusterKey (x.1.step env (.serverReceives socket rng now),
    x.2.note env x.1 (.serverReceives socket rng now) ())
  cases hlink : x.1.links[socket]? with
  | none =>
    simp only [Cluster.step, JoinRecord.note, hlink, Option.bind_none]
    exact inv
  | some link =>
    obtain ⟨hlt, connection, hconnection, hphase⟩ := inv.exists_connection hlink
    generalize hprocessed : x.2.processed socket = processed at hphase
    generalize hreceived : x.2.received socket = received at hphase
    cases hphase with
    | challenged | announced | idle =>
      simp only [Cluster.step, JoinRecord.note, hlink, Option.bind_some, List.head?_nil]
      exact inv
    | answered profile status nonce mySecret serverSecret =>
      have hreceive := receive_authResponse laws mySecret profile.hostname rng now hconnection
      rw [inv.secret_eq] at hreceive
      simp only [Cluster.step, JoinRecord.note, hlink, Option.bind_some, List.head?_cons, hreceive]
      refine inv.update inv.secret_eq.symm rfl List.length_set (fun other hne => ?_) hlt
        fun connection hc => ?_
      · exact ⟨List.getElem?_set_ne (Ne.symm hne), rfl, rfl⟩
      · rw [List.getElem?_set_self (inv.length_eq ▸ hlt)] at hc
        cases hc
        rw [hprocessed, hreceived]
        exact .authenticated profile status mySecret _
    | authenticated profile status mySecret sessionKey =>
      simp only [Cluster.step, JoinRecord.note, hlink, Option.bind_some, List.head?_cons]
      refine inv.update (Server.sharedSecret_receive ..) (clusterKey_receive ..)
        (Server.length_receive_connections env) (fun other hne => ?_) hlt fun connection hc => ?_
      · exact ⟨Server.receive_connections_of_ne env hne, Function.update_of_ne hne .., rfl⟩
      · have hserve := serve_announce laws x.1.server.orchestrator profile.hostname sessionKey rng
          now none profile status
        simp only [Function.update_self, hreceived,
          Server.receive_of_authenticated env hconnection]
        rcases hserve with hnone | ⟨totalLayers, encrypted, hsome, hopen⟩
        · rw [hnone]
          exact .idle _ _ _ _ _ nofun
        · rw [hsome]
          exact .announced _ _ _ _ _ _ fun key hkey => (hopen key hkey).trans inv.key_eq

theorem agreeInv_clientReceives (inv : AgreeInv env sharedSecret clusterKey x) (number : ℕ) :
    AgreeInv env sharedSecret clusterKey
      ((Cluster.recording env).step x (.clientReceives number)).1 := by
  show AgreeInv env sharedSecret clusterKey (x.1.step env (.clientReceives number),
    x.2.note env x.1 (.clientReceives number) ())
  cases hlink : x.1.links[number]? with
  | none =>
    simp only [Cluster.step, JoinRecord.note, hlink, Option.bind_none]
    exact inv
  | some link =>
    obtain ⟨hlt, connection, hconnection, hphase⟩ := inv.exists_connection hlink
    generalize hprocessed : x.2.processed number = processed at hphase
    generalize hreceived : x.2.received number = received at hphase
    cases hphase with
    | answered | authenticated | idle =>
      simp only [Cluster.step, JoinRecord.note, hlink, Option.bind_some, List.head?_nil]
      exact inv
    | challenged profile status nonce mySecret serverSecret =>
      simp only [Cluster.step, JoinRecord.note, hlink, Option.bind_some, List.head?_cons,
        Client.receive, inv.secret_eq]
      refine inv.update rfl rfl rfl (fun other _ => ⟨rfl, rfl, rfl⟩) hlt fun connection hc => ?_
      rw [hconnection] at hc
      cases hc
      rw [hprocessed, hreceived]
      exact .answered profile status nonce mySecret serverSecret
    | announced _ mySecret sessionKey layers totalLayers encrypted holdsKey =>
      obtain ⟨client, hclient, hconnected⟩ := receive_joinResponse (F := F) (P := P) env.crypto
        x.1.server.sharedSecret mySecret sessionKey layers totalLayers encrypted
      simp only [Cluster.step, JoinRecord.note, hlink, Option.bind_some, List.head?_cons, hclient]
      refine inv.update rfl rfl rfl (fun other hne => ⟨rfl, rfl, Function.update_of_ne hne ..⟩) hlt
        fun connection hc => ?_
      refine .idle _ _ _ _ _ fun key hkey => ⟨holdsKey key (hconnected key hkey), layers, ?_⟩
      exact ⟨Function.update_self .., hprocessed⟩

theorem agreeInv_step (laws : env.crypto.HandshakeLaws)
    (inv : AgreeInv env sharedSecret clusterKey x) :
    ∀ e : ClusterEvent F P S B,
      AgreeInv env sharedSecret clusterKey ((Cluster.recording env).step x e).1
  | .connect profile status mySecret nonce serverSecret =>
    agreeInv_connect inv profile status mySecret nonce serverSecret
  | .serverReceives socket rng now => agreeInv_serverReceives laws inv socket rng now
  | .clientReceives number => agreeInv_clientReceives inv number
  | .call op => agreeInv_call inv op

end Invariant

/-! ## Agreement -/

/-- What the crates document, as far as the handshake goes: both sides of an X25519 exchange compute
the same secret, and decryption under the same key, nonce and associated data undoes encryption. -/
structure Primitives.HandshakeLaws (prim : Primitives S) : Prop where
  x25519_comm : ∀ a b, prim.diffieHellman a (prim.x25519PublicKey b) =
    prim.diffieHellman b (prim.x25519PublicKey a)
  aes_decrypt : ∀ key nonce aad message ciphertext,
    prim.aes256GcmEncrypt key nonce aad message = .ok ciphertext →
      prim.aes256GcmDecrypt key nonce aad ciphertext = .ok message

theorem Primitives.HandshakeLaws.crypto {prim : Primitives S} (laws : prim.HandshakeLaws) :
    prim.crypto.HandshakeLaws where
  verify_sign nonce secret := beq_self_eq_true _
  derive_comm a b salt := by simp only [Primitives.crypto, laws.x25519_comm]
  decrypt_encrypt rng data key aad enc h := by
    simp only [Primitives.crypto, Primitives.encryptWithAad] at h ⊢
    cases hsealed : prim.aes256GcmEncrypt key (rng.fillBytes 12) aad data with
    | error e =>
      rw [hsealed] at h
      cases h
    | ok ciphertext =>
      rw [hsealed] at h
      cases h
      rw [Primitives.decryptWithAad_nonce_append _ _ _ _ (rng.length_fillBytes 12),
        laws.aes_decrypt _ _ _ _ _ hsealed]
  decrypt_empty key aad data h := by cases h

/-- Every client that completes its handshake, in any interleaving with the others and with other
calls, holds the cluster key of the orchestrator, and the layers in its `JoinResponse` are those its
entry had when its announce was processed. -/
theorem handshake_agreement [Scalar F] (prim : Primitives S) (laws : prim.HandshakeLaws)
    (ids : PeerIds P) (o : Orchestrator F P Bytes) (sharedSecret : String)
    (events : List (ClusterEvent F P S Bytes)) :
    let x := (Cluster.recording (prim.platform ids)).run (.new o sharedSecret, .empty) events
    ∀ (number : ℕ) (link : Link F P S Bytes) (key : Bytes), x.1.links[number]? = some link →
      link.client = .connected key →
        key = o.clusterKey ∧ ∃ layers, x.2.received number = some layers ∧
          x.2.processed number = some layers := by
  intro x number link key hlink hclient
  have initial : AgreeInv (prim.platform ids) sharedSecret o.clusterKey
      ((.new o sharedSecret, .empty) : Cluster F P S Bytes × JoinRecord) :=
    ⟨rfl, rfl, rfl, fun _ _ _ h _ => (by cases h), fun _ _ => ⟨rfl, rfl⟩⟩
  have preserved : ∀ (x : Cluster F P S Bytes × JoinRecord) (e : ClusterEvent F P S Bytes),
      AgreeInv (prim.platform ids) sharedSecret o.clusterKey x →
        AgreeInv (prim.platform ids) sharedSecret o.clusterKey
          ((Cluster.recording (prim.platform ids)).step x e).1 :=
    fun _ e inv => agreeInv_step laws.crypto inv e
  have inv := Mealy.Reachable.invariant (Cluster.recording (prim.platform ids)) preserved initial
    ⟨events, rfl⟩
  obtain ⟨-, connection, -, hphase⟩ := inv.exists_connection hlink
  generalize x.2.processed number = processed at hphase ⊢
  generalize x.2.received number = received at hphase ⊢
  cases hphase with
  | idle _ client mySecret _ _ agrees => exact agrees key hclient
  | challenged | answered | authenticated | announced => cases hclient

theorem Primitives.reference_handshakeLaws : reference.HandshakeLaws where
  x25519_comm _ _ := rfl
  aes_decrypt key nonce aad message ciphertext h := by
    obtain ⟨_, henc, hdec⟩ := reference_lawful.aes_roundTrip key nonce aad message
    cases henc.symm.trans h
    exact hdec

/-- Two clients connect, and their handshakes interleave. -/
def interleavedHandshakes : List (ClusterEvent Float32 Ed25519PeerId Unit Bytes) :=
  [.connect announcementA.profile announcementA.initialStatus () (List.replicate 32 1) (),
    .connect announcementB.profile announcementB.initialStatus () (List.replicate 32 2) (),
    .clientReceives 1, .clientReceives 0,
    .serverReceives 0 (fun _ => 0) 0, .serverReceives 1 (fun _ => 0) 1,
    .serverReceives 1 (fun _ => 3) 2, .serverReceives 0 (fun _ => 4) 3,
    .clientReceives 0, .clientReceives 1]

def interleavedCluster : Cluster Float32 Ed25519PeerId Unit Bytes × JoinRecord :=
  (Cluster.recording (Primitives.reference.platform .ed25519)).run
    (.new (.new 32 "secret" (List.replicate 32 7)) "secret", .empty) interleavedHandshakes

theorem handshake_agreement_interleaved :
    interleavedCluster.1.links.map (·.client) =
        List.replicate 2 (.connected (List.replicate 32 7)) ∧
      ∀ number < 2, ∃ layers, interleavedCluster.2.received number = some layers ∧
        interleavedCluster.2.processed number = some layers := by
  have hclients : interleavedCluster.1.links.map (·.client) =
      List.replicate 2 (.connected (List.replicate 32 7)) := by decide +kernel
  refine ⟨hclients, fun number hnumber => ?_⟩
  have hclient := congrArg (·[number]?) hclients
  simp only [List.getElem?_map, List.getElem?_replicate, if_pos hnumber] at hclient
  obtain ⟨link, hlink, hconnected⟩ := Option.map_eq_some_iff.1 hclient
  exact (handshake_agreement Primitives.reference Primitives.reference_handshakeLaws .ed25519
    (.new 32 "secret" (List.replicate 32 7)) "secret" interleavedHandshakes number link
    (List.replicate 32 7) hlink hconnected).2

end NeuralSwarm
