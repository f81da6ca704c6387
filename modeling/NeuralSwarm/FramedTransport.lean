import NeuralSwarm.Agreement
import NeuralSwarm.KvCacheState
import NeuralSwarm.WireFormat

/-!
# Connections that carry bytes

The clients and the server of a `Cluster` send binary frames: each end serializes its messages and
deserializes what arrives.  Whatever the handlers compute has the sizes that the types of the fields
promise, so every frame in flight is read back as the message that was sent, and the cluster over
frames goes through the states of the cluster over messages (`framed_run`).
-/

namespace NeuralSwarm

variable {F P S : Type}

/-- What arrives with a binary frame. -/
def Received.ofFrame (f32 : Codec F) (peerId : Codec P) (frame : Bytes) : Received F P Bytes :=
  match SwarmMessage.deserialize f32 peerId frame with
  | .ok msg => .message msg
  | .error _ => .undecodable

/-- A client and the frames in flight on its connection, oldest first. -/
structure FramedLink (F S : Type) where
  client : Client F Bytes
  mySecret : S
  toServer : List Bytes
  toClient : List Bytes

structure FramedCluster (F P S : Type) where
  server : Server F P S Bytes
  links : List (FramedLink F S)

namespace FramedCluster

variable [Scalar F] (env : Platform P S Bytes) (f32 : Codec F) (peerId : Codec P)

def step (c : FramedCluster F P S) : ClusterEvent F P S Bytes → FramedCluster F P S
  | .connect profile status mySecret nonce serverSecret =>
    let (server, challenge) := c.server.accept env nonce serverSecret true
    let link :=
      { client := .awaitingChallenge profile status
        mySecret
        toServer := []
        toClient := challenge.toList.map (SwarmMessage.serialize f32 peerId) }
    { server, links := c.links ++ [link] }
  | .serverReceives socket rng now =>
    match c.links[socket]? with
    | some { client, mySecret, toServer := frame :: toServer, toClient } =>
      let (server, response) :=
        c.server.receive env socket (.ofFrame f32 peerId frame) rng now
      let link :=
        { client
          mySecret
          toServer
          toClient := toClient ++ response.toList.map (SwarmMessage.serialize f32 peerId) }
      { server, links := c.links.set socket link }
    | _ => c
  | .clientReceives number =>
    match c.links[number]? with
    | some { client, mySecret, toServer, toClient := frame :: toClient } =>
      let (client, msgs) :=
        client.receive env.crypto c.server.sharedSecret mySecret (.ofFrame f32 peerId frame)
      let link :=
        { client
          mySecret
          toServer := toServer ++ msgs.map (SwarmMessage.serialize f32 peerId)
          toClient }
      { c with links := c.links.set number link }
    | _ => c
  | .call op =>
    { c with server :=
        { c.server with orchestrator := (c.server.orchestrator.perform env op).1 } }

/-- The cluster over frames as a machine. -/
def machine : Mealy (FramedCluster F P S) (ClusterEvent F P S Bytes) Unit :=
  ⟨fun c e => (c.step env f32 peerId e, ())⟩

def new (orchestrator : Orchestrator F P Bytes) (sharedSecret : String) : FramedCluster F P S :=
  { server := .new orchestrator sharedSecret, links := [] }

end FramedCluster

/-! ## Sizes -/

/-- The lengths of what the crypto module computes. -/
structure Crypto.Sizes (crypto : Crypto S Bytes) : Prop where
  signHmac : ∀ nonce secret, (crypto.signHmac nonce secret).length = 32
  publicKey : ∀ secret, (crypto.publicKey secret).length = 32
  encryptWithAad : ∀ {rng data key aad enc}, crypto.encryptWithAad rng data key aad = .ok enc →
    enc.length = data.length + 28
  empty : crypto.empty.length = 0

/-- What the crates document: SHA-256 and X25519 work with 32 bytes, and the tag of AES-GCM has 16.
-/
structure Primitives.Sizes (prim : Primitives S) : Prop where
  hmac : ∀ key message, (prim.hmacSha256 key message).length = 32
  x25519 : ∀ secret, (prim.x25519PublicKey secret).length = 32
  aes : ∀ {key nonce aad message ciphertext},
    prim.aes256GcmEncrypt key nonce aad message = .ok ciphertext →
      ciphertext.length = message.length + 16

theorem Primitives.Sizes.crypto {prim : Primitives S} (sizes : prim.Sizes) :
    prim.crypto.Sizes where
  signHmac nonce secret := sizes.hmac _ nonce
  publicKey := sizes.x25519
  encryptWithAad {rng data key aad enc} h := by
    have h : prim.encryptWithAad rng data key aad = .ok enc := h
    rw [Primitives.encryptWithAad] at h
    cases hsealed : prim.aes256GcmEncrypt key (rng.fillBytes 12) aad data with
    | error e =>
      simp only [hsealed] at h
      cases h
    | ok ciphertext =>
      simp only [hsealed] at h
      cases h
      rw [List.length_append, rng.length_fillBytes, sizes.aes hsealed]
      omega
  empty := rfl

/-! ## What the handlers send -/

section Handlers

variable [Scalar F] {env : Platform P S Bytes} {f32 : Codec F} {peerId : Codec P}

omit [Scalar F] in
theorem LayerRun.sized {total : ℕ} {layers : List ℕ} (h : LayerRun total layers)
    (htotal : total < 2 ^ 32) : layers.length < 2 ^ 64 ∧ ∀ l ∈ layers, l < 2 ^ 32 := by
  obtain ⟨start, count, hle, rfl⟩ := h
  constructor
  · rw [List.length_range']
    omega
  · intro l hl
    rw [List.mem_range'_1] at hl
    omega

theorem Orchestrator.Settled.sized_layersOf {o : Orchestrator F P Bytes} (h : o.Settled)
    (id : String) : (o.layersOf id).length < 2 ^ 64 ∧ ∀ l ∈ o.layersOf id, l < 2 ^ 32 := by
  rw [Orchestrator.layersOf]
  cases hget : o.registry.get id with
  | none => simp
  | some n => exact (h id n hget).layerRun.sized o.totalModelLayers.toNat_lt

/-- A status update is answered with the layers that the node has now, or not at all. -/
theorem eq_rebalanceCommand_of_handleStatusUpdate {o : Orchestrator F P Bytes} {id : String}
    {status : NodeStatus F} {now : Instant} {msg : SwarmMessage F P Bytes}
    (h : (o.handleStatusUpdate env id status now).2.toOption.join = some msg) :
    msg = .rebalanceCommand ((o.handleStatusUpdate env id status now).1.layersOf id) := by
  unfold Orchestrator.handleStatusUpdate at h ⊢
  cases hupdate : o.registry.updateStatus id status now with
  | error e =>
    simp only [hupdate] at h
    cases h
  | ok result =>
    simp only [hupdate] at h ⊢
    split_ifs at h ⊢
    all_goals cases h
    rfl

omit [Scalar F] in
theorem sized_withClusterKey (sizes : env.crypto.Sizes) {rng : Entropy}
    {clusterKey sessionKey : Bytes} (hkey : clusterKey.length = 32) {layers : List ℕ}
    {totalLayers : ℕ}
    (hlayers : layers.length < 2 ^ 64 ∧ ∀ l ∈ layers, l < 2 ^ 32) (htotal : totalLayers < 2 ^ 32) :
    (SwarmMessage.withClusterKey env.crypto rng clusterKey sessionKey
      (.joinResponse layers totalLayers env.crypto.empty : SwarmMessage F P Bytes)).Sized f32
      peerId := by
  unfold SwarmMessage.withClusterKey
  cases henc : env.crypto.encryptWithAad rng clusterKey sessionKey
      (env.crypto.asBytes clusterKeyAad) with
  | error e =>
    refine ⟨hlayers, htotal, ?_⟩
    rw [sizes.empty]
    omega
  | ok enc =>
    refine ⟨hlayers, htotal, ?_⟩
    rw [sizes.encryptWithAad henc]
    omega

/-- Whatever arrives, the server answers with a message that fits its types. -/
theorem sized_serve (sizes : env.crypto.Sizes) {o : Orchestrator F P Bytes} (settled : o.Settled)
    (hkey : o.clusterKey.length = 32) {nodeId : String} {sessionKey : Bytes} {rng : Entropy}
    {now : Instant} {received : Received F P Bytes} {msg : SwarmMessage F P Bytes}
    (h : (serve env o nodeId sessionKey rng now received).2.2 = some msg) :
    msg.Sized f32 peerId := by
  cases received with
  | message m =>
    cases m with
    | nodeAnnounce deviceId announced profile status =>
      by_cases hid : deviceId = nodeId
      · simp only [serve, ne_eq, hid, not_true_eq_false, if_false, Option.map_eq_some_iff] at h
        obtain ⟨answer, hanswer, rfl⟩ := h
        cases hresult : (o.handleAnnounce env nodeId profile status now).2 with
        | error e =>
          rw [hresult] at hanswer
          cases hanswer
        | ok joined =>
          rw [hresult] at hanswer
          cases hanswer
          obtain rfl := Orchestrator.eq_joinResponse_of_handleAnnounce env hresult
          have hconfig := o.perform_config env (.announce nodeId profile status now)
          have hsettled : (o.handleAnnounce env nodeId profile status now).1.Settled :=
            Orchestrator.settled_perform settled (.announce nodeId profile status now)
          exact sized_withClusterKey sizes ((congrArg List.length hconfig.2.1).trans hkey)
            (hsettled.sized_layersOf nodeId) o.totalModelLayers.toNat_lt
      · simp only [serve, ne_eq, hid, not_false_eq_true, if_true] at h
        cases h
    | statusUpdate status =>
      obtain rfl := eq_rebalanceCommand_of_handleStatusUpdate h
      have hsettled : (o.handleStatusUpdate env nodeId status now).1.Settled :=
        Orchestrator.settled_perform settled (.statusUpdate nodeId status now)
      exact hsettled.sized_layersOf nodeId
    | _ => cases h
  | _ => cases h

theorem Server.sized_receive (sizes : env.crypto.Sizes) {server : Server F P S Bytes}
    (settled : server.orchestrator.Settled) (hkey : server.orchestrator.clusterKey.length = 32)
    {socket : ℕ} {received : Received F P Bytes} {rng : Entropy} {now : Instant}
    {msg : SwarmMessage F P Bytes}
    (h : (server.receive env socket received rng now).2 = some msg) : msg.Sized f32 peerId := by
  unfold Server.receive at h
  split at h
  · cases h
  · exact sized_serve sizes settled hkey h
  · cases h
  · cases h

end Handlers

/-! ## What is in flight -/

/-- The events have the sizes that their types promise. -/
def ClusterEvent.Sized (f32 : Codec F) : ClusterEvent F P S Bytes → Prop
  | .connect profile status _ nonce _ =>
    profile.Sized ∧ f32.Fits status.cpuUsage ∧ nonce.length = 32
  | _ => True

/-- The messages of a link, and those that its client will send, fit their types. -/
structure Link.Sized (f32 : Codec F) (peerId : Codec P) (link : Link F P S Bytes) : Prop where
  awaiting : ∀ profile status, link.client = .awaitingChallenge profile status →
    profile.Sized ∧ f32.Fits status.cpuUsage
  toServer : ∀ msg ∈ link.toServer, msg.Sized f32 peerId
  toClient : ∀ msg ∈ link.toClient, msg.Sized f32 peerId

structure Cluster.Sized [Scalar F] (f32 : Codec F) (peerId : Codec P)
    (c : Cluster F P S Bytes) : Prop where
  settled : c.server.orchestrator.Settled
  length_key : c.server.orchestrator.clusterKey.length = 32
  links : ∀ link ∈ c.links, link.Sized f32 peerId

/-- The same link with its messages serialized. -/
def Link.framed (f32 : Codec F) (peerId : Codec P) (link : Link F P S Bytes) : FramedLink F S :=
  { client := link.client
    mySecret := link.mySecret
    toServer := link.toServer.map (SwarmMessage.serialize f32 peerId)
    toClient := link.toClient.map (SwarmMessage.serialize f32 peerId) }

def Cluster.framed (f32 : Codec F) (peerId : Codec P) (c : Cluster F P S Bytes) :
    FramedCluster F P S :=
  { server := c.server, links := c.links.map (Link.framed f32 peerId) }

section Run

variable [Scalar F] {env : Platform P S Bytes} {f32 : Codec F} {peerId : Codec P}
  {c : Cluster F P S Bytes}

omit [Scalar F] in
theorem ofFrame_serialize {msg : SwarmMessage F P Bytes} (h : msg.Sized f32 peerId) :
    Received.ofFrame f32 peerId (msg.serialize f32 peerId) = .message msg := by
  have hread := SwarmMessage.deserialize_serialize_append h []
  rw [List.append_nil] at hread
  rw [Received.ofFrame, hread]

omit [Scalar F] in
/-- A client answers the challenge and nothing else, and does not wait for another. -/
theorem Client.sized_receive (peerId : Codec P) (sizes : env.crypto.Sizes) (sharedSecret : String)
    (mySecret : S) {client : Client F Bytes} (received : Received F P Bytes)
    (awaiting : ∀ profile status, client = .awaitingChallenge profile status →
      profile.Sized ∧ f32.Fits status.cpuUsage) :
    (∀ profile status, (client.receive env.crypto sharedSecret mySecret received).1 ≠
        .awaitingChallenge profile status) ∧
      ∀ msg ∈ (client.receive env.crypto sharedSecret mySecret received).2,
        msg.Sized f32 peerId := by
  have silent : ∀ client : Client F Bytes,
      (∀ profile status, client ≠ .awaitingChallenge profile status) →
        (∀ profile status, (client, ([] : List (SwarmMessage F P Bytes))).1 ≠
            .awaitingChallenge profile status) ∧
          ∀ msg ∈ (client, ([] : List (SwarmMessage F P Bytes))).2, msg.Sized f32 peerId :=
    fun _ h => ⟨h, fun _ hmsg => absurd hmsg List.not_mem_nil⟩
  cases client with
  | awaitingChallenge profile status =>
    obtain ⟨hprofile, hcpu⟩ := awaiting profile status rfl
    cases received with
    | message msg =>
      cases msg with
      | authChallenge nonce masterPublic =>
        simp only [Client.receive]
        refine ⟨fun _ _ h => (by cases h), ?_⟩
        refine List.forall_mem_cons.2 ⟨⟨hprofile.2, ?_, sizes.publicKey mySecret⟩, ?_⟩
        · rw [sizes.signHmac]
          omega
        · exact List.forall_mem_singleton.2 ⟨hprofile.2, fun _ h => (by cases h), hprofile, hcpu⟩
      | _ => exact silent _ fun _ _ h => (by cases h)
    | _ => exact silent _ fun _ _ h => (by cases h)
  | awaitingJoin sessionKey =>
    cases received with
    | message msg =>
      cases msg with
      | joinResponse assignedLayers totalLayers encrypted =>
        simp only [Client.receive]
        cases env.crypto.decryptWithAad encrypted sessionKey
            (env.crypto.asBytes clusterKeyAad) with
        | error e => exact silent _ fun _ _ h => (by cases h)
        | ok dec =>
          by_cases hkey : env.crypto.isKey dec
          · simp only [if_pos hkey]
            exact silent _ fun _ _ h => (by cases h)
          · simp only [if_neg hkey]
            exact silent _ fun _ _ h => (by cases h)
      | _ => exact silent _ fun _ _ h => (by cases h)
    | _ => exact silent _ fun _ _ h => (by cases h)
  | _ => exact silent _ fun _ _ h => (by cases h)

theorem Cluster.Sized.connect (sizes : env.crypto.Sizes) (h : c.Sized f32 peerId)
    {profile : NodeProfile} {status : NodeStatus F} {mySecret : S} {nonce : Bytes}
    {serverSecret : S} (hprofile : profile.Sized) (hcpu : f32.Fits status.cpuUsage)
    (hnonce : nonce.length = 32) :
    (c.step env (.connect profile status mySecret nonce serverSecret)).Sized f32 peerId := by
  refine ⟨h.settled, h.length_key, fun link hlink => ?_⟩
  rcases List.mem_append.1 hlink with hold | hnew
  · exact h.links link hold
  · obtain rfl := List.mem_singleton.1 hnew
    refine ⟨fun profile' status' heq => ?_, fun _ hmsg => absurd hmsg List.not_mem_nil,
      fun msg hmsg => ?_⟩
    · cases heq
      exact ⟨hprofile, hcpu⟩
    · obtain rfl := List.mem_singleton.1 hmsg
      exact ⟨hnonce, sizes.publicKey serverSecret⟩

theorem Cluster.Sized.serverReceives (sizes : env.crypto.Sizes) (h : c.Sized f32 peerId)
    (socket : ℕ) (rng : Entropy) (now : Instant) :
    (c.step env (.serverReceives socket rng now)).Sized f32 peerId := by
  cases hlink : c.links[socket]? with
  | none => simpa only [Cluster.step, hlink] using h
  | some link =>
    obtain ⟨client, mySecret, toServer, toClient⟩ := link
    have hold := h.links _ (List.mem_of_getElem? hlink)
    cases toServer with
    | nil => simpa only [Cluster.step, hlink] using h
    | cons msg toServer =>
      simp only [Cluster.step, hlink]
      refine ⟨Server.settled_receive h.settled socket _ rng now,
        (congrArg List.length (clusterKey_receive ..)).trans h.length_key, fun link hmem => ?_⟩
      rcases List.mem_or_eq_of_mem_set hmem with hother | rfl
      · exact h.links link hother
      · refine ⟨hold.awaiting, fun m hm => hold.toServer m (List.mem_cons_of_mem _ hm),
          fun m hm => ?_⟩
        rcases List.mem_append.1 hm with hm | hm
        · exact hold.toClient m hm
        · exact Server.sized_receive sizes h.settled h.length_key (Option.mem_toList.1 hm)

theorem Cluster.Sized.clientReceives (sizes : env.crypto.Sizes) (h : c.Sized f32 peerId)
    (number : ℕ) : (c.step env (.clientReceives number)).Sized f32 peerId := by
  cases hlink : c.links[number]? with
  | none => simpa only [Cluster.step, hlink] using h
  | some link =>
    obtain ⟨client, mySecret, toServer, toClient⟩ := link
    have hold := h.links _ (List.mem_of_getElem? hlink)
    cases toClient with
    | nil => simpa only [Cluster.step, hlink] using h
    | cons msg toClient =>
      simp only [Cluster.step, hlink]
      refine ⟨h.settled, h.length_key, fun link hmem => ?_⟩
      rcases List.mem_or_eq_of_mem_set hmem with hother | rfl
      · exact h.links link hother
      · obtain ⟨hanswered, hmsgs⟩ := Client.sized_receive peerId sizes c.server.sharedSecret
          mySecret (.message msg) hold.awaiting
        refine ⟨fun profile status heq => (hanswered profile status heq).elim, fun m hm => ?_,
          fun m hm => hold.toClient m (List.mem_cons_of_mem _ hm)⟩
        rcases List.mem_append.1 hm with hm | hm
        · exact hold.toServer m hm
        · exact hmsgs m hm

theorem Cluster.Sized.step (sizes : env.crypto.Sizes) (h : c.Sized f32 peerId) :
    ∀ e : ClusterEvent F P S Bytes, e.Sized f32 → (c.step env e).Sized f32 peerId
  | .connect .., hsized => h.connect sizes hsized.1 hsized.2.1 hsized.2.2
  | .serverReceives socket rng now, _ => h.serverReceives sizes socket rng now
  | .clientReceives number, _ => h.clientReceives sizes number
  | .call op, _ =>
    ⟨Orchestrator.settled_perform h.settled op,
      (congrArg List.length (Orchestrator.perform_config env _ op).2.1).trans h.length_key,
      h.links⟩

omit [Scalar F] in
theorem getElem?_framed (number : ℕ) :
    (c.framed f32 peerId).links[number]? = (c.links[number]?).map (Link.framed f32 peerId) :=
  List.getElem?_map

theorem framed_step (h : c.Sized f32 peerId) (e : ClusterEvent F P S Bytes) :
    (c.framed f32 peerId).step env f32 peerId e = (c.step env e).framed f32 peerId := by
  cases e with
  | connect profile status mySecret nonce serverSecret =>
    simp only [FramedCluster.step, Cluster.step, Cluster.framed, Link.framed, List.map_append,
      List.map_cons, List.map_nil]
  | serverReceives socket rng now =>
    cases hlink : c.links[socket]? with
    | none =>
      simp only [FramedCluster.step, Cluster.step, getElem?_framed, hlink, Option.map_none]
    | some link =>
      obtain ⟨client, mySecret, toServer, toClient⟩ := link
      have hsized := h.links _ (List.mem_of_getElem? hlink)
      cases toServer with
      | nil =>
        simp only [FramedCluster.step, Cluster.step, getElem?_framed, hlink, Option.map_some,
          Link.framed, List.map_nil]
      | cons msg toServer =>
        have hread := ofFrame_serialize (hsized.toServer msg (List.mem_cons_self ..))
        simp only [FramedCluster.step, Cluster.step, getElem?_framed, hlink, Option.map_some,
          Link.framed, List.map_cons, hread]
        simp only [Cluster.framed, List.map_set, Link.framed, List.map_append]
  | clientReceives number =>
    cases hlink : c.links[number]? with
    | none =>
      simp only [FramedCluster.step, Cluster.step, getElem?_framed, hlink, Option.map_none]
    | some link =>
      obtain ⟨client, mySecret, toServer, toClient⟩ := link
      have hsized := h.links _ (List.mem_of_getElem? hlink)
      cases toClient with
      | nil =>
        simp only [FramedCluster.step, Cluster.step, getElem?_framed, hlink, Option.map_some,
          Link.framed, List.map_nil]
      | cons msg toClient =>
        have hread := ofFrame_serialize (hsized.toClient msg (List.mem_cons_self ..))
        simp only [FramedCluster.step, Cluster.step, getElem?_framed, hlink, Option.map_some,
          Link.framed, List.map_cons, hread]
        simp only [Cluster.framed, List.map_set, Link.framed, List.map_append]
  | call op => rfl

/-- Every run over frames goes through the states of the run over messages, with the same messages
in flight. -/
theorem framed_run (sizes : env.crypto.Sizes) (total : UInt32) (secret sharedSecret : String)
    {clusterKey : Bytes} (hkey : clusterKey.length = 32)
    {events : List (ClusterEvent F P S Bytes)} (hsized : ∀ e ∈ events, e.Sized f32) :
    (FramedCluster.machine env f32 peerId).run (.new (.new total secret clusterKey) sharedSecret)
        events =
      ((Cluster.machine env).run (.new (.new total secret clusterKey) sharedSecret) events).framed
        f32 peerId := by
  have initial : (Cluster.new (.new total secret clusterKey) sharedSecret :
      Cluster F P S Bytes).Sized f32 peerId :=
    ⟨Orchestrator.settled_new total secret clusterKey, hkey, fun _ h => absurd h List.not_mem_nil⟩
  have preserved : ∀ (c : Cluster F P S Bytes) (e : ClusterEvent F P S Bytes),
      c.Sized f32 peerId → e.Sized f32 → ((Cluster.machine env).step c e).1.Sized f32 peerId :=
    fun _ e h he => h.step sizes e he
  have maps : ∀ (c : Cluster F P S Bytes) (e : ClusterEvent F P S Bytes),
      c.Sized f32 peerId → e.Sized f32 →
        ((FramedCluster.machine env f32 peerId).step (c.framed f32 peerId) e).1 =
          ((Cluster.machine env).step c e).1.framed f32 peerId :=
    fun _ e h _ => framed_step h e
  exact Mealy.run_of_refinement preserved maps initial (Mealy.guarded_of_forall _ _ hsized)

end Run

/-! ## Two handshakes -/

/-- Crates whose functions have the documented lengths. -/
def Primitives.fixedWidth : Primitives Unit :=
  { Primitives.reference with
    hmacSha256 := fun key message => (key ++ message ++ List.replicate 32 0).take 32
    aes256GcmEncrypt := fun key nonce aad message =>
      .ok ((nonce ++ key ++ aad ++ List.replicate 16 0).take 16 ++ message)
    aes256GcmDecrypt := fun key nonce aad ciphertext =>
      if ((nonce ++ key ++ aad ++ List.replicate 16 0).take 16).isPrefixOf ciphertext then
        .ok (ciphertext.drop 16)
      else .error "aead::Error" }

theorem Primitives.fixedWidth_sizes : fixedWidth.Sizes where
  hmac key message := by
    simp [fixedWidth]
    omega
  x25519 _ := List.length_replicate
  aes {key nonce aad message ciphertext} h := by
    cases h
    simp
    omega

/-- The format of `f32`, as far as NaNs need not be told apart. -/
def float32 : Codec Float32 where
  Fits _ := True
  encode := encodeF32
  decode := decodeF32
  decode_append _ rest := decodeF32_encodeF32_append _ rest

/-- Peer ids as texts. -/
def Ed25519PeerId.codec : Codec Ed25519PeerId :=
  Bincode.string.convert (fun s => if h : isEd25519Text s = true then some ⟨s, h⟩ else none)
    Subtype.val "invalid multihash" fun p => dif_pos p.2

theorem framed_run_interleaved :
    ((FramedCluster.machine (Primitives.fixedWidth.platform .ed25519) float32
        Ed25519PeerId.codec).run
      (.new (.new 32 "secret" (List.replicate 32 7)) "secret") interleavedHandshakes).links.map
        (·.client) = List.replicate 2 (.connected (List.replicate 32 7)) := by
  have hsized : ∀ e ∈ interleavedHandshakes, e.Sized float32 := by
    simp [interleavedHandshakes, ClusterEvent.Sized, NodeProfile.Sized, announcementA,
      announcementB, makeProfile, NodeProfile.custom, float32]
    decide
  rw [framed_run Primitives.fixedWidth_sizes.crypto 32 "secret" "secret" (by decide) hsized]
  decide +kernel

end NeuralSwarm
