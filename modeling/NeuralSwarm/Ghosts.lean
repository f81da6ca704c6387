import NeuralSwarm.Connections

/-!
# Nodes without a connection

A node is registered while a connection under its id is open: `handle_socket` drains it when the
socket ends.  One exit skips the drain, the return after a `NodeAnnounce` with a foreign id; the
entry of the connection then stays, unless another connection under the same id is open.
-/

namespace NeuralSwarm

variable {F P S B : Type}

/-- Whether what is received announces a node other than that of the connection. -/
def Received.mismatches (nodeId : String) : Received F P B → Bool
  | .message (.nodeAnnounce deviceId ..) => deviceId ≠ nodeId
  | _ => false

def Received.isEnded : Received F P B → Bool
  | .ended => true
  | _ => false

namespace Server

/-- An id under which no connection is open is not registered. -/
def NoGhost (server : Server F P S B) : Prop :=
  ∀ id, (∀ socket, server.nodeId socket ≠ some id) → server.orchestrator.registered id = false

/-- If a connection under `id` announces another node, then `id` is not registered or another
connection under `id` is open. -/
def LeavesNoGhost (server : Server F P S B) : SocketEvent F P S B → Prop
  | .accept .. => True
  | .receive socket received _ _ =>
    ∀ id ∈ server.nodeId socket, received.mismatches id = true →
      server.orchestrator.registered id = true →
        ∃ other < server.connections.length, other ≠ socket ∧ server.nodeId other = some id

instance (server : Server F P S B) : ∀ e : SocketEvent F P S B, Decidable (server.LeavesNoGhost e)
  | .accept .. => .isTrue trivial
  | .receive .. => inferInstanceAs (Decidable (∀ id ∈ _, _))

theorem lt_length_of_nodeId {server : Server F P S B} {socket : ℕ} {id : String}
    (h : server.nodeId socket = some id) : socket < server.connections.length := by
  obtain ⟨_, hconnection⟩ := nodeId_eq_some_iff.1 h
  exact (List.getElem?_eq_some_iff.1 hconnection).1

end Server

variable [Scalar F] {env : Platform P S B}

/-- The event loop returns on a foreign `NodeAnnounce` and at the end of the stream. -/
theorem serve_connection_eq (o : Orchestrator F P B) (nodeId : String) (sessionKey : B)
    (rng : Entropy) (now : Instant) (received : Received F P B) :
    (serve env o nodeId sessionKey rng now received).2.1 =
      if received.mismatches nodeId || received.isEnded then .returned
      else .authenticated nodeId sessionKey := by
  cases received with
  | message msg =>
    cases msg with
    | nodeAnnounce deviceId peerId profile initialStatus =>
      by_cases h : deviceId = nodeId
      · simp [serve, Received.mismatches, Received.isEnded, h]
      · simp [serve, Received.mismatches, h]
    | _ => rfl
  | _ => rfl

namespace Server

variable {server : Server F P S B} {socket other : ℕ} {received : Received F P B} {rng : Entropy}
  {now : Instant} {nodeId id : String}

theorem nodeId_receive_of_ne (h : other ≠ socket) :
    (server.receive env socket received rng now).1.nodeId other = server.nodeId other :=
  congrArg (Option.bind · Connection.nodeId) (receive_connections_of_ne env h)

/-- The node id of an authenticated socket after it has received something. -/
theorem nodeId_receive_self (hid : server.nodeId socket = some nodeId) :
    (server.receive env socket received rng now).1.nodeId socket =
      if received.mismatches nodeId || received.isEnded then none else some nodeId := by
  obtain ⟨sessionKey, hconnection⟩ := nodeId_eq_some_iff.1 hid
  have hlt : socket < server.connections.length := lt_length_of_nodeId hid
  rw [receive_of_authenticated env hconnection]
  simp only [Server.nodeId, List.getElem?_set_self hlt, Option.bind_some, serve_connection_eq]
  split_ifs <;> rfl

/-- An unauthenticated socket closes no connection. -/
theorem nodeId_receive_of_unauthenticated (hid : server.nodeId socket = none)
    (h : server.nodeId other = some id) :
    (server.receive env socket received rng now).1.nodeId other = some id := by
  have hne : other ≠ socket := by
    rintro rfl
    rw [hid] at h
    cases h
  rw [nodeId_receive_of_ne hne, h]

/-- Only its own id is registered or removed by a connection. -/
theorem registered_receive_of_ne (own : server.orchestrator.registry.OwnIds)
    (hid : server.nodeId socket = some nodeId) (hne : id ≠ nodeId) :
    (server.receive env socket received rng now).1.orchestrator.registered id =
      server.orchestrator.registered id := by
  rw [registered_receive own hid]
  split_ifs <;> simp [hne]

/-- A node stays registered when its connection returns after a foreign `NodeAnnounce`. -/
theorem registered_receive_of_mismatches (own : server.orchestrator.registry.OwnIds)
    (hid : server.nodeId socket = some nodeId) (hmismatch : received.mismatches nodeId = true) :
    (server.receive env socket received rng now).1.orchestrator.registered nodeId =
      server.orchestrator.registered nodeId := by
  rw [registered_receive own hid]
  cases received with
  | message msg =>
    cases msg with
    | nodeAnnounce deviceId peerId profile initialStatus =>
      have h : deviceId ≠ nodeId := of_decide_eq_true hmismatch
      simp [Received.drains, Received.announces, h]
    | _ => cases hmismatch
  | _ => cases hmismatch

theorem noGhost_receive_iff (own : server.orchestrator.registry.OwnIds) (h : server.NoGhost)
    (hid : server.nodeId socket = some nodeId) :
    (server.receive env socket received rng now).1.NoGhost ↔
      (received.mismatches nodeId = true → server.orchestrator.registered nodeId = true →
        ∃ other < server.connections.length, other ≠ socket ∧
          server.nodeId other = some nodeId) := by
  constructor
  · intro hafter hmismatch hregistered
    by_contra hnone
    refine absurd (hafter nodeId fun other => ?_) ?_
    · by_cases hne : other = socket
      · rw [hne, nodeId_receive_self hid, hmismatch]
        simp
      · rw [nodeId_receive_of_ne hne]
        exact fun hother => hnone ⟨other, lt_length_of_nodeId hother, hne, hother⟩
    · rw [registered_receive_of_mismatches own hid hmismatch, hregistered]
      decide
  · intro hguard id hclosed
    by_cases hne : id = nodeId
    · subst hne
      cases hmismatch : received.mismatches id with
      | true =>
        rw [registered_receive_of_mismatches own hid hmismatch, ← Bool.not_eq_true]
        intro hregistered
        obtain ⟨other, -, hne, hother⟩ := hguard hmismatch hregistered
        exact hclosed other ((nodeId_receive_of_ne hne).trans hother)
      | false =>
        -- the connection is still open, or it has ended and drained its node
        have hself := hclosed socket
        rw [nodeId_receive_self hid, hmismatch, Bool.false_or] at hself
        cases received with
        | ended =>
          rw [registered_receive own hid]
          simp [Received.drains]
        | _ => exact absurd rfl hself
    · rw [registered_receive_of_ne own hid hne]
      refine h id fun other hother => hclosed other ?_
      rw [nodeId_receive_of_ne, hother]
      rintro rfl
      exact hne (Option.some.inj (hother.symm.trans hid))

theorem noGhost_step_iff (own : server.orchestrator.registry.OwnIds) (h : server.NoGhost)
    (e : SocketEvent F P S B) : (server.step env e).1.NoGhost ↔ server.LeavesNoGhost e := by
  cases e with
  | accept nonce mySecret sent =>
    refine iff_of_true (fun id hclosed => ?_) trivial
    obtain ⟨accepted, heq⟩ := accept_eq env server nonce mySecret sent
    change (server.accept env nonce mySecret sent).1.orchestrator.registered id = false
    rw [heq]
    refine h id fun socket hsocket => hclosed socket ?_
    change (server.accept env nonce mySecret sent).1.nodeId socket = some id
    rw [heq, Server.nodeId, List.getElem?_append_left (lt_length_of_nodeId hsocket)]
    exact hsocket
  | receive socket received rng now =>
    cases hid : server.nodeId socket with
    | none =>
      refine iff_of_true (fun id hclosed => ?_) fun id hmem => by rw [hid] at hmem; cases hmem
      change (server.receive env socket received rng now).1.orchestrator.registered id = false
      rw [(receive_of_unauthenticated env hid).1]
      exact h id fun other hother =>
        hclosed other (nodeId_receive_of_unauthenticated hid hother)
    | some nodeId =>
      refine (noGhost_receive_iff own h hid).trans ⟨fun hguard id hmem => ?_, fun hguard => ?_⟩
      · cases hid.symm.trans hmem
        exact hguard
      · exact hguard nodeId hid

theorem ownIds_step (own : server.orchestrator.registry.OwnIds) (e : SocketEvent F P S B) :
    (server.step env e).1.orchestrator.registry.OwnIds := by
  cases e with
  | accept nonce mySecret sent =>
    obtain ⟨accepted, heq⟩ := accept_eq env server nonce mySecret sent
    change (server.accept env nonce mySecret sent).1.orchestrator.registry.OwnIds
    rw [heq]
    exact own
  | receive => exact ownIds_receive own

variable (env)

/-- Throughout a run no node is left without a connection exactly if no connection under the id of
a registered node announces another one while it is the only one open. -/
theorem noGhost_run_iff (total : UInt32) (sharedSecret : String) (clusterKey : B)
    (events : List (SocketEvent F P S B)) :
    (∀ before, before <+: events →
        ((machine env).run (new (.new total sharedSecret clusterKey) sharedSecret)
          before).NoGhost) ↔
      (machine env).Guarded (fun server e => server.LeavesNoGhost e)
        (new (.new total sharedSecret clusterKey) sharedSecret) events := by
  have preserved : ∀ (server : Server F P S B) (e : SocketEvent F P S B),
      server.orchestrator.registry.OwnIds →
        ((machine env).step server e).1.orchestrator.registry.OwnIds :=
    fun _ e own => ownIds_step own e
  have keeps : ∀ (server : Server F P S B) (e : SocketEvent F P S B),
      server.orchestrator.registry.OwnIds → server.NoGhost →
        (((machine env).step server e).1.NoGhost ↔ server.LeavesNoGhost e) :=
    fun _ e own h => noGhost_step_iff own h e
  exact (machine env).guarded_iff_prefixes preserved keeps NodeRegistry.ownIds_empty
    fun id _ => rfl

end Server

/-! ## A foreign announce -/

/-- A node announces itself and then another one; its connection returns. -/
def announcesOther : List (SocketEvent Float32 Ed25519PeerId Unit Bytes) :=
  joinOn 0 announcementA ++
    [.receive 0 (.message (.nodeAnnounce peerB none announcementB.profile
      announcementB.initialStatus)) (fun _ => 0) 2]

theorem not_noGhost_announces_other :
    ¬ ((Server.machine Platform.reference).run (.new (.new 32 "secret" []) "secret")
      announcesOther).NoGhost := by
  intro h
  have hclosed : ∀ socket < ((Server.machine Platform.reference).run
      (.new (.new 32 "secret" []) "secret") announcesOther).connections.length,
      ((Server.machine Platform.reference).run (.new (.new 32 "secret" []) "secret")
        announcesOther).nodeId socket ≠ some peerA := by decide +kernel
  have hregistered := h peerA fun socket hsocket =>
    hclosed socket (Server.lt_length_of_nodeId hsocket) hsocket
  revert hregistered
  decide +kernel

end NeuralSwarm
