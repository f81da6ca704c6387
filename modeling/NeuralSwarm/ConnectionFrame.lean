import NeuralSwarm.Connections
import NeuralSwarm.Entries

/-!
# What a connection can change

A connection acts on the registry under the id of its `AuthResponse` only.  Among the calls of
other connections and of the rest of the program, each of its messages and its close leave every
entry but that one as it is, up to the layers that a rebalance gives it; without a valid
`AuthResponse` nothing changes at all.
-/

namespace NeuralSwarm

variable {F P S B : Type}

/-! ## What a call leaves as it is -/

/-- The entry up to its layers. -/
def NodeEntry.withoutLayers (n : NodeEntry F) : NodeEntry F := { n with assignedLayers := [] }

/-- Every entry but the one under `id` is as before, up to its layers; no other id is registered or
removed. -/
def NodeRegistry.SameOthers (id : String) (registry registry' : NodeRegistry F) : Prop :=
  ∀ key, key ≠ id →
    (registry'.get key).map (·.withoutLayers) = (registry.get key).map (·.withoutLayers)

/-- The node that a call is about. -/
def Op.subject : Op F P B → Option String
  | .announce deviceId .. | .statusUpdate deviceId .. | .drain deviceId | .heartbeat deviceId _ =>
    some deviceId
  | .prune .. | .startSequence .. | .taskResult _ => none

variable [Scalar F] {env : Platform P S B} {o : Orchestrator F P B}

theorem Op.get_written_of_ne {op : Op F P B} {id key : String} (hsubject : op.subject = some id)
    (hne : key ≠ id) : (op.written o).get key = o.registry.get key := by
  cases op with
  | announce deviceId profile initialStatus now =>
    cases hsubject
    obtain ⟨registry, hready, hget⟩ :=
      o.registry.markReady_register id profile initialStatus now
    simp only [written, hready, Except.toOption, Option.getD_some, hget, if_neg hne]
  | statusUpdate deviceId status now =>
    cases hsubject
    simp only [written, NodeRegistry.get_modify, if_neg hne, Option.map_id']
  | drain deviceId =>
    cases hsubject
    rw [written, NodeRegistry.get_remove, if_neg hne]
  | heartbeat deviceId now =>
    cases hsubject
    simp only [written, NodeRegistry.heartbeat, NodeRegistry.get_modify, if_neg hne, Option.map_id']
  | prune | startSequence | taskResult => cases hsubject

/-- A node that is not `ready` gets nothing but layers from a plan. -/
theorem NodeEntry.Settled.follow_withoutLayers {total : ℕ} {key : String} {n : NodeEntry F}
    (h : n.Settled total key) (plan : List (String × List ℕ)) :
    (n.follow plan).withoutLayers = n.withoutLayers := by
  have hready : n.state ≠ .ready := by
    rcases h.state_eq with hstate | hstate <;> simp [hstate]
  unfold NodeEntry.follow
  split
  · simp only [NodeEntry.withLayers, if_neg hready]
    rfl
  · rfl

namespace Orchestrator

theorem sameOthers_perform (settled : o.Settled) {op : Op F P B} {id : String}
    (hsubject : op.subject = some id) :
    o.registry.SameOthers id (o.perform env op).1.registry := by
  intro key hne
  have hwritten := Op.get_written_of_ne (o := o) hsubject hne
  rw [perform_registry]
  split_ifs
  · rw [rebalance_get env o (Op.written_ownIds settled.ownIds op), hwritten, Option.map_map]
    cases hget : o.registry.get key with
    | none => rfl
    | some n => exact congrArg some ((settled key n hget).follow_withoutLayers _)
  · rw [hwritten]

end Orchestrator

omit [Scalar F] in
theorem Received.subject_of_call {received : Received F P B} {nodeId : String} {now : Instant}
    {op : Op F P B} (h : received.call nodeId now = some op) : op.subject = some nodeId := by
  unfold Received.call at h
  split at h
  · split_ifs at h
    cases h
    rfl
  all_goals cases h <;> rfl

/-! ## The server among other callers -/

/-- What happens at a server: an event of one of its sockets, or a call that the rest of the program
makes to the orchestrator. -/
inductive ServerEvent (F P S B : Type)
  | socket (event : SocketEvent F P S B)
  | call (op : Op F P B)

/-- For each socket, the nonce of its challenge and the first item it received. -/
abbrev FirstItems (F P B : Type) := List (B × Option (Received F P B))

namespace FirstItems

/-- The id under which a socket authenticated with its first item. -/
def authId (crypto : Crypto S B) (sharedSecret : String) (firsts : FirstItems F P B)
    (socket : ℕ) : Option String :=
  match firsts[socket]? with
  | some (nonce, some (.message (.authResponse id tokenHash _))) =>
    if crypto.verifyHmac nonce sharedSecret tokenHash then some id else none
  | _ => none

/-- The record after a socket has received something. -/
def receive (firsts : FirstItems F P B) (socket : ℕ) (received : Received F P B) :
    FirstItems F P B :=
  firsts.modify socket fun (nonce, first) => (nonce, some (first.getD received))

/-- The record after an event. -/
def note (firsts : FirstItems F P B) (_ : Server F P S B) :
    ServerEvent F P S B → Option (SwarmMessage F P B) → FirstItems F P B
  | .socket (.accept nonce ..), _ => firsts ++ [(nonce, none)]
  | .socket (.receive socket received ..), _ => firsts.receive socket received
  | .call _, _ => firsts

end FirstItems

namespace Server

variable (env)

/-- One event at the server. -/
def stepShared (server : Server F P S B) :
    ServerEvent F P S B → Server F P S B × Option (SwarmMessage F P B)
  | .socket event => server.step env event
  | .call op => ({ server with orchestrator := (server.orchestrator.perform env op).1 }, none)

/-- The server whose orchestrator has other callers, as a machine. -/
def shared : Mealy (Server F P S B) (ServerEvent F P S B) (Option (SwarmMessage F P B)) :=
  ⟨stepShared env⟩

end Server

/-! ## The record and the connections -/

theorem getElem?_concat_eq_some_iff {α : Type} {l : List α} {a b : α} {i : ℕ} :
    (l ++ [a])[i]? = some b ↔ l[i]? = some b ∨ i = l.length ∧ a = b := by
  rcases lt_trichotomy i l.length with h | rfl | h
  · simp [List.getElem?_append_left h, h.ne]
  · simp
  · have hlength : (l ++ [a]).length ≤ i := by simpa using Nat.succ_le_of_lt h
    simp [List.getElem?_eq_none hlength, List.getElem?_eq_none h.le, h.ne']

namespace FirstItems

variable {crypto : Crypto S B} {sharedSecret : String} {firsts : FirstItems F P B}
  {socket : ℕ} {received : Received F P B}

omit [Scalar F] in
theorem authId_congr {firsts' : FirstItems F P B} {socket : ℕ}
    (h : firsts'[socket]? = firsts[socket]?) :
    firsts'.authId crypto sharedSecret socket = firsts.authId crypto sharedSecret socket := by
  rw [authId, h, authId]

omit [Scalar F] in
theorem authId_eq_some_iff {id : String} : firsts.authId crypto sharedSecret socket = some id ↔
    ∃ nonce tokenHash theirPublic,
      firsts[socket]? = some (nonce, some (.message (.authResponse id tokenHash theirPublic))) ∧
        crypto.verifyHmac nonce sharedSecret tokenHash = true := by
  constructor
  · intro h
    unfold authId at h
    split at h
    · split_ifs at h with hverify
      cases h
      exact ⟨_, _, _, ‹_›, hverify⟩
    · cases h
  · rintro ⟨nonce, tokenHash, theirPublic, hfirst, hverify⟩
    simp only [authId, hfirst, hverify, if_true]

omit [Scalar F] in
theorem receive_self {nonce : B} {first : Option (Received F P B)}
    (h : firsts[socket]? = some (nonce, first)) :
    (firsts.receive socket received)[socket]? = some (nonce, some (first.getD received)) := by
  rw [receive, List.getElem?_modify, h]
  simp

omit [Scalar F] in
theorem receive_of_ne {other : ℕ} (h : other ≠ socket) :
    (firsts.receive socket received)[other]? = firsts[other]? :=
  List.getElem?_modify_ne _ _ (Ne.symm h)

omit [Scalar F] in
/-- What a socket receives after its first item does not change its id. -/
theorem authId_receive {id : String} (h : firsts.authId crypto sharedSecret socket = some id) :
    (firsts.receive socket received).authId crypto sharedSecret socket = some id := by
  obtain ⟨nonce, tokenHash, theirPublic, hfirst, hverify⟩ := authId_eq_some_iff.1 h
  exact authId_eq_some_iff.2 ⟨nonce, tokenHash, theirPublic, receive_self hfirst, hverify⟩

end FirstItems

namespace Server

variable (env)

/-- The server with the record of the first items. -/
def recordingFirsts : Mealy (Server F P S B × FirstItems F P B) (ServerEvent F P S B)
    (Option (SwarmMessage F P B)) :=
  (shared env).observe FirstItems.note

variable {env}

/-- The record tells under which id each connection is authenticated. -/
structure RecordInv (env : Platform P S B) (sharedSecret : String)
    (x : Server F P S B × FirstItems F P B) : Prop where
  settled : x.1.orchestrator.Settled
  secret_eq : x.1.sharedSecret = sharedSecret
  length_eq : x.2.length = x.1.connections.length
  awaiting : ∀ (socket : ℕ) (nonce : B) (mySecret : S),
    x.1.connections[socket]? = some (.awaitingResponse nonce mySecret) →
      x.2[socket]? = some (nonce, none)
  authenticated : ∀ (socket : ℕ) (id : String), x.1.nodeId socket = some id →
    x.2.authId env.crypto sharedSecret socket = some id

variable {x : Server F P S B × FirstItems F P B} {sharedSecret : String}

theorem recordInv_call (inv : RecordInv env sharedSecret x) (op : Op F P B) :
    RecordInv env sharedSecret ((recordingFirsts env).step x (.call op)).1 :=
  ⟨Orchestrator.settled_perform inv.settled op, inv.secret_eq, inv.length_eq, inv.awaiting,
    inv.authenticated⟩

theorem recordInv_accept (inv : RecordInv env sharedSecret x) (nonce : B) (mySecret : S)
    (sent : Bool) :
    RecordInv env sharedSecret
      ((recordingFirsts env).step x (.socket (.accept nonce mySecret sent))).1 := by
  obtain ⟨server, firsts⟩ := x
  obtain ⟨accepted, hnonce, hid, heq⟩ : ∃ accepted : Connection S B,
      (∀ nonce' mySecret', accepted = .awaitingResponse nonce' mySecret' → nonce' = nonce) ∧
        accepted.nodeId = none ∧ (server.accept env nonce mySecret sent).1 =
          { server with connections := server.connections ++ [accepted] } := by
    unfold accept
    split_ifs
    · exact ⟨_, fun _ _ h => by cases h; rfl, rfl, rfl⟩
    · exact ⟨.returned, fun _ _ h => (by cases h), rfl, rfl⟩
  have hstep : ((recordingFirsts env).step (server, firsts)
      (.socket (.accept nonce mySecret sent))).1 =
        ({ server with connections := server.connections ++ [accepted] },
          firsts ++ [(nonce, none)]) := Prod.ext heq rfl
  have hlength : firsts.length = server.connections.length := inv.length_eq
  rw [hstep]
  refine ⟨inv.settled, inv.secret_eq, by simp [hlength], fun socket nonce' mySecret' h => ?_,
    fun socket id h => ?_⟩
  · rw [getElem?_concat_eq_some_iff] at h ⊢
    rcases h with h | ⟨rfl, h⟩
    · exact .inl (inv.awaiting socket nonce' mySecret' h)
    · exact .inr ⟨hlength.symm, by rw [hnonce _ _ h]⟩
  · obtain ⟨sessionKey, hconnection⟩ := nodeId_eq_some_iff.1 h
    rcases getElem?_concat_eq_some_iff.1 hconnection with hold | ⟨-, rfl⟩
    · have hlt : socket < firsts.length := hlength ▸ (List.getElem?_eq_some_iff.1 hold).1
      rw [FirstItems.authId_congr (List.getElem?_append_left hlt)]
      exact inv.authenticated socket id (nodeId_eq_some_iff.2 ⟨sessionKey, hold⟩)
    · cases hid

omit [Scalar F] in
/-- Only an `AuthResponse` with a valid HMAC authenticates a connection. -/
theorem of_nodeId_authenticate {crypto : Crypto S B} {nonce : B} {mySecret : S}
    {received : Received F P B} {id : String}
    (h : (authenticate crypto sharedSecret nonce mySecret received).nodeId = some id) :
    ∃ tokenHash theirPublic, received = .message (.authResponse id tokenHash theirPublic) ∧
      crypto.verifyHmac nonce sharedSecret tokenHash = true := by
  unfold authenticate at h
  split at h
  · split_ifs at h with hverify
    · cases h
      exact ⟨_, _, rfl, hverify⟩
    · cases h
  · cases h

/-- A connection is authenticated before it receives something, or by what it receives. -/
theorem of_nodeId_receive {server : Server F P S B} {socket : ℕ} {received : Received F P B}
    {rng : Entropy} {now : Instant} {id : String}
    (h : (server.receive env socket received rng now).1.nodeId socket = some id) :
    server.nodeId socket = some id ∨ ∃ nonce mySecret,
      server.connections[socket]? = some (.awaitingResponse nonce mySecret) ∧
        (authenticate env.crypto server.sharedSecret nonce mySecret received).nodeId = some id := by
  cases hconnection : server.connections[socket]? with
  | none =>
    simp only [receive, hconnection] at h
    exact .inl h
  | some connection =>
    have hlt : socket < server.connections.length := (List.getElem?_eq_some_iff.1 hconnection).1
    cases connection with
    | awaitingResponse nonce mySecret =>
      simp only [receive, hconnection, nodeId, List.getElem?_set_self hlt] at h
      exact .inr ⟨nonce, mySecret, rfl, h⟩
    | authenticated nodeId sessionKey =>
      rw [receive_of_authenticated env hconnection] at h
      simp only [Server.nodeId, List.getElem?_set_self hlt, Option.bind_some] at h
      rcases serve_connection env server.orchestrator nodeId sessionKey rng now received with
        heq | heq
      · rw [heq] at h
        exact .inl (by rw [Server.nodeId, hconnection]; exact h)
      · rw [heq] at h
        cases h
    | returned =>
      rw [receive_of_returned env hconnection] at h
      exact .inl h

theorem settled_receive {server : Server F P S B} (h : server.orchestrator.Settled) (socket : ℕ)
    (received : Received F P B) (rng : Entropy) (now : Instant) :
    (server.receive env socket received rng now).1.orchestrator.Settled := by
  rcases receive_orchestrator env server socket received rng now with
    heq | ⟨id, op, -, -, heq⟩
  · rw [heq]
    exact h
  · rw [heq]
    exact Orchestrator.settled_perform h op

theorem sharedSecret_receive (server : Server F P S B) (socket : ℕ) (received : Received F P B)
    (rng : Entropy) (now : Instant) :
    (server.receive env socket received rng now).1.sharedSecret = server.sharedSecret := by
  unfold receive
  split <;> rfl

theorem recordInv_receive (inv : RecordInv env sharedSecret x) (socket : ℕ)
    (received : Received F P B) (rng : Entropy) (now : Instant) :
    RecordInv env sharedSecret
      ((recordingFirsts env).step x (.socket (.receive socket received rng now))).1 := by
  refine ⟨settled_receive inv.settled socket received rng now,
    (sharedSecret_receive ..).trans inv.secret_eq, ?_,
    fun other nonce mySecret h => ?_, fun other id h => ?_⟩
  · exact (List.length_modify ..).trans
      (inv.length_eq.trans (length_receive_connections env).symm)
  · change (x.1.receive env socket received rng now).1.connections[other]? = _ at h
    by_cases hne : other = socket
    · subst hne
      cases receive_isAwaiting env h
    · rw [receive_connections_of_ne env hne] at h
      exact (FirstItems.receive_of_ne hne).trans (inv.awaiting other nonce mySecret h)
  · change (x.1.receive env socket received rng now).1.nodeId other = some id at h
    by_cases hne : other = socket
    · subst hne
      rcases of_nodeId_receive h with hid | ⟨nonce, mySecret, hconnection, hid⟩
      · exact FirstItems.authId_receive (inv.authenticated other id hid)
      · obtain ⟨tokenHash, theirPublic, rfl, hverify⟩ := of_nodeId_authenticate hid
        have hfirst := inv.awaiting other nonce mySecret hconnection
        exact FirstItems.authId_eq_some_iff.2 ⟨nonce, tokenHash, theirPublic,
          FirstItems.receive_self hfirst, inv.secret_eq ▸ hverify⟩
    · rw [nodeId, receive_connections_of_ne env hne] at h
      exact (FirstItems.authId_congr (FirstItems.receive_of_ne hne)).trans
        (inv.authenticated other id h)

theorem recordInv_step (inv : RecordInv env sharedSecret x) :
    ∀ e : ServerEvent F P S B, RecordInv env sharedSecret ((recordingFirsts env).step x e).1
  | .socket (.accept nonce mySecret sent) => recordInv_accept inv nonce mySecret sent
  | .socket (.receive socket received rng now) => recordInv_receive inv socket received rng now
  | .call op => recordInv_call inv op

/-- What a connection may change, given the id under which its first item authenticates it. -/
def Confined (orchestrator orchestrator' : Orchestrator F P B) : Option String → Prop
  | none => orchestrator' = orchestrator
  | some id => orchestrator.registry.SameOthers id orchestrator'.registry

theorem confined_step (inv : RecordInv env sharedSecret x) (socket : ℕ)
    (received : Received F P B) (rng : Entropy) (now : Instant) :
    Confined x.1.orchestrator (x.1.receive env socket received rng now).1.orchestrator
      ((x.2.receive socket received).authId env.crypto sharedSecret socket) := by
  rcases receive_orchestrator env x.1 socket received rng now with
    heq | ⟨id, op, hid, hcall, heq⟩
  · rw [heq]
    cases (x.2.receive socket received).authId env.crypto sharedSecret socket with
    | none => rfl
    | some id => exact fun _ _ => rfl
  · rw [heq, FirstItems.authId_receive (inv.authenticated socket id hid)]
    exact Orchestrator.sameOthers_perform inv.settled (Received.subject_of_call hcall)

/-- Whatever a connection receives, at any point of any run, it acts on nothing but the entry under
the id of its first item, and on nothing at all if that is not a valid `AuthResponse`. -/
theorem receive_confined (env : Platform P S B) (total : UInt32) (secret sharedSecret : String)
    (clusterKey : B) (events : List (ServerEvent F P S B)) (socket : ℕ) (received : Received F P B)
    (rng : Entropy) (now : Instant) :
    let start : Server F P S B := .new (.new total secret clusterKey) sharedSecret
    let before := (recordingFirsts env).run (start, []) events
    let after := ((recordingFirsts env).step before
      (.socket (.receive socket received rng now))).1
    Confined before.1.orchestrator after.1.orchestrator
      (after.2.authId env.crypto sharedSecret socket) := by
  intro start before after
  have initial : RecordInv env sharedSecret ((start, []) : Server F P S B × FirstItems F P B) :=
    ⟨Orchestrator.settled_new total secret clusterKey, rfl, rfl, nofun, nofun⟩
  have preserved : ∀ (x : Server F P S B × FirstItems F P B) (e : ServerEvent F P S B),
      RecordInv env sharedSecret x →
        RecordInv env sharedSecret ((recordingFirsts env).step x e).1 :=
    fun x e inv => recordInv_step inv e
  have inv := Mealy.Reachable.invariant (recordingFirsts env) preserved initial ⟨events, rfl⟩
  exact confined_step inv socket received rng now

end Server

end NeuralSwarm
