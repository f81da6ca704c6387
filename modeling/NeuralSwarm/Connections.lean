import NeuralSwarm.Run
import NeuralSwarm.Transport

/-!
# Live connections and the registry

`handle_socket` drains its node by id when its own socket ends, whichever connection announced the
id last.  A history variable says which sockets are announced; the nodes of the announced
connections stay registered exactly as long as no connection drains the id of another one.
-/

namespace NeuralSwarm

variable {F P S B : Type} [Scalar F] (env : Platform P S B)

/-! ## What a call does to the registered ids -/

namespace Orchestrator

variable {o : Orchestrator F P B} {id : String}

/-- Whether an id is in the registry. -/
def registered (o : Orchestrator F P B) (id : String) : Bool := (o.registry.get id).isSome

/-- A rebalance registers nobody and removes nobody. -/
theorem registered_perform (own : o.registry.OwnIds) (op : Op F P B) (id : String) :
    (o.perform env op).1.registered id = ((op.written o).get id).isSome := by
  rw [registered, perform_registry]
  split_ifs
  · rw [rebalance_get env o (Op.written_ownIds own op), Option.isSome_map]
  · rfl

theorem registered_announce (own : o.registry.OwnIds) (deviceId : String) (profile : NodeProfile)
    (initialStatus : NodeStatus F) (now : Instant) :
    (o.perform env (.announce deviceId profile initialStatus now)).1.registered id =
      (decide (id = deviceId) || o.registered id) := by
  obtain ⟨registry, hready, hget⟩ :=
    o.registry.markReady_register deviceId profile initialStatus now
  rw [registered_perform env own]
  simp only [Op.written, hready, Except.toOption, Option.getD_some, hget]
  split_ifs with h
  · simp [h]
  · simp [h, registered]

theorem registered_drain (own : o.registry.OwnIds) (deviceId : String) :
    (o.perform env (.drain deviceId)).1.registered id =
      (!decide (id = deviceId) && o.registered id) := by
  rw [registered_perform env own, Op.written, NodeRegistry.get_remove]
  split_ifs with h
  · simp [h]
  · simp [h, registered]

theorem registered_statusUpdate (own : o.registry.OwnIds) (deviceId : String)
    (status : NodeStatus F) (now : Instant) :
    (o.perform env (.statusUpdate deviceId status now)).1.registered id = o.registered id := by
  rw [registered_perform env own, Op.written, NodeRegistry.get_modify, Option.isSome_map,
    registered]

theorem registered_heartbeat (own : o.registry.OwnIds) (deviceId : String) (now : Instant) :
    (o.perform env (.heartbeat deviceId now)).1.registered id = o.registered id := by
  rw [registered_perform env own, Op.written, NodeRegistry.heartbeat, NodeRegistry.get_modify,
    Option.isSome_map, registered]

end Orchestrator

/-! ## What a socket event does -/

/-- The call that a turn of the event loop makes to the orchestrator. -/
def Received.call (nodeId : String) (now : Instant) : Received F P B → Option (Op F P B)
  | .message (.nodeAnnounce deviceId _ profile initialStatus) =>
    if deviceId = nodeId then some (.announce nodeId profile initialStatus now) else none
  | .message (.statusUpdate status) => some (.statusUpdate nodeId status now)
  | .message .heartbeat => some (.heartbeat nodeId now)
  | .message (.drainRequest _) | .ended => some (.drain nodeId)
  | _ => none

theorem serve_orchestrator (o : Orchestrator F P B) (nodeId : String) (sessionKey : B)
    (rng : Entropy) (now : Instant) (received : Received F P B) :
    (serve env o nodeId sessionKey rng now received).1 =
      ((received.call nodeId now).map fun op => (o.perform env op).1).getD o := by
  cases received with
  | message msg =>
    cases msg with
    | nodeAnnounce deviceId peerId profile initialStatus =>
      by_cases h : deviceId = nodeId
      · subst h
        simp only [serve, Received.call, ne_eq, not_true_eq_false, if_false, if_true]
        rfl
      · simp only [serve, Received.call, ne_eq, h, not_false_eq_true, if_true, if_false]
        rfl
    | _ => rfl
  | _ => rfl

/-- A turn of the event loop keeps the connection as it is or returns. -/
theorem serve_connection (o : Orchestrator F P B) (nodeId : String) (sessionKey : B)
    (rng : Entropy) (now : Instant) (received : Received F P B) :
    (serve env o nodeId sessionKey rng now received).2.1 = .authenticated nodeId sessionKey ∨
      (serve env o nodeId sessionKey rng now received).2.1 = (.returned : Connection S B) := by
  unfold serve
  split
  · split_ifs
    · exact .inr rfl
    · exact .inl rfl
  all_goals first | exact .inl rfl | exact .inr rfl

namespace Connection

/-- The node id under which a connection is authenticated. -/
def nodeId : Connection S B → Option String
  | authenticated nodeId _ => some nodeId
  | _ => none

def isAwaiting : Connection S B → Bool
  | awaitingResponse .. => true
  | _ => false

end Connection

omit [Scalar F] in
theorem authenticate_isAwaiting (crypto : Crypto S B) (sharedSecret : String) (nonce : B)
    (mySecret : S) (received : Received F P B) :
    (authenticate crypto sharedSecret nonce mySecret received).isAwaiting = false := by
  unfold authenticate
  split
  · split_ifs <;> rfl
  · rfl

namespace Server

/-- The node id of a socket, if it is authenticated. -/
def nodeId (server : Server F P S B) (socket : ℕ) : Option String :=
  server.connections[socket]?.bind (·.nodeId)

variable {server : Server F P S B} {socket : ℕ} {received : Received F P B} {rng : Entropy}
  {now : Instant}

omit [Scalar F] in
theorem accept_eq (server : Server F P S B) (nonce : B) (mySecret : S) (sent : Bool) :
    ∃ connection, (server.accept env nonce mySecret sent).1 =
      { server with connections := server.connections ++ [connection] } := by
  unfold accept
  split_ifs
  · exact ⟨.awaitingResponse nonce mySecret, rfl⟩
  · exact ⟨.returned, rfl⟩

omit [Scalar F] in
theorem nodeId_eq_some_iff {nodeId : String} : server.nodeId socket = some nodeId ↔
    ∃ sessionKey, server.connections[socket]? = some (.authenticated nodeId sessionKey) := by
  rw [Server.nodeId, Option.bind_eq_some_iff]
  constructor
  · rintro ⟨connection, h, hid⟩
    cases connection with
    | authenticated =>
      cases hid
      exact ⟨_, h⟩
    | _ => cases hid
  · rintro ⟨sessionKey, h⟩
    exact ⟨_, h, rfl⟩

theorem receive_of_returned (h : server.connections[socket]? = some .returned) :
    server.receive env socket received rng now = (server, none) := by
  simp only [receive, h]

theorem receive_of_unauthenticated (h : server.nodeId socket = none) :
    (server.receive env socket received rng now).1.orchestrator = server.orchestrator ∧
      (server.receive env socket received rng now).2 = none := by
  rw [nodeId, Option.bind_eq_none_iff] at h
  unfold receive
  split
  · exact ⟨rfl, rfl⟩
  · cases h _ ‹_›
  · exact ⟨rfl, rfl⟩
  · exact ⟨rfl, rfl⟩

theorem receive_of_authenticated {nodeId : String} {sessionKey : B}
    (h : server.connections[socket]? = some (.authenticated nodeId sessionKey)) :
    server.receive env socket received rng now =
      let served := serve env server.orchestrator nodeId sessionKey rng now received
      ({ server with
          orchestrator := served.1
          connections := server.connections.set socket served.2.1 }, served.2.2) := by
  simp only [receive, h]

/-- A socket changes the orchestrator through one call about the node it is authenticated as. -/
theorem receive_orchestrator (server : Server F P S B) (socket : ℕ) (received : Received F P B)
    (rng : Entropy) (now : Instant) :
    (server.receive env socket received rng now).1.orchestrator = server.orchestrator ∨
      ∃ id op, server.nodeId socket = some id ∧ received.call id now = some op ∧
        (server.receive env socket received rng now).1.orchestrator =
          (server.orchestrator.perform env op).1 := by
  cases hid : server.nodeId socket with
  | none => exact .inl (receive_of_unauthenticated env hid).1
  | some id =>
    obtain ⟨sessionKey, hconnection⟩ := nodeId_eq_some_iff.1 hid
    rw [receive_of_authenticated env hconnection]
    simp only [serve_orchestrator]
    cases hcall : received.call id now with
    | none => exact .inl rfl
    | some op => exact .inr ⟨id, op, rfl, hcall, rfl⟩

/-- An event on one socket leaves the other connections as they are. -/
theorem receive_connections_of_ne {other : ℕ} (h : other ≠ socket) :
    (server.receive env socket received rng now).1.connections[other]? =
      server.connections[other]? := by
  unfold receive
  split
  · exact List.getElem?_set_ne (Ne.symm h)
  · exact List.getElem?_set_ne (Ne.symm h)
  · rfl
  · rfl

theorem length_receive_connections :
    (server.receive env socket received rng now).1.connections.length =
      server.connections.length := by
  unfold receive
  split
  · exact List.length_set
  · exact List.length_set
  · rfl
  · rfl

/-- A connection that has received something no longer waits for its `AuthResponse`. -/
theorem receive_isAwaiting {connection : Connection S B}
    (h : (server.receive env socket received rng now).1.connections[socket]? = some connection) :
    connection.isAwaiting = false := by
  unfold receive at h
  split at h
  · rw [List.getElem?_set_self', Option.map_eq_map, Option.map_eq_some_iff] at h
    obtain ⟨-, -, rfl⟩ := h
    exact authenticate_isAwaiting ..
  · rw [List.getElem?_set_self', Option.map_eq_map, Option.map_eq_some_iff] at h
    obtain ⟨-, -, rfl⟩ := h
    rcases serve_connection env server.orchestrator _ _ rng now received with heq | heq <;>
      rw [Function.const_apply, heq] <;> rfl
  · rename_i hreturned
    rw [hreturned] at h
    cases h
    rfl
  · rename_i hnone
    rw [hnone] at h
    cases h

end Server

/-! ## Announced sockets -/

/-- Whether what is received makes the event loop drain its node. -/
def Received.drains : Received F P B → Bool
  | .message (.drainRequest _) | .ended => true
  | _ => false

/-- Whether a socket counts as announced after what it has received and been sent: from a successful
`NodeAnnounce` until it asks to be drained or closes. -/
def Received.keepsAnnounced (announced : Bool) (sent : Option (SwarmMessage F P B)) :
    Received F P B → Bool
  | .message (.nodeAnnounce ..) => announced || sent.isSome
  | .message (.drainRequest _) | .ended => false
  | _ => announced

/-- The announced sockets after an event. -/
def noteAnnounced (announced : ℕ → Bool) (_ : Server F P S B) :
    SocketEvent F P S B → Option (SwarmMessage F P B) → ℕ → Bool
  | .accept .., _ => announced
  | .receive socket received _ _, sent =>
    Function.update announced socket (received.keepsAnnounced (announced socket) sent)

/-- The server with a record of the announced sockets. -/
def watching : Mealy (Server F P S B × (ℕ → Bool)) (SocketEvent F P S B)
    (Option (SwarmMessage F P B)) :=
  (Server.machine env).observe noteAnnounced

/-- The node id of a socket that is authenticated and announced. -/
def liveId (x : Server F P S B × (ℕ → Bool)) (socket : ℕ) : Option String :=
  if x.2 socket then x.1.nodeId socket else none

/-- Every announced connection has its node in the registry. -/
def LiveRegistered (x : Server F P S B × (ℕ → Bool)) : Prop :=
  ∀ socket nodeId, liveId x socket = some nodeId → x.1.orchestrator.registered nodeId = true

/-- If the event drains a node, no other socket is announced under its id. -/
def DrainsOnlyOwn (x : Server F P S B × (ℕ → Bool)) : SocketEvent F P S B → Prop
  | .accept .. => True
  | .receive socket received _ _ =>
    received.drains = true → ∀ other < x.1.connections.length, other ≠ socket →
      ∀ nodeId ∈ x.1.nodeId socket, liveId x other ≠ some nodeId

instance (x : Server F P S B × (ℕ → Bool)) :
    ∀ e : SocketEvent F P S B, Decidable (DrainsOnlyOwn x e)
  | .accept .. => .isTrue trivial
  | .receive .. => inferInstanceAs (Decidable (_ → _))

structure WatchInv (x : Server F P S B × (ℕ → Bool)) : Prop where
  own : x.1.orchestrator.registry.OwnIds
  /-- Only a connection that has received something is announced. -/
  received : ∀ socket, x.2 socket = true →
    ∃ connection, x.1.connections[socket]? = some connection ∧ connection.isAwaiting = false

/-- Whether what is received announces the node of the connection. -/
def Received.announces (nodeId : String) : Received F P B → Bool
  | .message (.nodeAnnounce deviceId ..) => deviceId = nodeId
  | _ => false

section Step

variable {env} {x : Server F P S B × (ℕ → Bool)} {socket other : ℕ} {received : Received F P B}
  {rng : Entropy} {now : Instant} {nodeId id : String}

/-- The registered ids after a turn of the event loop. -/
theorem registered_serve {o : Orchestrator F P B} (own : o.registry.OwnIds) (sessionKey : B) :
    (serve env o nodeId sessionKey rng now received).1.registered id =
      if received.drains then !decide (id = nodeId) && o.registered id
      else (received.announces nodeId && decide (id = nodeId)) || o.registered id := by
  rw [serve_orchestrator]
  cases received with
  | message msg =>
    cases msg with
    | nodeAnnounce deviceId peerId profile initialStatus =>
      by_cases h : deviceId = nodeId
      · simpa [Received.call, Received.drains, Received.announces, h] using
          o.registered_announce env own nodeId profile initialStatus now
      · simp [Received.call, Received.drains, Received.announces, h]
    | statusUpdate status =>
      simpa [Received.call, Received.drains, Received.announces] using
        o.registered_statusUpdate env own nodeId status now
    | heartbeat =>
      simpa [Received.call, Received.drains, Received.announces] using
        o.registered_heartbeat env own nodeId now
    | drainRequest reason => exact o.registered_drain env own nodeId
    | _ => rfl
  | ended => exact o.registered_drain env own nodeId
  | _ => rfl

/-- A socket announced after a turn of the event loop has not just been drained, and was announced
before or has announced its node. -/
theorem keepsAnnounced_serve {o : Orchestrator F P B} {announced : Bool} {sessionKey : B}
    (h : received.keepsAnnounced announced
      (serve env o nodeId sessionKey rng now received).2.2 = true) :
    received.drains = false ∧ (announced = true ∨ received.announces nodeId = true) := by
  cases received with
  | message msg =>
    cases msg with
    | nodeAnnounce deviceId peerId profile initialStatus =>
      refine ⟨rfl, ?_⟩
      by_cases hid : deviceId = nodeId
      · exact .inr (decide_eq_true hid)
      · simp only [serve, ne_eq, hid, not_false_eq_true, if_true, Received.keepsAnnounced,
          Option.isSome_none, Bool.or_false] at h
        exact .inl h
    | drainRequest reason => cases h
    | _ => exact ⟨rfl, .inl h⟩
  | ended => cases h
  | _ => exact ⟨rfl, .inl h⟩

omit [Scalar F] in
theorem keepsAnnounced_none {announced : Bool}
    (h : received.keepsAnnounced announced (none : Option (SwarmMessage F P B)) = true) :
    announced = true := by
  unfold Received.keepsAnnounced at h
  split at h <;> simp_all

theorem liveId_receive_of_ne (h : other ≠ socket) :
    liveId ((watching env).step x (.receive socket received rng now)).1 other = liveId x other := by
  have hconnection : (x.1.receive env socket received rng now).1.nodeId other = x.1.nodeId other :=
    congrArg (Option.bind · Connection.nodeId) (Server.receive_connections_of_ne env h)
  have hannounced : noteAnnounced x.2 x.1 (.receive socket received rng now)
      (x.1.receive env socket received rng now).2 other = x.2 other := Function.update_of_ne h ..
  exact congrArg₂ (fun announced id => if announced = true then id else none) hannounced hconnection

theorem liveId_accept (inv : WatchInv x) (nonce : B) (mySecret : S) (sent : Bool) (socket : ℕ) :
    liveId ((watching env).step x (.accept nonce mySecret sent)).1 socket = liveId x socket := by
  show (if x.2 socket then (x.1.accept env nonce mySecret sent).1.nodeId socket else none) =
    liveId x socket
  obtain ⟨accepted, heq⟩ := Server.accept_eq env x.1 nonce mySecret sent
  cases hannounced : x.2 socket with
  | false => simp [liveId, hannounced]
  | true =>
    obtain ⟨connection, hconnection, -⟩ := inv.received socket hannounced
    have hlt : socket < x.1.connections.length := (List.getElem?_eq_some_iff.1 hconnection).1
    simp only [liveId, hannounced, if_true, heq, Server.nodeId, List.getElem?_append_left hlt]

/-- A socket that is live after it has received something was live or has announced its node, and
has not just been drained. -/
theorem liveId_receive_self (inv : WatchInv x)
    (h : liveId ((watching env).step x (.receive socket received rng now)).1 socket = some id) :
    x.1.nodeId socket = some id ∧ received.drains = false ∧
      (liveId x socket = some id ∨ received.announces id = true) := by
  change (if noteAnnounced x.2 x.1 (.receive socket received rng now)
    (x.1.receive env socket received rng now).2 socket = true then
      (x.1.receive env socket received rng now).1.nodeId socket else none) = some id at h
  rw [noteAnnounced, Function.update_self] at h
  split_ifs at h with hkeeps
  cases hid : x.1.nodeId socket with
  | none =>
    rw [(Server.receive_of_unauthenticated env hid).2] at hkeeps
    obtain ⟨connection, hconnection, hawaiting⟩ := inv.received socket (keepsAnnounced_none hkeeps)
    cases connection with
    | awaitingResponse => cases hawaiting
    | authenticated =>
      rw [Server.nodeId, hconnection] at hid
      cases hid
    | returned =>
      rw [Server.receive_of_returned env hconnection, hid] at h
      cases h
  | some nodeId =>
    obtain ⟨sessionKey, hconnection⟩ := Server.nodeId_eq_some_iff.1 hid
    have hlt : socket < x.1.connections.length := (List.getElem?_eq_some_iff.1 hconnection).1
    rw [Server.receive_of_authenticated env hconnection] at h hkeeps
    simp only [Server.nodeId, List.getElem?_set_self hlt, Option.bind_some] at h
    obtain ⟨hdrains, hbefore⟩ := keepsAnnounced_serve hkeeps
    have heq : nodeId = id := by
      rcases serve_connection env x.1.orchestrator nodeId sessionKey rng now received with
        hc | hc <;> rw [hc] at h <;> cases h
      rfl
    subst heq
    refine ⟨rfl, hdrains, hbefore.imp_left fun hannounced => ?_⟩
    rw [liveId, hannounced, if_pos rfl, hid]

theorem watchInv_accept (inv : WatchInv x) (nonce : B) (mySecret : S) (sent : Bool) :
    WatchInv ((watching env).step x (.accept nonce mySecret sent)).1 := by
  obtain ⟨accepted, heq⟩ := Server.accept_eq env x.1 nonce mySecret sent
  have hstep : ((watching env).step x (.accept nonce mySecret sent)).1 =
    ({ x.1 with connections := x.1.connections ++ [accepted] }, x.2) := Prod.ext heq rfl
  rw [hstep]
  refine ⟨inv.own, fun socket hannounced => ?_⟩
  obtain ⟨connection, hconnection, hawaiting⟩ := inv.received socket hannounced
  have hlt : socket < x.1.connections.length := (List.getElem?_eq_some_iff.1 hconnection).1
  exact ⟨connection, (List.getElem?_append_left hlt).trans hconnection, hawaiting⟩

theorem ownIds_receive {server : Server F P S B}
    (own : server.orchestrator.registry.OwnIds) :
    (server.receive env socket received rng now).1.orchestrator.registry.OwnIds := by
  rcases Server.receive_orchestrator env server socket received rng now with
    heq | ⟨id, op, -, -, heq⟩
  · rw [heq]
    exact own
  · rw [heq]
    exact Orchestrator.perform_ownIds env own op

theorem watchInv_receive (inv : WatchInv x) :
    WatchInv ((watching env).step x (.receive socket received rng now)).1 := by
  refine ⟨ownIds_receive inv.own, fun other hannounced => ?_⟩
  show ∃ connection, (x.1.receive env socket received rng now).1.connections[other]? =
    some connection ∧ _
  change noteAnnounced x.2 x.1 (.receive socket received rng now)
    (x.1.receive env socket received rng now).2 other = true at hannounced
  by_cases hne : other = socket
  · subst hne
    rw [noteAnnounced, Function.update_self] at hannounced
    have hlt : other < x.1.connections.length := by
      cases hid : x.1.nodeId other with
      | none =>
        rw [(Server.receive_of_unauthenticated env hid).2] at hannounced
        obtain ⟨_, hconnection, -⟩ := inv.received other (keepsAnnounced_none hannounced)
        exact (List.getElem?_eq_some_iff.1 hconnection).1
      | some nodeId =>
        obtain ⟨_, hconnection⟩ := Server.nodeId_eq_some_iff.1 hid
        exact (List.getElem?_eq_some_iff.1 hconnection).1
    rw [← Server.length_receive_connections env] at hlt
    exact ⟨_, List.getElem?_eq_getElem hlt,
      Server.receive_isAwaiting env (List.getElem?_eq_getElem hlt)⟩
  · rw [noteAnnounced, Function.update_of_ne hne] at hannounced
    rw [Server.receive_connections_of_ne env hne]
    exact inv.received other hannounced

theorem watchInv_step (inv : WatchInv x) (e : SocketEvent F P S B) :
    WatchInv ((watching env).step x e).1 := by
  cases e with
  | accept nonce mySecret sent => exact watchInv_accept inv nonce mySecret sent
  | receive => exact watchInv_receive inv

/-- The registered ids after a socket has received something. -/
theorem registered_receive {server : Server F P S B} (own : server.orchestrator.registry.OwnIds)
    (hid : server.nodeId socket = some nodeId) :
    (server.receive env socket received rng now).1.orchestrator.registered id =
      if received.drains then !decide (id = nodeId) && server.orchestrator.registered id
      else (received.announces nodeId && decide (id = nodeId)) ||
        server.orchestrator.registered id := by
  obtain ⟨sessionKey, hconnection⟩ := Server.nodeId_eq_some_iff.1 hid
  rw [Server.receive_of_authenticated env hconnection]
  exact registered_serve own sessionKey

/-- An authenticated socket keeps the live nodes registered exactly if it drains no other's. -/
theorem liveRegistered_receive_iff (inv : WatchInv x) (live : LiveRegistered x)
    (hid : x.1.nodeId socket = some nodeId) :
    LiveRegistered ((watching env).step x (.receive socket received rng now)).1 ↔
      (received.drains = true → ∀ other ≠ socket, liveId x other ≠ some nodeId) := by
  constructor
  · intro h hdrains other hne hother
    have hlive := h other nodeId ((liveId_receive_of_ne hne).trans hother)
    change (x.1.receive env socket received rng now).1.orchestrator.registered nodeId = true
      at hlive
    rw [registered_receive inv.own hid, if_pos hdrains] at hlive
    simp at hlive
  · intro h other id hother
    show (x.1.receive env socket received rng now).1.orchestrator.registered id = true
    rw [registered_receive inv.own hid]
    by_cases hne : other = socket
    · subst hne
      obtain ⟨hself, hdrains, hbefore⟩ := liveId_receive_self inv hother
      obtain rfl : nodeId = id := Option.some.inj (hid.symm.trans hself)
      rcases hbefore with hbefore | hannounces
      · simp [hdrains, live _ _ hbefore]
      · simp [hdrains, hannounces]
    · rw [liveId_receive_of_ne hne] at hother
      cases hdrains : received.drains with
      | false => simp [live _ _ hother]
      | true =>
        have hne' : id ≠ nodeId := fun heq => h hdrains other hne (heq ▸ hother)
        simp [hne', live _ _ hother]

omit [Scalar F] in
theorem lt_length_of_liveId (h : liveId x socket = some id) :
    socket < x.1.connections.length := by
  rw [liveId] at h
  split_ifs at h
  obtain ⟨_, hconnection⟩ := Server.nodeId_eq_some_iff.1 h
  exact (List.getElem?_eq_some_iff.1 hconnection).1

theorem liveRegistered_step_iff (inv : WatchInv x) (live : LiveRegistered x)
    (e : SocketEvent F P S B) :
    LiveRegistered ((watching env).step x e).1 ↔ DrainsOnlyOwn x e := by
  cases e with
  | accept nonce mySecret sent =>
    refine iff_of_true (fun socket id h => ?_) trivial
    obtain ⟨_, heq⟩ := Server.accept_eq env x.1 nonce mySecret sent
    rw [liveId_accept inv] at h
    show (x.1.accept env nonce mySecret sent).1.orchestrator.registered id = true
    rw [heq]
    exact live socket id h
  | receive socket received rng now =>
    cases hid : x.1.nodeId socket with
    | none =>
      refine iff_of_true (fun other id h => ?_) fun _ other _ _ nodeId hmem => ?_
      · have hne : other ≠ socket := by
          rintro rfl
          cases hid.symm.trans (liveId_receive_self inv h).1
        rw [liveId_receive_of_ne hne] at h
        show (x.1.receive env socket received rng now).1.orchestrator.registered id = true
        rw [(Server.receive_of_unauthenticated env hid).1]
        exact live other id h
      · cases hid.symm.trans hmem
    | some nodeId =>
      rw [liveRegistered_receive_iff inv live hid]
      refine forall_congr' fun _ => ⟨fun h other _ hne id hmem => ?_, fun h other hne hother => ?_⟩
      · obtain rfl : nodeId = id := Option.some.inj (hid.symm.trans hmem)
        exact h other hne
      · exact h other (lt_length_of_liveId hother) hne nodeId hid hother

end Step

/-! ## Whole runs -/

/-- The server before its first connection, with no socket announced. -/
def watchedServer (total : UInt32) (sharedSecret : String) (clusterKey : B) :
    Server F P S B × (ℕ → Bool) :=
  (.new (.new total sharedSecret clusterKey) sharedSecret, fun _ => false)

/-- Throughout a run the nodes of the announced connections are registered exactly if no connection
drains an id under which another one is announced. -/
theorem liveRegistered_run_iff (total : UInt32) (sharedSecret : String) (clusterKey : B)
    (events : List (SocketEvent F P S B)) :
    (∀ before, before <+: events →
        LiveRegistered ((watching env).run (watchedServer total sharedSecret clusterKey) before)) ↔
      (watching env).Guarded DrainsOnlyOwn (watchedServer total sharedSecret clusterKey)
        events := by
  have inv : WatchInv (watchedServer total sharedSecret clusterKey : Server F P S B × _) :=
    ⟨NodeRegistry.ownIds_empty, fun _ h => by cases h⟩
  have keeps : ∀ (x : Server F P S B × (ℕ → Bool)) (e : SocketEvent F P S B), WatchInv x →
      LiveRegistered x → (LiveRegistered ((watching env).step x e).1 ↔ DrainsOnlyOwn x e) :=
    fun _ e inv live => liveRegistered_step_iff inv live e
  have live : LiveRegistered (watchedServer total sharedSecret clusterKey : Server F P S B × _) :=
    fun _ _ h => by cases h
  exact (watching env).guarded_iff_prefixes (fun _ e h => watchInv_step h e) keeps inv live

/-! ## A reconnect -/

/-- The events of a socket that authenticates and announces a node. -/
def joinOn (socket : ℕ) (a : Announcement Float32) :
    List (SocketEvent Float32 Ed25519PeerId Unit Bytes) :=
  [.accept [] () true,
    .receive socket (.message (.authResponse a.deviceId
      (Platform.reference.crypto.signHmac [] "secret") [])) (fun _ => 0) a.now,
    .receive socket (.message (.nodeAnnounce a.deviceId none a.profile a.initialStatus))
      (fun _ => 0) a.now]

/-- A node reconnects and announces itself again; then its old connection closes and takes the new
entry with it. -/
theorem not_liveRegistered_reconnect :
    ¬ LiveRegistered ((watching Platform.reference).run (watchedServer 32 "secret" [])
      (joinOn 0 announcementA ++ joinOn 1 announcementA ++
        [.receive 0 .ended (fun _ => 0) 2])) := by
  intro live
  have hlive := live 1 peerA (by decide +kernel)
  revert hlive
  decide +kernel

end NeuralSwarm
