import NeuralSwarm.Connections
import NeuralSwarm.Entries

/-!
# What nodes know of their layers

A node is told its layers when it announces itself and when its own status update has moved them.
A rebalance moves the layers of other nodes too, and nothing is sent to them.  A history variable
keeps the last assignment sent to each node; it is the one in the registry for all announced
connections as long as every call that rebalances leaves the parts of the other nodes as they are.
-/

namespace NeuralSwarm

variable {F P S B : Type}

/-- The assignment that a message brings to its receiver. -/
def SwarmMessage.assignment : SwarmMessage F P B → Option (List ℕ)
  | .joinResponse assignedLayers _ _ => some assignedLayers
  | .rebalanceCommand newLayers => some newLayers
  | _ => none

@[simp] theorem SwarmMessage.assignment_withClusterKey (crypto : Crypto S B) (rng : Entropy)
    (clusterKey sessionKey : B) (msg : SwarmMessage F P B) :
    (msg.withClusterKey crypto rng clusterKey sessionKey).assignment = msg.assignment := by
  unfold withClusterKey
  split
  · split <;> rfl
  · rfl

theorem NodeEntry.follow_assignedLayers (plan : List (String × List ℕ)) (n : NodeEntry F) :
    (n.follow plan).assignedLayers = (plan.lookup n.id).getD n.assignedLayers := by
  unfold follow
  cases plan.lookup n.id <;> rfl

variable [Scalar F] (env : Platform P S B)

/-! ## One call -/

section Call

variable {env} {o : Orchestrator F P B} {nodeId id : String} {now : Instant}
  {received : Received F P B} {told : Option (List ℕ)}

/-- A connection writes to the entry of its own node only. -/
theorem get_written_of_ne {op : Op F P B} (hcall : received.call nodeId now = some op)
    (h : id ≠ nodeId) : (op.written o).get id = o.registry.get id := by
  have hmodify : ∀ write : NodeEntry F → NodeEntry F,
      (o.registry.modify nodeId write).get id = o.registry.get id := by
    intro write
    rw [NodeRegistry.get_modify]
    simp only [if_neg h, Option.map_id']
  have hremove : (o.registry.remove nodeId).get id = o.registry.get id := by
    rw [NodeRegistry.get_remove, if_neg h]
  cases received with
  | message msg =>
    cases msg with
    | nodeAnnounce deviceId peerId profile initialStatus =>
      simp only [Received.call] at hcall
      split_ifs at hcall
      cases hcall
      obtain ⟨registry, hready, hget⟩ :=
        o.registry.markReady_register nodeId profile initialStatus now
      simp only [Op.written, hready, Except.toOption, Option.getD_some, hget, if_neg h]
    | statusUpdate | heartbeat =>
      cases hcall
      exact hmodify _
    | drainRequest =>
      cases hcall
      exact hremove
    | _ => cases hcall
  | ended =>
    cases hcall
    exact hremove
  | _ => cases hcall

/-- The node of an announce is told its layers. -/
theorem told_announce (own : o.registry.OwnIds) {sessionKey : B} {rng : Entropy}
    {peerId : Option String} {profile : NodeProfile} {initialStatus : NodeStatus F}
    {n : NodeEntry F}
    (hn : (o.handleAnnounce env nodeId profile initialStatus now).1.registry.get nodeId =
      some n) :
    ((serve env o nodeId sessionKey rng now
        (.message (.nodeAnnounce nodeId peerId profile initialStatus))).2.2.bind
          (·.assignment)) = some n.assignedLayers := by
  obtain ⟨answer, hanswer⟩ :=
    o.exists_handleAnnounce_ok env own nodeId profile initialStatus now
  have hlayers := Orchestrator.eq_joinResponse_of_handleAnnounce env hanswer
  rw [Orchestrator.layersOf, hn] at hlayers
  simp only [serve, ne_eq, not_true_eq_false, if_false, hanswer, Except.toOption, Option.map_some,
    Option.bind_some, SwarmMessage.assignment_withClusterKey, hlayers]
  rfl

/-- A status update tells its node its layers if they have changed. -/
theorem told_statusUpdate {status : NodeStatus F} {n : NodeEntry F}
    (h : ∀ n, o.registry.get nodeId = some n → told = some n.assignedLayers)
    (hn : (o.handleStatusUpdate env nodeId status now).1.registry.get nodeId = some n) :
    (((o.handleStatusUpdate env nodeId status now).2.toOption.join.bind
      (·.assignment)).or told) = some n.assignedLayers := by
  unfold Orchestrator.handleStatusUpdate NodeRegistry.updateStatus at hn ⊢
  cases hget : o.registry.get nodeId with
  | none =>
    simp only [hget] at hn
    cases hn
  | some entry =>
    have hold : (o.registry.modify nodeId (·.withStatus status now)).get nodeId =
        some (entry.withStatus status now) := by
      rw [NodeRegistry.get_modify, hget, Option.map_some, if_pos rfl]
    simp only [hget] at hn ⊢
    split_ifs at hn ⊢ with hsignificant hchanged
    · simp only [Orchestrator.layersOf, hn]
      rfl
    · simp only [Orchestrator.layersOf, hn, hold, Option.map_some, Option.getD_some, ne_eq,
        not_not] at hchanged
      rw [h entry hget, ← hchanged]
      rfl
    · cases hold.symm.trans hn
      exact h entry hget

/-- After a turn of the event loop the node of the connection knows its layers, if it knew them or
has just announced itself. -/
theorem told_serve (own : o.registry.OwnIds) (sessionKey : B) (rng : Entropy)
    (h : received.announces nodeId = true ∨
      ∀ n, o.registry.get nodeId = some n → told = some n.assignedLayers)
    {n : NodeEntry F}
    (hn : (serve env o nodeId sessionKey rng now received).1.registry.get nodeId = some n) :
    ((serve env o nodeId sessionKey rng now received).2.2.bind (·.assignment)).or told =
      some n.assignedLayers := by
  have hdrained : (o.handleDrain env nodeId).1.registry.get nodeId = none := by
    have hregistered : (o.perform env (.drain nodeId)).1.registered nodeId = false := by
      rw [Orchestrator.registered_drain env own]
      simp
    exact Option.isNone_iff_eq_none.1 (Option.isSome_eq_false_iff.1 hregistered)
  cases received with
  | message msg =>
    cases msg with
    | nodeAnnounce deviceId peerId profile initialStatus =>
      by_cases heq : deviceId = nodeId
      · subst heq
        have hn' : (o.handleAnnounce env deviceId profile initialStatus now).1.registry.get
            deviceId = some n := by simpa [serve] using hn
        rw [told_announce own hn', Option.some_or]
      · simp only [serve, ne_eq, heq, not_false_eq_true, if_true] at hn ⊢
        exact h.resolve_left (by simp [Received.announces, heq]) n hn
    | statusUpdate status => exact told_statusUpdate (h.resolve_left Bool.false_ne_true) hn
    | heartbeat =>
      have hsame : ((o.registry.heartbeat nodeId now).get nodeId) = some n := hn
      rw [NodeRegistry.heartbeat, NodeRegistry.get_modify, Option.map_eq_some_iff] at hsame
      obtain ⟨old, hold, rfl⟩ := hsame
      rw [if_pos rfl]
      exact h.resolve_left Bool.false_ne_true old hold
    | drainRequest => cases hdrained.symm.trans hn
    | _ => exact h.resolve_left Bool.false_ne_true n hn
  | ended => cases hdrained.symm.trans hn
  | _ => exact h.resolve_left Bool.false_ne_true n hn

end Call

/-! ## Whole runs -/

/-- What each node has been sent last. -/
def noteTold (told : String → Option (List ℕ)) (x : Server F P S B × (ℕ → Bool)) :
    SocketEvent F P S B → Option (SwarmMessage F P B) → String → Option (List ℕ)
  | .accept .., _ => told
  | .receive socket .., sent =>
    match x.1.nodeId socket with
    | some id => Function.update told id ((sent.bind (·.assignment)).or (told id))
    | none => told

/-- The server with a record of the announced sockets and of the assignments that it has sent. -/
def informing : Mealy ((Server F P S B × (ℕ → Bool)) × (String → Option (List ℕ)))
    (SocketEvent F P S B) (Option (SwarmMessage F P B)) :=
  (watching env).observe noteTold

/-- Every announced connection has been told the layers that its node has in the registry. -/
def Informed (x : (Server F P S B × (ℕ → Bool)) × (String → Option (List ℕ))) : Prop :=
  ∀ socket id n, liveId x.1 socket = some id → x.1.1.orchestrator.registry.get id = some n →
    x.2 id = some n.assignedLayers

/-- If the event rebalances, the parts of the other announced nodes stay as they are. -/
def KeepsOthers (x : (Server F P S B × (ℕ → Bool)) × (String → Option (List ℕ))) :
    SocketEvent F P S B → Prop
  | .accept .. => True
  | .receive socket received _ now =>
    ∀ nodeId ∈ x.1.1.nodeId socket, ∀ op ∈ received.call nodeId now,
      op.rebalances x.1.1.orchestrator = true →
        ∀ other < x.1.1.connections.length, ∀ id ∈ liveId x.1 other, id ≠ nodeId →
          ∀ n ∈ x.1.1.orchestrator.registry.get id,
            ((layerPlan x.1.1.orchestrator.totalModelLayers.toNat
              (op.written x.1.1.orchestrator).sortedByCapacity).lookup id).getD
                n.assignedLayers = n.assignedLayers

instance (x : (Server F P S B × (ℕ → Bool)) × (String → Option (List ℕ))) :
    ∀ e : SocketEvent F P S B, Decidable (KeepsOthers x e)
  | .accept .. => .isTrue trivial
  | .receive socket received _ now =>
    inferInstanceAs (Decidable (∀ nodeId ∈ x.1.1.nodeId socket,
      ∀ op ∈ received.call nodeId now, op.rebalances x.1.1.orchestrator = true →
        ∀ other < x.1.1.connections.length, ∀ id ∈ liveId x.1 other, id ≠ nodeId →
          ∀ n ∈ x.1.1.orchestrator.registry.get id, _ = _))

section Step

variable {env} {x : (Server F P S B × (ℕ → Bool)) × (String → Option (List ℕ))} {socket : ℕ}
  {received : Received F P B} {rng : Entropy} {now : Instant} {nodeId id : String}

/-- The entry of another node after an event: a rebalance gives it its part of the split. -/
theorem get_receive_of_ne {server : Server F P S B} (own : server.orchestrator.registry.OwnIds)
    (hid : server.nodeId socket = some nodeId) (h : id ≠ nodeId) :
    (server.receive env socket received rng now).1.orchestrator.registry.get id =
      (server.orchestrator.registry.get id).map fun n =>
        match received.call nodeId now with
        | some op =>
          if op.rebalances server.orchestrator then
            n.follow (layerPlan server.orchestrator.totalModelLayers.toNat
              (op.written server.orchestrator).sortedByCapacity)
          else n
        | none => n := by
  obtain ⟨sessionKey, hconnection⟩ := Server.nodeId_eq_some_iff.1 hid
  rw [Server.receive_of_authenticated env hconnection]
  simp only [serve_orchestrator]
  cases hcall : received.call nodeId now with
  | none => simp
  | some op =>
    have hwritten := get_written_of_ne (o := server.orchestrator) hcall h
    simp only [Option.map_some, Option.getD_some, Orchestrator.perform_registry]
    split_ifs with hop
    · rw [Orchestrator.rebalance_get env _ (Op.written_ownIds own op), hwritten]
    · rw [hwritten, Option.map_id']

omit [Scalar F] in
/-- The record of a node that no message has gone to. -/
theorem noteTold_of_ne {sent : Option (SwarmMessage F P B)}
    (hid : x.1.1.nodeId socket = some nodeId) (h : id ≠ nodeId) :
    noteTold x.2 x.1 (.receive socket received rng now) sent id = x.2 id := by
  simp only [noteTold, hid]
  exact Function.update_of_ne h ..

omit [Scalar F] in
theorem nodeId_of_liveId {y : Server F P S B × (ℕ → Bool)} (h : liveId y socket = some id) :
    y.1.nodeId socket = some id := by
  unfold liveId at h
  split_ifs at h
  exact h

/-- The node of the connection knows its layers after the event. -/
theorem informed_receive_self (inv : WatchInv x.1) (informed : Informed x)
    (hid : x.1.1.nodeId socket = some id) {other : ℕ} {n : NodeEntry F}
    (hlive : liveId ((watching env).step x.1 (.receive socket received rng now)).1 other = some id)
    (hget : (x.1.1.receive env socket received rng now).1.orchestrator.registry.get id = some n) :
    noteTold x.2 x.1 (.receive socket received rng now)
      (x.1.1.receive env socket received rng now).2 id = some n.assignedLayers := by
  have hbefore : received.announces id = true ∨ ∀ m,
      x.1.1.orchestrator.registry.get id = some m → x.2 id = some m.assignedLayers := by
    by_cases hsocket : other = socket
    · subst hsocket
      rcases (liveId_receive_self inv hlive).2.2 with hlive | hannounces
      · exact .inr fun m => informed other id m hlive
      · exact .inl hannounces
    · rw [liveId_receive_of_ne hsocket] at hlive
      exact .inr fun m => informed other id m hlive
  obtain ⟨sessionKey, hconnection⟩ := Server.nodeId_eq_some_iff.1 hid
  simp only [noteTold, hid, Function.update_self]
  rw [Server.receive_of_authenticated env hconnection] at hget ⊢
  exact told_serve inv.own sessionKey rng hbefore hget

theorem informed_receive_iff (inv : WatchInv x.1) (informed : Informed x)
    (hid : x.1.1.nodeId socket = some nodeId) :
    Informed ((informing env).step x (.receive socket received rng now)).1 ↔
      KeepsOthers x (.receive socket received rng now) := by
  constructor
  · intro h nodeId' hid' op hcall hop other _ id hlive hne n hget
    obtain rfl : nodeId = nodeId' := Option.some.inj (hid.symm.trans hid')
    have hsocket : other ≠ socket := by
      rintro rfl
      exact hne (Option.some.inj ((nodeId_of_liveId hlive).symm.trans hid))
    have hlive' : liveId ((watching env).step x.1 (.receive socket received rng now)).1 other =
        some id := (liveId_receive_of_ne hsocket).trans hlive
    have hget' : (x.1.1.receive env socket received rng now).1.orchestrator.registry.get id =
        some (n.follow (layerPlan x.1.1.orchestrator.totalModelLayers.toNat
          (op.written x.1.1.orchestrator).sortedByCapacity)) := by
      rw [get_receive_of_ne inv.own hid hne, Option.mem_def.1 hget, Option.mem_def.1 hcall,
        Option.map_some]
      exact congrArg some (if_pos hop)
    have hafter : noteTold x.2 x.1 (.receive socket received rng now)
        (x.1.1.receive env socket received rng now).2 id = _ := h other id _ hlive' hget'
    rw [noteTold_of_ne hid hne, informed other id n hlive hget, NodeEntry.follow_assignedLayers,
      inv.own id n hget] at hafter
    exact (Option.some.inj hafter).symm
  · intro keeps other id n hlive hget
    have hlive : liveId ((watching env).step x.1 (.receive socket received rng now)).1 other =
      some id := hlive
    have hget : (x.1.1.receive env socket received rng now).1.orchestrator.registry.get id =
      some n := hget
    by_cases hne : id = nodeId
    · subst hne
      exact informed_receive_self inv informed hid hlive hget
    · have hsocket : other ≠ socket := by
        rintro rfl
        exact hne (Option.some.inj ((liveId_receive_self inv hlive).1.symm.trans hid))
      rw [liveId_receive_of_ne hsocket] at hlive
      rw [get_receive_of_ne inv.own hid hne, Option.map_eq_some_iff] at hget
      obtain ⟨old, hold, rfl⟩ := hget
      have htold : noteTold x.2 x.1 (.receive socket received rng now)
          (x.1.1.receive env socket received rng now).2 id = some old.assignedLayers :=
        (noteTold_of_ne hid hne).trans (informed other id old hlive hold)
      refine htold.trans (congrArg some ?_)
      cases hcall : received.call nodeId now with
      | none => rfl
      | some op =>
        dsimp only
        split_ifs with hop
        · rw [NodeEntry.follow_assignedLayers, inv.own id old hold]
          exact (keeps nodeId hid op hcall hop other (lt_length_of_liveId hlive) id hlive hne old
            hold).symm
        · rfl

theorem informed_step_iff (inv : WatchInv x.1) (informed : Informed x)
    (e : SocketEvent F P S B) :
    Informed ((informing env).step x e).1 ↔ KeepsOthers x e := by
  cases e with
  | accept nonce mySecret sent =>
    refine iff_of_true (fun socket id n hlive hget => ?_) trivial
    obtain ⟨_, heq⟩ := Server.accept_eq env x.1.1 nonce mySecret sent
    have hlive : liveId ((watching env).step x.1 (.accept nonce mySecret sent)).1 socket =
      some id := hlive
    have hget : (x.1.1.accept env nonce mySecret sent).1.orchestrator.registry.get id =
      some n := hget
    rw [liveId_accept inv] at hlive
    rw [heq] at hget
    exact informed socket id n hlive hget
  | receive socket received rng now =>
    cases hid : x.1.1.nodeId socket with
    | some nodeId => exact informed_receive_iff inv informed hid
    | none =>
      refine iff_of_true (fun other id n hlive hget => ?_) fun nodeId hmem => ?_
      · have hlive : liveId ((watching env).step x.1 (.receive socket received rng now)).1 other =
          some id := hlive
        have hget : (x.1.1.receive env socket received rng now).1.orchestrator.registry.get id =
          some n := hget
        have htold : noteTold x.2 x.1 (.receive socket received rng now)
            (x.1.1.receive env socket received rng now).2 = x.2 := by
          simp only [noteTold, hid]
        have hne : other ≠ socket := by
          rintro rfl
          cases hid.symm.trans (liveId_receive_self inv hlive).1
        rw [liveId_receive_of_ne hne] at hlive
        rw [(Server.receive_of_unauthenticated env hid).1] at hget
        exact (congrFun htold id).trans (informed other id n hlive hget)
      · cases hid.symm.trans hmem

end Step

/-- The server before its first connection, with nobody announced and nobody told. -/
def informingServer (total : UInt32) (sharedSecret : String) (clusterKey : B) :
    (Server F P S B × (ℕ → Bool)) × (String → Option (List ℕ)) :=
  (watchedServer total sharedSecret clusterKey, fun _ => none)

/-- Throughout a run the announced connections know their layers exactly if every call that
rebalances leaves the parts of the others as they are. -/
theorem informed_run_iff (total : UInt32) (sharedSecret : String) (clusterKey : B)
    (events : List (SocketEvent F P S B)) :
    (∀ before, before <+: events →
        Informed ((informing env).run (informingServer total sharedSecret clusterKey) before)) ↔
      (informing env).Guarded KeepsOthers (informingServer total sharedSecret clusterKey)
        events := by
  have preserved : ∀ (x : (Server F P S B × (ℕ → Bool)) × (String → Option (List ℕ)))
      (e : SocketEvent F P S B), WatchInv x.1 → WatchInv ((informing env).step x e).1.1 :=
    fun _ e inv => watchInv_step inv e
  have keeps : ∀ (x : (Server F P S B × (ℕ → Bool)) × (String → Option (List ℕ)))
      (e : SocketEvent F P S B), WatchInv x.1 → Informed x →
        (Informed ((informing env).step x e).1 ↔ KeepsOthers x e) :=
    fun _ e inv informed => informed_step_iff inv informed e
  refine (informing env).guarded_iff_prefixes preserved keeps ?_ fun _ _ _ h => by cases h
  exact ⟨NodeRegistry.ownIds_empty, fun _ h => by cases h⟩

/-- The guard holds for a node that is alone, whatever its status does to its layers. -/
example : (informing Platform.reference).Guarded KeepsOthers (informingServer 32 "secret" [])
    (joinOn 0 announcementA ++
      [.receive 0 (.message (.statusUpdate (makeStatus 0.1 12000))) (fun _ => 0) 2]) := by
  decide +kernel

/-! ## A second node joins -/

/-- The first node was told all layers; when the second one joins, it is not told that it has lost
half of them. -/
theorem not_informed_second_node :
    ¬ Informed ((informing Platform.reference).run (informingServer 32 "secret" [])
      (joinOn 0 announcementA ++ joinOn 1 announcementB)) := by
  intro informed
  have hlayers : (((informing Platform.reference).run (informingServer 32 "secret" [])
      (joinOn 0 announcementA ++ joinOn 1 announcementB)).1.1.orchestrator.registry.get peerA).map
        (·.assignedLayers) = some (List.range 17) := by decide +kernel
  obtain ⟨n, hget, hn⟩ := Option.map_eq_some_iff.1 hlayers
  have htold := informed 0 peerA n (by decide +kernel) hget
  rw [hn] at htold
  exact absurd htold (by decide +kernel)

end NeuralSwarm
