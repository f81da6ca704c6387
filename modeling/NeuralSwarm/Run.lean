import NeuralSwarm.Rebalance

/-!
# Runs of the orchestrator

The handlers as one machine.  An operation first writes to the registry (`Op.written`) and then, if
it `rebalances`, hands out the layers anew; no handler does anything else to the registry or to the
stages.  Every invariant over runs is derived from this description of a step.
-/

namespace NeuralSwarm

variable {F P S B : Type}

/-- The calls that the orchestrator receives. -/
inductive Op (F P B : Type)
  | announce (deviceId : String) (profile : NodeProfile) (initialStatus : NodeStatus F)
      (now : Instant)
  | statusUpdate (deviceId : String) (status : NodeStatus F) (now : Instant)
  | drain (deviceId : String)
  | heartbeat (deviceId : String) (now : Instant)
  | prune (timeoutSecs : ℕ) (now : Instant)
  | startSequence (rng : Entropy) (sequenceId : ℕ) (taskId : String) (tokens : List ℤ)
      (initialState : B)
  | taskResult (result : SwarmMessage F P B)

/-- What they return. -/
inductive Reply (F P B : Type)
  | announced (answer : Except String (SwarmMessage F P B))
  | updated (answer : Except String (Option (SwarmMessage F P B)))
  | done (answer : Except String Unit)
  | started (answer : Except String (Option (P × SwarmMessage F P B)))
  | advanced (answer : Except String (Option (PipelineResult F P B)))

namespace Orchestrator

variable [Scalar F] (env : Platform P S B)

/-- Carries out one call. -/
def perform (o : Orchestrator F P B) : Op F P B → Orchestrator F P B × Reply F P B
  | .announce deviceId profile initialStatus now =>
    (o.handleAnnounce env deviceId profile initialStatus now).map id .announced
  | .statusUpdate deviceId status now =>
    (o.handleStatusUpdate env deviceId status now).map id .updated
  | .drain deviceId => (o.handleDrain env deviceId).map id .done
  | .heartbeat deviceId now => (o.handleHeartbeat deviceId now).map id .done
  | .prune timeoutSecs now => (o.pruneDeadNodes env timeoutSecs now).map id .done
  | .startSequence rng sequenceId taskId tokens initialState =>
    (o.startSequence env rng sequenceId taskId tokens initialState).map id .started
  | .taskResult result => (o.handleTaskResult env result).map id .advanced

/-- The orchestrator as a machine. -/
def machine : Mealy (Orchestrator F P B) (Op F P B) (Reply F P B) := ⟨perform env⟩

end Orchestrator

/-- Every registered id is the text of a peer id. -/
def NodeRegistry.ValidIds (ids : PeerIds P) (registry : NodeRegistry F) : Prop :=
  ∀ id entry, registry.get id = some entry → ids.Valid id

theorem NodeRegistry.ValidIds.of_sorted [Scalar F] {ids : PeerIds P} {registry : NodeRegistry F}
    (valid : registry.ValidIds ids) (own : registry.OwnIds) :
    ∀ n ∈ registry.sortedByCapacity, ids.Valid n.id := by
  intro n hn
  obtain ⟨⟨key, hkey⟩, -⟩ := mem_sortedByCapacity_iff.1 hn
  exact own key n hkey ▸ valid key n hkey

namespace Op

variable [Scalar F] (o : Orchestrator F P B)

/-- The registry after the writes of an operation, before any rebalance. -/
def written : Op F P B → NodeRegistry F
  | announce deviceId profile initialStatus now =>
    ((o.registry.register deviceId profile now).markReady deviceId initialStatus).toOption.getD
      o.registry
  | statusUpdate deviceId status now => o.registry.modify deviceId (·.withStatus status now)
  | drain deviceId => o.registry.remove deviceId
  | heartbeat deviceId now => o.registry.heartbeat deviceId now
  | prune timeoutSecs now => (o.deadIds timeoutSecs now).foldl NodeRegistry.remove o.registry
  | startSequence .. | taskResult _ => o.registry

/-- Whether an operation is about nodes and not about sequences. -/
def isMembership : Op F P B → Bool
  | startSequence .. | taskResult _ => false
  | _ => true

/-- Whether an operation rebalances the layers. -/
def rebalances : Op F P B → Bool
  | announce .. => true
  | statusUpdate deviceId status now =>
    match o.registry.updateStatus deviceId status now with
    | .ok (significantChange, _) => significantChange
    | .error _ => false
  | drain deviceId => !(o.registry.remove deviceId).isEmpty
  | prune timeoutSecs now =>
    !(o.deadIds timeoutSecs now).isEmpty &&
      !((o.deadIds timeoutSecs now).foldl NodeRegistry.remove o.registry).isEmpty
  | heartbeat .. | startSequence .. | taskResult _ => false

/-- What an operation that does not rebalance writes to the entry under `key`. -/
def rewrite : Op F P B → String → NodeEntry F → NodeEntry F
  | statusUpdate deviceId status now, key, entry =>
    if key = deviceId then entry.withStatus status now else entry
  | heartbeat deviceId now, key, entry =>
    if key = deviceId then { entry with lastHeartbeat := now } else entry
  | _, _, entry => entry

theorem rewrite_id (op : Op F P B) (key : String) (entry : NodeEntry F) :
    (op.rewrite key entry).id = entry.id := by
  cases op <;> simp only [rewrite] <;> split_ifs <;> rfl

theorem rewrite_assignedLayers (op : Op F P B) (key : String) (entry : NodeEntry F) :
    (op.rewrite key entry).assignedLayers = entry.assignedLayers := by
  cases op <;> simp only [rewrite] <;> split_ifs <;> rfl

variable {o} {op : Op F P B}

/-- An operation that does not rebalance leaves no node, or the same nodes up to `rewrite`. -/
theorem written_of_not_rebalances (h : op.rebalances o = false) :
    (∀ id, (op.written o).get id = none) ∨
      op.written o = ⟨o.registry.nodes.mapValues op.rewrite⟩ := by
  have same : ⟨o.registry.nodes.mapValues fun _ entry => entry⟩ = o.registry :=
    congrArg NodeRegistry.mk (AList.mapValues_id _)
  cases op with
  | announce => cases h
  | statusUpdate => exact .inr rfl
  | drain deviceId =>
    rw [rebalances, Bool.not_eq_false'] at h
    exact .inl (NodeRegistry.isEmpty_iff.1 h)
  | heartbeat => exact .inr rfl
  | prune timeoutSecs now =>
    rw [rebalances, Bool.and_eq_false_iff, Bool.not_eq_false', Bool.not_eq_false'] at h
    rcases h with h | h
    · refine .inr ?_
      rw [written, List.isEmpty_iff.1 h]
      exact same.symm
    · exact .inl (NodeRegistry.isEmpty_iff.1 h)
  | startSequence => exact .inr same.symm
  | taskResult => exact .inr same.symm

/-- An entry after the writes of a call is that of an announced node or was there before. -/
theorem get_written {key : String} {entry : NodeEntry F}
    (h : (op.written o).get key = some entry) :
    (∃ old, o.registry.get key = some old ∧ entry = op.rewrite key old) ∨
      ∃ profile initialStatus now, op = .announce key profile initialStatus now ∧
        entry = NodeRegistry.readyEntry key profile initialStatus now := by
  cases op with
  | announce deviceId profile initialStatus now =>
    obtain ⟨registry, hready, hget⟩ :=
      o.registry.markReady_register deviceId profile initialStatus now
    simp only [written, hready, Except.toOption, Option.getD_some, hget] at h
    split_ifs at h with hkey
    · subst hkey
      cases h
      exact .inr ⟨profile, initialStatus, now, rfl, rfl⟩
    · exact .inl ⟨entry, h, rfl⟩
  | statusUpdate =>
    rw [written, NodeRegistry.get_modify, Option.map_eq_some_iff] at h
    obtain ⟨old, hold, rfl⟩ := h
    exact .inl ⟨old, hold, rfl⟩
  | drain =>
    rw [written, NodeRegistry.get_remove] at h
    split_ifs at h
    exact .inl ⟨entry, h, rfl⟩
  | heartbeat =>
    rw [written, NodeRegistry.heartbeat, NodeRegistry.get_modify, Option.map_eq_some_iff] at h
    obtain ⟨old, hold, rfl⟩ := h
    exact .inl ⟨old, hold, rfl⟩
  | prune =>
    rw [written, NodeRegistry.get_foldl_remove] at h
    split_ifs at h
    exact .inl ⟨entry, h, rfl⟩
  | startSequence => exact .inl ⟨entry, h, rfl⟩
  | taskResult => exact .inl ⟨entry, h, rfl⟩

theorem written_ownIds (own : o.registry.OwnIds) (op : Op F P B) : (op.written o).OwnIds := by
  intro key entry h
  rcases get_written h with ⟨old, hold, rfl⟩ | ⟨_, _, _, rfl, rfl⟩
  · exact (op.rewrite_id key old).trans (own key old hold)
  · rfl

/-- If the operation announces a node, its id is the text of a peer id. -/
def AnnouncesValid (env : Platform P S B) : Op F P B → Prop
  | announce deviceId _ _ _ => env.peerIds.Valid deviceId
  | _ => True

instance (env : Platform P S B) : ∀ op : Op F P B, Decidable (op.AnnouncesValid env)
  | .announce deviceId _ _ _ => inferInstanceAs (Decidable (env.peerIds.Valid deviceId))
  | .statusUpdate .. | .drain _ | .heartbeat .. | .prune .. | .startSequence .. | .taskResult _ =>
    .isTrue trivial

theorem validIds_written (env : Platform P S B) (valid : o.registry.ValidIds env.peerIds)
    (announces : op.AnnouncesValid env) : (op.written o).ValidIds env.peerIds := by
  intro id entry h
  rcases get_written h with ⟨old, hold, -⟩ | ⟨_, _, _, rfl, -⟩
  · exact valid id old hold
  · exact announces

end Op

namespace Orchestrator

variable [Scalar F] (env : Platform P S B) {o : Orchestrator F P B} {op : Op F P B}

/-- The registry after the first half of a drain, whatever the state of the node. -/
theorem handleDrain_eq (o : Orchestrator F P B) (deviceId : String) :
    o.handleDrain env deviceId =
      let registry := o.registry.remove deviceId
      if registry.isEmpty then ({ o with registry }, .ok ())
      else (o.rebalance env registry, .ok ()) := by
  unfold handleDrain
  cases hget : o.registry.get deviceId with
  | none => rfl
  | some entry =>
    cases hcan : entry.state.canTransitionTo .draining with
    | false => simp only [hcan, Bool.false_eq_true, if_false]
    | true =>
      simp only [NodeState.transitionTo, hcan, if_true, NodeRegistry.remove_modify]

theorem perform_of_rebalances (h : op.rebalances o = true) :
    (o.perform env op).1 = o.rebalance env (op.written o) := by
  cases op with
  | announce deviceId profile initialStatus now =>
    obtain ⟨registry, hready, -⟩ :=
      o.registry.markReady_register deviceId profile initialStatus now
    simp only [perform, handleAnnounce, Op.written, hready, Except.toOption, Option.getD_some]
    split <;> rfl
  | statusUpdate deviceId status now =>
    simp only [Op.rebalances, perform, handleStatusUpdate, NodeRegistry.updateStatus] at h ⊢
    cases hget : o.registry.get deviceId with
    | none => simp [hget] at h
    | some entry =>
      simp only [hget] at h
      simp only [h, if_true]
      split <;> rfl
  | drain deviceId =>
    rw [Op.rebalances, Bool.not_eq_true'] at h
    simp only [perform, handleDrain_eq, h, Bool.false_eq_true, if_false]
    rfl
  | prune timeoutSecs now =>
    rw [Op.rebalances, Bool.and_eq_true, Bool.not_eq_true', Bool.not_eq_true'] at h
    simp only [perform, pruneDeadNodes, h.1, h.2, Bool.false_eq_true, if_false]
    rfl
  | heartbeat => cases h
  | startSequence => cases h
  | taskResult => cases h

/-- Without a rebalance, a call about the membership does nothing but write its entries. -/
theorem perform_of_isMembership (hmember : op.isMembership = true)
    (h : op.rebalances o = false) :
    (o.perform env op).1 = { o with registry := op.written o } := by
  cases op with
  | announce => cases h
  | statusUpdate deviceId status now =>
    simp only [Op.rebalances, perform, handleStatusUpdate, NodeRegistry.updateStatus] at h ⊢
    cases hget : o.registry.get deviceId with
    | none =>
      simp only [Op.written, NodeRegistry.modify_of_get_eq_none hget]
      rfl
    | some entry =>
      simp only [hget] at h
      simp only [h, Bool.false_eq_true, if_false]
      rfl
  | drain deviceId =>
    rw [Op.rebalances, Bool.not_eq_false'] at h
    simp only [perform, handleDrain_eq, h, if_true]
    rfl
  | prune timeoutSecs now =>
    rw [Op.rebalances, Bool.and_eq_false_iff, Bool.not_eq_false', Bool.not_eq_false'] at h
    simp only [perform, pruneDeadNodes, Op.written]
    split_ifs with h1 h2
    · rw [List.isEmpty_iff.1 h1]
      rfl
    · rfl
    · exact absurd h (by simp [h1, h2])
  | heartbeat => rfl
  | startSequence => cases hmember
  | taskResult => cases hmember

/-- Without a rebalance, nothing but the written entries and the active sequences changes. -/
theorem perform_of_not_rebalances (h : op.rebalances o = false) :
    ∃ activeSequences, (o.perform env op).1 =
      { o with
        registry := op.written o
        pipeline := { o.pipeline with activeSequences } } := by
  cases hmember : op.isMembership with
  | true => exact ⟨_, perform_of_isMembership env hmember h⟩
  | false =>
    cases op with
    | startSequence rng sequenceId taskId tokens initialState =>
      simp only [perform, startSequence, InferencePipeline.startSequence]
      repeat' split
      all_goals exact ⟨_, rfl⟩
    | taskResult result =>
      simp only [perform, handleTaskResult, InferencePipeline.handleTaskResult]
      repeat' split
      all_goals exact ⟨_, rfl⟩
    | _ => cases hmember

/-- `handle_announce` answers with the layers that the node has when it returns. -/
theorem eq_joinResponse_of_handleAnnounce {o : Orchestrator F P B} {deviceId : String}
    {profile : NodeProfile} {initialStatus : NodeStatus F} {now : Instant}
    {answer : SwarmMessage F P B}
    (h : (o.handleAnnounce env deviceId profile initialStatus now).2 = .ok answer) :
    answer = .joinResponse
      ((o.handleAnnounce env deviceId profile initialStatus now).1.layersOf deviceId)
      o.totalModelLayers.toNat env.crypto.empty := by
  unfold handleAnnounce at h ⊢
  cases hready : (o.registry.register deviceId profile now).markReady deviceId initialStatus with
  | error e =>
    simp only [hready] at h
    cases h
  | ok registry =>
    simp only [hready] at h ⊢
    cases hget : (o.rebalance env registry).registry.get deviceId with
    | none =>
      simp only [hget] at h
      cases h
    | some entry =>
      simp only [hget] at h ⊢
      cases h
      simp only [layersOf, hget]
      rfl

/-! ## What every run keeps -/

theorem perform_registry (o : Orchestrator F P B) (op : Op F P B) :
    (o.perform env op).1.registry =
      if op.rebalances o then (o.rebalance env (op.written o)).registry else op.written o := by
  split_ifs with h
  · rw [perform_of_rebalances env h]
  · obtain ⟨_, heq⟩ := perform_of_not_rebalances env (Bool.eq_false_iff.2 h)
    rw [heq]

theorem perform_pipelineStages (o : Orchestrator F P B) (op : Op F P B) :
    (o.perform env op).1.pipeline.pipelineStages =
      if op.rebalances o then env.peerIds.parseAll ((op.written o).sortedByCapacity.map (·.id))
      else o.pipeline.pipelineStages := by
  split_ifs with h
  · rw [perform_of_rebalances env h, rebalance_pipelineStages]
  · obtain ⟨_, heq⟩ := perform_of_not_rebalances env (Bool.eq_false_iff.2 h)
    rw [heq]

theorem perform_activeSequences (hmember : op.isMembership = true) :
    (o.perform env op).1.pipeline.activeSequences = o.pipeline.activeSequences := by
  cases h : op.rebalances o with
  | true => rw [perform_of_rebalances env h, rebalance_activeSequences]
  | false => rw [perform_of_isMembership env hmember h]

theorem perform_config (o : Orchestrator F P B) (op : Op F P B) :
    (o.perform env op).1.totalModelLayers = o.totalModelLayers ∧
      (o.perform env op).1.clusterKey = o.clusterKey ∧
      (o.perform env op).1.sharedSecret = o.sharedSecret := by
  cases h : op.rebalances o with
  | true =>
    rw [perform_of_rebalances env h]
    exact ⟨rfl, rfl, rfl⟩
  | false =>
    obtain ⟨_, heq⟩ := perform_of_not_rebalances env h
    rw [heq]
    exact ⟨rfl, rfl, rfl⟩

theorem perform_ownIds (own : o.registry.OwnIds) (op : Op F P B) :
    (o.perform env op).1.registry.OwnIds := by
  rw [perform_registry]
  split_ifs
  · exact rebalance_ownIds env o (Op.written_ownIds own op)
  · exact Op.written_ownIds own op

theorem ownIds_of_reachable {total : UInt32} {sharedSecret : String} {clusterKey : B}
    (h : (machine env).Reachable (new total sharedSecret clusterKey) o) : o.registry.OwnIds := by
  have preserved : ∀ (o : Orchestrator F P B) (op : Op F P B), o.registry.OwnIds →
      ((machine env).step o op).1.registry.OwnIds := fun _ op own => perform_ownIds env own op
  exact Mealy.Reachable.invariant (machine env) preserved NodeRegistry.ownIds_empty h

theorem validIds_perform (own : o.registry.OwnIds) (valid : o.registry.ValidIds env.peerIds)
    (announces : op.AnnouncesValid env) :
    (o.perform env op).1.registry.ValidIds env.peerIds := by
  have hwritten := Op.validIds_written env valid announces
  rw [perform_registry]
  split_ifs
  · intro id entry h
    rw [rebalance_get env o (Op.written_ownIds own op), Option.map_eq_some_iff] at h
    obtain ⟨n, hn, -⟩ := h
    exact hwritten id n hn
  · exact hwritten

/-- What holds after every run whose announced ids are valid. -/
theorem run_of_announcesValid (total : UInt32) (sharedSecret : String) (clusterKey : B)
    {ops : List (Op F P B)} (announces : ∀ op ∈ ops, op.AnnouncesValid env) :
    let o := (machine env).run (new total sharedSecret clusterKey) ops
    o.registry.OwnIds ∧ o.registry.ValidIds env.peerIds ∧ o.totalModelLayers = total ∧
      o.clusterKey = clusterKey := by
  have preserved : ∀ (o : Orchestrator F P B) (op : Op F P B),
      o.registry.OwnIds ∧ o.registry.ValidIds env.peerIds ∧ o.totalModelLayers = total ∧
          o.clusterKey = clusterKey → op.AnnouncesValid env →
        ((machine env).step o op).1.registry.OwnIds ∧
          ((machine env).step o op).1.registry.ValidIds env.peerIds ∧
          ((machine env).step o op).1.totalModelLayers = total ∧
          ((machine env).step o op).1.clusterKey = clusterKey := by
    rintro o op ⟨own, valid, rfl, rfl⟩ announces
    have hconfig := perform_config env o op
    exact ⟨perform_ownIds env own op, validIds_perform env own valid announces, hconfig.1,
      hconfig.2.1⟩
  refine (machine env).invariant preserved ⟨NodeRegistry.ownIds_empty, ?_, rfl, rfl⟩
    ((machine env).guarded_of_forall _ announces)
  intro id entry h
  cases h

end Orchestrator

/-! ## Announced nodes -/

/-- What a node sends when it joins. -/
structure Announcement (F : Type) where
  deviceId : String
  profile : NodeProfile
  initialStatus : NodeStatus F
  now : Instant

def Announcement.op (a : Announcement F) : Op F P B :=
  .announce a.deviceId a.profile a.initialStatus a.now

/-- The orchestrator after some nodes have announced themselves. -/
def announced [Scalar F] (env : Platform P S B) (total : UInt32) (sharedSecret : String)
    (clusterKey : B) (nodes : List (Announcement F)) : Orchestrator F P B :=
  (Orchestrator.machine env).run (.new total sharedSecret clusterKey) (nodes.map Announcement.op)

def announcementA : Announcement Float32 :=
  { deviceId := peerA
    profile := makeProfile "host-a" .desktop
    initialStatus := makeStatus 0.4 12000
    now := 0 }

def announcementB : Announcement Float32 :=
  { deviceId := peerB
    profile := makeProfile "host-b" .desktop
    initialStatus := makeStatus 0.5 12000
    now := 1 }

def twoAnnouncements : List (Announcement Float32) := [announcementA, announcementB]

def twoPeers : List (Op Float32 Ed25519PeerId Bytes) := twoAnnouncements.map Announcement.op

end NeuralSwarm
