import NeuralSwarm.Run

/-!
# The nodes behind the stages

The stages are replaced at every rebalance, and a call that removes the last node does not
rebalance.  While any node is registered, the nodes of all stages are; when the registry becomes
empty the stages stay as they were.
-/

namespace NeuralSwarm

variable {F P S B : Type}

namespace Orchestrator

variable (env : Platform P S B)

/-- While any node is registered, the nodes of all stages are. -/
def StagesRegistered (o : Orchestrator F P B) : Prop :=
  (∃ id n, o.registry.get id = some n) →
    ∀ peer ∈ o.pipeline.pipelineStages,
      ∃ n, o.registry.get (env.peerIds.toString peer) = some n

/-- Every stage is the peer id of a registered node. -/
def StagesLive (o : Orchestrator F P B) : Prop :=
  ∀ peer ∈ o.pipeline.pipelineStages,
    ∃ n, o.registry.get (env.peerIds.toString peer) = some n

variable [Scalar F] {o : Orchestrator F P B}

theorem stagesRegistered_perform (own : o.registry.OwnIds) (h : o.StagesRegistered env)
    (op : Op F P B) : (o.perform env op).1.StagesRegistered env := by
  intro hne peer hpeer
  rw [perform_registry] at hne ⊢
  rw [perform_pipelineStages] at hpeer
  split_ifs at hne hpeer ⊢ with hop
  · obtain ⟨id, hid, hparse⟩ := env.peerIds.mem_parseAll_iff.1 hpeer
    obtain ⟨n, hn, rfl⟩ := List.mem_map.1 hid
    obtain ⟨⟨key, hkey⟩, -⟩ := NodeRegistry.mem_sortedByCapacity_iff.1 hn
    have own' := Op.written_ownIds own op
    rw [rebalance_get env o own', env.peerIds.toString_of_parse hparse, own' key n hkey, hkey]
    exact ⟨_, rfl⟩
  · obtain ⟨id, n, hn⟩ := hne
    rcases Op.written_of_not_rebalances (Bool.eq_false_iff.2 hop) with hempty | hrewrite
    · rw [hempty id] at hn
      cases hn
    · have hget : ∀ key, (op.written o).get key = (o.registry.get key).map (op.rewrite key) := by
        intro key
        rw [hrewrite]
        exact AList.lookup_mapValues ..
      rw [hget, Option.map_eq_some_iff] at hn
      obtain ⟨old, hold, -⟩ := hn
      obtain ⟨m, hm⟩ := h ⟨id, old, hold⟩ peer hpeer
      exact ⟨_, by rw [hget, hm]; rfl⟩

theorem stagesRegistered_of_reachable {total : UInt32} {sharedSecret : String} {clusterKey : B}
    (h : (machine env).Reachable (new total sharedSecret clusterKey) o) :
    o.registry.OwnIds ∧ o.StagesRegistered env := by
  have preserved : ∀ (o : Orchestrator F P B) (op : Op F P B),
      o.registry.OwnIds ∧ o.StagesRegistered env →
        ((machine env).step o op).1.registry.OwnIds ∧
          ((machine env).step o op).1.StagesRegistered env := by
    rintro o op ⟨own, hregistered⟩
    exact ⟨perform_ownIds env own op, stagesRegistered_perform env own hregistered op⟩
  refine Mealy.Reachable.invariant (machine env) preserved ⟨NodeRegistry.ownIds_empty, ?_⟩ h
  rintro ⟨_, _, ⟨⟩⟩

end Orchestrator

/-- A call that leaves no node behind and does not rebalance finds no stages. -/
def Op.LeavesNoStage [Scalar F] (o : Orchestrator F P B) (op : Op F P B) : Prop :=
  op.rebalances o = false → (op.written o).isEmpty = true → o.pipeline.pipelineStages = []

namespace Orchestrator

variable {env : Platform P S B} {o : Orchestrator F P B}

theorem stagesLive_iff (h : o.StagesRegistered env) :
    o.StagesLive env ↔ (o.registry.isEmpty = true → o.pipeline.pipelineStages = []) := by
  rw [NodeRegistry.isEmpty_iff]
  constructor
  · intro live hempty
    refine List.eq_nil_iff_forall_not_mem.2 fun peer hpeer => ?_
    obtain ⟨n, hn⟩ := live peer hpeer
    rw [hempty] at hn
    cases hn
  · intro hstages peer hpeer
    by_cases hne : ∃ id n, o.registry.get id = some n
    · exact h hne peer hpeer
    · have hempty : ∀ id, o.registry.get id = none := by
        intro id
        cases hget : o.registry.get id with
        | none => rfl
        | some n => exact absurd ⟨id, n, hget⟩ hne
      rw [hstages hempty] at hpeer
      cases hpeer

variable [Scalar F] (env)

/-- A rebalance neither fills nor empties the registry. -/
theorem isEmpty_perform (own : o.registry.OwnIds) (op : Op F P B) :
    (o.perform env op).1.registry.isEmpty = (op.written o).isEmpty := by
  rw [perform_registry]
  split_ifs
  · rw [Bool.eq_iff_iff, NodeRegistry.isEmpty_iff, NodeRegistry.isEmpty_iff]
    refine forall_congr' fun id => ?_
    rw [rebalance_get env o (Op.written_ownIds own op), Option.map_eq_none_iff]
  · rfl

/-- After a call the stages are live exactly if it did not leave them behind. -/
theorem stagesLive_perform_iff (own : o.registry.OwnIds) (h : o.StagesRegistered env)
    (op : Op F P B) : (o.perform env op).1.StagesLive env ↔ op.LeavesNoStage o := by
  rw [stagesLive_iff (stagesRegistered_perform env own h op), isEmpty_perform env own,
    perform_pipelineStages, Op.LeavesNoStage]
  cases hop : op.rebalances o with
  | false => simp
  | true =>
    refine iff_of_true (fun hempty => ?_) fun hfalse => by cases hfalse
    have hsorted : (op.written o).sortedByCapacity = [] := by
      refine List.eq_nil_iff_forall_not_mem.2 fun n hn => ?_
      obtain ⟨⟨id, hid⟩, -⟩ := NodeRegistry.mem_sortedByCapacity_iff.1 hn
      rw [NodeRegistry.isEmpty_iff.1 hempty id] at hid
      cases hid
    rw [if_pos rfl, hsorted]
    rfl

/-- Throughout a run every stage is a registered node exactly if no call that removes the last node
leaves a stage behind. -/
theorem stagesLive_run_iff (total : UInt32) (sharedSecret : String) (clusterKey : B)
    (ops : List (Op F P B)) :
    (∀ before, before <+: ops →
        ((machine env).run (new total sharedSecret clusterKey) before).StagesLive env) ↔
      (machine env).Guarded (fun o op => op.LeavesNoStage o) (new total sharedSecret clusterKey)
        ops := by
  have preserved : ∀ (o : Orchestrator F P B) (op : Op F P B),
      o.registry.OwnIds ∧ o.StagesRegistered env →
        ((machine env).step o op).1.registry.OwnIds ∧
          ((machine env).step o op).1.StagesRegistered env :=
    fun o op h => ⟨perform_ownIds env h.1 op, stagesRegistered_perform env h.1 h.2 op⟩
  have keeps : ∀ (o : Orchestrator F P B) (op : Op F P B),
      o.registry.OwnIds ∧ o.StagesRegistered env → o.StagesLive env →
        (((machine env).step o op).1.StagesLive env ↔ op.LeavesNoStage o) :=
    fun o op h _ => stagesLive_perform_iff env h.1 h.2 op
  refine (machine env).guarded_iff_prefixes preserved keeps ⟨NodeRegistry.ownIds_empty, ?_⟩ ?_
  · rintro ⟨_, _, ⟨⟩⟩
  · rintro _ ⟨⟩

/-- The only node drains, and its stage stays. -/
theorem not_stagesLive_drained :
    ¬ ((machine Platform.reference).run (new 32 "secret" [])
      (twoPeers.take 1 ++ [.drain peerA])).StagesLive Platform.reference := by
  intro live
  have hstages : ((machine Platform.reference).run (new 32 "secret" [])
      (twoPeers.take 1 ++ [.drain peerA])).pipeline.pipelineStages =
        [⟨peerA, by decide +kernel⟩] := by decide +kernel
  obtain ⟨n, hn⟩ := live _ (hstages ▸ List.mem_singleton_self _)
  have hempty : ((machine Platform.reference).run (new 32 "secret" [])
      (twoPeers.take 1 ++ [.drain peerA])).registry.isEmpty = true := by decide +kernel
  rw [NodeRegistry.isEmpty_iff.1 hempty] at hn
  cases hn

end Orchestrator

end NeuralSwarm
