import NeuralSwarm.Run

/-!
# Every layer has one owner

Right after a rebalance the nodes that can accept tasks partition the layers of the model, unless
the running total of the shares wraps.  Between rebalances the partition survives as long as no node
enters or leaves the set of nodes that accept tasks; a small status update can do both, across the
thresholds of `degradeOrRecover`.
-/

namespace NeuralSwarm

variable {F P S B : Type}

/-- The layers of the nodes that can accept tasks are disjoint and cover the model. -/
def NodeRegistry.Covered (registry : NodeRegistry F) (totalLayers : ℕ) : Prop :=
  registry.activeNodes ≠ [] →
    (registry.activeNodes.map (·.assignedLayers)).Pairwise List.Disjoint ∧
      ∀ l, (∃ n ∈ registry.activeNodes, l ∈ n.assignedLayers) ↔ l < totalLayers

/-- The lifecycle state that a status update leaves a node in. -/
def NodeEntry.stateAfter [Scalar F] (entry : NodeEntry F) (status : NodeStatus F) : NodeState :=
  NodeRegistry.degradeOrRecover entry.state
    (EffectiveCapacity.compute entry.profile status entry.reservation).composite

/-- The node of a status update accepts tasks after it if and only if it did before. -/
def Op.KeepsAcceptance [Scalar F] (o : Orchestrator F P B) : Op F P B → Prop
  | .statusUpdate deviceId status _ => ∀ entry ∈ o.registry.get deviceId,
      (entry.stateAfter status).canAcceptTasks = entry.state.canAcceptTasks
  | _ => True

/-- A rebalance does not wrap the running total of the shares; a call without one keeps the set of
nodes that accept tasks. -/
def Op.KeepsCoverage [Scalar F] (o : Orchestrator F P B) (op : Op F P B) : Prop :=
  if op.rebalances o then
    SharesFit o.totalModelLayers.toNat (op.written o).sortedByCapacity 0
      (op.written o).sortedByCapacity
  else op.KeepsAcceptance o

instance [Scalar F] (o : Orchestrator F P B) :
    ∀ op : Op F P B, Decidable (op.KeepsAcceptance o)
  | .statusUpdate deviceId status _ =>
    inferInstanceAs (Decidable (∀ entry ∈ o.registry.get deviceId,
      (entry.stateAfter status).canAcceptTasks = entry.state.canAcceptTasks))
  | .announce .. | .drain _ | .heartbeat .. | .prune .. | .startSequence .. | .taskResult _ =>
    .isTrue trivial

instance [Scalar F] (o : Orchestrator F P B) (op : Op F P B) : Decidable (op.KeepsCoverage o) :=
  inferInstanceAs (Decidable (if op.rebalances o then SharesFit _ _ _ _ else op.KeepsAcceptance o))

/-- Writes that keep every assignment and every acceptance keep the coverage. -/
theorem NodeRegistry.covered_mapValues {registry : NodeRegistry F} (own : registry.OwnIds)
    {write : String → NodeEntry F → NodeEntry F}
    (hlayers : ∀ key n, (write key n).assignedLayers = n.assignedLayers)
    (haccept : ∀ key n, registry.get key = some n →
      (write key n).state.canAcceptTasks = n.state.canAcceptTasks)
    {total : ℕ} (h : registry.Covered total) :
    (⟨registry.nodes.mapValues write⟩ : NodeRegistry F).Covered total := by
  have hactive : (⟨registry.nodes.mapValues write⟩ : NodeRegistry F).activeNodes =
      registry.activeNodes.map fun n => write n.id n := by
    refine NodeRegistry.activeNodes_mapValues (fun key n hget => by rw [own key n hget]) ?_
    intro n hn
    obtain ⟨key, hget⟩ := AList.mem_values_iff.1 hn
    rw [own key n hget]
    exact haccept key n hget
  have hmap : (registry.activeNodes.map fun n => write n.id n).map (·.assignedLayers) =
      registry.activeNodes.map (·.assignedLayers) := by
    rw [List.map_map]
    exact List.map_congr_left fun n _ => hlayers n.id n
  intro hne
  rw [hactive] at hne ⊢
  obtain ⟨hdisjoint, hunion⟩ := h fun hnil => hne (by rw [hnil]; rfl)
  rw [hmap]
  refine ⟨hdisjoint, fun l => ?_⟩
  rw [← hunion l]
  simp only [List.mem_map, exists_exists_and_eq_and, hlayers]

theorem NodeRegistry.covered_of_consecutive [Scalar F] {registry : NodeRegistry F} {total : ℕ}
    (h : Consecutive 0 (registry.sortedByCapacity.map (·.assignedLayers)) total) :
    registry.Covered total := by
  intro _
  have hperm := registry.sortedByCapacity_perm.map (·.assignedLayers)
  have hsymm : ∀ {a b : List ℕ}, a.Disjoint b → b.Disjoint a := fun hab _ hb ha => hab ha hb
  refine ⟨(hperm.pairwise_iff hsymm).1 h.pairwise_disjoint, fun l => ?_⟩
  have hmem := h.mem_flatten_iff l
  simp only [List.mem_flatten, List.mem_map, Nat.zero_le, true_and] at hmem
  rw [← hmem]
  constructor
  · rintro ⟨n, hn, hl⟩
    exact ⟨_, ⟨n, registry.sortedByCapacity_perm.mem_iff.2 hn, rfl⟩, hl⟩
  · rintro ⟨_, ⟨n, hn, rfl⟩, hl⟩
    exact ⟨n, registry.sortedByCapacity_perm.mem_iff.1 hn, hl⟩

namespace Orchestrator

variable [Scalar F] (env : Platform P S B) {o : Orchestrator F P B}

/-- A rebalance whose shares fit covers the model. -/
theorem covered_rebalance {registry : NodeRegistry F} (own : registry.OwnIds)
    (hfit : SharesFit o.totalModelLayers.toNat registry.sortedByCapacity 0
      registry.sortedByCapacity) :
    (o.rebalance env registry).registry.Covered o.totalModelLayers.toNat := by
  by_cases hne : registry.sortedByCapacity = []
  · intro hactive
    have hids := (sorted_rebalance_ids env o own).trans (congrArg _ hne)
    rw [List.map_nil, List.map_eq_nil_iff, NodeRegistry.sortedByCapacity_eq_nil_iff] at hids
    exact absurd hids hactive
  · refine NodeRegistry.covered_of_consecutive ?_
    rw [sorted_rebalance_layers env o own]
    exact layerBlocks_consecutive o.totalModelLayers.toNat_lt hne hfit

/-- What one guarded call does to the coverage. -/
theorem covered_perform (own : o.registry.OwnIds) {op : Op F P B} (guard : op.KeepsCoverage o)
    (h : o.registry.Covered o.totalModelLayers.toNat) :
    (o.perform env op).1.registry.Covered o.totalModelLayers.toNat := by
  rw [Op.KeepsCoverage] at guard
  rw [perform_registry]
  split_ifs at guard ⊢ with hop
  · exact covered_rebalance env (Op.written_ownIds own op) guard
  · rw [Bool.not_eq_true] at hop
    rcases Op.written_of_not_rebalances hop with hempty | hrewrite
    · intro hne
      obtain ⟨n, hn⟩ := List.exists_mem_of_ne_nil _ hne
      obtain ⟨⟨id, hid⟩, -⟩ := NodeRegistry.mem_activeNodes_iff.1 hn
      rw [hempty id] at hid
      cases hid
    · rw [hrewrite]
      refine NodeRegistry.covered_mapValues own op.rewrite_assignedLayers (fun key n hget => ?_) h
      cases op with
      | statusUpdate deviceId status now =>
        simp only [Op.rewrite]
        split_ifs with hkey
        · exact guard n (hkey ▸ hget)
        · rfl
      | heartbeat =>
        simp only [Op.rewrite]
        split_ifs <;> rfl
      | _ => rfl

/-- In every run whose calls meet the guard, the nodes that accept tasks partition the layers. -/
theorem covered_run (total : UInt32) (sharedSecret : String) (clusterKey : B)
    (ops : List (Op F P B))
    (guarded : (machine env).Guarded (fun o op => op.KeepsCoverage o)
      (new total sharedSecret clusterKey) ops) :
    ((machine env).run (new total sharedSecret clusterKey) ops).registry.Covered total.toNat := by
  have hinv : ∀ (o : Orchestrator F P B) (op : Op F P B),
      o.registry.OwnIds ∧ o.totalModelLayers = total ∧ o.registry.Covered total.toNat →
      op.KeepsCoverage o →
      ((machine env).step o op).1.registry.OwnIds ∧
        ((machine env).step o op).1.totalModelLayers = total ∧
        ((machine env).step o op).1.registry.Covered total.toNat := by
    rintro o op ⟨own, rfl, hcovered⟩ guard
    exact ⟨perform_ownIds env own op, (perform_config env o op).1,
      covered_perform env own guard hcovered⟩
  refine ((machine env).invariant hinv ⟨NodeRegistry.ownIds_empty, rfl, ?_⟩ guarded).2.2
  intro hne
  exact absurd rfl hne

/-! ## Two nodes -/

def twoNodes : List (Op Float32 Ed25519PeerId Bytes) :=
  [.announce "node-a" (makeProfile "node-a" .desktop) (makeStatus 0.2 12000) 0,
    .announce "node-b" (makeProfile "node-b" .desktop) (makeStatus 0.6 5000) 1]

theorem covered_run_two_nodes :
    ((machine Platform.reference).run (new 32 "secret" [])
      (twoNodes ++ [.statusUpdate "node-b" (makeStatus 0.1 12000) 2, .drain "node-a"])
      ).registry.Covered 32 :=
  covered_run Platform.reference 32 "secret" [] _ (by decide +kernel)

/-- A node that loses less than `0.15` of its score leaves with its layers. -/
theorem not_covered_degraded :
    ¬ ((machine Platform.reference).run (new 32 "secret" [])
      (twoNodes ++ [.statusUpdate "node-b" (makeStatus 0.8 5000) 2])).registry.Covered 32 := by
  intro hcovered
  have hlayers : ((machine Platform.reference).run (new 32 "secret" [])
      (twoNodes ++ [.statusUpdate "node-b" (makeStatus 0.8 5000) 2])).registry.activeNodes.map
        (·.assignedLayers) = [List.range 24] := by decide +kernel
  obtain ⟨-, hunion⟩ := hcovered fun hnil => by rw [hnil] at hlayers; cases hlayers
  obtain ⟨n, hn, hl⟩ := (hunion 31).2 (by decide)
  have hmem : n.assignedLayers ∈ [List.range 24] := hlayers ▸ List.mem_map_of_mem hn
  rw [List.mem_singleton.1 hmem] at hl
  exact absurd hl (by decide)

end Orchestrator

end NeuralSwarm
