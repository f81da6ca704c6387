import NeuralSwarm.Coverage
import NeuralSwarm.Entries

/-!
# A rebalance partitions the model

For every number of layers that `f32` holds exactly and whatever the rounded shares are, as long as
no share is larger than the model: the sorted nodes hold the layers `0, …, total - 1` in their
order, all of them are active, and the entries that cannot accept tasks are as before.
-/

namespace NeuralSwarm

variable {F P S B : Type} [Scalar F]

/-! ## Shares that are not larger than the model -/

section Shares

variable {total : ℕ} {sorted : List (NodeEntry F)}

/-- The running total wraps only if a share is larger than the model. -/
theorem forward_of_share_le (htotal : total < 2 ^ 31)
    (hpos : ¬ Scalar.sum (sorted.map (·.capacity.composite)) ≤ 0.0) {current : ℕ}
    {rest : List (NodeEntry F)} (hcur : current ≤ total)
    (hshare : ∀ n ∈ rest.dropLast, share total sorted n ≤ total) :
    Forward (layerStop total sorted) current rest := by
  induction rest generalizing current with
  | nil => trivial
  | cons n rest ih =>
    rcases rest with _ | ⟨m, rest⟩
    · have hlast : layerStop total sorted true current n = total :=
        layerStop_last (by omega) hcur sorted n
      exact ⟨by rw [List.isEmpty_nil, hlast]; exact hcur, trivial⟩
    · rw [List.dropLast_cons_of_ne_nil (List.cons_ne_nil m rest), List.forall_mem_cons] at hshare
      obtain ⟨hn, hrest⟩ := hshare
      have hstop : layerStop total sorted (m :: rest).isEmpty current n =
          min (current + share total sorted n) total := by
        have hfit : current + share total sorted n < 2 ^ 32 := by omega
        rw [layerStop, if_neg hpos]
        exact congrArg (min · total) (u32Add_of_lt hfit)
      exact ⟨by omega, ih (by omega) hrest⟩

theorem layerBlocks_consecutive_of_share_le (htotal : total < 2 ^ 31) (hne : sorted ≠ [])
    (hshare : ∀ n ∈ sorted.dropLast, share total sorted n ≤ total) :
    Consecutive 0 (layerBlocks total sorted) total :=
  layerBlocks_consecutive_of_forward (by omega) hne fun hpos =>
    forward_of_share_le htotal hpos (Nat.zero_le _) hshare

end Shares

namespace Orchestrator

variable (env : Platform P S B) (o : Orchestrator F P B) {registry : NodeRegistry F}

/-- The layers of the sorted nodes, looked up after a rebalance, are the blocks of its cut. -/
theorem map_layersOf_rebalance (own : registry.OwnIds) :
    registry.sortedByCapacity.map (fun n => (o.rebalance env registry).layersOf n.id) =
      layerBlocks o.totalModelLayers.toNat registry.sortedByCapacity := by
  rw [← sorted_rebalance_layers env o own, sorted_rebalance_follow env o own, List.map_map]
  refine List.map_congr_left fun n hn => ?_
  obtain ⟨⟨id, hid⟩, -⟩ := NodeRegistry.mem_sortedByCapacity_iff.1 hn
  obtain rfl := own id n hid
  rw [layersOf, rebalance_get env o own, hid]
  rfl

/-- A node that can accept tasks is active after a rebalance. -/
theorem state_rebalance_of_canAcceptTasks (own : registry.OwnIds) {id : String} {n : NodeEntry F}
    (hn : registry.get id = some n) (haccept : n.state.canAcceptTasks = true) :
    ∃ m, (o.rebalance env registry).registry.get id = some m ∧ m.state = .active := by
  obtain rfl := own id n hn
  have hsorted : n ∈ registry.sortedByCapacity :=
    NodeRegistry.mem_sortedByCapacity_iff.2 ⟨⟨n.id, hn⟩, haccept⟩
  obtain ⟨layers, hlayers⟩ : ∃ layers, (layerPlan o.totalModelLayers.toNat
      registry.sortedByCapacity).lookup n.id = some layers := exists_lookup_layerPlan hsorted
  refine ⟨n.withLayers layers, ?_, NodeEntry.withLayers_state_of_canAcceptTasks haccept layers⟩
  rw [rebalance_get env o own, hn, Option.map_some, NodeEntry.follow, hlayers]

/-- A rebalance does not touch a node that cannot accept tasks. -/
theorem get_rebalance_of_not_canAcceptTasks (own : registry.OwnIds) {id : String}
    (hrefuse : ∀ n ∈ registry.get id, n.state.canAcceptTasks = false) :
    (o.rebalance env registry).registry.get id = registry.get id := by
  rw [rebalance_get env o own]
  cases hn : registry.get id with
  | none => rfl
  | some n =>
    have hlookup := own.isSome_lookup_layerPlan o.totalModelLayers.toNat hn
    rw [hrefuse n hn, Option.isSome_eq_false_iff, Option.isNone_iff_eq_none] at hlookup
    rw [Option.map_some, NodeEntry.follow, own id n hn, hlookup]

/-- The sorted nodes hold all layers in order and are active; the other entries are as before. -/
theorem rebalance_partitions (own : registry.OwnIds) (hactive : registry.activeNodes ≠ [])
    (htotal : o.totalModelLayers.toNat < 2 ^ 24)
    (hshare : ∀ n ∈ registry.sortedByCapacity.dropLast,
      share o.totalModelLayers.toNat registry.sortedByCapacity n ≤ o.totalModelLayers.toNat) :
    registry.sortedByCapacity.flatMap (fun n => (o.rebalance env registry).layersOf n.id) =
        List.range o.totalModelLayers.toNat ∧
      (∀ id n, registry.get id = some n → n.state.canAcceptTasks = true →
        ∃ m, (o.rebalance env registry).registry.get id = some m ∧ m.state = .active) ∧
      ∀ id, (∀ n ∈ registry.get id, n.state.canAcceptTasks = false) →
        (o.rebalance env registry).registry.get id = registry.get id := by
  have hne : registry.sortedByCapacity ≠ [] := by
    rwa [ne_eq, NodeRegistry.sortedByCapacity_eq_nil_iff]
  have hblocks := layerBlocks_consecutive_of_share_le (by omega) hne hshare
  refine ⟨?_, fun _ _ => state_rebalance_of_canAcceptTasks env o own,
    fun _ => get_rebalance_of_not_canAcceptTasks env o own⟩
  rw [List.flatMap_def, map_layersOf_rebalance env o own, hblocks.flatten_eq, Nat.sub_zero,
    List.range_eq_range']

/-- Two nodes that can accept tasks and a third one that cannot. -/
theorem rebalance_partitions_three_nodes :
    let o := (machine Platform.reference).run (new 32 "secret" []) (twoNodes ++
      [.announce "node-c" (makeProfile "node-c" .laptop) (makeStatus 0.1 12000) 2,
        .statusUpdate "node-b" (makeStatus 0.8 5000) 3])
    o.registry.sortedByCapacity.flatMap
        (fun n => (o.rebalance Platform.reference o.registry).layersOf n.id) =
        List.range o.totalModelLayers.toNat ∧
      (∀ id n, o.registry.get id = some n → n.state.canAcceptTasks = true →
        ∃ m, (o.rebalance Platform.reference o.registry).registry.get id = some m ∧
          m.state = .active) ∧
      ∀ id, (∀ n ∈ o.registry.get id, n.state.canAcceptTasks = false) →
        (o.rebalance Platform.reference o.registry).registry.get id = o.registry.get id :=
  rebalance_partitions Platform.reference _ (ownIds_of_reachable Platform.reference ⟨_, rfl⟩)
    (by decide +kernel) (by decide +kernel) (by decide +kernel)

end Orchestrator

end NeuralSwarm
