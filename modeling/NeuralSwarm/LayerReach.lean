import NeuralSwarm.Run

/-!
# The layers behind the stages

The layers are split among all nodes that can accept tasks, the stages are those of them whose ids
are texts of peer ids.  A layer is within reach of the pipeline if and only if the split gives it to
such a node; `handle_announce` accepts every id.
-/

namespace NeuralSwarm

variable {F P S B : Type} [Scalar F] (env : Platform P S B)

/-- Every layer of the model belongs to a registered node whose peer id is a stage. -/
def Orchestrator.LayersReachable (o : Orchestrator F P B) : Prop :=
  ∀ l < o.totalModelLayers.toNat, ∃ id n peer, o.registry.get id = some n ∧
    l ∈ n.assignedLayers ∧ env.peerIds.parse n.id = .ok peer ∧ peer ∈ o.pipeline.pipelineStages

/-- Only nodes whose ids are valid have a share in the split. -/
def LayersOnPeers (ids : PeerIds P) (totalLayers : ℕ) (sorted : List (NodeEntry F)) : Prop :=
  ∀ pair ∈ sorted.zip (layerBlocks totalLayers sorted), pair.2 ≠ [] → ids.Valid pair.1.id

instance (ids : PeerIds P) (totalLayers : ℕ) (sorted : List (NodeEntry F)) :
    Decidable (LayersOnPeers ids totalLayers sorted) :=
  inferInstanceAs (Decidable (∀ pair ∈ _, _))

/-- The rebalance of the operation gives layers only to nodes whose ids are valid. -/
def Op.SplitsOnPeers (o : Orchestrator F P B) (op : Op F P B) : Prop :=
  op.rebalances o = true →
    LayersOnPeers env.peerIds o.totalModelLayers.toNat (op.written o).sortedByCapacity

instance (o : Orchestrator F P B) (op : Op F P B) : Decidable (op.SplitsOnPeers env o) :=
  inferInstanceAs (Decidable (_ → _))

namespace Orchestrator

variable {o : Orchestrator F P B} {registry : NodeRegistry F}

/-- A node of the sorted list carries its block after the rebalance. -/
theorem mem_sorted_rebalance_of_mem_zip (own : registry.OwnIds) {n : NodeEntry F}
    {block : List ℕ} (h : (n, block) ∈ registry.sortedByCapacity.zip
      (layerBlocks o.totalModelLayers.toNat registry.sortedByCapacity)) :
    n.withLayers block ∈ (o.rebalance env registry).registry.sortedByCapacity := by
  rw [sortedByCapacity_rebalance env o own, ← List.map_uncurry_zip_eq_zipWith]
  exact List.mem_map_of_mem h

theorem layersReachable_rebalance (own : registry.OwnIds) (hne : registry.sortedByCapacity ≠ [])
    (hpeers : LayersOnPeers env.peerIds o.totalModelLayers.toNat registry.sortedByCapacity) :
    (o.rebalance env registry).LayersReachable env := by
  intro l hl
  obtain ⟨⟨n, block⟩, hpair, hmem⟩ :=
    exists_zip_layerBlocks o.totalModelLayers.toNat_lt hne hl
  have hafter := mem_sorted_rebalance_of_mem_zip (o := o) env own hpair
  obtain ⟨⟨id, hid⟩, -⟩ := NodeRegistry.mem_sortedByCapacity_iff.1 hafter
  obtain ⟨peer, hparse⟩ := hpeers (n, block) hpair (List.ne_nil_of_mem hmem)
  refine ⟨id, _, peer, hid, hmem, hparse, ?_⟩
  rw [rebalance_pipelineStages, PeerIds.mem_parseAll_iff]
  exact ⟨n.id, List.mem_map_of_mem (List.of_mem_zip hpair).1, hparse⟩

/-- Without a wrap, a block behind an invalid id is out of reach: the blocks are disjoint. -/
theorem layersOnPeers_of_layersReachable (own : registry.OwnIds)
    (hfit : SharesFit o.totalModelLayers.toNat registry.sortedByCapacity 0
      registry.sortedByCapacity)
    (h : (o.rebalance env registry).LayersReachable env) :
    LayersOnPeers env.peerIds o.totalModelLayers.toNat registry.sortedByCapacity := by
  rintro ⟨n, block⟩ hpair hblock
  obtain ⟨l, hl⟩ := List.exists_mem_of_ne_nil _ hblock
  have hmem := List.of_mem_zip hpair
  obtain ⟨id, m, peer, hid, hlm, hparse, hstage⟩ :=
    h l (lt_of_mem_layerBlocks o.totalModelLayers.toNat_lt hmem.2 hl)
  rw [rebalance_pipelineStages, PeerIds.mem_parseAll_iff] at hstage
  obtain ⟨text, htext, hparse'⟩ := hstage
  have hsame : text = m.id :=
    (env.peerIds.toString_of_parse hparse').symm.trans (env.peerIds.toString_of_parse hparse)
  have own' := rebalance_ownIds env o own
  -- the node that holds the layer is in the sorted list, beside the one of the block
  have hm : m ∈ (o.rebalance env registry).registry.sortedByCapacity := by
    rw [hsame, ← sorted_rebalance_ids env o own] at htext
    obtain ⟨m', hm', hidm⟩ := List.mem_map.1 htext
    obtain ⟨⟨key, hkey⟩, -⟩ := NodeRegistry.mem_sortedByCapacity_iff.1 hm'
    obtain rfl : key = id := by rw [← own' key m' hkey, hidm, own' id m hid]
    cases hkey.symm.trans hid
    exact hm'
  have hn := mem_sorted_rebalance_of_mem_zip (o := o) env own hpair
  have hdisjoint : (o.rebalance env registry).registry.sortedByCapacity.Pairwise
      fun a b => a.assignedLayers.Disjoint b.assignedLayers := by
    rw [← List.pairwise_map, sorted_rebalance_layers env o own]
    exact (layerBlocks_consecutive o.totalModelLayers.toNat_lt
      (List.ne_nil_of_mem hmem.1) hfit).pairwise_disjoint
  have hsymm : Std.Symm fun a b : NodeEntry F => a.assignedLayers.Disjoint b.assignedLayers :=
    ⟨fun _ _ hab _ hb ha => hab ha hb⟩
  by_cases heq : n.withLayers block = m
  · exact ⟨peer, by rw [← hparse, ← heq]; rfl⟩
  · exact absurd hlm (hdisjoint.forall hn hm heq hl)

/-- After an announce the whole model is within reach, if its rebalance splits the layers among
peers. -/
theorem layersReachable_perform_announce (own : o.registry.OwnIds) (a : Announcement F)
    (guard : (a.op : Op F P B).SplitsOnPeers env o) :
    (o.perform env a.op).1.LayersReachable env := by
  rw [perform_of_rebalances env (show (a.op : Op F P B).rebalances o = true from rfl)]
  refine layersReachable_rebalance env (Op.written_ownIds own a.op) ?_ (guard rfl)
  obtain ⟨registry, hready, hget⟩ :=
    o.registry.markReady_register a.deviceId a.profile a.initialStatus a.now
  have hentry : ((a.op : Op F P B).written o).get a.deviceId =
      some (NodeRegistry.readyEntry a.deviceId a.profile a.initialStatus a.now) := by
    simp only [Announcement.op, Op.written, hready, Except.toOption, Option.getD_some, hget,
      if_true]
  exact List.ne_nil_of_mem (NodeRegistry.mem_sortedByCapacity_iff.2 ⟨⟨_, hentry⟩, rfl⟩)

/-- In every run of announces whose splits give layers to peers only, every layer is within reach
after each announce. -/
theorem layersReachable_announced (total : UInt32) (sharedSecret : String) (clusterKey : B)
    (nodes : List (Announcement F))
    (guarded : (machine env).Guarded (fun o op => op.SplitsOnPeers env o)
      (new total sharedSecret clusterKey) (nodes.map Announcement.op)) :
    ∀ before a, before ++ [a] <+: nodes →
      (announced env total sharedSecret clusterKey (before ++ [a])).LayersReachable env := by
  rintro before a ⟨rest, rfl⟩
  rw [List.append_assoc, List.map_append, Mealy.guarded_append] at guarded
  have own : (announced env total sharedSecret clusterKey before).registry.OwnIds :=
    ownIds_of_reachable env ⟨_, rfl⟩
  rw [announced, List.map_append, List.map_singleton, Mealy.run_concat]
  exact layersReachable_perform_announce env own a guarded.2.1

/-! ## A peer and another node -/

/-- A node that is known by its host name. -/
def announcementHost (initialStatus : NodeStatus Float32) : Announcement Float32 :=
  { announcementB with deviceId := "host-b", initialStatus }

/-- A node without capacity is given no layer, so its id does no harm. -/
theorem layersReachable_announced_idle_host :
    (announced Platform.reference 32 "secret" []
      [announcementA, announcementHost (makeStatus 0.95 500)]).LayersReachable
        Platform.reference :=
  layersReachable_announced Platform.reference 32 "secret" []
    [announcementA, announcementHost (makeStatus 0.95 500)] (by decide +kernel) [announcementA]
    (announcementHost (makeStatus 0.95 500)) (List.prefix_refl _)

/-- The layers of a node that is no peer are out of reach. -/
theorem not_layersReachable_host :
    ¬ (announced Platform.reference 32 "secret" []
      [announcementA, announcementHost (makeStatus 0.5 12000)]).LayersReachable
        Platform.reference := by
  intro h
  obtain ⟨id, n, peer, hget, hl, hparse, -⟩ := h 20 (by decide +kernel)
  have hinvalid : ∀ n ∈ (announced Platform.reference 32 "secret" [] [announcementA,
      announcementHost (makeStatus 0.5 12000)]).registry.values,
      20 ∈ n.assignedLayers → ¬ Platform.reference.peerIds.Valid n.id := by decide +kernel
  exact hinvalid n (AList.mem_values_iff.2 ⟨id, hget⟩) hl ⟨peer, hparse⟩

end Orchestrator

end NeuralSwarm
