import NeuralSwarm.Traversal

/-!
# The order in which a sequence executes the layers

The tasks of a sequence name the layers that their nodes were given, read off the first and the last
layer of each assignment.  They are all the layers in order if and only if the split leaves no node
without a layer: an empty assignment reads as the range of layer `0`.
-/

namespace NeuralSwarm

variable {F P S B σ : Type}

/-- The layers that a message asks for. -/
def SwarmMessage.layers : SwarmMessage F P B → List ℕ
  | .processTask task => List.range' task.startLayer (task.endLayer - task.startLayer)
  | _ => []

/-- Workers that answer every task, with any state and logits. -/
def answering (answer : σ → P → ProcessTask P B → σ × B × List F) : Work F P B σ
  | s, peer, .processTask task =>
    let (s, outputState, logits) := answer s peer task
    (s, .ok (some (.taskResult
      { taskId := task.taskId, sequenceId := task.sequenceId, outputState, logits })))
  | s, _, _ => (s, .ok none)

/-- Such workers take every sequence to its end, through the layers of each node in turn. -/
theorem exists_journey_answering (answer : σ → P → ProcessTask P B → σ × B × List F)
    (pipeline : InferencePipeline P) (sequenceId : ℕ) (taskId : String) (tokens : List ℤ)
    {stages : List (P × NodeEntry F)} (hne : stages ≠ []) (k : ℕ) (s : σ) (input : B) :
    ∃ tasks s' logits, Journey (answering answer) pipeline sequenceId taskId tokens k s input stages
      tasks s' logits ∧
      tasks.flatMap (·.2.layers) = stages.flatMap fun stage =>
        List.range' stage.2.layerRange.1 (stage.2.layerRange.2 - stage.2.layerRange.1) := by
  induction stages generalizing k s input with
  | nil => exact absurd rfl hne
  | cons stage rest ih =>
    rcases rest with _ | ⟨stage', rest⟩
    · exact ⟨_, _, _, .last rfl, rfl⟩
    · let reply := answer s stage.1
        (pipeline.stageTask k sequenceId taskId tokens input stage.2.layerRange)
      obtain ⟨tasks, s', logits, hjourney, hlayers⟩ :=
        ih (List.cons_ne_nil _ _) (k + 1) reply.1 reply.2.1
      refine ⟨_, s', logits, .next rfl hjourney, ?_⟩
      rw [List.flatMap_cons, List.flatMap_cons, hlayers]
      rfl

theorem NodeEntry.layerRange_eq_span {n : NodeEntry F} {total : ℕ} (htotal : total < 2 ^ 32)
    (hlt : ∀ l ∈ n.assignedLayers, l < total) :
    List.range' n.layerRange.1 (n.layerRange.2 - n.layerRange.1) = span n.assignedLayers := by
  have hlast : n.assignedLayers.getLast?.getD 0 + 1 < 2 ^ 32 := by
    cases h : n.assignedLayers.getLast? with
    | none => decide
    | some l =>
      have := hlt l (List.mem_of_getLast? h)
      rw [Option.getD_some]
      omega
  rw [layerRange, u32Add_of_lt hlast, span]

variable [Scalar F]

theorem share_follow (totalLayers : ℕ) (sorted : List (NodeEntry F))
    (plan : List (String × List ℕ)) (n : NodeEntry F) :
    share totalLayers (sorted.map (·.follow plan)) (n.follow plan) =
      share totalLayers sorted n := by
  have hsum : (sorted.map (·.follow plan)).map (·.capacity.composite) =
      sorted.map (·.capacity.composite) := by
    rw [List.map_map]
    exact List.map_congr_left fun n _ => congrArg _ (n.follow_capacity plan)
  simp only [share, layerCount, hsum, List.length_map, n.follow_capacity plan]

/-- Following a plan does not change the shares. -/
theorem everyNodeGetsLayer_follow (totalLayers : ℕ) (sorted : List (NodeEntry F))
    (plan : List (String × List ℕ)) :
    EveryNodeGetsLayer totalLayers (sorted.map (·.follow plan)) ↔
      EveryNodeGetsLayer totalLayers sorted := by
  have hmap : ((sorted.map (·.follow plan)).dropLast.map
      (share totalLayers (sorted.map (·.follow plan)))) =
        sorted.dropLast.map (share totalLayers sorted) := by
    rw [← List.map_dropLast, List.map_map]
    exact List.map_congr_left fun n _ => share_follow totalLayers sorted plan n
  have hpos : (∀ n ∈ (sorted.map (·.follow plan)).dropLast,
      0 < share totalLayers (sorted.map (·.follow plan)) n) ↔
        ∀ n ∈ sorted.dropLast, 0 < share totalLayers sorted n := by
    rw [← List.map_dropLast, List.forall_mem_map]
    exact forall₂_congr fun n _ => by rw [share_follow]
  rw [EveryNodeGetsLayer, EveryNodeGetsLayer, hmap, hpos]

namespace Orchestrator

variable {env : Platform P S B} {work : Work F P B σ}

/-- After a rebalance, the layers of the nodes in order are those of the model if and only if no
share is empty. -/
theorem flatMap_layerRange_eq_iff (o : Orchestrator F P B) {registry : NodeRegistry F}
    (own : registry.OwnIds) (hne : registry.sortedByCapacity ≠ [])
    (htotal : 0 < o.totalModelLayers.toNat) :
    ((o.rebalance env registry).registry.sortedByCapacity.flatMap fun n =>
        List.range' n.layerRange.1 (n.layerRange.2 - n.layerRange.1)) =
          List.range o.totalModelLayers.toNat ↔
      EveryNodeGetsLayer o.totalModelLayers.toNat
        (o.rebalance env registry).registry.sortedByCapacity := by
  have hlt := o.totalModelLayers.toNat_lt
  have hspan : ((o.rebalance env registry).registry.sortedByCapacity.flatMap fun n =>
      List.range' n.layerRange.1 (n.layerRange.2 - n.layerRange.1)) =
        ((layerBlocks o.totalModelLayers.toNat registry.sortedByCapacity).map span).flatten := by
    rw [← sorted_rebalance_layers env o own, List.map_map, ← List.flatMap_def]
    refine List.flatMap_congr fun n hn => ?_
    exact n.layerRange_eq_span hlt fun l hl => lt_of_mem_sorted_rebalance env o own hn hl
  rw [hspan, sorted_rebalance_follow env o own, everyNodeGetsLayer_follow,
    ← layerBlocks_nonempty_iff hlt hne]
  exact flatten_map_span_eq_iff htotal hne
    (fun n => layerStop_last hlt (Nat.zero_le _) _ n)
    (layerBlocks_consecutive_of_nonempty hlt hne)

end Orchestrator

/-! ## Announced nodes -/

/-- Each announcement ends with a rebalance over a registry that has a node to give layers to. -/
theorem announced_eq_rebalance (env : Platform P S B) (total : UInt32) (sharedSecret : String)
    (clusterKey : B) {nodes : List (Announcement F)} (hne : nodes ≠ [])
    (valid : ∀ a ∈ nodes, env.peerIds.Valid a.deviceId) :
    ∃ (o : Orchestrator F P B) (registry : NodeRegistry F),
      announced env total sharedSecret clusterKey nodes = o.rebalance env registry ∧
        o.totalModelLayers = total ∧ registry.OwnIds ∧ registry.ValidIds env.peerIds ∧
        registry.sortedByCapacity ≠ [] := by
  obtain ⟨nodes, a, rfl⟩ := (List.eq_nil_or_concat' nodes).resolve_left hne
  have announces : ∀ op ∈ nodes.map (Announcement.op : _ → Op F P B),
      op.AnnouncesValid env := by
    refine List.forall_mem_map.2 fun b hb => ?_
    exact valid b (List.mem_append_left _ hb)
  obtain ⟨own, hvalid, htotal, -⟩ :=
    Orchestrator.run_of_announcesValid env total sharedSecret clusterKey announces
  let o := announced env total sharedSecret clusterKey nodes
  let op : Op F P B := a.op
  refine ⟨o, op.written o, ?_, htotal, Op.written_ownIds own op,
    Op.validIds_written env hvalid (valid a (by simp)), ?_⟩
  · rw [announced, List.map_append, List.map_singleton, Mealy.run_concat]
    exact Orchestrator.perform_of_rebalances env rfl
  · intro hnil
    obtain ⟨registry, hready, hget⟩ :=
      o.registry.markReady_register a.deviceId a.profile a.initialStatus a.now
    have hmem : NodeRegistry.readyEntry a.deviceId a.profile a.initialStatus a.now ∈
        registry.sortedByCapacity :=
      NodeRegistry.mem_sortedByCapacity_iff.2 ⟨⟨a.deviceId, by rw [hget, if_pos rfl]⟩, rfl⟩
    have hwritten : op.written o = registry := by
      simp only [op, Announcement.op, Op.written, hready, Except.toOption, Option.getD_some]
    rw [← hwritten, hnil] at hmem
    cases hmem

/-- A sequence started after the announcements executes every layer once and in order if and only
if every node has a share of the layers. -/
theorem executes_layers_in_order_iff {prim : Primitives S} (lawful : prim.Lawful)
    (ids : PeerIds P) (total : UInt32) (htotal : 0 < total.toNat) (sharedSecret : String)
    (clusterKey : Bytes) {nodes : List (Announcement F)} (hne : nodes ≠ [])
    (valid : ∀ a ∈ nodes, ids.Valid a.deviceId)
    (answer : σ → P → ProcessTask P Bytes → σ × Bytes × List F) (s : σ) (rng : Entropy)
    (sequenceId : ℕ) (taskId : String) (tokens : List ℤ) (initialState : Bytes) :
    let env := prim.platform ids
    let o := announced env total sharedSecret clusterKey nodes
    ∃ t logits, runSequence env (answering answer) o.pipeline.pipelineStages.length o s rng
        sequenceId taskId tokens initialState = some t ∧ t.logits = some logits ∧
      (t.issued.flatMap (·.2.layers) = List.range total.toNat ↔
        EveryNodeGetsLayer total.toNat o.registry.sortedByCapacity) := by
  intro env o
  obtain ⟨o', registry, ho, rfl, own, hvalid, hsorted⟩ :=
    announced_eq_rebalance env total sharedSecret clusterKey hne valid
  obtain ⟨route, routed⟩ := o'.exists_routed_rebalance own (hvalid.of_sorted own)
  have ho : o = o'.rebalance env registry := ho
  rw [← ho] at routed
  have hroute : route ≠ [] := by
    rintro rfl
    have hnil := Orchestrator.sorted_rebalance_ids env o' own
    rw [← ho, routed.sorted] at hnil
    exact hsorted (List.map_eq_nil_iff.1 hnil.symm)
  obtain ⟨sealed, hseal⟩ := lawful.exists_seal rng o.clusterKey taskId initialState
  obtain ⟨tasks, s', logits, journey, hlayers⟩ :=
    exists_journey_answering answer o.pipeline sequenceId taskId tokens hroute 0 s sealed
  refine ⟨_, logits, runSequence_of_journey routed hseal journey ?_, rfl, ?_⟩
  · rw [routed.stages, List.length_map]
  · have hsame : route.flatMap (fun stage => List.range' stage.2.layerRange.1
        (stage.2.layerRange.2 - stage.2.layerRange.1)) =
          o.registry.sortedByCapacity.flatMap fun n =>
            List.range' n.layerRange.1 (n.layerRange.2 - n.layerRange.1) := by
      rw [routed.sorted, List.flatMap_map]
    rw [hlayers, hsame, ho]
    exact Orchestrator.flatMap_layerRange_eq_iff o' own hsorted htotal

/-! ## Two announced nodes -/

def constantAnswer : Unit → Ed25519PeerId → ProcessTask Ed25519PeerId Bytes →
    Unit × Bytes × List Float32
  | (), _, _ => ((), [], [0.5])

theorem executes_layers_in_order_two_announced :
    let env := Primitives.reference.platform .ed25519
    let o := announced env 32 "secret" [] twoAnnouncements
    ∃ t logits, runSequence env (answering constantAnswer) o.pipeline.pipelineStages.length o ()
        (fun _ => 0) 1 "task" [1] [] = some t ∧ t.logits = some logits ∧
      (t.issued.flatMap (·.2.layers) = List.range (32 : UInt32).toNat ↔
        EveryNodeGetsLayer (32 : UInt32).toNat o.registry.sortedByCapacity) := by
  have hne : twoAnnouncements ≠ [] := List.cons_ne_nil _ _
  have hvalid : ∀ a ∈ twoAnnouncements, PeerIds.ed25519.Valid a.deviceId := by decide +kernel
  exact executes_layers_in_order_iff Primitives.reference_lawful .ed25519 32 (by decide) "secret"
    [] hne hvalid constantAnswer () (fun _ => 0) 1 "task" [1] []

/-- Of two nodes that share one layer, the second has none and executes layer `0` again. -/
theorem executes_layer_twice :
    ((runSequence Platform.reference (answering constantAnswer) 2
        (announced Platform.reference 1 "secret" [] twoAnnouncements) () (fun _ => 0) 1 "task" [1]
        []).map fun t => (t.logits, t.issued.flatMap (·.2.layers))) =
          some (some [0.5], [0, 0]) ∧
      [0, 0] ≠ List.range 1 := by
  decide +kernel

end NeuralSwarm
