import NeuralSwarm.LayerOrder
import NeuralSwarm.SplitInference
import NeuralSwarm.Succession

/-!
# Inference in the mesh

Right after a rebalance that leaves no node without a layer, the ranges of the nodes cut the model
at boundaries (`exists_bounds`), so that the stages of the pipeline are those of split inference
under the names of their peers.  Sequences that follow one another are then answered by the mesh as
one machine with the whole model answers them (`answers_prefix_fullMachine`).
-/

namespace NeuralSwarm

/-! ## The boundaries of a route -/

section Bounds

variable {a b : ℕ} {blocks : List (List ℕ)}

/-- Blocks without a gap are the stages between their boundaries. -/
theorem exists_stagesFrom_of_consecutive (h : Consecutive a blocks b)
    (nonempty : ∀ block ∈ blocks, block ≠ []) (k : ℕ) :
    ∃ rest, (stagesFrom k (a :: rest)).map (·.1) = List.range' k blocks.length ∧
      (stagesFrom k (a :: rest)).map (·.2) =
        blocks.map (fun block => (block.head?.getD 0, block.getLast?.getD 0 + 1)) ∧
      (a :: rest).IsChain (· ≤ ·) ∧ (a :: rest).getLast? = some b ∧
      rest.length = blocks.length := by
  induction h generalizing k with
  | nil a => exact ⟨[], rfl, rfl, List.isChain_singleton a, rfl, rfl⟩
  | @cons a b c blocks hab rest ih =>
    obtain ⟨hne, nonempty⟩ := List.forall_mem_cons.1 nonempty
    obtain ⟨rest, hindex, hranges, hchain, hlast, hlength⟩ := ih nonempty (k + 1)
    have hpos : b - a ≠ 0 := fun h0 => hne (by rw [h0]; rfl)
    refine ⟨b :: rest, ?_, ?_, List.isChain_cons_cons.2 ⟨hab, hchain⟩, ?_, ?_⟩
    · rw [stagesFrom, List.map_cons, hindex, List.length_cons, List.range'_succ]
    · have hends : ((List.range' a (b - a)).head?.getD 0,
          (List.range' a (b - a)).getLast?.getD 0 + 1) = (a, b) := by
        rw [List.head?_range', if_neg hpos, List.getLast?_range', if_neg hpos]
        simp only [Option.getD_some, Prod.mk.injEq, true_and]
        omega
      rw [stagesFrom, List.map_cons, hranges, List.map_cons, hends]
    · rw [List.getLast?_cons_cons]
      exact hlast
    · rw [List.length_cons, List.length_cons, hlength]

variable {F P S B : Type} [Scalar F] {env : Platform P S B} {o : Orchestrator F P B}

/-- A fresh route is that of a rebalance over some registry. -/
theorem Orchestrator.JustRebalanced.exists_rebalance (fresh : o.JustRebalanced env) :
    ∃ (o' : Orchestrator F P B) (registry : NodeRegistry F), registry.OwnIds ∧
      o = o'.rebalance env registry ∧ o.totalModelLayers = o'.totalModelLayers := by
  obtain ⟨total, sharedSecret, clusterKey, ops, op, announces, hop, rfl⟩ := fresh
  obtain ⟨own, -⟩ := run_of_announcesValid env total sharedSecret clusterKey
    fun op' hop' => announces op' (List.mem_append_left _ hop')
  have hrebalance := perform_of_rebalances env hop
  refine ⟨(machine env).run (new total sharedSecret clusterKey) ops, _,
    Op.written_ownIds own op, ?_, ?_⟩
  · rw [Mealy.run_concat]
    exact hrebalance
  · rw [Mealy.run_concat, show ((machine env).step _ op).1 = _ from hrebalance]
    rfl

/-- The peers of a route are different, as their ids are. -/
theorem Orchestrator.JustRebalanced.nodup_stages (fresh : o.JustRebalanced env) :
    o.pipeline.pipelineStages.Nodup := by
  have routed := fresh.routed
  obtain ⟨o', registry, own, ho, -⟩ := fresh.exists_rebalance
  have hnodup : (o.registry.sortedByCapacity.map (·.id)).Nodup := by
    rw [ho, sorted_rebalance_ids env o' own]
    exact own.sorted_nodup
  refine List.Nodup.of_map env.peerIds.toString ?_
  have hids : o.pipeline.pipelineStages.map env.peerIds.toString =
      o.registry.sortedByCapacity.map (·.id) := by
    rw [routed.stages, routed.sorted, List.map_map, List.map_map]
    refine List.map_congr_left fun stage hstage => ?_
    exact env.peerIds.toString_of_parse (routed.parsed stage hstage)
  rw [hids]
  exact hnodup

theorem Orchestrator.JustRebalanced.nodup_peers (fresh : o.JustRebalanced env) :
    (o.stageLayers.map (·.1)).Nodup := by
  have hpeers : o.stageLayers.map (·.1) = o.pipeline.pipelineStages := by
    rw [stageLayers_eq, List.map_map, fresh.routed.stages]
    rfl
  rw [hpeers]
  exact fresh.nodup_stages

/-- If every node has a share, the stages of a fresh route are those between some boundaries, under
the names of their peers. -/
theorem Orchestrator.JustRebalanced.exists_bounds (fresh : o.JustRebalanced env)
    (hactive : o.registry.sortedByCapacity ≠ [])
    (shares : EveryNodeGetsLayer o.totalModelLayers.toNat o.registry.sortedByCapacity) :
    ∃ (bounds : List ℕ) (name : ℕ → P), Splits bounds o.totalModelLayers.toNat ∧
      o.stageLayers = (stagesFrom 0 bounds).map fun stage => (name stage.1, stage.2) := by
  have routed := fresh.routed
  obtain ⟨o', registry, own, ho, htotal⟩ := fresh.exists_rebalance
  have hfollow := sorted_rebalance_follow env o' own
  have hlayers := sorted_rebalance_layers env o' own
  rw [← ho] at hfollow hlayers
  rw [htotal, hfollow, everyNodeGetsLayer_follow] at shares
  have hne : registry.sortedByCapacity ≠ [] := by
    intro hnil
    rw [hfollow, hnil] at hactive
    exact hactive rfl
  have hlt := o'.totalModelLayers.toNat_lt
  have nonempty := (layerBlocks_nonempty_iff hlt hne).2 shares
  obtain ⟨rest, hindex, hranges, hchain, hlast, hlength⟩ := exists_stagesFrom_of_consecutive
    (layerBlocks_consecutive_of_nonempty hlt hne nonempty) nonempty 0
  have hcount : o.pipeline.pipelineStages.length =
      (layerBlocks o'.totalModelLayers.toNat registry.sortedByCapacity).length := by
    rw [← hlayers, List.length_map, routed.stages, routed.sorted, List.length_map, List.length_map]
  obtain ⟨p, peers, hpeers⟩ : ∃ p peers, o.pipeline.pipelineStages = p :: peers := by
    refine List.exists_cons_of_ne_nil fun hnil => hne ?_
    rw [hnil, length_layerBlocks] at hcount
    exact List.length_eq_zero_iff.1 hcount.symm
  have hlayerRange : o.registry.sortedByCapacity.map (·.layerRange) =
      (stagesFrom 0 (0 :: rest)).map (·.2) := by
    rw [hranges, ← hlayers, List.map_map]
    refine List.map_congr_left fun n hn => ?_
    have hend : n.assignedLayers.getLast?.getD 0 + 1 < 2 ^ 32 := by
      rcases hget : n.assignedLayers.getLast? with - | l
      · decide
      · have hl := lt_of_mem_sorted_rebalance env o' own (ho ▸ hn) (List.mem_of_getLast? hget)
        rw [Option.getD_some]
        omega
    rw [NodeEntry.layerRange, u32Add_of_lt hend]
    rfl
  have hnames : ((stagesFrom 0 (0 :: rest)).map (·.1)).map
      (fun k => o.pipeline.pipelineStages.getD k p) = o.pipeline.pipelineStages := by
    rw [hindex, ← hcount, ← List.range_eq_range']
    refine List.ext_getElem (by rw [List.length_map, List.length_range]) fun i hi hi' => ?_
    rw [List.getElem_map, List.getElem_range, List.getD_eq_getElem?_getD,
      List.getElem?_eq_getElem hi', Option.getD_some]
  refine ⟨0 :: rest, fun k => o.pipeline.pipelineStages.getD k p, ⟨rfl, hchain, ?_, ?_⟩, ?_⟩
  · rw [List.length_cons, hlength, ← hcount, hpeers, List.length_cons]
    omega
  · intro c hc
    rw [hlast] at hc
    cases hc
    rw [htotal]
  · rw [stageLayers, hlayerRange]
    nth_rewrite 1 [← hnames]
    rw [List.map_map, List.zip_map']
    rfl

end Bounds

/-! ## Stages under other names -/

section Names

variable {F P ι σ B : Type} [DecidableEq P] [DecidableEq ι] (backend : InferenceBackend σ F B)

/-- The composition does not depend on what its stages are called. -/
theorem forwardAll_map_names {name : ι → P} (stages : List (ι × ℕ × ℕ)) {keys : List ι}
    (hkeys : ∀ stage ∈ stages, stage.1 ∈ keys)
    (injective : ∀ i ∈ keys, ∀ j ∈ keys, name i = name j → i = j) {s : P → σ} {t : ι → σ}
    (hst : ∀ i ∈ keys, t i = s (name i)) (tokens : List ℤ) (sequenceId : ℕ) (input : B)
    (before : Option (List F)) :
    let named := forwardAll (fun _ => backend) tokens sequenceId s input before
      (stages.map fun stage => (name stage.1, stage.2))
    let numbered := forwardAll (fun _ => backend) tokens sequenceId t input before stages
    named.logits = numbered.logits ∧ named.payloads = numbered.payloads ∧
      ∀ i ∈ keys, numbered.workers i = named.workers (name i) := by
  induction stages generalizing s t input before with
  | nil => exact ⟨rfl, rfl, hst⟩
  | cons stage stages ih =>
    obtain ⟨hkey, hkeys⟩ := List.forall_mem_cons.1 hkeys
    have hupdate (u : σ) : ∀ i ∈ keys,
        Function.update t stage.1 u i = Function.update s (name stage.1) u (name i) := by
      intro i hi
      by_cases hstage : i = stage.1
      · rw [hstage, Function.update_self, Function.update_self]
      · have hname : name i ≠ name stage.1 := fun h => hstage (injective i hi _ hkey h)
        rw [Function.update_of_ne hstage, Function.update_of_ne hname, hst i hi]
    simp only [List.map_cons, forwardAll, hst _ hkey]
    rcases passState backend (s (name stage.1)) stage.2 input tokens sequenceId with
      ⟨u, e | ⟨output, logits⟩⟩
    · exact ⟨rfl, rfl, hupdate u⟩
    · obtain ⟨hlogits, hpayloads, hworkers⟩ := ih hkeys (hupdate u) output (some logits)
      exact ⟨hlogits, congrArg (output :: ·) hpayloads, hworkers⟩

end Names

/-! ## The answers of a fresh route -/

/-- The answers of a mesh whose sequences follow one another are among those of their compositions,
and no fewer when nothing is in flight. -/
theorem outputs_in_succession {F P S : Type} [Scalar F] [DecidableEq P] {τ : P → Type}
    {backend : ∀ p, InferenceBackend (τ p) F Bytes} {prim : Primitives S} {ids : PeerIds P}
    {o : Orchestrator F P Bytes} (lawful : prim.Lawful)
    (fresh : o.JustRebalanced (prim.platform ids)) (hactive : o.registry.sortedByCapacity ≠ [])
    (initial : Bytes) (s : ∀ p, τ p) {events : List (MeshEvent Bytes)} :
    let M := Mesh.machine (prim.platform ids) (Mesh.executing prim ids o.clusterKey backend)
    let N := compositionMachine backend o.stageLayers initial
    let outputs := (M.answers (Mesh.new o s) events).reduceOption
    let expected := (N.answers s (events.filterMap MeshEvent.input?)).reduceOption
    M.Guarded (Mesh.OneAtATime backend o.stageLayers initial) (Mesh.new o s) events →
      outputs <+: expected ∧
        ((M.run (Mesh.new o s) events).inFlight = [] → outputs = expected) := by
  intro M N outputs expected guarded
  have routed := fresh.routed
  have hroute : o.route ≠ [] := by
    intro hnil
    have hsorted := routed.sorted
    rw [hnil] at hsorted
    exact hactive hsorted
  obtain ⟨pending, hanswers, hidle⟩ :=
    answers_in_succession lawful routed hroute initial s guarded
  refine ⟨⟨pending.toList, hanswers⟩, fun hnone => ?_⟩
  rw [(hidle hnone).1, Option.toList_none, List.append_nil] at hanswers
  exact hanswers

/-! ## The mesh and the whole model -/

section FullModel

open CandleBackend

variable {T Q P S : Type} [DecidableEq P] {candle : Candle T Q}
  {openGguf : ModelSource → Except String (Gguf Q)}

/-- Stages that follow the full model under their own names. -/
def FollowsNamed (candle : Candle T Q) (openGguf : ModelSource → Except String (Gguf Q))
    (bounds : List ℕ) (name : ℕ → P) (full : ModelWeights T) (s : P → CandleBackend T) : Prop :=
  Follows candle openGguf bounds full fun k => s (name k)

/-- The composition of the stages follows every step that the full model accepts. -/
theorem FollowsNamed.step (lawful : candle.Lawful) {bounds : List ℕ} {name : ℕ → P}
    {stages : List (P × ℕ × ℕ)}
    (hstages : stages = (stagesFrom 0 bounds).map fun stage => (name stage.1, stage.2))
    (nodup : (stages.map (·.1)).Nodup) (full : ModelWeights T) (s : P → CandleBackend T)
    (input : List ℤ × ℕ) (follows : FollowsNamed candle openGguf bounds name full s)
    (h : ((fullMachine candle).step full input).2.isOk = true) :
    let next := (compositionMachine (fun _ => backend candle openGguf) stages []).step s input
    FollowsNamed candle openGguf bounds name ((fullMachine candle).step full input).1 next.1 ∧
      next.2 = (((fullMachine candle).step full input).2 >>= logitsOf candle).toOption := by
  intro next
  obtain ⟨hfollows, hlogits⟩ := splitMachine_step lawful full _ input follows h
  have injective : ∀ i ∈ (stagesFrom 0 bounds).map (·.1),
      ∀ j ∈ (stagesFrom 0 bounds).map (·.1), name i = name j → i = j := by
    have hnames : (((stagesFrom 0 bounds).map (·.1)).map name).Nodup := by
      rw [hstages, List.map_map] at nodup
      rw [List.map_map]
      exact nodup
    exact List.inj_on_of_nodup_map hnames
  obtain ⟨hsame, -, hworkers⟩ := forwardAll_map_names (backend candle openGguf)
    (stagesFrom 0 bounds) (fun stage hstage => List.mem_map_of_mem hstage) injective
    (fun i _ => (rfl : (fun k => s (name k)) i = s (name i))) input.1 input.2 [] none
  rw [← hstages] at hsame hworkers
  refine ⟨⟨hfollows.whole, hfollows.splits, fun stage hstage => ?_⟩, hsame.trans hlogits⟩
  have hready := hfollows.ready stage hstage
  have hworker : ((splitMachine candle openGguf bounds).step (fun k => s (name k)) input).1
      stage.1 = next.1 (name stage.1) := hworkers stage.1 (List.mem_map_of_mem hstage)
  rw [← hworker]
  exact hready

variable {prim : Primitives S} {ids : PeerIds P} {o : Orchestrator Float32 P Bytes}

omit [DecidableEq P] in
/-- New executors along a fresh route are going to follow the full model. -/
theorem exists_followsNamed (lawful : candle.Lawful) {source : ModelSource} {gguf : Gguf Q}
    (hopen : openGguf source = .ok gguf) {full : ModelWeights T}
    (hload : ModelWeights.fromGguf candle gguf = .ok full)
    (fresh : o.JustRebalanced (prim.platform ids)) (hactive : o.registry.sortedByCapacity ≠ [])
    (hlayers : gguf.blockCount ≤ o.totalModelLayers.toNat)
    (shares : EveryNodeGetsLayer o.totalModelLayers.toNat o.registry.sortedByCapacity) :
    ∃ (bounds : List ℕ) (name : ℕ → P),
      o.stageLayers = (stagesFrom 0 bounds).map (fun stage => (name stage.1, stage.2)) ∧
      (o.stageLayers.map (·.1)).Nodup ∧
      FollowsNamed candle openGguf bounds name full fun _ => ofSource source := by
  obtain ⟨bounds, name, splits, hstages⟩ := fresh.exists_bounds hactive shares
  have splits' : Splits bounds gguf.blockCount :=
    ⟨splits.first, splits.ascending, splits.nonempty,
      fun b hb => hlayers.trans (splits.last b hb)⟩
  exact ⟨bounds, name, hstages, fresh.nodup_peers, follows_ofSource lawful hopen hload splits'⟩

/-- Sequences that follow one another in the mesh are answered as by one machine with the whole
model, whose caches see them in the same order: no answer is different, and none is missing when
nothing is in flight. -/
theorem answers_prefix_fullMachine (hprim : prim.Lawful) (lawful : candle.Lawful)
    {source : ModelSource} {gguf : Gguf Q} (hopen : openGguf source = .ok gguf)
    {full : ModelWeights T} (hload : ModelWeights.fromGguf candle gguf = .ok full)
    (fresh : o.JustRebalanced (prim.platform ids)) (hactive : o.registry.sortedByCapacity ≠ [])
    (hlayers : gguf.blockCount ≤ o.totalModelLayers.toNat)
    (shares : EveryNodeGetsLayer o.totalModelLayers.toNat o.registry.sortedByCapacity)
    {events : List (MeshEvent Bytes)}
    (accepted : ∀ answer ∈
      (fullMachine candle).answers full (events.filterMap MeshEvent.input?),
        answer.isOk = true) :
    let backend := fun _ : P => backend candle openGguf
    let M := Mesh.machine (prim.platform ids) (Mesh.executing prim ids o.clusterKey backend)
    let mesh := Mesh.new o fun _ : P => (ofSource source : CandleBackend T)
    let outputs := (M.answers mesh events).reduceOption
    let expected := (((fullMachine candle).answers full
      (events.filterMap MeshEvent.input?)).map fun answer =>
        (answer >>= logitsOf candle).toOption).reduceOption
    M.Guarded (Mesh.OneAtATime backend o.stageLayers []) mesh events →
      outputs <+: expected ∧ ((M.run mesh events).inFlight = [] → outputs = expected) := by
  intro backend M mesh outputs expected guarded
  obtain ⟨bounds, name, hstages, nodup, follows⟩ :=
    exists_followsNamed lawful hopen hload fresh hactive hlayers shares
  have hexpected : ((compositionMachine backend o.stageLayers []).answers
      (fun _ => ofSource source) (events.filterMap MeshEvent.input?)).reduceOption = expected :=
    congrArg _ (Mealy.answers_of_simulation (FollowsNamed.step lawful hstages nodup) follows
      accepted)
  obtain ⟨houtputs, hidle⟩ := outputs_in_succession hprim fresh hactive []
    (fun _ : P => (ofSource source : CandleBackend T)) guarded
  rw [hexpected] at houtputs hidle
  exact ⟨houtputs, hidle⟩

end FullModel

/-- A prompt, a token that continues it, and a prompt of another sequence whose result is still on
its way. -/
def oneAfterAnother : List (MeshEvent Bytes) :=
  let start (taskId : String) (position : ℕ) (tokens : List ℤ) : MeshEvent Bytes :=
    .start (fun _ => 0) position taskId tokens []
  let deliver : MeshEvent Bytes := .deliver 0 fun _ => 0
  [start "a" 0 [1, 0], deliver, deliver, deliver, deliver, start "b" 2 [1], deliver, deliver,
    deliver, deliver, start "c" 0 [1], deliver]

theorem answers_prefix_fullMachine_two_nodes :
    let openGguf := fun _ : ModelSource => Except.ok (Gguf.zeros 3)
    let o := announced Platform.reference 4 "secret" [] twoAnnouncements
    let backend := fun _ : Ed25519PeerId => CandleBackend.backend Candle.shapes openGguf
    let M := Mesh.machine Platform.reference
      (Mesh.executing Primitives.reference .ed25519 o.clusterKey backend)
    let mesh := Mesh.new o fun _ : Ed25519PeerId =>
      (CandleBackend.ofSource (.path "model.gguf") : CandleBackend Shape)
    let outputs := (M.answers mesh oneAfterAnother).reduceOption
    ∃ full, ModelWeights.fromGguf Candle.shapes (Gguf.zeros 3) = .ok full ∧
      let expected := (((fullMachine Candle.shapes).answers full
        (oneAfterAnother.filterMap MeshEvent.input?)).map fun answer =>
          (answer >>= logitsOf Candle.shapes).toOption).reduceOption
      outputs <+: expected ∧ ((M.run mesh oneAfterAnother).inFlight = [] → outputs = expected) := by
  intro openGguf o backend M mesh outputs
  have accepted : ∃ full, ModelWeights.fromGguf Candle.shapes (Gguf.zeros 3) = .ok full ∧
      ∀ answer ∈ (fullMachine Candle.shapes).answers full
        (oneAfterAnother.filterMap MeshEvent.input?), answer.isOk = true := by
    have hload : (match ModelWeights.fromGguf Candle.shapes (Gguf.zeros 3) with
      | .error _ => false
      | .ok full => ((fullMachine Candle.shapes).answers full
          (oneAfterAnother.filterMap MeshEvent.input?)).all (·.isOk)) = true := by
      decide +kernel
    split at hload
    · cases hload
    · exact ⟨_, by assumption, List.all_eq_true.1 hload⟩
  obtain ⟨full, hload, accepted⟩ := accepted
  have hvalid : ∀ a ∈ twoAnnouncements, PeerIds.ed25519.Valid a.deviceId := by decide +kernel
  have fresh : o.JustRebalanced Platform.reference :=
    announced_justRebalanced 4 "secret" [] (List.cons_ne_nil _ _) hvalid
  have hopen : openGguf (.path "model.gguf") = .ok (Gguf.zeros 3) := rfl
  have guarded : M.Guarded (Mesh.OneAtATime backend o.stageLayers []) mesh oneAfterAnother := by
    decide +kernel
  have shares : EveryNodeGetsLayer o.totalModelLayers.toNat o.registry.sortedByCapacity :=
    ⟨by decide +kernel, by decide +kernel⟩
  exact ⟨full, hload, answers_prefix_fullMachine Primitives.reference_lawful Candle.shapes_lawful
    hopen hload fresh (by decide +kernel) (by decide +kernel) shares accepted guarded⟩

end NeuralSwarm
