import NeuralSwarm.Basic.Blocks
import NeuralSwarm.Orchestrator

/-!
# What a rebalance does

Both splits hand out the blocks of one cut, `layerBlocks`, to the sorted nodes.  After a rebalance
the sorted list is the same one with these blocks as layers (`sortedByCapacity_rebalance`), every
other node is as before, and the pipeline stages are the parsed ids of the list.
-/

namespace NeuralSwarm

variable {F P S B : Type}

/-! ## Handing out a plan -/

/-- Assigns the layers of a plan in order. -/
def NodeRegistry.assignAll (registry : NodeRegistry F) (plan : List (String × List ℕ)) :
    NodeRegistry F :=
  plan.foldl (fun registry item => registry.assign item.1 item.2) registry

/-- The entry with the layers that a plan gives it. -/
def NodeEntry.follow (plan : List (String × List ℕ)) (n : NodeEntry F) : NodeEntry F :=
  match plan.lookup n.id with
  | some layers => n.withLayers layers
  | none => n

theorem NodeRegistry.assign_eq (registry : NodeRegistry F) (id : String) (layers : List ℕ) :
    registry.assign id layers = registry.modify id (·.withLayers layers) := by
  unfold NodeRegistry.assign NodeRegistry.assignLayers
  cases h : registry.get id with
  | some entry => rfl
  | none => exact (modify_of_get_eq_none h _).symm

theorem NodeRegistry.assignAll_eq {registry : NodeRegistry F} (own : registry.OwnIds)
    {plan : List (String × List ℕ)} (nodup : (plan.map (·.1)).Nodup) :
    registry.assignAll plan = ⟨registry.nodes.mapValues fun _ n => n.follow plan⟩ := by
  induction plan generalizing registry with
  | nil => exact congrArg NodeRegistry.mk (AList.mapValues_id _).symm
  | cons item plan ih =>
    obtain ⟨id, layers⟩ := item
    rw [List.map_cons, List.nodup_cons] at nodup
    obtain ⟨hid, nodup⟩ := nodup
    have hnone : plan.lookup id = none := by
      refine List.lookup_eq_none_iff.2 fun item hitem => ?_
      simp only [bne_iff_ne, ne_eq]
      intro heq
      exact hid (List.mem_map.2 ⟨item, hitem, heq.symm⟩)
    have hstep : registry.assignAll ((id, layers) :: plan) =
        (registry.modify id (·.withLayers layers)).assignAll plan := by
      rw [assignAll, List.foldl_cons, assign_eq]
      rfl
    have own' : (registry.modify id (·.withLayers layers)).OwnIds := own.modify fun _ => rfl
    rw [hstep, ih own' nodup, modify, AList.mapValues_mapValues]
    refine congrArg NodeRegistry.mk (AList.mapValues_congr fun key n hget => ?_)
    rw [← own key n hget]
    by_cases hkey : n.id = id
    · simp [NodeEntry.follow, NodeEntry.withLayers, hkey, hnone]
    · have hbeq : (n.id == id) = false := beq_eq_false_iff_ne.2 hkey
      simp only [NodeEntry.follow, List.lookup_cons, hkey, hbeq, if_false]

/-- Following a plan that has one block for each item of a list. -/
theorem map_follow_zip {xs : List (NodeEntry F)} {blocks : List (List ℕ)}
    (nodup : (xs.map (·.id)).Nodup) (hlen : blocks.length = xs.length) :
    xs.map (·.follow ((xs.map (·.id)).zip blocks)) =
      List.zipWith NodeEntry.withLayers xs blocks := by
  induction xs generalizing blocks with
  | nil => rfl
  | cons x xs ih =>
    rcases blocks with _ | ⟨block, blocks⟩
    · cases hlen
    · rw [List.map_cons, List.nodup_cons] at nodup
      obtain ⟨hx, nodup⟩ := nodup
      rw [List.map_cons, List.map_cons, List.zip_cons_cons, List.zipWith_cons_cons,
        ← ih nodup (Nat.succ.inj hlen)]
      congr 1
      · simp only [NodeEntry.follow, List.lookup_cons, beq_self_eq_true]
      · refine List.map_congr_left fun y hy => ?_
        have hbeq : (y.id == x.id) = false := by
          refine beq_eq_false_iff_ne.2 fun heq => hx ?_
          exact heq ▸ List.mem_map_of_mem hy
        simp only [NodeEntry.follow, List.lookup_cons, hbeq]

@[simp] theorem NodeEntry.withLayers_canAcceptTasks (n : NodeEntry F) (layers : List ℕ) :
    (n.withLayers layers).state.canAcceptTasks = n.state.canAcceptTasks := by
  unfold withLayers
  split_ifs with h
  · rw [h]; rfl
  · rfl

theorem NodeEntry.follow_id (plan : List (String × List ℕ)) (n : NodeEntry F) :
    (n.follow plan).id = n.id := by
  unfold follow; split <;> rfl

theorem NodeEntry.follow_capacity (plan : List (String × List ℕ)) (n : NodeEntry F) :
    (n.follow plan).capacity = n.capacity := by
  unfold follow; split <;> rfl

theorem NodeEntry.follow_canAcceptTasks (plan : List (String × List ℕ)) (n : NodeEntry F) :
    (n.follow plan).state.canAcceptTasks = n.state.canAcceptTasks := by
  unfold follow; split
  · exact n.withLayers_canAcceptTasks _
  · rfl

/-! ## The cut -/

variable [Scalar F]

/-- How many layers the node `n` gets when `current` are already taken. -/
def layerCount (totalLayers : ℕ) (sorted : List (NodeEntry F)) (last : Bool) (current : ℕ)
    (n : NodeEntry F) : ℕ :=
  let totalComposite := Scalar.sum (sorted.map (·.capacity.composite))
  if last then totalLayers - current
  else if totalComposite ≤ 0.0 then totalLayers / sorted.length
  else (Scalar.roundU32 (n.capacity.composite / totalComposite * Scalar.ofNat totalLayers)).toNat

/-- Where the layers of the node `n` end. -/
def layerStop (totalLayers : ℕ) (sorted : List (NodeEntry F)) (last : Bool) (current : ℕ)
    (n : NodeEntry F) : ℕ :=
  let count := layerCount totalLayers sorted last current n
  if Scalar.sum (sorted.map (·.capacity.composite)) ≤ 0.0 then current + count
  else min (u32Add current count) totalLayers

/-- The layers of each node of the sorted list. -/
def layerBlocks (totalLayers : ℕ) (sorted : List (NodeEntry F)) : List (List ℕ) :=
  cutBlocks (layerStop totalLayers sorted) 0 sorted

theorem length_layerBlocks (totalLayers : ℕ) (sorted : List (NodeEntry F)) :
    (layerBlocks totalLayers sorted).length = sorted.length := length_cutBlocks ..

theorem layerStop_last {totalLayers current : ℕ} (htotal : totalLayers < 2 ^ 32)
    (hcur : current ≤ totalLayers) (sorted : List (NodeEntry F)) (n : NodeEntry F) :
    layerStop totalLayers sorted true current n = totalLayers := by
  simp only [layerStop, layerCount, if_true]
  split_ifs
  · omega
  · rw [u32Add_of_lt (by omega)]
    omega

/-- Along the sorted list, the running total plus the next share stays below `2 ^ 32`. -/
def SharesFit (totalLayers : ℕ) (sorted : List (NodeEntry F)) : ℕ → List (NodeEntry F) → Prop
  | _, [] => True
  | current, n :: rest =>
    current + layerCount totalLayers sorted rest.isEmpty current n < 2 ^ 32 ∧
      SharesFit totalLayers sorted (layerStop totalLayers sorted rest.isEmpty current n) rest

instance decidableSharesFit (totalLayers : ℕ) (sorted : List (NodeEntry F)) :
    ∀ current rest, Decidable (SharesFit totalLayers sorted current rest)
  | _, [] => .isTrue trivial
  | current, n :: rest =>
    have := decidableSharesFit totalLayers sorted
      (layerStop totalLayers sorted rest.isEmpty current n) rest
    inferInstanceAs (Decidable (_ ∧ _))

variable {totalLayers : ℕ} {sorted : List (NodeEntry F)}

theorem forward_of_sharesFit (hpos : ¬ Scalar.sum (sorted.map (·.capacity.composite)) ≤ 0.0)
    {current : ℕ} {rest : List (NodeEntry F)} (hcur : current ≤ totalLayers)
    (hfit : SharesFit totalLayers sorted current rest) :
    Forward (layerStop totalLayers sorted) current rest := by
  induction rest generalizing current with
  | nil => trivial
  | cons n rest ih =>
    obtain ⟨hlt, hrest⟩ := hfit
    have hstop : layerStop totalLayers sorted rest.isEmpty current n =
        min (current + layerCount totalLayers sorted rest.isEmpty current n) totalLayers := by
      rw [layerStop, if_neg hpos, u32Add_of_lt hlt]
    exact ⟨by omega, ih (by omega) hrest⟩

/-- The blocks cover the model if no block is stepped over. -/
theorem layerBlocks_consecutive_of_forward (htotal : totalLayers < 2 ^ 32) (hne : sorted ≠ [])
    (forward : ¬ Scalar.sum (sorted.map (·.capacity.composite)) ≤ 0.0 →
      Forward (layerStop totalLayers sorted) 0 sorted) :
    Consecutive 0 (layerBlocks totalLayers sorted) totalLayers := by
  have lastStop : ∀ cur n, cur ≤ totalLayers →
      layerStop totalLayers sorted true cur n = totalLayers :=
    fun cur n hcur => layerStop_last htotal hcur sorted n
  by_cases hzero : Scalar.sum (sorted.map (·.capacity.composite)) ≤ 0.0
  · have step : ∀ cur n, layerStop totalLayers sorted false cur n =
        cur + totalLayers / sorted.length := by
      intro cur n
      simp only [layerStop, layerCount, if_pos hzero, Bool.false_eq_true, if_false]
    refine cutBlocks_consecutive_of_equal step lastStop ?_ hne
    rw [Nat.zero_add]
    exact Nat.div_mul_le_self ..
  · refine cutBlocks_consecutive lastStop (fun last cur n => ?_) (Nat.zero_le _) hne
      (forward hzero)
    rw [layerStop, if_neg hzero]
    exact min_le_right ..

theorem lt_of_mem_layerBlocks (htotal : totalLayers < 2 ^ 32) {block : List ℕ}
    (hblock : block ∈ layerBlocks totalLayers sorted) {l : ℕ} (hl : l ∈ block) :
    l < totalLayers := by
  by_cases hzero : Scalar.sum (sorted.map (·.capacity.composite)) ≤ 0.0
  · have hne : sorted ≠ [] := by rintro rfl; cases hblock
    have h := layerBlocks_consecutive_of_forward htotal hne fun hpos => absurd hzero hpos
    exact ((h.mem_flatten_iff l).1 (List.mem_flatten_of_mem hblock hl)).2
  · obtain ⟨last, start, n, rfl⟩ := exists_of_mem_cutBlocks hblock
    rw [layerStop, if_neg hzero, List.mem_range'_1] at hl
    omega

theorem layerBlocks_consecutive (htotal : totalLayers < 2 ^ 32) (hne : sorted ≠ [])
    (hfit : SharesFit totalLayers sorted 0 sorted) :
    Consecutive 0 (layerBlocks totalLayers sorted) totalLayers :=
  layerBlocks_consecutive_of_forward htotal hne fun hpos =>
    forward_of_sharesFit hpos (Nat.zero_le _) hfit

theorem layerBlocks_consecutive_of_nonempty (htotal : totalLayers < 2 ^ 32) (hne : sorted ≠ [])
    (nonempty : ∀ block ∈ layerBlocks totalLayers sorted, block ≠ []) :
    Consecutive 0 (layerBlocks totalLayers sorted) totalLayers :=
  layerBlocks_consecutive_of_forward htotal hne fun _ => forward_of_nonempty nonempty

/-- Every layer of the model is in the block of some node. -/
theorem exists_zip_layerBlocks (htotal : totalLayers < 2 ^ 32) (hne : sorted ≠ []) {l : ℕ}
    (hl : l < totalLayers) : ∃ pair ∈ sorted.zip (layerBlocks totalLayers sorted), l ∈ pair.2 :=
  exists_zip_cutBlocks (fun _ n hcur => layerStop_last htotal hcur sorted n) hne (Nat.zero_le l) hl

/-- The share of a node that is not the last one. -/
def share (totalLayers : ℕ) (sorted : List (NodeEntry F)) (n : NodeEntry F) : ℕ :=
  layerCount totalLayers sorted false 0 n

/-- Every share but the last is at least one layer, and together they leave one for the last
node. -/
def EveryNodeGetsLayer (totalLayers : ℕ) (sorted : List (NodeEntry F)) : Prop :=
  (∀ n ∈ sorted.dropLast, 0 < share totalLayers sorted n) ∧
    (sorted.dropLast.map (share totalLayers sorted)).sum < totalLayers

theorem layerBlocks_nonempty_iff (htotal : totalLayers < 2 ^ 32) (hne : sorted ≠ []) :
    (∀ block ∈ layerBlocks totalLayers sorted, block ≠ []) ↔
      EveryNodeGetsLayer totalLayers sorted := by
  have hlast : ∀ cur n, cur < layerStop totalLayers sorted true cur n ↔ cur < totalLayers := by
    intro cur n
    simp only [layerStop, layerCount, if_true, u32Add]
    split_ifs <;> omega
  have hstep : ∀ cur n k, cur < layerStop totalLayers sorted false cur n ∧
      layerStop totalLayers sorted false cur n + k < totalLayers ↔
        0 < share totalLayers sorted n ∧ cur + share totalLayers sorted n + k < totalLayers := by
    intro cur n k
    have hcount : layerCount totalLayers sorted false cur n = share totalLayers sorted n := rfl
    simp only [layerStop, hcount, u32Add]
    split_ifs with hzero
    · omega
    · have hlt : share totalLayers sorted n < 2 ^ 32 := by
        simp only [share, layerCount, Bool.false_eq_true, if_false, if_neg hzero]
        exact UInt32.toNat_lt _
      omega
  rw [layerBlocks, cutBlocks_nonempty_iff hlast hstep hne, EveryNodeGetsLayer, Nat.zero_add]

/-- The plan of a rebalance. -/
def layerPlan (totalLayers : ℕ) (sorted : List (NodeEntry F)) : List (String × List ℕ) :=
  (sorted.map (·.id)).zip (layerBlocks totalLayers sorted)

/-! ## The two loops -/

theorem assignEqually_eq (hzero : Scalar.sum (sorted.map (·.capacity.composite)) ≤ 0.0)
    (rest : List (NodeEntry F)) (current : ℕ) (registry : NodeRegistry F) :
    assignEqually totalLayers (totalLayers / sorted.length) current (rest.map (·.id)) registry =
      registry.assignAll
        ((rest.map (·.id)).zip (cutBlocks (layerStop totalLayers sorted) current rest)) := by
  induction rest generalizing current registry with
  | nil => rfl
  | cons n rest ih =>
    have hcount : (if (rest.map (·.id)).isEmpty then totalLayers - current
        else totalLayers / sorted.length) =
          layerCount totalLayers sorted rest.isEmpty current n := by
      simp only [layerCount, if_pos hzero, List.isEmpty_map]
    have hstop : layerStop totalLayers sorted rest.isEmpty current n =
        current + layerCount totalLayers sorted rest.isEmpty current n := by
      rw [layerStop, if_pos hzero]
    rw [List.map_cons, assignEqually, hcount, cutBlocks, List.zip_cons_cons, hstop,
      Nat.add_sub_cancel_left, ih]
    rfl

theorem assignProportionally_eq (hpos : ¬ Scalar.sum (sorted.map (·.capacity.composite)) ≤ 0.0)
    (rest : List (NodeEntry F)) (current : ℕ) (registry : NodeRegistry F) :
    assignProportionally totalLayers (Scalar.sum (sorted.map (·.capacity.composite))) current
        (rest.map fun n => (n.id, n.capacity.composite)) registry =
      registry.assignAll
        ((rest.map (·.id)).zip (cutBlocks (layerStop totalLayers sorted) current rest)) := by
  induction rest generalizing current registry with
  | nil => rfl
  | cons n rest ih =>
    have hstop : layerStop totalLayers sorted rest.isEmpty current n =
        min (u32Add current (layerCount totalLayers sorted rest.isEmpty current n))
          totalLayers := by
      rw [layerStop, if_neg hpos]
    simp only [List.map_cons, assignProportionally, cutBlocks, List.zip_cons_cons, ih, hstop,
      layerCount, if_neg hpos, List.isEmpty_map]
    rfl

theorem rebalanceLayers_eq (env : Platform P S B) (registry : NodeRegistry F)
    (total : UInt32) (pipeline : InferencePipeline P) :
    rebalanceLayers env registry total pipeline =
      (registry.assignAll (layerPlan total.toNat registry.sortedByCapacity),
        pipeline.updateStages
          (env.peerIds.parseAll (registry.sortedByCapacity.map (·.id)))) := by
  unfold rebalanceLayers
  cases hsorted : registry.sortedByCapacity with
  | nil => rfl
  | cons n rest =>
    simp only [List.isEmpty_cons, Bool.false_eq_true, if_false]
    split_ifs with hzero
    · rw [assignEqually_eq hzero]
      rfl
    · rw [assignProportionally_eq hzero, List.map_map]
      rfl

/-! ## After a rebalance -/

namespace Orchestrator

variable (env : Platform P S B) (o : Orchestrator F P B) {registry : NodeRegistry F}

@[simp] theorem rebalance_pipelineStages :
    (o.rebalance env registry).pipeline.pipelineStages =
      env.peerIds.parseAll (registry.sortedByCapacity.map (·.id)) := by
  rw [rebalance, rebalanceLayers_eq]
  rfl

@[simp] theorem rebalance_activeSequences :
    (o.rebalance env registry).pipeline.activeSequences = o.pipeline.activeSequences := by
  rw [rebalance, rebalanceLayers_eq]
  rfl

theorem rebalance_registry (own : registry.OwnIds) :
    (o.rebalance env registry).registry = ⟨registry.nodes.mapValues fun _ n =>
      n.follow (layerPlan o.totalModelLayers.toNat registry.sortedByCapacity)⟩ := by
  rw [rebalance, rebalanceLayers_eq]
  refine NodeRegistry.assignAll_eq own ?_
  rw [layerPlan, List.map_fst_zip]
  · exact own.sorted_nodup
  · rw [length_layerBlocks, List.length_map]

theorem rebalance_get (own : registry.OwnIds) (id : String) :
    (o.rebalance env registry).registry.get id =
      (registry.get id).map
        (·.follow (layerPlan o.totalModelLayers.toNat registry.sortedByCapacity)) := by
  rw [rebalance_registry env o own]
  exact AList.lookup_mapValues ..

theorem rebalance_ownIds (own : registry.OwnIds) : (o.rebalance env registry).registry.OwnIds := by
  intro id entry h
  rw [rebalance_get env o own, Option.map_eq_some_iff] at h
  obtain ⟨n, hn, rfl⟩ := h
  exact (n.follow_id _).trans (own id n hn)

theorem sorted_rebalance_follow (own : registry.OwnIds) :
    (o.rebalance env registry).registry.sortedByCapacity =
      registry.sortedByCapacity.map
        (·.follow (layerPlan o.totalModelLayers.toNat registry.sortedByCapacity)) := by
  rw [rebalance_registry env o own]
  exact NodeRegistry.sortedByCapacity_mapValues (fun _ _ _ => rfl) (NodeEntry.follow_id _)
    (NodeEntry.follow_capacity _) fun n _ => n.follow_canAcceptTasks _

/-- The sorted list keeps its order; each node has its block. -/
theorem sortedByCapacity_rebalance (own : registry.OwnIds) :
    (o.rebalance env registry).registry.sortedByCapacity =
      List.zipWith NodeEntry.withLayers registry.sortedByCapacity
        (layerBlocks o.totalModelLayers.toNat registry.sortedByCapacity) := by
  rw [sorted_rebalance_follow env o own]
  exact map_follow_zip own.sorted_nodup (length_layerBlocks ..)

theorem sorted_rebalance_ids (own : registry.OwnIds) :
    (o.rebalance env registry).registry.sortedByCapacity.map (·.id) =
      registry.sortedByCapacity.map (·.id) := by
  rw [sorted_rebalance_follow env o own, List.map_map]
  exact List.map_congr_left fun n _ => n.follow_id _

theorem sorted_rebalance_layers (own : registry.OwnIds) :
    (o.rebalance env registry).registry.sortedByCapacity.map (·.assignedLayers) =
      layerBlocks o.totalModelLayers.toNat registry.sortedByCapacity := by
  rw [sortedByCapacity_rebalance env o own, List.map_zipWith, ← List.map_uncurry_zip_eq_zipWith]
  exact List.map_snd_zip (length_layerBlocks ..).le

/-- No node is given a layer outside the model. -/
theorem lt_of_mem_sorted_rebalance (own : registry.OwnIds) {n : NodeEntry F}
    (hn : n ∈ (o.rebalance env registry).registry.sortedByCapacity) {l : ℕ}
    (hl : l ∈ n.assignedLayers) : l < o.totalModelLayers.toNat := by
  have hmem : n.assignedLayers ∈
      (o.rebalance env registry).registry.sortedByCapacity.map (·.assignedLayers) :=
    List.mem_map_of_mem hn
  rw [sorted_rebalance_layers env o own] at hmem
  exact lt_of_mem_layerBlocks o.totalModelLayers.toNat_lt hmem hl

end Orchestrator

end NeuralSwarm
