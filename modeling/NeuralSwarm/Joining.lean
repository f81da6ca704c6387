import NeuralSwarm.Basic.Permutation
import NeuralSwarm.Entries

/-!
# The order of joining

Nodes with distinct ids may announce themselves in any order, and the hash map of the registry may
be iterated in any order: the layers, states and capacities of all nodes and the pipeline stages
come out the same.  The comparator is a total order on entries whose composites are numbers, and
every rebalance overwrites what earlier ones have assigned.
-/

namespace NeuralSwarm

variable {F P S B : Type}

/-! ## Orders of iteration -/

/-- The order in which the hash map yields its entries at some moment. -/
structure IterationOrder (F : Type) where
  reorder : NodeRegistry F → NodeRegistry F
  perm : ∀ registry, (reorder registry).nodes.entries.Perm registry.nodes.entries

def IterationOrder.asIs : IterationOrder F := ⟨id, fun _ => .refl _⟩

def IterationOrder.reversed : IterationOrder F where
  reorder registry :=
    ⟨registry.nodes.entries.reverse,
      (List.perm_nodupKeys registry.nodes.entries.reverse_perm).2 registry.nodes.nodupKeys⟩
  perm registry := registry.nodes.entries.reverse_perm

theorem IterationOrder.get_reorder (order : IterationOrder F) (registry : NodeRegistry F)
    (key : String) : (order.reorder registry).get key = registry.get key :=
  AList.perm_lookup (order.perm registry)

namespace Orchestrator

variable [Scalar F] (env : Platform P S B)

/-- `handle_announce`, with the order in which its rebalance iterates the registry. -/
def handleAnnounceIn (order : IterationOrder F) (o : Orchestrator F P B) (deviceId : String)
    (profile : NodeProfile) (initialStatus : NodeStatus F) (now : Instant) :
    Orchestrator F P B × Except String (SwarmMessage F P B) :=
  let registry := o.registry.register deviceId profile now
  match registry.markReady deviceId initialStatus with
  | .error e => ({ o with registry }, .error e)
  | .ok registry =>
    let o := o.rebalance env (order.reorder registry)
    match o.registry.get deviceId with
    | none => (o, .error "Node disappeared after registration")
    | some entry =>
      (o, .ok (.joinResponse entry.assignedLayers o.totalModelLayers.toNat env.crypto.empty))

/-- The handler itself iterates the registry as it is. -/
theorem handleAnnounceIn_asIs (o : Orchestrator F P B) :
    o.handleAnnounceIn env .asIs = o.handleAnnounce env := rfl

/-- One call, with the order of iteration that it meets. -/
def performIn (order : IterationOrder F) (o : Orchestrator F P B) :
    Op F P B → Orchestrator F P B × Reply F P B
  | .announce deviceId profile initialStatus now =>
    (o.handleAnnounceIn env order deviceId profile initialStatus now).map id .announced
  | op => { o with registry := order.reorder o.registry }.perform env op

/-- The orchestrator as a machine whose registry is iterated in any order at each call. -/
def shuffled : Mealy (Orchestrator F P B) (IterationOrder F × Op F P B) (Reply F P B) :=
  ⟨fun o input => o.performIn env input.1 input.2⟩

end Orchestrator

/-- An announce: what the node sends, the order of iteration and the clock it meets. -/
structure Join (F : Type) where
  deviceId : String
  profile : NodeProfile
  initialStatus : NodeStatus F
  order : IterationOrder F
  now : Instant

/-- What the node sends. -/
def Join.announce (j : Join F) : String × NodeProfile × NodeStatus F :=
  (j.deviceId, j.profile, j.initialStatus)

/-- The orchestrator after some announces. -/
def Orchestrator.joinAll [Scalar F] (env : Platform P S B) (o : Orchestrator F P B)
    (joins : List (Join F)) : Orchestrator F P B :=
  joins.foldl (fun o j =>
    (o.handleAnnounceIn env j.order j.deviceId j.profile j.initialStatus j.now).1) o

/-- What a rebalance decides about a node, with its capacity. -/
def NodeEntry.assignment (n : NodeEntry F) : List ℕ × NodeState × EffectiveCapacity F :=
  (n.assignedLayers, n.state, n.capacity)

/-! ## The sorted list does not depend on the order -/

/-- Every entry is stored under its own id and its composite is a number. -/
def NodeRegistry.Comparable (registry : NodeRegistry Float32) : Prop :=
  ∀ key n, registry.get key = some n →
    n.id = key ∧ Binary32.IsNumber (Binary32.unpacked n.capacity.composite)

namespace NodeRegistry

variable {registry registry' : NodeRegistry Float32}

/-- The position of an entry in the sorted list. -/
def sortKey (n : NodeEntry Float32) : (ℤ ×ₗ ℤ ×ₗ ℤ)ᵒᵈ ×ₗ String :=
  toLex (.toDual (Binary32.rank (Binary32.unpacked n.capacity.composite)), n.id)

/-- On numbers, the comparator is the order of the keys. -/
theorem compareCapacity_ne_gt_iff {a b : NodeEntry Float32}
    (ha : Binary32.IsNumber (Binary32.unpacked a.capacity.composite))
    (hb : Binary32.IsNumber (Binary32.unpacked b.capacity.composite)) :
    compareCapacity a b ≠ .gt ↔ sortKey a ≤ sortKey b :=
  compareCapacity_ne_gt_iff_of_rank (fun c => Binary32.rank (Binary32.unpacked c))
    (Binary32.partialCmp_eq hb ha)

theorem Comparable.ownIds (h : registry.Comparable) : registry.OwnIds :=
  fun key n hn => (h key n hn).1

theorem Comparable.of_mem_activeNodes (h : registry.Comparable) {n : NodeEntry Float32}
    (hn : n ∈ registry.activeNodes) : registry.get n.id = some n ∧
      Binary32.IsNumber (Binary32.unpacked n.capacity.composite) := by
  obtain ⟨⟨key, hkey⟩, -⟩ := mem_activeNodes_iff.1 hn
  obtain ⟨rfl, hnumber⟩ := h key n hkey
  exact ⟨hkey, hnumber⟩

/-- The entries are sorted to the same list from whatever order they are iterated in. -/
theorem Comparable.sortedByCapacity_eq (h : registry.Comparable)
    (hperm : registry.nodes.entries.Perm registry'.nodes.entries) :
    registry.sortedByCapacity = registry'.sortedByCapacity := by
  have hactive : registry.activeNodes.Perm registry'.activeNodes := by
    unfold activeNodes values AList.values
    exact (hperm.map _).filter _
  refine List.insertionSort_eq_of_perm (f := sortKey) (fun a ha b hb => ?_)
    (fun a ha b hb hkey => ?_) hactive
  · exact compareCapacity_ne_gt_iff (h.of_mem_activeNodes ha).2 (h.of_mem_activeNodes hb).2
  · have hid : a.id = b.id := congrArg (fun key => (ofLex key).2) hkey
    have hget := (h.of_mem_activeNodes ha).1
    rw [hid] at hget
    exact Option.some.inj (hget.symm.trans (h.of_mem_activeNodes hb).1)

end NodeRegistry

/-! ## What a rebalance sees of an entry -/

/-- The entry as far as the assignments of later rebalances depend on it: of a node that can accept
tasks they overwrite the layers, and `ready` becomes `active`. -/
def NodeEntry.joinView (n : NodeEntry F) : NodeEntry F :=
  if n.state.canAcceptTasks then
    { n with state := .active, assignedLayers := [], lastHeartbeat := 0 }
  else { n with lastHeartbeat := 0 }

namespace NodeEntry

theorem joinView_id (n : NodeEntry F) : n.joinView.id = n.id := by
  unfold joinView
  split_ifs <;> rfl

theorem joinView_capacity (n : NodeEntry F) : n.joinView.capacity = n.capacity := by
  unfold joinView
  split_ifs <;> rfl

theorem joinView_canAcceptTasks (n : NodeEntry F) :
    n.joinView.state.canAcceptTasks = n.state.canAcceptTasks := by
  unfold joinView
  split_ifs with h
  · rw [h]
    rfl
  · rfl

theorem joinView_withLayers {n : NodeEntry F} (h : n.state.canAcceptTasks = true)
    (layers : List ℕ) : (n.withLayers layers).joinView = n.joinView := by
  have hlayers : (n.withLayers layers).state.canAcceptTasks = true := by
    rw [withLayers_canAcceptTasks, h]
  unfold joinView
  rw [if_pos hlayers, if_pos h]
  rfl

end NodeEntry

section Rebalance

variable [Scalar F]

theorem layerPlan_map {write : NodeEntry F → NodeEntry F} (hid : ∀ n, (write n).id = n.id)
    (hcapacity : ∀ n, (write n).capacity = n.capacity) (total : ℕ) (sorted : List (NodeEntry F)) :
    layerPlan total (sorted.map write) = layerPlan total sorted := by
  have hstop : (fun last current n =>
      layerStop total (sorted.map write) last current (write n)) = layerStop total sorted := by
    funext last current n
    simp only [layerStop, layerCount, List.map_map, Function.comp_def, hcapacity,
      List.length_map]
  rw [layerPlan, layerBlocks, cutBlocks_map, hstop, List.map_map]
  simp only [Function.comp_def, hid]
  rfl

namespace NodeRegistry

variable {registry : NodeRegistry F}

/-- What later rebalances see of the entries. -/
def view (registry : NodeRegistry F) (id : String) : Option (NodeEntry F) :=
  (registry.get id).map (·.joinView)

end NodeRegistry

namespace Orchestrator

variable {env : Platform P S B} {o : Orchestrator F P B} {registry : NodeRegistry F}

/-- A rebalance does not change what later ones see. -/
theorem view_rebalance (own : registry.OwnIds) (id : String) :
    (o.rebalance env registry).registry.view id = registry.view id := by
  rw [NodeRegistry.view, rebalance_get env o own, NodeRegistry.view, Option.map_map]
  cases hget : registry.get id with
  | none => rfl
  | some n =>
    refine congrArg some ?_
    obtain rfl := own id n hget
    have hsome := own.isSome_lookup_layerPlan o.totalModelLayers.toNat hget
    simp only [Function.comp_apply, NodeEntry.follow]
    split
    · rename_i layers hlookup
      rw [hlookup] at hsome
      exact NodeEntry.joinView_withLayers hsome.symm layers
    · rfl

end Orchestrator

end Rebalance

/-! ## Equal views give equal assignments -/

namespace NodeRegistry

variable {registry registry' : NodeRegistry Float32}

theorem sorted_map_joinView (registry : NodeRegistry Float32) :
    registry.sortedByCapacity.map (·.joinView) =
      (⟨registry.nodes.mapValues fun _ n => n.joinView⟩ : NodeRegistry Float32).sortedByCapacity :=
  (sortedByCapacity_mapValues (fun _ n _ => show n.joinView = n.joinView from rfl)
    NodeEntry.joinView_id NodeEntry.joinView_capacity fun n _ => n.joinView_canAcceptTasks).symm

theorem Comparable.sorted_view_eq (h : registry.Comparable)
    (hview : ∀ id, registry.view id = registry'.view id) :
    registry.sortedByCapacity.map (·.joinView) = registry'.sortedByCapacity.map (·.joinView) := by
  rw [sorted_map_joinView, sorted_map_joinView]
  have hget : ∀ registry : NodeRegistry Float32, ∀ id,
      (registry.nodes.mapValues fun _ n => n.joinView).lookup id = registry.view id :=
    fun registry id => AList.lookup_mapValues ..
  refine Comparable.sortedByCapacity_eq (fun id n hn => ?_) ?_
  · have hn := (hget registry id).symm.trans hn
    obtain ⟨m, hm, rfl⟩ := Option.map_eq_some_iff.1 hn
    rw [NodeEntry.joinView_id, NodeEntry.joinView_capacity]
    exact h id m hm
  · refine List.lookup_ext (AList.nodupKeys _) (AList.nodupKeys _) fun id n => ?_
    exact iff_of_eq (congrArg (n ∈ ·) ((hget registry id).trans
      ((hview id).trans (hget registry' id).symm)))

end NodeRegistry

theorem NodeEntry.assignment_withLayers {n m : NodeEntry F} (h : n.joinView = m.joinView)
    (hn : n.state.canAcceptTasks = true) (hm : m.state.canAcceptTasks = true)
    (layers : List ℕ) : (n.withLayers layers).assignment = (m.withLayers layers).assignment := by
  have hcapacity : n.capacity = m.capacity := by
    rw [← n.joinView_capacity, h, m.joinView_capacity]
  simp only [assignment, withLayers_state_of_canAcceptTasks hn,
    withLayers_state_of_canAcceptTasks hm]
  simp only [withLayers, hcapacity]

theorem NodeEntry.assignment_eq_of_not_canAcceptTasks {n m : NodeEntry F}
    (h : n.joinView = m.joinView) (hn : n.state.canAcceptTasks = false)
    (hm : m.state.canAcceptTasks = false) : n.assignment = m.assignment := by
  simp only [joinView, hn, hm, Bool.false_eq_true, if_false] at h
  have hassignment := congrArg assignment h
  exact hassignment

namespace Orchestrator

variable {env : Platform P S B} {o o' : Orchestrator Float32 P B}
  {registry registry' : NodeRegistry Float32}

/-- A rebalance decides by what it sees of the entries. -/
theorem assignment_rebalance_congr (htotal : o.totalModelLayers = o'.totalModelLayers)
    (h : registry.Comparable) (h' : registry'.Comparable)
    (hview : ∀ id, registry.view id = registry'.view id) (id : String) :
    ((o.rebalance env registry).registry.get id).map (·.assignment) =
      ((o'.rebalance env registry').registry.get id).map (·.assignment) := by
  have hplan : layerPlan o.totalModelLayers.toNat registry.sortedByCapacity =
      layerPlan o'.totalModelLayers.toNat registry'.sortedByCapacity := by
    rw [← layerPlan_map NodeEntry.joinView_id NodeEntry.joinView_capacity, h.sorted_view_eq hview,
      layerPlan_map NodeEntry.joinView_id NodeEntry.joinView_capacity, htotal]
  rw [rebalance_get env o h.ownIds, rebalance_get env o' h'.ownIds, hplan]
  have hid := hview id
  rw [NodeRegistry.view, NodeRegistry.view] at hid
  cases hn : registry.get id with
  | none =>
    rw [hn, Option.map_none, eq_comm, Option.map_eq_none_iff] at hid
    rw [hid]
  | some n =>
    rw [hn, Option.map_some, eq_comm, Option.map_eq_some_iff] at hid
    obtain ⟨m, hm, heq⟩ := hid
    rw [hm]
    refine congrArg some ?_
    have haccept := h.ownIds.isSome_lookup_layerPlan o.totalModelLayers.toNat hn
    have haccept' := h'.ownIds.isSome_lookup_layerPlan o'.totalModelLayers.toNat hm
    rw [hplan] at haccept
    simp only [NodeEntry.follow, h.ownIds id n hn, h'.ownIds id m hm]
    cases hlookup : (layerPlan o'.totalModelLayers.toNat registry'.sortedByCapacity).lookup id with
    | none =>
      rw [hlookup] at haccept haccept'
      exact NodeEntry.assignment_eq_of_not_canAcceptTasks heq.symm haccept.symm haccept'.symm
    | some layers =>
      rw [hlookup] at haccept haccept'
      exact NodeEntry.assignment_withLayers heq.symm haccept.symm haccept'.symm layers

theorem pipelineStages_rebalance_congr (h : registry.Comparable)
    (hview : ∀ id, registry.view id = registry'.view id) :
    (o.rebalance env registry).pipeline.pipelineStages =
      (o'.rebalance env registry').pipeline.pipelineStages := by
  have hids := congrArg (List.map (·.id)) (h.sorted_view_eq hview)
  simp only [List.map_map, Function.comp_def, NodeEntry.joinView_id] at hids
  rw [rebalance_pipelineStages, rebalance_pipelineStages, hids]

end Orchestrator

/-! ## Runs with any order of iteration -/

theorem NodeRegistry.Comparable.reorder {registry : NodeRegistry Float32}
    (h : registry.Comparable) (order : IterationOrder Float32) :
    (order.reorder registry).Comparable := by
  intro key n hn
  rw [order.get_reorder] at hn
  exact h key n hn

theorem Op.comparable_written {o : Orchestrator Float32 P B} (h : o.registry.Comparable)
    (op : Op Float32 P B) : (op.written o).Comparable := by
  intro key n hn
  rcases get_written hn with ⟨old, hold, rfl⟩ | ⟨profile, initialStatus, now, -, rfl⟩
  · refine ⟨(op.rewrite_id key old).trans (h key old hold).1, ?_⟩
    cases op with
    | statusUpdate deviceId status now =>
      simp only [rewrite]
      split_ifs
      · exact isNumber_composite ..
      · exact (h key old hold).2
    | heartbeat deviceId now =>
      simp only [rewrite]
      split_ifs <;> exact (h key old hold).2
    | _ => exact (h key old hold).2
  · exact ⟨rfl, isNumber_composite ..⟩

namespace Orchestrator

variable {env : Platform P S B} {o : Orchestrator Float32 P B}

theorem comparable_rebalance {registry : NodeRegistry Float32} (h : registry.Comparable) :
    (o.rebalance env registry).registry.Comparable := by
  intro key n hn
  rw [rebalance_get env o h.ownIds, Option.map_eq_some_iff] at hn
  obtain ⟨m, hm, rfl⟩ := hn
  rw [NodeEntry.follow_id, NodeEntry.follow_capacity]
  exact h key m hm

theorem handleAnnounceIn_eq (order : IterationOrder Float32) (o : Orchestrator Float32 P B)
    (deviceId : String) (profile : NodeProfile) (initialStatus : NodeStatus Float32)
    (now : Instant) : (o.handleAnnounceIn env order deviceId profile initialStatus now).1 =
      o.rebalance env
        (order.reorder ((Op.announce deviceId profile initialStatus now).written o)) := by
  obtain ⟨registry, hready, -⟩ :=
    o.registry.markReady_register deviceId profile initialStatus now
  simp only [handleAnnounceIn, Op.written, hready, Except.toOption, Option.getD_some]
  split <;> rfl

theorem comparable_perform (h : o.registry.Comparable) (op : Op Float32 P B) :
    (o.perform env op).1.registry.Comparable := by
  have hwritten := Op.comparable_written h op
  rw [perform_registry]
  split_ifs
  · exact comparable_rebalance hwritten
  · exact hwritten

theorem comparable_performIn (order : IterationOrder Float32) (h : o.registry.Comparable)
    (op : Op Float32 P B) : (o.performIn env order op).1.registry.Comparable := by
  have hreorder : (order.reorder o.registry).Comparable := h.reorder order
  cases op with
  | announce deviceId profile initialStatus now =>
    show (o.handleAnnounceIn env order deviceId profile initialStatus now).1.registry.Comparable
    rw [handleAnnounceIn_eq]
    exact comparable_rebalance ((Op.comparable_written h _).reorder order)
  | statusUpdate | drain | heartbeat | prune | startSequence | taskResult =>
    exact comparable_perform hreorder _

end Orchestrator

/-- What a rebalance sees of a node that has announced itself. -/
def announcedView (a : String × NodeProfile × NodeStatus Float32) :
    String × Option (NodeEntry Float32) :=
  (a.1, some (NodeRegistry.readyEntry a.1 a.2.1 a.2.2 0).joinView)

/-- What a rebalance sees after some announces. -/
def joinedView (joins : List (Join Float32)) (view : String → Option (NodeEntry Float32)) :
    String → Option (NodeEntry Float32) :=
  (joins.map fun j => announcedView j.announce).foldl
    (fun view item => Function.update view item.1 item.2) view

namespace Orchestrator

variable {env : Platform P S B} {o : Orchestrator Float32 P B}

theorem view_written_announce (o : Orchestrator Float32 P B) (j : Join Float32) :
    (j.order.reorder ((Op.announce j.deviceId j.profile j.initialStatus j.now).written o)).view =
      joinedView [j] o.registry.view := by
  funext id
  obtain ⟨registry, hready, hget⟩ :=
    o.registry.markReady_register j.deviceId j.profile j.initialStatus j.now
  simp only [NodeRegistry.view, IterationOrder.get_reorder, Op.written, hready, Except.toOption,
    Option.getD_some, hget, joinedView, List.map_cons, List.map_nil, List.foldl_cons,
    List.foldl_nil, announcedView, Join.announce, Function.update_apply]
  split_ifs <;> rfl

/-- Some announces amount to one rebalance, of entries that look as if all nodes had announced
themselves at once. -/
theorem exists_rebalance_joinAll (env : Platform P S B) {joins : List (Join Float32)}
    (hne : joins ≠ []) (h : o.registry.Comparable) :
    ∃ (p : Orchestrator Float32 P B) (registry : NodeRegistry Float32),
      o.joinAll env joins = p.rebalance env registry ∧
        p.totalModelLayers = o.totalModelLayers ∧ registry.Comparable ∧
          registry.view = joinedView joins o.registry.view := by
  induction joins generalizing o with
  | nil => exact absurd rfl hne
  | cons j rest ih =>
    have hview := view_written_announce o j
    have hcomparable := (Op.comparable_written h
      (.announce j.deviceId j.profile j.initialStatus j.now)).reorder j.order
    have hstep : o.joinAll env (j :: rest) =
        (o.rebalance env (j.order.reorder ((Op.announce j.deviceId j.profile j.initialStatus
          j.now).written o))).joinAll env rest := by
      rw [joinAll, List.foldl_cons, handleAnnounceIn_eq]
      rfl
    rcases rest with _ | ⟨j', rest⟩
    · exact ⟨o, _, hstep, rfl, hcomparable, hview⟩
    · obtain ⟨p, registry, heq, htotal, hregistry, hlast⟩ :=
        ih (List.cons_ne_nil j' rest) (comparable_rebalance hcomparable)
      refine ⟨p, registry, hstep.trans heq, htotal, hregistry, ?_⟩
      rw [hlast, funext (view_rebalance hcomparable.ownIds), hview]
      rfl

end Orchestrator

theorem joinedView_of_perm {xs ys : List (Join Float32)} (distinct : (xs.map (·.deviceId)).Nodup)
    (hperm : (xs.map Join.announce).Perm (ys.map Join.announce)) :
    joinedView xs = joinedView ys := by
  funext view
  have hviews : (xs.map fun j => announcedView j.announce).Perm
      (ys.map fun j => announcedView j.announce) := by
    have := hperm.map announcedView
    rwa [List.map_map, List.map_map] at this
  refine List.foldl_update_of_perm hviews ?_ view
  rw [List.map_map]
  exact distinct

/-- From every reachable state, nodes with distinct ids that announce themselves in another order,
at other times and with other orders of iteration, end up with the same layers, states, capacities
and pipeline stages. -/
theorem joinAll_of_perm (env : Platform P S B) (total : UInt32) (sharedSecret : String)
    (clusterKey : B) (history : List (IterationOrder Float32 × Op Float32 P B))
    {xs ys : List (Join Float32)} (distinct : (xs.map (·.deviceId)).Nodup)
    (hperm : (xs.map Join.announce).Perm (ys.map Join.announce)) :
    let o := (Orchestrator.shuffled env).run (.new total sharedSecret clusterKey) history
    (∀ id, ((o.joinAll env xs).registry.get id).map (·.assignment) =
        ((o.joinAll env ys).registry.get id).map (·.assignment)) ∧
      (o.joinAll env xs).pipeline.pipelineStages = (o.joinAll env ys).pipeline.pipelineStages := by
  intro o
  have preserved : ∀ (o : Orchestrator Float32 P B)
      (input : IterationOrder Float32 × Op Float32 P B), o.registry.Comparable →
        ((Orchestrator.shuffled env).step o input).1.registry.Comparable :=
    fun _ input h => Orchestrator.comparable_performIn input.1 h input.2
  have initial : (Orchestrator.new total sharedSecret clusterKey :
      Orchestrator Float32 P B).registry.Comparable := by
    intro key n hn
    cases hn
  have h : o.registry.Comparable :=
    Mealy.Reachable.invariant (Orchestrator.shuffled env) preserved initial ⟨history, rfl⟩
  rcases xs with - | ⟨x, xs⟩
  · have hnil : ys = [] := List.map_eq_nil_iff.1 hperm.nil_eq.symm
    rw [hnil]
    exact ⟨fun _ => rfl, rfl⟩
  · have hne : ys ≠ [] := by
      rintro rfl
      cases hperm.eq_nil
    obtain ⟨p, registry, heq, htotal, hregistry, hview⟩ :=
      Orchestrator.exists_rebalance_joinAll env (List.cons_ne_nil x xs) h
    obtain ⟨p', registry', heq', htotal', hregistry', hview'⟩ :=
      Orchestrator.exists_rebalance_joinAll env hne h
    have hsame : ∀ id, registry.view id = registry'.view id := by
      intro id
      rw [hview, hview', joinedView_of_perm distinct hperm]
    rw [heq, heq']
    exact ⟨Orchestrator.assignment_rebalance_congr (htotal.trans htotal'.symm) hregistry hregistry'
      hsame, Orchestrator.pipelineStages_rebalance_congr hregistry hsame⟩

def Announcement.join (a : Announcement F) (order : IterationOrder F) (now : Instant) : Join F :=
  { deviceId := a.deviceId
    profile := a.profile
    initialStatus := a.initialStatus
    order
    now }

def joinsAB : List (Join Float32) := [announcementA.join .asIs 1, announcementB.join .reversed 2]

def joinsBA : List (Join Float32) := [announcementB.join .asIs 3, announcementA.join .asIs 4]

theorem joinAll_of_perm_two :
    let o := (Orchestrator.shuffled Platform.reference).run (.new 32 "secret" [])
      [(.asIs, .announce "host" (makeProfile "host" .server) (makeStatus 0.1 16000) 0)]
    ((o.joinAll Platform.reference joinsAB).registry.get peerA).map (·.assignment) =
      ((o.joinAll Platform.reference joinsBA).registry.get peerA).map (·.assignment) := by
  have distinct : (joinsAB.map (·.deviceId)).Nodup := by decide
  have hperm : (joinsAB.map Join.announce).Perm (joinsBA.map Join.announce) := .swap ..
  exact (joinAll_of_perm Platform.reference 32 "secret" [] _ distinct hperm).1 peerA

end NeuralSwarm
