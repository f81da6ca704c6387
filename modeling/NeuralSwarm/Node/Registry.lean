import Mathlib.Data.List.Sort
import Mathlib.Data.Prod.Lex
import Mathlib.Data.String.Basic
import NeuralSwarm.Basic.Assoc
import NeuralSwarm.Compute
import NeuralSwarm.Node.State

/-!
# The node registry

The record of every node in the swarm, stored under its device id.  The hash map is an association
list with distinct keys; the order of its entries stands for the order of iteration, which a write
through a mutable reference keeps.
-/

namespace NeuralSwarm

/-- A clock reading, in nanoseconds. -/
abbrev Instant := ℕ

/-- The complete record of a node. -/
structure NodeEntry (F : Type) where
  id : String
  profile : NodeProfile
  status : NodeStatus F
  state : NodeState
  capacity : EffectiveCapacity F
  assignedLayers : List ℕ
  reservation : ResourceReservation F
  lastHeartbeat : Instant
  deriving DecidableEq

/-- The entry with new layers; a `ready` node becomes `active`. -/
def NodeEntry.withLayers {F : Type} (entry : NodeEntry F) (layers : List ℕ) : NodeEntry F :=
  { entry with
    assignedLayers := layers
    state :=
      if entry.state = .ready then (entry.state.transitionTo .active).toOption.getD entry.state
      else entry.state }

structure NodeRegistry (F : Type) where
  nodes : AList fun _ : String => NodeEntry F

namespace NodeRegistry

variable {F : Type}

def empty : NodeRegistry F := ⟨∅⟩

def get (registry : NodeRegistry F) (id : String) : Option (NodeEntry F) := registry.nodes.lookup id

/-- A write through `get_mut`. -/
def modify (registry : NodeRegistry F) (id : String) (write : NodeEntry F → NodeEntry F) :
    NodeRegistry F :=
  ⟨registry.nodes.mapValues fun key entry => if key = id then write entry else entry⟩

def remove (registry : NodeRegistry F) (id : String) : NodeRegistry F := ⟨registry.nodes.erase id⟩

def len (registry : NodeRegistry F) : ℕ := registry.nodes.entries.length

def isEmpty (registry : NodeRegistry F) : Bool := registry.nodes.entries.isEmpty

/-- The entries in the order of iteration. -/
def values (registry : NodeRegistry F) : List (NodeEntry F) := registry.nodes.values

/-- The nodes that can accept tasks. -/
def activeNodes (registry : NodeRegistry F) : List (NodeEntry F) :=
  registry.values.filter fun n => n.state.canAcceptTasks

def heartbeat (registry : NodeRegistry F) (id : String) (now : Instant) : NodeRegistry F :=
  registry.modify id fun entry => { entry with lastHeartbeat := now }

def assignLayers (registry : NodeRegistry F) (id : String) (layers : List ℕ) :
    Except String (NodeRegistry F) :=
  match registry.get id with
  | none => .error ("Node not found: " ++ id)
  | some _ => .ok (registry.modify id (·.withLayers layers))

variable [Scalar F]

/-- Registers a node in state `joining`; an entry under the same id is replaced. -/
def register (registry : NodeRegistry F) (id : String) (profile : NodeProfile) (now : Instant) :
    NodeRegistry F :=
  ⟨registry.nodes.insert id
    { id
      profile
      status := .unknown
      state := .joining
      capacity := .zero
      assignedLayers := []
      reservation := .forDevice profile.deviceType
      lastHeartbeat := now }⟩

/-- Marks a node as ready and computes its initial capacity. -/
def markReady (registry : NodeRegistry F) (id : String) (initialStatus : NodeStatus F) :
    Except String (NodeRegistry F) :=
  match registry.get id with
  | none => .error ("Node not found: " ++ id)
  | some entry =>
    match entry.state.transitionTo .ready with
    | .error e => .error e
    | .ok state =>
      let capacity := EffectiveCapacity.compute entry.profile initialStatus entry.reservation
      .ok (registry.modify id fun entry => { entry with state, status := initialStatus, capacity })

/-- The lifecycle state after a status update that leaves the node with `composite`. -/
def degradeOrRecover (state : NodeState) (composite : F) : NodeState :=
  if state = .active ∧ composite < 0.1 then (state.transitionTo .degraded).toOption.getD state
  else if state = .degraded ∧ composite ≥ 0.15 then (state.transitionTo .active).toOption.getD state
  else state

end NodeRegistry

/-- The entry with a new status and the capacity and lifecycle state that follow from it. -/
def NodeEntry.withStatus {F : Type} [Scalar F] (entry : NodeEntry F) (status : NodeStatus F)
    (now : Instant) : NodeEntry F :=
  let capacity := EffectiveCapacity.compute entry.profile status entry.reservation
  { entry with
    status
    lastHeartbeat := now
    capacity
    state := NodeRegistry.degradeOrRecover entry.state capacity.composite }

namespace NodeRegistry

variable {F : Type} [Scalar F]

/-- Records a status; the flag tells whether the composite moved by more than `0.15`. -/
def updateStatus (registry : NodeRegistry F) (id : String) (status : NodeStatus F) (now : Instant) :
    Except String (Bool × NodeRegistry F) :=
  match registry.get id with
  | none => .error ("Node not found: " ++ id)
  | some entry =>
    let oldComposite := entry.capacity.composite
    let delta := Scalar.abs ((entry.withStatus status now).capacity.composite - oldComposite)
    .ok (decide (delta > 0.15), registry.modify id (·.withStatus status now))

/-- The comparator of `sorted_by_capacity`: composite descending, then id. -/
def compareCapacity (a b : NodeEntry F) : Ordering :=
  ((Scalar.partialCmp b.capacity.composite a.capacity.composite).getD .eq).then (compare a.id b.id)

/-- The nodes that can accept tasks, strongest first. -/
def sortedByCapacity (registry : NodeRegistry F) : List (NodeEntry F) :=
  registry.activeNodes.insertionSort fun a b => compareCapacity a b ≠ .gt

/-! ## Facts about lookups and the sorted list -/

section Lookup

omit [Scalar F]

variable {registry : NodeRegistry F} {id key : String} {entry : NodeEntry F}

theorem get_modify (write : NodeEntry F → NodeEntry F) :
    (registry.modify id write).get key =
      (registry.get key).map fun entry => if key = id then write entry else entry :=
  AList.lookup_mapValues ..

theorem get_remove :
    (registry.remove id).get key = if key = id then none else registry.get key := by
  split_ifs with h
  · exact h ▸ AList.lookup_erase id _
  · exact AList.lookup_erase_ne h

theorem modify_of_get_eq_none (h : registry.get id = none)
    (write : NodeEntry F → NodeEntry F) : registry.modify id write = registry := by
  have : registry.nodes.mapValues (fun key entry => if key = id then write entry else entry) =
      registry.nodes := by
    refine (AList.mapValues_congr fun key entry hget => ?_).trans (AList.mapValues_id _)
    exact if_neg fun heq => by rw [heq] at hget; cases h.symm.trans hget
  exact congrArg NodeRegistry.mk this

/-- What is written to an entry is lost when it is removed. -/
theorem remove_modify (write : NodeEntry F → NodeEntry F) :
    (registry.modify id write).remove id = registry.remove id := by
  have hmodify : (registry.modify id write).remove id =
      (registry.remove id).modify id write :=
    congrArg NodeRegistry.mk (AList.erase_mapValues ..)
  rw [hmodify]
  exact modify_of_get_eq_none (by rw [get_remove, if_pos rfl]) write

theorem get_foldl_remove (dead : List String) :
    (dead.foldl remove registry).get key = if key ∈ dead then none else registry.get key := by
  induction dead generalizing registry with
  | nil => rfl
  | cons id dead ih =>
    rw [List.foldl_cons, ih, get_remove]
    by_cases hdead : key ∈ dead <;> by_cases hid : key = id <;> simp [hdead, hid]

/-- Every entry is stored under its own id. -/
def OwnIds (registry : NodeRegistry F) : Prop :=
  ∀ id entry, registry.get id = some entry → entry.id = id

theorem ownIds_empty : (empty : NodeRegistry F).OwnIds := by
  intro id entry h
  cases h

theorem OwnIds.modify (own : registry.OwnIds) {write : NodeEntry F → NodeEntry F}
    (hwrite : ∀ entry, (write entry).id = entry.id) : (registry.modify id write).OwnIds := by
  intro key entry h
  rw [get_modify, Option.map_eq_some_iff] at h
  obtain ⟨old, hold, rfl⟩ := h
  have := own key old hold
  split_ifs
  · exact (hwrite old).trans this
  · exact this

theorem isEmpty_iff : registry.isEmpty = true ↔ ∀ id, registry.get id = none :=
  List.isEmpty_iff.trans AList.entries_eq_nil_iff

theorem mem_activeNodes_iff {n : NodeEntry F} :
    n ∈ registry.activeNodes ↔
      (∃ id, registry.get id = some n) ∧ n.state.canAcceptTasks = true := by
  rw [activeNodes, List.mem_filter]
  exact and_congr_left fun _ => AList.mem_values_iff

end Lookup

variable {registry : NodeRegistry F}

/-- What a registration and the first status leave under the id of the node. -/
def readyEntry (id : String) (profile : NodeProfile) (initialStatus : NodeStatus F)
    (now : Instant) : NodeEntry F :=
  { id
    profile
    status := initialStatus
    state := .ready
    capacity := .compute profile initialStatus (.forDevice profile.deviceType)
    assignedLayers := []
    reservation := .forDevice profile.deviceType
    lastHeartbeat := now }

theorem markReady_register (registry : NodeRegistry F) (id : String) (profile : NodeProfile)
    (initialStatus : NodeStatus F) (now : Instant) :
    ∃ registry', (registry.register id profile now).markReady id initialStatus = .ok registry' ∧
      ∀ key, registry'.get key =
        if key = id then some (readyEntry id profile initialStatus now) else registry.get key := by
  have hget : ∀ key, (registry.register id profile now).get key = if key = id then
      some { readyEntry id profile initialStatus now with
        status := .unknown, state := .joining, capacity := .zero } else registry.get key := by
    intro key
    split_ifs with h
    · rw [h]; exact AList.lookup_insert _
    · exact AList.lookup_insert_ne h
  unfold markReady
  rw [hget, if_pos rfl]
  refine ⟨_, rfl, fun key => ?_⟩
  rw [get_modify, hget]
  split_ifs with h
  · rfl
  · simp

theorem sortedByCapacity_perm (registry : NodeRegistry F) :
    registry.sortedByCapacity.Perm registry.activeNodes := List.perm_insertionSort ..

theorem sortedByCapacity_eq_nil_iff :
    registry.sortedByCapacity = [] ↔ registry.activeNodes = [] := by
  constructor
  · intro h
    exact (h ▸ registry.sortedByCapacity_perm).nil_eq.symm
  · intro h
    exact (h ▸ registry.sortedByCapacity_perm).eq_nil

theorem mem_sortedByCapacity_iff {n : NodeEntry F} :
    n ∈ registry.sortedByCapacity ↔
      (∃ id, registry.get id = some n) ∧ n.state.canAcceptTasks = true :=
  registry.sortedByCapacity_perm.mem_iff.trans mem_activeNodes_iff

/-- Where composites compare as their ranks, the comparator is the order of rank and id. -/
theorem compareCapacity_ne_gt_iff_of_rank {β : Type} [LinearOrder β] (rank : F → β)
    {a b : NodeEntry F}
    (h : Scalar.partialCmp b.capacity.composite a.capacity.composite =
      some (compare (rank b.capacity.composite) (rank a.capacity.composite))) :
    compareCapacity a b ≠ .gt ↔
      toLex (OrderDual.toDual (rank a.capacity.composite), a.id) ≤
        toLex (OrderDual.toDual (rank b.capacity.composite), b.id) := by
  rw [compareCapacity, h, Option.getD_some, Prod.Lex.toLex_le_toLex, OrderDual.toDual_lt_toDual,
    OrderDual.toDual_inj]
  rcases lt_trichotomy (rank b.capacity.composite) (rank a.capacity.composite) with h | h | h
  · simp [compare_lt_iff_lt.2 h, h]
  · have hid : compare a.id b.id ≠ .gt ↔ a.id ≤ b.id := by
      rw [ne_eq, compare_gt_iff_gt, not_lt]
    simpa [h] using hid
  · simp [compare_gt_iff_gt.2 h, h.not_gt, h.ne]

theorem OwnIds.sorted_nodup (own : registry.OwnIds) :
    (registry.sortedByCapacity.map (·.id)).Nodup := by
  refine (registry.sortedByCapacity_perm.map _).nodup_iff.2 ?_
  exact (AList.map_values_nodup own).sublist (List.filter_sublist.map _)

omit [Scalar F] in
theorem activeNodes_mapValues {write : String → NodeEntry F → NodeEntry F}
    {write' : NodeEntry F → NodeEntry F}
    (hwrite : ∀ id n, registry.get id = some n → write id n = write' n)
    (hstate : ∀ n ∈ registry.values,
      (write' n).state.canAcceptTasks = n.state.canAcceptTasks) :
    (⟨registry.nodes.mapValues write⟩ : NodeRegistry F).activeNodes =
      registry.activeNodes.map write' := by
  rw [activeNodes, values, AList.values_mapValues write registry.nodes hwrite, List.filter_map]
  exact congrArg _ (List.filter_congr hstate)

/-- Rewriting the entries without touching what the sort reads keeps the order. -/
theorem sortedByCapacity_mapValues {write : String → NodeEntry F → NodeEntry F}
    {write' : NodeEntry F → NodeEntry F}
    (hwrite : ∀ id n, registry.get id = some n → write id n = write' n)
    (hid : ∀ n, (write' n).id = n.id) (hcapacity : ∀ n, (write' n).capacity = n.capacity)
    (hstate : ∀ n ∈ registry.values,
      (write' n).state.canAcceptTasks = n.state.canAcceptTasks) :
    (⟨registry.nodes.mapValues write⟩ : NodeRegistry F).sortedByCapacity =
      registry.sortedByCapacity.map write' := by
  rw [sortedByCapacity, activeNodes_mapValues hwrite hstate, sortedByCapacity]
  refine (List.map_insertionSort _ _ _ _ fun a _ b _ => ?_).symm
  simp only [compareCapacity, hid, hcapacity]

end NodeRegistry

end NeuralSwarm
