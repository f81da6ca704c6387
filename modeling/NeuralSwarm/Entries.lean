import NeuralSwarm.Basic.Float32
import NeuralSwarm.Run

/-!
# What every entry of the registry satisfies

After every call each entry is stored under its own id, has the reservation of its device and the
capacity that follows from its status, is active or degraded, and holds an interval of layers.  An
entry is `ready` only between the writes of an announce and the rebalance of the same call.
-/

namespace NeuralSwarm

variable {F P S B : Type}

/-- A possibly empty interval of layers inside the model. -/
def LayerRun (total : ℕ) (layers : List ℕ) : Prop :=
  ∃ start count, start + count ≤ total ∧ layers = List.range' start count

theorem layerRun_nil (total : ℕ) : LayerRun total [] := ⟨0, 0, Nat.zero_le _, rfl⟩

variable [Scalar F] {total : ℕ} {sorted : List (NodeEntry F)}

theorem layerRun_of_mem_layerBlocks (htotal : total < 2 ^ 32) {block : List ℕ}
    (h : block ∈ layerBlocks total sorted) : LayerRun total block := by
  have inside : ∀ l ∈ block, l < total := fun _ hl => lt_of_mem_layerBlocks htotal h hl
  obtain ⟨last, start, n, rfl⟩ := exists_of_mem_cutBlocks h
  obtain ⟨count, hcount⟩ : ∃ count, layerStop total sorted last start n - start = count := ⟨_, rfl⟩
  rw [hcount] at inside ⊢
  rcases Nat.eq_zero_or_pos count with rfl | hpos
  · exact layerRun_nil total
  · have hlast := inside (start + count - 1) (by rw [List.mem_range'_1]; omega)
    exact ⟨start, count, by omega, rfl⟩

omit [Scalar F] in
theorem mem_of_lookup {plan : List (String × List ℕ)} {id : String} {layers : List ℕ}
    (h : plan.lookup id = some layers) : (id, layers) ∈ plan := by
  obtain ⟨before, after, rfl, -⟩ := List.lookup_eq_some_iff.1 h
  exact List.mem_append_right _ (List.mem_cons_self ..)

theorem map_fst_layerPlan (total : ℕ) (sorted : List (NodeEntry F)) :
    (layerPlan total sorted).map (·.1) = sorted.map (·.id) := by
  rw [layerPlan, List.map_fst_zip]
  rw [length_layerBlocks, List.length_map]

theorem exists_lookup_layerPlan {n : NodeEntry F} (hn : n ∈ sorted) :
    ∃ layers, (layerPlan total sorted).lookup n.id = some layers := by
  refine Option.ne_none_iff_exists'.1 fun hnone => ?_
  have hid : n.id ∈ (layerPlan total sorted).map (·.1) := by
    rw [map_fst_layerPlan]
    exact List.mem_map_of_mem hn
  obtain ⟨item, hitem, heq⟩ := List.mem_map.1 hid
  simpa [heq] using List.lookup_eq_none_iff.1 hnone item hitem

omit [Scalar F] in
theorem NodeEntry.withLayers_state_of_canAcceptTasks {n : NodeEntry F}
    (h : n.state.canAcceptTasks = true) (layers : List ℕ) :
    (n.withLayers layers).state = .active := by
  unfold withLayers
  cases hstate : n.state with
  | ready => rfl
  | active => rfl
  | _ =>
    rw [hstate] at h
    cases h

/-- A node has layers in the plan if and only if it can accept tasks. -/
theorem NodeRegistry.OwnIds.isSome_lookup_layerPlan {registry : NodeRegistry F}
    (own : registry.OwnIds) (total : ℕ) {id : String} {n : NodeEntry F}
    (hn : registry.get id = some n) :
    ((layerPlan total registry.sortedByCapacity).lookup id).isSome = n.state.canAcceptTasks := by
  obtain rfl := own id n hn
  rw [Bool.eq_iff_iff, Option.isSome_iff_exists]
  constructor
  · rintro ⟨layers, hlookup⟩
    have hmem : n.id ∈ registry.sortedByCapacity.map (·.id) := by
      rw [← map_fst_layerPlan total]
      exact List.mem_map_of_mem (mem_of_lookup hlookup)
    obtain ⟨m, hm, hid⟩ := List.mem_map.1 hmem
    obtain ⟨⟨key, hkey⟩, haccept⟩ := NodeRegistry.mem_sortedByCapacity_iff.1 hm
    rw [← own key m hkey, hid, hn] at hkey
    cases hkey
    exact haccept
  · intro haccept
    exact exists_lookup_layerPlan (NodeRegistry.mem_sortedByCapacity_iff.2 ⟨⟨n.id, hn⟩, haccept⟩)

/-- A rebalance gives an interval of layers to every node of the sorted list, and nothing to the
others. -/
theorem follow_layerPlan (htotal : total < 2 ^ 32) (n : NodeEntry F) :
    n ∉ sorted ∧ n.follow (layerPlan total sorted) = n ∨
      ∃ layers, LayerRun total layers ∧
        n.follow (layerPlan total sorted) = n.withLayers layers := by
  rw [NodeEntry.follow]
  cases hlookup : (layerPlan total sorted).lookup n.id with
  | none =>
    refine .inl ⟨fun hn => ?_, rfl⟩
    obtain ⟨layers, hlayers⟩ : ∃ layers, (layerPlan total sorted).lookup n.id = some layers :=
      exists_lookup_layerPlan hn
    cases hlookup.symm.trans hlayers
  | some layers =>
    have hzip := List.of_mem_zip (mem_of_lookup hlookup)
    exact .inr ⟨layers, layerRun_of_mem_layerBlocks htotal hzip.2, rfl⟩

namespace Orchestrator

variable (env : Platform P S B) {o : Orchestrator F P B}

/-- What holds of a new entry with layers and is kept by every write to an entry holds of all
entries after a call. -/
theorem forall_entries_perform {p : String → NodeEntry F → Prop}
    (fresh : ∀ key profile initialStatus now layers, LayerRun o.totalModelLayers.toNat layers →
      p key ((NodeRegistry.readyEntry key profile initialStatus now).withLayers layers))
    (rewrite : ∀ (op : Op F P B) key n, p key n → p key (op.rewrite key n))
    (withLayers : ∀ key n layers, LayerRun o.totalModelLayers.toNat layers → p key n →
      p key (n.withLayers layers))
    (own : o.registry.OwnIds) (h : ∀ key n, o.registry.get key = some n → p key n)
    (op : Op F P B) {key : String} {n : NodeEntry F}
    (hn : (o.perform env op).1.registry.get key = some n) : p key n := by
  have htotal := o.totalModelLayers.toNat_lt
  cases hrebalances : op.rebalances o with
  | false =>
    rw [perform_registry, hrebalances, if_neg Bool.false_ne_true] at hn
    rcases Op.get_written hn with ⟨old, hold, rfl⟩ | ⟨_, _, _, rfl, -⟩
    · exact rewrite op key old (h key old hold)
    · cases hrebalances
  | true =>
    rw [perform_registry, hrebalances, if_pos rfl,
      rebalance_get env o (Op.written_ownIds own op), Option.map_eq_some_iff] at hn
    obtain ⟨m, hm, rfl⟩ := hn
    rcases Op.get_written hm with ⟨old, hold, rfl⟩ | ⟨profile, initialStatus, now, -, rfl⟩
    · have hold := rewrite op key old (h key old hold)
      rcases follow_layerPlan htotal (op.rewrite key old) with ⟨-, heq⟩ | ⟨layers, hrun, heq⟩
      · rw [heq]
        exact hold
      · rw [heq]
        exact withLayers key _ layers hrun hold
    · -- a node that announces itself can accept tasks, so it takes part in the rebalance
      rcases follow_layerPlan htotal (NodeRegistry.readyEntry key profile initialStatus now) with
        ⟨hnone, -⟩ | ⟨layers, hrun, heq⟩
      · exact absurd (NodeRegistry.mem_sortedByCapacity_iff.2 ⟨⟨key, hm⟩, rfl⟩) hnone
      · rw [heq]
        exact fresh key profile initialStatus now layers hrun

end Orchestrator

/-- What holds of the entry under `key` after every call. -/
structure NodeEntry.Settled (total : ℕ) (key : String) (n : NodeEntry F) : Prop where
  id_eq : n.id = key
  reservation_eq : n.reservation = .forDevice n.profile.deviceType
  capacity_eq : n.capacity = .compute n.profile n.status n.reservation
  state_eq : n.state = .active ∨ n.state = .degraded
  layerRun : LayerRun total n.assignedLayers

namespace NodeEntry.Settled

variable {key : String} {n : NodeEntry F}

theorem withLayers (h : n.Settled total key) {layers : List ℕ} (hrun : LayerRun total layers) :
    (n.withLayers layers).Settled total key := by
  refine ⟨h.id_eq, h.reservation_eq, h.capacity_eq, ?_, hrun⟩
  have hready : n.state ≠ .ready := by
    rcases h.state_eq with hstate | hstate <;> simp [hstate]
  simpa only [NodeEntry.withLayers, if_neg hready] using h.state_eq

/-- A status moves a settled node between two states only. -/
theorem degradeOrRecover_state {state : NodeState} (h : state = .active ∨ state = .degraded)
    (composite : F) :
    NodeRegistry.degradeOrRecover state composite = .active ∨
      NodeRegistry.degradeOrRecover state composite = .degraded := by
  unfold NodeRegistry.degradeOrRecover
  split_ifs with hlow hhigh
  · rw [hlow.1]
    exact .inr rfl
  · rw [hhigh.1]
    exact .inl rfl
  · exact h

theorem withStatus (h : n.Settled total key) (status : NodeStatus F) (now : Instant) :
    (n.withStatus status now).Settled total key := by
  exact ⟨h.id_eq, h.reservation_eq, rfl, degradeOrRecover_state h.state_eq _, h.layerRun⟩

theorem rewrite (h : n.Settled total key) (op : Op F P B) :
    (op.rewrite key n).Settled total key := by
  cases op with
  | statusUpdate deviceId status now =>
    simp only [Op.rewrite]
    split_ifs
    · exact h.withStatus status now
    · exact h
  | heartbeat deviceId now =>
    simp only [Op.rewrite]
    split_ifs
    · exact ⟨h.id_eq, h.reservation_eq, h.capacity_eq, h.state_eq, h.layerRun⟩
    · exact h
  | _ => exact h

end NodeEntry.Settled

theorem settled_fresh (key : String) (profile : NodeProfile) (initialStatus : NodeStatus F)
    (now : Instant) {layers : List ℕ} (hrun : LayerRun total layers) :
    ((NodeRegistry.readyEntry key profile initialStatus now).withLayers layers).Settled total key :=
  ⟨rfl, rfl, rfl, .inl rfl, hrun⟩

namespace Orchestrator

variable {env : Platform P S B} {o : Orchestrator F P B}

/-- Every entry is settled. -/
def Settled (o : Orchestrator F P B) : Prop :=
  ∀ key n, o.registry.get key = some n → n.Settled o.totalModelLayers.toNat key

theorem Settled.ownIds (h : o.Settled) : o.registry.OwnIds := fun key n hn => (h key n hn).id_eq

theorem settled_new (total : UInt32) (sharedSecret : String) (clusterKey : B) :
    (new total sharedSecret clusterKey : Orchestrator F P B).Settled := by
  intro key n hn
  cases hn

theorem settled_perform (h : o.Settled) (op : Op F P B) : (o.perform env op).1.Settled := by
  intro key n hn
  rw [(perform_config env o op).1]
  exact forall_entries_perform env
    (fun key profile status now layers hrun => settled_fresh key profile status now hrun)
    (fun op key n hn => hn.rewrite op) (fun key n layers hrun hn => hn.withLayers hrun) h.ownIds h
    op hn

end Orchestrator

/-! ## The composite is a number -/

theorem toNat_max_one_pos (a : UInt64) : 0 < (max a 1).toNat := by
  show 0 < (if a ≤ 1 then 1 else a).toNat
  split_ifs with h
  · decide
  · exact Nat.zero_lt_of_lt (UInt64.lt_iff_toNat_lt.1 (UInt64.not_le.1 h))

theorem isFinite_penaltyFactor (thermal : ThermalState) :
    Binary32.IsFinite (Binary32.unpacked thermal.penaltyFactor) := by
  cases thermal with
  | critical => trivial
  | _ => rfl

open Binary32 in
/-- Whatever a node reports, NaN and infinite loads included, its composite is a number. -/
theorem isNumber_composite (profile : NodeProfile) (status : NodeStatus Float32)
    (reservation : ResourceReservation Float32) :
    IsNumber (unpacked (EffectiveCapacity.compute profile status reservation).composite) := by
  have hcpu := isNonneg_max ((1.0 : Float32) - reservation.cpuReserved - status.cpuUsage)
  have hram : IsNonneg (unpacked (Float32.ofNat
      (saturatingSub status.ramAvailableMb reservation.ramReservedMb).toNat /
        Float32.ofNat (max profile.ramTotalMb 1).toNat)) := by
    refine isNonneg_div (isFinite_ofNat (UInt64.toNat_lt _))
      (isPositive_ofNat (toNat_max_one_pos _) (UInt64.toNat_lt _))
  have hsum := isNonneg_add (isNonneg_mul (x := 0.6) rfl hcpu (.inl rfl))
    (isNonneg_mul (x := 0.4) rfl hram (.inl rfl))
  have hraw := isFinite_clamp hsum
  have hthermal := isFinite_penaltyFactor status.thermal
  have hcomposite := isNonneg_mul hraw.isNonneg hthermal.isNonneg (.inr (.inr ⟨hraw, hthermal⟩))
  unfold EffectiveCapacity.compute
  cases status.latencyMs with
  | none => exact hcomposite.isNumber
  | some latency =>
    have hlatency : IsNonneg (unpacked (Float32.ofNat latency.toNat / 2000.0)) :=
      isNonneg_div (isFinite_ofNat (latency.toNat_lt.trans (by decide))) rfl
    have hpenalty := isPositive_one_sub_min hlatency
    exact (isNonneg_mul hcomposite hpenalty.isFinite.isNonneg (.inr (.inl hpenalty))).isNumber

/-! ## The registry of a running orchestrator -/

open Binary32 in
/-- Both thresholds of the lifecycle lie on the right side of the bound for degraded nodes. -/
theorem lt_of_degradeOrRecover {c : Float32} (hc : IsNumber (unpacked c)) :
    (c < 0.1 → c < 0.15) ∧ (¬ c ≥ 0.15 → c < 0.15) := by
  have hlow : IsNumber (unpacked 0.1) := trivial
  have hhigh : IsNumber (unpacked 0.15) := trivial
  constructor
  · intro h
    rw [lt_iff hc hlow] at h
    rw [lt_iff hc hhigh]
    exact h.trans (by decide +kernel)
  · intro h
    rw [ge_iff_le, le_iff hhigh hc, not_le] at h
    exact (lt_iff hc hhigh).2 h

theorem of_degradeOrRecover_eq_degraded {state : NodeState} {c : F}
    (h : NodeRegistry.degradeOrRecover state c = .degraded) : c < 0.1 ∨ ¬ c ≥ 0.15 := by
  unfold NodeRegistry.degradeOrRecover at h
  split_ifs at h with hlow hhigh
  · exact .inl hlow.2
  · rw [hhigh.1] at h
    cases h
  · exact .inr fun hc => hhigh ⟨h, hc⟩

/-- The representation invariant of an entry. -/
structure NodeEntry.Consistent (total : ℕ) (key : String) (n : NodeEntry F) : Prop
    extends n.Settled total key where
  degraded_lt : n.state = .degraded → n.capacity.composite < 0.15

namespace NodeEntry.Consistent

variable {key : String} {n : NodeEntry Float32}

theorem withLayers (h : n.Consistent total key) {layers : List ℕ} (hrun : LayerRun total layers) :
    (n.withLayers layers).Consistent total key := by
  refine ⟨h.toSettled.withLayers hrun, fun hstate => h.degraded_lt ?_⟩
  unfold NodeEntry.withLayers at hstate
  dsimp only at hstate
  split_ifs at hstate with hready
  · rw [hready] at hstate
    cases hstate
  · exact hstate

theorem rewrite (h : n.Consistent total key) (op : Op Float32 P B) :
    (op.rewrite key n).Consistent total key := by
  refine ⟨h.toSettled.rewrite op, ?_⟩
  cases op with
  | statusUpdate deviceId status now =>
    simp only [Op.rewrite]
    split_ifs
    · intro hstate
      have hthreshold :=
        lt_of_degradeOrRecover (isNumber_composite n.profile status n.reservation)
      exact (of_degradeOrRecover_eq_degraded hstate).elim hthreshold.1 hthreshold.2
    · exact h.degraded_lt
  | heartbeat deviceId now =>
    simp only [Op.rewrite]
    split_ifs <;> exact h.degraded_lt
  | _ => exact h.degraded_lt

end NodeEntry.Consistent

namespace Orchestrator

variable (env : Platform P S B)

theorem exists_handleAnnounce_ok {o : Orchestrator F P B} (own : o.registry.OwnIds)
    (deviceId : String) (profile : NodeProfile) (initialStatus : NodeStatus F) (now : Instant) :
    ∃ answer, (o.handleAnnounce env deviceId profile initialStatus now).2 = .ok answer := by
  obtain ⟨registry, hready, hget⟩ :=
    o.registry.markReady_register deviceId profile initialStatus now
  have own' : registry.OwnIds := by
    intro key n hn
    rw [hget] at hn
    split_ifs at hn with hkey
    · cases hn
      exact hkey.symm
    · exact own key n hn
  simp only [handleAnnounce, hready, rebalance_get env o own', hget, if_true, Option.map_some]
  exact ⟨_, rfl⟩

/-- The model has `total` layers and every entry is consistent. -/
def Consistent (total : UInt32) (o : Orchestrator F P B) : Prop :=
  o.totalModelLayers = total ∧
    ∀ key n, o.registry.get key = some n → n.Consistent total.toNat key

theorem consistent_perform {o : Orchestrator Float32 P B} {total : UInt32}
    (h : o.Consistent total) (op : Op Float32 P B) : (o.perform env op).1.Consistent total := by
  obtain ⟨rfl, hentries⟩ := h
  refine ⟨(perform_config env o op).1, fun key n hn => ?_⟩
  refine forall_entries_perform env (fun key profile status now layers hrun => ?_)
    (fun op key n hn => hn.rewrite op) (fun key n layers hrun hn => hn.withLayers hrun)
    (fun key n hn => (hentries key n hn).id_eq) hentries op hn
  exact ⟨settled_fresh key profile status now hrun, nofun⟩

theorem consistent_of_reachable {total : UInt32} {sharedSecret : String} {clusterKey : B}
    {o : Orchestrator Float32 P B}
    (h : (machine env).Reachable (new total sharedSecret clusterKey) o) : o.Consistent total := by
  have preserved : ∀ (o : Orchestrator Float32 P B) (op : Op Float32 P B), o.Consistent total →
      ((machine env).step o op).1.Consistent total := fun o op h => consistent_perform env h op
  have initial :
      (new total sharedSecret clusterKey : Orchestrator Float32 P B).Consistent total := by
    refine ⟨rfl, fun key n hn => ?_⟩
    cases hn
  exact Mealy.Reachable.invariant (machine env) preserved initial h

/-- After every run, failing calls included, every entry is consistent and no announce fails. -/
theorem entries_consistent (total : UInt32) (sharedSecret : String) (clusterKey : B)
    (ops : List (Op Float32 P B)) :
    let o := (machine env).run (new total sharedSecret clusterKey) ops
    (∀ key n, o.registry.get key = some n → n.Consistent total.toNat key) ∧
      ∀ deviceId profile initialStatus now,
        ∃ answer, (o.handleAnnounce env deviceId profile initialStatus now).2 = .ok answer := by
  have h := consistent_of_reachable env
    (show (machine env).Reachable (new total sharedSecret clusterKey) _ from ⟨ops, rfl⟩)
  exact ⟨h.2, exists_handleAnnounce_ok env fun key n hn => (h.2 key n hn).id_eq⟩

end Orchestrator

end NeuralSwarm
