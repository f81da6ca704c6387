import NeuralSwarm.Basic.Hysteresis
import NeuralSwarm.Entries

/-!
# When a node is degraded

The lifecycle state of a node is a switch with the thresholds `0.1` and `0.15` over the composites
of its status updates.  Rebalances, which write lifecycle states too, only turn a ready node active,
and no node is ready after the call that announces it.  Composites are exact rationals here.
-/

namespace NeuralSwarm

open Hysteresis

variable {P S B : Type}

namespace Op

/-- Whether the call announces the node. -/
def announces {F : Type} (id : String) : Op F P B → Bool
  | announce deviceId .. => deviceId == id
  | _ => false

/-- The composite of the node after a status update of it, with its hardware. -/
def updatedComposite (profile : NodeProfile) (id : String) : Op ℚ P B → Option ℚ
  | statusUpdate deviceId status _ =>
    if deviceId = id then
      some (EffectiveCapacity.compute profile status (.forDevice profile.deviceType)).composite
    else none
  | _ => none

end Op

/-- The two states of a node after its join. -/
def lifecycle (degraded : Bool) : NodeState := if degraded then .degraded else .active

/-- A status update moves the lifecycle state as the switch. -/
theorem degradeOrRecover_lifecycle (degraded : Bool) (composite : ℚ) :
    NodeRegistry.degradeOrRecover (lifecycle degraded) composite =
      lifecycle (switch 0.1 0.15 degraded composite) := by
  unfold NodeRegistry.degradeOrRecover switch
  cases degraded with
  | false =>
    by_cases hlow : composite < 0.1
    · simp [lifecycle, hlow]
      rfl
    · simp [lifecycle, hlow]
  | true =>
    by_cases hhigh : composite ≥ 0.15
    · simp [lifecycle, hhigh]
      rfl
    · simp [lifecycle, hhigh]

/-- The entry of a node with this hardware, degraded or active. -/
structure NodeEntry.Follows (profile : NodeProfile) (degraded : Bool) (n : NodeEntry ℚ) :
    Prop where
  profile_eq : n.profile = profile
  reservation_eq : n.reservation = .forDevice profile.deviceType
  state_eq : n.state = lifecycle degraded

namespace NodeEntry.Follows

variable {profile : NodeProfile} {degraded : Bool} {n : NodeEntry ℚ}

theorem follow (h : n.Follows profile degraded) (plan : List (String × List ℕ)) :
    (n.follow plan).Follows profile degraded := by
  unfold NodeEntry.follow
  cases plan.lookup n.id with
  | none => exact h
  | some layers =>
    refine ⟨h.profile_eq, h.reservation_eq, ?_⟩
    have hready : n.state ≠ .ready := by
      rw [h.state_eq]
      cases degraded <;> decide
    simp only [NodeEntry.withLayers, if_neg hready]
    exact h.state_eq

theorem rewrite (h : n.Follows profile degraded) (id : String) (op : Op ℚ P B) :
    (op.rewrite id n).Follows profile
      ((op.updatedComposite profile id).elim degraded (switch 0.1 0.15 degraded)) := by
  cases op with
  | statusUpdate deviceId status now =>
    simp only [Op.rewrite, Op.updatedComposite]
    by_cases hid : id = deviceId
    · rw [if_pos hid, if_pos hid.symm]
      refine ⟨h.profile_eq, h.reservation_eq, ?_⟩
      simp only [NodeEntry.withStatus, h.state_eq, h.profile_eq, h.reservation_eq]
      exact degradeOrRecover_lifecycle degraded _
    · rw [if_neg hid, if_neg (Ne.symm hid)]
      exact h
  | heartbeat deviceId now =>
    simp only [Op.rewrite]
    split_ifs
    · exact ⟨h.profile_eq, h.reservation_eq, h.state_eq⟩
    · exact h
  | _ => exact h

end NodeEntry.Follows

namespace Orchestrator

variable (env : Platform P S B) {o : Orchestrator ℚ P B} {profile : NodeProfile} {id : String}

/-- A call that does not announce the node moves its state by the switch, if it is an update of it,
and not at all otherwise. -/
theorem follows_perform (own : o.registry.OwnIds) {degraded : Bool}
    (h : ∀ n, o.registry.get id = some n → n.Follows profile degraded) {op : Op ℚ P B}
    (hother : op.announces id = false) {n : NodeEntry ℚ}
    (hn : (o.perform env op).1.registry.get id = some n) :
    n.Follows profile
      ((op.updatedComposite profile id).elim degraded (switch 0.1 0.15 degraded)) := by
  have hwritten : ∀ m, (op.written o).get id = some m → m.Follows profile
      ((op.updatedComposite profile id).elim degraded (switch 0.1 0.15 degraded)) := by
    intro m hm
    rcases Op.get_written hm with ⟨old, hold, rfl⟩ | ⟨_, _, _, rfl, -⟩
    · exact (h old hold).rewrite id op
    · simp [Op.announces] at hother
  rw [perform_registry] at hn
  split_ifs at hn with hrebalances
  · rw [rebalance_get env o (Op.written_ownIds own op), Option.map_eq_some_iff] at hn
    obtain ⟨m, hm, rfl⟩ := hn
    exact (hwritten m hm).follow _
  · exact hwritten n hn

/-- The call that announces a node leaves it active. -/
theorem follows_announce (own : o.registry.OwnIds) (profile : NodeProfile)
    (initialStatus : NodeStatus ℚ) (now : Instant) {n : NodeEntry ℚ}
    (hn : (o.perform env (.announce id profile initialStatus now)).1.registry.get id = some n) :
    n.Follows profile false := by
  have own' := Op.written_ownIds own (Op.announce (P := P) (B := B) id profile initialStatus now)
  obtain ⟨registry, hready, hget⟩ := o.registry.markReady_register id profile initialStatus now
  have hwritten : (Op.announce (P := P) (B := B) id profile initialStatus now).written o =
      registry := by
    simp only [Op.written, hready, Except.toOption, Option.getD_some]
  rw [hwritten] at own'
  rw [perform_of_rebalances env rfl, hwritten, rebalance_get env o own', hget, if_pos rfl] at hn
  cases hn
  -- the node can accept tasks, so the rebalance of the call hands out layers to it
  rcases follow_layerPlan o.totalModelLayers.toNat_lt
    (NodeRegistry.readyEntry id profile initialStatus now) with ⟨hnone, -⟩ | ⟨layers, -, heq⟩
  · have hmem := NodeRegistry.mem_sortedByCapacity_iff.2
      ⟨⟨id, (hget id).trans (if_pos rfl)⟩, (rfl : NodeState.ready.canAcceptTasks = true)⟩
    exact absurd hmem hnone
  · dsimp only
    rw [heq]
    exact ⟨rfl, rfl, rfl⟩

theorem ownIds_run (own : o.registry.OwnIds) (ops : List (Op ℚ P B)) :
    ((machine env).run o ops).registry.OwnIds := by
  have preserved : ∀ (o : Orchestrator ℚ P B) (op : Op ℚ P B), o.registry.OwnIds → True →
      ((machine env).step o op).1.registry.OwnIds := fun _ op own _ => perform_ownIds env own op
  exact (machine env).invariant preserved own
    ((machine env).guarded_of_forall o fun _ (_ : _ ∈ ops) => trivial)

/-- After a join and calls that do not announce the node again, its state is the position of the
switch over its updates. -/
theorem follows_run (own : o.registry.OwnIds) (initialStatus : NodeStatus ℚ) (now : Instant)
    (ops : List (Op ℚ P B)) (hother : ∀ op ∈ ops, op.announces id = false) {n : NodeEntry ℚ}
    (hn : ((machine env).run o
      (.announce id profile initialStatus now :: ops)).registry.get id = some n) :
    n.Follows profile
      ((ops.filterMap (Op.updatedComposite profile id)).foldl (switch 0.1 0.15) false) := by
  induction ops using List.reverseRecOn generalizing n with
  | nil => exact follows_announce env own profile initialStatus now hn
  | append_singleton ops op ih =>
    rw [← List.cons_append, Mealy.run_concat] at hn
    have hops (m : NodeEntry ℚ) (hm : ((machine env).run o
        (.announce id profile initialStatus now :: ops)).registry.get id = some m) :=
      ih (fun op hop => hother op (List.mem_append_left _ hop)) hm
    have own' := ownIds_run env own (.announce id profile initialStatus now :: ops)
    have h := follows_perform env own' hops (hother op (by simp)) hn
    rw [List.filterMap_append, List.foldl_append]
    cases hop : op.updatedComposite profile id with
    | none => simpa [hop] using h
    | some composite => simpa [hop] using h

/-- As long as a node is registered and not announced again, it is degraded if and only if some
update of it since its join has given a composite below `0.1` and no later one has given `0.15` or
more, and it is active otherwise. -/
theorem degraded_iff_lowSince (total : UInt32) (sharedSecret : String) (clusterKey : B)
    (before : List (Op ℚ P B)) (id : String) (profile : NodeProfile)
    (initialStatus : NodeStatus ℚ) (now : Instant) (ops : List (Op ℚ P B))
    (hother : ∀ op ∈ ops, op.announces id = false) {n : NodeEntry ℚ}
    (hn : ((machine env).run (new total sharedSecret clusterKey)
      (before ++ .announce id profile initialStatus now :: ops)).registry.get id = some n) :
    (n.state = .degraded ↔
        LowSince 0.1 0.15 (ops.filterMap (Op.updatedComposite profile id))) ∧
      (n.state ≠ .degraded → n.state = .active) := by
  rw [Mealy.run_append] at hn
  have own : ((machine env).run (new total sharedSecret clusterKey) before).registry.OwnIds :=
    ownIds_of_reachable env ⟨before, rfl⟩
  have hstate := (follows_run env own initialStatus now ops hother hn).state_eq
  rw [hstate, ← foldl_switch_iff (by norm_num)]
  cases (ops.filterMap (Op.updatedComposite profile id)).foldl (switch 0.1 0.15) false with
  | false => exact ⟨by decide, fun _ => rfl⟩
  | true => exact ⟨by decide, fun h => absurd rfl h⟩

/-! ## Two updates -/

/-- A node that gets busy and then a little less busy, while another one joins. -/
def busyAndRecovering : List (Op ℚ Ed25519PeerId Bytes) :=
  [.statusUpdate peerA (makeStatus 0.7 2048) 1,
    .announce peerB (makeProfile "host-b" .desktop) (makeStatus 0.2 12000) 2,
    .statusUpdate peerA (makeStatus 0.6 2048) 3]

theorem degraded_iff_lowSince_two_updates :
    ∃ n, ((machine Platform.reference).run (new 32 "secret" []) ([] ++
        .announce peerA (makeProfile "host-a" .desktop) (makeStatus 0.2 12000) 0 ::
          busyAndRecovering)).registry.get peerA = some n ∧
      (n.state = .degraded ↔ LowSince 0.1 0.15 (busyAndRecovering.filterMap
        (Op.updatedComposite (makeProfile "host-a" .desktop) peerA))) ∧
      (n.state ≠ .degraded → n.state = .active) := by
  have hsome : (((machine Platform.reference).run (new 32 "secret" []) ([] ++
      .announce peerA (makeProfile "host-a" .desktop) (makeStatus 0.2 12000) 0 ::
        busyAndRecovering)).registry.get peerA).isSome = true := by decide +kernel
  obtain ⟨n, hn⟩ := Option.isSome_iff_exists.1 hsome
  exact ⟨n, hn, degraded_iff_lowSince Platform.reference 32 "secret" [] [] peerA
    (makeProfile "host-a" .desktop) (makeStatus 0.2 12000) 0 busyAndRecovering
    (by decide +kernel) hn⟩

end Orchestrator

end NeuralSwarm
