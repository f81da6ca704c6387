import Mathlib.Algebra.Order.Group.Abs
import Mathlib.Tactic.Linarith
import NeuralSwarm.Run

/-!
# Capacity between two rebalances

A status update is compared with the one before it, not with the capacity that the layers were
computed from.  A history variable keeps the composites of the last rebalance and counts the status
updates since: every update that does not rebalance adds at most `0.15` to the distance.
Composites are exact rationals here.
-/

namespace NeuralSwarm

variable {P S B : Type}

/-- What the last rebalance used, and what has happened since. -/
structure LastRebalance where
  /-- The composite of each node that took part. -/
  composite : String → Option ℚ
  /-- The status updates of each node since. -/
  updates : String → ℕ

namespace LastRebalance

def none : LastRebalance := ⟨fun _ => .none, fun _ => 0⟩

/-- The history after one call: a rebalance reads the nodes that can accept tasks. -/
def note (h : LastRebalance) (o : Orchestrator ℚ P B) (op : Op ℚ P B) (_ : Reply ℚ P B) :
    LastRebalance :=
  if op.rebalances o then
    { composite := fun id =>
        (((op.written o).get id).filter (·.state.canAcceptTasks)).map (·.capacity.composite)
      updates := fun _ => 0 }
  else
    match op with
    | .statusUpdate deviceId _ _ =>
      { h with updates := fun id => if id = deviceId then h.updates id + 1 else h.updates id }
    | _ => h

end LastRebalance

namespace Orchestrator

variable (env : Platform P S B)

/-- The orchestrator with the history of its last rebalance. -/
def remembering : Mealy (Orchestrator ℚ P B × LastRebalance) (Op ℚ P B) (Reply ℚ P B) :=
  (machine env).observe LastRebalance.note

/-- The composite of every node that can accept tasks is within `bound` of the one that the last
rebalance used for it, if it used one. -/
def DriftWithin (bound : String → ℚ) (x : Orchestrator ℚ P B × LastRebalance) : Prop :=
  ∀ id n c, x.1.registry.get id = some n → n.state.canAcceptTasks = true →
    x.2.composite id = some c → |n.capacity.composite - c| ≤ bound id

/-- The same for every registered node, with `0.15` for each of its updates since. -/
def DriftPerUpdate (x : Orchestrator ℚ P B × LastRebalance) : Prop :=
  ∀ id n c, x.1.registry.get id = some n → x.2.composite id = some c →
    |n.capacity.composite - c| ≤ 0.15 * x.2.updates id

variable {x : Orchestrator ℚ P B × LastRebalance}

/-- An update that does not rebalance moves the composite by at most `0.15`. -/
theorem abs_sub_le_of_not_rebalances {o : Orchestrator ℚ P B} {deviceId : String}
    {status : NodeStatus ℚ} {now : Instant} {n : NodeEntry ℚ}
    (h : (Op.statusUpdate deviceId status now : Op ℚ P B).rebalances o = false)
    (hget : o.registry.get deviceId = some n) :
    |(n.withStatus status now).capacity.composite - n.capacity.composite| ≤ 0.15 := by
  simp only [Op.rebalances, NodeRegistry.updateStatus, hget, decide_eq_false_iff_not] at h
  exact not_lt.1 h

theorem driftPerUpdate_step (own : x.1.registry.OwnIds) (drift : DriftPerUpdate x)
    (op : Op ℚ P B) : DriftPerUpdate ((remembering env).step x op).1 := by
  intro id n c hget hused
  have hget : (x.1.perform env op).1.registry.get id = some n := hget
  rw [perform_registry] at hget
  simp only [remembering, Mealy.observe, LastRebalance.note] at hused ⊢
  cases hop : op.rebalances x.1 with
  | true =>
    simp only [hop, if_true] at hget hused ⊢
    rw [rebalance_get env x.1 (Op.written_ownIds own op), Option.map_eq_some_iff] at hget
    obtain ⟨m, hm, rfl⟩ := hget
    rw [hm] at hused
    obtain ⟨m', hm', rfl⟩ := Option.map_eq_some_iff.1 hused
    cases (Option.filter_eq_some_iff.1 hm').1
    simp [NodeEntry.follow_capacity]
  | false =>
    simp only [hop, Bool.false_eq_true, if_false] at hget hused ⊢
    rcases Op.written_of_not_rebalances hop with hempty | hrewrite
    · rw [hempty id] at hget
      cases hget
    · rw [hrewrite] at hget
      have hlookup := (AList.lookup_mapValues op.rewrite x.1.registry.nodes id).symm.trans hget
      obtain ⟨m, hm, rfl⟩ := Option.map_eq_some_iff.1 hlookup
      cases op with
      | statusUpdate deviceId status now =>
        have hbefore := drift id m c hm hused
        by_cases hid : id = deviceId
        · subst hid
          have hstep := abs_sub_le_of_not_rebalances hop hm
          have htriangle := abs_sub_le (m.withStatus status now).capacity.composite
            m.capacity.composite c
          simp only [Op.rewrite, if_true]
          push_cast
          linarith
        · simpa only [Op.rewrite, if_neg hid] using hbefore
      | heartbeat deviceId now =>
        have hbefore := drift id m c hm hused
        simp only [Op.rewrite]
        split_ifs <;> exact hbefore
      | announce => cases hop
      | _ => exact drift id m c hm hused

/-- In every run, a node that can accept tasks has moved since the last rebalance by at most `0.15`
for each of its status updates. -/
theorem driftWithin_run (total : UInt32) (sharedSecret : String) (clusterKey : B)
    (ops : List (Op ℚ P B)) :
    let x := (remembering env).run (new total sharedSecret clusterKey, .none) ops
    DriftWithin (fun id => 0.15 * x.2.updates id) x := by
  have preserved : ∀ (x : Orchestrator ℚ P B × LastRebalance) (op : Op ℚ P B),
      x.1.registry.OwnIds ∧ DriftPerUpdate x → True →
        ((remembering env).step x op).1.1.registry.OwnIds ∧
          DriftPerUpdate ((remembering env).step x op).1 :=
    fun x op h _ => ⟨perform_ownIds env h.1 op, driftPerUpdate_step env h.1 h.2 op⟩
  have initial : DriftPerUpdate ((new total sharedSecret clusterKey : Orchestrator ℚ P B),
      LastRebalance.none) := by
    rintro _ _ _ ⟨⟩
  have h := (remembering env).invariant preserved ⟨NodeRegistry.ownIds_empty, initial⟩
    ((remembering env).guarded_of_forall _ fun _ (_ : _ ∈ ops) => trivial)
  intro _ id n c hget _ hused
  exact h.2 id n c hget hused

/-! ## Two small steps -/

/-- A node announces itself and then sends two updates, each by less than `0.15` better. -/
def smallSteps : List (Op ℚ Ed25519PeerId Bytes) :=
  [.announce peerA (makeProfile "host-a" .desktop) (makeStatus 0.4 12000) 0,
    .statusUpdate peerA (makeStatus 0.2 12000) 1, .statusUpdate peerA (makeStatus 0 12000) 2]

/-- No rebalance follows, and the node is `0.24` away from the composite of its layers. -/
theorem not_driftWithin_small_steps :
    ¬ DriftWithin (fun _ => 0.15)
      ((remembering Platform.reference).run (new 32 "secret" [], .none) smallSteps) := by
  intro h
  have hnode : (((remembering Platform.reference).run (new 32 "secret" [], .none) smallSteps
      ).1.registry.get peerA).map (fun n => (n.state.canAcceptTasks, n.capacity.composite)) =
        some (true, 0.72296875) := by decide +kernel
  have hused : ((remembering Platform.reference).run (new 32 "secret" [], .none) smallSteps
      ).2.composite peerA = some 0.48296875 := by decide +kernel
  obtain ⟨n, hget, hn⟩ := Option.map_eq_some_iff.1 hnode
  obtain ⟨haccepts, hcomposite⟩ := Prod.mk.inj hn
  have hdrift := h peerA n _ hget haccepts hused
  rw [hcomposite] at hdrift
  exact absurd hdrift (by decide +kernel)

end Orchestrator

end NeuralSwarm
