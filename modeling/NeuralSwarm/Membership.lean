import NeuralSwarm.Basic.Lease
import NeuralSwarm.Run

/-!
# Who is registered

An entry of the registry is a lease: an announcement grants it, status updates and heartbeats renew
it, a drain revokes it and a prune reviews it.  So a node is registered if and only if it announced
itself and has neither been drained since nor been silent for too long when a prune came by, and its
entry holds what it said last (`registered_iff`).  The layers and the lifecycle state of the entry
are left to the rebalance.
-/

namespace NeuralSwarm

variable {F P S B : Type}

/-- An entry but for its layers and its lifecycle state. -/
structure Member (F : Type) where
  profile : NodeProfile
  status : NodeStatus F
  capacity : EffectiveCapacity F
  reservation : ResourceReservation F
  lastHeartbeat : Instant
  deriving DecidableEq

def NodeEntry.member (entry : NodeEntry F) : Member F :=
  { profile := entry.profile
    status := entry.status
    capacity := entry.capacity
    reservation := entry.reservation
    lastHeartbeat := entry.lastHeartbeat }

@[simp] theorem NodeEntry.member_follow (plan : List (String × List ℕ)) (n : NodeEntry F) :
    (n.follow plan).member = n.member := by
  unfold follow
  split <;> rfl

/-- The operation announces the node anew, or drains it. -/
def Op.EndsMembership (id : String) : Op F P B → Prop
  | announce deviceId .. | drain deviceId => deviceId = id
  | _ => False

instance (id : String) : ∀ op : Op F P B, Decidable (op.EndsMembership id)
  | .announce deviceId .. | .drain deviceId => inferInstanceAs (Decidable (deviceId = id))
  | .statusUpdate .. | .heartbeat .. | .prune .. | .startSequence .. | .taskResult _ =>
    .isFalse fun h => h

variable [Scalar F]

namespace Member

/-- A node that has just announced itself. -/
def announced (profile : NodeProfile) (initialStatus : NodeStatus F) (now : Instant) : Member F :=
  { profile
    status := initialStatus
    capacity := .compute profile initialStatus (.forDevice profile.deviceType)
    reservation := .forDevice profile.deviceType
    lastHeartbeat := now }

/-- What is known of the node `id` after an operation. -/
def hear (id : String) (member : Member F) : Op F P B → Member F
  | .statusUpdate deviceId status now =>
    if deviceId = id then
      { member with
        status
        capacity := .compute member.profile status member.reservation
        lastHeartbeat := now }
    else member
  | .heartbeat deviceId now =>
    if deviceId = id then { member with lastHeartbeat := now } else member
  | _ => member

/-- What is known of the node `id` after some operations. -/
def heard (id : String) (member : Member F) (ops : List (Op F P B)) : Member F :=
  ops.foldl (hear id) member

end Member

/-- What an operation does to the entry of the node `id`, as a lease. -/
def Op.lease (id : String) (op : Op F P B) : LeaseAction (Member F) :=
  match op with
  | announce deviceId profile initialStatus now =>
    if deviceId = id then .grant (.announced profile initialStatus now) else .renew (·.hear id op)
  | drain deviceId => if deviceId = id then .revoke else .renew (·.hear id op)
  | prune timeoutSecs now =>
    .review fun member => (now - member.lastHeartbeat) / 10 ^ 9 ≤ timeoutSecs
  | _ => .renew (·.hear id op)

/-! ## One operation -/

theorem Op.lease_renewal (id : String) (op : Op F P B) (member : Member F) :
    (op.lease id).renewal member = member.hear id op := by
  cases op <;> simp only [lease] <;> first | rfl | split_ifs <;> rfl

theorem Op.lease_admits_iff (id : String) (op : Op F P B) (member : Member F) :
    (op.lease id).admits member ↔ ¬ op.EndsMembership id ∧
      ∀ timeoutSecs now, op = .prune timeoutSecs now →
        (now - member.lastHeartbeat) / 10 ^ 9 ≤ timeoutSecs := by
  cases op with
  | announce deviceId | drain deviceId =>
    simp only [lease, EndsMembership]
    split_ifs with hid <;> simp [LeaseAction.admits, hid]
  | prune timeoutSecs now =>
    simp [lease, EndsMembership, LeaseAction.admits]
  | statusUpdate | heartbeat | startSequence | taskResult =>
    simp [lease, EndsMembership, LeaseAction.admits]

omit [Scalar F] in
theorem mem_deadIds_iff {o : Orchestrator F P B} {timeoutSecs : ℕ} {now : Instant} {id : String} :
    id ∈ o.deadIds timeoutSecs now ↔ ∃ entry, o.registry.get id = some entry ∧
      (now - entry.lastHeartbeat) / 10 ^ 9 > timeoutSecs := by
  simp only [Orchestrator.deadIds, List.mem_map, List.mem_filter, decide_eq_true_iff]
  constructor
  · rintro ⟨⟨key, entry⟩, ⟨hmem, hdead⟩, rfl⟩
    exact ⟨entry, AList.mem_lookup_iff.2 hmem, hdead⟩
  · rintro ⟨entry, hget, hdead⟩
    exact ⟨⟨id, entry⟩, ⟨AList.mem_lookup_iff.1 hget, hdead⟩, rfl⟩

theorem Op.lease_eq_grant_iff {id : String} {op : Op F P B} {member : Member F} :
    op.lease id = .grant member ↔ ∃ profile initialStatus now,
      op = .announce id profile initialStatus now ∧
        member = .announced profile initialStatus now := by
  cases op with
  | announce deviceId profile initialStatus now =>
    by_cases hid : deviceId = id
    · subst hid
      simp only [lease, if_true, LeaseAction.grant.injEq, announce.injEq, true_and]
      constructor
      · rintro rfl
        exact ⟨_, _, _, ⟨rfl, rfl, rfl⟩, rfl⟩
      · rintro ⟨_, _, _, ⟨rfl, rfl, rfl⟩, rfl⟩
        rfl
    · simp [lease, hid]
  | drain => simp only [lease]; split_ifs <;> simp
  | statusUpdate | heartbeat | prune | startSequence | taskResult => simp [lease]

theorem Op.renewed_lease (id : String) (member : Member F) (ops : List (Op F P B)) :
    LeaseAction.renewed (Op.lease id) member ops = member.heard id ops := by
  have hrenewal : (fun member (op : Op F P B) => (op.lease id).renewal member) = .hear id :=
    funext₂ fun member op => op.lease_renewal id member
  rw [LeaseAction.renewed, hrenewal]
  rfl

theorem Op.survives_lease_iff {id : String} {member : Member F} {ops : List (Op F P B)} :
    LeaseAction.Survives (Op.lease id) member ops ↔ (∀ op ∈ ops, ¬ op.EndsMembership id) ∧
      ∀ earlier timeoutSecs moment later, ops = earlier ++ .prune timeoutSecs moment :: later →
        (moment - (member.heard id earlier).lastHeartbeat) / 10 ^ 9 ≤ timeoutSecs := by
  simp only [LeaseAction.Survives, lease_admits_iff, renewed_lease]
  constructor
  · intro h
    refine ⟨fun op hop => ?_, fun earlier timeoutSecs moment later heq => ?_⟩
    · obtain ⟨earlier, later, heq⟩ := List.append_of_mem hop
      exact (h earlier op later heq).1
    · exact (h earlier _ later heq).2 timeoutSecs moment rfl
  · rintro ⟨hends, hpruned⟩ earlier op later heq
    refine ⟨hends op (by simp [heq]), fun timeoutSecs moment hop => ?_⟩
    subst hop
    exact hpruned earlier timeoutSecs moment later heq

/-- The writes of an operation act on the entries as on leases. -/
theorem Op.member_written (o : Orchestrator F P B) (op : Op F P B) (id : String) :
    ((op.written o).get id).map (·.member) =
      (op.lease id).apply ((o.registry.get id).map (·.member)) := by
  cases op with
  | announce deviceId profile initialStatus now =>
    obtain ⟨registry, hready, hget⟩ :=
      o.registry.markReady_register deviceId profile initialStatus now
    simp only [written, hready, Except.toOption, Option.getD_some, hget, lease]
    by_cases hid : deviceId = id
    · subst hid
      rw [if_pos rfl, if_pos rfl]
      rfl
    · rw [if_neg (Ne.symm hid), if_neg hid]
      exact (LeaseAction.apply_renew_id _).symm
  | statusUpdate deviceId status now =>
    rw [written, NodeRegistry.get_modify]
    simp only [lease, LeaseAction.apply, Option.map_map]
    congr 1
    funext entry
    by_cases hid : deviceId = id
    · subst hid
      simp [Member.hear, NodeEntry.withStatus, NodeEntry.member]
    · simp [Member.hear, hid, Ne.symm hid]
  | drain deviceId =>
    rw [written, NodeRegistry.get_remove, lease]
    by_cases hid : deviceId = id
    · rw [if_pos hid.symm, if_pos hid]
      rfl
    · rw [if_neg (Ne.symm hid), if_neg hid]
      exact (LeaseAction.apply_renew_id _).symm
  | heartbeat deviceId now =>
    rw [written, NodeRegistry.heartbeat, NodeRegistry.get_modify]
    simp only [lease, LeaseAction.apply, Option.map_map]
    congr 1
    funext entry
    by_cases hid : deviceId = id
    · subst hid
      simp [Member.hear, NodeEntry.member]
    · simp [Member.hear, hid, Ne.symm hid]
  | prune timeoutSecs now =>
    rw [written, NodeRegistry.get_foldl_remove]
    have hdead : id ∈ o.deadIds timeoutSecs now ↔ _ := mem_deadIds_iff
    cases hget : o.registry.get id with
    | none => split_ifs <;> rfl
    | some entry =>
      simp only [hget, Option.some.injEq, exists_eq_left'] at hdead
      by_cases hlate : (now - entry.lastHeartbeat) / 10 ^ 9 ≤ timeoutSecs
      · rw [if_neg fun h => absurd (hdead.1 h) (by omega)]
        simp only [lease, LeaseAction.apply, NodeEntry.member, Option.map_some, Option.filter_some,
          hlate, decide_true, if_true]
      · rw [if_pos (hdead.2 (by omega))]
        simp only [lease, LeaseAction.apply, NodeEntry.member, Option.map_some, Option.map_none,
          Option.filter_some, hlate, decide_false, Bool.false_eq_true, if_false]
  | startSequence | taskResult => exact (LeaseAction.apply_renew_id _).symm

/-! ## A run -/

namespace Orchestrator

variable (env : Platform P S B)

theorem perform_member {o : Orchestrator F P B} (own : o.registry.OwnIds) (op : Op F P B)
    (id : String) : ((o.perform env op).1.registry.get id).map (·.member) =
      (op.lease id).apply ((o.registry.get id).map (·.member)) := by
  rw [← op.member_written o, perform_registry]
  split_ifs
  · rw [rebalance_get env o (op.written_ownIds own), Option.map_map]
    exact congrArg (Option.map · _) (funext fun n => n.member_follow _)
  · rfl

/-- A node is registered if and only if it has announced itself, has since neither announced itself
again nor been drained, and whenever dead nodes were pruned its last sign of life was recent enough;
what is known of it is what it announced, and what it has reported since. -/
theorem registered_iff (total : UInt32) (sharedSecret : String) (clusterKey : B)
    (ops : List (Op F P B)) (id : String) (member : Member F) :
    (((machine env).run (new total sharedSecret clusterKey) ops).registry.get id).map (·.member) =
        some member ↔
      ∃ before profile initialStatus now after,
        ops = before ++ .announce id profile initialStatus now :: after ∧
        (∀ op ∈ after, ¬ op.EndsMembership id) ∧
        (∀ earlier timeoutSecs moment later,
          after = earlier ++ .prune timeoutSecs moment :: later →
            (moment - ((Member.announced profile initialStatus now).heard id
              earlier).lastHeartbeat) / 10 ^ 9 ≤ timeoutSecs) ∧
        member = (Member.announced profile initialStatus now).heard id after := by
  have preserved : ∀ (o : Orchestrator F P B) (op : Op F P B), o.registry.OwnIds →
      ((machine env).step o op).1.registry.OwnIds := fun _ op own => perform_ownIds env own op
  have acts : ∀ (o : Orchestrator F P B) (op : Op F P B), o.registry.OwnIds →
      (((machine env).step o op).1.registry.get id).map (·.member) =
        (op.lease id).apply ((o.registry.get id).map (·.member)) :=
    fun _ op own => perform_member env own op id
  have hnone : ((new total sharedSecret clusterKey : Orchestrator F P B).registry.get id).map
      (·.member) = none := rfl
  have hrun := (machine env).run_eq_held (fun o => (o.registry.get id).map (·.member))
    (fun i => i.1.lease id) preserved acts NodeRegistry.ownIds_empty hnone ops
  rw [hrun, ← LeaseAction.held_map, Mealy.map_fst_trace, LeaseAction.held_eq_some_iff]
  constructor
  · rintro ⟨before, op, granted, after, rfl, hgrant, hsurvives, rfl⟩
    obtain ⟨profile, initialStatus, now, rfl, rfl⟩ := Op.lease_eq_grant_iff.1 hgrant
    obtain ⟨hends, hpruned⟩ := Op.survives_lease_iff.1 hsurvives
    exact ⟨before, profile, initialStatus, now, after, rfl, hends, hpruned,
      Op.renewed_lease ..⟩
  · rintro ⟨before, profile, initialStatus, now, after, rfl, hends, hpruned, rfl⟩
    refine ⟨before, _, _, after, rfl, ?_, Op.survives_lease_iff.2 ⟨hends, hpruned⟩,
      Op.renewed_lease ..⟩
    exact Op.lease_eq_grant_iff.2 ⟨profile, initialStatus, now, rfl, rfl⟩

end Orchestrator

end NeuralSwarm
