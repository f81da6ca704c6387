import Mathlib.Data.List.Induction
import NeuralSwarm.Basic.Lease
import NeuralSwarm.Sequences

/-!
# Which sequences are active

An active sequence is a lease as well: a start grants it, a result that is answered by the next
stage renews it, and one that finishes the sequence revokes it.  Nothing else touches it: the active
sequences after a run can be read off the calls about sequences and their answers
(`active_iff`), and a sequence whose last result never arrives stays active.
-/

namespace NeuralSwarm

variable {F P S B : Type}

/-- A call and its answer. -/
abbrev Exchange (F P B : Type) := Op F P B × Reply F P B

namespace Exchange

/-- The state that the sequence of a task is started with. -/
def starts? (taskId : String) : Exchange F P B → Option SequenceState
  | (.startSequence _ sequenceId id tokens _, .started (.ok (some _))) =>
    if id = taskId then some { sequenceId, taskId, tokens, currentNodeIndex := 0 } else none
  | _ => none

/-- A result of the task is answered by its next stage. -/
def advances (taskId : String) : Exchange F P B → Bool
  | (.taskResult (.taskResult result), .advanced (.ok (some (.nextStage ..)))) =>
    result.taskId == taskId
  | _ => false

/-- A result of the task finishes its sequence. -/
def finishes (taskId : String) : Exchange F P B → Bool
  | (.taskResult (.taskResult result), .advanced (.ok (some (.finished _)))) =>
    result.taskId == taskId
  | _ => false

/-- What the exchange does to the active sequence of a task. -/
def lease (taskId : String) (x : Exchange F P B) : LeaseAction SequenceState :=
  match x.starts? taskId with
  | some state => .grant state
  | none =>
    if x.finishes taskId then .revoke
    else if x.advances taskId then
      .renew fun state => { state with currentNodeIndex := state.currentNodeIndex + 1 }
    else .renew fun state => state

variable {taskId : String} {x : Exchange F P B}

theorem lease_of_other (hstarts : x.starts? taskId = none) (hadvances : x.advances taskId = false)
    (hfinishes : x.finishes taskId = false) (lease : Option SequenceState) :
    (x.lease taskId).apply lease = lease := by
  simp only [Exchange.lease, hstarts, hfinishes, hadvances, Bool.false_eq_true, if_false,
    LeaseAction.apply_renew_id]

end Exchange

namespace Orchestrator

variable [Scalar F] (env : Platform P S B)

/-- Every call acts on the active sequences as on leases. -/
theorem perform_lookup (o : Orchestrator F P B) (op : Op F P B) (taskId : String) :
    (o.perform env op).1.pipeline.activeSequences.lookup taskId =
      (Exchange.lease taskId (op, (o.perform env op).2)).apply
        (o.pipeline.activeSequences.lookup taskId) := by
  cases op with
  | announce | statusUpdate | drain | heartbeat | prune =>
    rw [perform_activeSequences env rfl]
    exact (Exchange.lease_of_other rfl rfl rfl _).symm
  | startSequence rng sequenceId id tokens initialState =>
    rcases o.startSequence_cases env rng sequenceId id tokens initialState with
      ⟨n, rest, peer, sealed, hsorted, hparse, hstages, hseal⟩ | ⟨hsame, hnone⟩
    · have hstart := startSequence_of_sorted env hsorted hparse hstages hseal sequenceId tokens
      have hreply : (o.perform env (.startSequence rng sequenceId id tokens initialState)).2 =
          .started (o.startSequence env rng sequenceId id tokens initialState).2 := rfl
      rw [hreply]
      simp only [perform, hstart]
      by_cases hid : id = taskId
      · subst hid
        simp only [Exchange.lease, Exchange.starts?, if_true]
        exact AList.lookup_insert _
      · refine (AList.lookup_insert_ne (Ne.symm hid)).trans ?_
        refine (Exchange.lease_of_other ?_ rfl rfl _).symm
        exact if_neg hid
    · have hreply : (o.perform env (.startSequence rng sequenceId id tokens initialState)).2 =
          .started (o.startSequence env rng sequenceId id tokens initialState).2 := rfl
      have hstate : (o.perform env (.startSequence rng sequenceId id tokens initialState)).1 = o :=
        hsame
      rw [hreply, hstate]
      refine (Exchange.lease_of_other ?_ rfl rfl _).symm
      rcases hanswer : (o.startSequence env rng sequenceId id tokens initialState).2 with
        e | - | issued
      · rfl
      · rfl
      · exact absurd hanswer (hnone issued)
  | taskResult msg =>
    have hreply : (o.perform env (.taskResult msg)).2 =
      .advanced (o.handleTaskResult env msg).2 := rfl
    have hstate : (o.perform env (.taskResult msg)).1 = (o.handleTaskResult env msg).1 := rfl
    rw [hreply, hstate]
    cases msg with
    | taskResult result =>
      rcases handleTaskResult_cases env o result with
        ⟨state, peer, n, hlookup, hsequence, hstage, hget⟩ | ⟨state, hlookup, hsequence, hstage⟩ |
          hsame
      · rw [handleTaskResult_of_next hlookup hsequence hstage hget]
        by_cases hid : result.taskId = taskId
        · subst hid
          simp only [Exchange.lease, Exchange.starts?, Exchange.finishes, Exchange.advances,
            beq_self_eq_true, Bool.false_eq_true, if_true, if_false, hlookup]
          exact AList.lookup_insert _
        · refine (AList.lookup_insert_ne (Ne.symm hid)).trans ?_
          refine (Exchange.lease_of_other rfl ?_ rfl _).symm
          exact beq_false_of_ne hid
      · rw [handleTaskResult_of_last hlookup hsequence hstage]
        by_cases hid : result.taskId = taskId
        · subst hid
          simp only [Exchange.lease, Exchange.starts?, Exchange.finishes, beq_self_eq_true, if_true]
          exact AList.lookup_erase ..
        · refine (AList.lookup_erase_ne (Ne.symm hid)).trans ?_
          refine (Exchange.lease_of_other rfl rfl ?_ _).symm
          exact beq_false_of_ne hid
      · rw [hsame]
        exact (Exchange.lease_of_other rfl rfl rfl _).symm
    | _ => exact (Exchange.lease_of_other rfl rfl rfl _).symm

end Orchestrator

/-! ## A run -/

namespace Exchange

variable {taskId : String}

theorem lease_eq_grant_iff {x : Exchange F P B} {state : SequenceState} :
    x.lease taskId = .grant state ↔ x.starts? taskId = some state := by
  unfold lease
  rcases x.starts? taskId with - | started
  · split_ifs <;> simp
  · simp

theorem lease_admits_iff {x : Exchange F P B} {state : SequenceState} :
    (x.lease taskId).admits state ↔ x.starts? taskId = none ∧ x.finishes taskId = false := by
  unfold lease
  rcases x.starts? taskId with - | started
  · cases x.finishes taskId with
    | true => simp [LeaseAction.admits]
    | false =>
      simp only [Bool.false_eq_true, if_false, true_and, iff_true]
      split_ifs <;> trivial
  · simp [LeaseAction.admits]

theorem lease_renewal {x : Exchange F P B} (hstarts : x.starts? taskId = none)
    (hfinishes : x.finishes taskId = false) (state : SequenceState) :
    (x.lease taskId).renewal state =
      { state with
        currentNodeIndex := state.currentNodeIndex + if x.advances taskId then 1 else 0 } := by
  simp only [lease, hstarts, hfinishes, Bool.false_eq_true, if_false]
  split_ifs <;> rfl

theorem survives_lease_iff {state : SequenceState} {xs : List (Exchange F P B)} :
    LeaseAction.Survives (lease taskId) state xs ↔
      ∀ x ∈ xs, x.starts? taskId = none ∧ x.finishes taskId = false := by
  simp only [LeaseAction.Survives, lease_admits_iff]
  constructor
  · intro h x hx
    obtain ⟨before, after, rfl⟩ := List.append_of_mem hx
    exact h before x after rfl
  · rintro h before x after rfl
    exact h x (by simp)

/-- How far a sequence has come after exchanges that it survived. -/
theorem renewed_lease {state : SequenceState} {xs : List (Exchange F P B)}
    (h : ∀ x ∈ xs, x.starts? taskId = none ∧ x.finishes taskId = false) :
    LeaseAction.renewed (lease taskId) state xs =
      { state with
        currentNodeIndex := state.currentNodeIndex + xs.countP (·.advances taskId) } := by
  induction xs using List.reverseRecOn with
  | nil => rfl
  | append_singleton xs x ih =>
    obtain ⟨hstarts, hfinishes⟩ := h x (by simp)
    rw [LeaseAction.renewed_concat, ih fun y hy => h y (List.mem_append_left _ hy),
      lease_renewal hstarts hfinishes, List.countP_append, List.countP_singleton]
    simp only [Nat.add_assoc]

end Exchange

/-- A sequence is active if and only if a call started it and no later one has started it again or
finished it; it then has the id and the tokens of its start, and has come as many stages further as
results of it were answered by a next stage. -/
theorem active_iff [Scalar F] (env : Platform P S B) (total : UInt32) (sharedSecret : String)
    (clusterKey : B) (ops : List (Op F P B)) (taskId : String) (state : SequenceState) :
    let M := Orchestrator.machine env
    let init := Orchestrator.new total sharedSecret clusterKey
    (M.run init ops).pipeline.activeSequences.lookup taskId = some state ↔
      ∃ before start started after, M.trace init ops = before ++ start :: after ∧
        Exchange.starts? taskId start = some started ∧
        (∀ x ∈ after, Exchange.starts? taskId x = none ∧ Exchange.finishes taskId x = false) ∧
        state =
          { started with
            currentNodeIndex :=
              started.currentNodeIndex + after.countP (Exchange.advances taskId) } := by
  intro M init
  have hnone : init.pipeline.activeSequences.lookup taskId = none := rfl
  rw [M.run_eq_held (I := fun _ => True) (fun o => o.pipeline.activeSequences.lookup taskId)
    (Exchange.lease taskId) (fun _ _ _ => trivial)
    (fun o op _ => Orchestrator.perform_lookup env o op taskId) trivial hnone ops,
    LeaseAction.held_eq_some_iff]
  simp only [Exchange.lease_eq_grant_iff]
  constructor
  · rintro ⟨before, start, started, after, htrace, hstart, hsurvives, rfl⟩
    have hafter := Exchange.survives_lease_iff.1 hsurvives
    exact ⟨before, start, started, after, htrace, hstart, hafter, Exchange.renewed_lease hafter⟩
  · rintro ⟨before, start, started, after, htrace, hstart, hafter, rfl⟩
    exact ⟨before, start, started, after, htrace, hstart, Exchange.survives_lease_iff.2 hafter,
      Exchange.renewed_lease hafter⟩

end NeuralSwarm
