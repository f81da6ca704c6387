import NeuralSwarm.Duplicates

/-!
# Calls that are refused

Every check of `start_sequence`, `handle_task_result` and `handle_status_update` comes before the
first write, so a refused call leaves the orchestrator as it was.  A result that is accepted changes
the sequence of its task and nothing else.
-/

namespace NeuralSwarm

variable {F P S B : Type}

/-- What an accepted result leaves of the sequence of its task. -/
def PipelineResult.sequenceAfter (state : SequenceState) :
    PipelineResult F P B → Option SequenceState
  | .nextStage .. => some { state with currentNodeIndex := state.currentNodeIndex + 1 }
  | .finished _ => none

namespace Orchestrator

variable {env : Platform P S B} {o : Orchestrator F P B}

/-- A result that is not accepted changes nothing. -/
theorem handleTaskResult_of_refused {msg : SwarmMessage F P B}
    (h : ∀ x, (o.handleTaskResult env msg).2 ≠ .ok (some x)) :
    (o.handleTaskResult env msg).1 = o := by
  cases msg with
  | taskResult result =>
    rcases handleTaskResult_cases env o result with
      ⟨state, peer, n, hlookup, hsequence, hstage, hget⟩ | ⟨state, hlookup, hsequence, hstage⟩ |
        hnone
    · rw [handleTaskResult_of_next hlookup hsequence hstage hget] at h
      exact absurd rfl (h _)
    · rw [handleTaskResult_of_last hlookup hsequence hstage] at h
      exact absurd rfl (h _)
    · rw [hnone]
  | _ => rfl

/-- An accepted result belongs to an active sequence, which advances or ends; the other sequences
and the rest of the state are as before. -/
theorem handleTaskResult_of_accepted {msg : SwarmMessage F P B} {x : PipelineResult F P B}
    (h : (o.handleTaskResult env msg).2 = .ok (some x)) :
    ∃ result state activeSequences, msg = .taskResult result ∧
      o.pipeline.activeSequences.lookup result.taskId = some state ∧
      (o.handleTaskResult env msg).1 = o.withSequences activeSequences ∧
      ∀ taskId, activeSequences.lookup taskId =
        if taskId = result.taskId then x.sequenceAfter state
        else o.pipeline.activeSequences.lookup taskId := by
  cases msg with
  | taskResult result =>
    rcases handleTaskResult_cases env o result with
      ⟨state, peer, n, hlookup, hsequence, hstage, hget⟩ | ⟨state, hlookup, hsequence, hstage⟩ |
        hnone
    · rw [handleTaskResult_of_next hlookup hsequence hstage hget] at h ⊢
      cases h
      refine ⟨result, state, _, rfl, hlookup, rfl, fun taskId => ?_⟩
      split_ifs with heq
      · rw [heq]
        exact AList.lookup_insert _
      · exact AList.lookup_insert_ne heq
    · rw [handleTaskResult_of_last hlookup hsequence hstage] at h ⊢
      cases h
      refine ⟨result, state, _, rfl, hlookup, rfl, fun taskId => ?_⟩
      split_ifs with heq
      · rw [heq]
        exact AList.lookup_erase _ _
      · exact AList.lookup_erase_ne heq
    · rw [hnone] at h
      cases h
  | _ => cases h

variable [Scalar F]

/-- A sequence that is not started leaves no trace. -/
theorem startSequence_of_refused {rng : Entropy} {sequenceId : ℕ} {taskId : String}
    {tokens : List ℤ} {initialState : B}
    (h : ∀ x, (o.startSequence env rng sequenceId taskId tokens initialState).2 ≠ .ok (some x)) :
    (o.startSequence env rng sequenceId taskId tokens initialState).1 = o := by
  rcases startSequence_cases env o rng sequenceId taskId tokens initialState with
    ⟨n, rest, peer, sealed, hsorted, hparse, hstages, hseal⟩ | ⟨hsame, -⟩
  · rw [startSequence_of_sorted env hsorted hparse hstages hseal] at h
    exact absurd rfl (h _)
  · exact hsame

/-- A status update fails only for an unknown node. -/
theorem handleStatusUpdate_of_error {deviceId : String} {status : NodeStatus F} {now : Instant}
    {e : String} (h : (o.handleStatusUpdate env deviceId status now).2 = .error e) :
    (o.handleStatusUpdate env deviceId status now).1 = o := by
  unfold handleStatusUpdate NodeRegistry.updateStatus at h ⊢
  cases hget : o.registry.get deviceId with
  | none => rfl
  | some entry =>
    simp only [hget] at h
    split_ifs at h

variable (env o)

/-- A refused call changes nothing, an accepted result nothing but the sequence of its task. -/
theorem refused_unchanged :
    (∀ rng sequenceId taskId tokens initialState,
      (∀ x, (o.startSequence env rng sequenceId taskId tokens initialState).2 ≠ .ok (some x)) →
        (o.startSequence env rng sequenceId taskId tokens initialState).1 = o) ∧
    (∀ msg, (∀ x, (o.handleTaskResult env msg).2 ≠ .ok (some x)) →
      (o.handleTaskResult env msg).1 = o) ∧
    (∀ deviceId status now e, (o.handleStatusUpdate env deviceId status now).2 = .error e →
      (o.handleStatusUpdate env deviceId status now).1 = o) ∧
    ∀ msg x, (o.handleTaskResult env msg).2 = .ok (some x) →
      ∃ result state activeSequences, msg = .taskResult result ∧
        o.pipeline.activeSequences.lookup result.taskId = some state ∧
        (o.handleTaskResult env msg).1 = o.withSequences activeSequences ∧
        ∀ taskId, activeSequences.lookup taskId =
          if taskId = result.taskId then x.sequenceAfter state
          else o.pipeline.activeSequences.lookup taskId :=
  ⟨fun _ _ _ _ _ => startSequence_of_refused, fun _ => handleTaskResult_of_refused,
    fun _ _ _ _ => handleStatusUpdate_of_error, fun _ _ => handleTaskResult_of_accepted⟩

/-! ## A task on two stages -/

theorem isEd25519Text_peerB : isEd25519Text peerB = true := by decide +kernel

/-- The first result of a task on two stages moves it to stage `1`. -/
theorem refused_unchanged_two_stages :
    let o := (machine Platform.reference).run (new 32 "secret" []) (twoPeers ++ [startTask])
    ∃ result state activeSequences,
      (.taskResult taskAnswer : SwarmMessage Float32 Ed25519PeerId Bytes) = .taskResult result ∧
        o.pipeline.activeSequences.lookup result.taskId = some state ∧
        (o.handleTaskResult Platform.reference (.taskResult taskAnswer)).1 =
          o.withSequences activeSequences ∧
        ∀ taskId, activeSequences.lookup taskId =
          if taskId = result.taskId then
            (PipelineResult.nextStage ⟨peerB, isEd25519Text_peerB⟩ (.processTask secondTask) :
              PipelineResult Float32 Ed25519PeerId Bytes).sequenceAfter state
          else o.pipeline.activeSequences.lookup taskId :=
  (refused_unchanged Platform.reference ((machine Platform.reference).run (new 32 "secret" [])
    (twoPeers ++ [startTask]))).2.2.2 (.taskResult taskAnswer) _ (by decide +kernel)

end Orchestrator

end NeuralSwarm
