import NeuralSwarm.Run

/-!
# What a call about a sequence can do

`startSequence_cases` and `handleTaskResult_cases` list the outcomes of the two calls that touch the
active sequences: a task is issued, a sequence ends, or nothing changes.
-/

namespace NeuralSwarm

variable {F P S B : Type}

namespace InferencePipeline

/-- The task of the stage `index`, as the pipeline issues it. -/
def stageTask (pipeline : InferencePipeline P) (index : ℕ) (sequenceId : ℕ) (taskId : String)
    (tokens : List ℤ) (inputState : B) (layers : ℕ × ℕ) : ProcessTask P B :=
  { taskId
    sequenceId
    inputState
    startLayer := layers.1
    endLayer := layers.2
    tokens
    route := some { taskId, sequenceId, nodes := pipeline.pipelineStages, currentIndex := index } }

def withSequences (pipeline : InferencePipeline P)
    (activeSequences : AList fun _ : String => SequenceState) : InferencePipeline P :=
  { pipeline with activeSequences }

section TaskResult

variable {pipeline : InferencePipeline P} {result : TaskResult F B} {state : SequenceState}

theorem handleTaskResult_of_unknown (layers : ℕ × ℕ)
    (hlookup : pipeline.activeSequences.lookup result.taskId = none) :
    pipeline.handleTaskResult (.taskResult result : SwarmMessage F P B) layers =
      (pipeline, none) := by
  simp only [handleTaskResult, hlookup]

theorem handleTaskResult_of_mismatch (layers : ℕ × ℕ)
    (hlookup : pipeline.activeSequences.lookup result.taskId = some state)
    (hsequence : state.sequenceId ≠ result.sequenceId) :
    pipeline.handleTaskResult (.taskResult result : SwarmMessage F P B) layers =
      (pipeline, none) := by
  simp only [handleTaskResult, hlookup, ne_eq, hsequence, not_false_eq_true, if_true]

theorem handleTaskResult_of_next {peer : P} (layers : ℕ × ℕ)
    (hlookup : pipeline.activeSequences.lookup result.taskId = some state)
    (hsequence : state.sequenceId = result.sequenceId)
    (hstage : pipeline.pipelineStages[state.currentNodeIndex + 1]? = some peer) :
    pipeline.handleTaskResult (.taskResult result : SwarmMessage F P B) layers =
      (pipeline.withSequences (pipeline.activeSequences.insert result.taskId
          { state with currentNodeIndex := state.currentNodeIndex + 1 }),
        some (.nextStage peer (.processTask
          (pipeline.stageTask (state.currentNodeIndex + 1) result.sequenceId result.taskId
            state.tokens result.outputState layers)))) := by
  simp only [handleTaskResult, hlookup, hsequence, ne_eq, not_true, if_false, hstage]
  rfl

theorem handleTaskResult_of_last (layers : ℕ × ℕ)
    (hlookup : pipeline.activeSequences.lookup result.taskId = some state)
    (hsequence : state.sequenceId = result.sequenceId)
    (hstage : pipeline.pipelineStages[state.currentNodeIndex + 1]? = none) :
    pipeline.handleTaskResult (.taskResult result : SwarmMessage F P B) layers =
      (pipeline.withSequences (pipeline.activeSequences.erase result.taskId),
        some (.finished result.logits)) := by
  simp only [handleTaskResult, hlookup, hsequence, ne_eq, not_true, if_false, hstage]
  rfl

end TaskResult

theorem startSequence_of_stages {pipeline : InferencePipeline P} {first : P} {rest : List P}
    (hstages : pipeline.pipelineStages = first :: rest) (sequenceId : ℕ) (taskId : String)
    (tokens : List ℤ) (initialState : B) (layers : ℕ × ℕ) :
    pipeline.startSequence (F := F) sequenceId taskId tokens initialState layers =
      (pipeline.withSequences (pipeline.activeSequences.insert taskId
          { sequenceId, taskId, tokens, currentNodeIndex := 0 }),
        some (first, .processTask
          (pipeline.stageTask 0 sequenceId taskId tokens initialState layers))) := by
  simp only [startSequence, hstages, withSequences, stageTask]

end InferencePipeline

namespace Orchestrator

variable [Scalar F] (env : Platform P S B)

/-- The orchestrator with other active sequences. -/
def withSequences (o : Orchestrator F P B)
    (activeSequences : AList fun _ : String => SequenceState) : Orchestrator F P B :=
  { o with pipeline := o.pipeline.withSequences activeSequences }

theorem startSequence_of_sorted {o : Orchestrator F P B} {n : NodeEntry F}
    {rest : List (NodeEntry F)} {peer : P} {rng : Entropy} {taskId : String}
    {initialState sealed : B} (hsorted : o.registry.sortedByCapacity = n :: rest)
    (hparse : env.peerIds.parse n.id = .ok peer) (hstages : o.pipeline.pipelineStages ≠ [])
    (hseal : env.crypto.sealState rng o.clusterKey taskId initialState = .ok sealed)
    (sequenceId : ℕ) (tokens : List ℤ) :
    o.startSequence env rng sequenceId taskId tokens initialState =
      (o.withSequences (o.pipeline.activeSequences.insert taskId
          { sequenceId, taskId, tokens, currentNodeIndex := 0 }),
        .ok (some (peer, .processTask
          (o.pipeline.stageTask 0 sequenceId taskId tokens sealed n.layerRange)))) := by
  obtain ⟨first, others, hcons⟩ := List.exists_cons_of_ne_nil hstages
  simp only [startSequence, hsorted, hparse, hseal,
    InferencePipeline.startSequence_of_stages hcons]
  rfl

/-- A call of `start_sequence` issues the task of stage `0` or changes nothing. -/
theorem startSequence_cases (o : Orchestrator F P B) (rng : Entropy) (sequenceId : ℕ)
    (taskId : String) (tokens : List ℤ) (initialState : B) :
    (∃ n rest peer sealed, o.registry.sortedByCapacity = n :: rest ∧
      env.peerIds.parse n.id = .ok peer ∧ o.pipeline.pipelineStages ≠ [] ∧
      env.crypto.sealState rng o.clusterKey taskId initialState = .ok sealed) ∨
    ((o.startSequence env rng sequenceId taskId tokens initialState).1 = o ∧
      ∀ x, (o.startSequence env rng sequenceId taskId tokens initialState).2 ≠ .ok (some x)) := by
  unfold startSequence
  cases hsorted : o.registry.sortedByCapacity with
  | nil => exact .inr ⟨rfl, fun _ h => by cases h⟩
  | cons n rest =>
    cases hparse : env.peerIds.parse n.id with
    | error e => exact .inr (by simp [hparse])
    | ok peer =>
      cases hseal : env.crypto.sealState rng o.clusterKey taskId initialState with
      | error e => exact .inr (by simp [hparse])
      | ok sealed =>
        by_cases hstages : o.pipeline.pipelineStages = []
        · exact .inr (by simp [hparse, InferencePipeline.startSequence, hstages])
        · exact .inl ⟨n, rest, peer, sealed, rfl, hparse, hstages, rfl⟩

section TaskResult

omit [Scalar F]

variable {env} {o : Orchestrator F P B} {result : TaskResult F B} {state : SequenceState}

theorem handleTaskResult_of_unknown
    (hlookup : o.pipeline.activeSequences.lookup result.taskId = none) :
    o.handleTaskResult env (.taskResult result) = (o, .ok none) := by
  simp only [handleTaskResult, InferencePipeline.getNextPeerId, hlookup,
    InferencePipeline.handleTaskResult_of_unknown (0, 0) hlookup]

theorem handleTaskResult_of_next {peer : P} {n : NodeEntry F}
    (hlookup : o.pipeline.activeSequences.lookup result.taskId = some state)
    (hsequence : state.sequenceId = result.sequenceId)
    (hstage : o.pipeline.pipelineStages[state.currentNodeIndex + 1]? = some peer)
    (hget : o.registry.get (env.peerIds.toString peer) = some n) :
    o.handleTaskResult env (.taskResult result) =
      (o.withSequences (o.pipeline.activeSequences.insert result.taskId
          { state with currentNodeIndex := state.currentNodeIndex + 1 }),
        .ok (some (.nextStage peer (.processTask
          (o.pipeline.stageTask (state.currentNodeIndex + 1) result.sequenceId result.taskId
            state.tokens result.outputState n.layerRange))))) := by
  simp only [handleTaskResult, InferencePipeline.getNextPeerId, hlookup, hstage, hget,
    InferencePipeline.handleTaskResult_of_next n.layerRange hlookup hsequence hstage]
  rfl

theorem handleTaskResult_of_last
    (hlookup : o.pipeline.activeSequences.lookup result.taskId = some state)
    (hsequence : state.sequenceId = result.sequenceId)
    (hstage : o.pipeline.pipelineStages[state.currentNodeIndex + 1]? = none) :
    o.handleTaskResult env (.taskResult result) =
      (o.withSequences (o.pipeline.activeSequences.erase result.taskId),
        .ok (some (.finished result.logits))) := by
  simp only [handleTaskResult, InferencePipeline.getNextPeerId, hlookup, hstage,
    InferencePipeline.handleTaskResult_of_last (0, 0) hlookup hsequence hstage]
  rfl

variable (env o result)

/-- A result advances its sequence to a registered stage, ends it, or changes nothing. -/
theorem handleTaskResult_cases :
    (∃ state peer n, o.pipeline.activeSequences.lookup result.taskId = some state ∧
      state.sequenceId = result.sequenceId ∧
      o.pipeline.pipelineStages[state.currentNodeIndex + 1]? = some peer ∧
      o.registry.get (env.peerIds.toString peer) = some n) ∨
    (∃ state, o.pipeline.activeSequences.lookup result.taskId = some state ∧
      state.sequenceId = result.sequenceId ∧
      o.pipeline.pipelineStages[state.currentNodeIndex + 1]? = none) ∨
    o.handleTaskResult env (.taskResult result) = (o, .ok none) := by
  cases hlookup : o.pipeline.activeSequences.lookup result.taskId with
  | none => exact .inr (.inr (handleTaskResult_of_unknown hlookup))
  | some state =>
    by_cases hsequence : state.sequenceId = result.sequenceId
    · cases hstage : o.pipeline.pipelineStages[state.currentNodeIndex + 1]? with
      | none => exact .inr (.inl ⟨state, rfl, hsequence, hstage⟩)
      | some peer =>
        cases hget : o.registry.get (env.peerIds.toString peer) with
        | some n => exact .inl ⟨state, peer, n, rfl, hsequence, hstage, hget⟩
        | none =>
          refine .inr (.inr ?_)
          simp [handleTaskResult, InferencePipeline.getNextPeerId, hlookup, hstage, hget]
    · refine .inr (.inr ?_)
      have hrefused (layers : ℕ × ℕ) :
          o.pipeline.handleTaskResult (.taskResult result : SwarmMessage F P B) layers =
            (o.pipeline, none) :=
        InferencePipeline.handleTaskResult_of_mismatch layers hlookup hsequence
      simp only [handleTaskResult, InferencePipeline.getNextPeerId, hlookup, hrefused]
      cases o.pipeline.pipelineStages[state.currentNodeIndex + 1]? with
      | none => rfl
      | some peer => cases hget : o.registry.get (env.peerIds.toString peer) <;> simp only [hget]

variable {env o result}

/-- A result starts no sequence and changes neither the id nor the tokens of one. -/
theorem exists_lookup_of_handleTaskResult {taskId : String}
    (h : (o.handleTaskResult env (.taskResult result)).1.pipeline.activeSequences.lookup taskId =
      some state) :
    ∃ before, o.pipeline.activeSequences.lookup taskId = some before ∧
      before.sequenceId = state.sequenceId ∧ before.tokens = state.tokens := by
  rcases handleTaskResult_cases env o result with
    ⟨before, peer, n, hlookup, hsequence, hstage, hget⟩ | ⟨before, hlookup, hsequence, hstage⟩ |
      hsame
  · rw [handleTaskResult_of_next hlookup hsequence hstage hget] at h
    by_cases hid : taskId = result.taskId
    · subst hid
      cases (AList.lookup_insert _).symm.trans h
      exact ⟨before, hlookup, rfl, rfl⟩
    · exact ⟨state, (AList.lookup_insert_ne hid).symm.trans h, rfl, rfl⟩
  · rw [handleTaskResult_of_last hlookup hsequence hstage] at h
    by_cases hid : taskId = result.taskId
    · subst hid
      cases (AList.lookup_erase _ _).symm.trans h
    · exact ⟨state, (AList.lookup_erase_ne hid).symm.trans h, rfl, rfl⟩
  · rw [hsame] at h
    exact ⟨state, h, rfl, rfl⟩

end TaskResult

end Orchestrator

/-! ## A task and its answer -/

def startTask : Op Float32 Ed25519PeerId Bytes := .startSequence (fun _ => 0) 1 "task" [1] []

def taskAnswer : TaskResult Float32 Bytes :=
  { taskId := "task", sequenceId := 1, outputState := [], logits := [0.5] }

end NeuralSwarm
