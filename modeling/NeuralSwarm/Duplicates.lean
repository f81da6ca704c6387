import NeuralSwarm.FirstStage
import NeuralSwarm.Stages

/-!
# Results delivered twice

A result names its task and its sequence id, not its stage.  A second delivery finds the sequence
one stage further on and advances it again; only the result that ends a sequence is absorbed.
-/

namespace NeuralSwarm

variable {F P S B : Type}

namespace Orchestrator

variable (env : Platform P S B)

/-- A second delivery of a result returns `None` and leaves the active sequences as they are. -/
def DuplicateHarmless (o : Orchestrator F P B) (result : TaskResult F B) : Prop :=
  let o' := (o.handleTaskResult env (.taskResult result)).1
  (o'.handleTaskResult env (.taskResult result)).2 = .ok none ∧
    (o'.handleTaskResult env (.taskResult result)).1.pipeline.activeSequences =
      o'.pipeline.activeSequences

/-- The sequence of a task has no stage after its current one. -/
def AtLastStage (o : Orchestrator F P B) (taskId : String) : Prop :=
  ∃ state, o.pipeline.activeSequences.lookup taskId = some state ∧
    o.pipeline.pipelineStages.length ≤ state.currentNodeIndex + 1

variable {env} {o : Orchestrator F P B} {result : TaskResult F B}

/-- The second delivery is harmless only if it does nothing at all. -/
theorem duplicateHarmless_iff {next : Orchestrator F P B} {x : PipelineResult F P B}
    (h : o.handleTaskResult env (.taskResult result) = (next, .ok (some x))) :
    o.DuplicateHarmless env result ↔
      next.handleTaskResult env (.taskResult result) = (next, .ok none) := by
  simp only [DuplicateHarmless, h]
  constructor
  · rintro ⟨hnone, -⟩
    rcases handleTaskResult_cases env next result with
      ⟨state, peer, n, h1, h2, h3, h4⟩ | ⟨state, h1, h2, h3⟩ | heq
    · rw [handleTaskResult_of_next h1 h2 h3 h4] at hnone; cases hnone
    · rw [handleTaskResult_of_last h1 h2 h3] at hnone; cases hnone
    · exact heq
  · intro heq
    rw [heq]
    exact ⟨rfl, rfl⟩

/-- A result that issued a task issues another one, or ends the sequence, the second time. -/
theorem not_duplicateHarmless_of_next (hregistered : o.StagesRegistered env)
    {state : SequenceState} {peer : P} {n : NodeEntry F}
    (hlookup : o.pipeline.activeSequences.lookup result.taskId = some state)
    (hsequence : state.sequenceId = result.sequenceId)
    (hstage : o.pipeline.pipelineStages[state.currentNodeIndex + 1]? = some peer)
    (hget : o.registry.get (env.peerIds.toString peer) = some n) :
    ¬ o.DuplicateHarmless env result := by
  rw [duplicateHarmless_iff (handleTaskResult_of_next hlookup hsequence hstage hget)]
  intro hcall
  have hlookup' : (o.withSequences (o.pipeline.activeSequences.insert result.taskId
      { state with currentNodeIndex := state.currentNodeIndex + 1 })
        ).pipeline.activeSequences.lookup result.taskId =
          some { state with currentNodeIndex := state.currentNodeIndex + 1 } :=
    AList.lookup_insert _
  cases hstage' : o.pipeline.pipelineStages[state.currentNodeIndex + 1 + 1]? with
  | none =>
    rw [handleTaskResult_of_last hlookup' hsequence hstage'] at hcall
    cases congrArg Prod.snd hcall
  | some peer' =>
    obtain ⟨m, hm⟩ := hregistered ⟨_, n, hget⟩ peer' (List.mem_of_getElem? hstage')
    rw [handleTaskResult_of_next hlookup' hsequence hstage' hm] at hcall
    cases congrArg Prod.snd hcall

variable [Scalar F] (env)

/-- In every reachable state, a result that has an effect has none when it is delivered again if
and only if it was the one that ended its sequence. -/
theorem duplicateHarmless_iff_atLastStage {total : UInt32} {sharedSecret : String}
    {clusterKey : B} (hreach : (machine env).Reachable (new total sharedSecret clusterKey) o)
    (result : TaskResult F B) {x : PipelineResult F P B}
    (hfirst : (o.handleTaskResult env (.taskResult result)).2 = .ok (some x)) :
    o.DuplicateHarmless env result ↔ o.AtLastStage result.taskId := by
  have hregistered := (stagesRegistered_of_reachable env hreach).2
  rcases handleTaskResult_cases env o result with
    ⟨state, peer, n, hlookup, hsequence, hstage, hget⟩ | ⟨state, hlookup, hsequence, hstage⟩ | heq
  · refine iff_of_false
      (not_duplicateHarmless_of_next hregistered hlookup hsequence hstage hget) ?_
    rintro ⟨state', hlookup', hlast⟩
    cases hlookup.symm.trans hlookup'
    rw [List.getElem?_eq_none hlast] at hstage
    cases hstage
  · refine iff_of_true ?_ ⟨state, hlookup, List.getElem?_eq_none_iff.1 hstage⟩
    rw [duplicateHarmless_iff (handleTaskResult_of_last hlookup hsequence hstage)]
    exact handleTaskResult_of_unknown (AList.lookup_erase _ _)
  · rw [heq] at hfirst
    cases hfirst

/-! ## A task on one and on two stages -/

theorem duplicateHarmless_iff_one_stage :
    let o := (machine Platform.reference).run (new 32 "secret" []) (twoPeers.take 1 ++ [startTask])
    o.DuplicateHarmless Platform.reference taskAnswer ↔ o.AtLastStage "task" :=
  have hfirst : (((machine Platform.reference).run (new 32 "secret" [])
      (twoPeers.take 1 ++ [startTask])).handleTaskResult Platform.reference
        (.taskResult taskAnswer)).2 = .ok (some (.finished [0.5])) := by decide +kernel
  duplicateHarmless_iff_atLastStage Platform.reference ⟨_, rfl⟩ taskAnswer hfirst

/-- The task of the second stage, issued when `taskAnswer` arrives for the first time. -/
def secondTask : ProcessTask Ed25519PeerId Bytes :=
  { taskId := "task"
    sequenceId := 1
    inputState := []
    startLayer := 17
    endLayer := 32
    tokens := [1]
    route := some
      { taskId := "task"
        sequenceId := 1
        nodes := PeerIds.ed25519.parseAll [peerA, peerB]
        currentIndex := 1 } }

/-- Of two stages, the result of the first one ends the sequence when it is delivered again. -/
theorem not_duplicateHarmless_two_stages :
    let o := (machine Platform.reference).run (new 32 "secret" []) (twoPeers ++ [startTask])
    (machine Platform.reference).Reachable (new 32 "secret" []) o ∧
      (o.handleTaskResult Platform.reference (.taskResult taskAnswer)).2 =
        .ok (some (.nextStage ⟨peerB, by decide +kernel⟩ (.processTask secondTask))) ∧
      ¬ o.DuplicateHarmless Platform.reference taskAnswer := by
  refine ⟨⟨_, rfl⟩, by decide +kernel, fun h => ?_⟩
  exact absurd h.1 (by decide +kernel)

end Orchestrator

end NeuralSwarm
