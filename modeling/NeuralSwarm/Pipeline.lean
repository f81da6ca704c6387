import Mathlib.Data.List.AList
import NeuralSwarm.Protocol

/-!
# The inference pipeline

Routing of sequences through the stages.  A sequence remembers only the index of its current stage;
the list of stages is replaced at every rebalance.
-/

namespace NeuralSwarm

/-- An ongoing inference sequence. -/
structure SequenceState where
  sequenceId : ℕ
  taskId : String
  tokens : List ℤ
  currentNodeIndex : ℕ
  deriving DecidableEq

inductive PipelineResult (F P B : Type)
  | nextStage (peer : P) (task : SwarmMessage F P B)
  | finished (logits : List F)
  deriving DecidableEq

structure InferencePipeline (P : Type) where
  activeSequences : AList fun _ : String => SequenceState
  pipelineStages : List P

namespace InferencePipeline

variable {F P B : Type}

def empty : InferencePipeline P := ⟨∅, []⟩

def updateStages (pipeline : InferencePipeline P) (sortedNodePeers : List P) :
    InferencePipeline P :=
  { pipeline with pipelineStages := sortedNodePeers }

/-- Starts a sequence at the first stage, if there is one. -/
def startSequence (pipeline : InferencePipeline P) (sequenceId : ℕ) (taskId : String)
    (tokens : List ℤ) (initialState : B) (firstNodeLayers : ℕ × ℕ) :
    InferencePipeline P × Option (P × SwarmMessage F P B) :=
  match pipeline.pipelineStages with
  | [] => (pipeline, none)
  | firstNodePeer :: _ =>
    let state : SequenceState := { sequenceId, taskId, tokens, currentNodeIndex := 0 }
    let route : RouteTicket P :=
      { taskId, sequenceId, nodes := pipeline.pipelineStages, currentIndex := 0 }
    let task : ProcessTask P B :=
      { taskId
        sequenceId
        inputState := initialState
        startLayer := firstNodeLayers.1
        endLayer := firstNodeLayers.2
        tokens
        route := some route }
    ({ pipeline with activeSequences := pipeline.activeSequences.insert taskId state },
      some (firstNodePeer, .processTask task))

/-- The peer of the stage after the current one of a task. -/
def getNextPeerId (pipeline : InferencePipeline P) (taskId : String) : Option P :=
  match pipeline.activeSequences.lookup taskId with
  | some state => pipeline.pipelineStages[state.currentNodeIndex + 1]?
  | none => none

/-- Advances the sequence of a result by one stage, or ends it after the last one. -/
def handleTaskResult (pipeline : InferencePipeline P) (result : SwarmMessage F P B)
    (nextNodeLayers : ℕ × ℕ) : InferencePipeline P × Option (PipelineResult F P B) :=
  match result with
  | .taskResult result =>
    match pipeline.activeSequences.lookup result.taskId with
    | none => (pipeline, none)
    | some state =>
      if state.sequenceId ≠ result.sequenceId then (pipeline, none)
      else
        let state := { state with currentNodeIndex := state.currentNodeIndex + 1 }
        match pipeline.pipelineStages[state.currentNodeIndex]? with
        | some nextPeerId =>
          let nextRoute : RouteTicket P :=
            { taskId := result.taskId
              sequenceId := result.sequenceId
              nodes := pipeline.pipelineStages
              currentIndex := state.currentNodeIndex }
          let nextTask : ProcessTask P B :=
            { taskId := result.taskId
              sequenceId := result.sequenceId
              inputState := result.outputState
              startLayer := nextNodeLayers.1
              endLayer := nextNodeLayers.2
              tokens := state.tokens
              route := some nextRoute }
          ({ pipeline with
              activeSequences := pipeline.activeSequences.insert result.taskId state },
            some (.nextStage nextPeerId (.processTask nextTask)))
        | none =>
          ({ pipeline with activeSequences := pipeline.activeSequences.erase result.taskId },
            some (.finished result.logits))
  | _ => (pipeline, none)

end InferencePipeline

end NeuralSwarm
