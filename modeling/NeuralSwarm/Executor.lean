import NeuralSwarm.Backend
import NeuralSwarm.Crypto
import NeuralSwarm.Protocol

/-!
# The executor

The compute unit of a node: it opens the hidden state of a task, lets the backend compute and seals
what the backend leaves.
-/

namespace NeuralSwarm

variable {F P S B σ : Type}

structure Executor (B : Type) where
  deviceId : String
  clusterKey : B

namespace Executor

variable (crypto : Crypto S B) (executor : Executor B) (backend : InferenceBackend σ F B)

/-- Opens a received state and gives it to the backend; an empty one is skipped, the backend of the
first stage starts from the tokens. -/
def injectState (s : σ) (task : ProcessTask P B) : σ × Except String Unit :=
  if crypto.isEmpty task.inputState then (s, .ok ())
  else
    match crypto.openState executor.clusterKey task.taskId task.inputState with
    | .error e => (s, .error e)
    | .ok decompressed => backend.setState s decompressed

/-- Processes a task; the second part of the answer is the route the task came with. -/
def runTask (rng : Entropy) (s : σ) (task : SwarmMessage F P B) :
    σ × Except String (Option (SwarmMessage F P B × Option (RouteTicket P))) :=
  match task with
  | .processTask task =>
    -- before the state is injected: a reload drops the injected state
    match backend.ensureLayers s task.startLayer task.endLayer with
    | (s, .error e) => (s, .error e)
    | (s, .ok ()) =>
      match executor.injectState crypto backend s task with
      | (s, .error e) => (s, .error e)
      | (s, .ok ()) =>
        match backend.runLayers s task.startLayer task.endLayer task.tokens task.sequenceId with
        | (s, .error e) => (s, .error e)
        | (s, .ok logits) =>
          match backend.getState s with
          | .error e => (s, .error e)
          | .ok outputRaw =>
            match crypto.sealState rng executor.clusterKey task.taskId outputRaw with
            | .error e => (s, .error e)
            | .ok encrypted =>
              (s, .ok (some
                (.taskResult
                  { taskId := task.taskId
                    sequenceId := task.sequenceId
                    outputState := encrypted
                    logits },
                  task.route)))
  | _ => (s, .ok none)

variable {crypto executor backend}

/-- A message that is answered with a result is a task whose layers could be ensured, whose state
could be injected and whose output could be sealed. -/
theorem runTask_eq_ok_some {rng : Entropy} {s s' : σ} {message result : SwarmMessage F P B}
    {route : Option (RouteTicket P)}
    (h : executor.runTask crypto backend rng s message = (s', .ok (some (result, route)))) :
    ∃ task s1 s2 logits outputRaw encrypted, message = .processTask task ∧
      backend.ensureLayers s task.startLayer task.endLayer = (s1, .ok ()) ∧
      executor.injectState crypto backend s1 task = (s2, .ok ()) ∧
      backend.runLayers s2 task.startLayer task.endLayer task.tokens task.sequenceId =
        (s', .ok logits) ∧
      backend.getState s' = .ok outputRaw ∧
      crypto.sealState rng executor.clusterKey task.taskId outputRaw = .ok encrypted ∧
      result = .taskResult
        { taskId := task.taskId
          sequenceId := task.sequenceId
          outputState := encrypted
          logits } ∧
      route = task.route := by
  cases message with
  | processTask task =>
    simp only [runTask] at h
    split at h
    · cases h
    · rename_i s1 hensure
      split at h
      · cases h
      · rename_i s2 hinject
        split at h
        · cases h
        · rename_i s3 logits hrun
          split at h
          · cases h
          · rename_i outputRaw hget
            split at h
            · cases h
            · rename_i encrypted hseal
              cases h
              exact ⟨task, s1, s2, logits, outputRaw, encrypted, rfl, hensure, hinject, hrun, hget,
                hseal, rfl, rfl⟩
  | _ => cases h

/-- A state that could be injected is empty or could be opened. -/
theorem injectState_eq_ok {s s' : σ} {task : ProcessTask P B}
    (h : executor.injectState crypto backend s task = (s', .ok ())) :
    crypto.isEmpty task.inputState = true ∨
      ∃ state, crypto.openState executor.clusterKey task.taskId task.inputState = .ok state := by
  unfold injectState at h
  split_ifs at h with hempty
  · exact .inl hempty
  · split at h
    · cases h
    · rename_i state hopen
      exact .inr ⟨state, hopen⟩

variable (crypto executor backend)

/-- The executor loop over the tasks it receives: it ends with the first error. -/
def runLoop : σ → List (Entropy × SwarmMessage F P B) →
    σ × List (SwarmMessage F P B) × Except String Unit
  | s, [] => (s, [], .ok ())
  | s, (rng, task) :: rest =>
    match executor.runTask crypto backend rng s task with
    | (s, .error e) => (s, [], .error e)
    | (s, .ok none) => runLoop s rest
    | (s, .ok (some (result, _))) =>
      let (s, results, ended) := runLoop s rest
      (s, result :: results, ended)

end Executor

end NeuralSwarm
