import NeuralSwarm.Basic.Machine
import NeuralSwarm.Composition

/-!
# The loop of a worker

`run_loop` hands every message to `run_task` and propagates the first error, so a task that fails
ends the loop: what it sends are the results of the messages before that task.  `worker` is the
executor that answers every message, whatever became of the others.
-/

namespace NeuralSwarm

variable {F P S B σ : Type}

namespace Executor

variable (crypto : Crypto S B) (executor : Executor B) (backend : InferenceBackend σ F B)

/-- What `run_task` returns: nothing for a message that is not a task. -/
abbrev Answer (F P B : Type) :=
  Except String (Option (SwarmMessage F P B × Option (RouteTicket P)))

/-- The executor as a machine that answers one message after the other. -/
def worker : Mealy σ (Entropy × SwarmMessage F P B) (Answer F P B) :=
  ⟨fun s input => executor.runTask crypto backend input.1 s input.2⟩

/-- The results among some answers, in order. -/
def results (answers : List (Answer F P B)) : List (SwarmMessage F P B) :=
  answers.filterMap fun answer => answer.toOption.join.map (·.1)

/-- The first error among some answers. -/
def firstError : List (Answer F P B) → Except String Unit
  | [] => .ok ()
  | .error e :: _ => .error e
  | .ok _ :: answers => firstError answers

theorem results_append (front back : List (Answer F P B)) :
    results (front ++ back) = results front ++ results back := List.filterMap_append

theorem runLoop_cons_of_error {s s' : σ} {rng : Entropy} {task : SwarmMessage F P B} {e : String}
    (h : executor.runTask crypto backend rng s task = (s', .error e))
    (rest : List (Entropy × SwarmMessage F P B)) :
    executor.runLoop crypto backend s ((rng, task) :: rest) = (s', [], .error e) := by
  simp only [runLoop, h]

theorem runLoop_cons_of_ok {s s' : σ} {rng : Entropy} {task : SwarmMessage F P B}
    {answer : Option (SwarmMessage F P B × Option (RouteTicket P))}
    (h : executor.runTask crypto backend rng s task = (s', .ok answer))
    (rest : List (Entropy × SwarmMessage F P B)) :
    executor.runLoop crypto backend s ((rng, task) :: rest) =
      ((executor.runLoop crypto backend s' rest).1,
        (answer.map (·.1)).toList ++ (executor.runLoop crypto backend s' rest).2.1,
        (executor.runLoop crypto backend s' rest).2.2) := by
  cases answer with
  | none => simp only [runLoop, h, Option.map_none, Option.toList_none, List.nil_append]
  | some result => simp only [runLoop, h]; rfl

/-- The loop sends, in order, the results of the messages before the first one that fails and ends
with its error; later messages do not reach the backend.  Without a failure every message is
processed. -/
theorem runLoop_eq (s : σ) (tasks : List (Entropy × SwarmMessage F P B)) :
    let answers := (executor.worker crypto backend).answers s tasks
    executor.runLoop crypto backend s tasks =
      ((executor.worker crypto backend).run s
          (tasks.take ((answers.takeWhile (·.isOk)).length + 1)),
        results (answers.takeWhile (·.isOk)), firstError answers) := by
  induction tasks generalizing s with
  | nil => rfl
  | cons input tasks ih =>
    obtain ⟨rng, task⟩ := input
    have hstep : (executor.worker crypto backend).step s (rng, task) =
        executor.runTask crypto backend rng s task := rfl
    cases h : executor.runTask crypto backend rng s task with
    | mk s' answer =>
      simp only [Mealy.answers, hstep, h]
      cases answer with
      | error e =>
        rw [executor.runLoop_cons_of_error crypto backend h]
        simp [Except.isOk, Except.toBool, hstep, h, results, firstError]
      | ok answer =>
        rw [executor.runLoop_cons_of_ok crypto backend h, ih s']
        simp [Except.isOk, Except.toBool, hstep, h, results, firstError,
          Except.toOption]
        cases answer <;> simp

/-- The loop sends all results of the channel if and only if no message after the first failure has
one. -/
theorem runLoop_results_eq_iff (s : σ) (tasks : List (Entropy × SwarmMessage F P B)) :
    let answers := (executor.worker crypto backend).answers s tasks
    (executor.runLoop crypto backend s tasks).2.1 = results answers ↔
      results (answers.dropWhile (·.isOk)) = [] := by
  intro answers
  have hsplit : results answers =
      results (answers.takeWhile (·.isOk)) ++ results (answers.dropWhile (·.isOk)) := by
    rw [← results_append, List.takeWhile_append_dropWhile]
  rw [runLoop_eq, hsplit]
  exact List.self_eq_append_right

/-! ## A corrupt task before a good one -/

/-- The task of a first stage. -/
def goodTask : ProcessTask Ed25519PeerId Bytes :=
  { taskId := "task"
    sequenceId := 1
    inputState := []
    startLayer := 0
    endLayer := 32
    tokens := [42]
    route := none }

/-- The same task with a hidden state that nobody sealed. -/
def corruptTask : ProcessTask Ed25519PeerId Bytes := { goodTask with inputState := [0] }

/-- The result of the second task is not sent. -/
theorem not_runLoop_results_corrupt :
    ¬ ∀ (executor : Executor Bytes) (s : Bytes)
        (tasks : List (Entropy × SwarmMessage Float32 Ed25519PeerId Bytes)),
      (executor.runLoop Platform.reference.crypto mockBackend s tasks).2.1 =
        results ((executor.worker Platform.reference.crypto mockBackend).answers s tasks) := by
  intro h
  have hsent := h { deviceId := "node-1", clusterKey := [] } []
    [(fun _ => 0, .processTask corruptTask), (fun _ => 0, .processTask goodTask)]
  revert hsent
  decide +kernel

end Executor

end NeuralSwarm
