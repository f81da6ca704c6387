import NeuralSwarm.Composition

/-!
# The mesh

Orchestrator, executors and the messages between them as one machine.  Any number of sequences may
be on their way; every message in flight is delivered once, in whatever order.  A delivered task is
one call of `run_task`, and a call that fails sends nothing.  The lemmas of the last section say
what a start and an arrival do while the nodes stay as they are.
-/

namespace NeuralSwarm

variable {F P S B σ : Type}

/-- The task that a message is about. -/
def SwarmMessage.taskId? : SwarmMessage F P B → Option String
  | .processTask task => some task.taskId
  | .taskResult result => some result.taskId
  | _ => none

/-- A message in flight. -/
inductive Parcel (F P B : Type)
  | toPeer (peer : P) (msg : SwarmMessage F P B)
  | toMaster (msg : SwarmMessage F P B)

def Parcel.taskId? : Parcel F P B → Option String
  | toPeer _ msg | toMaster msg => msg.taskId?

structure Mesh (F P B σ : Type) where
  orchestrator : Orchestrator F P B
  workers : σ
  inFlight : List (Parcel F P B)

inductive MeshEvent (B : Type)
  | start (rng : Entropy) (sequenceId : ℕ) (taskId : String) (tokens : List ℤ) (initialState : B)
  | deliver (i : ℕ) (rng : Entropy)

namespace Mesh

/-- Nobody computes anything yet. -/
def new (orchestrator : Orchestrator F P B) (workers : σ) : Mesh F P B σ :=
  { orchestrator, workers, inFlight := [] }

variable (mesh : Mesh F P B σ)

/-- Some message about a task is in flight. -/
def Busy (taskId : String) : Prop := some taskId ∈ mesh.inFlight.map Parcel.taskId?

instance (taskId : String) : Decidable (mesh.Busy taskId) := inferInstanceAs (Decidable (_ ∈ _))

variable (env : Platform P S B) (work : Entropy → Work F P B σ)

/-- A message arrives, and `rest` stays in flight; the answer are the logits of a sequence that
ends. -/
def arrive (rest : List (Parcel F P B)) (rng : Entropy) :
    Parcel F P B → Mesh F P B σ × Option (List F)
  | .toPeer peer msg =>
    match work rng mesh.workers peer msg with
    | (workers, .ok (some result)) =>
      ({ mesh with workers, inFlight := rest ++ [.toMaster result] }, none)
    | (workers, _) => ({ mesh with workers, inFlight := rest }, none)
  | .toMaster msg =>
    match mesh.orchestrator.handleTaskResult env msg with
    | (orchestrator, .ok (some (.nextStage peer next))) =>
      ({ mesh with orchestrator, inFlight := rest ++ [.toPeer peer next] }, none)
    | (orchestrator, .ok (some (.finished logits))) =>
      ({ mesh with orchestrator, inFlight := rest }, some logits)
    | (orchestrator, _) => ({ mesh with orchestrator, inFlight := rest }, none)

def step [Scalar F] : MeshEvent B → Mesh F P B σ × Option (List F)
  | .start rng sequenceId taskId tokens initialState =>
    match mesh.orchestrator.startSequence env rng sequenceId taskId tokens initialState with
    | (orchestrator, .ok (some (peer, msg))) =>
      ({ mesh with orchestrator, inFlight := mesh.inFlight ++ [.toPeer peer msg] }, none)
    | (orchestrator, _) => ({ mesh with orchestrator }, none)
  | .deliver i rng =>
    match mesh.inFlight[i]? with
    | some parcel => mesh.arrive env work (mesh.inFlight.eraseIdx i) rng parcel
    | none => (mesh, none)

def machine [Scalar F] : Mealy (Mesh F P B σ) (MeshEvent B) (Option (List F)) :=
  ⟨fun mesh => mesh.step env work⟩

/-! ## What an arrival can do -/

variable {mesh env work} {rest : List (Parcel F P B)} {rng : Entropy}

theorem arrive_of_result {s : σ} {peer : P} {msg result : SwarmMessage F P B}
    (h : work rng mesh.workers peer msg = (s, .ok (some result))) :
    mesh.arrive env work rest rng (.toPeer peer msg) =
      ({ mesh with workers := s, inFlight := rest ++ [.toMaster result] }, none) := by
  simp only [arrive, h]

theorem arrive_of_failure {s : σ} {peer : P} {msg : SwarmMessage F P B} {e : String}
    (h : work rng mesh.workers peer msg = (s, .error e)) :
    mesh.arrive env work rest rng (.toPeer peer msg) =
      ({ mesh with workers := s, inFlight := rest }, none) := by
  simp only [arrive, h]

theorem arrive_of_next {o : Orchestrator F P B} {peer : P} {msg next : SwarmMessage F P B}
    (h : mesh.orchestrator.handleTaskResult env msg = (o, .ok (some (.nextStage peer next)))) :
    mesh.arrive env work rest rng (.toMaster msg) =
      ({ mesh with orchestrator := o, inFlight := rest ++ [.toPeer peer next] }, none) := by
  simp only [arrive, h]

theorem arrive_of_finished {o : Orchestrator F P B} {msg : SwarmMessage F P B} {logits : List F}
    (h : mesh.orchestrator.handleTaskResult env msg = (o, .ok (some (.finished logits)))) :
    mesh.arrive env work rest rng (.toMaster msg) =
      ({ mesh with orchestrator := o, inFlight := rest }, some logits) := by
  simp only [arrive, h]

end Mesh

/-! ## A task and its stage -/

section RunTask

variable {crypto : Crypto S B} {executor : Executor B} {backend : InferenceBackend σ F B}

/-- A task whose state can be opened is the stage on that state, and seals what it leaves. -/
theorem runTask_of_opened {task : ProcessTask P B} {input : B}
    (hnonempty : crypto.isEmpty task.inputState = false)
    (hopen : crypto.openState executor.clusterKey task.taskId task.inputState = .ok input)
    (rng : Entropy) (s : σ) :
    executor.runTask crypto backend rng s (.processTask task) =
      match passState backend s (task.startLayer, task.endLayer) input task.tokens
        task.sequenceId with
      | (t, .error e) => (t, .error e)
      | (t, .ok (output, logits)) =>
        match crypto.sealState rng executor.clusterKey task.taskId output with
        | .error e => (t, .error e)
        | .ok encrypted =>
          (t, .ok (some
            (.taskResult
              { taskId := task.taskId
                sequenceId := task.sequenceId
                outputState := encrypted
                logits }, task.route))) := by
  have hinject (s : σ) : executor.injectState crypto backend s task =
      backend.setState s input := by
    simp only [Executor.injectState, hnonempty, Bool.false_eq_true, if_false, hopen]
  simp only [Executor.runTask, passState, hinject]
  rcases backend.ensureLayers s task.startLayer task.endLayer with ⟨s1, e | ⟨⟩⟩
  · rfl
  rcases hset : backend.setState s1 input with ⟨s2, e | ⟨⟩⟩
  · simp only [hset]
  rcases hrun : backend.runLayers s2 task.startLayer task.endLayer task.tokens task.sequenceId with
    ⟨s3, e | logits⟩
  · simp only [hset, hrun]
  cases hget : backend.getState s3 with
  | error e => simp only [hset, hrun, hget]
  | ok output =>
    cases hseal : crypto.sealState rng executor.clusterKey task.taskId output <;>
      simp only [hset, hrun, hget, hseal]

end RunTask

/-- The executor at a peer does what its stage does, on the opened state. -/
theorem executors_of_opened {τ : P → Type} [DecidableEq P] {env : Platform P S B}
    {clusterKey input : B} {backend : ∀ p, InferenceBackend (τ p) F B} {p : P}
    {task : ProcessTask P B} (hnonempty : env.crypto.isEmpty task.inputState = false)
    (hopen : env.crypto.openState clusterKey task.taskId task.inputState = .ok input)
    (rng : P → Entropy) (s : ∀ p, τ p) :
    executors env clusterKey backend rng s p (.processTask task) =
      match passState (backend p) (s p) (task.startLayer, task.endLayer) input task.tokens
        task.sequenceId with
      | (t, .error e) => (Function.update s p t, .error e)
      | (t, .ok (output, logits)) =>
        match env.crypto.sealState (rng p) clusterKey task.taskId output with
        | .error e => (Function.update s p t, .error e)
        | .ok encrypted =>
          (Function.update s p t, .ok (some (.taskResult
            { taskId := task.taskId
              sequenceId := task.sequenceId
              outputState := encrypted
              logits }))) := by
  let executor : Executor B := { deviceId := env.peerIds.toString p, clusterKey }
  have hrun : executor.runTask env.crypto (backend p) (rng p) (s p) (.processTask task) = _ :=
    runTask_of_opened hnonempty hopen (rng p) (s p)
  simp only [executors, executor] at hrun ⊢
  rw [hrun]
  rcases passState (backend p) (s p) (task.startLayer, task.endLayer) input task.tokens
    task.sequenceId with ⟨t, e | ⟨output, logits⟩⟩
  · rfl
  · cases hseal : env.crypto.sealState (rng p) clusterKey task.taskId output with
    | error e => simp only [hseal]; rfl
    | ok encrypted => simp only [hseal]; rfl

/-! ## The route of a mesh -/

section Route

variable [Scalar F] {env : Platform P S B} (o : Orchestrator F P B)

/-- The stages of the pipeline with the entries of the nodes in the same order. -/
def Orchestrator.route : List (P × NodeEntry F) :=
  o.pipeline.pipelineStages.zip o.registry.sortedByCapacity

/-- The stages of the pipeline with the layers of the nodes in the same order. -/
def Orchestrator.stageLayers : List (P × ℕ × ℕ) :=
  o.pipeline.pipelineStages.zip (o.registry.sortedByCapacity.map (·.layerRange))

theorem Orchestrator.stageLayers_eq :
    o.stageLayers = o.route.map fun stage => (stage.1, stage.2.layerRange) :=
  List.zip_map_right ..

variable {o}

theorem Orchestrator.JustRebalanced.routed (fresh : o.JustRebalanced env) :
    o.Routed env o.route := by
  obtain ⟨route, routed⟩ := fresh.exists_routed
  have hroute : o.route = route := by
    rw [Orchestrator.route, routed.stages, routed.sorted, List.zip_map']
    exact List.map_id _
  rw [hroute]
  exact routed

theorem Orchestrator.drop_stageLayers {k : ℕ} {stage : P × NodeEntry F}
    (hstage : o.route[k]? = some stage) :
    o.stageLayers.drop k = (stage.1, stage.2.layerRange) :: o.stageLayers.drop (k + 1) := by
  obtain ⟨hlt, rfl⟩ := List.getElem?_eq_some_iff.1 hstage
  rw [o.stageLayers_eq, ← List.map_drop, ← List.map_drop, List.drop_eq_getElem_cons hlt,
    List.map_cons]

theorem Orchestrator.drop_stageLayers_eq_nil {k : ℕ} (hstage : o.route[k]? = none) :
    o.stageLayers.drop k = [] := by
  rw [o.stageLayers_eq]
  refine List.drop_of_length_le ?_
  rw [List.length_map]
  exact List.getElem?_eq_none_iff.1 hstage

end Route

/-! ## Along the route -/

namespace Mesh

variable {prim : Primitives S} {ids : PeerIds P} {rest : List (Parcel F P Bytes)} {rng : Entropy}

section Master

variable [Scalar F] {o : Orchestrator F P Bytes} {mesh : Mesh F P Bytes σ}
  {work : Entropy → Work F P Bytes σ} {activeSequences : AList fun _ : String => SequenceState}
  {sequenceId k : ℕ} {taskId : String} {tokens : List ℤ} {outputState : Bytes} {logits : List F}

/-- A start puts the task of the first stage in flight. -/
theorem exists_step_start (work : Entropy → Work F P Bytes σ) (rng : Entropy) (sequenceId : ℕ)
    (taskId : String) (tokens : List ℤ) (lawful : prim.Lawful)
    (routed : o.Routed (prim.platform ids) o.route)
    (horchestrator : mesh.orchestrator = o.withSequences activeSequences)
    {stage : P × NodeEntry F}
    (hstage : o.route[0]? = some stage) {initialState : Bytes}
    (hlen : initialState.length ≤ Primitives.decompressLimit) :
    ∃ sealed, prim.crypto.isEmpty sealed = false ∧
      prim.crypto.openState o.clusterKey taskId sealed = .ok initialState ∧
      mesh.step (prim.platform ids) work (.start rng sequenceId taskId tokens initialState) =
        ({ mesh with
            orchestrator := o.withSequences (activeSequences.insert taskId
              { sequenceId, taskId, tokens, currentNodeIndex := 0 })
            inFlight := mesh.inFlight ++ [.toPeer stage.1 (.processTask
              (o.pipeline.stageTask 0 sequenceId taskId tokens sealed stage.2.layerRange))] },
          none) := by
  obtain ⟨rest, hroute⟩ : ∃ rest, o.route = stage :: rest := by
    cases h : o.route with
    | nil => rw [h] at hstage; cases hstage
    | cons stage' rest => rw [h] at hstage; cases hstage; exact ⟨rest, rfl⟩
  have hsorted : (o.withSequences activeSequences).registry.sortedByCapacity =
      stage.2 :: rest.map (·.2) := by
    rw [← List.map_cons (f := fun x : P × NodeEntry F => x.2), ← hroute]
    exact routed.sorted
  have hstages : (o.withSequences activeSequences).pipeline.pipelineStages ≠ [] := by
    change o.pipeline.pipelineStages ≠ []
    rw [routed.stages, hroute]
    exact List.cons_ne_nil _ _
  have hparse := routed.parsed stage (hroute ▸ List.mem_cons_self ..)
  obtain ⟨sealed, hseal, hnonempty, hopen⟩ := lawful.seal_open rng o.clusterKey taskId hlen
  have hstart := Orchestrator.startSequence_of_sorted (prim.platform ids) hsorted hparse hstages
    hseal sequenceId tokens
  refine ⟨sealed, hnonempty, hopen, ?_⟩
  simp only [step, horchestrator, hstart]
  rfl

/-- The result of a stage with one behind it is turned into the task of that one. -/
theorem arrive_result_of_next (routed : o.Routed (prim.platform ids) o.route)
    (horchestrator : mesh.orchestrator = o.withSequences activeSequences)
    (hactive : activeSequences.lookup taskId =
      some { sequenceId, taskId, tokens, currentNodeIndex := k })
    {stage : P × NodeEntry F} (hstage : o.route[k + 1]? = some stage) :
    mesh.arrive (prim.platform ids) work rest rng
        (.toMaster (.taskResult { taskId, sequenceId, outputState, logits })) =
      ({ mesh with
          orchestrator := o.withSequences (activeSequences.insert taskId
            { sequenceId, taskId, tokens, currentNodeIndex := k + 1 })
          inFlight := rest ++ [.toPeer stage.1 (.processTask (o.pipeline.stageTask (k + 1)
            sequenceId taskId tokens outputState stage.2.layerRange))] }, none) := by
  let result : TaskResult F Bytes := { taskId, sequenceId, outputState, logits }
  let state : SequenceState := { sequenceId, taskId, tokens, currentNodeIndex := k }
  have hlookup : (o.withSequences activeSequences).pipeline.activeSequences.lookup result.taskId =
    some state := hactive
  have hnext : (o.withSequences activeSequences).pipeline.pipelineStages[k + 1]? =
      some stage.1 := by
    change o.pipeline.pipelineStages[k + 1]? = _
    rw [routed.stages, List.getElem?_map, hstage, Option.map_some]
  have hresult : (o.withSequences activeSequences).handleTaskResult (prim.platform ids)
      (.taskResult result) = _ := Orchestrator.handleTaskResult_of_next hlookup rfl hnext
    (routed.registered stage (List.mem_of_getElem? hstage))
  rw [← horchestrator] at hresult
  refine (arrive_of_next hresult).trans ?_
  rw [horchestrator]
  rfl

/-- The result of the last stage ends its sequence. -/
theorem arrive_result_of_last (routed : o.Routed (prim.platform ids) o.route)
    (horchestrator : mesh.orchestrator = o.withSequences activeSequences)
    (hactive : activeSequences.lookup taskId =
      some { sequenceId, taskId, tokens, currentNodeIndex := k })
    (hstage : o.route[k + 1]? = none) :
    mesh.arrive (prim.platform ids) work rest rng
        (.toMaster (.taskResult { taskId, sequenceId, outputState, logits })) =
      ({ mesh with
          orchestrator := o.withSequences (activeSequences.erase taskId)
          inFlight := rest }, some logits) := by
  let result : TaskResult F Bytes := { taskId, sequenceId, outputState, logits }
  let state : SequenceState := { sequenceId, taskId, tokens, currentNodeIndex := k }
  have hlookup : (o.withSequences activeSequences).pipeline.activeSequences.lookup result.taskId =
    some state := hactive
  have hnone : (o.withSequences activeSequences).pipeline.pipelineStages[k + 1]? = none := by
    change o.pipeline.pipelineStages[k + 1]? = none
    rw [routed.stages, List.getElem?_map, hstage, Option.map_none]
  have hresult : (o.withSequences activeSequences).handleTaskResult (prim.platform ids)
      (.taskResult result) = _ := Orchestrator.handleTaskResult_of_last hlookup rfl hnone
  rw [← horchestrator] at hresult
  refine (arrive_of_finished hresult).trans ?_
  rw [horchestrator]
  rfl

end Master

section Executors

variable [DecidableEq P] {τ : P → Type} {backend : ∀ p, InferenceBackend (τ p) F Bytes}
  {mesh : Mesh F P Bytes (∀ p, τ p)}

/-- The work of executors with a cluster key, whatever bytes the generator hands out. -/
abbrev executing (prim : Primitives S) (ids : PeerIds P) (clusterKey : Bytes)
    (backend : ∀ p, InferenceBackend (τ p) F Bytes) (rng : Entropy) : Work F P Bytes (∀ p, τ p) :=
  executors (prim.platform ids) clusterKey backend fun _ => rng

/-- A task whose stage computes is answered with the sealed state of the stage. -/
theorem exists_arrive_task (lawful : prim.Lawful) {clusterKey input output : Bytes}
    {task : ProcessTask P Bytes} {p : P} (hnonempty : prim.crypto.isEmpty task.inputState = false)
    (hopen : prim.crypto.openState clusterKey task.taskId task.inputState = .ok input) {t : τ p}
    {logits : List F}
    (hpass : passState (backend p) (mesh.workers p) (task.startLayer, task.endLayer) input
      task.tokens task.sequenceId = (t, .ok (output, logits)))
    (hlen : output.length ≤ Primitives.decompressLimit) :
    ∃ sealed, prim.crypto.isEmpty sealed = false ∧
      prim.crypto.openState clusterKey task.taskId sealed = .ok output ∧
      mesh.arrive (prim.platform ids) (executing prim ids clusterKey backend) rest rng
          (.toPeer p (.processTask task)) =
        ({ mesh with
            workers := Function.update mesh.workers p t
            inFlight := rest ++ [.toMaster (.taskResult
              { taskId := task.taskId
                sequenceId := task.sequenceId
                outputState := sealed
                logits })] }, none) := by
  obtain ⟨sealed, hseal, hnonempty', hopen'⟩ := lawful.seal_open rng clusterKey task.taskId hlen
  have hwork : executing prim ids clusterKey backend rng mesh.workers p (.processTask task) = _ :=
    executors_of_opened hnonempty hopen (fun _ => rng) mesh.workers
  have hseal' : (prim.platform ids).crypto.sealState rng clusterKey task.taskId output =
    .ok sealed := hseal
  simp only [hpass, hseal'] at hwork
  exact ⟨sealed, hnonempty', hopen', arrive_of_result hwork⟩

/-- A task whose stage fails is not answered. -/
theorem arrive_task_of_error {clusterKey input : Bytes} {task : ProcessTask P Bytes} {p : P}
    (hnonempty : prim.crypto.isEmpty task.inputState = false)
    (hopen : prim.crypto.openState clusterKey task.taskId task.inputState = .ok input) {t : τ p}
    {e : String} (hpass : passState (backend p) (mesh.workers p) (task.startLayer, task.endLayer)
      input task.tokens task.sequenceId = (t, .error e)) :
    mesh.arrive (prim.platform ids) (executing prim ids clusterKey backend) rest rng
        (.toPeer p (.processTask task)) =
      ({ mesh with workers := Function.update mesh.workers p t, inFlight := rest }, none) := by
  have hwork : executing prim ids clusterKey backend rng mesh.workers p (.processTask task) = _ :=
    executors_of_opened hnonempty hopen (fun _ => rng) mesh.workers
  rw [hpass] at hwork
  exact arrive_of_failure hwork

end Executors

end Mesh

end NeuralSwarm
