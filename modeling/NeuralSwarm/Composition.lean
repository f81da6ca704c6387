import Mathlib.Logic.Function.Basic
import NeuralSwarm.Executor
import NeuralSwarm.Traversal

/-!
# A pipeline is the sequential composition of its backends

`passState` is what a stage is for: it takes the hidden state of the stage before, computes, and
hands on its own.  `forwardAll` composes the stages.  Orchestrator, pipeline and executors, with
their sealing and opening, compute exactly this composition (`runSequence_eq_forwardAll`).
-/

namespace NeuralSwarm

variable {F P S : Type} {τ : P → Type}

/-- One stage: it holds its layers, receives a state, computes and returns its own state. -/
def passState {σ B : Type} (backend : InferenceBackend σ F B) (s : σ) (layers : ℕ × ℕ) (input : B)
    (tokens : List ℤ) (sequenceId : ℕ) : σ × Except String (B × List F) :=
  match backend.ensureLayers s layers.1 layers.2 with
  | (s, .error e) => (s, .error e)
  | (s, .ok ()) =>
    match backend.setState s input with
    | (s, .error e) => (s, .error e)
    | (s, .ok ()) =>
      match backend.runLayers s layers.1 layers.2 tokens sequenceId with
      | (s, .error e) => (s, .error e)
      | (s, .ok logits) =>
        match backend.getState s with
        | .error e => (s, .error e)
        | .ok output => (s, .ok (output, logits))

/-- What a composition of stages leaves: the backends, the states handed on, the last logits. -/
structure Forwarded (F B : Type) {P : Type} (τ : P → Type) where
  workers : ∀ p, τ p
  payloads : List B
  logits : Option (List F)

/-- The stages one after the other, each on the state that the one before returned; `logits` are
those of the stage before. -/
def forwardAll {B : Type} [DecidableEq P] (backend : ∀ p, InferenceBackend (τ p) F B)
    (tokens : List ℤ) (sequenceId : ℕ) :
    (∀ p, τ p) → B → Option (List F) → List (P × ℕ × ℕ) → Forwarded F B τ
  | s, _, logits, [] => { workers := s, payloads := [], logits }
  | s, input, _, (p, layers) :: rest =>
    match passState (backend p) (s p) layers input tokens sequenceId with
    | (t, .error _) => { workers := Function.update s p t, payloads := [], logits := none }
    | (t, .ok (output, logits)) =>
      let onward :=
        forwardAll backend tokens sequenceId (Function.update s p t) output (some logits) rest
      { onward with payloads := output :: onward.payloads }

/-- Every peer has an executor with the cluster key and a backend of its own. -/
def executors {B : Type} [DecidableEq P] (env : Platform P S B) (clusterKey : B)
    (backend : ∀ p, InferenceBackend (τ p) F B) (rng : P → Entropy) : Work F P B (∀ p, τ p) :=
  fun s p msg =>
    let executor : Executor B := { deviceId := env.peerIds.toString p, clusterKey }
    let (t, answer) := executor.runTask env.crypto (backend p) (rng p) (s p) msg
    (Function.update s p t, answer.map (Option.map Prod.fst))

theorem exists_passState {σ B : Type} {backend : InferenceBackend σ F B}
    (never : backend.NeverFails) (s : σ) (layers : ℕ × ℕ) (input : B) (tokens : List ℤ)
    (sequenceId : ℕ) :
    ∃ s1 s2 t output logits, backend.ensureLayers s layers.1 layers.2 = (s1, .ok ()) ∧
      backend.setState s1 input = (s2, .ok ()) ∧
      backend.runLayers s2 layers.1 layers.2 tokens sequenceId = (t, .ok logits) ∧
      backend.getState t = .ok output ∧
      passState backend s layers input tokens sequenceId = (t, .ok (output, logits)) := by
  obtain ⟨s1, h1⟩ := never.ensureLayers s layers.1 layers.2
  obtain ⟨s2, h2⟩ := never.setState s1 input
  obtain ⟨t, logits, h3⟩ := never.runLayers s2 layers.1 layers.2 tokens sequenceId
  obtain ⟨output, h4⟩ := never.getState t
  exact ⟨s1, s2, t, output, logits, h1, h2, h3, h4, by simp only [passState, h1, h2, h3, h4]⟩

/-- The executor that can open its input does what the stage is for, and seals the output. -/
theorem runTask_of_passState {prim : Primitives S} (lawful : prim.Lawful) {σ : Type}
    {backend : InferenceBackend σ F Bytes} (never : backend.NeverFails) {executor : Executor Bytes}
    {s t : σ} {task : ProcessTask P Bytes} {input output : Bytes} {logits : List F}
    (hpass : passState backend s (task.startLayer, task.endLayer) input task.tokens
      task.sequenceId = (t, .ok (output, logits)))
    (hlen : output.length ≤ Primitives.decompressLimit)
    (hnonempty : prim.crypto.isEmpty task.inputState = false)
    (hopen : prim.crypto.openState executor.clusterKey task.taskId task.inputState = .ok input)
    (rng : Entropy) :
    ∃ sealed, executor.runTask prim.crypto backend rng s (.processTask task) =
        (t, .ok (some
          (.taskResult
            { taskId := task.taskId
              sequenceId := task.sequenceId
              outputState := sealed
              logits },
            task.route))) ∧
      prim.crypto.isEmpty sealed = false ∧
      prim.crypto.openState executor.clusterKey task.taskId sealed = .ok output := by
  obtain ⟨s1, s2, t', output', logits', h1, h2, h3, h4, hpass'⟩ := exists_passState never s
    (task.startLayer, task.endLayer) input task.tokens task.sequenceId
  cases hpass.symm.trans hpass'
  obtain ⟨sealed, hseal, hne, hopen'⟩ :=
    lawful.seal_open rng executor.clusterKey task.taskId hlen
  have hinject : executor.injectState prim.crypto backend s1 task = (s2, .ok ()) := by
    simp only [Executor.injectState, hnonempty, Bool.false_eq_true, if_false, hopen, h2]
  exact ⟨sealed, by simp only [Executor.runTask, h1, hinject, h3, h4, hseal], hne, hopen'⟩

variable [DecidableEq P]

theorem executors_of_runTask {B : Type} {env : Platform P S B} {clusterKey : B}
    {backend : ∀ p, InferenceBackend (τ p) F B} {rng : P → Entropy} {s : ∀ p, τ p} {p : P}
    {msg result : SwarmMessage F P B} {t : τ p} {route : Option (RouteTicket P)}
    (h : Executor.runTask env.crypto { deviceId := env.peerIds.toString p, clusterKey } (backend p)
      (rng p) (s p) msg = (t, .ok (some (result, route)))) :
    executors env clusterKey backend rng s p msg =
      (Function.update s p t, .ok (some result)) := by
  rw [executors, h]
  rfl

/-- The executors make a journey along the stages, and it is the composition of the backends. -/
theorem exists_journey_executors {prim : Primitives S} (lawful : prim.Lawful) {ids : PeerIds P}
    {backend : ∀ p, InferenceBackend (τ p) F Bytes} (never : ∀ p, (backend p).NeverFails)
    (clusterKey : Bytes) (rng : P → Entropy) (pipeline : InferencePipeline P) (sequenceId : ℕ)
    (taskId : String) (tokens : List ℤ) {stages : List (P × NodeEntry F)} (hne : stages ≠ [])
    (k : ℕ) (s : ∀ p, τ p) (before : Option (List F)) {sealed input : Bytes}
    (hlen : ∀ x ∈ (forwardAll backend tokens sequenceId s input before
      (stages.map fun stage => (stage.1, stage.2.layerRange))).payloads,
        x.length ≤ Primitives.decompressLimit)
    (hnonempty : prim.crypto.isEmpty sealed = false)
    (hopen : prim.crypto.openState clusterKey taskId sealed = .ok input) :
    ∃ tasks s' logits,
      Journey (executors (prim.platform ids) clusterKey backend rng) pipeline
        sequenceId taskId tokens k s sealed stages tasks s' logits ∧
      (forwardAll backend tokens sequenceId s input before
        (stages.map fun stage => (stage.1, stage.2.layerRange))).workers = s' ∧
      (forwardAll backend tokens sequenceId s input before
        (stages.map fun stage => (stage.1, stage.2.layerRange))).logits = some logits := by
  induction stages generalizing k s before sealed input with
  | nil => exact absurd rfl hne
  | cons stage rest ih =>
    let task : ProcessTask P Bytes :=
      pipeline.stageTask k sequenceId taskId tokens sealed stage.2.layerRange
    obtain ⟨-, -, t, output, logits, -, -, -, -, hpass⟩ := exists_passState (never stage.1)
      (s stage.1) stage.2.layerRange input tokens sequenceId
    simp only [List.map_cons, forwardAll, hpass, List.forall_mem_cons] at hlen ⊢
    obtain ⟨hlenOutput, hlenRest⟩ := hlen
    have hpassTask : passState (backend stage.1) (s stage.1) (task.startLayer, task.endLayer) input
        task.tokens task.sequenceId = (t, .ok (output, logits)) := hpass
    have hopenTask : prim.crypto.openState
        (Executor.mk ((prim.platform ids).peerIds.toString stage.1) clusterKey).clusterKey
          task.taskId task.inputState = .ok input := hopen
    obtain ⟨sealed', hrun, hnonempty', hopen'⟩ := runTask_of_passState lawful (never stage.1)
      hpassTask hlenOutput hnonempty hopenTask (rng stage.1)
    have answer : executors (prim.platform ids) clusterKey backend rng s stage.1
        (.processTask task) = (Function.update s stage.1 t,
          .ok (some (.taskResult { taskId, sequenceId, outputState := sealed', logits }))) :=
      executors_of_runTask hrun
    rcases rest with _ | ⟨stage', rest⟩
    · exact ⟨_, _, logits, .last answer, rfl, rfl⟩
    · obtain ⟨tasks, s', logits', journey, hworkers, hlogits⟩ := ih (List.cons_ne_nil _ _) (k + 1)
        (Function.update s stage.1 t) (some logits) hlenRest hnonempty' hopen'
      exact ⟨_, s', logits', .next answer journey, hworkers, hlogits⟩

variable [Scalar F]

/-- Right after a rebalance, a sequence that is run by the executors of its stages finishes as the
composition of their backends does: with the same states of the backends and the same logits. -/
theorem runSequence_eq_forwardAll {prim : Primitives S} (lawful : prim.Lawful) {ids : PeerIds P}
    {backend : ∀ p, InferenceBackend (τ p) F Bytes} (never : ∀ p, (backend p).NeverFails)
    {o : Orchestrator F P Bytes} (fresh : o.JustRebalanced (prim.platform ids))
    (hactive : o.registry.activeNodes ≠ []) (rng : P → Entropy) (s : ∀ p, τ p) (sealing : Entropy)
    (sequenceId : ℕ) (taskId : String) (tokens : List ℤ) {initialState : Bytes}
    (hinitial : initialState.length ≤ Primitives.decompressLimit)
    (hlen : ∀ x ∈ (forwardAll backend tokens sequenceId s initialState none
      (o.pipeline.pipelineStages.zip (o.registry.sortedByCapacity.map (·.layerRange)))).payloads,
        x.length ≤ Primitives.decompressLimit) :
    let composed := forwardAll backend tokens sequenceId s initialState none
      (o.pipeline.pipelineStages.zip (o.registry.sortedByCapacity.map (·.layerRange)))
    o.pipeline.pipelineStages.map ids.toString = o.registry.sortedByCapacity.map (·.id) ∧
      ∃ t logits, runSequence (prim.platform ids)
          (executors (prim.platform ids) o.clusterKey backend rng) o.pipeline.pipelineStages.length
          o s sealing sequenceId taskId tokens initialState = some t ∧
        t.logits = some logits ∧ composed.logits = some logits ∧ t.workers = composed.workers := by
  intro composed
  obtain ⟨route, routed⟩ := fresh.exists_routed
  have hroute : route ≠ [] := by
    rintro rfl
    exact hactive (NodeRegistry.sortedByCapacity_eq_nil_iff.1 routed.sorted)
  have hzip : o.pipeline.pipelineStages.zip (o.registry.sortedByCapacity.map (·.layerRange)) =
      route.map fun stage => (stage.1, stage.2.layerRange) := by
    rw [routed.stages, routed.sorted, List.map_map, List.zip_map']
    rfl
  rw [hzip] at hlen
  obtain ⟨sealed, hseal, hnonempty, hopen⟩ := lawful.seal_open sealing o.clusterKey taskId hinitial
  obtain ⟨tasks, s', logits, journey, hworkers, hlogits⟩ :=
    exists_journey_executors lawful never o.clusterKey rng o.pipeline sequenceId taskId tokens
      hroute 0 s none hlen hnonempty hopen
  have hstages : route.length ≤ o.pipeline.pipelineStages.length := by
    rw [routed.stages, List.length_map]
  refine ⟨?_, _, logits, runSequence_of_journey routed hseal journey hstages, rfl, ?_, ?_⟩
  · rw [routed.stages, routed.sorted, List.map_map, List.map_map]
    refine List.map_congr_left fun stage hstage => ?_
    exact ids.toString_of_parse (routed.parsed stage hstage)
  · simp only [composed, hzip, hlogits]
  · simp only [composed, hzip, hworkers]

/-- The mock backend of the repository's tests: it keeps its state and scales the tokens. -/
def mockBackend : InferenceBackend Bytes Float32 Bytes where
  ensureLayers s _ _ := (s, .ok ())
  setState _ state := (state, .ok ())
  getState s := .ok s
  runLayers s _ _ tokens _ := (s, .ok (tokens.map fun t => Float32.ofInt t / 10.0))

theorem mockBackend_neverFails : mockBackend.NeverFails where
  ensureLayers s _ _ := ⟨s, rfl⟩
  setState _ state := ⟨state, rfl⟩
  getState s := ⟨s, rfl⟩
  runLayers s _ _ _ _ := ⟨s, _, rfl⟩

theorem runSequence_eq_forwardAll_two_peers :
    let env := Primitives.reference.platform .ed25519
    let o := announced env 32 "secret" [] twoAnnouncements
    let composed := forwardAll (fun _ => mockBackend) [42] 1 (fun _ => []) [1, 2, 3, 4] none
      (o.pipeline.pipelineStages.zip (o.registry.sortedByCapacity.map (·.layerRange)))
    o.pipeline.pipelineStages.map PeerIds.ed25519.toString =
        o.registry.sortedByCapacity.map (·.id) ∧
      ∃ t logits, runSequence env (executors env o.clusterKey (fun _ => mockBackend) fun _ _ => 0)
          o.pipeline.pipelineStages.length o (fun _ => []) (fun _ => 0) 1 "task1" [42]
          [1, 2, 3, 4] = some t ∧
        t.logits = some logits ∧ composed.logits = some logits ∧ t.workers = composed.workers := by
  have hne : twoAnnouncements ≠ [] := List.cons_ne_nil _ _
  have hvalid : ∀ a ∈ twoAnnouncements, PeerIds.ed25519.Valid a.deviceId := by decide +kernel
  have fresh : (announced (Primitives.reference.platform .ed25519) 32 "secret" []
      twoAnnouncements).JustRebalanced (Primitives.reference.platform .ed25519) :=
    announced_justRebalanced 32 "secret" [] hne hvalid
  exact runSequence_eq_forwardAll Primitives.reference_lawful (fun _ => mockBackend_neverFails)
    fresh (by decide +kernel) (fun _ _ => 0) (fun _ => []) (fun _ => 0) 1 "task1" [42] (by decide)
    (by decide +kernel)

end NeuralSwarm
