import NeuralSwarm.SliceCoherence

/-!
# Leftover hidden states

A stage after the first computes from the hidden state that its task brings.  A task that brings
none meets the hidden state that the backend still has: the output of the last run that succeeded,
unless another slice has been loaded since.  Only where nothing is left over is it refused.
-/

namespace NeuralSwarm

variable {P S T Q : Type}

namespace CandleBackend

/-- A task for a stage after the first that brings no hidden state. -/
def BringsNoState (crypto : Crypto S Bytes) (executor : Executor Bytes)
    (task : ProcessTask P Bytes) : Prop :=
  0 < task.startLayer ∧ (crypto.isEmpty task.inputState = true ∨
    crypto.openState executor.clusterKey task.taskId task.inputState = .ok [])

/-- The backend has no hidden state, or loses it when it loads the slice. -/
def NothingLeft (s : CandleBackend T) (task : ProcessTask P Bytes) : Prop :=
  s.HasSlice task.startLayer task.endLayer → s.intermediateState = none

variable {crypto : Crypto S Bytes} {executor : Executor Bytes} {candle : Candle T Q}
  {openGguf : ModelSource → Except String (Gguf Q)} {s s' : CandleBackend T}
  {task : ProcessTask P Bytes}

/-- A task that brings no state leaves the one that the backend has. -/
theorem injectState_of_bringsNoState (h : BringsNoState crypto executor task) :
    executor.injectState crypto (backend candle openGguf) s task = (s, .ok ()) := by
  unfold Executor.injectState
  by_cases hempty : crypto.isEmpty task.inputState = true
  · rw [if_pos hempty]
  · rw [if_neg hempty, h.2.resolve_left hempty]
    rfl

/-- Without a hidden state, a stage after the first does not run. -/
theorem runLayers_of_none {startLayer : ℕ} (hstart : 0 < startLayer)
    (hmodel : s.model.isSome = true) (hnone : s.intermediateState = none) (endLayer : ℕ)
    (tokens : List ℤ) (sequenceId : ℕ) :
    s.runLayers candle startLayer endLayer tokens sequenceId =
      (s, .error "non-entry node received no upstream hidden state") := by
  obtain ⟨model, hmodel⟩ := Option.isSome_iff_exists.1 hmodel
  have htake : s.takeInput candle model startLayer tokens =
      (s, .error "non-entry node received no upstream hidden state") := by
    simp only [takeInput, if_neg (Nat.pos_iff_ne_zero.1 hstart), hnone]
  simp only [runLayers, hmodel, htake]

/-- Where nothing is left over, a task that brings no state is refused. -/
theorem runTask_of_nothingLeft (candle : Candle T Q)
    (openGguf : ModelSource → Except String (Gguf Q)) (h : BringsNoState crypto executor task)
    (nothing : s.NothingLeft task) (rng : Entropy) :
    ∃ s' e, executor.runTask crypto (backend candle openGguf) rng s (.processTask task) =
      (s', .error e) := by
  have hensure : (backend candle openGguf).ensureLayers = loadLayerRange candle openGguf := rfl
  have hlayers : (backend candle openGguf).runLayers = runLayers candle := rfl
  simp only [Executor.runTask, hensure, hlayers]
  rcases hload : s.loadLayerRange candle openGguf task.startLayer task.endLayer with ⟨s1, e | ⟨⟩⟩
  · exact ⟨s1, e, rfl⟩
  · have hslice : s1.HasSlice task.startLayer task.endLayer := hasSlice_of_loadLayerRange hload
    have hnone : s1.intermediateState = none := by
      obtain ⟨hbefore, rfl⟩ | ⟨-, source, model, -, -, rfl⟩ := loadLayerRange_cases hload
      · exact nothing hbefore
      · rfl
    simp only [injectState_of_bringsNoState h, runLayers_of_none h.1 hslice.2 hnone]
    exact ⟨s1, _, rfl⟩

variable (crypto executor candle openGguf s task) in
theorem resident_injectState :
    (executor.injectState crypto (backend candle openGguf) s task).1.resident = s.resident := by
  unfold Executor.injectState
  split
  · rfl
  · split
    · rfl
    · exact resident_setState candle s _

theorem HasSlice.of_resident {start stop : ℕ} (hslice : s.HasSlice start stop)
    (h : s'.resident = s.resident) : s'.HasSlice start stop := by
  simp only [resident, Prod.mk.injEq] at h
  have hmodel := congrArg Option.isSome h.2.2
  rw [Option.isSome_map, Option.isSome_map] at hmodel
  exact ⟨h.2.1.trans hslice.1, hmodel.trans hslice.2⟩

/-- A run that succeeds leaves a hidden state. -/
theorem intermediateState_ne_none_of_runLayers {startLayer endLayer : ℕ} {tokens : List ℤ}
    {sequenceId : ℕ} {logits : List Float32} (hmodel : s.model.isSome = true)
    (h : s.runLayers candle startLayer endLayer tokens sequenceId = (s', .ok logits)) :
    s'.intermediateState ≠ none := by
  obtain ⟨model, hmodel⟩ := Option.isSome_iff_exists.1 hmodel
  simp only [runLayers, hmodel] at h
  split at h
  · cases h
  · split at h
    · cases h
    · split at h
      · cases h
      · obtain ⟨rfl, -⟩ := Prod.mk.inj h
        exact Option.some_ne_none _

/-- A task that is processed leaves a hidden state, which the next task for the same layers meets if
it brings none. -/
theorem not_nothingLeft_of_ok {rng : Entropy} {result : SwarmMessage Float32 P Bytes}
    {route : Option (RouteTicket P)}
    (h : executor.runTask crypto (backend candle openGguf) rng s (.processTask task) =
      (s', .ok (some (result, route)))) : ¬ s'.NothingLeft task := by
  obtain ⟨_, s1, s2, logits, _, _, htask, hensure, hinject, hrun, -⟩ :=
    Executor.runTask_eq_ok_some h
  cases htask
  have hload : s.loadLayerRange candle openGguf task.startLayer task.endLayer = (s1, .ok ()) :=
    hensure
  have hlayers : s2.runLayers candle task.startLayer task.endLayer task.tokens task.sequenceId =
    (s', .ok logits) := hrun
  have hinjected : s2.resident = s1.resident := by
    have hresident := resident_injectState crypto executor candle openGguf s1 task
    rwa [hinject] at hresident
  have hrunned : s'.resident = s2.resident := by
    have hresident := resident_runLayers candle s2 task.startLayer task.endLayer task.tokens
      task.sequenceId
    rwa [hlayers] at hresident
  have hslice := (hasSlice_of_loadLayerRange hload).of_resident hinjected
  intro nothing
  exact intermediateState_ne_none_of_runLayers hslice.2 hlayers
    (nothing (hslice.of_resident hrunned))

/-! ## A history of tasks -/

/-- Whatever the history of tasks, as long as nothing is left over when a task for a later stage
brings no hidden state, each such task is answered with an error. -/
theorem answers_of_nothingLeft (s : CandleBackend T) (inputs : List (Entropy × ProcessTask P Bytes))
    (nothing : (taskMachine crypto executor candle openGguf).Guarded
      (fun s input => BringsNoState crypto executor input.2 → s.NothingLeft input.2) s inputs) :
    ∀ x ∈ inputs.zip ((taskMachine crypto executor candle openGguf).answers s inputs),
      BringsNoState crypto executor x.1.2 → ∃ e, x.2 = .error e := by
  induction inputs generalizing s with
  | nil => simp
  | cons input inputs ih =>
    rw [Mealy.answers, List.zip_cons_cons, List.forall_mem_cons]
    refine ⟨fun h => ?_, ih _ nothing.2⟩
    obtain ⟨s', e, hrun⟩ := runTask_of_nothingLeft candle openGguf h (nothing.1 h)
      input.1
    exact ⟨e, congrArg Prod.snd hrun⟩

/-! ## A task without a state after another -/

/-- A task for the second of two layers; `state` is the hidden state that it brings. -/
def secondStageTask (taskId : String) (state : Option Bytes) :
    Entropy × ProcessTask Ed25519PeerId Bytes :=
  (fun _ => 0,
    { taskId
      sequenceId := 0
      inputState := (state.bind fun state =>
        (Platform.reference.crypto.sealState (fun _ => 0) [] taskId state).toOption).getD []
      startLayer := 1
      endLayer := 2
      tokens := [0]
      route := none })

/-- A node that processes tasks for a model of two layers. -/
def twoLayerNode : Mealy (CandleBackend Shape) (Entropy × ProcessTask Ed25519PeerId Bytes)
    (Except String (Option (SwarmMessage Float32 Ed25519PeerId Bytes ×
      Option (RouteTicket Ed25519PeerId)))) :=
  taskMachine Platform.reference.crypto ⟨"node", []⟩ Candle.shapes fun _ => .ok (Gguf.zeros 2)

def hiddenState : Bytes := (KVCacheState.f32 1 1 2 [0, 0]).serialize

instance (task : ProcessTask Ed25519PeerId Bytes) (crypto : Crypto S Bytes) :
    Decidable (BringsNoState crypto executor task) := inferInstanceAs (Decidable (_ ∧ _))

instance (s : CandleBackend Shape) (task : ProcessTask Ed25519PeerId Bytes) :
    Decidable (s.NothingLeft task) :=
  decidable_of_iff (s.HasSlice task.startLayer task.endLayer → s.intermediateState.isNone = true)
    (by rw [NothingLeft, Option.isNone_iff_eq_none])

theorem answers_of_nothingLeft_two_tasks :
    let inputs := [secondStageTask "a" none, secondStageTask "b" none]
    ∀ x ∈ inputs.zip (twoLayerNode.answers (ofSource (.path "model.gguf")) inputs),
      ∃ e, x.2 = .error e := by
  intro inputs x hx
  have hstate : ∀ input ∈ inputs,
      BringsNoState Platform.reference.crypto ⟨"node", []⟩ input.2 := by decide
  exact answers_of_nothingLeft _ _ (by decide +kernel) x hx
    (hstate x.1 (List.of_mem_zip hx).1)

/-- After a task that brings its hidden state, one that brings none is answered from what that one
left. -/
theorem not_answers_error :
    ¬ ∀ (s : CandleBackend Shape) (inputs : List (Entropy × ProcessTask Ed25519PeerId Bytes)),
      ∀ x ∈ inputs.zip (twoLayerNode.answers s inputs),
        BringsNoState Platform.reference.crypto ⟨"node", []⟩ x.1.2 → ∃ e, x.2 = .error e := by
  intro h
  let first := secondStageTask "a" (some hiddenState)
  let second := secondStageTask "b" none
  let between := (twoLayerNode.step (ofSource (.path "model.gguf")) first).1
  have hmem : (second, (twoLayerNode.step between second).2) ∈ [first, second].zip
      (twoLayerNode.answers (ofSource (.path "model.gguf")) [first, second]) :=
    List.mem_cons_of_mem _ (List.mem_singleton_self _)
  obtain ⟨e, herror⟩ := h (ofSource (.path "model.gguf")) [first, second] _ hmem (by decide)
  have hok : (twoLayerNode.step between second).2.isOk = true := by decide +kernel
  rw [herror] at hok
  cases hok

end CandleBackend

end NeuralSwarm
