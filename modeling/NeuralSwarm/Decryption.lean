import NeuralSwarm.Isolation
import NeuralSwarm.Worker

/-!
# Tasks that cannot be opened

`run_task` ensures the layers of a task before it opens the state that came with it.  A task whose
state cannot be opened leaves the backend as it is if it names the slice in memory; for any other
slice the backend has already loaded it, with empty caches, and dropped its hidden state.
-/

namespace NeuralSwarm

variable {F P S B T Q σ : Type}

namespace Executor

/-- The state of the task cannot be opened under its id and the cluster key. -/
def Undecryptable (crypto : Crypto S B) (executor : Executor B) (task : ProcessTask P B)
    (e : String) : Prop :=
  crypto.isEmpty task.inputState = false ∧
    crypto.decryptWithAad task.inputState executor.clusterKey (crypto.asBytes task.taskId) =
      .error e

variable {crypto : Crypto S B} {executor : Executor B} {backend : InferenceBackend σ F B}

/-- A task that cannot be opened leaves what ensuring its layers has left. -/
theorem runTask_of_undecryptable {rng : Entropy} {s s' : σ} {task : ProcessTask P B} {e : String}
    (h : Undecryptable crypto executor task e)
    (hensure : backend.ensureLayers s task.startLayer task.endLayer = (s', .ok ())) :
    executor.runTask crypto backend rng s (.processTask task) =
      (s', .error ("Decryption failed: " ++ e)) := by
  have hinject : executor.injectState crypto backend s' task =
      (s', .error ("Decryption failed: " ++ e)) := by
    simp only [injectState, h.1, Bool.false_eq_true, if_false, Crypto.openState, h.2]
  simp only [runTask, hensure, hinject]

end Executor

namespace CandleBackend

variable {candle : Candle T Q} {openGguf : ModelSource → Except String (Gguf Q)}
  {s s' : CandleBackend T} {start stop : ℕ}

/-- The slice of these layers is in memory. -/
def HasSlice (s : CandleBackend T) (start stop : ℕ) : Prop :=
  s.loadedRange = some (start, stop) ∧ s.model.isSome = true

instance (s : CandleBackend T) (start stop : ℕ) : Decidable (s.HasSlice start stop) :=
  inferInstanceAs (Decidable (_ ∧ _))

theorem loadLayerRange_of_hasSlice (h : s.HasSlice start stop) :
    s.loadLayerRange candle openGguf start stop = (s, .ok ()) := if_pos h

/-- A load that fails changes nothing. -/
theorem loadLayerRange_eq_error {e : String}
    (hload : s.loadLayerRange candle openGguf start stop = (s', .error e)) : s' = s := by
  unfold loadLayerRange at hload
  split at hload
  · cases hload
  · split at hload
    · cases hload
      rfl
    · split at hload <;> cases hload
      rfl

/-- What a load of another slice leaves. -/
theorem loadLayerRange_eq_ok (h : ¬ s.HasSlice start stop)
    (hload : s.loadLayerRange candle openGguf start stop = (s', .ok ())) :
    ∃ source model, s.source = some source ∧
      loadSlice candle openGguf source start stop = .ok model ∧
      s' = { s with
        model := some model
        loadedRange := some (start, stop)
        intermediateState := none } := by
  have hother : ¬ (s.loadedRange = some (start, stop) ∧ s.model.isSome = true) := h
  rw [loadLayerRange, if_neg hother] at hload
  cases hsource : s.source with
  | none =>
    rw [hsource] at hload
    cases hload
  | some source =>
    simp only [hsource] at hload
    cases hslice : loadSlice candle openGguf source start stop with
    | error e =>
      rw [hslice] at hload
      cases hload
    | ok model =>
      simp only [hslice] at hload
      cases hload
      exact ⟨source, model, rfl, hslice, rfl⟩

/-- A load that succeeds has found the slice in memory or loaded it. -/
theorem loadLayerRange_cases
    (hload : s.loadLayerRange candle openGguf start stop = (s', .ok ())) :
    (s.HasSlice start stop ∧ s' = s) ∨
    (¬ s.HasSlice start stop ∧ ∃ source model, s.source = some source ∧
      loadSlice candle openGguf source start stop = .ok model ∧
      s' = { s with
        model := some model
        loadedRange := some (start, stop)
        intermediateState := none }) := by
  by_cases hslice : s.HasSlice start stop
  · rw [loadLayerRange_of_hasSlice hslice] at hload
    cases hload
    exact .inl ⟨hslice, rfl⟩
  · exact .inr ⟨hslice, loadLayerRange_eq_ok hslice hload⟩

/-- Once layers are ensured, their slice is in memory. -/
theorem hasSlice_of_loadLayerRange
    (hload : s.loadLayerRange candle openGguf start stop = (s', .ok ())) :
    s'.HasSlice start stop := by
  obtain ⟨hslice, rfl⟩ | ⟨-, source, model, -, -, rfl⟩ := loadLayerRange_cases hload
  · exact hslice
  · exact ⟨rfl, rfl⟩

/-- A load changes nothing exactly if the slice was in memory. -/
theorem loadLayerRange_eq_self_iff
    (hload : s.loadLayerRange candle openGguf start stop = (s', .ok ())) :
    s' = s ↔ s.HasSlice start stop := by
  constructor
  · rintro rfl
    exact hasSlice_of_loadLayerRange hload
  · intro h
    rw [loadLayerRange_of_hasSlice h] at hload
    cases hload
    rfl

variable {crypto : Crypto S Bytes} {executor : Executor Bytes} {task : ProcessTask P Bytes}
  {e : String}

/-- A task that fails because its state cannot be opened leaves the backend as it was exactly if it
names the slice in memory; otherwise it leaves the newly loaded slice and no hidden state. -/
theorem runTask_undecryptable (rng : Entropy)
    (h : Executor.Undecryptable crypto executor task e)
    (hload : s.loadLayerRange candle openGguf task.startLayer task.endLayer = (s', .ok ())) :
    executor.runTask crypto (backend candle openGguf) rng s (.processTask task) =
        (s', .error ("Decryption failed: " ++ e)) ∧
      (s' = s ↔ s.HasSlice task.startLayer task.endLayer) ∧
      (¬ s.HasSlice task.startLayer task.endLayer → ∃ source model, s.source = some source ∧
        loadSlice candle openGguf source task.startLayer task.endLayer = .ok model ∧
        s' = { s with
          model := some model
          loadedRange := some (task.startLayer, task.endLayer)
          intermediateState := none }) :=
  ⟨Executor.runTask_of_undecryptable h hload, loadLayerRange_eq_self_iff hload,
    fun hother => loadLayerRange_eq_ok hother hload⟩

/-- However many tasks for the slice in memory cannot be opened, the backend stays as it is. -/
theorem run_undecryptable (hslice : s.HasSlice start stop)
    {inputs : List (Entropy × SwarmMessage Float32 P Bytes)}
    (h : ∀ input ∈ inputs, ∃ task e, input.2 = .processTask task ∧ task.startLayer = start ∧
      task.endLayer = stop ∧ Executor.Undecryptable crypto executor task e) :
    (executor.worker crypto (backend candle openGguf)).run s inputs = s := by
  have preserved : ∀ (t : CandleBackend T) (input : Entropy × SwarmMessage Float32 P Bytes),
      t = s → (∃ task e, input.2 = .processTask task ∧ task.startLayer = start ∧
        task.endLayer = stop ∧ Executor.Undecryptable crypto executor task e) →
      ((executor.worker crypto (backend candle openGguf)).step t input).1 = s := by
    rintro t ⟨rng, _⟩ rfl ⟨task, e, rfl, rfl, rfl, hundecryptable⟩
    have hload : (backend candle openGguf).ensureLayers t task.startLayer task.endLayer =
        (t, .ok ()) := loadLayerRange_of_hasSlice hslice
    exact congrArg Prod.fst (Executor.runTask_of_undecryptable hundecryptable hload)
  exact Mealy.invariant _ preserved rfl (Mealy.guarded_of_forall _ s h)

/-! ## A forged task -/

/-- The model source of the examples: a file with one layer. -/
def oneLayer : ModelSource → Except String (Gguf Shape) := fun _ => .ok (Gguf.zeros 1)

/-- The backend of a node that has processed one task. -/
def afterLayerTask : CandleBackend Shape :=
  ((⟨"node", []⟩ : Executor Bytes).runTask Platform.reference.crypto
    (backend Candle.shapes oneLayer) (fun _ => 0) (ofSource (.path "model.gguf"))
    (.processTask (layerTask "a" 0 [1, 0]).2)).1

/-- A task for the given layers whose state is not sealed. -/
def forgedTask (startLayer endLayer : ℕ) : ProcessTask Ed25519PeerId Bytes :=
  { (layerTask "b" 0 [1]).2 with inputState := List.replicate 12 1, startLayer, endLayer }

theorem loadLayerRange_forged :
    afterLayerTask.loadLayerRange Candle.shapes oneLayer 0 2 =
      ((afterLayerTask.loadLayerRange Candle.shapes oneLayer 0 2).1, .ok ()) :=
  Prod.ext rfl (by decide +kernel)

theorem undecryptable_forged : Executor.Undecryptable Platform.reference.crypto ⟨"node", []⟩
    (forgedTask 0 2) "Decryption failed: aead::Error" := ⟨rfl, by decide +kernel⟩

theorem runTask_undecryptable_forged :
    let s' := (afterLayerTask.loadLayerRange Candle.shapes oneLayer 0 2).1
    (⟨"node", []⟩ : Executor Bytes).runTask Platform.reference.crypto
        (backend Candle.shapes oneLayer) (fun _ => 0) afterLayerTask
        (.processTask (forgedTask 0 2)) =
        (s', .error ("Decryption failed: " ++ "Decryption failed: aead::Error")) ∧
      (s' = afterLayerTask ↔ afterLayerTask.HasSlice 0 2) ∧
      (¬ afterLayerTask.HasSlice 0 2 → ∃ source model, afterLayerTask.source = some source ∧
        loadSlice Candle.shapes oneLayer source 0 2 = .ok model ∧
        s' = { afterLayerTask with
          model := some model
          loadedRange := some (0, 2)
          intermediateState := none }) :=
  runTask_undecryptable (fun _ => 0) undecryptable_forged loadLayerRange_forged

/-- A forged task for other layers makes the backend load them and drop its hidden state. -/
theorem not_untouched_forged :
    ¬ ∀ (task : ProcessTask Ed25519PeerId Bytes) (e : String),
      Executor.Undecryptable Platform.reference.crypto ⟨"node", []⟩ task e →
      let after := (⟨"node", []⟩ : Executor Bytes).runTask Platform.reference.crypto
        (backend Candle.shapes oneLayer) (fun _ => 0) afterLayerTask (.processTask task)
      after.2 = .error ("Decryption failed: " ++ e) → after.1 = afterLayerTask := by
  intro h
  have hrun : (⟨"node", []⟩ : Executor Bytes).runTask Platform.reference.crypto
      (backend Candle.shapes oneLayer) (fun _ => 0) afterLayerTask
      (.processTask (forgedTask 0 2)) = _ :=
    Executor.runTask_of_undecryptable undecryptable_forged loadLayerRange_forged
  have hsame := h (forgedTask 0 2) _ undecryptable_forged (congrArg Prod.snd hrun)
  rw [hrun, loadLayerRange_eq_self_iff loadLayerRange_forged] at hsame
  exact absurd hsame (by decide +kernel)

end CandleBackend

end NeuralSwarm
