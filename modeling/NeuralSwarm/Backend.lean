import Mathlib.Data.Int.Notation
import Mathlib.Data.List.Basic

/-!
# Inference backends

The contract between a node and the engine that computes its layers.  A backend has a state `σ`;
every call returns the state it leaves behind, also when it fails.
-/

namespace NeuralSwarm

structure InferenceBackend (σ F B : Type) where
  /-- Makes the backend hold the layers from `start_layer` to `end_layer`. -/
  ensureLayers : σ → ℕ → ℕ → σ × Except String Unit
  setState : σ → B → σ × Except String Unit
  getState : σ → Except String B
  /-- Runs the layers on some tokens and returns the logits. -/
  runLayers : σ → (startLayer endLayer : ℕ) → (tokens : List ℤ) → (sequenceId : ℕ) →
    σ × Except String (List F)

variable {σ F B : Type}

/-- No call of the backend returns an error. -/
structure InferenceBackend.NeverFails (backend : InferenceBackend σ F B) : Prop where
  ensureLayers : ∀ s startLayer endLayer,
    ∃ s', backend.ensureLayers s startLayer endLayer = (s', .ok ())
  setState : ∀ s state, ∃ s', backend.setState s state = (s', .ok ())
  getState : ∀ s, ∃ state, backend.getState s = .ok state
  runLayers : ∀ s startLayer endLayer (tokens : List ℤ) sequenceId, ∃ s' logits,
    backend.runLayers s startLayer endLayer tokens sequenceId = (s', .ok logits)

end NeuralSwarm
