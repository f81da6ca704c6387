import NeuralSwarm.Backend
import NeuralSwarm.Crypto
import NeuralSwarm.KvCacheState
import NeuralSwarm.QuantizedLlama.Weights

/-!
# The Candle backend

A backend that holds one slice of the model.  It loads the slice that a task asks for, takes the
hidden state of the stage before, runs its layers and keeps the hidden state it leaves.
-/

namespace NeuralSwarm

inductive ModelSource
  | path (filename : String)
  | url (url : String)
  deriving DecidableEq

structure CandleBackend (T : Type) where
  model : Option (ModelWeights T)
  intermediateState : Option T
  source : Option ModelSource
  /-- The range of layers that `model` was loaded for. -/
  loadedRange : Option (ℕ × ℕ)

variable {T Q : Type}

namespace CandleBackend

/-- `new`. -/
def new : CandleBackend T :=
  { model := none
    intermediateState := none
    source := none
    loadedRange := none }

/-- `new`, then `set_model_source` or `set_model_url`. -/
def ofSource (source : ModelSource) : CandleBackend T :=
  { model := none
    intermediateState := none
    source := some source
    loadedRange := none }

/-- Registers a local file; nothing is loaded yet. -/
def setModelSource (s : CandleBackend T) (filename : String) : CandleBackend T :=
  { s with
    source := some (.path filename)
    model := none
    loadedRange := none }

/-- Registers a remote file. -/
def setModelUrl (s : CandleBackend T) (url : String) : CandleBackend T :=
  { s with
    source := some (.url url)
    model := none
    loadedRange := none }

variable (candle : Candle T Q) (openGguf : ModelSource → Except String (Gguf Q))

/-- Loads all layers of a local file; the hidden state stays. -/
def loadModel (s : CandleBackend T) (filename : String) : CandleBackend T × Except String Unit :=
  match openGguf (.path filename) >>= ModelWeights.fromGguf candle with
  | .error e => (s, .error e)
  | .ok model =>
    ({ s with
        model := some model
        source := some (.path filename)
        loadedRange := some (0, model.totalLayers) }, .ok ())

/-- A slice of the model as its source has it. -/
def loadSlice (source : ModelSource) (start stop : ℕ) : Except String (ModelWeights T) := do
  let gguf ← openGguf source
  ModelWeights.fromGgufPartial candle gguf start stop

/-- Loads a slice of the model, unless it is the one in memory. -/
def loadLayerRange (s : CandleBackend T) (start stop : ℕ) : CandleBackend T × Except String Unit :=
  if s.loadedRange = some (start, stop) ∧ s.model.isSome = true then (s, .ok ())
  else
    match s.source with
    | none => (s, .error "CandleBackend: no model source set")
    | some source =>
      match loadSlice candle openGguf source start stop with
      | .error e => (s, .error e)
      | .ok model =>
        ({ s with
            model := some model
            loadedRange := some (start, stop)
            intermediateState := none }, .ok ())

/-- The shape and the elements of a received state, in the current or the earlier layout. -/
def decodeState (state : Bytes) : Except String (ℕ × ℕ × ℕ × List Float32) :=
  match KVCacheState.deserialize state with
  | .ok (.q8_0 d1 d2 d3 scale qData) =>
    .ok (d1, d2, d3, qData.map fun v => Float32.ofInt v * scale)
  | .ok (.f32 d1 d2 d3 data) => .ok (d1, d2, d3, data)
  | .error _ => KVCacheState.deserializeLegacy state

def setState (s : CandleBackend T) (state : Bytes) : CandleBackend T × Except String Unit :=
  if state.isEmpty then (s, .ok ())
  else
    match decodeState state with
    | .error e => (s, .error e)
    | .ok (d1, d2, d3, data) =>
      match candle.fromVec data [d1, d2, d3] with
      | .error e => (s, .error e)
      | .ok tensor => ({ s with intermediateState := some tensor }, .ok ())

def getState (s : CandleBackend T) : Except String Bytes :=
  match s.intermediateState with
  | some state => do
    let (d1, d2, d3) ← candle.dims3 state
    let data ← candle.toVec1 (← candle.flattenAll state)
    return (KVCacheState.f32 d1 d2 d3 data).serialize
  | none => .ok []

/-- A token id as `u32`. -/
def tokenU32 (t : ℤ) : ℕ := (t % 2 ^ 32).toNat

/-- The token ids as a tensor of one row. -/
def tokenTensor (tokens : List ℤ) : Except String T := do
  candle.unsqueeze (← candle.newU32 (tokens.map tokenU32)) 0

/-- The input of the first layer: the entry node embeds the tokens, every other node takes the state
that it was sent. -/
def takeInput (s : CandleBackend T) (model : ModelWeights T) (startLayer : ℕ) (tokens : List ℤ) :
    CandleBackend T × Except String T :=
  if startLayer = 0 then
    match model.tokEmbeddings with
    | none => (s, .error "entry node (start_layer 0) is missing token embeddings")
    | some tok => (s, tokenTensor candle tokens >>= tok)
  else
    match s.intermediateState with
    | some state => ({ s with intermediateState := none }, .ok state)
    | none => (s, .error "non-entry node received no upstream hidden state")

/-- The loop over the layers with the given indexes. -/
def runIndexes :
    List (LayerWeights T) → List ℕ → T → Option T → ℕ → List (LayerWeights T) × Except String T
  | layers, [], layerIn, _, _ => (layers, .ok layerIn)
  | layers, idx :: rest, layerIn, mask, indexPos =>
    match layers[idx]? with
    -- a panic, which the loop bounds exclude
    | none => (layers, .error "index out of bounds")
    | some layer =>
      match layer.forward candle layerIn mask indexPos with
      | (layer, .error e) => (layers.set idx layer, .error e)
      | (layer, .ok layerIn) => runIndexes (layers.set idx layer) rest layerIn mask indexPos

/-- The indexes, in the slice, of the layers between two absolute ones. -/
def localIndexes (model : ModelWeights T) (startLayer endLayer : ℕ) : List ℕ :=
  let localEnd := min endLayer (model.layerOffset + model.layers.length)
  let localStart := max startLayer model.layerOffset
  (List.range' localStart (localEnd - localStart)).map (· - model.layerOffset)

/-- The final norm and the output head of the exit node, on the last position. -/
def exitLogits (model : ModelWeights T) (layerIn : T) (seqLen : ℕ) :
    Except String (List Float32) := do
  let norm ← model.norm.elim (.error "exit node is missing the final norm") .ok
  let output ← model.output.elim (.error "exit node is missing the output head") .ok
  let x ← candle.row (← norm layerIn) (ModelWeights.lastRow seqLen)
  candle.toVec1 (← candle.flattenAll (← output x))

/-- Runs the layers in memory between two layers; the caller's sequence id is the position. -/
def runLayers (s : CandleBackend T) (startLayer endLayer : ℕ) (tokens : List ℤ)
    (sequenceId : ℕ) : CandleBackend T × Except String (List Float32) :=
  match s.model with
  | none => (s, .ok [])
  | some model =>
    match s.takeInput candle model startLayer tokens with
    | (s, .error e) => (s, .error e)
    | (s, .ok layerIn) =>
      match model.maskFor candle tokens.length with
      | (model, .error e) => ({ s with model := some model }, .error e)
      | (model, .ok mask) =>
        let (layers, result) := runIndexes candle model.layers
          (localIndexes model startLayer endLayer) layerIn mask sequenceId
        let model := { model with layers }
        match result with
        | .error e => ({ s with model := some model }, .error e)
        | .ok layerIn =>
          ({ s with
              model := some model
              intermediateState := some layerIn },
            if endLayer ≥ model.totalLayers then exitLogits candle model layerIn tokens.length
            else .ok [])

/-- The backend behind the contract. -/
def backend : InferenceBackend (CandleBackend T) Float32 Bytes where
  ensureLayers := loadLayerRange candle openGguf
  setState := setState candle
  getState := getState candle
  runLayers := runLayers candle

end CandleBackend

end NeuralSwarm
