import NeuralSwarm.QuantizedLlama.Layer

/-!
# Model weights

A model in memory: a slice of the layers of a GGUF file, the token embeddings if the slice starts
with layer `0`, and the final norm and the output head if it ends with the last layer.
-/

namespace NeuralSwarm

variable {T Q : Type}

/-- A metadata value of a GGUF file, by its conversions. -/
structure GgufValue where
  toU32 : Except String ℕ
  toF32 : Except String Float32
  toStr : Except String String

/-- The content of a GGUF file with its reader. -/
structure Gguf (Q : Type) where
  metadata : String → Option GgufValue
  tensor : String → Except String Q

structure ModelWeights (T : Type) where
  /-- Only on the entry node, which owns layer `0`. -/
  tokEmbeddings : Option (ForwardFn T)
  layers : List (LayerWeights T)
  /-- Only on the exit node, which owns the last layer. -/
  norm : Option (ForwardFn T)
  output : Option (ForwardFn T)
  /-- The index of the first of the `layers` in the full model. -/
  layerOffset : ℕ
  totalLayers : ℕ
  masks : ℕ → Option T

/-! ## Loading -/

/-- The metadata that a model is built from. -/
structure HyperParameters where
  nExpert : ℕ
  nExpertUsed : ℕ
  headCount : ℕ
  headCountKv : ℕ
  blockCount : ℕ
  embeddingLength : ℕ
  ropeDim : ℕ
  rmsNormEps : Float
  ropeFreqBase : Float32

def maxSeqLen : ℕ := 4096

namespace Gguf

variable (ct : Gguf Q)

/-- Metadata keys are namespaced by the architecture. -/
def arch : String :=
  ((ct.metadata "general.architecture").bind (·.toStr.toOption)).getD "llama"

def mdGet (suffix : String) : Except String GgufValue :=
  let key := ct.arch ++ "." ++ suffix
  match ct.metadata key with
  | none => .error ("cannot find " ++ key ++ " in metadata")
  | some v => .ok v

def hyperParameters : Except String HyperParameters := do
  let nExpert := (ct.mdGet "expert_count" >>= (·.toU32)).toOption.getD 0
  let nExpertUsed := (ct.mdGet "expert_used_count" >>= (·.toU32)).toOption.getD 0
  let headCount ← (← ct.mdGet "attention.head_count").toU32
  let headCountKv ← (← ct.mdGet "attention.head_count_kv").toU32
  let blockCount ← (← ct.mdGet "block_count").toU32
  let embeddingLength ← (← ct.mdGet "embedding_length").toU32
  let headDim ← divide embeddingLength headCount
  let ropeDim := (ct.mdGet "rope.dimension_count" >>= (·.toU32)).toOption.getD headDim
  let rmsNormEps := (← (← ct.mdGet "attention.layer_norm_rms_epsilon").toF32).toFloat
  let ropeFreqBase := (ct.mdGet "rope.freq_base" >>= (·.toF32)).toOption.getD 10000
  return { nExpert, nExpertUsed, headCount, headCountKv, blockCount, embeddingLength, ropeDim,
           rmsNormEps, ropeFreqBase }

/-- The number of layers as `from_gguf` reads it. -/
def blockCount : ℕ :=
  ((ct.metadata (ct.arch ++ ".block_count")).bind (·.toU32.toOption)).getD 0

end Gguf

section Load

variable (candle : Candle T Q)

def precomputFreqsCis (headDim : ℕ) (freqBase : Float32) : Except String (T × T) := do
  let theta := (List.range' 0 ((headDim + 1) / 2) 2).map fun i =>
    1 / freqBase.pow (Float32.ofNat i / Float32.ofNat headDim)
  let theta ← candle.newF32 theta
  let idxTheta ← candle.toDtypeF32 (← candle.arange 0 maxSeqLen)
  let idxTheta ← candle.reshape idxTheta [maxSeqLen, 1]
  let theta ← candle.reshape theta [1, (candle.dims theta).prod]
  let idxTheta ← candle.matmul idxTheta theta
  let cos ← candle.cos idxTheta
  let sin ← candle.sin idxTheta
  return (cos, sin)

variable (ct : Gguf Q)

/-- `QMatMul::from_qtensor` of a tensor of the file. -/
def Gguf.qMatMul (name : String) : Except String (ForwardFn T) := do
  candle.qMatMul (← ct.tensor name)

def Gguf.mlp (w1 w2 w3 : String) : Except String (Mlp T) := do
  let feedForwardW1 ← ct.tensor w1
  let feedForwardW2 ← ct.tensor w2
  let feedForwardW3 ← ct.tensor w3
  return { feedForwardW1 := ← candle.qMatMul feedForwardW1
           feedForwardW2 := ← candle.qMatMul feedForwardW2
           feedForwardW3 := ← candle.qMatMul feedForwardW3 }

/-- An optional bias. -/
def Gguf.loadBias (name : String) : Option T :=
  ((ct.tensor name).toOption).bind fun q => (candle.dequantize q).toOption

def Gguf.mlpOrMoe (hp : HyperParameters) (blk : String) : Except String (MlpOrMoe T) :=
  if hp.nExpert ≤ 1 then do
    let block ← ct.mlp candle (blk ++ ".ffn_gate.weight") (blk ++ ".ffn_down.weight")
      (blk ++ ".ffn_up.weight")
    return .mlp block
  else do
    let feedForwardGateInp ← ct.tensor (blk ++ ".ffn_gate_inp.weight")
    let experts ← (List.range hp.nExpert).mapM fun i =>
      let i := toString i
      ct.mlp candle (blk ++ ".ffn_gate." ++ i ++ ".weight") (blk ++ ".ffn_down." ++ i ++ ".weight")
        (blk ++ ".ffn_up." ++ i ++ ".weight")
    return .moe hp.nExpertUsed (← candle.qMatMul feedForwardGateInp) experts

/-- One layer of the file, with an empty cache. -/
def Gguf.loadLayer (hp : HyperParameters) (cos sin negInf : T) (layerIdx : ℕ) :
    Except String (LayerWeights T) := do
  let blk := "blk." ++ toString layerIdx
  let attentionWq ← ct.tensor (blk ++ ".attn_q.weight")
  let attentionWk ← ct.tensor (blk ++ ".attn_k.weight")
  let attentionWv ← ct.tensor (blk ++ ".attn_v.weight")
  let attentionWo ← ct.tensor (blk ++ ".attn_output.weight")
  let mlpOrMoe ← ct.mlpOrMoe candle hp blk
  let attentionNorm ← ct.tensor (blk ++ ".attn_norm.weight")
  let ffnNorm ← ct.tensor (blk ++ ".ffn_norm.weight")
  return { attentionWq := ← candle.qMatMul attentionWq
           attentionWk := ← candle.qMatMul attentionWk
           attentionWv := ← candle.qMatMul attentionWv
           attentionWo := ← candle.qMatMul attentionWo
           attentionBq := ct.loadBias candle (blk ++ ".attn_q.bias")
           attentionBk := ct.loadBias candle (blk ++ ".attn_k.bias")
           attentionBv := ct.loadBias candle (blk ++ ".attn_v.bias")
           attentionNorm := ← candle.rmsNorm attentionNorm hp.rmsNormEps
           mlpOrMoe
           ffnNorm := ← candle.rmsNorm ffnNorm hp.rmsNormEps
           nHead := hp.headCount
           nKvHead := hp.headCountKv
           headDim := hp.embeddingLength / hp.headCount
           cos
           sin
           negInf
           kvCache := none }

/-- The token embeddings, for the entry node. -/
def Gguf.loadEmbeddings (hp : HyperParameters) (isEntry : Bool) :
    Except String (Option (ForwardFn T)) :=
  if isEntry then do
    let q ← ct.tensor "token_embd.weight"
    return some (candle.embedding (← candle.dequantize q) hp.embeddingLength)
  else .ok none

/-- The final norm and the output head, for the exit node; a file without a head ties it to the
embeddings. -/
def Gguf.loadHead (hp : HyperParameters) (isExit : Bool) :
    Except String (Option (ForwardFn T) × Option (ForwardFn T)) :=
  if isExit then do
    let norm ← candle.rmsNorm (← ct.tensor "output_norm.weight") hp.rmsNormEps
    let outputQ ←
      match ct.tensor "output.weight" with
      | .ok tensor => pure tensor
      | .error _ => ct.tensor "token_embd.weight"
    return (some norm, some (← candle.qMatMul outputQ))
  else .ok (none, none)

namespace ModelWeights

/-- Loads the layers from `startLayer` to `endLayer`, clamped to those of the model. -/
def fromGgufPartial (startLayer endLayer : ℕ) : Except String (ModelWeights T) := do
  let hp ← ct.hyperParameters
  let (cos, sin) ← precomputFreqsCis candle hp.ropeDim hp.ropeFreqBase
  let negInf ← candle.newScalar (Float32.ofBits 0xff800000)
  let start := min startLayer hp.blockCount
  let stop := max (min endLayer hp.blockCount) start
  let tokEmbeddings ← ct.loadEmbeddings candle hp (start == 0)
  let (norm, output) ← ct.loadHead candle hp (stop ≥ hp.blockCount)
  let layers ← (List.range' start (stop - start)).mapM (ct.loadLayer candle hp cos sin negInf)
  return { tokEmbeddings, layers, norm, output
           layerOffset := start
           totalLayers := hp.blockCount
           masks := fun _ => none }

/-- Loads all layers. -/
def fromGguf : Except String (ModelWeights T) := fromGgufPartial candle ct 0 ct.blockCount

/-! ## Running -/

/-- The causal mask of a length. -/
def causalMask (t : ℕ) : Except String T :=
  let bits := (List.range t).flatMap fun i => (List.range t).map fun j =>
    if j > i then (1 : UInt8) else 0
  candle.fromSlice bits [t, t]

/-- The causal mask of a length, from the cache if it is there. -/
def mask (model : ModelWeights T) (t : ℕ) : ModelWeights T × Except String T :=
  match model.masks t with
  | some mask => (model, .ok mask)
  | none =>
    match causalMask candle t with
    | .error e => (model, .error e)
    | .ok mask => ({ model with masks := Function.update model.masks t (some mask) }, .ok mask)

/-- The mask of a run: none for a single token. -/
def maskFor (model : ModelWeights T) (seqLen : ℕ) : ModelWeights T × Except String (Option T) :=
  if seqLen = 1 then (model, .ok none)
  else
    match model.mask candle seqLen with
    | (model, .error e) => (model, .error e)
    | (model, .ok mask) => (model, .ok (some mask))

/-- `seq_len - 1` on `usize` in a release build. -/
def lastRow (seqLen : ℕ) : ℕ := if seqLen = 0 then 2 ^ 64 - 1 else seqLen - 1

/-- All layers of a full model on some token ids; the logits of the last position. -/
def forward (model : ModelWeights T) (x : T) (indexPos : ℕ) : ModelWeights T × Except String T :=
  match candle.dims2 x with
  | .error e => (model, .error e)
  | .ok (_, seqLen) =>
    match model.maskFor candle seqLen with
    | (model, .error e) => (model, .error e)
    | (model, .ok mask) =>
      match model.tokEmbeddings with
      | none => (model, .error "forward() needs tok_embeddings (entry node)")
      | some tokEmbeddings =>
        match tokEmbeddings x with
        | .error e => (model, .error e)
        | .ok layerIn =>
          let (layers, result) := forwardLayers candle model.layers layerIn mask indexPos
          ({ model with layers }, do
            let layerIn ← result
            let norm ← model.norm.elim (.error "forward() needs norm (exit node)") .ok
            let output ← model.output.elim (.error "forward() needs output (exit node)") .ok
            output (← candle.row (← norm layerIn) (lastRow seqLen)))

end ModelWeights

end Load

/-! ## A file of zeros -/

/-- A file of tensors of zeros: a vocabulary of two tokens, two features and one head. -/
def Gguf.zeros (blockCount : ℕ) : Gguf Shape where
  metadata key :=
    ([("llama.attention.head_count", 1), ("llama.attention.head_count_kv", 1),
      ("llama.block_count", blockCount), ("llama.embedding_length", 2),
      ("llama.attention.layer_norm_rms_epsilon", 1)].lookup key).map fun n =>
        { toU32 := .ok n
          toF32 := .ok (Float32.ofNat n)
          toStr := .error "not a string" }
  tensor name :=
    if name.endsWith ".bias" then .error "cannot find tensor"
    else if name.endsWith "norm.weight" then Shape.ofDims [2]
    else Shape.ofDims [2, 2]

end NeuralSwarm
