import Mathlib.Data.Int.Notation
import NeuralSwarm.Candle

/-!
# Transformer layers

One layer of the quantized Llama model: attention with a key-value cache, then a feed-forward block.
A call returns the layer it leaves behind, also when it fails: the cache is written in the middle of
the attention.  At position `0` the cache is not read, so a call there does not depend on it.
-/

namespace NeuralSwarm

/-- Division of `usize`, with the panic at zero as an error. -/
def divide (a b : ℕ) : Except String ℕ :=
  if b = 0 then .error "attempt to divide by zero" else .ok (a / b)

/-! ## Feed-forward blocks -/

structure Mlp (T : Type) where
  feedForwardW1 : ForwardFn T
  feedForwardW2 : ForwardFn T
  feedForwardW3 : ForwardFn T

inductive MlpOrMoe (T : Type)
  | mlp (block : Mlp T)
  | moe (nExpertUsed : ℕ) (feedForwardGateInp : ForwardFn T) (experts : List (Mlp T))

/-- The order of `total_cmp`: the bits as a signed number, with the magnitude of negative ones
reversed. -/
def totalKey (x : Float32) : ℤ :=
  let bits : ℤ := x.toBits.toNat
  if bits < 2 ^ 31 then bits else 2 ^ 31 - 1 - bits

section Forward

variable {T Q : Type} (candle : Candle T Q)

def Mlp.forward (mlp : Mlp T) : ForwardFn T := fun xs => do
  let w1 ← mlp.feedForwardW1 xs
  let w3 ← mlp.feedForwardW3 xs
  mlp.feedForwardW2 (← candle.mul (← candle.silu w1) w3)

/-- The experts of one row, the heaviest first; the sort is stable. -/
def chosenExperts (nExpertUsed : ℕ) (rw : List Float32) : List ℕ :=
  ((List.range rw.length).mergeSort fun i j =>
    decide (totalKey (rw.getD j 0) ≤ totalKey (rw.getD i 0))).take nExpertUsed

/-- The rows that an expert is chosen for, with its share of the weights of the chosen experts. -/
def rowsOfExpert (nExpertUsed : ℕ) (routingWeights : List (List Float32)) (expertIdx : ℕ) :
    List (ℕ × Float32) :=
  routingWeights.zipIdx.filterMap fun (rw, rowIdx) =>
    let chosen := chosenExperts nExpertUsed rw
    if expertIdx ∈ chosen then
      let sumRoutingWeights := (chosen.map (rw.getD · 0)).foldl (· + ·) 0
      some (rowIdx, rw.getD expertIdx 0 / sumRoutingWeights)
    else none

/-- Adds what an expert computes for its rows. -/
def addExpert (xs : T) (hiddenDim : ℕ) (rows : List (ℕ × Float32)) (expert : Mlp T) (ys : T) :
    Except String T :=
  if rows.isEmpty then .ok ys
  else do
    let topX ← candle.newU32 (rows.map (·.1))
    let selectedRws ← candle.newF32 (rows.map (·.2))
    let selectedRws ← candle.reshape selectedRws [rows.length, 1]
    let currentState ← candle.indexSelect xs topX 0
    let currentState ← candle.reshape currentState [rows.length, hiddenDim]
    let currentHiddenStates ← expert.forward candle currentState
    let currentHiddenStates ← candle.broadcastMul currentHiddenStates selectedRws
    candle.indexAdd ys topX currentHiddenStates 0

def MlpOrMoe.forward : MlpOrMoe T → ForwardFn T
  | .mlp block => block.forward candle
  | .moe nExpertUsed feedForwardGateInp experts => fun xs => do
    let (bSize, seqLen, hiddenDim) ← candle.dims3 xs
    let xs ← candle.reshape xs [bSize * seqLen, hiddenDim]
    let routerLogits ← feedForwardGateInp xs
    let routingWeights ← candle.softmaxLastDim routerLogits
    let routingWeights ← candle.toVec2 (← candle.toDtypeF32 routingWeights)
    if routingWeights.any fun rw => (chosenExperts nExpertUsed rw).any (experts.length ≤ ·) then
      -- a panic: a row has more routing weights than there are experts
      .error "index out of bounds"
    else do
      let ys ← candle.zerosLike xs
      let ys ← experts.zipIdx.foldlM (fun ys (expert, expertIdx) =>
        addExpert candle xs hiddenDim (rowsOfExpert nExpertUsed routingWeights expertIdx) expert
          ys) ys
      candle.reshape ys [bSize, seqLen, hiddenDim]

/-! ## Attention -/

structure LayerWeights (T : Type) where
  attentionWq : ForwardFn T
  attentionWk : ForwardFn T
  attentionWv : ForwardFn T
  attentionWo : ForwardFn T
  attentionBq : Option T
  attentionBk : Option T
  attentionBv : Option T
  attentionNorm : ForwardFn T
  mlpOrMoe : MlpOrMoe T
  ffnNorm : ForwardFn T
  nHead : ℕ
  nKvHead : ℕ
  headDim : ℕ
  cos : T
  sin : T
  negInf : T
  kvCache : Option (T × T)

def maskedFill (onFalse mask onTrue : T) : Except String T := do
  candle.whereCond mask (← candle.broadcastAs onTrue (candle.dims mask)) onFalse

/-- Adds the bias of a projection, if the model has one. -/
def addBias (bias : Option T) (x : T) : Except String T :=
  match bias with
  | some b => candle.broadcastAdd x b
  | none => .ok x

/-- The keys and values to attend to: the cached ones and the new ones, or the new ones alone at
position `0`. -/
def extendCache (kvCache : Option (T × T)) (k v : T) (indexPos : ℕ) : Except String (T × T) :=
  match kvCache with
  | none => .ok (k, v)
  | some (kCache, vCache) =>
    if indexPos = 0 then .ok (k, v)
    else do
      let k ← candle.cat [kCache, k] 2
      let v ← candle.cat [vCache, v] 2
      return (k, v)

namespace LayerWeights

variable (layer : LayerWeights T)

def applyRotaryEmb (x : T) (indexPos : ℕ) : Except String T := do
  let (_, _, seqLen, _) ← candle.dims4 x
  let cos ← candle.narrow layer.cos 0 indexPos seqLen
  let sin ← candle.narrow layer.sin 0 indexPos seqLen
  candle.ropeI (← candle.contiguous x) cos sin

/-- The first part of `forward_attn`: queries, keys and values with their positions. -/
def project (x : T) (indexPos : ℕ) : Except String (T × T × T) := do
  let (bSz, seqLen, _) ← candle.dims3 x
  let q ← layer.attentionWq x
  let k ← layer.attentionWk x
  let v ← layer.attentionWv x
  let q ← addBias candle layer.attentionBq q
  let k ← addBias candle layer.attentionBk k
  let v ← addBias candle layer.attentionBv v
  let q ← candle.transpose (← candle.reshape q [bSz, seqLen, layer.nHead, layer.headDim]) 1 2
  let k ← candle.transpose (← candle.reshape k [bSz, seqLen, layer.nKvHead, layer.headDim]) 1 2
  let v ← candle.transpose (← candle.reshape v [bSz, seqLen, layer.nKvHead, layer.headDim]) 1 2
  let v ← candle.contiguous v
  let q ← layer.applyRotaryEmb candle q indexPos
  let k ← layer.applyRotaryEmb candle k indexPos
  return (q, k, v)

/-- The last part of `forward_attn`: attention over the keys and values, and the output
projection. -/
def attend (x q k v : T) (mask : Option T) : Except String T := do
  let (bSz, seqLen, nEmbd) ← candle.dims3 x
  let y ←
    if candle.isMetal q && seqLen == 1 then
      candle.sdpa q k v (1 / (Float32.ofNat layer.headDim).sqrt) 1
    else do
      let k ← candle.repeatKv k (← divide layer.nHead layer.nKvHead)
      let v ← candle.repeatKv v (← divide layer.nHead layer.nKvHead)
      let att ← candle.matmul q (← candle.t k)
      let att ← candle.divScalar att (Float.ofNat layer.headDim).sqrt
      let att ←
        match mask with
        | none => pure att
        | some mask => do
          let mask ← candle.broadcastAs mask (candle.dims att)
          maskedFill candle att mask layer.negInf
      let att ← candle.softmaxLastDim att
      candle.matmul att (← candle.contiguous v)
  let y ← candle.reshape (← candle.transpose y 1 2) [bSz, seqLen, nEmbd]
  layer.attentionWo y

/-- Attention; the cache is written before the steps that compare the mask with it. -/
def forwardAttn (x : T) (mask : Option T) (indexPos : ℕ) : LayerWeights T × Except String T :=
  match layer.project candle x indexPos with
  | .error e => (layer, .error e)
  | .ok (q, k, v) =>
    match extendCache candle layer.kvCache k v indexPos with
    | .error e => (layer, .error e)
    | .ok (k, v) =>
      ({ layer with kvCache := some (k, v) }, layer.attend candle x q k v mask)

/-- The part of the loop body after the attention. -/
def feedForward (attn residual : T) : Except String T := do
  let x ← candle.add attn residual
  let y ← layer.mlpOrMoe.forward candle (← layer.ffnNorm x)
  candle.add y x

/-- The body of the loop over the layers. -/
def forward (layerIn : T) (mask : Option T) (indexPos : ℕ) : LayerWeights T × Except String T :=
  match layer.attentionNorm layerIn with
  | .error e => (layer, .error e)
  | .ok x =>
    match layer.forwardAttn candle x mask indexPos with
    | (layer, .error e) => (layer, .error e)
    | (layer, .ok attn) => (layer, layer.feedForward candle attn layerIn)

end LayerWeights

/-- The layers one after the other; the first error ends the loop. -/
def forwardLayers :
    List (LayerWeights T) → T → Option T → ℕ → List (LayerWeights T) × Except String T
  | [], layerIn, _, _ => ([], .ok layerIn)
  | layer :: layers, layerIn, mask, indexPos =>
    match layer.forward candle layerIn mask indexPos with
    | (layer, .error e) => (layer :: layers, .error e)
    | (layer, .ok layerIn) =>
      let (layers, result) := forwardLayers layers layerIn mask indexPos
      (layer :: layers, result)

/-! ## What depends on the cache -/

@[simp] theorem extendCache_zero (kvCache : Option (T × T)) (k v : T) :
    extendCache candle kvCache k v 0 = .ok (k, v) := by
  cases kvCache <;> rfl

namespace LayerWeights

variable {candle} {layer other : LayerWeights T} {x layerIn : T} {mask : Option T} {indexPos : ℕ}

/-- Attention writes the cache and nothing else. -/
theorem forwardAttn_fst : ∃ kvCache,
    (layer.forwardAttn candle x mask indexPos).1 = { layer with kvCache } := by
  unfold forwardAttn
  split
  · exact ⟨layer.kvCache, rfl⟩
  · split
    · exact ⟨layer.kvCache, rfl⟩
    · exact ⟨_, rfl⟩

theorem forward_fst : ∃ kvCache,
    (layer.forward candle layerIn mask indexPos).1 = { layer with kvCache } := by
  unfold forward
  split
  · exact ⟨layer.kvCache, rfl⟩
  · rename_i x _
    obtain ⟨kvCache, hfst⟩ : ∃ kvCache,
      (layer.forwardAttn candle x mask indexPos).1 = { layer with kvCache } := forwardAttn_fst
    refine ⟨kvCache, ?_⟩
    split <;> rename_i heq <;> rw [heq] at hfst <;> exact hfst

/-- The weights of a layer, without its cache. -/
def forget (layer : LayerWeights T) : LayerWeights T := { layer with kvCache := none }

theorem eq_of_forget (h : layer.forget = other.forget) :
    other = { layer with kvCache := other.kvCache } := by
  cases layer
  cases other
  simp only [forget, mk.injEq] at h
  simp [h]

/-- A layer keeps its weights. -/
theorem forward_forget : (layer.forward candle layerIn mask indexPos).1.forget = layer.forget := by
  obtain ⟨kvCache, hfst⟩ : ∃ kvCache,
    (layer.forward candle layerIn mask indexPos).1 = { layer with kvCache } := forward_fst
  rw [hfst]
  rfl

/-- Attention at position `0` replaces the cache. -/
theorem forwardAttn_zero : layer.forwardAttn candle x mask 0 =
    match layer.project candle x 0 with
    | .error e => (layer, .error e)
    | .ok (q, k, v) =>
      ({ layer with kvCache := some (k, v) }, layer.attend candle x q k v mask) := by
  unfold forwardAttn
  simp only [extendCache_zero]

/-- What a layer leaves at position `0` depends on its weights and its input alone. -/
theorem forward_zero (h : layer.forget = other.forget) :
    (layer.forward candle layerIn mask 0).2 = (other.forward candle layerIn mask 0).2 ∧
      ((layer.forward candle layerIn mask 0).2.isOk = true →
        (layer.forward candle layerIn mask 0).1 = (other.forward candle layerIn mask 0).1) := by
  rw [eq_of_forget h]
  generalize other.kvCache = kvCache
  have hproject (x : T) :
    ({ layer with kvCache } : LayerWeights T).project candle x 0 = layer.project candle x 0 := rfl
  simp only [forward, forwardAttn_zero, hproject]
  cases layer.attentionNorm layerIn with
  | error e => exact ⟨rfl, fun hok => by cases hok⟩
  | ok x =>
    dsimp only
    cases layer.project candle x 0 with
    | error e => exact ⟨rfl, fun hok => by cases hok⟩
    | ok qkv => exact ⟨rfl, fun _ => rfl⟩

end LayerWeights

/-! ## A list of layers -/

variable {candle} {layers others : List (LayerWeights T)} {layerIn : T} {mask : Option T}
  {indexPos : ℕ}

theorem forwardLayers_forget :
    (forwardLayers candle layers layerIn mask indexPos).1.map (·.forget) =
      layers.map (·.forget) := by
  induction layers generalizing layerIn with
  | nil => rfl
  | cons layer layers ih =>
    have hforget : (layer.forward candle layerIn mask indexPos).1.forget = layer.forget :=
      LayerWeights.forward_forget
    rw [forwardLayers]
    split
    · rename_i heq
      rw [heq] at hforget
      rw [List.map_cons, hforget, List.map_cons]
    · rename_i heq
      rw [heq] at hforget
      rw [List.map_cons, hforget, ih, List.map_cons]

theorem length_forwardLayers :
    (forwardLayers candle layers layerIn mask indexPos).1.length = layers.length := by
  have h : (forwardLayers candle layers layerIn mask indexPos).1.map (·.forget) =
    layers.map (·.forget) := forwardLayers_forget
  simpa using congrArg List.length h

/-- Two lists of layers in a row. -/
theorem forwardLayers_append (front back : List (LayerWeights T)) :
    forwardLayers candle (front ++ back) layerIn mask indexPos =
      match forwardLayers candle front layerIn mask indexPos with
      | (front, .error e) => (front ++ back, .error e)
      | (front, .ok layerIn) =>
        let (back, result) := forwardLayers candle back layerIn mask indexPos
        (front ++ back, result) := by
  induction front generalizing layerIn with
  | nil => rfl
  | cons layer front ih =>
    rw [List.cons_append, forwardLayers, forwardLayers]
    rcases layer.forward candle layerIn mask indexPos with ⟨layer, - | layerOut⟩
    · rfl
    · simp only [ih]
      rcases forwardLayers candle front layerOut mask indexPos with ⟨front, - | layerIn⟩ <;> rfl

/-- Layers that succeed as a whole succeed on both sides of a boundary. -/
theorem exists_forwardLayers_slice {layers' : List (LayerWeights T)} {layerOut : T}
    {start stop : ℕ} (hle : start ≤ stop)
    (h : forwardLayers candle (layers.drop start) layerIn mask indexPos =
      (layers'.drop start, .ok layerOut)) :
    ∃ between, forwardLayers candle ((layers.drop start).take (stop - start)) layerIn mask
        indexPos = ((layers'.drop start).take (stop - start), .ok between) ∧
      forwardLayers candle (layers.drop stop) between mask indexPos =
        (layers'.drop stop, .ok layerOut) := by
  have hdrop (xs : List (LayerWeights T)) : (xs.drop start).drop (stop - start) = xs.drop stop := by
    rw [List.drop_drop, Nat.add_sub_cancel' hle]
  rw [← List.take_append_drop (stop - start) (layers.drop start), forwardLayers_append,
    hdrop] at h
  rcases hfront : forwardLayers candle ((layers.drop start).take (stop - start)) layerIn mask
    indexPos with ⟨front, e | between⟩ <;> rw [hfront] at h
  · exact absurd (congrArg Prod.snd h) (by simp)
  · dsimp only at h
    rcases hback : forwardLayers candle (layers.drop stop) between mask indexPos with
      ⟨back, result⟩
    rw [hback] at h
    obtain ⟨happend, rfl⟩ := Prod.mk.inj h
    have hlenFront := congrArg (·.1.length) hfront
    have hlenBack := congrArg (·.1.length) hback
    simp only [length_forwardLayers, List.length_take, List.length_drop] at hlenFront hlenBack
    obtain ⟨rfl, rfl⟩ : front = (layers'.drop start).take (stop - start) ∧
        back = (layers'.drop start).drop (stop - start) :=
      Except.eq_take_and_drop happend.symm (by omega) fun hlt =>
        List.eq_nil_of_length_eq_zero (by omega)
    exact ⟨between, rfl, by rw [hback, hdrop]⟩

/-- What a list of layers leaves at position `0` depends on the weights and the input alone. -/
theorem forwardLayers_zero (h : layers.map (·.forget) = others.map (·.forget)) :
    (forwardLayers candle layers layerIn mask 0).2 =
        (forwardLayers candle others layerIn mask 0).2 ∧
      ((forwardLayers candle layers layerIn mask 0).2.isOk = true →
        (forwardLayers candle layers layerIn mask 0).1 =
          (forwardLayers candle others layerIn mask 0).1) := by
  induction layers generalizing others layerIn with
  | nil =>
    obtain rfl : others = [] := by simpa using h.symm
    exact ⟨rfl, fun _ => rfl⟩
  | cons layer layers ih =>
    obtain ⟨other, others, rfl⟩ : ∃ other rest, others = other :: rest :=
      List.exists_cons_of_ne_nil (by rintro rfl; cases h)
    simp only [List.map_cons, List.cons.injEq] at h
    have hlayer :
      (layer.forward candle layerIn mask 0).2 = (other.forward candle layerIn mask 0).2 ∧
      ((layer.forward candle layerIn mask 0).2.isOk = true →
        (layer.forward candle layerIn mask 0).1 = (other.forward candle layerIn mask 0).1) :=
      LayerWeights.forward_zero h.1
    simp only [forwardLayers]
    revert hlayer
    rcases layer.forward candle layerIn mask 0 with ⟨layer', - | layerOut⟩ <;>
      rcases other.forward candle layerIn mask 0 with ⟨other', - | otherOut⟩ <;>
      rintro ⟨hresult, hfst⟩ <;> cases hresult
    · exact ⟨rfl, fun hok => by cases hok⟩
    · obtain rfl : layer' = other' := hfst rfl
      exact ⟨(ih h.2).1, fun hok => congrArg (layer' :: ·) ((ih h.2).2 hok)⟩

end Forward

end NeuralSwarm
