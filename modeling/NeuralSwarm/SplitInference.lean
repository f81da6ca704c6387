import NeuralSwarm.Basic.Machine
import NeuralSwarm.Composition
import NeuralSwarm.Resident

/-!
# Split inference

A model that is cut at any boundaries and run by one backend a slice computes what the whole model
computes, over any number of steps (`splitMachine_answers`).  `Ready` relates a backend to the full
model: what it holds, or is going to load, is its slice with the same key-value caches.  `Carries`
relates the bytes between two stages to the hidden state.
-/

namespace NeuralSwarm

variable {T Q : Type}

/-! ## The two drivers -/

section Machines

variable (candle : Candle T Q) (openGguf : ModelSource → Except String (Gguf Q))

/-- The logits of an output tensor. -/
def logitsOf (x : T) : Except String (List Float32) := do
  candle.toVec1 (← candle.flattenAll x)

/-- One fully loaded model that takes steps of tokens and a position. -/
def fullMachine : Mealy (ModelWeights T) (List ℤ × ℕ) (Except String T) where
  step full input :=
    match CandleBackend.tokenTensor candle input.1 with
    | .error e => (full, .error e)
    | .ok x => full.forward candle x input.2

/-- The stages between boundaries, numbered. -/
def stagesFrom : ℕ → List ℕ → List (ℕ × ℕ × ℕ)
  | k, start :: stop :: rest => (k, start, stop) :: stagesFrom (k + 1) (stop :: rest)
  | _, _ => []

/-- One backend for each stage; the first one receives no state, later ones that of the stage
before.  The answer is the logits of the last stage, if no call failed. -/
def splitMachine (bounds : List ℕ) :
    Mealy (ℕ → CandleBackend T) (List ℤ × ℕ) (Option (List Float32)) where
  step s input :=
    let composed := forwardAll (fun _ => CandleBackend.backend candle openGguf) input.1 input.2 s
      [] none (stagesFrom 0 bounds)
    (composed.workers, composed.logits)

end Machines

/-- The boundaries cut a model with that many layers into stages. -/
structure Splits (bounds : List ℕ) (blockCount : ℕ) : Prop where
  first : bounds.head? = some 0
  ascending : bounds.IsChain (· ≤ ·)
  nonempty : 2 ≤ bounds.length
  last : ∀ b ∈ bounds.getLast?, blockCount ≤ b

variable {candle : Candle T Q} {openGguf : ModelSource → Except String (Gguf Q)}

/-! ## Hidden states -/

/-- Layers pass on hidden states. -/
theorem LayerWeights.isHidden_forward (lawful : candle.Lawful) {layer layer' : LayerWeights T}
    {layerIn layerOut : T} {mask : Option T} {indexPos : ℕ}
    (h : layer.forward candle layerIn mask indexPos = (layer', .ok layerOut))
    (hidden : candle.IsHidden layerIn) : candle.IsHidden layerOut := by
  have hfeed : ∃ (layer : LayerWeights T) (attn : T),
      layer.feedForward candle attn layerIn = .ok layerOut := by
    unfold forward at h
    split at h
    · cases h
    · split at h
      · cases h
      · exact ⟨_, _, congrArg Prod.snd h⟩
  obtain ⟨layer, attn, hfeed⟩ := hfeed
  obtain ⟨x, hadd, hfeed⟩ := Except.bind_eq_ok.1 hfeed
  obtain ⟨normed, -, hfeed⟩ := Except.bind_eq_ok.1 hfeed
  obtain ⟨y, -, hout⟩ := Except.bind_eq_ok.1 hfeed
  exact lawful.isHidden_add _ _ _ hout (lawful.isHidden_add _ _ _ hadd hidden)

theorem isHidden_forwardLayers (lawful : candle.Lawful) {layers layers' : List (LayerWeights T)}
    {layerIn layerOut : T} {mask : Option T} {indexPos : ℕ}
    (h : forwardLayers candle layers layerIn mask indexPos = (layers', .ok layerOut))
    (hidden : candle.IsHidden layerIn) : candle.IsHidden layerOut := by
  induction layers generalizing layerIn layers' with
  | nil =>
    cases h
    exact hidden
  | cons layer layers ih =>
    rw [forwardLayers] at h
    split at h
    · cases h
    · rename_i layer' between hlayer
      rcases hrest : forwardLayers candle layers between mask indexPos with ⟨rest, result⟩
      rw [hrest] at h
      cases h
      exact ih hrest (LayerWeights.isHidden_forward lawful hlayer hidden)

/-- The bytes that a stage receives are accepted, and for a stage behind the first layer they
become its hidden state. -/
def Carries (candle : Candle T Q) (bytes : Bytes) (start : ℕ) (hidden : T) : Prop :=
  ∀ s : CandleBackend T, ∃ intermediateState,
    s.setState candle bytes = ({ s with intermediateState }, .ok ()) ∧
      (start ≠ 0 → intermediateState = some hidden)

theorem carries_nil (hidden : T) : Carries candle [] 0 hidden :=
  fun s => ⟨s.intermediateState, rfl, fun h => absurd rfl h⟩

/-- A hidden state survives between two stages. -/
theorem exists_carries {hidden : T} (h : candle.IsHidden hidden) :
    ∃ bytes, (∀ start, Carries candle bytes start hidden) ∧
      ∀ s : CandleBackend T, s.intermediateState = some hidden → s.getState candle = .ok bytes := by
  obtain ⟨d1, d2, d3, flat, data, hdims, hflat, hdata, hvec, h1, h2, h3, hlen⟩ := h
  refine ⟨(KVCacheState.f32 d1 d2 d3 data).serialize,
    fun start s => ⟨some hidden, ?_, fun _ => rfl⟩, fun s hs => ?_⟩
  · have hne : (KVCacheState.f32 d1 d2 d3 data).serialize.isEmpty = false :=
      List.isEmpty_eq_false_iff.2 (KVCacheState.serialize_ne_nil _)
    have hdecode : CandleBackend.decodeState (KVCacheState.f32 d1 d2 d3 data).serialize =
        .ok (d1, d2, d3, data) := by
      rw [CandleBackend.decodeState, KVCacheState.deserialize_serialize h1 h2 h3 hlen]
    simp only [CandleBackend.setState, hne, hdecode, hvec, Bool.false_eq_true, if_false]
  · simp only [CandleBackend.getState, hs, hdims, hflat, hdata, Except.ok_bind, Except.pure_eq_ok]
open CandleBackend

/-! ## One stage -/

/-- The backend holds a slice of the full model, with its caches. -/
def HoldsSlice (candle : Candle T Q) (full : ModelWeights T) (start stop : ℕ)
    (s : CandleBackend T) : Prop :=
  s.loadedRange = some (start, stop) ∧ ∃ model, s.model = some model ∧
    model.unmasked = full.slice start stop ∧ model.MasksValid candle

/-- Once its layers are ensured, the backend holds its slice of the full model. -/
def Ready (candle : Candle T Q) (openGguf : ModelSource → Except String (Gguf Q))
    (full : ModelWeights T) (start stop : ℕ) (s : CandleBackend T) : Prop :=
  ∃ s', s.loadLayerRange candle openGguf start stop = (s', .ok ()) ∧
    HoldsSlice candle full start stop s'

/-- The token embeddings of the full model. -/
def Embeds (candle : Candle T Q) (full : ModelWeights T) (tokens : List ℤ) (hidden : T) : Prop :=
  ∃ tok, full.tokEmbeddings = some tok ∧ tokenTensor candle tokens >>= tok = .ok hidden

variable {full : ModelWeights T} {start stop : ℕ}

theorem HoldsSlice.ready {s : CandleBackend T} (holds : HoldsSlice candle full start stop s) :
    Ready candle openGguf full start stop s := by
  obtain ⟨hrange, model, hmodel, hslice, hvalid⟩ := holds
  refine ⟨s, ?_, hrange, model, hmodel, hslice, hvalid⟩
  rw [loadLayerRange, if_pos ⟨hrange, by rw [hmodel]; rfl⟩]

/-- A new backend is going to load its slice. -/
theorem ready_ofSource {source : ModelSource} {gguf : Gguf Q} (hopen : openGguf source = .ok gguf)
    (hload : ModelWeights.fromGguf candle gguf = .ok full) (hle : start ≤ stop) :
    Ready candle openGguf full start stop (ofSource source) := by
  have hslice : loadSlice candle openGguf source start stop = .ok (full.slice start stop) := by
    rw [loadSlice, hopen, Except.ok_bind, ModelWeights.fromGgufPartial_eq_slice hload hle]
  refine ⟨{ (ofSource source : CandleBackend T) with
      model := some (full.slice start stop)
      loadedRange := some (start, stop) }, ?_, rfl, _, rfl, rfl, fun t mask h => by cases h⟩
  simp [loadLayerRange, ofSource, hslice]

/-- Behind the last layer there is nothing that a run could change. -/
theorem Ready.of_layers {layers : List (LayerWeights T)} {s : CandleBackend T}
    (ready : Ready candle openGguf full start stop s) (hold : full.layers.length ≤ start)
    (hnew : layers.length ≤ start) :
    Ready candle openGguf { full with layers } start stop s := by
  have hslice : ({ full with layers } : ModelWeights T).slice start stop =
      full.slice start stop := by
    simp only [ModelWeights.slice, List.drop_of_length_le hold, List.drop_of_length_le hnew]
  unfold Ready HoldsSlice
  rw [hslice]
  exact ready

theorem spans_of_slice {model : ModelWeights T} (hslice : model.unmasked = full.slice start stop)
    (hlength : full.layers.length = full.totalLayers) (hle : start ≤ stop) :
    model.Spans start stop := by
  have hoffset : model.layerOffset = min start full.totalLayers :=
    congrArg (·.layerOffset) hslice
  have htotal : model.totalLayers = full.totalLayers := congrArg (·.totalLayers) hslice
  have hlayers : model.layers = (full.layers.drop start).take (stop - start) :=
    congrArg (·.layers) hslice
  refine ⟨by rw [hoffset, htotal], ?_⟩
  rw [hlayers, htotal, List.length_take, List.length_drop, hlength]
  omega

/-- The exit node has the norm and the head of the full model. -/
theorem exitLogits_slice (hstop : full.totalLayers ≤ stop) (layerIn : T) (seqLen : ℕ) :
    exitLogits candle (full.slice start stop) layerIn seqLen =
      exitLogits candle full layerIn seqLen := by
  have hexit : full.totalLayers ≤
      max (min stop full.totalLayers) (min start full.totalLayers) := by
    omega
  simp only [exitLogits, ModelWeights.slice, hexit, if_true]

/-- The stage takes its input from the tokens at the first layer, and from the stage before
otherwise. -/
theorem takeInput_slice {s : CandleBackend T} {model : ModelWeights T} {tokens : List ℤ}
    {layerIn : T} (hslice : model.unmasked = full.slice start stop)
    (hembed : start = 0 → Embeds candle full tokens layerIn)
    (hstate : start ≠ 0 → s.intermediateState = some layerIn) :
    ∃ intermediateState, s.takeInput candle model start tokens =
      ({ s with intermediateState }, .ok layerIn) := by
  by_cases hzero : start = 0
  · obtain ⟨tok, htok, hin⟩ := hembed hzero
    have hmodel : model.tokEmbeddings = (full.slice start stop).tokEmbeddings :=
      congrArg (·.tokEmbeddings) hslice
    refine ⟨s.intermediateState, ?_⟩
    simp [takeInput, hmodel, ModelWeights.slice, hzero, htok, hin]
  · refine ⟨none, ?_⟩
    simp only [takeInput, hzero, if_false, hstate hzero]

/-- A stage passes on what its slice of the full model computes. -/
theorem exists_passState_stage {s : CandleBackend T} {tokens : List ℤ} {indexPos : ℕ}
    {mask : Option T} {input : Bytes} {layerIn layerOut : T} {layers' : List (LayerWeights T)}
    (ready : Ready candle openGguf full start stop s) (hle : start ≤ stop)
    (hlength : full.layers.length = full.totalLayers)
    (hmask : ModelWeights.freshMask candle tokens.length = .ok mask)
    (hembed : start = 0 → Embeds candle full tokens layerIn)
    (carries : Carries candle input start layerIn)
    (hrun : forwardLayers candle (full.slice start stop).layers layerIn mask indexPos =
      ((layers'.drop start).take (stop - start), .ok layerOut))
    (hidden : candle.IsHidden layerOut) :
    ∃ t output, HoldsSlice candle { full with layers := layers' } start stop t ∧
      (∀ start', Carries candle output start' layerOut) ∧
      passState (backend candle openGguf) s (start, stop) input tokens indexPos =
        (t, (if full.totalLayers ≤ stop then exitLogits candle full layerOut tokens.length
          else .ok []).map fun logits => (output, logits)) := by
  obtain ⟨s1, hensure, hrange, model, hmodel, hslice, hvalid⟩ := ready
  obtain ⟨state, hset, hstate⟩ := carries s1
  let s2 : CandleBackend T := { s1 with intermediateState := state }
  obtain ⟨state3, htake⟩ : ∃ intermediateState, s2.takeInput candle model start tokens =
      ({ s2 with intermediateState }, .ok layerIn) := takeInput_slice hslice hembed hstate
  have hmodel2 : s2.model = some model := hmodel
  obtain ⟨masks, hvalid', hlayers⟩ := runLayers_eq hmodel2 (spans_of_slice hslice hlength hle)
    hvalid tokens indexPos
  obtain ⟨output, hcarries, hget⟩ := exists_carries hidden
  have hmodelLayers : model.layers = (full.slice start stop).layers := congrArg (·.layers) hslice
  have htotal : model.totalLayers = full.totalLayers := congrArg (·.totalLayers) hslice
  simp only [htake, hmask, hmodelLayers, hrun, ge_iff_le] at hlayers
  let model' : ModelWeights T :=
    { model with layers := (layers'.drop start).take (stop - start), masks }
  refine ⟨{ s2 with model := some model', intermediateState := some layerOut }, output,
    ⟨hrange, model', rfl, ?_, hvalid'⟩, hcarries, ?_⟩
  · change ({ model.unmasked with layers := _ } : ModelWeights T) = _
    rw [hslice]
    rfl
  · have hexit (hstop : model.totalLayers ≤ stop) :
        exitLogits candle model layerOut tokens.length =
          exitLogits candle full layerOut tokens.length := by
      rw [htotal] at hstop
      rw [← exitLogits_slice hstop, ← hslice]
      rfl
    simp only [passState, backend, hensure, hset]
    rw [hlayers, ← htotal]
    by_cases hstop : model.totalLayers ≤ stop
    · rw [if_pos hstop, if_pos hstop, hexit hstop]
      cases exitLogits candle full layerOut tokens.length with
      | error e => rfl
      | ok logits =>
        simp only [hget]
        rfl
    · rw [if_neg hstop, if_neg hstop]
      simp only [hget]
      rfl

/-! ## All stages -/

/-- Later stages have higher numbers and later layers. -/
theorem le_of_mem_stagesFrom {bounds : List ℕ} (hascending : (start :: bounds).IsChain (· ≤ ·))
    {k : ℕ} {stage : ℕ × ℕ × ℕ} (h : stage ∈ stagesFrom k (start :: bounds)) :
    k ≤ stage.1 ∧ start ≤ stage.2.1 := by
  induction bounds generalizing k start with
  | nil => cases h
  | cons stop bounds ih =>
    obtain ⟨hle, hchain⟩ := List.isChain_cons_cons.1 hascending
    rcases List.mem_cons.1 h with rfl | h
    · exact ⟨Nat.le_refl _, Nat.le_refl _⟩
    · obtain ⟨hk, hstart⟩ := ih hchain h
      omega

/-- The stages from a boundary on compute the layers from there on. -/
theorem forwardAll_stagesFrom (lawful : candle.Lawful)
    (hlength : full.layers.length = full.totalLayers) {tokens : List ℤ} {indexPos : ℕ}
    {mask : Option T} (hmask : ModelWeights.freshMask candle tokens.length = .ok mask)
    {layers' : List (LayerWeights T)} {out : T} (bounds : List ℕ) (hne : bounds ≠ [])
    (hascending : (start :: bounds).IsChain (· ≤ ·))
    (hlast : ∀ b ∈ bounds.getLast?, full.totalLayers ≤ b) (k : ℕ) {s : ℕ → CandleBackend T}
    (ready : ∀ stage ∈ stagesFrom k (start :: bounds),
      Ready candle openGguf full stage.2.1 stage.2.2 (s stage.1))
    {layerIn : T} (hidden : candle.IsHidden layerIn)
    (hembed : start = 0 → Embeds candle full tokens layerIn) {input : Bytes}
    (carries : Carries candle input start layerIn)
    (hrun : forwardLayers candle (full.layers.drop start) layerIn mask indexPos =
      (layers'.drop start, .ok out)) (before : Option (List Float32)) :
    let composed := forwardAll (fun _ => backend candle openGguf) tokens indexPos s input before
      (stagesFrom k (start :: bounds))
    composed.logits = (exitLogits candle full out tokens.length).toOption ∧
      (∀ stage ∈ stagesFrom k (start :: bounds),
        Ready candle openGguf { full with layers := layers' } stage.2.1 stage.2.2
          (composed.workers stage.1)) ∧
      ∀ j < k, composed.workers j = s j := by
  induction bounds generalizing start k s layerIn input before with
  | nil => exact absurd rfl hne
  | cons stop bounds ih =>
    obtain ⟨hle, hchain⟩ := List.isChain_cons_cons.1 hascending
    obtain ⟨between, hslice, hrest⟩ := exists_forwardLayers_slice hle hrun
    have hbetween : candle.IsHidden between := isHidden_forwardLayers lawful hslice hidden
    have hready : Ready candle openGguf full start stop (s k) :=
      ready (k, start, stop) (List.mem_cons_self ..)
    obtain ⟨t, output, holds, hcarries, hpass⟩ := exists_passState_stage hready hle hlength hmask
      hembed carries hslice hbetween
    have hexit (hstop : full.totalLayers ≤ stop) : between = out ∧ layers'.length ≤ stop := by
      rw [List.drop_of_length_le (hlength.trans_le hstop), forwardLayers] at hrest
      obtain ⟨hnil, hout⟩ := Prod.mk.inj hrest
      exact ⟨Except.ok.inj hout, List.drop_eq_nil_iff.1 hnil.symm⟩
    have hlater {stage : ℕ × ℕ × ℕ} (h : stage ∈ stagesFrom (k + 1) (stop :: bounds)) :
        Function.update s k t stage.1 = s stage.1 ∧ stop ≤ stage.2.1 := by
      obtain ⟨hk, hstart⟩ := le_of_mem_stagesFrom hchain h
      exact ⟨Function.update_of_ne (by omega) .., hstart⟩
    simp only [stagesFrom, forwardAll, List.forall_mem_cons] at ready ⊢
    rw [hpass]
    cases hlogits : (if full.totalLayers ≤ stop then exitLogits candle full between tokens.length
      else .ok []) with
    | error e =>
      -- the head fails: the stages behind it have no layers, and are not reached
      have hstop : full.totalLayers ≤ stop := by
        by_contra hstop
        rw [if_neg hstop] at hlogits
        cases hlogits
      obtain ⟨rfl, hnew⟩ := hexit hstop
      rw [if_pos hstop] at hlogits
      simp only [Except.map, hlogits, Function.update_self]
      refine ⟨rfl, ⟨holds.ready, fun stage hstage => ?_⟩,
        fun j hj => Function.update_of_ne hj.ne ..⟩
      obtain ⟨hother, hstart⟩ := hlater hstage
      rw [hother]
      refine (ready.2 stage hstage).of_layers ?_ ?_ <;> omega
    | ok logits =>
      simp only [Except.map]
      rcases bounds with - | ⟨stop', bounds⟩
      · have hstop : full.totalLayers ≤ stop := hlast stop rfl
        obtain ⟨rfl, -⟩ := hexit hstop
        rw [if_pos hstop] at hlogits
        simp only [stagesFrom, forwardAll, hlogits, Function.update_self]
        exact ⟨rfl, ⟨holds.ready, fun stage hstage => by cases hstage⟩,
          fun j hj => Function.update_of_ne hj.ne ..⟩
      · have hready' : ∀ stage ∈ stagesFrom (k + 1) (stop :: stop' :: bounds),
            Ready candle openGguf full stage.2.1 stage.2.2 (Function.update s k t stage.1) := by
          intro stage hstage
          rw [(hlater hstage).1]
          exact ready.2 stage hstage
        have hembed' : stop = 0 → Embeds candle full tokens between := by
          rintro rfl
          obtain rfl : start = 0 := by omega
          rw [Nat.sub_self, List.take_zero, forwardLayers] at hslice
          obtain rfl : layerIn = between := Except.ok.inj (Prod.mk.inj hslice).2
          exact hembed rfl
        obtain ⟨hresult, hreadys, hframe⟩ := ih (List.cons_ne_nil _ _) hchain hlast (k + 1) hready'
          hbetween hembed' (hcarries stop) hrest (some logits)
        have hk := hframe k (Nat.lt_succ_self k)
        rw [Function.update_self] at hk
        refine ⟨hresult, ⟨by rw [hk]; exact holds.ready, hreadys⟩, fun j hj => ?_⟩
        rw [hframe j (by omega), Function.update_of_ne hj.ne]

/-! ## The full model -/

/-- What a fully loaded model keeps. -/
structure Whole (candle : Candle T Q) (full : ModelWeights T) : Prop where
  masksValid : full.MasksValid candle
  length_layers : full.layers.length = full.totalLayers
  isHidden_embedding : ∀ tok, full.tokEmbeddings = some tok → ∀ x y d1 d2,
    candle.dims2 x = .ok (d1, d2) → tok x = .ok y → candle.IsHidden y

theorem whole_of_load (lawful : candle.Lawful) {gguf : Gguf Q} {full : ModelWeights T}
    (hload : ModelWeights.fromGguf candle gguf = .ok full) :
    Whole candle full ∧ full.totalLayers = gguf.blockCount := by
  have spans := ModelWeights.spans_of_load hload
  obtain ⟨hp, _, _, _, hhp, -, -, htok, -, -, -, htotal, -⟩ :=
    ModelWeights.fromGgufPartial_eq_ok hload
  have hcount : full.totalLayers = gguf.blockCount := by rw [htotal, Gguf.blockCount_eq hhp]
  refine ⟨⟨ModelWeights.masksValid_of_load hload, ?_, fun tok hsome x y d1 d2 hx hy => ?_⟩, hcount⟩
  · have hlength := spans.length
    rw [hcount, Nat.zero_min, Nat.min_self] at hlength
    omega
  · rw [Nat.zero_min, hsome] at htok
    obtain ⟨q, -, htok⟩ := Except.bind_eq_ok.1 htok
    obtain ⟨w, hw, htok⟩ := Except.bind_eq_ok.1 htok
    cases htok
    exact lawful.isHidden_embedding q w _ x y d1 d2 hw hx hy

theorem elim_error_eq_ok {α : Type} {o : Option α} {e : String} {a : α} :
    o.elim (Except.error e) .ok = .ok a ↔ o = some a := by
  cases o <;> simp

/-- A step that the full model accepts. -/
theorem fullMachine_step_eq_ok (lawful : candle.Lawful) {full : ModelWeights T}
    (whole : Whole candle full) {input : List ℤ × ℕ} {answer : T}
    (h : ((fullMachine candle).step full input).2 = .ok answer) :
    ∃ mask layerIn layers out masks,
      ModelWeights.freshMask candle input.1.length = .ok mask ∧
      Embeds candle full input.1 layerIn ∧ candle.IsHidden layerIn ∧
      forwardLayers candle full.layers layerIn mask input.2 = (layers, .ok out) ∧
      exitLogits candle full out input.1.length = logitsOf candle answer ∧
      ((fullMachine candle).step full input).1 = { full with layers, masks } ∧
      Whole candle { full with layers, masks } := by
  obtain ⟨tokens, indexPos⟩ := input
  dsimp only [fullMachine] at h ⊢
  rcases htensor : tokenTensor candle tokens with e | x
  · rw [htensor] at h
    cases h
  · rw [htensor] at h
    dsimp only at h ⊢
    obtain ⟨ids, hids, hunsqueeze⟩ := Except.bind_eq_ok.1 htensor
    have hdims : candle.dims2 x = .ok (1, tokens.length) := by
      rw [lawful.dims_tokens _ ids x hids hunsqueeze, List.length_map]
    obtain ⟨masks, hmask, hvalid⟩ := ModelWeights.maskFor_eq whole.masksValid tokens.length
    simp only [ModelWeights.forward, hdims, hmask] at h ⊢
    rcases hfresh : ModelWeights.freshMask candle tokens.length with e | mask <;>
      rw [hfresh] at h <;> dsimp only at h ⊢
    · cases h
    rcases htok : full.tokEmbeddings with - | tok <;> rw [htok] at h <;> dsimp only at h ⊢
    · cases h
    rcases hin : tok x with e | layerIn <;> rw [hin] at h <;> dsimp only at h ⊢
    · cases h
    rcases hlayers : forwardLayers candle full.layers layerIn mask indexPos with
      ⟨layers, e | out⟩ <;> rw [hlayers] at h <;> dsimp only at h ⊢
    · cases h
    refine ⟨mask, layerIn, layers, out, masks, rfl, ⟨tok, htok, by rw [htensor]; exact hin⟩,
      whole.isHidden_embedding tok htok x layerIn 1 tokens.length hdims hin, hlayers, ?_, rfl,
      hvalid, ?_, fun tok' h' => whole.isHidden_embedding tok' (htok.trans h')⟩
    · rw [Except.ok_bind] at h
      obtain ⟨norm, hnorm, h⟩ := Except.bind_eq_ok.1 h
      obtain ⟨output, houtput, h⟩ := Except.bind_eq_ok.1 h
      obtain ⟨normed, hnormed, h⟩ := Except.bind_eq_ok.1 h
      obtain ⟨row, hrow, h⟩ := Except.bind_eq_ok.1 h
      rw [elim_error_eq_ok] at hnorm houtput
      simp only [exitLogits, logitsOf, hnorm, houtput, Option.elim_some, Except.ok_bind, hnormed,
        hrow, h]
    · have hlength := congrArg (·.1.length) hlayers
      simp only [length_forwardLayers] at hlength
      rw [← hlength]
      exact whole.length_layers

/-! ## All steps -/

theorem start_le_of_mem_stagesFrom {bounds : List ℕ} (hascending : bounds.IsChain (· ≤ ·)) {k : ℕ}
    {stage : ℕ × ℕ × ℕ} (h : stage ∈ stagesFrom k bounds) : stage.2.1 ≤ stage.2.2 := by
  induction k, bounds using stagesFrom.induct with
  | case1 k start stop rest ih =>
    obtain ⟨hle, hchain⟩ := List.isChain_cons_cons.1 hascending
    rcases List.mem_cons.1 h with rfl | h
    · exact hle
    · exact ih hchain h
  | case2 k bounds hshort =>
    rw [stagesFrom] at h
    · cases h
    · exact hshort

/-- The backends of the stages between boundaries are ready to follow the full model. -/
structure Follows (candle : Candle T Q) (openGguf : ModelSource → Except String (Gguf Q))
    (bounds : List ℕ) (full : ModelWeights T) (s : ℕ → CandleBackend T) : Prop where
  whole : Whole candle full
  splits : Splits bounds full.totalLayers
  ready : ∀ stage ∈ stagesFrom 0 bounds,
    Ready candle openGguf full stage.2.1 stage.2.2 (s stage.1)

/-- The stages follow every step that the full model accepts. -/
theorem splitMachine_step (lawful : candle.Lawful) {bounds : List ℕ} (full : ModelWeights T)
    (s : ℕ → CandleBackend T) (input : List ℤ × ℕ)
    (follows : Follows candle openGguf bounds full s)
    (h : ((fullMachine candle).step full input).2.isOk = true) :
    Follows candle openGguf bounds ((fullMachine candle).step full input).1
        ((splitMachine candle openGguf bounds).step s input).1 ∧
      ((splitMachine candle openGguf bounds).step s input).2 =
        (((fullMachine candle).step full input).2 >>= logitsOf candle).toOption := by
  cases hanswer : ((fullMachine candle).step full input).2 with
  | error e =>
    rw [hanswer] at h
    cases h
  | ok answer =>
    obtain ⟨whole, splits, ready⟩ := follows
    obtain ⟨mask, layerIn, layers, out, masks, hmask, hembed, hidden, hrun, hexit, hstep, hwhole⟩ :=
      fullMachine_step_eq_ok lawful whole hanswer
    obtain ⟨bounds, rfl⟩ : ∃ rest, bounds = 0 :: rest := List.head?_eq_some_iff.1 splits.first
    obtain ⟨stop, bounds, rfl⟩ : ∃ stop rest, bounds = stop :: rest := by
      refine List.exists_cons_of_ne_nil ?_
      rintro rfl
      exact absurd splits.nonempty (by decide)
    have hlast := splits.last
    rw [List.getLast?_cons_cons] at hlast
    obtain ⟨hlogits, hready, -⟩ := forwardAll_stagesFrom lawful whole.length_layers hmask _
      (List.cons_ne_nil stop bounds) splits.ascending hlast 0 ready hidden (fun _ => hembed)
      (carries_nil layerIn) hrun none
    rw [hstep, Except.ok_bind, ← hexit]
    exact ⟨⟨hwhole, splits, hready⟩, hlogits⟩

theorem follows_ofSource (lawful : candle.Lawful) {source : ModelSource} {gguf : Gguf Q}
    (hopen : openGguf source = .ok gguf) {full : ModelWeights T}
    (hload : ModelWeights.fromGguf candle gguf = .ok full) {bounds : List ℕ}
    (splits : Splits bounds gguf.blockCount) :
    Follows candle openGguf bounds full fun _ => ofSource source := by
  obtain ⟨whole, hcount⟩ := whole_of_load lawful hload
  refine ⟨whole, hcount ▸ splits, fun stage hstage => ready_ofSource hopen hload ?_⟩
  exact start_le_of_mem_stagesFrom splits.ascending hstage

/-- Split inference equals the inference of the whole model: at every step the last stage returns
the logits of the full model. -/
theorem splitMachine_answers (lawful : candle.Lawful) {source : ModelSource} {gguf : Gguf Q}
    (hopen : openGguf source = .ok gguf) {full : ModelWeights T}
    (hload : ModelWeights.fromGguf candle gguf = .ok full) {bounds : List ℕ}
    (splits : Splits bounds gguf.blockCount) (steps : List (List ℤ × ℕ))
    (accepted : ∀ answer ∈ (fullMachine candle).answers full steps, answer.isOk = true) :
    (splitMachine candle openGguf bounds).answers (fun _ => ofSource source) steps =
      ((fullMachine candle).answers full steps).map fun answer =>
        (answer >>= logitsOf candle).toOption :=
  Mealy.answers_of_simulation (splitMachine_step lawful)
    (follows_ofSource lawful hopen hload splits) accepted

theorem splitMachine_answers_three_stages :
    let openGguf := fun _ : ModelSource => Except.ok (Gguf.zeros 3)
    let steps : List (List ℤ × ℕ) := [([1, 0], 0), ([1], 2)]
    ∃ full, ModelWeights.fromGguf Candle.shapes (Gguf.zeros 3) = .ok full ∧
      (splitMachine Candle.shapes openGguf [0, 2, 2, 5]).answers
          (fun _ => ofSource (.path "model.gguf")) steps =
        ((fullMachine Candle.shapes).answers full steps).map fun answer =>
          (answer >>= logitsOf Candle.shapes).toOption := by
  intro openGguf steps
  have accepted : ∃ full, ModelWeights.fromGguf Candle.shapes (Gguf.zeros 3) = .ok full ∧
      ∀ answer ∈ (fullMachine Candle.shapes).answers full steps, answer.isOk = true := by
    have hload : (match ModelWeights.fromGguf Candle.shapes (Gguf.zeros 3) with
      | .error _ => false
      | .ok full => ((fullMachine Candle.shapes).answers full steps).all (·.isOk)) = true := by
      decide +kernel
    split at hload
    · cases hload
    · exact ⟨_, by assumption, List.all_eq_true.1 hload⟩
  obtain ⟨full, hload, accepted⟩ := accepted
  have splits : Splits [0, 2, 2, 5] (Gguf.zeros 3).blockCount :=
    ⟨rfl, by decide, by decide, by decide +kernel⟩
  exact ⟨full, hload, splitMachine_answers Candle.shapes_lawful rfl hload splits steps accepted⟩

end NeuralSwarm
