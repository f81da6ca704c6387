import NeuralSwarm.CandleBackend

/-!
# The slice in memory

What a backend computes with the slice that it holds.  The cached masks are those it would compute,
the index arithmetic of its loop visits the layers in memory once each and in order, and a slice
that is loaded from a file is the slice of the full model.
-/

namespace NeuralSwarm

variable {T Q : Type} (candle : Candle T Q)

/-! ## Masks -/

namespace ModelWeights

/-- The mask of a run, computed anew. -/
def freshMask (seqLen : ℕ) : Except String (Option T) :=
  if seqLen = 1 then .ok none else (causalMask candle seqLen).map some

/-- The cached masks are the causal ones. -/
def MasksValid (model : ModelWeights T) : Prop :=
  ∀ t mask, model.masks t = some mask → causalMask candle t = .ok mask

/-- A model without its cached masks. -/
def unmasked (model : ModelWeights T) : ModelWeights T := { model with masks := fun _ => none }

/-- The weights of a model: what a run does not change. -/
def weights (model : ModelWeights T) : ModelWeights T :=
  { model with
    layers := model.layers.map (·.forget)
    masks := fun _ => none }

/-- A lookup of the mask changes the cached masks and nothing else. -/
theorem maskFor_fst (model : ModelWeights T) (seqLen : ℕ) :
    ∃ masks, (model.maskFor candle seqLen).1 = { model with masks } := by
  unfold maskFor mask
  by_cases hone : seqLen = 1
  · exact ⟨model.masks, by rw [if_pos hone]⟩
  · rw [if_neg hone]
    cases model.masks seqLen with
    | some mask => exact ⟨model.masks, rfl⟩
    | none => cases causalMask candle seqLen <;> exact ⟨_, rfl⟩

variable {candle}

theorem eq_of_maskFor_error {model masked : ModelWeights T} {seqLen : ℕ} {e : String}
    (h : model.maskFor candle seqLen = (masked, .error e)) : masked = model := by
  unfold maskFor mask at h
  split at h
  · cases h
  · cases hmask : model.masks seqLen with
    | some mask =>
      rw [hmask] at h
      cases h
    | none =>
      rw [hmask] at h
      cases hcausal : causalMask candle seqLen <;> rw [hcausal] at h <;> cases h
      rfl

/-- A valid cache of masks makes no difference. -/
theorem maskFor_eq {model : ModelWeights T} (valid : model.MasksValid candle) (seqLen : ℕ) :
    ∃ masks, model.maskFor candle seqLen = ({ model with masks }, freshMask candle seqLen) ∧
      ({ model with masks } : ModelWeights T).MasksValid candle := by
  by_cases hone : seqLen = 1
  · exact ⟨model.masks, by simp only [maskFor, freshMask, hone, if_true], valid⟩
  · simp only [maskFor, freshMask, hone, if_false, mask]
    cases hmask : model.masks seqLen with
    | some mask =>
      refine ⟨model.masks, ?_, valid⟩
      rw [valid seqLen mask hmask]
      rfl
    | none =>
      cases hcausal : causalMask candle seqLen with
      | error e => exact ⟨model.masks, rfl, valid⟩
      | ok mask =>
        refine ⟨_, rfl, fun t mask' h => ?_⟩
        change Function.update model.masks seqLen (some mask) t = some mask' at h
        by_cases ht : t = seqLen
        · rw [ht, Function.update_self] at h
          rw [ht, hcausal, Option.some.inj h]
        · rw [Function.update_of_ne ht] at h
          exact valid t mask' h

end ModelWeights

/-! ## The loop over the slice -/

namespace CandleBackend

variable {candle}

theorem runIndexes_eq (front layers : List (LayerWeights T)) (layerIn : T) (mask : Option T)
    (indexPos : ℕ) :
    runIndexes candle (front ++ layers) (List.range' front.length layers.length) layerIn mask
        indexPos =
      let (layers, result) := forwardLayers candle layers layerIn mask indexPos
      (front ++ layers, result) := by
  induction layers generalizing front layerIn with
  | nil => rfl
  | cons layer layers ih =>
    rw [List.length_cons, List.range'_succ, runIndexes, forwardLayers]
    rw [List.getElem?_append_right (Nat.le_refl _), Nat.sub_self, List.getElem?_cons_zero]
    dsimp only
    rcases layer.forward candle layerIn mask indexPos with ⟨layer, - | layerOut⟩
    · simp
    · have hrest := ih (front ++ [layer]) layerOut
      simp only [List.length_append, List.length_cons, List.length_nil, List.append_assoc,
        List.cons_append, List.nil_append, Nat.zero_add] at hrest
      simp [hrest]

end CandleBackend

/-- The layers in memory are those between two layers that the model has. -/
structure ModelWeights.Spans (model : ModelWeights T) (start stop : ℕ) : Prop where
  offset : model.layerOffset = min start model.totalLayers
  length : model.layers.length =
    max (min stop model.totalLayers) (min start model.totalLayers) - min start model.totalLayers

namespace CandleBackend

variable {candle}

theorem lt_of_mem_localIndexes {model : ModelWeights T} {startLayer endLayer idx : ℕ}
    (h : idx ∈ localIndexes model startLayer endLayer) : idx < model.layers.length := by
  obtain ⟨layerIdx, hmem, rfl⟩ := List.mem_map.1 h
  have hlt := List.mem_range'_1.1 hmem
  omega

theorem localIndexes_eq {model : ModelWeights T} {start stop : ℕ}
    (spans : model.Spans start stop) :
    localIndexes model start stop = List.range' 0 model.layers.length := by
  have hoffset := spans.offset
  have hlength := spans.length
  have hcount : min stop (model.layerOffset + model.layers.length) -
      max start model.layerOffset = model.layers.length := by
    omega
  rw [localIndexes, hcount]
  cases hzero : model.layers.length with
  | zero => rfl
  | succ n =>
    have hstart : max start model.layerOffset = model.layerOffset := by omega
    rw [hstart, List.map_sub_range' (Nat.le_refl _), Nat.sub_self]

/-- A run over the slice in memory. -/
theorem runLayers_eq {s : CandleBackend T} {model : ModelWeights T} {start stop : ℕ}
    (hmodel : s.model = some model) (spans : model.Spans start stop)
    (valid : model.MasksValid candle) (tokens : List ℤ) (sequenceId : ℕ) :
    ∃ masks, ({ model with masks } : ModelWeights T).MasksValid candle ∧
      s.runLayers candle start stop tokens sequenceId =
        match s.takeInput candle model start tokens with
        | (s, .error e) => (s, .error e)
        | (s, .ok layerIn) =>
          match ModelWeights.freshMask candle tokens.length with
          | .error e => ({ s with model := some { model with masks } }, .error e)
          | .ok mask =>
            match forwardLayers candle model.layers layerIn mask sequenceId with
            | (layers, .error e) =>
              ({ s with model := some { model with layers, masks } }, .error e)
            | (layers, .ok layerOut) =>
              ({ s with
                  model := some { model with layers, masks }
                  intermediateState := some layerOut },
                if stop ≥ model.totalLayers then exitLogits candle model layerOut tokens.length
                else .ok []) := by
  obtain ⟨masks, hmask, hvalid⟩ := ModelWeights.maskFor_eq valid tokens.length
  refine ⟨masks, hvalid, ?_⟩
  have hindexes : localIndexes ({ model with masks } : ModelWeights T) start stop =
    List.range' 0 model.layers.length := localIndexes_eq ⟨spans.offset, spans.length⟩
  have hloop (layerIn : T) (mask : Option T) : runIndexes candle model.layers
      (List.range' 0 model.layers.length) layerIn mask sequenceId =
        forwardLayers candle model.layers layerIn mask sequenceId :=
    runIndexes_eq [] model.layers layerIn mask sequenceId
  simp only [runLayers, hmodel, hmask]
  rcases s.takeInput candle model start tokens with ⟨s', - | layerIn⟩
  · rfl
  · cases ModelWeights.freshMask candle tokens.length with
    | error e => rfl
    | ok mask =>
      simp only [hindexes, hloop]
      rcases forwardLayers candle model.layers layerIn mask sequenceId with
        ⟨layers, - | layerOut⟩ <;> rfl

end CandleBackend

/-! ## Loading -/

variable {candle}

/-- What a successful load consists of. -/
theorem ModelWeights.fromGgufPartial_eq_ok {ct : Gguf Q} {start stop : ℕ}
    {model : ModelWeights T} (h : fromGgufPartial candle ct start stop = .ok model) :
    ∃ hp cos sin negInf, ct.hyperParameters = .ok hp ∧
      precomputFreqsCis candle hp.ropeDim hp.ropeFreqBase = .ok (cos, sin) ∧
      candle.newScalar (Float32.ofBits 0xff800000) = .ok negInf ∧
      ct.loadEmbeddings candle hp (min start hp.blockCount == 0) = .ok model.tokEmbeddings ∧
      ct.loadHead candle hp (max (min stop hp.blockCount) (min start hp.blockCount) ≥
        hp.blockCount) = .ok (model.norm, model.output) ∧
      (List.range' (min start hp.blockCount) (max (min stop hp.blockCount)
          (min start hp.blockCount) - min start hp.blockCount)).mapM
        (ct.loadLayer candle hp cos sin negInf) = .ok model.layers ∧
      model.layerOffset = min start hp.blockCount ∧ model.totalLayers = hp.blockCount ∧
      model.masks = fun _ => none := by
  obtain ⟨hp, hhp, h⟩ := Except.bind_eq_ok.1 h
  obtain ⟨⟨cos, sin⟩, hcis, h⟩ := Except.bind_eq_ok.1 h
  obtain ⟨negInf, hinf, h⟩ := Except.bind_eq_ok.1 h
  obtain ⟨tok, htok, h⟩ := Except.bind_eq_ok.1 h
  obtain ⟨⟨norm, output⟩, hhead, h⟩ := Except.bind_eq_ok.1 h
  obtain ⟨layers, hlayers, h⟩ := Except.bind_eq_ok.1 h
  cases h
  exact ⟨hp, cos, sin, negInf, hhp, hcis, hinf, htok, hhead, hlayers, rfl, rfl, rfl⟩

theorem ModelWeights.spans_of_load {ct : Gguf Q} {start stop : ℕ} {model : ModelWeights T}
    (h : fromGgufPartial candle ct start stop = .ok model) : model.Spans start stop := by
  obtain ⟨hp, cos, sin, negInf, -, -, -, -, -, hlayers, hoffset, htotal, -⟩ :=
    fromGgufPartial_eq_ok h
  have hlength := Except.length_of_mapM hlayers
  rw [List.length_range'] at hlength
  exact ⟨by rw [hoffset, htotal], by rw [hlength, htotal]⟩

theorem ModelWeights.masksValid_of_load {ct : Gguf Q} {start stop : ℕ} {model : ModelWeights T}
    (h : fromGgufPartial candle ct start stop = .ok model) : model.MasksValid candle := by
  obtain ⟨_, _, _, _, -, -, -, -, -, -, -, -, hmasks⟩ := fromGgufPartial_eq_ok h
  intro t mask ht
  rw [hmasks] at ht
  cases ht

/-- The slice of a full model that a node with the layers from `start` to `stop` holds. -/
def ModelWeights.slice (full : ModelWeights T) (start stop : ℕ) : ModelWeights T :=
  let first := min start full.totalLayers
  let isExit := full.totalLayers ≤ max (min stop full.totalLayers) first
  { tokEmbeddings := if first = 0 then full.tokEmbeddings else none
    layers := (full.layers.drop start).take (stop - start)
    norm := if isExit then full.norm else none
    output := if isExit then full.output else none
    layerOffset := first
    totalLayers := full.totalLayers
    masks := fun _ => none }

/-- `from_gguf` loads as many layers as the metadata names. -/
theorem Gguf.blockCount_eq {ct : Gguf Q} {hp : HyperParameters}
    (h : ct.hyperParameters = .ok hp) : ct.blockCount = hp.blockCount := by
  obtain ⟨_, -, h⟩ := Except.bind_eq_ok.1 h
  obtain ⟨_, -, h⟩ := Except.bind_eq_ok.1 h
  obtain ⟨_, -, h⟩ := Except.bind_eq_ok.1 h
  obtain ⟨_, -, h⟩ := Except.bind_eq_ok.1 h
  obtain ⟨value, hvalue, h⟩ := Except.bind_eq_ok.1 h
  obtain ⟨count, hcount, h⟩ := Except.bind_eq_ok.1 h
  obtain ⟨_, -, h⟩ := Except.bind_eq_ok.1 h
  obtain ⟨_, -, h⟩ := Except.bind_eq_ok.1 h
  obtain ⟨_, -, h⟩ := Except.bind_eq_ok.1 h
  obtain ⟨_, -, h⟩ := Except.bind_eq_ok.1 h
  obtain ⟨_, -, h⟩ := Except.bind_eq_ok.1 h
  cases h
  have hkey : ct.arch ++ ".block_count" = ct.arch ++ "." ++ "block_count" := by
    rw [String.append_assoc]
    rfl
  unfold mdGet at hvalue
  dsimp only at hvalue
  unfold blockCount
  rw [hkey]
  split at hvalue
  · cases hvalue
  · rename_i hmetadata
    cases hvalue
    rw [hmetadata]
    simp [hcount, Except.toOption]

/-- The layers that a node loads, among those of the file. -/
theorem slice_range' (count : ℕ) {start stop : ℕ} (hle : start ≤ stop) :
    ((List.range' 0 count).drop start).take (stop - start) =
      List.range' (min start count)
        (max (min stop count) (min start count) - min start count) := by
  rw [List.drop_range', Nat.zero_add, Nat.mul_one]
  rcases Nat.le_total count start with hcount | hstart
  · have hdrop : count - start = 0 := by omega
    have hlen : max (min stop count) (min start count) - min start count = 0 := by omega
    rw [hdrop, hlen, List.range'_zero, List.take_nil, List.range'_zero]
  · rw [Nat.min_eq_left hstart]
    rcases Nat.le_total stop count with hstop | hcount
    · rw [List.take_range'_of_length_ge (by omega), Nat.min_eq_left hstop, Nat.max_eq_left hle]
    · rw [List.take_range'_of_length_le (by omega), Nat.min_eq_right hcount,
        Nat.max_eq_left hstart]

/-- A slice of the file is the slice of the full model. -/
theorem ModelWeights.fromGgufPartial_eq_slice {ct : Gguf Q} {full : ModelWeights T}
    (h : fromGguf candle ct = .ok full) {start stop : ℕ} (hle : start ≤ stop) :
    fromGgufPartial candle ct start stop = .ok (full.slice start stop) := by
  obtain ⟨hp, cos, sin, negInf, hhp, hcis, hinf, htok, hhead, hlayers, -, htotal, -⟩ :=
    fromGgufPartial_eq_ok h
  rw [Gguf.blockCount_eq hhp] at hhead hlayers
  simp only [Nat.zero_min, Nat.min_self, Nat.max_zero, Nat.sub_zero, ge_iff_le, le_refl,
    decide_true, beq_self_eq_true] at htok hhead hlayers
  have htokens : ct.loadEmbeddings candle hp (min start hp.blockCount == 0) =
      .ok (full.slice start stop).tokEmbeddings := by
    simp only [slice, htotal]
    by_cases hzero : min start hp.blockCount = 0
    · rw [if_pos hzero, hzero]
      exact htok
    · rw [if_neg hzero, beq_eq_false_iff_ne.2 hzero]
      rfl
  have hslice : (List.range' (min start hp.blockCount) (max (min stop hp.blockCount)
      (min start hp.blockCount) - min start hp.blockCount)).mapM
        (ct.loadLayer candle hp cos sin negInf) = .ok (full.slice start stop).layers := by
    have hpart := (Except.mapM_take_drop (Except.mapM_take_drop hlayers start).2
      (stop - start)).1
    rwa [slice_range' hp.blockCount hle] at hpart
  have hexit : ct.loadHead candle hp (max (min stop hp.blockCount) (min start hp.blockCount) ≥
        hp.blockCount) = .ok ((full.slice start stop).norm, (full.slice start stop).output) := by
    simp only [slice, htotal]
    by_cases hlast : hp.blockCount ≤ max (min stop hp.blockCount) (min start hp.blockCount)
    · rw [if_pos hlast, if_pos hlast, decide_eq_true hlast]
      exact hhead
    · rw [if_neg hlast, if_neg hlast, decide_eq_false hlast]
      rfl
  simp only [fromGgufPartial, hhp, hcis, hinf, Except.ok_bind, htokens, hslice, hexit]
  simp only [slice, htotal]
  rfl

end NeuralSwarm
