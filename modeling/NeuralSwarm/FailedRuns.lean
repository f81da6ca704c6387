import NeuralSwarm.SliceCoherence

/-!
# What a failed run leaves

A run takes the hidden state before it starts, and each layer writes its cache before the steps of
the attention that can fail.  Nothing is undone: a run that fails leaves what it has done until
then.  `FailedRun` lists the four places where it can fail.
-/

namespace NeuralSwarm

variable {T Q : Type} {candle : Candle T Q}

namespace CandleBackend

/-! ## A loop that fails -/

variable (candle) in
/-- Layers that the loop does not visit stay as they are. -/
theorem runIndexes_getElem? (layers : List (LayerWeights T)) {indexes : List ℕ} {idx : ℕ}
    (hnot : idx ∉ indexes) (layerIn : T) (mask : Option T) (indexPos : ℕ) :
    (runIndexes candle layers indexes layerIn mask indexPos).1[idx]? = layers[idx]? := by
  induction indexes generalizing layers layerIn with
  | nil => rfl
  | cons first rest ih =>
    obtain ⟨hne, hrest⟩ := List.ne_and_not_mem_of_not_mem_cons hnot
    rw [runIndexes]
    cases layers[first]? with
    | none => rfl
    | some layer =>
      dsimp only
      rcases layer.forward candle layerIn mask indexPos with ⟨layer', - | layerOut⟩
      · exact List.getElem?_set_ne hne.symm
      · exact (ih _ hrest _).trans (List.getElem?_set_ne hne.symm)

/-- A loop that fails has run the layers before the one that fails. -/
theorem exists_of_runIndexes_error {layers layers' : List (LayerWeights T)} {indexes : List ℕ}
    {layerIn : T} {mask : Option T} {indexPos : ℕ} {e : String}
    (inBounds : ∀ idx ∈ indexes, idx < layers.length)
    (h : runIndexes candle layers indexes layerIn mask indexPos = (layers', .error e)) :
    ∃ done idx rest between x layer layer', indexes = done ++ idx :: rest ∧
      runIndexes candle layers done layerIn mask indexPos = (between, .ok x) ∧
      between[idx]? = some layer ∧ layer.forward candle x mask indexPos = (layer', .error e) ∧
      layers' = between.set idx layer' := by
  induction indexes generalizing layers layerIn with
  | nil => cases h
  | cons first rest ih =>
    have hfirst : first < layers.length := inBounds first (List.mem_cons_self ..)
    have hget : layers[first]? = some layers[first] := List.getElem?_eq_getElem hfirst
    rw [runIndexes, hget] at h
    dsimp only at h
    rcases hforward : layers[first].forward candle layerIn mask indexPos with
      ⟨layer', e' | layerOut⟩
    · rw [hforward] at h
      cases h
      exact ⟨[], first, rest, layers, layerIn, layers[first], layer', rfl, rfl, hget, hforward,
        rfl⟩
    · rw [hforward] at h
      have hbounds : ∀ idx ∈ rest, idx < (layers.set first layer').length := by
        intro idx hidx
        rw [List.length_set]
        exact inBounds idx (List.mem_cons_of_mem _ hidx)
      obtain ⟨done, idx, rest, between, x, layer, failed, rfl, hdone, hlayer, hfail, rfl⟩ :=
        ih hbounds h
      refine ⟨first :: done, idx, rest, between, x, layer, failed, rfl, ?_, hlayer, hfail, rfl⟩
      simp only [runIndexes, hget, hforward, hdone]

theorem nodup_localIndexes (model : ModelWeights T) (startLayer endLayer : ℕ) :
    (localIndexes model startLayer endLayer).Nodup := by
  refine List.Nodup.map_on (fun i hi j hj h => ?_) List.nodup_range'
  have hi := List.mem_range'_1.1 hi
  have hj := List.mem_range'_1.1 hj
  omega

/-! ## The input -/

/-- The backend once a run has its input: a stage after the first has given up its hidden state. -/
def afterInput (s : CandleBackend T) (startLayer : ℕ) : CandleBackend T :=
  { s with intermediateState := if startLayer = 0 then s.intermediateState else none }

theorem takeInput_eq (s : CandleBackend T) (model : ModelWeights T) (startLayer : ℕ)
    (tokens : List ℤ) :
    s.takeInput candle model startLayer tokens =
      match (s.takeInput candle model startLayer tokens).2 with
      | .error e => (s, .error e)
      | .ok layerIn => (s.afterInput startLayer, .ok layerIn) := by
  unfold takeInput afterInput
  by_cases hzero : startLayer = 0
  · simp only [hzero, if_true]
    cases model.tokEmbeddings with
    | none => rfl
    | some tok =>
      dsimp only
      cases tokenTensor candle tokens >>= tok <;> rfl
  · simp only [hzero, if_false]
    cases s.intermediateState <;> rfl

/-! ## A run that fails -/

/-- A failed run, the layers that it has reached, and what it leaves. -/
inductive FailedRun (candle : Candle T Q) (s : CandleBackend T) (model : ModelWeights T)
    (startLayer endLayer : ℕ) (tokens : List ℤ) (sequenceId : ℕ) :
    List ℕ → CandleBackend T → String → Prop
  /-- There is no input: nothing has changed. -/
  | input {e : String} (hinput : (s.takeInput candle model startLayer tokens).2 = .error e) :
    FailedRun candle s model startLayer endLayer tokens sequenceId [] s e
  /-- There is no mask: the hidden state has been taken. -/
  | mask {e : String} {layerIn : T}
    (hinput : (s.takeInput candle model startLayer tokens).2 = .ok layerIn)
    (hmask : model.maskFor candle tokens.length = (model, .error e)) :
    FailedRun candle s model startLayer endLayer tokens sequenceId [] (s.afterInput startLayer) e
  /-- A layer fails: the layers before it have written their caches, and it may have. -/
  | layer {e : String} {layerIn x : T} {masked : ModelWeights T} {mask : Option T}
    {done rest : List ℕ} {idx : ℕ} {between : List (LayerWeights T)} {layer layer' : LayerWeights T}
    (hinput : (s.takeInput candle model startLayer tokens).2 = .ok layerIn)
    (hmask : model.maskFor candle tokens.length = (masked, .ok mask))
    (hvisited : localIndexes model startLayer endLayer = done ++ idx :: rest)
    (hdone : runIndexes candle model.layers done layerIn mask sequenceId = (between, .ok x))
    (hlayer : model.layers[idx]? = some layer)
    (hfail : layer.forward candle x mask sequenceId = (layer', .error e)) :
    FailedRun candle s model startLayer endLayer tokens sequenceId (done ++ [idx])
      { s.afterInput startLayer with
        model := some { masked with layers := between.set idx layer' } } e
  /-- The exit node has no logits: the output of the last layer is the hidden state. -/
  | exit {e : String} {layerIn layerOut : T} {masked : ModelWeights T} {mask : Option T}
    {layers : List (LayerWeights T)}
    (hinput : (s.takeInput candle model startLayer tokens).2 = .ok layerIn)
    (hmask : model.maskFor candle tokens.length = (masked, .ok mask))
    (hdone : runIndexes candle model.layers (localIndexes model startLayer endLayer) layerIn mask
      sequenceId = (layers, .ok layerOut))
    (hlast : endLayer ≥ model.totalLayers)
    (hfail : exitLogits candle model layerOut tokens.length = .error e) :
    FailedRun candle s model startLayer endLayer tokens sequenceId
      (localIndexes model startLayer endLayer)
      { s.afterInput startLayer with
        model := some { masked with layers }
        intermediateState := some layerOut } e

variable {s s' : CandleBackend T} {model : ModelWeights T} {startLayer endLayer : ℕ}
  {tokens : List ℤ} {sequenceId : ℕ} {reached : List ℕ} {e : String}

theorem exists_failedRun (hmodel : s.model = some model)
    (h : s.runLayers candle startLayer endLayer tokens sequenceId = (s', .error e)) :
    ∃ reached, FailedRun candle s model startLayer endLayer tokens sequenceId reached s' e := by
  simp only [runLayers, hmodel] at h
  rw [takeInput_eq] at h
  rcases hinput : (s.takeInput candle model startLayer tokens).2 with e' | layerIn
  · rw [hinput] at h
    cases h
    exact ⟨[], .input hinput⟩
  · simp only [hinput] at h
    rcases hmask : model.maskFor candle tokens.length with ⟨masked, e' | mask⟩
    · obtain rfl := ModelWeights.eq_of_maskFor_error hmask
      rw [hmask] at h
      cases h
      have hsame : ({ s.afterInput startLayer with model := some masked } : CandleBackend T) =
        s.afterInput startLayer := by rw [← hmodel]; rfl
      rw [hsame]
      exact ⟨[], .mask hinput hmask⟩
    · obtain ⟨masks, rfl⟩ : ∃ masks, masked = { model with masks } := by
        obtain ⟨masks, hmasked⟩ := model.maskFor_fst candle tokens.length
        exact ⟨masks, by rw [← hmasked, hmask]⟩
      have hindexes : localIndexes ({ model with masks } : ModelWeights T) startLayer endLayer =
        localIndexes model startLayer endLayer := rfl
      simp only [hmask, hindexes] at h
      rcases hrun : runIndexes candle model.layers (localIndexes model startLayer endLayer) layerIn
        mask sequenceId with ⟨layers, e' | layerOut⟩
      · rw [hrun] at h
        cases h
        obtain ⟨done, idx, rest, between, x, layer, layer', hvisited, hdone, hlayer, hfail, rfl⟩ :=
          exists_of_runIndexes_error (fun _ => lt_of_mem_localIndexes) hrun
        have hnot : idx ∉ done := by
          have hnodup := nodup_localIndexes model startLayer endLayer
          rw [hvisited] at hnodup
          intro hmem
          exact (List.nodup_append.1 hnodup).2.2 idx hmem idx (List.mem_cons_self ..) rfl
        have hkept := runIndexes_getElem? candle model.layers hnot layerIn mask sequenceId
        rw [hdone, hlayer] at hkept
        exact ⟨done ++ [idx], .layer hinput hmask hvisited hdone hkept.symm hfail⟩
      · rw [hrun] at h
        dsimp only at h
        by_cases hlast : endLayer ≥ model.totalLayers
        · rw [if_pos hlast] at h
          obtain ⟨rfl, hfail⟩ := Prod.mk.inj h
          exact ⟨_, .exit hinput hmask hrun hlast hfail⟩
        · rw [if_neg hlast] at h
          cases h

theorem FailedRun.reached_prefix
    (failed : FailedRun candle s model startLayer endLayer tokens sequenceId reached s' e) :
    reached <+: localIndexes model startLayer endLayer := by
  cases failed with
  | input | mask => exact List.nil_prefix
  | layer _ _ hvisited => exact ⟨_, by rw [hvisited, List.append_assoc, List.singleton_append]⟩
  | exit => exact List.prefix_rfl

/-- The layers that a failed run has not reached keep their caches. -/
theorem FailedRun.exists_model (hmodel : s.model = some model)
    (failed : FailedRun candle s model startLayer endLayer tokens sequenceId reached s' e) :
    ∃ model', s'.model = some model' ∧
      ∀ idx ∉ reached, model'.layers[idx]? = model.layers[idx]? := by
  cases failed with
  | input | mask => exact ⟨model, hmodel, fun _ _ => rfl⟩
  | @layer _ layerIn x masked mask done rest idx between layer layer' _ _ _ hdone =>
    refine ⟨_, rfl, fun other hother => ?_⟩
    rw [List.mem_append, List.mem_singleton, not_or] at hother
    have hkept := runIndexes_getElem? candle model.layers hother.1 layerIn mask sequenceId
    rw [hdone] at hkept
    exact (List.getElem?_set_ne (Ne.symm hother.2)).trans hkept
  | @exit _ layerIn layerOut masked mask layers _ _ hdone =>
    refine ⟨_, rfl, fun other hother => ?_⟩
    have hkept := runIndexes_getElem? candle model.layers hother layerIn mask sequenceId
    rwa [hdone] at hkept

/-- A run that fails leaves the source, the range and the weights, and the caches of the layers that
it has not reached; what it has done to the others and to the hidden state stays done. -/
theorem runLayers_error_leaves
    (h : s.runLayers candle startLayer endLayer tokens sequenceId = (s', .error e)) :
    s'.resident = s.resident ∧ ∃ model model' reached, s.model = some model ∧
      s'.model = some model' ∧ reached <+: localIndexes model startLayer endLayer ∧
      (∀ idx ∉ reached, model'.layers[idx]? = model.layers[idx]?) ∧
      FailedRun candle s model startLayer endLayer tokens sequenceId reached s' e := by
  have hresident := s.resident_runLayers candle startLayer endLayer tokens sequenceId
  rw [h] at hresident
  cases hmodel : s.model with
  | none =>
    simp only [runLayers, hmodel] at h
    cases h
  | some model =>
    obtain ⟨reached, failed⟩ := exists_failedRun hmodel h
    obtain ⟨model', hmodel', hkept⟩ := failed.exists_model hmodel
    exact ⟨hresident, model, model', reached, rfl, hmodel', failed.reached_prefix, hkept, failed⟩

/-! ## Two tokens after others -/

/-- With a cache, a mask for two tokens does not fit: the layer has written its cache by then. -/
theorem runLayers_two_tokens :
    afterLayerTask.runLayers Candle.shapes 0 1 [1, 0] 2 =
      ((afterLayerTask.runLayers Candle.shapes 0 1 [1, 0] 2).1, .error "cannot broadcast") :=
  Prod.ext rfl (by decide +kernel)

theorem runLayers_error_leaves_two_tokens :
    ∃ model model' reached, afterLayerTask.model = some model ∧
      (afterLayerTask.runLayers Candle.shapes 0 1 [1, 0] 2).1.model = some model' ∧
      reached <+: localIndexes model 0 1 ∧
      (∀ idx ∉ reached, model'.layers[idx]? = model.layers[idx]?) ∧
      FailedRun Candle.shapes afterLayerTask model 0 1 [1, 0] 2 reached
        (afterLayerTask.runLayers Candle.shapes 0 1 [1, 0] 2).1 "cannot broadcast" :=
  (runLayers_error_leaves runLayers_two_tokens).2

theorem not_intact_of_error :
    ¬ ∀ (s s' : CandleBackend Shape) (startLayer endLayer : ℕ) (tokens : List ℤ) (sequenceId : ℕ)
        (e : String),
      s.runLayers Candle.shapes startLayer endLayer tokens sequenceId = (s', .error e) →
        s'.model.map (·.layers.map (·.kvCache)) = s.model.map (·.layers.map (·.kvCache)) ∧
          s'.intermediateState = s.intermediateState := by
  intro h
  have hcaches := congrArg (Option.map (List.map (Option.map fun cache => cache.1.dims)))
    (h _ _ 0 1 [1, 0] 2 _ runLayers_two_tokens).1
  rw [Option.map_map, Option.map_map] at hcaches
  revert hcaches
  decide +kernel

end CandleBackend

end NeuralSwarm
