import NeuralSwarm.Basic.Machine
import NeuralSwarm.Decryption

/-!
# The slice and its range

A backend remembers the range that its slice was loaded for and loads again only if another range is
asked for.  Whatever is called, in any order and with any failures, the slice in memory is the one
that the current source has for that range, and the loop of a run visits its layers.
-/

namespace NeuralSwarm

variable {T Q : Type}

namespace CandleBackend

variable (candle : Candle T Q)

/-! ## What a run leaves of the slice -/

theorem runIndexes_forget (layers : List (LayerWeights T)) (indexes : List ℕ) (layerIn : T)
    (mask : Option T) (indexPos : ℕ) :
    (runIndexes candle layers indexes layerIn mask indexPos).1.map (·.forget) =
      layers.map (·.forget) := by
  induction indexes generalizing layers layerIn with
  | nil => rfl
  | cons idx rest ih =>
    rw [runIndexes]
    cases hget : layers[idx]? with
    | none => rfl
    | some layer =>
      obtain ⟨hlt, hlayer⟩ := List.getElem?_eq_some_iff.1 hget
      have hforget : (layer.forward candle layerIn mask indexPos).1.forget = layer.forget :=
        LayerWeights.forward_forget
      have hset (layer' : LayerWeights T) (h : layer'.forget = layer.forget) :
          (layers.set idx layer').map (·.forget) = layers.map (·.forget) := by
        have hlt : idx < (layers.map (·.forget)).length := by rwa [List.length_map]
        have hsame : (layers.map (·.forget))[idx] = layer.forget := by
          rw [List.getElem_map, hlayer]
        rw [List.map_set, h, ← hsame, List.set_getElem_self]
      dsimp only
      revert hforget
      rcases layer.forward candle layerIn mask indexPos with ⟨layer', - | layerOut⟩ <;>
        intro hforget
      · exact hset layer' hforget
      · exact (ih _ _).trans (hset layer' hforget)

/-- The source, the range and the weights: what the calls that load nothing do not change. -/
def resident (s : CandleBackend T) :
    Option ModelSource × Option (ℕ × ℕ) × Option (ModelWeights T) :=
  (s.source, s.loadedRange, s.model.map (·.weights))

theorem takeInput_fst (s : CandleBackend T) (model : ModelWeights T) (startLayer : ℕ)
    (tokens : List ℤ) : ∃ intermediateState,
      (s.takeInput candle model startLayer tokens).1 = { s with intermediateState } := by
  unfold takeInput
  split
  · split <;> exact ⟨s.intermediateState, rfl⟩
  · split <;> exact ⟨_, rfl⟩

theorem resident_runLayers (s : CandleBackend T) (startLayer endLayer : ℕ) (tokens : List ℤ)
    (sequenceId : ℕ) :
    (s.runLayers candle startLayer endLayer tokens sequenceId).1.resident = s.resident := by
  unfold runLayers
  cases hmodel : s.model with
  | none => rfl
  | some model =>
    obtain ⟨state, htake⟩ := s.takeInput_fst candle model startLayer tokens
    obtain ⟨masks, hmask⟩ := model.maskFor_fst candle tokens.length
    dsimp only
    revert htake
    rcases s.takeInput candle model startLayer tokens with ⟨s1, - | layerIn⟩ <;> rintro rfl
    · simp [resident, hmodel]
    · dsimp only
      revert hmask
      rcases model.maskFor candle tokens.length with ⟨masked, - | mask⟩ <;> rintro rfl
      · simp [resident, hmodel, ModelWeights.weights]
      · have hforget := runIndexes_forget candle model.layers
          (localIndexes { model with masks } startLayer endLayer) layerIn mask sequenceId
        dsimp only
        revert hforget
        rcases runIndexes candle model.layers (localIndexes { model with masks } startLayer
          endLayer) layerIn mask sequenceId with ⟨layers, - | layerOut⟩ <;> intro hforget
        · simp [resident, hmodel, ModelWeights.weights, hforget]
        · simp [resident, hmodel, ModelWeights.weights, hforget]

theorem resident_setState (s : CandleBackend T) (state : Bytes) :
    (s.setState candle state).1.resident = s.resident := by
  unfold setState
  split
  · rfl
  · split
    · rfl
    · split <;> rfl

/-! ## The calls -/

/-- What can be called on a backend.  A call that reads a source comes with what opening a source
does at that moment. -/
inductive Call (Q : Type)
  | loadModel (openGguf : ModelSource → Except String (Gguf Q)) (filename : String)
  | setModelSource (filename : String)
  | setModelUrl (url : String)
  | loadLayerRange (openGguf : ModelSource → Except String (Gguf Q)) (start stop : ℕ)
  | setState (state : Bytes)
  | runLayers (startLayer endLayer : ℕ) (tokens : List ℤ) (sequenceId : ℕ)

/-- The backend as a machine; only `run_layers` returns anything. -/
def machine :
    Mealy (CandleBackend T) (Call Q) (Except String (List Float32)) where
  step s
    | .loadModel openGguf filename =>
      (s.loadModel candle openGguf filename).map id (·.map fun _ => [])
    | .setModelSource filename => (s.setModelSource filename, .ok [])
    | .setModelUrl url => (s.setModelUrl url, .ok [])
    | .loadLayerRange openGguf start stop =>
      (s.loadLayerRange candle openGguf start stop).map id (·.map fun _ => [])
    | .setState state => (s.setState candle state).map id (·.map fun _ => [])
    | .runLayers startLayer endLayer tokens sequenceId =>
      s.runLayers candle startLayer endLayer tokens sequenceId

/-- Opening a source fails or yields what `contents` has for it, whenever it happens. -/
def Reads (contents : ModelSource → Gguf Q → Prop)
    (openGguf : ModelSource → Except String (Gguf Q)) : Prop :=
  ∀ source gguf, openGguf source = .ok gguf → contents source gguf

/-- The sources do not change under a call. -/
def Call.Reads (contents : ModelSource → Gguf Q → Prop) : Call Q → Prop
  | .loadModel openGguf _ | .loadLayerRange openGguf _ _ => CandleBackend.Reads contents openGguf
  | _ => True

/-! ## Coherence -/

variable {candle}

/-- A model is in memory exactly with a range, and but for its caches it is the one that the source
has for that range. -/
structure Coherent (candle : Candle T Q) (contents : ModelSource → Gguf Q → Prop)
    (s : CandleBackend T) : Prop where
  isSome : s.model.isSome = s.loadedRange.isSome
  loaded : ∀ held start stop, s.model = some held → s.loadedRange = some (start, stop) →
    ∃ source gguf model, s.source = some source ∧ contents source gguf ∧
      ModelWeights.fromGgufPartial candle gguf start stop = .ok model ∧
      held.weights = model.weights

variable {contents : ModelSource → Gguf Q → Prop} {s s' : CandleBackend T}

theorem coherent_of_model_none (hmodel : s.model = none) (hrange : s.loadedRange = none) :
    Coherent candle contents s where
  isSome := by rw [hmodel, hrange]; rfl
  loaded held start stop h := by rw [hmodel] at h; cases h

/-- A slice as it was loaded. -/
theorem coherent_of_loaded {source : ModelSource} {gguf : Gguf Q} {model : ModelWeights T}
    {start stop : ℕ} (hmodel : s.model = some model) (hrange : s.loadedRange = some (start, stop))
    (hsource : s.source = some source) (hgguf : contents source gguf)
    (hload : ModelWeights.fromGgufPartial candle gguf start stop = .ok model) :
    Coherent candle contents s where
  isSome := by rw [hmodel, hrange]; rfl
  loaded held start' stop' hheld hrange' := by
    cases hmodel.symm.trans hheld
    cases hrange.symm.trans hrange'
    exact ⟨source, gguf, model, hsource, hgguf, hload, rfl⟩

/-- Coherence is a matter of the source, the range and the weights. -/
theorem Coherent.of_resident (coherent : Coherent candle contents s)
    (h : s'.resident = s.resident) : Coherent candle contents s' := by
  simp only [resident, Prod.mk.injEq] at h
  obtain ⟨hsource, hrange, hweights⟩ := h
  constructor
  · have hsome := congrArg Option.isSome hweights
    rw [Option.isSome_map, Option.isSome_map] at hsome
    rw [hsome, hrange, coherent.isSome]
  · intro held start stop hheld hloaded
    rw [hheld, Option.map_some] at hweights
    obtain ⟨held', hheld', hsame⟩ := Option.map_eq_some_iff.1 hweights.symm
    obtain ⟨source, gguf, model, hsource', hgguf, hload, hmodel⟩ :=
      coherent.loaded held' start stop hheld' (hrange ▸ hloaded)
    exact ⟨source, gguf, model, hsource ▸ hsource', hgguf, hload, hsame ▸ hmodel⟩

theorem Coherent.loadModel (coherent : Coherent candle contents s)
    {openGguf : ModelSource → Except String (Gguf Q)} (reads : Reads contents openGguf)
    (filename : String) : Coherent candle contents (s.loadModel candle openGguf filename).1 := by
  unfold CandleBackend.loadModel
  cases hload : openGguf (.path filename) >>= ModelWeights.fromGguf candle with
  | error e => exact coherent
  | ok model =>
    obtain ⟨gguf, hgguf, hmodel⟩ := Except.bind_eq_ok.1 hload
    have hcount : gguf.blockCount = model.totalLayers := by
      obtain ⟨hp, _, _, _, hhp, -, -, -, -, -, -, htotal, -⟩ :=
        ModelWeights.fromGgufPartial_eq_ok hmodel
      rw [htotal, Gguf.blockCount_eq hhp]
    refine coherent_of_loaded rfl rfl rfl (reads _ gguf hgguf) ?_
    rw [← hcount]
    exact hmodel

theorem Coherent.loadLayerRange (coherent : Coherent candle contents s)
    {openGguf : ModelSource → Except String (Gguf Q)} (reads : Reads contents openGguf)
    (start stop : ℕ) :
    Coherent candle contents (s.loadLayerRange candle openGguf start stop).1 := by
  rcases hload : s.loadLayerRange candle openGguf start stop with ⟨s', e | ⟨⟩⟩
  · obtain rfl := loadLayerRange_eq_error hload
    exact coherent
  · obtain ⟨-, rfl⟩ | ⟨-, source, model, hsource, hmodel, rfl⟩ := loadLayerRange_cases hload
    · exact coherent
    · obtain ⟨gguf, hgguf, hmodel⟩ := Except.bind_eq_ok.1 hmodel
      exact coherent_of_loaded rfl rfl hsource (reads source gguf hgguf) hmodel

/-- Every call keeps the slice and its range together. -/
theorem Coherent.step (coherent : Coherent candle contents s) (call : Call Q)
    (reads : call.Reads contents) : Coherent candle contents ((machine candle).step s call).1 := by
  cases call with
  | loadModel openGguf filename => exact coherent.loadModel reads filename
  | setModelSource filename => exact coherent_of_model_none rfl rfl
  | setModelUrl url => exact coherent_of_model_none rfl rfl
  | loadLayerRange openGguf start stop => exact coherent.loadLayerRange reads start stop
  | setState state => exact coherent.of_resident (resident_setState candle s state)
  | runLayers startLayer endLayer tokens sequenceId =>
    exact coherent.of_resident (resident_runLayers candle s startLayer endLayer tokens
      sequenceId)

/-! ## The loop of a run -/

/-- The loop of `run_layers` visits the layers that the model has between two layers, by increasing
number; each is in memory, and a run is one pass over the layers in memory. -/
structure VisitsSlice (candle : Candle T Q) (held : ModelWeights T) (start stop : ℕ) : Prop where
  length : held.layers.length = min stop held.totalLayers - start
  visits : (localIndexes held start stop).map (held.layerOffset + ·) =
    List.range' start (min stop held.totalLayers - start)
  inBounds : ∀ idx ∈ localIndexes held start stop, idx < held.layers.length
  pass : ∀ masks layerIn mask indexPos,
    runIndexes candle held.layers
        (localIndexes ({ held with masks } : ModelWeights T) start stop) layerIn mask indexPos =
      forwardLayers candle held.layers layerIn mask indexPos

theorem visitsSlice_of_spans {held : ModelWeights T} {start stop : ℕ}
    (spans : held.Spans start stop) : VisitsSlice candle held start stop := by
  have hindexes := localIndexes_eq spans
  have hoffset := spans.offset
  have hlength := spans.length
  constructor
  · omega
  · rw [hindexes, List.map_add_range']
    by_cases hempty : held.layers.length = 0
    · have hcount : min stop held.totalLayers - start = 0 := by omega
      rw [hempty, hcount]
      rfl
    · have hcount : min stop held.totalLayers - start = held.layers.length := by omega
      have hstart : held.layerOffset + 0 = start := by omega
      rw [hcount, hstart]
  · exact fun idx hidx => lt_of_mem_localIndexes hidx
  · intro masks layerIn mask indexPos
    have hmasked : localIndexes ({ held with masks } : ModelWeights T) start stop =
      List.range' 0 held.layers.length := hindexes
    rw [hmasked]
    exact runIndexes_eq [] held.layers layerIn mask indexPos

/-- `run_layers` with one pass over all layers in memory, in their order, in place of its loop. -/
def passOver (candle : Candle T Q) (held : ModelWeights T) (startLayer endLayer : ℕ)
    (s : CandleBackend T) (tokens : List ℤ) (sequenceId : ℕ) :
    CandleBackend T × Except String (List Float32) :=
  match s.takeInput candle held startLayer tokens with
  | (s, .error e) => (s, .error e)
  | (s, .ok layerIn) =>
    match held.maskFor candle tokens.length with
    | (masked, .error e) => ({ s with model := some masked }, .error e)
    | (masked, .ok mask) =>
      match forwardLayers candle held.layers layerIn mask sequenceId with
      | (layers, .error e) => ({ s with model := some { masked with layers } }, .error e)
      | (layers, .ok layerOut) =>
        ({ s with
            model := some { masked with layers }
            intermediateState := some layerOut },
          if endLayer ≥ held.totalLayers then exitLogits candle held layerOut tokens.length
          else .ok [])

theorem runLayers_eq_passOver {held : ModelWeights T} {start stop : ℕ}
    (visits : VisitsSlice candle held start stop) (hmodel : s.model = some held) (tokens : List ℤ)
    (sequenceId : ℕ) :
    s.runLayers candle start stop tokens sequenceId =
      passOver candle held start stop s tokens sequenceId := by
  obtain ⟨masks, hmask⟩ := held.maskFor_fst candle tokens.length
  simp only [runLayers, hmodel, passOver]
  rcases s.takeInput candle held start tokens with ⟨s1, - | layerIn⟩
  · rfl
  · dsimp only
    revert hmask
    rcases held.maskFor candle tokens.length with ⟨masked, - | mask⟩ <;> rintro rfl
    · rfl
    · have hpass : runIndexes candle held.layers
          (localIndexes ({ held with masks } : ModelWeights T) start stop) layerIn mask
            sequenceId = forwardLayers candle held.layers layerIn mask sequenceId :=
        visits.pass masks layerIn mask sequenceId
      dsimp only
      rw [hpass]
      rcases forwardLayers candle held.layers layerIn mask sequenceId with
        ⟨layers, - | layerOut⟩ <;> rfl

/-- After any calls, a slice in memory is the one that the current source has for its range; and
once layers are ensured, a run over them, whatever state it is given, applies each of those that the
model has, once and in order. -/
theorem coherent_run (contents : ModelSource → Gguf Q → Prop) (calls : List (Call Q))
    (reads : ∀ call ∈ calls, call.Reads contents) :
    let s := (machine candle).run new calls
    Coherent candle contents s ∧
      ∀ openGguf start stop s', Reads contents openGguf →
        s.loadLayerRange candle openGguf start stop = (s', .ok ()) →
          Coherent candle contents s' ∧ s'.loadedRange = some (start, stop) ∧
          ∃ held, s'.model = some held ∧ VisitsSlice candle held start stop ∧
            ∀ intermediateState tokens sequenceId,
              { s' with intermediateState }.runLayers candle start stop tokens sequenceId =
                passOver candle held start stop { s' with intermediateState } tokens
                  sequenceId := by
  intro s
  have initial : Coherent candle contents (new : CandleBackend T) := coherent_of_model_none rfl rfl
  have coherent : Coherent candle contents s :=
    Mealy.invariant _ (fun _ call coherent => coherent.step call) initial
      (Mealy.guarded_of_forall _ new reads)
  refine ⟨coherent, fun openGguf start stop s' hreads hload => ?_⟩
  have coherent' : Coherent candle contents s' := by
    have hnext := coherent.loadLayerRange hreads start stop
    rwa [hload] at hnext
  have hslice : s'.HasSlice start stop := hasSlice_of_loadLayerRange hload
  obtain ⟨held, hheld⟩ := Option.isSome_iff_exists.1 hslice.2
  obtain ⟨source, gguf, model, -, -, hmodel, hweights⟩ :=
    coherent'.loaded held start stop hheld hslice.1
  have visits : VisitsSlice candle held start stop :=
    visitsSlice_of_spans (spans_of_weights hweights (ModelWeights.spans_of_load hmodel))
  exact ⟨coherent', hslice.1, held, hheld, visits, fun _ => runLayers_eq_passOver visits hheld⟩

/-- A source that cannot be read, then the slice without the first layer, then the whole model. -/
def loads : List (Call Shape) :=
  [.setModelSource "model.gguf",
    .loadLayerRange (fun _ => .error "No such file or directory") 1 2,
    .loadLayerRange (fun _ => .ok (Gguf.zeros 2)) 1 2,
    .setState (KVCacheState.f32 1 1 2 [0, 0]).serialize,
    .runLayers 1 2 [0] 0,
    .loadModel (fun _ => .ok (Gguf.zeros 2)) "model.gguf"]

theorem coherent_run_loads :
    let s := (machine Candle.shapes).run new loads
    Coherent Candle.shapes (fun _ gguf => gguf = Gguf.zeros 2) s ∧
      ∃ s' held, s.loadLayerRange Candle.shapes (fun _ => .ok (Gguf.zeros 2)) 0 9 = (s', .ok ()) ∧
        s'.model = some held ∧ VisitsSlice Candle.shapes held 0 9 ∧
        s'.runLayers Candle.shapes 0 9 [0] 0 = passOver Candle.shapes held 0 9 s' [0] 0 := by
  intro s
  have opens : Reads (fun _ gguf => gguf = Gguf.zeros 2) fun _ => .ok (Gguf.zeros 2) :=
    fun _ gguf h => (Except.ok.inj h).symm
  have fails : Reads (fun _ gguf => gguf = Gguf.zeros 2)
      fun _ => .error "No such file or directory" := fun _ _ h => by cases h
  have reads : ∀ call ∈ loads, call.Reads fun _ gguf => gguf = Gguf.zeros 2 := by
    simp only [loads, List.forall_mem_cons, Call.Reads]
    exact ⟨trivial, fails, opens, trivial, trivial, opens, by simp⟩
  obtain ⟨coherent, ensured⟩ :
      Coherent Candle.shapes (fun _ gguf => gguf = Gguf.zeros 2) s ∧ _ := coherent_run _ loads reads
  have hok : (s.loadLayerRange Candle.shapes (fun _ => .ok (Gguf.zeros 2)) 0 9).2 = .ok () := by
    decide +kernel
  obtain ⟨-, -, held, hheld, visits, hruns⟩ := ensured _ 0 9 _ opens (Prod.ext rfl hok)
  exact ⟨coherent, _, held, Prod.ext rfl hok, hheld, visits, hruns _ [0] 0⟩

end CandleBackend

end NeuralSwarm
