import NeuralSwarm.Basic.Machine
import NeuralSwarm.Executor
import NeuralSwarm.Platform
import NeuralSwarm.Resident

/-!
# Sequences that share a node

A backend has one key-value cache a layer and one hidden state, whatever sequence a task belongs to.
A task that continues another sequence's context reads it (`not_isolated`); where every change of
sequence starts anew, at position `0` and with an input of its own, each sequence is answered as if
it were alone (`answersTo_isolated`).  The induction follows one sequence: `Isolated` relates the
shared backend to the backend that the sequence would have alone.
-/

namespace NeuralSwarm

open CandleBackend

variable {T Q P S : Type}

/-! ## What a run depends on -/

/-- The input of a slice: the embedded tokens at the first layer, the hidden state otherwise. -/
def inputOf (candle : Candle T Q) (loaded : ModelWeights T) (start : ℕ) (state : Option T)
    (tokens : List ℤ) : Except String T :=
  if start = 0 then
    match loaded.tokEmbeddings with
    | none => .error "entry node (start_layer 0) is missing token embeddings"
    | some tok => tokenTensor candle tokens >>= tok
  else state.elim (.error "non-entry node received no upstream hidden state") .ok

/-- What the layers in memory compute: a function of the hidden state and the layers with their
caches, as they are before the run. -/
def runSlice (candle : Candle T Q) (loaded : ModelWeights T) (start stop : ℕ) (state : Option T)
    (layers : List (LayerWeights T)) (tokens : List ℤ) (sequenceId : ℕ) :
    (Option T × List (LayerWeights T)) × Except String (List Float32) :=
  let rest := if start = 0 then state else none
  match inputOf candle loaded start state tokens with
  | .error e => ((rest, layers), .error e)
  | .ok layerIn =>
    match ModelWeights.freshMask candle tokens.length with
    | .error e => ((rest, layers), .error e)
    | .ok mask =>
      match forwardLayers candle layers layerIn mask sequenceId with
      | (layers, .error e) => ((rest, layers), .error e)
      | (layers, .ok layerOut) =>
        ((some layerOut, layers),
          if stop ≥ loaded.totalLayers then exitLogits candle loaded layerOut tokens.length
          else .ok [])

/-- The backend holds a slice: the one its source has, but for what it cached. -/
structure Holds (candle : Candle T Q) (source : ModelSource) (start stop : ℕ)
    (loaded : ModelWeights T) (s : CandleBackend T) (held : ModelWeights T) : Prop where
  model : s.model = some held
  source : s.source = some source
  range : s.loadedRange = some (start, stop)
  weights : held.weights = loaded.weights
  valid : held.MasksValid candle

variable {candle : Candle T Q} {source : ModelSource} {start stop : ℕ} {loaded : ModelWeights T}

theorem spans_of_weights {held : ModelWeights T} (weights : held.weights = loaded.weights)
    (spans : loaded.Spans start stop) : held.Spans start stop := by
  have hoffset : held.layerOffset = loaded.layerOffset := congrArg (·.layerOffset) weights
  have htotal : held.totalLayers = loaded.totalLayers := congrArg (·.totalLayers) weights
  have hlength : held.layers.length = loaded.layers.length := by
    simpa [ModelWeights.weights] using congrArg (·.layers.length) weights
  exact ⟨by rw [hoffset, htotal, spans.offset], by rw [hlength, htotal, spans.length]⟩

theorem takeInput_of_weights {held : ModelWeights T} (weights : held.weights = loaded.weights)
    (s : CandleBackend T) (tokens : List ℤ) :
    s.takeInput candle held start tokens =
      ({ s with intermediateState := if start = 0 then s.intermediateState else none },
        inputOf candle loaded start s.intermediateState tokens) := by
  have htok : held.tokEmbeddings = loaded.tokEmbeddings := congrArg (·.tokEmbeddings) weights
  unfold takeInput inputOf
  rw [htok]
  by_cases hzero : start = 0
  · simp only [hzero, if_true]
    cases loaded.tokEmbeddings <;> rfl
  · simp only [hzero, if_false]
    obtain ⟨model, state, source, range⟩ := s
    cases state <;> rfl

theorem exitLogits_of_weights {held : ModelWeights T} (weights : held.weights = loaded.weights)
    (layerOut : T) (seqLen : ℕ) :
    exitLogits candle held layerOut seqLen = exitLogits candle loaded layerOut seqLen := by
  have hnorm : held.norm = loaded.norm := congrArg (·.norm) weights
  have houtput : held.output = loaded.output := congrArg (·.output) weights
  simp only [exitLogits, hnorm, houtput]

/-- A run of the slice in memory: the cached masks do not matter, and the weights stay. -/
theorem Holds.runLayers {s : CandleBackend T} {held : ModelWeights T}
    (holds : Holds candle source start stop loaded s held) (spans : loaded.Spans start stop)
    (tokens : List ℤ) (sequenceId : ℕ) :
    ∃ s' held', Holds candle source start stop loaded s' held' ∧
      (s'.intermediateState, held'.layers) =
        (runSlice candle loaded start stop s.intermediateState held.layers tokens sequenceId).1 ∧
      s.runLayers candle start stop tokens sequenceId =
        (s', (runSlice candle loaded start stop s.intermediateState held.layers tokens
          sequenceId).2) := by
  obtain ⟨masks, hvalid, hrun⟩ := runLayers_eq holds.model (spans_of_weights holds.weights spans)
    holds.valid tokens sequenceId
  have htotal : held.totalLayers = loaded.totalLayers := congrArg (·.totalLayers) holds.weights
  simp only [takeInput_of_weights holds.weights, exitLogits_of_weights holds.weights] at hrun
  let s1 : CandleBackend T :=
    { s with intermediateState := if start = 0 then s.intermediateState else none }
  have hs1 : Holds candle source start stop loaded s1 held :=
    ⟨holds.model, holds.source, holds.range, holds.weights, holds.valid⟩
  have hweights (layers : List (LayerWeights T))
      (hforget : layers.map (·.forget) = held.layers.map (·.forget)) :
      ({ held with layers, masks } : ModelWeights T).weights = loaded.weights := by
    rw [← holds.weights]
    simp only [ModelWeights.weights, hforget]
  rw [hrun]
  simp only [runSlice, ← htotal]
  cases inputOf candle loaded start s.intermediateState tokens with
  | error e => exact ⟨s1, held, hs1, rfl, rfl⟩
  | ok layerIn =>
    cases ModelWeights.freshMask candle tokens.length with
    | error e =>
      exact ⟨{ s1 with model := some { held with masks } }, { held with masks },
        ⟨rfl, hs1.source, hs1.range, hweights _ rfl, hvalid⟩, rfl, rfl⟩
    | ok mask =>
      have hforget : (forwardLayers candle held.layers layerIn mask sequenceId).1.map (·.forget) =
        held.layers.map (·.forget) := forwardLayers_forget
      dsimp only
      revert hforget
      rcases forwardLayers candle held.layers layerIn mask sequenceId with
        ⟨layers, e | layerOut⟩ <;> intro hforget
      · exact ⟨{ s1 with model := some { held with layers, masks } }, { held with layers, masks },
          ⟨rfl, hs1.source, hs1.range, hweights layers hforget, hvalid⟩, rfl, rfl⟩
      · exact ⟨{ s1 with
            model := some { held with layers, masks }
            intermediateState := some layerOut }, { held with layers, masks },
          ⟨rfl, hs1.source, hs1.range, hweights layers hforget, hvalid⟩, rfl, rfl⟩

/-- At position `0`, what is computed from an input depends on the weights alone. -/
theorem runSlice_zero {state state' : Option T} {layers layers' : List (LayerWeights T)}
    (hforget : layers.map (·.forget) = layers'.map (·.forget)) {tokens : List ℤ}
    (hinput : inputOf candle loaded start state tokens =
      inputOf candle loaded start state' tokens) :
    (runSlice candle loaded start stop state layers tokens 0).2 =
        (runSlice candle loaded start stop state' layers' tokens 0).2 ∧
      ((runSlice candle loaded start stop state layers tokens 0).2.isOk = true →
        (runSlice candle loaded start stop state layers tokens 0).1 =
          (runSlice candle loaded start stop state' layers' tokens 0).1) := by
  simp only [runSlice, hinput]
  cases inputOf candle loaded start state' tokens with
  | error e => exact ⟨rfl, fun hok => by cases hok⟩
  | ok layerIn =>
    cases ModelWeights.freshMask candle tokens.length with
    | error e => exact ⟨rfl, fun hok => by cases hok⟩
    | ok mask =>
      dsimp only
      have hzero : (forwardLayers candle layers layerIn mask 0).2 =
          (forwardLayers candle layers' layerIn mask 0).2 ∧
        ((forwardLayers candle layers layerIn mask 0).2.isOk = true →
          (forwardLayers candle layers layerIn mask 0).1 =
            (forwardLayers candle layers' layerIn mask 0).1) := forwardLayers_zero hforget
      revert hzero
      rcases forwardLayers candle layers layerIn mask 0 with ⟨out, e | layerOut⟩ <;>
        rcases forwardLayers candle layers' layerIn mask 0 with ⟨out', e' | layerOut'⟩ <;>
        rintro ⟨hresult, hlayers⟩ <;> cases hresult
      · exact ⟨rfl, fun hok => by cases hok⟩
      · obtain rfl : out = out' := hlayers rfl
        exact ⟨rfl, fun _ => rfl⟩

/-! ## One task -/

section Tasks

variable (crypto : Crypto S Bytes) (executor : Executor Bytes) (candle : Candle T Q)
  (openGguf : ModelSource → Except String (Gguf Q))

/-- A node that processes tasks, one at a time. -/
def taskMachine : Mealy (CandleBackend T) (Entropy × ProcessTask P Bytes)
    (Except String (Option (SwarmMessage Float32 P Bytes × Option (RouteTicket P)))) where
  step s input := executor.runTask crypto (backend candle openGguf) input.1 s (.processTask input.2)

/-- The task is at the first position of its sequence and brings its own hidden state, or needs
none. -/
def StartsAnew (task : ProcessTask P Bytes) : Prop :=
  task.sequenceId = 0 ∧
    (task.startLayer = 0 ∨ crypto.isEmpty task.inputState = false ∧
      crypto.openState executor.clusterKey task.taskId task.inputState ≠ .ok [])

/-- What a task leaves for the hidden state: nothing, or a tensor. -/
def injected (task : ProcessTask P Bytes) : Except String (Option T) :=
  if crypto.isEmpty task.inputState then .ok none
  else do
    let decompressed ← crypto.openState executor.clusterKey task.taskId task.inputState
    if decompressed.isEmpty then return none
    else do
      let (d1, d2, d3, data) ← decodeState decompressed
      return some (← candle.fromVec data [d1, d2, d3])

end Tasks

variable {crypto : Crypto S Bytes} {executor : Executor Bytes}
  {openGguf : ModelSource → Except String (Gguf Q)} {task : ProcessTask P Bytes}

theorem injectState_eq (s : CandleBackend T) :
    executor.injectState crypto (backend candle openGguf) s task =
      match injected crypto executor candle task with
      | .error e => (s, .error e)
      | .ok none => (s, .ok ())
      | .ok (some x) => ({ s with intermediateState := some x }, .ok ()) := by
  unfold Executor.injectState injected
  by_cases hempty : crypto.isEmpty task.inputState = true
  · rw [if_pos hempty, if_pos hempty]
  · rw [if_neg hempty, if_neg hempty]
    cases crypto.openState executor.clusterKey task.taskId task.inputState with
    | error e => rfl
    | ok decompressed =>
      simp only [backend, setState, Except.ok_bind]
      by_cases hnil : decompressed.isEmpty = true
      · rw [if_pos hnil, if_pos hnil]
        rfl
      · rw [if_neg hnil, if_neg hnil]
        rcases decodeState decompressed with e | ⟨d1, d2, d3, data⟩
        · rfl
        · simp only [Except.ok_bind]
          cases candle.fromVec data [d1, d2, d3] <;> rfl

/-- A task that starts anew has an input of its own. -/
theorem injected_of_startsAnew (anew : StartsAnew crypto executor task)
    (hstart : task.startLayer ≠ 0) : injected crypto executor candle task ≠ .ok none := by
  obtain ⟨-, hzero | ⟨hempty, hopen⟩⟩ := anew
  · exact absurd hzero hstart
  · unfold injected
    rw [if_neg (by rw [hempty]; exact Bool.false_ne_true)]
    cases hdecompressed : crypto.openState executor.clusterKey task.taskId task.inputState with
    | error e => exact fun h => by cases h
    | ok decompressed =>
      rw [hdecompressed] at hopen
      have hnil : ¬ decompressed.isEmpty = true := by
        intro hnil
        exact hopen (congrArg Except.ok (List.isEmpty_iff.1 hnil))
      rw [Except.ok_bind, if_neg hnil]
      intro h
      obtain ⟨⟨d1, d2, d3, data⟩, -, h⟩ := Except.bind_eq_ok.1 h
      obtain ⟨x, -, h⟩ := Except.bind_eq_ok.1 h
      cases h

/-- The backend of a node that processes tasks for one range of layers: nothing is loaded yet, or
the slice is. -/
def Serves (candle : Candle T Q) (openGguf : ModelSource → Except String (Gguf Q))
    (source : ModelSource) (start stop : ℕ) (s : CandleBackend T) : Prop :=
  s.source = some source ∧ (s.model = none ∨ ∃ loaded held,
    loadSlice candle openGguf source start stop = .ok loaded ∧
      Holds candle source start stop loaded s held)

/-- Two backends that differ in nothing but the masks they cached. -/
def Same (s t : CandleBackend T) : Prop :=
  s.intermediateState = t.intermediateState ∧ s.model.map (·.layers) = t.model.map (·.layers)

theorem loadSlice_spans (h : loadSlice candle openGguf source start stop = .ok loaded) :
    loaded.Spans start stop := by
  obtain ⟨gguf, -, h⟩ := Except.bind_eq_ok.1 h
  exact ModelWeights.spans_of_load h

theorem Serves.loadLayerRange_error {s : CandleBackend T} {e : String}
    (serves : Serves candle openGguf source start stop s)
    (h : loadSlice candle openGguf source start stop = .error e) :
    s.loadLayerRange candle openGguf start stop = (s, .error e) := by
  obtain ⟨hsource, hnone | ⟨loaded, held, hload, -⟩⟩ := serves
  · simp [loadLayerRange, hnone, hsource, h]
  · rw [h] at hload
    cases hload

/-- Once its layers are ensured, a backend holds its slice; it keeps what it has if it held it
before. -/
theorem Serves.loadLayerRange_ok {s : CandleBackend T}
    (serves : Serves candle openGguf source start stop s)
    (h : loadSlice candle openGguf source start stop = .ok loaded) :
    ∃ s' held, s.loadLayerRange candle openGguf start stop = (s', .ok ()) ∧
      Holds candle source start stop loaded s' held ∧
      (s' = s ∨ s.model = none ∧ s'.intermediateState = none ∧ held.layers = loaded.layers) := by
  obtain ⟨hsource, hnone | ⟨loaded', held, hload, holds⟩⟩ := serves
  · obtain ⟨gguf, -, hgguf⟩ := Except.bind_eq_ok.1 h
    refine ⟨{ s with
        model := some loaded
        loadedRange := some (start, stop)
        intermediateState := none }, loaded, ?_,
      ⟨rfl, hsource, rfl, rfl, ModelWeights.masksValid_of_load hgguf⟩, .inr ⟨hnone, rfl, rfl⟩⟩
    simp [loadLayerRange, hnone, hsource, h]
  · obtain rfl : loaded' = loaded := Except.ok.inj (hload.symm.trans h)
    refine ⟨s, held, ?_, holds, .inl rfl⟩
    rw [loadLayerRange, if_pos ⟨holds.range, by rw [holds.model]; rfl⟩]

/-! ## Two backends side by side -/

section Related

variable {s t : CandleBackend T} {held held' : ModelWeights T}

theorem Holds.withState (holds : Holds candle source start stop loaded s held)
    (intermediateState : Option T) :
    Holds candle source start stop loaded { s with intermediateState } held :=
  ⟨holds.model, holds.source, holds.range, holds.weights, holds.valid⟩

theorem Holds.same_iff (hs : Holds candle source start stop loaded s held)
    (ht : Holds candle source start stop loaded t held') :
    Same s t ↔ s.intermediateState = t.intermediateState ∧ held.layers = held'.layers := by
  unfold Same
  rw [hs.model, ht.model, Option.map_some, Option.map_some, Option.some.injEq]

/-- The hidden state of a task replaces what the backends have, or leaves it. -/
theorem injectState_related (hs : Holds candle source start stop loaded s held)
    (ht : Holds candle source start stop loaded t held') (hstart : task.startLayer = start) :
    (∃ e, executor.injectState crypto (backend candle openGguf) s task = (s, .error e) ∧
      executor.injectState crypto (backend candle openGguf) t task = (t, .error e)) ∨
    ∃ s' t', executor.injectState crypto (backend candle openGguf) s task = (s', .ok ()) ∧
      executor.injectState crypto (backend candle openGguf) t task = (t', .ok ()) ∧
      Holds candle source start stop loaded s' held ∧
      Holds candle source start stop loaded t' held' ∧ (Same s t → Same s' t') ∧
      (StartsAnew crypto executor task →
        inputOf candle loaded start s'.intermediateState task.tokens =
          inputOf candle loaded start t'.intermediateState task.tokens) := by
  rw [injectState_eq, injectState_eq]
  rcases hinjected : injected crypto executor candle task with e | - | x
  · exact .inl ⟨e, rfl, rfl⟩
  · refine .inr ⟨s, t, rfl, rfl, hs, ht, id, fun anew => ?_⟩
    by_cases hzero : start = 0
    · simp only [inputOf, hzero, if_true]
    · exact absurd hinjected (injected_of_startsAnew anew (hstart ▸ hzero))
  · refine .inr ⟨_, _, rfl, rfl, hs.withState (some x), ht.withState (some x), fun same => ?_,
      fun _ => rfl⟩
    exact ⟨rfl, same.2⟩

/-- The same run on both: with the same result, and after a success with the same state. -/
theorem Holds.runLayers_related (hs : Holds candle source start stop loaded s held)
    (ht : Holds candle source start stop loaded t held') (spans : loaded.Spans start stop)
    {tokens : List ℤ} {sequenceId : ℕ}
    (h : Same s t ∨ sequenceId = 0 ∧ inputOf candle loaded start s.intermediateState tokens =
      inputOf candle loaded start t.intermediateState tokens) :
    ∃ s' t' held1 held2 result,
      s.runLayers candle start stop tokens sequenceId = (s', result) ∧
      t.runLayers candle start stop tokens sequenceId = (t', result) ∧
      Holds candle source start stop loaded s' held1 ∧
      Holds candle source start stop loaded t' held2 ∧
      (Same s t ∨ result.isOk = true → Same s' t') := by
  obtain ⟨s', held1, hs', hafter, hrun⟩ := hs.runLayers spans tokens sequenceId
  obtain ⟨t', held2, ht', hafter', hrun'⟩ := ht.runLayers spans tokens sequenceId
  obtain ⟨hresult, hsame⟩ :
      (runSlice candle loaded start stop s.intermediateState held.layers tokens sequenceId).2 =
        (runSlice candle loaded start stop t.intermediateState held'.layers tokens sequenceId).2 ∧
      (Same s t ∨ (runSlice candle loaded start stop s.intermediateState held.layers tokens
          sequenceId).2.isOk = true →
        (runSlice candle loaded start stop s.intermediateState held.layers tokens sequenceId).1 =
          (runSlice candle loaded start stop t.intermediateState held'.layers tokens
            sequenceId).1) := by
    have hequal (same : Same s t) :
        runSlice candle loaded start stop s.intermediateState held.layers tokens sequenceId =
          runSlice candle loaded start stop t.intermediateState held'.layers tokens sequenceId := by
      obtain ⟨hstate, hlayers⟩ := (hs.same_iff ht).1 same
      rw [hstate, hlayers]
    rcases h with same | ⟨rfl, hinput⟩
    · rw [hequal same]
      exact ⟨rfl, fun _ => rfl⟩
    · have hforget : held.layers.map (·.forget) = held'.layers.map (·.forget) :=
        congrArg (·.layers) (hs.weights.trans ht.weights.symm)
      refine ⟨(runSlice_zero hforget hinput).1, fun hor => ?_⟩
      rcases hor with same | hok
      · rw [hequal same]
      · exact (runSlice_zero hforget hinput).2 hok
  rw [← hresult] at hrun'
  refine ⟨s', t', held1, held2, _, hrun, hrun', hs', ht', fun hor => ?_⟩
  rw [hs'.same_iff ht', ← Prod.mk.injEq, hafter, hafter']
  exact hsame hor

/-- The same task on two backends that serve a range: with the same answer, if they are the same or
the task starts anew; and after that they are the same, if the answer is no error. -/
theorem runTask_related (hs : Serves candle openGguf source start stop s)
    (ht : Serves candle openGguf source start stop t) (hstart : task.startLayer = start)
    (hstop : task.endLayer = stop) (h : Same s t ∨ StartsAnew crypto executor task)
    (rng : Entropy) :
    ∃ s' t' answer,
      executor.runTask crypto (backend candle openGguf) rng s (.processTask task) = (s', answer) ∧
      executor.runTask crypto (backend candle openGguf) rng t (.processTask task) = (t', answer) ∧
      Serves candle openGguf source start stop s' ∧ Serves candle openGguf source start stop t' ∧
      (Same s t ∨ answer.isOk = true → Same s' t') := by
  simp only [Executor.runTask, hstart, hstop]
  have hensure : (backend candle openGguf).ensureLayers = loadLayerRange candle openGguf := rfl
  have hrunLayers : (backend candle openGguf).runLayers = runLayers candle := rfl
  rw [hensure, hrunLayers]
  cases hload : loadSlice candle openGguf source start stop with
  | error e =>
    rw [hs.loadLayerRange_error hload, ht.loadLayerRange_error hload]
    refine ⟨s, t, .error e, rfl, rfl, hs, ht, fun hor => ?_⟩
    rcases hor with same | hok
    · exact same
    · cases hok
  | ok loaded =>
    obtain ⟨s1, held, hs1, holds, hbefore⟩ := hs.loadLayerRange_ok hload
    obtain ⟨t1, held', ht1, holds', hbefore'⟩ := ht.loadLayerRange_ok hload
    have serves {u : CandleBackend T} {kept : ModelWeights T}
        (hu : Holds candle source start stop loaded u kept) :
        Serves candle openGguf source start stop u := ⟨hu.source, .inr ⟨loaded, kept, hload, hu⟩⟩
    have hsame (same : Same s t) : Same s1 t1 := by
      rcases hbefore with rfl | ⟨hnone, hstate, hlayers⟩ <;>
        rcases hbefore' with rfl | ⟨hnone', hstate', hlayers'⟩
      · exact same
      · have hlayers := same.2
        rw [holds.model, hnone'] at hlayers
        cases hlayers
      · have hlayers := same.2
        rw [holds'.model, hnone] at hlayers
        cases hlayers
      · rw [holds.same_iff holds', hstate, hstate', hlayers, hlayers']
        exact ⟨rfl, rfl⟩
    rw [hs1, ht1]
    dsimp only
    rcases injectState_related holds holds' hstart with
      ⟨e, hs2, ht2⟩ | ⟨s2, t2, hs2, ht2, holds2, holds2', hsame2, hanew⟩
    · rw [hs2, ht2]
      refine ⟨s1, t1, .error e, rfl, rfl, serves holds, serves holds', fun hor => ?_⟩
      rcases hor with same | hok
      · exact hsame same
      · cases hok
    · rw [hs2, ht2]
      dsimp only
      have hor : Same s2 t2 ∨ task.sequenceId = 0 ∧
          inputOf candle loaded start s2.intermediateState task.tokens =
            inputOf candle loaded start t2.intermediateState task.tokens :=
        h.imp (fun same => hsame2 (hsame same)) fun anew => ⟨anew.1, hanew anew⟩
      obtain ⟨s3, t3, held3, held3', result, hs3, ht3, holds3, holds3', hsame3⟩ :=
        holds2.runLayers_related holds2' (loadSlice_spans hload) hor
      rw [hs3, ht3]
      cases result with
      | error e =>
        refine ⟨s3, t3, .error e, rfl, rfl, serves holds3, serves holds3', fun hor => ?_⟩
        rcases hor with same | hok
        · exact hsame3 (.inl (hsame2 (hsame same)))
        · cases hok
      | ok logits =>
        have same3 : Same s3 t3 := hsame3 (.inr rfl)
        have hget :
            (backend candle openGguf).getState s3 = (backend candle openGguf).getState t3 := by
          change getState candle s3 = getState candle t3
          rw [getState, getState, same3.1]
        dsimp only
        rw [hget]
        cases (backend candle openGguf).getState t3 with
        | error e => exact ⟨s3, t3, _, rfl, rfl, serves holds3, serves holds3', fun _ => same3⟩
        | ok outputRaw =>
          dsimp only
          cases crypto.sealState rng executor.clusterKey task.taskId outputRaw with
          | error e => exact ⟨s3, t3, _, rfl, rfl, serves holds3, serves holds3', fun _ => same3⟩
          | ok encrypted =>
            exact ⟨s3, t3, _, rfl, rfl, serves holds3, serves holds3', fun _ => same3⟩

end Related

/-! ## Interleavings -/

/-- The id of the last task, and whether it was processed without an error. -/
def lastTask (_ : Option (String × Bool)) (_ : CandleBackend T)
    (input : Entropy × ProcessTask P Bytes)
    (answer : Except String (Option (SwarmMessage Float32 P Bytes × Option (RouteTicket P)))) :
    Option (String × Bool) :=
  some (input.2.taskId, answer.isOk)

/-- The task is for the range of the node; unless it is the first one, or follows on a task of its
own sequence that succeeded, it starts anew. -/
structure Undisturbed (crypto : Crypto S Bytes) (executor : Executor Bytes) (start stop : ℕ)
    (x : CandleBackend T × Option (String × Bool)) (input : Entropy × ProcessTask P Bytes) :
    Prop where
  startLayer : input.2.startLayer = start
  endLayer : input.2.endLayer = stop
  follows : x.2 = none ∨ x.2 = some (input.2.taskId, true) ∨ StartsAnew crypto executor input.2

instance : Decidable (StartsAnew crypto executor task) := inferInstanceAs (Decidable (_ ∧ _))

instance (x : CandleBackend T × Option (String × Bool)) (input : Entropy × ProcessTask P Bytes) :
    Decidable (Undisturbed crypto executor start stop x input) :=
  decidable_of_iff (input.2.startLayer = start ∧ input.2.endLayer = stop ∧
      (x.2 = none ∨ x.2 = some (input.2.taskId, true) ∨ StartsAnew crypto executor input.2))
    ⟨fun h => ⟨h.1, h.2.1, h.2.2⟩, fun h => ⟨h.1, h.2, h.3⟩⟩

/-- The shared backend and the one that a sequence has for itself.  They are the same as long as the
tasks are those of the sequence. -/
structure Isolated (candle : Candle T Q) (openGguf : ModelSource → Except String (Gguf Q))
    (source : ModelSource) (start stop : ℕ) (taskId : String)
    (x : CandleBackend T × Option (String × Bool)) (t : CandleBackend T) : Prop where
  shared : Serves candle openGguf source start stop x.1
  alone : Serves candle openGguf source start stop t
  same : x.2 = none ∨ x.2 = some (taskId, true) → Same x.1 t

variable {taskId : String} {x : CandleBackend T × Option (String × Bool)} {t : CandleBackend T}
  {input : Entropy × ProcessTask P Bytes}

/-- A task of the sequence is answered as if it were alone. -/
theorem Isolated.own (isolated : Isolated candle openGguf source start stop taskId x t)
    (undisturbed : Undisturbed crypto executor start stop x input)
    (hid : (input.2.taskId == taskId) = true) :
    Isolated candle openGguf source start stop taskId
        (((taskMachine crypto executor candle openGguf).observe lastTask).step x input).1
        ((taskMachine crypto executor candle openGguf).step t input).1 ∧
      (((taskMachine crypto executor candle openGguf).observe lastTask).step x input).2 =
        ((taskMachine crypto executor candle openGguf).step t input).2 := by
  obtain ⟨shared, alone, same⟩ := isolated
  obtain ⟨hstart, hstop, hfollows⟩ := undisturbed
  have hid : input.2.taskId = taskId := eq_of_beq hid
  rw [hid, ← or_assoc] at hfollows
  obtain ⟨s', t', answer, hs, ht, hs', ht', hsame⟩ :=
    runTask_related shared alone hstart hstop (hfollows.imp_left same) input.1
  simp only [Mealy.observe, taskMachine, hs, ht, lastTask, and_true]
  refine ⟨hs', ht', fun hlast => hsame (.inr ?_)⟩
  simpa [hid] using hlast

/-- A task of another sequence leaves the backend in service. -/
theorem Isolated.other (isolated : Isolated candle openGguf source start stop taskId x t)
    (undisturbed : Undisturbed crypto executor start stop x input)
    (hid : (input.2.taskId == taskId) = false) :
    Isolated candle openGguf source start stop taskId
      (((taskMachine crypto executor candle openGguf).observe lastTask).step x input).1 t := by
  obtain ⟨shared, alone, -⟩ := isolated
  obtain ⟨hstart, hstop, -⟩ := undisturbed
  have same : Same x.1 x.1 ∨ StartsAnew crypto executor input.2 := .inl ⟨rfl, rfl⟩
  obtain ⟨s', -, answer, hs, -, hs', -, -⟩ :=
    runTask_related shared shared hstart hstop same input.1
  have hid : input.2.taskId ≠ taskId := ne_of_beq_false hid
  simp only [Mealy.observe, taskMachine, hs, lastTask]
  refine ⟨hs', alone, fun hlast => ?_⟩
  simp [hid] at hlast

/-- Sequences that share a node do not disturb each other, where every change of sequence starts
anew: each is answered as by a node of its own. -/
theorem answersTo_isolated (source : ModelSource) (start stop : ℕ)
    (inputs : List (Entropy × ProcessTask P Bytes))
    (undisturbed : ((taskMachine crypto executor candle openGguf).observe lastTask).Guarded
      (Undisturbed crypto executor start stop) (ofSource source, none) inputs) (taskId : String) :
    (taskMachine crypto executor candle openGguf).answersTo (·.2.taskId == taskId)
        (ofSource source) inputs =
      (taskMachine crypto executor candle openGguf).answers (ofSource source)
        (inputs.filter (·.2.taskId == taskId)) := by
  have fresh : Serves candle openGguf source start stop (ofSource source) := ⟨rfl, .inl rfl⟩
  have isolated : Isolated candle openGguf source start stop taskId (ofSource source, none)
      (ofSource source) := ⟨fresh, fresh, fun _ => ⟨rfl, rfl⟩⟩
  rw [← Mealy.observe_answersTo _ lastTask _ (ofSource source, none)]
  exact Mealy.answersTo_of_unwinding (fun _ _ _ isolated => isolated.own)
    (fun _ _ _ isolated => isolated.other) isolated undisturbed

/-- A task for a node with the only layer of a model. -/
def layerTask (taskId : String) (sequenceId : ℕ) (tokens : List ℤ) :
    Entropy × ProcessTask Ed25519PeerId Bytes :=
  (fun _ => 0,
    { taskId
      sequenceId
      inputState := []
      startLayer := 0
      endLayer := 1
      tokens
      route := none })

theorem answersTo_isolated_two_sequences :
    let M := taskMachine (P := Ed25519PeerId) Platform.reference.crypto ⟨"node", []⟩ Candle.shapes
      fun _ => .ok (Gguf.zeros 1)
    let inputs := [layerTask "a" 0 [1, 0], layerTask "a" 2 [1], layerTask "b" 0 [0],
      layerTask "b" 1 [1], layerTask "a" 0 [1]]
    M.answersTo (·.2.taskId == "a") (ofSource (.path "model.gguf")) inputs =
      M.answers (ofSource (.path "model.gguf")) (inputs.filter (·.2.taskId == "a")) :=
  answersTo_isolated (.path "model.gguf") 0 1 _ (by decide +kernel) "a"

/-- A task that continues at position `1` attends to what another sequence left in the cache. -/
theorem not_isolated :
    let M := taskMachine (P := Ed25519PeerId) Platform.reference.crypto ⟨"node", []⟩ Candle.shapes
      fun _ => .ok (Gguf.zeros 1)
    let inputs := [layerTask "a" 1 [1, 0], layerTask "b" 1 [1, 0]]
    ¬ ∀ taskId, M.answersTo (·.2.taskId == taskId) (ofSource (.path "model.gguf")) inputs =
      M.answers (ofSource (.path "model.gguf")) (inputs.filter (·.2.taskId == taskId)) := by
  intro M inputs h
  have hok := congrArg (List.map (·.isOk)) (h "b")
  have hshared : (M.answersTo (·.2.taskId == "b") (ofSource (.path "model.gguf")) inputs).map
    (·.isOk) = [false] := by decide +kernel
  have halone : (M.answers (ofSource (.path "model.gguf"))
    (inputs.filter (·.2.taskId == "b"))).map (·.isOk) = [true] := by decide +kernel
  rw [hshared, halone] at hok
  cases hok

end NeuralSwarm
