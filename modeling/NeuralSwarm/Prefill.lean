import NeuralSwarm.Inference
import NeuralSwarm.Isolation

/-!
# Prompts that are processed at the same time

At position `0` a backend computes from its weights and the state it is sent, whatever its caches
hold.  Any number of prompts can therefore be on their way at once: each of them is answered with
the logits of the whole model (`prompt_eq_fullMachine`).
-/

namespace NeuralSwarm

open CandleBackend

variable {T Q P S : Type} {candle : Candle T Q} {openGguf : ModelSource → Except String (Gguf Q)}
  {source : ModelSource}

/-! ## A stage at position zero -/

section Stage

variable {start stop : ℕ} {s t : CandleBackend T} {input output : Bytes} {tokens : List ℤ}
  {sequenceId : ℕ} {logits : List Float32}

/-- Sealing that changes nothing, and opens what it sealed. -/
def Crypto.transparent : Crypto Unit Bytes where
  asBytes _ := []
  empty := []
  isEmpty _ := false
  isKey _ := true
  signHmac nonce _ := nonce
  verifyHmac _ _ _ := true
  publicKey _ := []
  deriveSessionKey _ _ salt := salt
  compress := .ok
  decompress := .ok
  encryptWithAad _ data _ _ := .ok data
  decryptWithAad data _ _ := .ok data

/-- A stage is the task of an executor that seals transparently. -/
theorem runTask_transparent {σ : Type} (backend : InferenceBackend σ Float32 Bytes)
    (executor : Executor Bytes) (rng : Entropy) (s : σ) (task : ProcessTask P Bytes) :
    executor.runTask .transparent backend rng s (.processTask task) =
      match passState backend s (task.startLayer, task.endLayer) task.inputState task.tokens
        task.sequenceId with
      | (t, .error e) => (t, .error e)
      | (t, .ok (output, logits)) =>
        (t, .ok (some
          (.taskResult
            { taskId := task.taskId
              sequenceId := task.sequenceId
              outputState := output
              logits }, task.route))) := by
  refine (runTask_of_opened rfl rfl rng s).trans ?_
  rcases passState backend s (task.startLayer, task.endLayer) task.inputState task.tokens
    task.sequenceId with ⟨t, e | ⟨output, logits⟩⟩ <;> rfl

/-- The task of one stage. -/
def bareTask (start stop : ℕ) (input : Bytes) (tokens : List ℤ) (sequenceId : ℕ) :
    ProcessTask Unit Bytes :=
  { taskId := ""
    sequenceId
    inputState := input
    startLayer := start
    endLayer := stop
    tokens
    route := none }

/-- What backends of one range answer at position `0` is the same, if the stage begins with the
embedding or is sent a state. -/
theorem passState_zero (hs : Serves candle openGguf source start stop s)
    (ht : Serves candle openGguf source start stop t) (tokens : List ℤ)
    (hinput : start = 0 ∨ input ≠ []) :
    (passState (backend candle openGguf) s (start, stop) input tokens 0).2 =
      (passState (backend candle openGguf) t (start, stop) input tokens 0).2 := by
  let executor : Executor Bytes := { deviceId := "", clusterKey := [] }
  have anew : StartsAnew Crypto.transparent executor (bareTask start stop input tokens 0) :=
    ⟨rfl, hinput.imp_right fun hne => ⟨rfl, fun h => hne (Except.ok.inj h)⟩⟩
  obtain ⟨s', t', answer, hrun, hrun', -⟩ :=
    runTask_related hs ht rfl rfl (.inr anew) fun _ => 0
  have hequal := (congrArg Prod.snd hrun).trans (congrArg Prod.snd hrun').symm
  rw [runTask_transparent, runTask_transparent] at hequal
  simp only [bareTask] at hequal
  revert hequal
  rcases passState (backend candle openGguf) s (start, stop) input tokens 0 with
    ⟨u, e | ⟨output, logits⟩⟩ <;>
    rcases passState (backend candle openGguf) t (start, stop) input tokens 0 with
      ⟨u', e' | ⟨output', logits'⟩⟩ <;> intro hequal <;> cases hequal <;> rfl

/-- A stage leaves its backend in service. -/
theorem Serves.passState (hs : Serves candle openGguf source start stop s) (input : Bytes)
    (tokens : List ℤ) (sequenceId : ℕ) :
    Serves candle openGguf source start stop
      (passState (backend candle openGguf) s (start, stop) input tokens sequenceId).1 := by
  let executor : Executor Bytes := { deviceId := "", clusterKey := [] }
  have same : Same s s ∨ StartsAnew Crypto.transparent executor
    (bareTask start stop input tokens sequenceId) := .inl ⟨rfl, rfl⟩
  obtain ⟨s', -, answer, hrun, -, hs', -⟩ := runTask_related hs hs rfl rfl same fun _ => 0
  have hstate := congrArg Prod.fst hrun
  rw [runTask_transparent] at hstate
  simp only [bareTask] at hstate
  revert hstate
  rcases NeuralSwarm.passState (backend candle openGguf) s (start, stop) input tokens sequenceId
    with ⟨u, e | ⟨output, logits⟩⟩ <;> intro hstate <;> cases hstate <;> exact hs'

theorem exists_state_of_runSlice {loaded : ModelWeights T} {state : Option T}
    {layers : List (LayerWeights T)}
    (h : (runSlice candle loaded start stop state layers tokens sequenceId).2 = .ok logits) :
    ∃ x, (runSlice candle loaded start stop state layers tokens sequenceId).1.1 = some x := by
  revert h
  simp only [runSlice]
  rcases inputOf candle loaded start state tokens with e | layerIn
  · exact fun h => by cases h
  rcases ModelWeights.freshMask candle tokens.length with e | mask
  · exact fun h => by cases h
  dsimp only
  rcases forwardLayers candle layers layerIn mask sequenceId with ⟨layers', e | layerOut⟩
  · exact fun h => by cases h
  · exact fun _ => ⟨layerOut, rfl⟩

theorem getState_ne_nil {x : T} (hstate : s.intermediateState = some x)
    (h : s.getState candle = .ok output) : output ≠ [] := by
  rw [getState, hstate] at h
  obtain ⟨⟨d1, d2, d3⟩, -, h⟩ := Except.bind_eq_ok.1 h
  obtain ⟨flat, -, h⟩ := Except.bind_eq_ok.1 h
  obtain ⟨data, -, h⟩ := Except.bind_eq_ok.1 h
  cases h
  exact KVCacheState.serialize_ne_nil _

theorem setState_eq (candle : Candle T Q) (s : CandleBackend T) (input : Bytes) :
    ∃ intermediateState result,
      s.setState candle input = ({ s with intermediateState }, result) := by
  unfold setState
  split
  · exact ⟨s.intermediateState, _, rfl⟩
  split
  · exact ⟨s.intermediateState, _, rfl⟩
  split
  · exact ⟨s.intermediateState, _, rfl⟩
  · exact ⟨_, _, rfl⟩

/-- The state that a stage hands on is never empty. -/
theorem passState_ne_nil (hs : Serves candle openGguf source start stop s)
    (h : (passState (backend candle openGguf) s (start, stop) input tokens sequenceId).2 =
      .ok (output, logits)) : output ≠ [] := by
  simp only [passState, backend] at h
  rcases hload : loadSlice candle openGguf source start stop with e | loaded
  · rw [hs.loadLayerRange_error hload] at h
    cases h
  obtain ⟨s1, held, hs1, holds, -⟩ := hs.loadLayerRange_ok hload
  obtain ⟨state, result, hset⟩ := setState_eq candle s1 input
  obtain ⟨s3, held3, -, hafter, hrun⟩ :=
    (holds.withState state).runLayers (loadSlice_spans hload) tokens sequenceId
  rw [hs1] at h
  dsimp only at h
  rw [hset] at h
  rcases result with e | ⟨⟩
  · cases h
  dsimp only at h hrun hafter
  rw [hrun] at h
  rcases hresult : (runSlice candle loaded start stop state held.layers tokens sequenceId).2 with
    e | logits' <;> rw [hresult] at h
  · cases h
  dsimp only at h
  obtain ⟨x, hx⟩ := exists_state_of_runSlice hresult
  have hstate : s3.intermediateState = some x := (congrArg Prod.fst hafter).trans hx
  rcases hget : s3.getState candle with e | output'
  · rw [hget] at h
    cases h
  · rw [hget] at h
    cases h
    exact getState_ne_nil hstate hget

end Stage

/-! ## The mesh at position zero -/

section Prompts

/-- Backends of stages with different peers have no memory at position `0`. -/
theorem candle_memoryless [DecidableEq P] {stages : List (P × ℕ × ℕ)}
    (nodup : (stages.map (·.1)).Nodup) :
    Memoryless (fun _ => backend candle openGguf)
      (fun p s => ∀ layers, (p, layers) ∈ stages →
        Serves candle openGguf source layers.1 layers.2 s)
      (fun layers input _ sequenceId => sequenceId = 0 ∧ (layers.1 = 0 ∨ input ≠ [])) stages where
  keeps stage hstage s input tokens sequenceId ready layers hlayers := by
    have hsame : (stage.1, layers) = stage :=
      List.inj_on_of_nodup_map nodup hlayers hstage rfl
    rw [← congrArg Prod.snd hsame]
    exact (ready layers hlayers).passState input tokens sequenceId
  same stage hstage s t input tokens sequenceId hs ht admits := by
    obtain ⟨rfl, hinput⟩ := admits
    exact passState_zero (hs stage.2 hstage) (ht stage.2 hstage) tokens hinput
  onward stage hstage s input tokens sequenceId output logits hs admits h layers :=
    ⟨admits.1, .inr (passState_ne_nil (hs stage.2 hstage) h)⟩

variable [DecidableEq P] {prim : Primitives S} {ids : PeerIds P}
  {o : Orchestrator Float32 P Bytes}

/-- New executors along a fresh route. -/
def candleDeployment (hprim : prim.Lawful) (candle : Candle T Q)
    (openGguf : ModelSource → Except String (Gguf Q)) (source : ModelSource)
    (fresh : o.JustRebalanced (prim.platform ids)) (hactive : o.registry.sortedByCapacity ≠ []) :
    Deployment Float32 P S fun _ => CandleBackend T where
  prim
  ids
  backend _ := backend candle openGguf
  ready p s := ∀ layers, (p, layers) ∈ o.stageLayers →
    Serves candle openGguf source layers.1 layers.2 s
  admits layers input _ sequenceId := sequenceId = 0 ∧ (layers.1 = 0 ∨ input ≠ [])
  orchestrator := o
  workers _ := ofSource source
  lawful := hprim
  routed := fresh.routed
  nonempty := by
    intro hnil
    have hsorted := fresh.routed.sorted
    rw [hnil] at hsorted
    exact hactive hsorted
  memoryless := candle_memoryless fresh.nodup_peers
  allReady _ _ _ _ := ⟨rfl, .inl rfl⟩

/-- However the messages of any number of prompts are delivered, a prompt that has no message in
flight any more was answered as by a machine with the whole model that has seen nothing before. -/
theorem prompt_eq_fullMachine (hprim : prim.Lawful) (lawful : candle.Lawful) {gguf : Gguf Q}
    (hopen : openGguf source = .ok gguf) {full : ModelWeights T}
    (hload : ModelWeights.fromGguf candle gguf = .ok full)
    (fresh : o.JustRebalanced (prim.platform ids)) (hactive : o.registry.sortedByCapacity ≠ [])
    (hlayers : gguf.blockCount ≤ o.totalModelLayers.toNat)
    (shares : EveryNodeGetsLayer o.totalModelLayers.toNat o.registry.sortedByCapacity)
    {events : List (MeshEvent Bytes)} :
    let d := candleDeployment hprim candle openGguf source fresh hactive
    let init := (Mesh.new o fun _ => ofSource source, fun _ => none)
    let x := (d.machine.observe Course.note).run init events
    (d.machine.observe Course.note).Guarded (fun x event => d.Startable x.1 event) init events →
      ∀ taskId tokens answer progress, x.2 taskId = some progress →
        progress.start = { sequenceId := 0, tokens, initialState := [] } →
        ((fullMachine candle).step full (tokens, 0)).2 = .ok answer → ¬ x.1.Busy taskId →
          progress.outcome = (logitsOf candle answer).toOption := by
  intro d init x startable taskId tokens answer progress hprogress hstart haccepted hidle
  have hsettled : d.Settled x := d.settled_run startable
  have hended := hsettled.2 taskId progress hprogress
  rw [if_neg hidle] at hended
  obtain ⟨bounds, name, hstages, nodup, follows⟩ :=
    exists_followsNamed lawful hopen hload fresh hactive hlayers shares
  have hok : ((fullMachine candle).step full (tokens, 0)).2.isOk = true := by
    rw [haccepted]
    rfl
  obtain ⟨-, hanswer⟩ := FollowsNamed.step lawful hstages nodup full _ (tokens, 0) follows hok
  rw [haccepted, Except.ok_bind] at hanswer
  rw [hended.1, hstart, ← hanswer]
  rfl

instance (hprim : prim.Lawful) (candle : Candle T Q)
    (openGguf : ModelSource → Except String (Gguf Q)) (source : ModelSource)
    (fresh : o.JustRebalanced (prim.platform ids)) (hactive : o.registry.sortedByCapacity ≠ [])
    (mesh : Mesh Float32 P Bytes (P → CandleBackend T)) :
    ∀ event, Decidable
      ((candleDeployment hprim candle openGguf source fresh hactive).Startable mesh event)
  | .start _ sequenceId taskId tokens initialState =>
    decidable_of_iff (¬ mesh.Busy taskId ∧
      (∀ stage ∈ o.stageLayers.head?,
        sequenceId = 0 ∧ (stage.2.1 = 0 ∨ initialState ≠ [])) ∧
      initialState.length ≤ Primitives.decompressLimit ∧
      ∀ x ∈ (forwardAll (fun _ => backend candle openGguf) tokens sequenceId
        (fun _ => ofSource source) initialState none o.stageLayers).payloads,
          x.length ≤ Primitives.decompressLimit) Iff.rfl
  | .deliver .. => .isTrue trivial

end Prompts

/-- Two nodes for a model of three layers. -/
def promptOrchestrator : Orchestrator Float32 Ed25519PeerId Bytes :=
  announced Platform.reference 4 "secret" [] twoAnnouncements

theorem promptOrchestrator_fresh :
    promptOrchestrator.JustRebalanced (Primitives.reference.platform .ed25519) := by
  have hvalid : ∀ a ∈ twoAnnouncements, PeerIds.ed25519.Valid a.deviceId := by decide +kernel
  exact announced_justRebalanced 4 "secret" [] (List.cons_ne_nil _ _) hvalid

theorem promptOrchestrator_active : promptOrchestrator.registry.sortedByCapacity ≠ [] := by
  decide +kernel

abbrev promptDeployment : Deployment Float32 Ed25519PeerId Unit fun _ => CandleBackend Shape :=
  candleDeployment Primitives.reference_lawful Candle.shapes (fun _ => .ok (Gguf.zeros 3))
    (.path "model.gguf") promptOrchestrator_fresh promptOrchestrator_active

/-- Two prompts at once; the second one overtakes the first. -/
def twoPrompts : List (MeshEvent Bytes) :=
  let start (taskId : String) (tokens : List ℤ) : MeshEvent Bytes :=
    .start (fun _ => 0) 0 taskId tokens []
  let deliver (i : ℕ) : MeshEvent Bytes := .deliver i fun _ => 0
  [start "a" [1, 0], start "b" [1], deliver 1, deliver 1, deliver 0, deliver 0, deliver 1,
    deliver 0, deliver 0]

theorem prompt_eq_fullMachine_two_prompts :
    let init := (Mesh.new promptOrchestrator fun _ => ofSource (.path "model.gguf"), fun _ => none)
    let x := (promptDeployment.machine.observe Course.note).run init twoPrompts
    ∃ full, ModelWeights.fromGguf Candle.shapes (Gguf.zeros 3) = .ok full ∧
      ∀ taskId tokens answer progress, x.2 taskId = some progress →
        progress.start = { sequenceId := 0, tokens, initialState := [] } →
        ((fullMachine Candle.shapes).step full (tokens, 0)).2 = .ok answer → ¬ x.1.Busy taskId →
          progress.outcome = (logitsOf Candle.shapes answer).toOption := by
  intro init x
  have hload : ∃ full, ModelWeights.fromGguf Candle.shapes (Gguf.zeros 3) = .ok full := by
    have hok : (ModelWeights.fromGguf Candle.shapes (Gguf.zeros 3)).isOk = true := by
      decide +kernel
    rcases hload : ModelWeights.fromGguf Candle.shapes (Gguf.zeros 3) with e | full
    · rw [hload] at hok
      cases hok
    · exact ⟨full, rfl⟩
  obtain ⟨full, hload⟩ := hload
  have hopen : (fun _ : ModelSource => Except.ok (Gguf.zeros 3)) (.path "model.gguf") =
    (.ok (Gguf.zeros 3) : Except String (Gguf Shape)) := rfl
  have shares : EveryNodeGetsLayer promptOrchestrator.totalModelLayers.toNat
      promptOrchestrator.registry.sortedByCapacity := ⟨by decide +kernel, by decide +kernel⟩
  have startable : (promptDeployment.machine.observe Course.note).Guarded
      (fun x event => promptDeployment.Startable x.1 event)
      (Mesh.new promptOrchestrator fun _ => ofSource (.path "model.gguf"), fun _ => none)
      twoPrompts := by
    decide +kernel
  exact ⟨full, hload, prompt_eq_fullMachine Primitives.reference_lawful Candle.shapes_lawful
    hopen hload promptOrchestrator_fresh promptOrchestrator_active (by decide +kernel) shares
    startable⟩

end NeuralSwarm
