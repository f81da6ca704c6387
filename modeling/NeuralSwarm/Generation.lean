import Mathlib.Data.List.Infix
import NeuralSwarm.Inference
import NeuralSwarm.QuantizedLlama.Incremental
import NeuralSwarm.StackedShapes

/-!
# Generation with caches

A sequence is a prompt and tokens that follow one at a time, each at the position behind the others.
With the caches that the steps before have left, every step is answered as the whole model answers
all tokens so far at once, with caches that know nothing: first by one machine
(`answers_generations`), then by the mesh (`generations_eq_recomputed`).
-/

namespace NeuralSwarm

variable {T Q : Type} {candle : Candle T Q}

open CandleBackend

/-! ## One step -/

/-- The final norm and the output head on the last position. -/
def ModelWeights.head (candle : Candle T Q) (full : ModelWeights T) (out : T) (seqLen : ℕ) :
    Except String T := do
  let norm ← full.norm.elim (.error "forward() needs norm (exit node)") .ok
  let output ← full.output.elim (.error "forward() needs output (exit node)") .ok
  output (← candle.row (← norm out) (ModelWeights.lastRow seqLen))

/-- The layers after some tokens, and the hidden state behind them. -/
def Ran (candle : Candle T Q) (full : ModelWeights T) (tokens : List ℤ) (position : ℕ)
    (layers : List (LayerWeights T)) (out : T) : Prop :=
  ∃ tok mask layerIn, full.tokEmbeddings = some tok ∧
    tokenTensor candle tokens >>= tok = .ok layerIn ∧
    ModelWeights.freshMask candle tokens.length = .ok mask ∧
    forwardLayers candle full.layers layerIn mask position = (layers, .ok out)

theorem dims2_tokenTensor (lawful : candle.Lawful) {tokens : List ℤ} {x : T}
    (h : tokenTensor candle tokens = .ok x) : candle.dims2 x = .ok (1, tokens.length) := by
  obtain ⟨ids, hids, hunsqueeze⟩ := Except.bind_eq_ok.1 h
  rw [lawful.dims_tokens _ ids x hids hunsqueeze, List.length_map]

variable {full cached : ModelWeights T} {tokens : List ℤ} {position : ℕ} {answer : T}

theorem exists_ran_of_step (lawful : candle.Lawful) (valid : full.MasksValid candle)
    (h : ((fullMachine candle).step full (tokens, position)).2 = .ok answer) :
    ∃ layers out, Ran candle full tokens position layers out ∧
      full.head candle out tokens.length = .ok answer := by
  dsimp only [fullMachine] at h
  rcases htensor : tokenTensor candle tokens with e | x <;> rw [htensor] at h
  · cases h
  obtain ⟨masks, hmask, -⟩ := ModelWeights.maskFor_eq valid tokens.length
  simp only [ModelWeights.forward, dims2_tokenTensor lawful htensor, hmask] at h
  rcases hfresh : ModelWeights.freshMask candle tokens.length with e | mask <;> rw [hfresh] at h
  · cases h
  rcases htok : full.tokEmbeddings with - | tok <;> simp only [htok] at h
  · cases h
  rcases hin : tok x with e | layerIn <;> rw [hin] at h
  · cases h
  dsimp only at h
  rcases hlayers : forwardLayers candle full.layers layerIn mask position with
    ⟨layers, e | out⟩ <;> rw [hlayers] at h
  · cases h
  exact ⟨layers, out, ⟨tok, mask, layerIn, htok, by rw [htensor]; exact hin, hfresh, hlayers⟩, h⟩

theorem exists_step_of_ran (lawful : candle.Lawful) (valid : full.MasksValid candle)
    {layers : List (LayerWeights T)} {out : T} (ran : Ran candle full tokens position layers out) :
    ∃ masks, (fullMachine candle).step full (tokens, position) =
        ({ full with layers, masks }, full.head candle out tokens.length) ∧
      ({ full with layers, masks } : ModelWeights T).MasksValid candle := by
  obtain ⟨tok, mask, layerIn, htok, hin, hfresh, hlayers⟩ := ran
  obtain ⟨x, htensor, hin⟩ := Except.bind_eq_ok.1 hin
  obtain ⟨masks, hmask, hvalid⟩ := ModelWeights.maskFor_eq valid tokens.length
  refine ⟨masks, ?_, hvalid⟩
  simp only [fullMachine, htensor, ModelWeights.forward, dims2_tokenTensor lawful htensor, hmask,
    hfresh, htok, hin, hlayers]
  rfl

/-- The last row of a hidden state is that of its last position. -/
theorem head_back (laws : candle.Exact) (rowwise : full.Rowwise candle) {batch n d : ℕ}
    {a b out : T} (stacked : candle.Stacked [batch] n 1 [d] a b out)
    (h : full.head candle out (n + 1) = .ok answer) : full.head candle b 1 = .ok answer := by
  obtain ⟨norm, hnorm, h⟩ := Except.bind_eq_ok.1 h
  obtain ⟨output, houtput, h⟩ := Except.bind_eq_ok.1 h
  obtain ⟨normed, hnormed, h⟩ := Except.bind_eq_ok.1 h
  obtain ⟨row, hrow, h⟩ := Except.bind_eq_ok.1 h
  obtain ⟨d', na, nb, -, hnb, stacked⟩ :=
    rowwise.norm norm (elim_error_eq_ok.1 hnorm) stacked hnormed
  have hlast : ModelWeights.lastRow (n + 1) = n := by simp [ModelWeights.lastRow]
  have hfirst : ModelWeights.lastRow 1 = 0 := rfl
  rw [hlast] at hrow
  have hrow := laws.row stacked hrow
  simp only [ModelWeights.head, hnorm, houtput, hnb, hfirst, hrow, h, Except.ok_bind]

/-- What the caches hold after some tokens at position `0`. -/
def Caches (candle : Candle T Q) (full cached : ModelWeights T) (tokens : List ℤ) : Prop :=
  ∃ layers out masks, Ran candle full tokens 0 layers out ∧ cached = { full with layers, masks } ∧
    cached.MasksValid candle

theorem Caches.weights (caches : Caches candle full cached tokens) :
    cached.weights = full.weights := by
  obtain ⟨layers, out, masks, ⟨tok, mask, layerIn, -, -, -, hlayers⟩, rfl, -⟩ := caches
  have h : (forwardLayers candle full.layers layerIn mask 0).1.map (·.forget) =
    full.layers.map (·.forget) := forwardLayers_forget
  rw [hlayers] at h
  simp only [ModelWeights.weights, h]

theorem with_eq_of_weights {started : ModelWeights T} (h : started.weights = full.weights)
    (layers : List (LayerWeights T)) (masks : ℕ → Option T) :
    ({ started with layers, masks } : ModelWeights T) = { full with layers, masks } := by
  cases started
  cases full
  simp only [ModelWeights.weights, ModelWeights.mk.injEq] at h ⊢
  simp [h]

/-- At position `0` a model answers by its weights, whatever its caches hold. -/
theorem Caches.start (lawful : candle.Lawful) {started : ModelWeights T}
    (hweights : started.weights = full.weights) (valid : started.MasksValid candle)
    (validFull : full.MasksValid candle)
    (h : ((fullMachine candle).step full (tokens, 0)).2 = .ok answer) :
    ((fullMachine candle).step started (tokens, 0)).2 = .ok answer ∧
      Caches candle full ((fullMachine candle).step started (tokens, 0)).1 tokens := by
  obtain ⟨layers, out, ran, hhead⟩ := exists_ran_of_step lawful validFull h
  have hran : Ran candle started tokens 0 layers out := by
    obtain ⟨tok, mask, layerIn, htok, hin, hfresh, hlayers⟩ := ran
    have hsame : started.layers.map (·.forget) = full.layers.map (·.forget) :=
      congrArg (·.layers) hweights
    obtain ⟨hresult, hlayers'⟩ :
      (forwardLayers candle started.layers layerIn mask 0).2 =
          (forwardLayers candle full.layers layerIn mask 0).2 ∧
        ((forwardLayers candle started.layers layerIn mask 0).2.isOk = true →
          (forwardLayers candle started.layers layerIn mask 0).1 =
            (forwardLayers candle full.layers layerIn mask 0).1) := forwardLayers_zero hsame
    rw [hlayers] at hresult hlayers'
    refine ⟨tok, mask, layerIn, (congrArg (·.tokEmbeddings) hweights).trans htok, hin, hfresh, ?_⟩
    exact Prod.ext (hlayers' (by rw [hresult]; rfl)) hresult
  obtain ⟨masks, hstep, hvalid⟩ := exists_step_of_ran lawful valid hran
  have hsame := with_eq_of_weights hweights started.layers started.masks
  have hhead' : started.head candle out tokens.length = full.head candle out tokens.length := by
    rw [show started = _ from hsame]
    rfl
  rw [hstep]
  exact ⟨hhead'.trans hhead, layers, out, masks, ran, with_eq_of_weights hweights layers masks,
    hvalid⟩

/-- The next token, with the caches: the answer and the caches are those of all tokens at once. -/
theorem Caches.next (laws : candle.Exact) (lawful : candle.Lawful)
    (cpu : ∀ x, candle.isMetal x = false) (rowwise : full.Rowwise candle)
    (validFull : full.MasksValid candle) (hne : tokens ≠ [])
    (caches : Caches candle full cached tokens) {token : ℤ}
    (h : ((fullMachine candle).step full (tokens ++ [token], 0)).2 = .ok answer) :
    ((fullMachine candle).step cached ([token], tokens.length)).2 = .ok answer ∧
      Caches candle full ((fullMachine candle).step cached ([token], tokens.length)).1
        (tokens ++ [token]) := by
  obtain ⟨layers, out, ran, hhead⟩ := exists_ran_of_step lawful validFull h
  have hran := ran
  obtain ⟨tok, mask, layerIn, htok, hin, hfresh, hlayers⟩ := ran
  obtain ⟨between, out', masks, ⟨tok', mask', layerIn', htok', hin', hfresh', hlayers'⟩, rfl,
    valid⟩ := caches
  obtain rfl : tok = tok' := Option.some.inj (htok.symm.trans htok')
  have hn : tokens.length ≠ 0 := fun h0 => hne (List.eq_nil_of_length_eq_zero h0)
  -- the mask of all tokens is the causal one
  rw [List.length_append, List.length_singleton] at hfresh hhead
  obtain ⟨causal, hcausal, rfl⟩ : ∃ causal,
      ModelWeights.causalMask candle (tokens.length + 1) = .ok causal ∧ mask = some causal := by
    rw [ModelWeights.freshMask, if_neg (by omega)] at hfresh
    rcases hmask : ModelWeights.causalMask candle (tokens.length + 1) with e | causal <;>
      rw [hmask] at hfresh <;> cases hfresh
    exact ⟨causal, rfl, rfl⟩
  -- the embeddings of all tokens are those of the others and that of the last
  obtain ⟨w, hiddenSize, rfl⟩ := rowwise.tokEmbeddings tok htok
  have hembed (tokens : List ℤ) : tokenTensor candle tokens >>= candle.embedding w hiddenSize =
      embed candle (candle.embedding w hiddenSize) (tokens.map tokenU32) := by
    simp only [tokenTensor, embed, bind_assoc]
  rw [hembed, List.map_append] at hin
  have nonempty : 0 < (tokens.map tokenU32).length ∧ 0 < ([token].map tokenU32).length := by
    rw [List.length_map]
    exact ⟨Nat.pos_of_ne_zero hn, Nat.one_pos⟩
  obtain ⟨d, a, b, ha, hb, stacked⟩ := laws.embedding nonempty hin
  rw [List.length_map, List.length_map, List.length_singleton] at stacked
  obtain rfl : a = layerIn' := Except.ok.inj (ha.symm.trans ((hembed tokens).symm.trans hin'))
  obtain ⟨between', ya, yb, d', hya, hyb, stacked'⟩ :=
    exists_forwardLayers laws cpu rowwise.layers hcausal hfresh' stacked hlayers
  obtain ⟨rfl, -⟩ := Prod.mk.inj (hlayers'.symm.trans hya)
  have hnext : Ran candle { full with layers := between, masks } [token] tokens.length layers yb :=
    ⟨_, none, b, htok, (hembed [token]).trans hb, rfl, hyb⟩
  obtain ⟨masks', hstep, hvalid⟩ := exists_step_of_ran lawful valid hnext
  rw [hstep]
  exact ⟨head_back laws rowwise stacked' hhead, layers, out, masks', hran, rfl, hvalid⟩

/-! ## Sequences -/

/-- The steps of the tokens that follow, each at the next position. -/
def following : ℕ → List ℤ → List (List ℤ × ℕ)
  | _, [] => []
  | position, token :: tokens => ([token], position) :: following (position + 1) tokens

/-- A prompt and the tokens that follow it. -/
structure Generation where
  prompt : List ℤ
  generated : List ℤ

/-- The steps of a sequence. -/
def Generation.steps (g : Generation) : List (List ℤ × ℕ) :=
  (g.prompt, 0) :: following g.prompt.length g.generated

/-- The inputs that recompute a sequence: at each step all tokens so far. -/
def Generation.recomputed (g : Generation) : List (List ℤ × ℕ) :=
  g.generated.inits.map fun tokens => (g.prompt ++ tokens, 0)

/-- What one model answers to inputs that it receives with its caches as they are loaded. -/
def afresh (candle : Candle T Q) (full : ModelWeights T) (input : List ℤ × ℕ) : Except String T :=
  ((fullMachine candle).step full input).2

theorem inits_eq_cons {α : Type} (l : List α) : l.inits = [] :: l.inits.tail := by
  cases l <;> simp

section Answers

variable (laws : candle.Exact) (lawful : candle.Lawful) (cpu : ∀ x, candle.isMetal x = false)
  (rowwise : full.Rowwise candle) (validFull : full.MasksValid candle)

include laws lawful cpu rowwise validFull

theorem answers_following {generated : List ℤ} (hne : tokens ≠ [])
    (caches : Caches candle full cached tokens)
    (accepted : ∀ more ∈ generated.inits, (afresh candle full (tokens ++ more, 0)).isOk = true) :
    (fullMachine candle).answers cached (following tokens.length generated) =
        generated.inits.tail.map (fun more => afresh candle full (tokens ++ more, 0)) ∧
      Caches candle full ((fullMachine candle).run cached (following tokens.length generated))
        (tokens ++ generated) := by
  induction generated generalizing tokens cached with
  | nil => exact ⟨rfl, by rw [List.append_nil]; exact caches⟩
  | cons token generated ih =>
    have hinits : (token :: generated).inits = [] :: generated.inits.map (token :: ·) := by simp
    have hmore (more : List ℤ) : tokens ++ token :: more = (tokens ++ [token]) ++ more := by simp
    have accepted' : ∀ more ∈ generated.inits,
        (afresh candle full (tokens ++ [token] ++ more, 0)).isOk = true := by
      intro more hmem
      rw [← hmore]
      apply accepted
      rw [hinits]
      exact List.mem_cons_of_mem _ (List.mem_map_of_mem hmem)
    have hok := accepted' [] ((List.mem_inits _ _).2 List.nil_prefix)
    rw [List.append_nil] at hok
    obtain ⟨answer, hanswer⟩ := Except.exists_eq_ok_of_isOk hok
    obtain ⟨hstep, caches⟩ := caches.next laws lawful cpu rowwise validFull hne hanswer
    have hlength : tokens.length + 1 = (tokens ++ [token]).length := by simp
    obtain ⟨hanswers, caches⟩ := ih (by simp) caches accepted'
    rw [following, hlength, Mealy.answers, Mealy.run_cons, hanswers, hstep]
    refine ⟨?_, by rw [hmore generated]; exact caches⟩
    rw [hinits, List.tail_cons, List.map_map, inits_eq_cons, List.map_cons, List.tail_cons,
      ← hanswer]
    refine congrArg _ (List.map_congr_left fun more _ => ?_)
    rw [Function.comp_apply, hmore more]

theorem answers_generation {started : ModelWeights T} {g : Generation}
    (hweights : started.weights = full.weights) (valid : started.MasksValid candle)
    (hne : g.prompt ≠ [])
    (accepted : ∀ input ∈ g.recomputed, (afresh candle full input).isOk = true) :
    (fullMachine candle).answers started g.steps = g.recomputed.map (afresh candle full) ∧
      Caches candle full ((fullMachine candle).run started g.steps) (g.prompt ++ g.generated) := by
  have accepted' : ∀ more ∈ g.generated.inits,
      (afresh candle full (g.prompt ++ more, 0)).isOk = true :=
    fun more hmem => accepted _ (List.mem_map_of_mem hmem)
  have hok := accepted' [] ((List.mem_inits _ _).2 List.nil_prefix)
  rw [List.append_nil] at hok
  obtain ⟨answer, hanswer⟩ := Except.exists_eq_ok_of_isOk hok
  obtain ⟨hstep, caches⟩ := Caches.start lawful hweights valid validFull hanswer
  obtain ⟨hanswers, caches⟩ :=
    answers_following laws lawful cpu rowwise validFull hne caches accepted'
  rw [Generation.steps, Mealy.answers, Mealy.run_cons, hanswers, hstep, Generation.recomputed,
    inits_eq_cons g.generated]
  refine ⟨?_, caches⟩
  rw [List.map_cons, List.map_cons, List.append_nil, hanswer, List.map_map, List.tail_cons]
  rfl

/-- Sequences one after the other: each step is answered as the model answers all tokens of the
sequence so far at once. -/
theorem answers_generations {started : ModelWeights T} {generations : List Generation}
    (hweights : started.weights = full.weights) (valid : started.MasksValid candle)
    (hne : ∀ g ∈ generations, g.prompt ≠ [])
    (accepted : ∀ input ∈ generations.flatMap Generation.recomputed,
      (afresh candle full input).isOk = true) :
    (fullMachine candle).answers started (generations.flatMap Generation.steps) =
      (generations.flatMap Generation.recomputed).map (afresh candle full) := by
  induction generations generalizing started with
  | nil => rfl
  | cons g generations ih =>
    obtain ⟨hg, hne⟩ := List.forall_mem_cons.1 hne
    rw [List.flatMap_cons] at accepted ⊢
    obtain ⟨acceptedG, accepted⟩ := List.forall_mem_append.1 accepted
    obtain ⟨hanswers, caches⟩ :=
      answers_generation laws lawful cpu rowwise validFull hweights valid hg acceptedG
    have hvalid : ((fullMachine candle).run started g.steps).MasksValid candle := by
      obtain ⟨_, _, _, -, -, hvalid⟩ := caches
      exact hvalid
    rw [Mealy.answers_append, hanswers, ih caches.weights hvalid hne accepted, List.flatMap_cons,
      List.map_append]

end Answers

/-! ## The mesh -/

section Mesh

variable {P S : Type} [DecidableEq P] {prim : Primitives S} {ids : PeerIds P}
  {o : Orchestrator Float32 P Bytes} {openGguf : ModelSource → Except String (Gguf Q)}

/-- Sequences that are generated in the mesh token by token, with the caches of its nodes, are
answered as the whole model answers all tokens so far at once, with caches that know nothing. -/
theorem generations_eq_recomputed (hprim : prim.Lawful) (lawful : candle.Lawful)
    (laws : candle.Exact) (cpu : ∀ x, candle.isMetal x = false) {source : ModelSource}
    {gguf : Gguf Q} (hopen : openGguf source = .ok gguf) {full : ModelWeights T}
    (hload : ModelWeights.fromGguf candle gguf = .ok full)
    (dense : ∀ layer ∈ full.layers, layer.Dense candle)
    (fresh : o.JustRebalanced (prim.platform ids)) (hactive : o.registry.sortedByCapacity ≠ [])
    (hlayers : gguf.blockCount ≤ o.totalModelLayers.toNat)
    (shares : EveryNodeGetsLayer o.totalModelLayers.toNat o.registry.sortedByCapacity)
    {generations : List Generation} (hne : ∀ g ∈ generations, g.prompt ≠ [])
    (accepted : ∀ input ∈ generations.flatMap Generation.recomputed,
      (afresh candle full input).isOk = true)
    {events : List (MeshEvent Bytes)}
    (hevents : events.filterMap MeshEvent.input? = generations.flatMap Generation.steps) :
    let backend := fun _ : P => CandleBackend.backend candle openGguf
    let M := Mesh.machine (prim.platform ids) (Mesh.executing prim ids o.clusterKey backend)
    let mesh := Mesh.new o fun _ : P => (ofSource source : CandleBackend T)
    let outputs := (M.answers mesh events).reduceOption
    let expected := ((generations.flatMap Generation.recomputed).map fun input =>
      (afresh candle full input >>= logitsOf candle).toOption).reduceOption
    M.Guarded (Mesh.OneAtATime backend o.stageLayers []) mesh events →
      outputs <+: expected ∧ ((M.run mesh events).inFlight = [] → outputs = expected) := by
  intro backend M mesh outputs expected guarded
  have valid := ModelWeights.masksValid_of_load hload
  have hanswers := answers_generations laws lawful cpu (rowwise_of_load laws hload dense) valid rfl
    valid hne accepted
  obtain ⟨bounds, name, hstages, nodup, follows⟩ :=
    exists_followsNamed lawful hopen hload fresh hactive hlayers shares
  have acceptedSteps : ∀ answer ∈ (fullMachine candle).answers full
      (generations.flatMap Generation.steps), answer.isOk = true := by
    rw [hanswers]
    intro answer hmem
    obtain ⟨input, hinput, rfl⟩ := List.mem_map.1 hmem
    exact accepted input hinput
  have hcomposed : (compositionMachine backend o.stageLayers []).answers
      (fun _ => ofSource source) (generations.flatMap Generation.steps) =
        ((fullMachine candle).answers full (generations.flatMap Generation.steps)).map
          fun answer => (answer >>= logitsOf candle).toOption :=
    Mealy.answers_of_simulation (FollowsNamed.step lawful hstages nodup) follows acceptedSteps
  have hexpected : ((compositionMachine backend o.stageLayers []).answers
      (fun _ => ofSource source) (events.filterMap MeshEvent.input?)).reduceOption = expected := by
    rw [hevents]
    refine congrArg List.reduceOption (hcomposed.trans ?_)
    rw [hanswers, List.map_map]
    rfl
  obtain ⟨houtputs, hidle⟩ := outputs_in_succession hprim fresh hactive []
    (fun _ : P => (ofSource source : CandleBackend T)) guarded
  rw [hexpected] at houtputs hidle
  exact ⟨houtputs, hidle⟩

end Mesh

/-- A layer without experts and without biases. -/
def LayerWeights.isPlain (layer : LayerWeights T) : Bool :=
  (match layer.mlpOrMoe with
    | .mlp _ => true
    | .moe .. => false) &&
    layer.attentionBq.isNone && layer.attentionBk.isNone && layer.attentionBv.isNone

theorem LayerWeights.dense_of_isPlain {layer : LayerWeights T} (h : layer.isPlain = true) :
    layer.Dense candle := by
  simp only [isPlain, Bool.and_eq_true, Option.isNone_iff_eq_none] at h
  obtain ⟨⟨⟨hblock, hq⟩, hk⟩, hv⟩ := h
  refine ⟨?_, by simp [hq], by simp [hk], by simp [hv]⟩
  split at hblock
  · exact ⟨_, by assumption⟩
  · cases hblock

theorem generations_eq_recomputed_two_nodes :
    let openGguf := fun _ : ModelSource => Except.ok (Gguf.zeros 3)
    let o := announced Platform.reference 4 "secret" [] twoAnnouncements
    let backend := fun _ : Ed25519PeerId => CandleBackend.backend Candle.vectors openGguf
    let M := Mesh.machine Platform.reference
      (Mesh.executing Primitives.reference .ed25519 o.clusterKey backend)
    let mesh := Mesh.new o fun _ : Ed25519PeerId =>
      (ofSource (.path "model.gguf") : CandleBackend Shape)
    let outputs := (M.answers mesh oneAfterAnother).reduceOption
    let generations : List Generation := [⟨[1, 0], [1]⟩, ⟨[1], []⟩]
    ∃ full, ModelWeights.fromGguf Candle.vectors (Gguf.zeros 3) = .ok full ∧
      let expected := ((generations.flatMap Generation.recomputed).map fun input =>
        (afresh Candle.vectors full input >>= logitsOf Candle.vectors).toOption).reduceOption
      outputs <+: expected ∧
        ((M.run mesh oneAfterAnother).inFlight = [] → outputs = expected) := by
  intro openGguf o backend M mesh outputs generations
  have loaded : ∃ full, ModelWeights.fromGguf Candle.vectors (Gguf.zeros 3) = .ok full ∧
      (∀ layer ∈ full.layers, layer.isPlain = true) ∧
      ∀ input ∈ generations.flatMap Generation.recomputed,
        (afresh Candle.vectors full input).isOk = true := by
    have hload : (match ModelWeights.fromGguf Candle.vectors (Gguf.zeros 3) with
      | .error _ => false
      | .ok full => full.layers.all (·.isPlain) &&
          (generations.flatMap Generation.recomputed).all
            fun input => (afresh Candle.vectors full input).isOk) = true := by
      decide +kernel
    split at hload
    · cases hload
    · rw [Bool.and_eq_true, List.all_eq_true, List.all_eq_true] at hload
      exact ⟨_, by assumption, hload⟩
  obtain ⟨full, hload, plain, accepted⟩ := loaded
  have hvalid : ∀ a ∈ twoAnnouncements, PeerIds.ed25519.Valid a.deviceId := by decide +kernel
  have fresh : o.JustRebalanced Platform.reference :=
    announced_justRebalanced 4 "secret" [] (List.cons_ne_nil _ _) hvalid
  have hopen : openGguf (.path "model.gguf") = .ok (Gguf.zeros 3) := rfl
  have guarded : M.Guarded (Mesh.OneAtATime backend o.stageLayers []) mesh oneAfterAnother := by
    decide +kernel
  have shares : EveryNodeGetsLayer o.totalModelLayers.toNat o.registry.sortedByCapacity :=
    ⟨by decide +kernel, by decide +kernel⟩
  have hne : ∀ g ∈ generations, g.prompt ≠ [] := by decide
  exact ⟨full, hload, generations_eq_recomputed Primitives.reference_lawful Candle.vectors_lawful
    Candle.vectors_exact (fun _ => rfl) hopen hload
    (fun layer hlayer => LayerWeights.dense_of_isPlain (plain layer hlayer)) fresh
    (by decide +kernel) (by decide +kernel) shares hne accepted
    (by decide +kernel) guarded⟩

end NeuralSwarm
