import NeuralSwarm.Concurrency

/-!
# One sequence after the other

The backends of a model remember what they have computed.  If a sequence is started only when no
message is in flight, then it ends as the composition of its stages does on the states that the
sequences before it have left (`answers_in_succession`).  `Owes` is the invariant: what the message
in flight, if there is one, is going to come to.
-/

namespace NeuralSwarm

variable {F P S : Type} {τ : P → Type}

/-- The tokens and the position that a start asks for. -/
def MeshEvent.input? {B : Type} : MeshEvent B → Option (List ℤ × ℕ)
  | .start _ sequenceId _ tokens _ => some (tokens, sequenceId)
  | .deliver .. => none

variable [DecidableEq P]

/-- Stages as one machine: it answers a start by their composition, and keeps their states. -/
def compositionMachine {B : Type} (backend : ∀ p, InferenceBackend (τ p) F B)
    (stages : List (P × ℕ × ℕ)) (initialState : B) :
    Mealy (∀ p, τ p) (List ℤ × ℕ) (Option (List F)) where
  step s input :=
    let composed := forwardAll backend input.1 input.2 s initialState none stages
    (composed.workers, composed.logits)

variable [Scalar F] {prim : Primitives S} {ids : PeerIds P}
  {backend : ∀ p, InferenceBackend (τ p) F Bytes} {o : Orchestrator F P Bytes}
  {mesh : Mesh F P Bytes (∀ p, τ p)} {rng : Entropy}

/-- What is asked of a start: nothing is in flight, its state is the given one, and all states of
its composition can be decompressed. -/
def Mesh.OneAtATime (backend : ∀ p, InferenceBackend (τ p) F Bytes) (stages : List (P × ℕ × ℕ))
    (initial : Bytes) (mesh : Mesh F P Bytes (∀ p, τ p)) : MeshEvent Bytes → Prop
  | .start _ sequenceId _ tokens initialState =>
    mesh.inFlight = [] ∧ initialState = initial ∧
      Start.Fits { sequenceId, tokens, initialState } backend mesh.workers stages
  | .deliver .. => True

omit [Scalar F] in
instance (backend : ∀ p, InferenceBackend (τ p) F Bytes) (stages : List (P × ℕ × ℕ))
    (initial : Bytes) (mesh : Mesh F P Bytes (∀ p, τ p)) :
    ∀ event, Decidable (mesh.OneAtATime backend stages initial event)
  | .start _ sequenceId _ tokens initialState =>
    decidable_of_iff (mesh.inFlight = [] ∧ initialState = initial ∧
      initialState.length ≤ Primitives.decompressLimit ∧
      ∀ x ∈ (forwardAll backend tokens sequenceId mesh.workers initialState none stages).payloads,
        x.length ≤ Primitives.decompressLimit) Iff.rfl
  | .deliver .. => .isTrue trivial

variable (prim backend o) in
/-- What a mesh owes: the logits of the sequence that is on its way, unless it is going to fail, and
the states that the backends are going to have then. -/
inductive Owes (mesh : Mesh F P Bytes (∀ p, τ p)) : Option (List F) → (∀ p, τ p) → Prop
  | nothing (activeSequences : AList fun _ : String => SequenceState)
      (orchestrator_eq : mesh.orchestrator = o.withSequences activeSequences)
      (inFlight_eq : mesh.inFlight = []) :
      Owes mesh none mesh.workers
  | task {activeSequences : AList fun _ : String => SequenceState} {taskId : String}
      {sequenceId k : ℕ} {tokens : List ℤ} {stage : P × NodeEntry F} {sealed input : Bytes}
      {before : Option (List F)}
      (orchestrator_eq : mesh.orchestrator = o.withSequences activeSequences)
      (inFlight_eq : mesh.inFlight = [.toPeer stage.1 (.processTask
        (o.pipeline.stageTask k sequenceId taskId tokens sealed stage.2.layerRange))])
      (stage_eq : o.route[k]? = some stage)
      (active : activeSequences.lookup taskId =
        some { sequenceId, taskId, tokens, currentNodeIndex := k })
      (nonempty : prim.crypto.isEmpty sealed = false)
      (opens : prim.crypto.openState o.clusterKey taskId sealed = .ok input)
      (fits : ∀ x ∈ (forwardAll backend tokens sequenceId mesh.workers input before
        (o.stageLayers.drop k)).payloads, x.length ≤ Primitives.decompressLimit) :
      Owes mesh
        (forwardAll backend tokens sequenceId mesh.workers input before
          (o.stageLayers.drop k)).logits
        (forwardAll backend tokens sequenceId mesh.workers input before
          (o.stageLayers.drop k)).workers
  | result {activeSequences : AList fun _ : String => SequenceState} {taskId : String}
      {sequenceId k : ℕ} {tokens : List ℤ} {sealed output : Bytes} {logits : List F}
      (orchestrator_eq : mesh.orchestrator = o.withSequences activeSequences)
      (inFlight_eq : mesh.inFlight =
        [.toMaster (.taskResult { taskId, sequenceId, outputState := sealed, logits })])
      (active : activeSequences.lookup taskId =
        some { sequenceId, taskId, tokens, currentNodeIndex := k })
      (nonempty : prim.crypto.isEmpty sealed = false)
      (opens : prim.crypto.openState o.clusterKey taskId sealed = .ok output)
      (fits : ∀ x ∈ (forwardAll backend tokens sequenceId mesh.workers output (some logits)
        (o.stageLayers.drop (k + 1))).payloads, x.length ≤ Primitives.decompressLimit) :
      Owes mesh
        (forwardAll backend tokens sequenceId mesh.workers output (some logits)
          (o.stageLayers.drop (k + 1))).logits
        (forwardAll backend tokens sequenceId mesh.workers output (some logits)
          (o.stageLayers.drop (k + 1))).workers

variable {pending : Option (List F)} {s : ∀ p, τ p}

theorem Owes.eq_of_idle (owes : Owes prim backend o mesh pending s) (hidle : mesh.inFlight = []) :
    pending = none ∧ s = mesh.workers ∧
      ∃ activeSequences, mesh.orchestrator = o.withSequences activeSequences := by
  cases owes with
  | nothing activeSequences horchestrator => exact ⟨rfl, rfl, activeSequences, horchestrator⟩
  | task _ inFlight_eq => exact absurd (inFlight_eq.symm.trans hidle) (List.cons_ne_nil _ _)
  | result _ inFlight_eq => exact absurd (inFlight_eq.symm.trans hidle) (List.cons_ne_nil _ _)

/-- A start owes what the composition of its stages comes to. -/
theorem Owes.start (lawful : prim.Lawful) (routed : o.Routed (prim.platform ids) o.route)
    (hne : o.route ≠ []) {initial : Bytes} {sequenceId : ℕ} {taskId : String} {tokens : List ℤ}
    {initialState : Bytes} (owes : Owes prim backend o mesh pending s)
    (guard : mesh.OneAtATime backend o.stageLayers initial
      (.start rng sequenceId taskId tokens initialState)) :
    let work := Mesh.executing prim ids o.clusterKey backend
    let next := (compositionMachine backend o.stageLayers initial).step s (tokens, sequenceId)
    let after := mesh.step (prim.platform ids) work
      (.start rng sequenceId taskId tokens initialState)
    pending = none ∧ after.2 = none ∧ Owes prim backend o after.1 next.2 next.1 := by
  intro work next after
  obtain ⟨hidle, rfl, hlen, hfits⟩ := guard
  obtain ⟨rfl, rfl, activeSequences, horchestrator⟩ := owes.eq_of_idle hidle
  obtain ⟨stage, rest, hroute⟩ := List.exists_cons_of_ne_nil hne
  have hstage : o.route[0]? = some stage := by rw [hroute]; rfl
  obtain ⟨sealed, hnonempty, hopens, hstep⟩ := Mesh.exists_step_start work rng sequenceId taskId
    tokens lawful routed horchestrator hstage hlen
  have hafter : after = _ := hstep
  let composed := forwardAll backend tokens sequenceId mesh.workers initialState none
    (o.stageLayers.drop 0)
  rw [hidle, List.nil_append] at hafter
  rw [hafter]
  refine ⟨rfl, rfl, ?_⟩
  change Owes prim backend o _ composed.logits composed.workers
  exact .task rfl rfl hstage (AList.lookup_insert activeSequences) hnonempty hopens hfits

/-- A message that arrives is followed by another one, or its sequence ends. -/
theorem Owes.deliver (lawful : prim.Lawful) (routed : o.Routed (prim.platform ids) o.route)
    (owes : Owes prim backend o mesh pending s) (i : ℕ) (rng : Entropy) :
    let work := Mesh.executing prim ids o.clusterKey backend
    let after := mesh.step (prim.platform ids) work (.deliver i rng)
    after.2 = none ∧ Owes prim backend o after.1 pending s ∨
      after.2 = pending ∧ Owes prim backend o after.1 none s := by
  intro work after
  rcases hparcel : mesh.inFlight[i]? with - | parcel
  · have hafter : after = (mesh, none) := by simp only [after, Mesh.step, hparcel]
    rw [hafter]
    exact .inl ⟨rfl, owes⟩
  have hafter : after = mesh.arrive (prim.platform ids) work (mesh.inFlight.eraseIdx i) rng
      parcel := by simp only [after, Mesh.step, hparcel]
  have hsingle {only : Parcel F P Bytes} (h : mesh.inFlight = [only]) :
      parcel = only ∧ mesh.inFlight.eraseIdx i = [] := by
    rw [h] at hparcel ⊢
    rcases i with - | i
    · exact ⟨(Option.some.inj hparcel).symm, rfl⟩
    · cases hparcel
  cases owes with
  | nothing activeSequences _ inFlight_eq =>
    rw [inFlight_eq] at hparcel
    cases hparcel
  | @task activeSequences taskId sequenceId k tokens stage sealed input before orchestrator_eq
      inFlight_eq stage_eq active nonempty opens fits =>
    obtain ⟨rfl, hrest⟩ := hsingle inFlight_eq
    rw [hrest] at hafter
    rw [Orchestrator.drop_stageLayers stage_eq, forwardAll] at fits ⊢
    let task := o.pipeline.stageTask k sequenceId taskId tokens sealed stage.2.layerRange
    rcases hpass : passState (backend stage.1) (mesh.workers stage.1) stage.2.layerRange input
      tokens sequenceId with ⟨t, e | ⟨output, logits⟩⟩ <;> simp only [hpass] at fits ⊢
    · have hfails : mesh.arrive (prim.platform ids) work [] rng
        (.toPeer stage.1 (.processTask task)) = _ := Mesh.arrive_task_of_error nonempty opens hpass
      rw [hafter, hfails]
      exact .inr ⟨rfl, .nothing activeSequences orchestrator_eq rfl⟩
    · obtain ⟨hlen, hfits⟩ := List.forall_mem_cons.1 fits
      obtain ⟨sealed', hnonempty, hopens, harrives⟩ : ∃ sealed', _ ∧ _ ∧
          mesh.arrive (prim.platform ids) work [] rng (.toPeer stage.1 (.processTask task)) = _ :=
        Mesh.exists_arrive_task lawful nonempty opens hpass hlen
      rw [hafter, harrives]
      exact .inl ⟨rfl, .result orchestrator_eq rfl active hnonempty hopens hfits⟩
  | @result activeSequences taskId sequenceId k tokens sealed output logits orchestrator_eq
      inFlight_eq active nonempty opens fits =>
    obtain ⟨rfl, hrest⟩ := hsingle inFlight_eq
    rw [hrest] at hafter
    rcases hstage : o.route[k + 1]? with - | stage
    · rw [hafter, Mesh.arrive_result_of_last routed orchestrator_eq active hstage,
        Orchestrator.drop_stageLayers_eq_nil hstage]
      exact .inr ⟨rfl, .nothing _ rfl rfl⟩
    · rw [hafter, Mesh.arrive_result_of_next routed orchestrator_eq active hstage]
      exact .inl ⟨rfl, .task rfl rfl hstage (AList.lookup_insert activeSequences) nonempty opens
        fits⟩

/-- The answers of a mesh whose sequences follow one another are those of their compositions, one
after the other; nothing is missing but what the message in flight is going to come to. -/
theorem answers_in_succession (lawful : prim.Lawful)
    (routed : o.Routed (prim.platform ids) o.route) (hne : o.route ≠ []) (initial : Bytes)
    (s : ∀ p, τ p) {events : List (MeshEvent Bytes)} :
    let M := Mesh.machine (prim.platform ids) (Mesh.executing prim ids o.clusterKey backend)
    let N := compositionMachine backend o.stageLayers initial
    M.Guarded (Mesh.OneAtATime backend o.stageLayers initial) (Mesh.new o s) events →
      ∃ pending, (M.answers (Mesh.new o s) events).reduceOption ++ pending.toList =
          (N.answers s (events.filterMap MeshEvent.input?)).reduceOption ∧
        ((M.run (Mesh.new o s) events).inFlight = [] → pending = none ∧
          (M.run (Mesh.new o s) events).workers =
            N.run s (events.filterMap MeshEvent.input?)) := by
  intro M N guarded
  have own (mesh : Mesh F P Bytes (∀ p, τ p)) (pending : Option (List F)) (s : ∀ p, τ p)
      (event : MeshEvent Bytes) (input : List ℤ × ℕ) (owes : Owes prim backend o mesh pending s)
      (guard : mesh.OneAtATime backend o.stageLayers initial event)
      (hinput : event.input? = some input) : pending = none ∧ (M.step mesh event).2 = none ∧
        Owes prim backend o (M.step mesh event).1 (N.step s input).2 (N.step s input).1 := by
    cases event with
    | deliver => cases hinput
    | start rng sequenceId taskId tokens initialState =>
      cases hinput
      exact owes.start lawful routed hne guard
  have other (mesh : Mesh F P Bytes (∀ p, τ p)) (pending : Option (List F)) (s : ∀ p, τ p)
      (event : MeshEvent Bytes) (owes : Owes prim backend o mesh pending s)
      (_ : mesh.OneAtATime backend o.stageLayers initial event) (hinput : event.input? = none) :
      (M.step mesh event).2 = none ∧ Owes prim backend o (M.step mesh event).1 pending s ∨
        (M.step mesh event).2 = pending ∧ Owes prim backend o (M.step mesh event).1 none s := by
    cases event with
    | start => cases hinput
    | deliver i rng => exact owes.deliver lawful routed i rng
  have initially : Owes prim backend o (Mesh.new o s) none s := .nothing _ rfl rfl
  obtain ⟨pending, howes, hanswers⟩ :=
    Mealy.exists_answers_of_deferral own other initially guarded
  refine ⟨pending, hanswers, fun hidle => ?_⟩
  obtain ⟨hpending, hs, -⟩ := howes.eq_of_idle hidle
  exact ⟨hpending, hs.symm⟩

end NeuralSwarm
