import Mathlib.Data.List.Perm.Basic
import NeuralSwarm.Mesh

/-!
# Sequences that are computed at the same time

Executors have one backend for all sequences.  Where a backend answers every task as if it had had
none before (`Memoryless`), a sequence finishes with the logits of the composition of its stages, or
stops where the composition does, however its messages and those of other sequences are delivered.
`Underway` says what a message in flight owes its sequence; `Tracks` is the invariant of a run.
-/

namespace NeuralSwarm

variable {F P S : Type} {τ : P → Type}

/-! ## Backends without a memory -/

section Memoryless

variable {B : Type} [DecidableEq P]

/-- What the backends of some stages answer depends on the task alone, as long as they are `ready`
and the stage `admits` the state it is sent; what they hand on is admitted everywhere. -/
structure Memoryless (backend : ∀ p, InferenceBackend (τ p) F B) (ready : ∀ p, τ p → Prop)
    (admits : ℕ × ℕ → B → List ℤ → ℕ → Prop) (stages : List (P × ℕ × ℕ)) : Prop where
  keeps : ∀ stage ∈ stages, ∀ s input tokens sequenceId, ready stage.1 s →
    ready stage.1 (passState (backend stage.1) s stage.2 input tokens sequenceId).1
  same : ∀ stage ∈ stages, ∀ s t input tokens sequenceId, ready stage.1 s → ready stage.1 t →
    admits stage.2 input tokens sequenceId →
      (passState (backend stage.1) s stage.2 input tokens sequenceId).2 =
        (passState (backend stage.1) t stage.2 input tokens sequenceId).2
  onward : ∀ stage ∈ stages, ∀ s input tokens sequenceId output logits, ready stage.1 s →
    admits stage.2 input tokens sequenceId →
      (passState (backend stage.1) s stage.2 input tokens sequenceId).2 = .ok (output, logits) →
        ∀ layers, admits layers output tokens sequenceId

variable {backend : ∀ p, InferenceBackend (τ p) F B} {ready : ∀ p, τ p → Prop}
  {admits : ℕ × ℕ → B → List ℤ → ℕ → Prop} {stages rest : List (P × ℕ × ℕ)} {s t : ∀ p, τ p}

/-- The backends of some stages are ready. -/
def AllReady (ready : ∀ p, τ p → Prop) (stages : List (P × ℕ × ℕ)) (s : ∀ p, τ p) : Prop :=
  ∀ stage ∈ stages, ready stage.1 (s stage.1)

theorem AllReady.update (h : AllReady ready stages s) {p : P} {t : τ p} (ht : ready p t) :
    AllReady ready stages (Function.update s p t) := by
  intro stage hstage
  by_cases hp : stage.1 = p
  · subst hp
    rw [Function.update_self]
    exact ht
  · rw [Function.update_of_ne hp]
    exact h stage hstage

/-- What stages without a memory compute does not depend on what they have had. -/
theorem Memoryless.forwardAll_eq (memoryless : Memoryless backend ready admits stages)
    (hrest : ∀ stage ∈ rest, stage ∈ stages) (hs : AllReady ready stages s)
    (ht : AllReady ready stages t) {input : B} {tokens : List ℤ} {sequenceId : ℕ}
    (hadmits : ∀ stage ∈ rest.head?, admits stage.2 input tokens sequenceId)
    (before : Option (List F)) :
    (forwardAll backend tokens sequenceId s input before rest).payloads =
        (forwardAll backend tokens sequenceId t input before rest).payloads ∧
      (forwardAll backend tokens sequenceId s input before rest).logits =
        (forwardAll backend tokens sequenceId t input before rest).logits := by
  induction rest generalizing s t input before with
  | nil => exact ⟨rfl, rfl⟩
  | cons stage rest ih =>
    obtain ⟨hstage, hrest⟩ := List.forall_mem_cons.1 hrest
    have hadmits := hadmits stage rfl
    have hsame := memoryless.same stage hstage _ _ _ _ _ (hs stage hstage) (ht stage hstage) hadmits
    have hs' := memoryless.keeps stage hstage _ input tokens sequenceId (hs stage hstage)
    have ht' := memoryless.keeps stage hstage _ input tokens sequenceId (ht stage hstage)
    have honward := memoryless.onward stage hstage (s stage.1) input tokens sequenceId
    simp only [forwardAll]
    generalize passState (backend stage.1) (s stage.1) stage.2 input tokens sequenceId = left
      at hsame hs' honward ⊢
    generalize passState (backend stage.1) (t stage.1) stage.2 input tokens sequenceId = right
      at hsame ht' ⊢
    obtain ⟨s', answer⟩ := left
    obtain ⟨t', answer'⟩ := right
    obtain rfl : answer = answer' := hsame
    rcases answer with e | ⟨output, logits⟩
    · exact ⟨rfl, rfl⟩
    · obtain ⟨hpayloads, hlogits⟩ := ih hrest (hs.update hs') (ht.update ht')
        (fun next _ => honward output logits (hs stage hstage) hadmits rfl next.2) (some logits)
      exact ⟨congrArg (output :: ·) hpayloads, hlogits⟩

end Memoryless

/-! ## What is known of a task -/

/-- The arguments of a start. -/
structure Start (B : Type) where
  sequenceId : ℕ
  tokens : List ℤ
  initialState : B

/-- What is known of a task: how it was last started, how many of its messages have arrived since,
and the logits it finished with. -/
structure Progress (F B : Type) where
  start : Start B
  arrived : ℕ
  outcome : Option (List F)

abbrev Course (F B : Type) := String → Option (Progress F B)

/-- Records a start, or the arrival of a message. -/
def Course.note {B σ : Type} (course : Course F B) (mesh : Mesh F P B σ) (event : MeshEvent B)
    (answer : Option (List F)) : Course F B :=
  match event with
  | .start _ sequenceId taskId tokens initialState =>
    Function.update course taskId
      (some { start := { sequenceId, tokens, initialState }, arrived := 0, outcome := none })
  | .deliver i _ =>
    match mesh.inFlight[i]?.bind Parcel.taskId? with
    | some taskId =>
      Function.update course taskId ((course taskId).map fun progress =>
        { progress with
          arrived := progress.arrived + 1
          outcome := answer.or progress.outcome })
    | none => course

variable [DecidableEq P]

/-- What a start comes to if its stages compute one after the other, and nothing else. -/
def Start.composed {B : Type} (start : Start B) (backend : ∀ p, InferenceBackend (τ p) F B)
    (s : ∀ p, τ p) (stages : List (P × ℕ × ℕ)) : Forwarded F B τ :=
  forwardAll backend start.tokens start.sequenceId s start.initialState none stages

/-! ## What a message in flight owes its sequence -/

section Arrives

variable {backend : ∀ p, InferenceBackend (τ p) F Bytes} {ready : ∀ p, τ p → Prop}
  {admits : ℕ × ℕ → Bytes → List ℤ → ℕ → Prop} {stages rest : List (P × ℕ × ℕ)}
  {workers s : ∀ p, τ p} {start : Start Bytes} {stage : P × ℕ × ℕ} {input : Bytes}
  {before : Option (List F)}

/-- All states of the composition can be decompressed. -/
def Start.Fits (start : Start Bytes) (backend : ∀ p, InferenceBackend (τ p) F Bytes)
    (s : ∀ p, τ p) (stages : List (P × ℕ × ℕ)) : Prop :=
  start.initialState.length ≤ Primitives.decompressLimit ∧
    ∀ x ∈ (start.composed backend s stages).payloads, x.length ≤ Primitives.decompressLimit

variable (backend ready stages workers) in
/-- From `input` on, the stages that are left come to what the whole composition comes to. -/
def Arrives (start : Start Bytes) (rest : List (P × ℕ × ℕ)) (input : Bytes)
    (before : Option (List F)) : Prop :=
  ∀ s, AllReady ready stages s →
    (forwardAll backend start.tokens start.sequenceId s input before rest).logits =
        (start.composed backend workers stages).logits ∧
      ∀ x ∈ (forwardAll backend start.tokens start.sequenceId s input before rest).payloads,
        x.length ≤ Primitives.decompressLimit

/-- It is enough to look at one state of the backends. -/
theorem Memoryless.arrives (memoryless : Memoryless backend ready admits stages)
    (hrest : ∀ stage ∈ rest, stage ∈ stages)
    (hadmits : ∀ stage ∈ rest.head?, admits stage.2 input start.tokens start.sequenceId)
    (hs : AllReady ready stages s)
    (hlogits : (forwardAll backend start.tokens start.sequenceId s input before rest).logits =
      (start.composed backend workers stages).logits)
    (hlen : ∀ x ∈ (forwardAll backend start.tokens start.sequenceId s input before rest).payloads,
      x.length ≤ Primitives.decompressLimit) :
    Arrives backend ready stages workers start rest input before := by
  intro t ht
  obtain ⟨hpayloads, hsame⟩ := memoryless.forwardAll_eq hrest ht hs hadmits before
  rw [hpayloads, hsame]
  exact ⟨hlogits, hlen⟩

theorem Start.Fits.arrives (fits : start.Fits backend workers stages)
    (memoryless : Memoryless backend ready admits stages) (hworkers : AllReady ready stages workers)
    (hadmits : ∀ stage ∈ stages.head?,
      admits stage.2 start.initialState start.tokens start.sequenceId) :
    Arrives backend ready stages workers start stages start.initialState none :=
  memoryless.arrives (fun _ => id) hadmits hworkers rfl fits.2

/-- A stage either fails, and so does the composition, or passes on to the stages behind it. -/
theorem Arrives.pass (arrives : Arrives backend ready stages workers start (stage :: rest) input
      before) (memoryless : Memoryless backend ready admits stages)
    (hrest : ∀ x ∈ stage :: rest, x ∈ stages)
    (hadmits : admits stage.2 input start.tokens start.sequenceId) (hs : AllReady ready stages s) :
    (∃ t e, passState (backend stage.1) (s stage.1) stage.2 input start.tokens start.sequenceId =
        (t, .error e) ∧ AllReady ready stages (Function.update s stage.1 t) ∧
        (start.composed backend workers stages).logits = none) ∨
    ∃ t output logits, passState (backend stage.1) (s stage.1) stage.2 input start.tokens
        start.sequenceId = (t, .ok (output, logits)) ∧
      AllReady ready stages (Function.update s stage.1 t) ∧
      output.length ≤ Primitives.decompressLimit ∧
      (∀ layers, admits layers output start.tokens start.sequenceId) ∧
      Arrives backend ready stages workers start rest output (some logits) := by
  obtain ⟨hstage, hrest⟩ := List.forall_mem_cons.1 hrest
  obtain ⟨hlogits, hlen⟩ := arrives s hs
  have hready := memoryless.keeps stage hstage _ input start.tokens start.sequenceId
    (hs stage hstage)
  have honward := memoryless.onward stage hstage (s stage.1) input start.tokens start.sequenceId
  rw [forwardAll] at hlogits hlen
  rcases hpass : passState (backend stage.1) (s stage.1) stage.2 input start.tokens
    start.sequenceId with ⟨t, e | ⟨output, logits⟩⟩ <;>
    rw [hpass] at hlogits hlen hready honward
  · exact .inl ⟨t, e, rfl, hs.update hready, hlogits.symm⟩
  · obtain ⟨hlenOutput, hlenRest⟩ := List.forall_mem_cons.1 hlen
    have hadmits' := honward output logits (hs stage hstage) hadmits rfl
    exact .inr ⟨t, output, logits, rfl, hs.update hready, hlenOutput, hadmits',
      memoryless.arrives hrest (fun next _ => hadmits' next.2) (hs.update hready) hlogits hlenRest⟩

/-- Behind the last stage, the logits are those of the composition. -/
theorem Arrives.last {logits : List F} (arrives : Arrives backend ready stages workers start []
    input (some logits)) (hs : AllReady ready stages s) :
    (start.composed backend workers stages).logits = some logits := (arrives s hs).1.symm

end Arrives

/-! ## A deployment -/

/-- Orchestrator and executors before any start: the stages follow a route, and their backends are
ready and without a memory. -/
structure Deployment (F P S : Type) [Scalar F] [DecidableEq P] (τ : P → Type) where
  prim : Primitives S
  ids : PeerIds P
  backend : ∀ p, InferenceBackend (τ p) F Bytes
  ready : ∀ p, τ p → Prop
  admits : ℕ × ℕ → Bytes → List ℤ → ℕ → Prop
  orchestrator : Orchestrator F P Bytes
  workers : ∀ p, τ p
  lawful : prim.Lawful
  routed : orchestrator.Routed (prim.platform ids) orchestrator.route
  nonempty : orchestrator.route ≠ []
  memoryless : Memoryless backend ready admits orchestrator.stageLayers
  allReady : AllReady ready orchestrator.stageLayers workers

namespace Deployment

variable [Scalar F] (d : Deployment F P S τ)

abbrev route : List (P × NodeEntry F) := d.orchestrator.route

abbrev stages : List (P × ℕ × ℕ) := d.orchestrator.stageLayers

/-- The executors have the cluster key of the orchestrator. -/
abbrev work : Entropy → Work F P Bytes (∀ p, τ p) :=
  Mesh.executing d.prim d.ids d.orchestrator.clusterKey d.backend

def machine : Mealy (Mesh F P Bytes (∀ p, τ p)) (MeshEvent Bytes) (Option (List F)) :=
  Mesh.machine (d.prim.platform d.ids) d.work

/-- What a start comes to. -/
def composed (start : Start Bytes) : Forwarded F Bytes τ :=
  start.composed d.backend d.workers d.stages

/-- What is asked of a start: no message about its task is in flight, the first stage takes its
state, and all states of its composition can be decompressed. -/
def Startable (mesh : Mesh F P Bytes (∀ p, τ p)) : MeshEvent Bytes → Prop
  | .start _ sequenceId taskId tokens initialState =>
    ¬ mesh.Busy taskId ∧
      (∀ stage ∈ d.stages.head?, d.admits stage.2 initialState tokens sequenceId) ∧
      Start.Fits { sequenceId, tokens, initialState } d.backend d.workers d.stages
  | .deliver .. => True

/-- The composition of a start, as seen from a message in flight. -/
abbrev Arrives (start : Start Bytes) (k : ℕ) (input : Bytes) (before : Option (List F)) : Prop :=
  NeuralSwarm.Arrives d.backend d.ready d.stages d.workers start (d.stages.drop k) input before

/-- A message in flight about a task, after some others: the task of stage `k`, or the result of
that stage. -/
inductive Underway (activeSequences : AList fun _ : String => SequenceState) (taskId : String)
    (start : Start Bytes) : ℕ → Parcel F P Bytes → Prop
  | task {k : ℕ} {stage : P × NodeEntry F} {sealed input : Bytes} {before : Option (List F)}
      (stage_eq : d.route[k]? = some stage)
      (active : activeSequences.lookup taskId = some
        { sequenceId := start.sequenceId, taskId, tokens := start.tokens, currentNodeIndex := k })
      (nonempty : d.prim.crypto.isEmpty sealed = false)
      (opens : d.prim.crypto.openState d.orchestrator.clusterKey taskId sealed = .ok input)
      (admitted : d.admits stage.2.layerRange input start.tokens start.sequenceId)
      (arrives : d.Arrives start k input before) :
      Underway activeSequences taskId start (2 * k) (.toPeer stage.1 (.processTask
        (d.orchestrator.pipeline.stageTask k start.sequenceId taskId start.tokens sealed
          stage.2.layerRange)))
  | result {k : ℕ} {sealed output : Bytes} {logits : List F}
      (lt : k < d.route.length)
      (active : activeSequences.lookup taskId = some
        { sequenceId := start.sequenceId, taskId, tokens := start.tokens, currentNodeIndex := k })
      (nonempty : d.prim.crypto.isEmpty sealed = false)
      (opens : d.prim.crypto.openState d.orchestrator.clusterKey taskId sealed = .ok output)
      (admitted : ∀ layers, d.admits layers output start.tokens start.sequenceId)
      (arrives : d.Arrives start (k + 1) output (some logits)) :
      Underway activeSequences taskId start (2 * k + 1) (.toMaster (.taskResult
        { taskId, sequenceId := start.sequenceId, outputState := sealed, logits }))

variable {d} {activeSequences activeSequences' : AList fun _ : String => SequenceState}
  {course course' : Course F Bytes} {inFlight rest : List (Parcel F P Bytes)}
  {parcel : Parcel F P Bytes} {taskId : String} {start : Start Bytes} {arrived : ℕ}

theorem Underway.taskId?_eq (h : d.Underway activeSequences taskId start arrived parcel) :
    parcel.taskId? = some taskId := by
  cases h <;> rfl

/-- Each stage costs two arrivals. -/
theorem Underway.arrived_lt (h : d.Underway activeSequences taskId start arrived parcel) :
    arrived < 2 * d.route.length := by
  cases h with
  | task stage_eq =>
    have hlt := (List.getElem?_eq_some_iff.1 stage_eq).1
    omega
  | result lt => omega

/-- Only the entry of its own task matters to a message. -/
theorem Underway.mono (h : d.Underway activeSequences taskId start arrived parcel)
    (same : activeSequences'.lookup taskId = activeSequences.lookup taskId) :
    d.Underway activeSequences' taskId start arrived parcel := by
  cases h with
  | task stage_eq active nonempty opens admitted arrives =>
    exact .task stage_eq (same.trans active) nonempty opens admitted arrives
  | result lt active nonempty opens admitted arrives =>
    exact .result lt (same.trans active) nonempty opens admitted arrives

/-! ## The messages in flight -/

variable (d) in
/-- A task without a message in flight has come to what its composition comes to; if it finished,
every stage has computed. -/
structure Ended (progress : Progress F Bytes) : Prop where
  outcome : progress.outcome = (d.composed progress.start).logits
  arrived_le : progress.arrived ≤ 2 * d.route.length
  arrived_eq : progress.outcome.isSome = true → progress.arrived = 2 * d.route.length

variable (d) in
/-- The messages in flight are underway, one a task; a task with none has ended.  Nothing is said
about the task `exempt`. -/
structure Messages (exempt : Option String)
    (activeSequences : AList fun _ : String => SequenceState) (course : Course F Bytes)
    (inFlight : List (Parcel F P Bytes)) : Prop where
  nodup : (inFlight.map Parcel.taskId?).Nodup
  underway : ∀ parcel ∈ inFlight, ∃ taskId start arrived, some taskId ≠ exempt ∧
    course taskId = some { start, arrived, outcome := none } ∧
    d.Underway activeSequences taskId start arrived parcel
  ended : ∀ taskId progress, some taskId ≠ exempt → course taskId = some progress →
    some taskId ∉ inFlight.map Parcel.taskId? → d.Ended progress

/-- What is done for one task does not matter to the messages of the others. -/
theorem Messages.mono (h : d.Messages (some taskId) activeSequences course inFlight)
    (same : ∀ id, id ≠ taskId → activeSequences'.lookup id = activeSequences.lookup id)
    (hcourse : ∀ id, id ≠ taskId → course' id = course id) :
    d.Messages (some taskId) activeSequences' course' inFlight := by
  refine ⟨h.nodup, fun parcel hparcel => ?_, fun id progress hid hprogress => ?_⟩
  · obtain ⟨id, start, arrived, hid, hstart, hunderway⟩ := h.underway parcel hparcel
    have hne : id ≠ taskId := fun heq => hid (congrArg some heq)
    exact ⟨id, start, arrived, hid, (hcourse id hne).trans hstart, hunderway.mono (same id hne)⟩
  · have hne : id ≠ taskId := fun heq => hid (congrArg some heq)
    exact h.ended id progress hid ((hcourse id hne).symm.trans hprogress)

/-- The messages of the other tasks, when one is taken out of flight. -/
theorem Messages.others (h : d.Messages none activeSequences course inFlight)
    (hperm : inFlight.Perm (parcel :: rest)) (hid : parcel.taskId? = some taskId) :
    d.Messages (some taskId) activeSequences course rest ∧
      some taskId ∉ rest.map Parcel.taskId? := by
  have hnodup := (hperm.map Parcel.taskId?).nodup_iff.1 h.nodup
  rw [List.map_cons, hid, List.nodup_cons] at hnodup
  refine ⟨⟨hnodup.2, fun other hother => ?_, fun id progress hne hprogress hnot => ?_⟩, hnodup.1⟩
  · obtain ⟨id, start, arrived, -, hstart, hunderway⟩ :=
      h.underway other (hperm.mem_iff.2 (List.mem_cons_of_mem _ hother))
    refine ⟨id, start, arrived, fun heq => hnodup.1 ?_, hstart, hunderway⟩
    rw [← heq, ← hunderway.taskId?_eq]
    exact List.mem_map_of_mem hother
  · refine h.ended id progress (Option.some_ne_none id) hprogress fun hmem => ?_
    rw [(hperm.map Parcel.taskId?).mem_iff, List.map_cons, hid] at hmem
    exact (List.mem_cons.1 hmem).elim hne hnot

/-- A task that has no message in flight can be left out. -/
theorem Messages.others_of_idle (h : d.Messages none activeSequences course inFlight)
    (hidle : some taskId ∉ inFlight.map Parcel.taskId?) :
    d.Messages (some taskId) activeSequences course inFlight := by
  refine ⟨h.nodup, fun other hother => ?_, fun id progress _ => ?_⟩
  · obtain ⟨id, start, arrived, -, hstart, hunderway⟩ := h.underway other hother
    refine ⟨id, start, arrived, fun heq => hidle ?_, hstart, hunderway⟩
    rw [← heq, ← hunderway.taskId?_eq]
    exact List.mem_map_of_mem hother
  · exact h.ended id progress (Option.some_ne_none id)

/-- A message about the task that was left out is sent. -/
theorem Messages.send (h : d.Messages (some taskId) activeSequences course inFlight)
    (hidle : some taskId ∉ inFlight.map Parcel.taskId?)
    (hcourse : course taskId = some { start, arrived, outcome := none })
    (hunderway : d.Underway activeSequences taskId start arrived parcel) :
    d.Messages none activeSequences course (inFlight ++ [parcel]) := by
  refine ⟨?_, fun other hother => ?_, fun id progress _ hprogress hnot => ?_⟩
  · rw [List.map_append, List.map_singleton, hunderway.taskId?_eq, ← List.concat_eq_append]
    exact h.nodup.concat hidle
  · rcases List.mem_append.1 hother with hother | hother
    · obtain ⟨id, start', arrived', -, hother⟩ := h.underway other hother
      exact ⟨id, start', arrived', Option.some_ne_none id, hother⟩
    · obtain rfl := List.mem_singleton.1 hother
      exact ⟨taskId, start, arrived, Option.some_ne_none taskId, hcourse, hunderway⟩
  · rw [List.map_append, List.map_singleton, hunderway.taskId?_eq, List.mem_append,
      List.mem_singleton, not_or] at hnot
    exact h.ended id progress hnot.2 hprogress hnot.1

/-- The task that was left out has come to its end. -/
theorem Messages.settle {progress : Progress F Bytes}
    (h : d.Messages (some taskId) activeSequences course inFlight)
    (hcourse : course taskId = some progress) (hended : d.Ended progress) :
    d.Messages none activeSequences course inFlight := by
  refine ⟨h.nodup, fun other hother => ?_, fun id progress' _ hprogress hnot => ?_⟩
  · obtain ⟨id, start, arrived, -, hother⟩ := h.underway other hother
    exact ⟨id, start, arrived, Option.some_ne_none id, hother⟩
  · by_cases hid : id = taskId
    · subst hid
      cases hcourse.symm.trans hprogress
      exact hended
    · exact h.ended id progress' (fun heq => hid (Option.some.inj heq)) hprogress hnot

/-! ## One event -/

variable (d) in
/-- The invariant: nothing but the active sequences changes at the orchestrator, the backends stay
ready, and the messages are as they should be. -/
structure Tracks (x : Mesh F P Bytes (∀ p, τ p) × Course F Bytes)
    (activeSequences : AList fun _ : String => SequenceState) : Prop where
  orchestrator : x.1.orchestrator = d.orchestrator.withSequences activeSequences
  ready : AllReady d.ready d.stages x.1.workers
  messages : d.Messages none activeSequences x.2 x.1.inFlight

theorem tracks_new : d.Tracks (Mesh.new d.orchestrator d.workers, fun _ => none)
    d.orchestrator.pipeline.activeSequences where
  orchestrator := rfl
  ready := d.allReady
  messages :=
    { nodup := List.nodup_nil
      underway := fun _ h => absurd h List.not_mem_nil
      ended := fun _ _ _ h => by cases h }

theorem mem_stages_of_mem_drop {k : ℕ} : ∀ stage ∈ d.stages.drop k, stage ∈ d.stages :=
  fun _ => List.mem_of_mem_drop

section Step

variable {x : Mesh F P Bytes (∀ p, τ p) × Course F Bytes}

/-- A start puts the task of the first stage in flight. -/
theorem tracks_start (tracks : d.Tracks x activeSequences) {rng : Entropy} {sequenceId : ℕ}
    {tokens : List ℤ} {initialState : Bytes}
    (startable : d.Startable x.1 (.start rng sequenceId taskId tokens initialState)) :
    ∃ activeSequences', d.Tracks ((d.machine.observe Course.note).step x
      (.start rng sequenceId taskId tokens initialState)).1 activeSequences' := by
  obtain ⟨mesh, course⟩ := x
  obtain ⟨horchestrator, hready, hmessages⟩ := tracks
  obtain ⟨hidle, hadmits, hfits⟩ := startable
  dsimp only at horchestrator hready hmessages hidle
  obtain ⟨stage, rest, hroute⟩ := List.exists_cons_of_ne_nil d.nonempty
  have hstage : d.route[0]? = some stage := by rw [route, hroute]; rfl
  have hlen : initialState.length ≤ Primitives.decompressLimit := hfits.1
  obtain ⟨sealed, hnonempty, hopen, hstep⟩ := Mesh.exists_step_start d.work rng sequenceId taskId
    tokens d.lawful d.routed horchestrator hstage hlen
  let start : Start Bytes := { sequenceId, tokens, initialState }
  have harrives : d.Arrives start 0 initialState none :=
    hfits.arrives d.memoryless d.allReady hadmits
  have hadmitted : d.admits stage.2.layerRange initialState tokens sequenceId := by
    refine hadmits (stage.1, stage.2.layerRange) ?_
    rw [← List.drop_zero (l := d.stages), Orchestrator.drop_stageLayers hstage]
    rfl
  refine ⟨activeSequences.insert taskId { sequenceId, taskId, tokens, currentNodeIndex := 0 }, ?_⟩
  simp only [Mealy.observe, machine, Mesh.machine, hstep, Course.note]
  refine ⟨rfl, hready, ?_⟩
  have hunderway := Underway.task (d := d) hstage (AList.lookup_insert activeSequences) hnonempty
    hopen hadmitted harrives
  refine ((hmessages.others_of_idle hidle).mono (fun id hid => ?_) fun id hid => ?_).send
    hidle (Function.update_self ..) hunderway
  · exact AList.lookup_insert_ne hid
  · exact Function.update_of_ne hid ..

/-- The mesh after a message about a task arrived: another one is in flight, or the task has ended
and the answer is what its composition comes to. -/
def Moves (d : Deployment F P S τ) (mesh : Mesh F P Bytes (∀ p, τ p))
    (rest : List (Parcel F P Bytes)) (activeSequences : AList fun _ : String => SequenceState)
    (taskId : String) (start : Start Bytes) (arrived : ℕ)
    (after : Mesh F P Bytes (∀ p, τ p) × Option (List F)) : Prop :=
  (∃ parcel, d.Underway activeSequences taskId start arrived parcel ∧
    after = ({ mesh with inFlight := rest ++ [parcel] }, none)) ∨
  d.Ended { start, arrived, outcome := after.2 } ∧ after.1 = { mesh with inFlight := rest }

/-- A task that arrives is answered by the result of its stage, or its composition fails here. -/
theorem moves_task {mesh : Mesh F P Bytes (∀ p, τ p)} (hready : AllReady d.ready d.stages
      mesh.workers) {k : ℕ} {stage : P × NodeEntry F} {sealed input : Bytes}
    {before : Option (List F)} (hstage : d.route[k]? = some stage)
    (hactive : activeSequences.lookup taskId = some
      { sequenceId := start.sequenceId, taskId, tokens := start.tokens, currentNodeIndex := k })
    (hnonempty : d.prim.crypto.isEmpty sealed = false)
    (hopens : d.prim.crypto.openState d.orchestrator.clusterKey taskId sealed = .ok input)
    (hadmitted : d.admits stage.2.layerRange input start.tokens start.sequenceId)
    (harrives : d.Arrives start k input before) (rng : Entropy) :
    ∃ workers, AllReady d.ready d.stages workers ∧
      d.Moves { mesh with workers } rest activeSequences taskId start (2 * k + 1)
        (mesh.arrive (d.prim.platform d.ids) d.work rest rng (.toPeer stage.1 (.processTask
          (d.orchestrator.pipeline.stageTask k start.sequenceId taskId start.tokens sealed
            stage.2.layerRange)))) := by
  let task : ProcessTask P Bytes := d.orchestrator.pipeline.stageTask k start.sequenceId taskId
    start.tokens sealed stage.2.layerRange
  have hlt := (List.getElem?_eq_some_iff.1 hstage).1
  have hmem := mem_stages_of_mem_drop (d := d) (k := k)
  rw [Orchestrator.drop_stageLayers hstage] at hmem
  rw [Deployment.Arrives, Orchestrator.drop_stageLayers hstage] at harrives
  rcases harrives.pass d.memoryless hmem hadmitted hready with
    ⟨t, e, hpass, hready', hnone⟩ |
      ⟨t, output, logits, hpass, hready', hlen, hadmitted', harrives'⟩
  · have hafter : mesh.arrive (d.prim.platform d.ids) d.work rest rng (.toPeer stage.1
      (.processTask task)) = _ := Mesh.arrive_task_of_error hnonempty hopens hpass
    refine ⟨Function.update mesh.workers stage.1 t, hready', .inr ?_⟩
    rw [hafter]
    exact ⟨⟨hnone.symm, by dsimp only; omega, fun h => by cases h⟩, rfl⟩
  · obtain ⟨sealed', hnonempty', hopen', hafter⟩ : ∃ sealed', _ ∧ _ ∧
        mesh.arrive (d.prim.platform d.ids) d.work rest rng (.toPeer stage.1
          (.processTask task)) = _ :=
      Mesh.exists_arrive_task d.lawful hnonempty hopens hpass hlen
    exact ⟨Function.update mesh.workers stage.1 t, hready',
      .inl ⟨_, .result hlt hactive hnonempty' hopen' hadmitted' harrives', hafter⟩⟩

/-- A result that arrives is turned into the task of the next stage, or its sequence finishes with
the logits of its composition. -/
theorem moves_result {mesh : Mesh F P Bytes (∀ p, τ p)}
    (horchestrator : mesh.orchestrator = d.orchestrator.withSequences activeSequences)
    (hready : AllReady d.ready d.stages mesh.workers) {k : ℕ} {sealed output : Bytes}
    {logits : List F} (hlt : k < d.route.length)
    (hactive : activeSequences.lookup taskId = some
      { sequenceId := start.sequenceId, taskId, tokens := start.tokens, currentNodeIndex := k })
    (hnonempty : d.prim.crypto.isEmpty sealed = false)
    (hopens : d.prim.crypto.openState d.orchestrator.clusterKey taskId sealed = .ok output)
    (hadmitted : ∀ layers, d.admits layers output start.tokens start.sequenceId)
    (harrives : d.Arrives start (k + 1) output (some logits)) (rng : Entropy) :
    ∃ activeSequences', (∀ id, id ≠ taskId →
        activeSequences'.lookup id = activeSequences.lookup id) ∧
      d.Moves { mesh with orchestrator := d.orchestrator.withSequences activeSequences' } rest
        activeSequences' taskId start (2 * (k + 1))
        (mesh.arrive (d.prim.platform d.ids) d.work rest rng (.toMaster (.taskResult
          { taskId, sequenceId := start.sequenceId, outputState := sealed, logits }))) := by
  rcases hstage : d.route[k + 1]? with - | stage
  · refine ⟨_, fun id hid => AList.lookup_erase_ne hid, .inr ?_⟩
    have hlen := List.getElem?_eq_none_iff.1 hstage
    rw [Deployment.Arrives, Orchestrator.drop_stageLayers_eq_nil hstage] at harrives
    rw [Mesh.arrive_result_of_last d.routed horchestrator hactive hstage]
    refine ⟨⟨(harrives.last hready).symm, ?_, fun _ => ?_⟩, rfl⟩ <;> dsimp only <;> omega
  · exact ⟨_, fun id hid => AList.lookup_insert_ne hid, .inl ⟨_, .task hstage
      (AList.lookup_insert _) hnonempty hopens (hadmitted _) harrives,
      Mesh.arrive_result_of_next d.routed horchestrator hactive hstage⟩⟩

theorem Moves.messages {mesh : Mesh F P Bytes (∀ p, τ p)}
    {after : Mesh F P Bytes (∀ p, τ p) × Option (List F)}
    (moves : d.Moves mesh rest activeSequences taskId start arrived after)
    (others : d.Messages (some taskId) activeSequences course rest)
    (hidle : some taskId ∉ rest.map Parcel.taskId?)
    (hcourse : course taskId = some { start, arrived, outcome := after.2 }) :
    d.Messages none activeSequences course after.1.inFlight := by
  rcases moves with ⟨parcel, hunderway, rfl⟩ | ⟨hended, hafter⟩
  · exact others.send hidle hcourse hunderway
  · rw [hafter]
    exact others.settle hcourse hended

/-- Whatever arrives moves its task on, and leaves the others as they are. -/
theorem tracks_arrive (rest : List (Parcel F P Bytes)) {mesh : Mesh F P Bytes (∀ p, τ p)}
    (tracks : d.Tracks (mesh, course) activeSequences)
    (hunderway : d.Underway activeSequences taskId start arrived parcel) (rng : Entropy) :
    ∃ workers activeSequences', AllReady d.ready d.stages workers ∧
      (∀ id, id ≠ taskId → activeSequences'.lookup id = activeSequences.lookup id) ∧
      d.Moves
        { mesh with workers, orchestrator := d.orchestrator.withSequences activeSequences' } rest
        activeSequences' taskId start (arrived + 1)
        (mesh.arrive (d.prim.platform d.ids) d.work rest rng parcel) := by
  obtain ⟨horchestrator, hready, -⟩ := tracks
  cases hunderway with
  | task hstage hactive hnonempty hopens hadmitted harrives =>
    obtain ⟨workers, hworkers, hmoves⟩ :=
      moves_task hready hstage hactive hnonempty hopens hadmitted harrives rng
    exact ⟨workers, activeSequences, hworkers, fun _ _ => rfl, horchestrator ▸ hmoves⟩
  | result hlt hactive hnonempty hopens hadmitted harrives =>
    obtain ⟨activeSequences', hsame, hmoves⟩ :=
      moves_result horchestrator hready hlt hactive hnonempty hopens hadmitted harrives rng
    exact ⟨mesh.workers, activeSequences', hready, hsame, hmoves⟩

theorem tracks_deliver (tracks : d.Tracks x activeSequences) (i : ℕ) (rng : Entropy) :
    ∃ activeSequences', d.Tracks ((d.machine.observe Course.note).step x (.deliver i rng)).1
      activeSequences' := by
  obtain ⟨mesh, course⟩ := x
  simp only [Mealy.observe, machine, Mesh.machine, Mesh.step, Course.note]
  cases hparcel : mesh.inFlight[i]? with
  | none => exact ⟨activeSequences, tracks⟩
  | some parcel =>
    obtain ⟨hi, rfl⟩ := List.getElem?_eq_some_iff.1 hparcel
    obtain ⟨taskId, start, arrived, -, hstart, hunderway⟩ :=
      tracks.messages.underway _ (List.getElem_mem hi)
    have hid := hunderway.taskId?_eq
    obtain ⟨others, hidle⟩ := tracks.messages.others (List.getElem_cons_eraseIdx_perm hi).symm hid
    obtain ⟨workers, activeSequences', hready, hsame, hmoves⟩ :=
      tracks_arrive (mesh.inFlight.eraseIdx i) tracks hunderway rng
    have hstart : course taskId = some { start, arrived, outcome := none } := hstart
    simp only [Option.bind_some, hid, hstart, Option.map_some, Option.or_none]
    have hworkers : (mesh.arrive (d.prim.platform d.ids) d.work (mesh.inFlight.eraseIdx i) rng
        mesh.inFlight[i]).1.workers = workers ∧
      (mesh.arrive (d.prim.platform d.ids) d.work (mesh.inFlight.eraseIdx i) rng
        mesh.inFlight[i]).1.orchestrator = d.orchestrator.withSequences activeSequences' := by
      rcases hmoves with ⟨parcel, -, hafter⟩ | ⟨-, hafter⟩ <;> rw [hafter] <;> exact ⟨rfl, rfl⟩
    refine ⟨activeSequences', hworkers.2, hworkers.1.symm ▸ hready, ?_⟩
    refine hmoves.messages (others.mono hsame fun id hne => ?_) hidle (Function.update_self ..)
    exact Function.update_of_ne hne ..

end Step

/-! ## A run -/

variable (d) in
/-- What is known after a run: at most one message a task; as long as there is one the task has not
finished, and once there is none it has ended as its composition does. -/
def Settled (x : Mesh F P Bytes (∀ p, τ p) × Course F Bytes) : Prop :=
  let n := d.orchestrator.pipeline.pipelineStages.length
  (x.1.inFlight.map Parcel.taskId?).Nodup ∧
    ∀ taskId progress, x.2 taskId = some progress →
      if x.1.Busy taskId then progress.outcome = none ∧ progress.arrived < 2 * n
      else
        progress.outcome = (d.composed progress.start).logits ∧ progress.arrived ≤ 2 * n ∧
          (progress.outcome.isSome = true → progress.arrived = 2 * n)

theorem Tracks.settled {x : Mesh F P Bytes (∀ p, τ p) × Course F Bytes}
    (tracks : d.Tracks x activeSequences) : d.Settled x := by
  have hlength : d.orchestrator.pipeline.pipelineStages.length = d.route.length := by
    rw [d.routed.stages, List.length_map]
  refine ⟨tracks.messages.nodup, fun taskId progress hprogress => ?_⟩
  rw [hlength]
  split_ifs with hbusy
  · obtain ⟨parcel, hparcel, hid⟩ := List.mem_map.1 hbusy
    obtain ⟨id, start, arrived, -, hstart, hunderway⟩ := tracks.messages.underway parcel hparcel
    obtain rfl : id = taskId := Option.some.inj (hunderway.taskId?_eq.symm.trans hid)
    cases hstart.symm.trans hprogress
    exact ⟨rfl, hunderway.arrived_lt⟩
  · obtain ⟨houtcome, hle, heq⟩ :=
      tracks.messages.ended taskId progress (Option.some_ne_none _) hprogress hbusy
    exact ⟨houtcome, hle, heq⟩

theorem settled_run (d : Deployment F P S τ) {events : List (MeshEvent Bytes)}
    (startable : (d.machine.observe Course.note).Guarded (fun x event => d.Startable x.1 event)
      (Mesh.new d.orchestrator d.workers, fun _ => none) events) :
    d.Settled ((d.machine.observe Course.note).run
      (Mesh.new d.orchestrator d.workers, fun _ => none) events) := by
  have preserved : ∀ (x : Mesh F P Bytes (∀ p, τ p) × Course F Bytes) (event : MeshEvent Bytes),
      (∃ activeSequences, d.Tracks x activeSequences) → d.Startable x.1 event →
        ∃ activeSequences, d.Tracks ((d.machine.observe Course.note).step x event).1
          activeSequences := by
    rintro x event ⟨activeSequences, tracks⟩ hstartable
    cases event with
    | start => exact tracks_start tracks hstartable
    | deliver i rng => exact tracks_deliver tracks i rng
  obtain ⟨activeSequences, tracks⟩ :=
    (d.machine.observe Course.note).invariant preserved ⟨_, tracks_new⟩ startable
  exact tracks.settled

/-- However the messages of any number of sequences are delivered, at every moment each sequence has
at most one message in flight; while it has one it has not finished, and once it has none it has
ended as the composition of its stages does: with the same logits, after every stage has computed
once, or without logits where the composition fails. -/
theorem ends_as_composed (d : Deployment F P S τ) (events : List (MeshEvent Bytes))
    (startable : (d.machine.observe Course.note).Guarded (fun x event => d.Startable x.1 event)
      (Mesh.new d.orchestrator d.workers, fun _ => none) events) :
    let x := (d.machine.observe Course.note).run
      (Mesh.new d.orchestrator d.workers, fun _ => none) events
    let n := d.orchestrator.pipeline.pipelineStages.length
    (x.1.inFlight.map Parcel.taskId?).Nodup ∧
      ∀ taskId progress, x.2 taskId = some progress →
        if x.1.Busy taskId then progress.outcome = none ∧ progress.arrived < 2 * n
        else
          progress.outcome = (d.composed progress.start).logits ∧ progress.arrived ≤ 2 * n ∧
            (progress.outcome.isSome = true → progress.arrived = 2 * n) :=
  d.settled_run startable

end Deployment

/-! ## Two sequences on two nodes -/

theorem mockBackend_memoryless (stages : List (Ed25519PeerId × ℕ × ℕ)) :
    Memoryless (fun _ => mockBackend) (fun _ _ => True) (fun _ _ _ _ => True) stages where
  keeps _ _ _ _ _ _ _ := trivial
  same _ _ _ _ _ _ _ _ _ _ := rfl
  onward _ _ _ _ _ _ _ _ _ _ _ _ := trivial

/-- Two nodes with the mock backend, right after they have announced themselves. -/
def mockDeployment : Deployment Float32 Ed25519PeerId Unit fun _ => Bytes where
  prim := .reference
  ids := .ed25519
  backend _ := mockBackend
  ready _ _ := True
  admits _ _ _ _ := True
  orchestrator := announced Platform.reference 32 "secret" [] twoAnnouncements
  workers _ := []
  lawful := Primitives.reference_lawful
  routed := by
    have hvalid : ∀ a ∈ twoAnnouncements, PeerIds.ed25519.Valid a.deviceId := by decide +kernel
    exact (announced_justRebalanced 32 "secret" [] (List.cons_ne_nil _ _) hvalid).routed
  nonempty := by decide +kernel
  memoryless := mockBackend_memoryless _
  allReady _ _ := trivial

instance (mesh : Mesh Float32 Ed25519PeerId Bytes (Ed25519PeerId → Bytes)) :
    ∀ event, Decidable (mockDeployment.Startable mesh event)
  | .start _ sequenceId taskId tokens initialState =>
    decidable_of_iff (¬ mesh.Busy taskId ∧ initialState.length ≤ Primitives.decompressLimit ∧
      ∀ x ∈ (mockDeployment.composed { sequenceId, tokens, initialState }).payloads,
        x.length ≤ Primitives.decompressLimit)
      ⟨fun h => ⟨h.1, fun _ _ => trivial, h.2⟩, fun h => ⟨h.1, h.2.2⟩⟩
  | .deliver .. => .isTrue trivial

/-- The second sequence overtakes the first, which is started again after it has finished. -/
def overtaking : List (MeshEvent Bytes) :=
  let start (taskId : String) (t : ℤ) : MeshEvent Bytes := .start (fun _ => 0) 0 taskId [t] [1, 2]
  let deliver (i : ℕ) : MeshEvent Bytes := .deliver i fun _ => 0
  [start "a" 1, start "b" 2, deliver 1, deliver 1, deliver 0, deliver 0, deliver 1, deliver 0,
    deliver 0, deliver 0, start "a" 3, deliver 0]

theorem ends_as_composed_overtaking :
    let d := mockDeployment
    let x := (d.machine.observe Course.note).run
      (Mesh.new d.orchestrator d.workers, fun _ => none) overtaking
    let n := d.orchestrator.pipeline.pipelineStages.length
    (x.1.inFlight.map Parcel.taskId?).Nodup ∧
      ∀ taskId progress, x.2 taskId = some progress →
        if x.1.Busy taskId then progress.outcome = none ∧ progress.arrived < 2 * n
        else
          progress.outcome = (d.composed progress.start).logits ∧ progress.arrived ≤ 2 * n ∧
            (progress.outcome.isSome = true → progress.arrived = 2 * n) :=
  Deployment.ends_as_composed mockDeployment overtaking (by decide +kernel)

end NeuralSwarm
