import Mathlib.Logic.Function.Basic
import NeuralSwarm.Basic.Except
import NeuralSwarm.Executor
import NeuralSwarm.Handshake
import NeuralSwarm.Sequences

/-!
# What a sealed state is bound to

Executors that share the cluster key, an orchestrator, and an attacker without that key who delivers
tasks and results as it likes.  A state is sealed with the task id as associated data and with
nothing else: an executor opens what an executor or the orchestrator sealed for the same task, in
whatever sequence and at whatever layer.  So a state stays in its place (`runTask_inPlace`) as long
as nobody delivers it in another one.  The backends are arbitrary, since what they hand on is sealed
before it leaves a node.
-/

namespace NeuralSwarm

open Symbolic

/-! ## The swarm -/

/-- A state that a holder of the cluster key has sealed. -/
structure Issue where
  taskId : String
  sequenceId : ℕ
  /-- One past the last layer that the state has passed, if an executor computed it. -/
  endLayer : Option ℕ
  state : Message
  deriving DecidableEq

/-- The orchestrator, the backend of every executor, and what has been sent. -/
structure Swarm (F P σ : Type) where
  orchestrator : Orchestrator F P Message
  workers : String → σ
  sent : List Message
  /-- History variable: the states that have been sealed. -/
  issued : List Issue

inductive SwarmEvent (F P : Type)
  /-- A call of the orchestrator. -/
  | call (op : Op F P Message)
  /-- A message for the executor of a device. -/
  | deliver (deviceId : String) (rng : Entropy) (message : SwarmMessage F P Message)

variable {F P σ : Type}

/-- The task that a reply of the orchestrator sends out. -/
def Reply.task {B : Type} : Reply F P B → Option (ProcessTask P B)
  | started (.ok (some (_, .processTask task)))
  | advanced (.ok (some (.nextStage _ (.processTask task)))) => some task
  | _ => none

/-- The state that a call of the orchestrator has sealed. -/
def Reply.issue : Reply F P Message → Option Issue
  | started (.ok (some (_, .processTask task))) =>
    some
      { taskId := task.taskId
        sequenceId := task.sequenceId
        endLayer := none
        state := task.inputState }
  | _ => none

/-- The state that an executor has sealed in answer to a message. -/
def SwarmMessage.issue (message : SwarmMessage F P Message)
    (answer : Except String (Option (SwarmMessage F P Message × Option (RouteTicket P)))) :
    Option Issue :=
  match message, answer with
  | .processTask task, .ok (some (.taskResult result, _)) =>
    some
      { taskId := result.taskId
        sequenceId := result.sequenceId
        endLayer := some task.endLayer
        state := result.outputState }
  | _, _ => none

/-- An executor with the cluster key. -/
def honestExecutor (deviceId : String) : Executor Message := ⟨deviceId, .atom .clusterKey⟩

namespace Swarm

def new (total : UInt32) (sharedSecret : String) (workers : String → σ) : Swarm F P σ :=
  { orchestrator := .new total sharedSecret (.atom .clusterKey)
    workers
    sent := []
    issued := [] }

variable (backend : String → InferenceBackend σ F Message)

/-- `run_task` of the executor of a device on a message, and the backend it leaves. -/
def runTask (net : Swarm F P σ) (deviceId : String) (rng : Entropy)
    (message : SwarmMessage F P Message) :
    σ × Except String (Option (SwarmMessage F P Message × Option (RouteTicket P))) :=
  (honestExecutor deviceId).runTask symbolicCrypto (backend deviceId) rng (net.workers deviceId)
    message

variable [Scalar F] (peerIds : PeerIds P)

def step (net : Swarm F P σ) : SwarmEvent F P → Swarm F P σ
  | .call op =>
    let (orchestrator, reply) := net.orchestrator.perform (symbolicPlatform peerIds) op
    { net with
      orchestrator
      sent := net.sent ++ reply.task.toList.map (·.inputState)
      issued := net.issued ++ reply.issue.toList }
  | .deliver deviceId rng message =>
    let (s, answer) := net.runTask backend deviceId rng message
    let issue := message.issue answer
    { net with
      workers := Function.update net.workers deviceId s
      sent := net.sent ++ issue.toList.map (·.state)
      issued := net.issued ++ issue.toList }

/-- The swarm as a machine. -/
def machine : Mealy (Swarm F P σ) (SwarmEvent F P) Unit :=
  ⟨fun net e => (net.step backend peerIds e, ())⟩

/-- What an attacker who lacks the cluster key, and nothing else, can derive from what has been
sent. -/
def Derives (net : Swarm F P σ) : Message → Prop :=
  Symbolic.Derives (· ≠ Atom.clusterKey) (fun _ => True) {t | t ∈ net.sent}

/-- The sealed states. -/
def states (net : Swarm F P σ) : Set Message := {t | ∃ i ∈ net.issued, i.state = t}

/-- An executor sealed the input of a task for the same task and sequence, in a task that ended at
the layer where this one starts. -/
def InPlace (net : Swarm F P σ) (task : ProcessTask P Message) : Prop :=
  ∃ i ∈ net.issued, i.state = task.inputState ∧ i.taskId = task.taskId ∧
    i.sequenceId = task.sequenceId ∧ i.endLayer = some task.startLayer

instance decidableInPlace (net : Swarm F P σ) (task : ProcessTask P Message) :
    Decidable (net.InPlace task) :=
  inferInstanceAs (Decidable (∃ _ ∈ _, _))

/-- A task carries a state, and none that was sealed for its task id in another place: by an
executor in another sequence or in a task that ended at another layer, or by the orchestrator. -/
def KeepsPlace (net : Swarm F P σ) (task : ProcessTask P Message) : Prop :=
  task.inputState ≠ symbolicCrypto.empty ∧
    ∀ i ∈ net.issued, i.state = task.inputState → i.taskId = task.taskId →
      i.sequenceId = task.sequenceId ∧ i.endLayer = some task.startLayer

end Swarm

namespace SwarmEvent

/-- The states that an event delivers in tasks and results. -/
def delivered : SwarmEvent F P → List Message
  | call (.taskResult result) => result.byteStrings
  | deliver _ _ message => message.byteStrings
  | _ => []

/-- The attacker can cause the event. -/
def Possible (net : Swarm F P σ) (e : SwarmEvent F P) : Prop :=
  ∀ t ∈ e.delivered, net.Derives t

/-- A task behind the first layer is delivered with a state that keeps its place. -/
def KeepsPlace (net : Swarm F P σ) : SwarmEvent F P → Prop
  | deliver _ _ (.processTask task) => 0 < task.startLayer → net.KeepsPlace task
  | _ => True

end SwarmEvent

/-! ## What the holders of the key seal -/

/-- The loop of `ByteArray.toList` reads the array from a position on. -/
theorem byteArray_toList_loop (bytes : ByteArray) (i : ℕ) (before : List UInt8) :
    ByteArray.toList.loop bytes i before = before.reverse ++ bytes.data.toList.drop i := by
  fun_induction ByteArray.toList.loop bytes i before with
  | case1 i before hlt ih =>
    have hget : bytes.get! i = bytes.data[i] := getElem!_pos bytes.data i hlt
    rw [ih, hget, List.reverse_cons, List.append_assoc, List.singleton_append,
      ← Array.getElem_toList hlt, List.getElem_cons_drop]
  | case2 i before hge =>
    have hnil : bytes.data.toList.drop i = [] := List.drop_eq_nil_iff.2 (Nat.le_of_not_lt hge)
    rw [hnil, List.append_nil]

/-- Different task ids are different associated data. -/
theorem utf8_inj {s t : String} (h : utf8 s = utf8 t) : s = t := by
  have hbytes : s.toUTF8.toList = t.toUTF8.toList := Atom.bytes.inj (Term.atom.inj h)
  have hdata (u : String) : u.toUTF8.toList = u.toUTF8.data.toList := byteArray_toList_loop _ 0 []
  rw [hdata, hdata, Array.toList_inj] at hbytes
  exact String.toByteArray_inj.1 (ByteArray.ext hbytes)

theorem symbolicCrypto_sealState {rng : Entropy} {key state encrypted : Message} {taskId : String}
    (h : symbolicCrypto.sealState rng key taskId state = .ok encrypted) :
    encrypted = .sealed (.atom (.bytes (rng.fillBytes 12))) key (utf8 taskId) (.packed state) :=
  (Except.ok.inj h).symm

theorem symbolicCrypto_openState {key state inputState : Message} {taskId : String}
    (h : symbolicCrypto.openState key taskId inputState = .ok state) :
    ∃ iv message, inputState = .sealed iv key (utf8 taskId) message := by
  unfold Crypto.openState at h
  split at h
  · cases h
  · rename_i decrypted hdecrypt
    cases inputState with
    | sealed iv key' aad message =>
      simp only [symbolicCrypto] at hdecrypt
      split_ifs at hdecrypt with hsame
      obtain ⟨rfl, rfl⟩ := hsame
      exact ⟨iv, message, rfl⟩
    | _ => cases hdecrypt

/-- The state of an issue is sealed under the cluster key and its task id. -/
def Issue.Sealed (i : Issue) : Prop :=
  ∃ iv message, i.state = .sealed iv (.atom .clusterKey) (utf8 i.taskId) message

/-- A call of the orchestrator seals a state and sends it out, sends out a state that it received,
or sends nothing. -/
theorem Orchestrator.perform_sends [Scalar F] (peerIds : PeerIds P) {o : Orchestrator F P Message}
    (hkey : o.clusterKey = .atom .clusterKey) (op : Op F P Message) :
    let reply := (o.perform (symbolicPlatform peerIds) op).2
    (∃ i, reply.issue = some i ∧ i.Sealed ∧ reply.task.toList.map (·.inputState) = [i.state]) ∨
      reply.issue = none ∧
        ∀ task ∈ reply.task, task.inputState ∈ (SwarmEvent.call op).delivered := by
  intro reply
  cases op with
  | startSequence rng sequenceId taskId tokens initialState =>
    rcases o.startSequence_cases (symbolicPlatform peerIds) rng sequenceId taskId tokens
      initialState with ⟨n, rest, peer, encrypted, hsorted, hparse, hstages, hseal⟩ | ⟨-, hnone⟩
    · have hstart := startSequence_of_sorted (symbolicPlatform peerIds) hsorted hparse hstages
        hseal sequenceId tokens
      have hreply : reply = .started (.ok (some (peer, .processTask
          (o.pipeline.stageTask 0 sequenceId taskId tokens encrypted n.layerRange)))) := by
        simp only [reply, perform, hstart, Prod.map]
      rw [hreply]
      rw [hkey] at hseal
      exact .inl ⟨_, rfl, ⟨_, _, symbolicCrypto_sealState hseal⟩, rfl⟩
    · have hreply : reply = .started (o.startSequence (symbolicPlatform peerIds) rng sequenceId
          taskId tokens initialState).2 := rfl
      rw [hreply]
      rcases Except.eq_none_or_error hnone with hanswer | ⟨e, hanswer⟩
      · rw [hanswer]
        exact .inr ⟨rfl, fun _ h => by cases h⟩
      · rw [hanswer]
        exact .inr ⟨rfl, fun _ h => by cases h⟩
  | taskResult message =>
    refine .inr ?_
    cases message with
    | taskResult result =>
      rcases o.handleTaskResult_cases (symbolicPlatform peerIds) result with
        ⟨state, peer, n, hlookup, hsequence, hstage, hget⟩ | ⟨state, hlookup, hsequence, hstage⟩ |
        hsame
      · have hnext := handleTaskResult_of_next hlookup hsequence hstage hget
        simp only [reply, perform, hnext, Prod.map]
        refine ⟨rfl, fun task htask => ?_⟩
        cases htask
        exact List.mem_singleton_self _
      · have hlast : o.handleTaskResult (symbolicPlatform peerIds) (.taskResult result) = _ :=
          handleTaskResult_of_last hlookup hsequence hstage
        simp only [reply, perform, hlast, Prod.map]
        exact ⟨rfl, fun _ h => by cases h⟩
      · simp only [reply, perform, hsame, Prod.map]
        exact ⟨rfl, fun _ h => by cases h⟩
    | _ => exact ⟨rfl, fun _ h => by cases h⟩
  | _ => exact .inr ⟨rfl, fun _ h => by cases h⟩

/-- The executor that answers a task with a result has sealed the state of the result. -/
theorem SwarmMessage.issue_sealed {backend : InferenceBackend σ F Message} {deviceId : String}
    {rng : Entropy} {s : σ} {message : SwarmMessage F P Message} :
    ∀ i ∈ message.issue ((honestExecutor deviceId).runTask symbolicCrypto backend rng s message).2,
      i.Sealed := by
  intro i hi
  rcases h : (honestExecutor deviceId).runTask symbolicCrypto backend rng s message with
    ⟨s', e | _ | ⟨result, route⟩⟩
  · rw [h] at hi
    cases message <;> cases hi
  · rw [h] at hi
    cases message <;> cases hi
  · rw [h] at hi
    obtain ⟨task, s1, s2, logits, outputRaw, encrypted, rfl, -, -, -, -, hseal, rfl, rfl⟩ :=
      Executor.runTask_eq_ok_some h
    cases hi
    exact ⟨_, _, symbolicCrypto_sealState hseal⟩

/-! ## Whole runs -/

namespace Swarm

/-- Nothing is sealed under the cluster key but what its holders have sealed, and nothing that has
been sent exposes the key. -/
structure Inv (net : Swarm F P σ) : Prop where
  clusterKey_eq : net.orchestrator.clusterKey = .atom .clusterKey
  issued : ∀ i ∈ net.issued, i.Sealed
  sent : ∀ t ∈ net.sent, Authentic (· = Atom.clusterKey) net.states t

variable {net : Swarm F P σ}

/-- What the attacker can derive exposes no ciphertext but the sealed states. -/
theorem Inv.authentic (inv : net.Inv) {t : Message} (h : net.Derives t) :
    Authentic (· = Atom.clusterKey) net.states t := by
  refine Symbolic.Derives.authentic (fun _ h => h) ?_ inv.sent h
  rintro iv key aad message ⟨i, hi, hstate⟩ hkey
  obtain ⟨iv', message', hsealed⟩ := inv.issued i hi
  rw [hsealed] at hstate
  cases hstate
  exact hkey rfl

/-- More has been sealed: what has been sealed before, and what is sent, is authentic. -/
theorem Inv.extend (inv : net.Inv) {orchestrator : Orchestrator F P Message} {workers : String → σ}
    {sent : List Message} {issued : List Issue}
    (hkey : orchestrator.clusterKey = .atom .clusterKey) (hissued : ∀ i ∈ issued, i.Sealed)
    (hsent : ∀ t ∈ sent, (∃ i ∈ issued, i.state = t) ∨ net.Derives t) :
    Inv
      ({ orchestrator
         workers
         sent := net.sent ++ sent
         issued := net.issued ++ issued } : Swarm F P σ) := by
  have hsub : net.states ⊆ {t | ∃ i ∈ net.issued ++ issued, i.state = t} := by
    rintro t ⟨i, hi, hstate⟩
    exact ⟨i, List.mem_append_left _ hi, hstate⟩
  refine ⟨hkey, fun i hi => ?_, fun t ht => ?_⟩
  · exact (List.mem_append.1 hi).elim (inv.issued i) (hissued i)
  · rcases List.mem_append.1 ht with ht | ht
    · exact (inv.sent t ht).mono hsub
    · rcases hsent t ht with ⟨i, hi, rfl⟩ | hderives
      · obtain ⟨iv, message, hstate⟩ := hissued i hi
        rw [hstate]
        exact .inl ⟨i, List.mem_append_right _ hi, hstate⟩
      · exact (inv.authentic hderives).mono hsub

variable [Scalar F] (backend : String → InferenceBackend σ F Message) (peerIds : PeerIds P)

theorem inv_step (inv : net.Inv) {e : SwarmEvent F P} (possible : e.Possible net) :
    (net.step backend peerIds e).Inv := by
  cases e with
  | call op =>
    have hkey := (net.orchestrator.perform_config (symbolicPlatform peerIds) op).2.1.trans
      inv.clusterKey_eq
    rcases net.orchestrator.perform_sends peerIds inv.clusterKey_eq op with
      ⟨i, hissue, hsealed, hsends⟩ | ⟨hissue, hsends⟩
    · simp only [step, hissue, hsends, Option.toList_some]
      refine inv.extend hkey (fun j hj => ?_) fun t ht => ?_
      · exact List.mem_singleton.1 hj ▸ hsealed
      · exact .inl ⟨i, List.mem_singleton_self i, (List.mem_singleton.1 ht).symm⟩
    · simp only [step, hissue, Option.toList_none]
      refine inv.extend hkey (fun j hj => by cases hj) fun t ht => ?_
      obtain ⟨task, htask, rfl⟩ := List.mem_map.1 ht
      exact .inr (possible _ (hsends task (Option.mem_toList.1 htask)))
  | deliver deviceId rng message =>
    refine inv.extend inv.clusterKey_eq (fun i hi => ?_) fun t ht => ?_
    · exact SwarmMessage.issue_sealed i (Option.mem_toList.1 hi)
    · exact .inl (List.mem_map.1 ht)

/-- An executor computes on a state only if nobody sent one or a holder of the key sealed it for the
same task. -/
theorem runTask_inputState_issued (total : UInt32) (sharedSecret : String) (workers : String → σ)
    (events : List (SwarmEvent F P))
    (attack : (machine backend peerIds).Guarded (fun net e => e.Possible net)
      (new total sharedSecret workers) events)
    (deviceId : String) (rng : Entropy) (task : ProcessTask P Message)
    (answer : SwarmMessage F P Message × Option (RouteTicket P)) :
    let net := (machine backend peerIds).run (new total sharedSecret workers) events
    net.Derives task.inputState →
      (net.runTask backend deviceId rng (.processTask task)).2 = .ok (some answer) →
        task.inputState = symbolicCrypto.empty ∨
          ∃ i ∈ net.issued, i.state = task.inputState ∧ i.taskId = task.taskId := by
  intro net possible succeeds
  have initial : Inv (new total sharedSecret workers : Swarm F P σ) :=
    ⟨rfl, by simp [new], by simp [new]⟩
  have preserved : ∀ (net : Swarm F P σ) (e : SwarmEvent F P), net.Inv → e.Possible net →
      ((machine backend peerIds).step net e).1.Inv :=
    fun _ _ inv possible => inv_step backend peerIds inv possible
  have inv : net.Inv := (machine backend peerIds).invariant preserved initial attack
  obtain ⟨s', hrun⟩ : ∃ s', net.runTask backend deviceId rng (.processTask task) =
    (s', .ok (some answer)) := ⟨_, Prod.ext rfl succeeds⟩
  obtain ⟨_, s1, s2, _, _, _, htask, -, hinject, -⟩ := Executor.runTask_eq_ok_some hrun
  cases htask
  rcases Executor.injectState_eq_ok hinject with hempty | ⟨state, hopen⟩
  · exact .inl (eq_of_beq hempty)
  · refine .inr ?_
    obtain ⟨iv, message, hinput⟩ := symbolicCrypto_openState hopen
    rw [hinput] at possible ⊢
    have hauthentic : Authentic (· = Atom.clusterKey) net.states
        (.sealed iv (.atom .clusterKey) (utf8 task.taskId) message) := inv.authentic possible
    obtain ⟨i, hi, hstate⟩ := hauthentic.sealed_mem_issued rfl
    obtain ⟨iv', message', hsealed⟩ := inv.issued i hi
    rw [hstate] at hsealed
    exact ⟨i, hi, hstate, (utf8_inj (Term.sealed.inj hsealed).2.2.1).symm⟩

/-- In every run in which no state is delivered in another place, an executor computes behind the
first layer only on a state that an executor sealed for this place. -/
theorem runTask_inPlace (total : UInt32) (sharedSecret : String) (workers : String → σ)
    {events prior later : List (SwarmEvent F P)}
    (attack : (machine backend peerIds).Guarded (fun net e => e.Possible net ∧ e.KeepsPlace net)
      (new total sharedSecret workers) events)
    {deviceId : String} {rng : Entropy} {task : ProcessTask P Message}
    (hevents : events = prior ++ .deliver deviceId rng (.processTask task) :: later)
    (hstart : 0 < task.startLayer)
    {answer : SwarmMessage F P Message × Option (RouteTicket P)} :
    let net := (machine backend peerIds).run (new total sharedSecret workers) prior
    (net.runTask backend deviceId rng (.processTask task)).2 = .ok (some answer) →
      net.InPlace task := by
  intro net succeeds
  rw [hevents, Mealy.guarded_append] at attack
  obtain ⟨attack, ⟨possible, keeps⟩, -⟩ := attack
  have derivable : net.Derives task.inputState := possible _ (List.mem_singleton_self _)
  obtain ⟨hne, hplace⟩ := keeps hstart
  have attack := Mealy.Guarded.mono _ (fun _ _ => And.left) attack
  rcases runTask_inputState_issued backend peerIds total sharedSecret workers prior attack deviceId
    rng task answer derivable succeeds with hempty | ⟨i, hi, hstate, htask⟩
  · exact absurd hempty hne
  · obtain ⟨hsequence, hlayer⟩ := hplace i hi hstate htask
    exact ⟨i, hi, hstate, htask, hsequence, hlayer⟩

omit [Scalar F] in
/-- Conversely, what is sealed for the task id is accepted in every sequence and at every layer, by
a backend that does not fail. -/
theorem exists_runTask_of_sealed {deviceId : String} (never : (backend deviceId).NeverFails)
    (net : Swarm F P σ) (rng : Entropy) {task : ProcessTask P Message} {iv state : Message}
    (hinput : task.inputState =
      .sealed iv (.atom .clusterKey) (utf8 task.taskId) (.packed state)) :
    ∃ answer, (net.runTask backend deviceId rng (.processTask task)).2 = .ok (some answer) := by
  obtain ⟨s1, hensure⟩ := never.ensureLayers (net.workers deviceId) task.startLayer task.endLayer
  obtain ⟨s2, hset⟩ := never.setState s1 state
  obtain ⟨t, logits, hrun⟩ :=
    never.runLayers s2 task.startLayer task.endLayer task.tokens task.sequenceId
  obtain ⟨output, hget⟩ := never.getState t
  have hempty : symbolicCrypto.isEmpty task.inputState = false := by
    rw [hinput]
    rfl
  have hopen : symbolicCrypto.openState (honestExecutor deviceId).clusterKey task.taskId
      task.inputState = .ok state := by
    rw [hinput]
    simp [Crypto.openState, symbolicCrypto, honestExecutor]
  have hinject : (honestExecutor deviceId).injectState symbolicCrypto (backend deviceId) s1 task =
      (s2, .ok ()) := by
    simp only [Executor.injectState, hempty, Bool.false_eq_true, if_false, hopen, hset]
  exact ⟨_, by simp only [runTask, Executor.runTask, hensure, hinject, hrun, hget]; rfl⟩

/-! ## A state in another sequence -/

/-- A backend that keeps the state it is given. -/
def keepingBackend : InferenceBackend Message Float32 Message where
  ensureLayers s _ _ := (s, .ok ())
  setState _ state := (state, .ok ())
  getState s := .ok s
  runLayers s _ _ _ _ := (s, .ok [])

theorem keepingBackend_neverFails : keepingBackend.NeverFails where
  ensureLayers s _ _ := ⟨s, rfl⟩
  setState _ state := ⟨state, rfl⟩
  getState s := ⟨s, rfl⟩
  runLayers s _ _ _ _ := ⟨s, [], rfl⟩

/-- The task of the first stage. -/
def firstTask : ProcessTask Ed25519PeerId Message :=
  { taskId := "task"
    sequenceId := 1
    inputState := utf8 ""
    startLayer := 0
    endLayer := 16
    tokens := [42]
    route := none }

/-- The state that the executor of the first stage seals. -/
def firstOutput : Message :=
  .sealed (.atom (.bytes (Entropy.fillBytes (fun _ => 0) 12))) (.atom .clusterKey) (utf8 "task")
    (.packed (utf8 ""))

/-- A later task of the same name on the output of the first. -/
def laterTask (sequenceId startLayer : ℕ) : ProcessTask Ed25519PeerId Message :=
  { firstTask with sequenceId, inputState := firstOutput, startLayer, endLayer := 32 }

def firstEvents : List (SwarmEvent Float32 Ed25519PeerId) :=
  [.deliver "node-1" (fun _ => 0) (.processTask firstTask)]

def afterFirst : Swarm Float32 Ed25519PeerId Message :=
  (machine (fun _ => keepingBackend) .ed25519).run (new 32 "secret" fun _ => utf8 "") firstEvents

theorem firstEvents_possible :
    (machine (fun _ => keepingBackend) .ed25519).Guarded (fun net e => e.Possible net)
      (new 32 "secret" fun _ => utf8 "") firstEvents := by
  refine ⟨fun t ht => ?_, trivial⟩
  obtain rfl : t = utf8 "" := List.mem_singleton.1 ht
  exact .atom (by decide)

theorem derives_firstOutput : afterFirst.Derives firstOutput := by
  have hsent : firstOutput ∈ afterFirst.sent := by decide +kernel
  exact .known hsent

theorem exists_runTask_laterTask (sequenceId startLayer : ℕ) :
    ∃ answer, (afterFirst.runTask (fun _ => keepingBackend) "node-2" (fun _ => 0)
      (.processTask (laterTask sequenceId startLayer))).2 = .ok (some answer) :=
  exists_runTask_of_sealed (fun _ => keepingBackend) keepingBackend_neverFails afterFirst _ rfl

/-- The second stage, on the output of the first. -/
theorem runTask_inPlace_second : afterFirst.InPlace (laterTask 1 16) := by
  obtain ⟨answer, hanswer⟩ := exists_runTask_laterTask 1 16
  have keeps : afterFirst.KeepsPlace (laterTask 1 16) := ⟨by decide, by decide +kernel⟩
  have attack : (machine (fun _ => keepingBackend) .ed25519).Guarded
      (fun net e => e.Possible net ∧ e.KeepsPlace net) (new 32 "secret" fun _ => utf8 "")
      (firstEvents ++ [.deliver "node-2" (fun _ => 0) (.processTask (laterTask 1 16))]) := by
    refine ⟨⟨firstEvents_possible.1, fun h => absurd h (by decide)⟩,
      ⟨fun t ht => ?_, fun _ => keeps⟩, trivial⟩
    obtain rfl : t = firstOutput := List.mem_singleton.1 ht
    exact derives_firstOutput
  exact runTask_inPlace (fun _ => keepingBackend) .ed25519 32 "secret" (fun _ => utf8 "") attack
    rfl (by decide) hanswer

/-- The output of sequence `1` at layer `16` is accepted for sequence `2` at layer `20`. -/
theorem not_inPlace_laterTask :
    ¬ ∀ (events : List (SwarmEvent Float32 Ed25519PeerId)) (deviceId : String) (rng : Entropy)
        (task : ProcessTask Ed25519PeerId Message)
        (answer : SwarmMessage Float32 Ed25519PeerId Message × Option (RouteTicket Ed25519PeerId)),
      let M := machine (fun _ => keepingBackend) .ed25519
      let start : Swarm Float32 Ed25519PeerId Message := new 32 "secret" fun _ => utf8 ""
      let net := M.run start events
      M.Guarded (fun net e => e.Possible net) start events → net.Derives task.inputState →
        0 < task.startLayer →
        (net.runTask (fun _ => keepingBackend) deviceId rng (.processTask task)).2 =
          .ok (some answer) →
        net.InPlace task := by
  intro h
  obtain ⟨answer, hanswer⟩ := exists_runTask_laterTask 2 20
  have hinPlace := h firstEvents "node-2" (fun _ => 0) (laterTask 2 20) answer
    firstEvents_possible derives_firstOutput (by decide) hanswer
  revert hinPlace
  show ¬ afterFirst.InPlace (laterTask 2 20)
  decide +kernel

end Swarm

end NeuralSwarm
