import NeuralSwarm.Basic.Except
import NeuralSwarm.Entries
import NeuralSwarm.LayerOrder
import NeuralSwarm.Sequences

/-!
# The task that is forwarded

`handle_task_result` looks up the next peer twice: for its layers, and again in the pipeline after
the index has moved.  Both times it is the same registered node, so the task asks for the layers of
its recipient; the tokens and the sequence id are those of the start that issued the sequence.
-/

namespace NeuralSwarm

variable {F P S B : Type}

/-- The sequence id and the tokens of the latest start of each task. -/
abbrev LatestStarts := String → Option (ℕ × List ℤ)

/-- Records the arguments of a start whose reply counts. -/
def LatestStarts.note (counts : Reply F P B → Bool) (latest : LatestStarts) (op : Op F P B)
    (reply : Reply F P B) : LatestStarts :=
  match op with
  | .startSequence _ sequenceId taskId tokens _ =>
    if counts reply then Function.update latest taskId (some (sequenceId, tokens)) else latest
  | _ => latest

/-- The reply of a start that issued a task. -/
def Reply.isStarted : Reply F P B → Bool
  | .started (.ok (some _)) => true
  | _ => false

namespace Orchestrator

/-- What a forwarded task owes its recipient, its result and the latest start of its sequence. -/
def ForwardsAsStarted (env : Platform P S B) (x : Orchestrator F P B × LatestStarts) : Prop :=
  ∀ msg peer next, (x.1.handleTaskResult env msg).2 = .ok (some (.nextStage peer next)) →
    ∃ result task n route, msg = .taskResult result ∧ next = .processTask task ∧
      x.1.registry.get (env.peerIds.toString peer) = some n ∧
      (n.assignedLayers ≠ [] →
        ∀ l, l ∈ n.assignedLayers ↔ task.startLayer ≤ l ∧ l < task.endLayer) ∧
      task.route = some route ∧ route.nodes[route.currentIndex]? = some peer ∧
      task.inputState = result.outputState ∧
      x.2 task.taskId = some (task.sequenceId, task.tokens)

/-- Every active sequence has the arguments of its latest start. -/
def StartsKept (x : Orchestrator F P B × LatestStarts) : Prop :=
  ∀ taskId state, x.1.pipeline.activeSequences.lookup taskId = some state →
    x.2 taskId = some (state.sequenceId, state.tokens)

/-- The layers of a settled node are the range that is sent to it. -/
theorem mem_assignedLayers_iff [Scalar F] {total : UInt32} {key : String} {n : NodeEntry F}
    (settled : n.Settled total.toNat key) (hne : n.assignedLayers ≠ []) (l : ℕ) :
    l ∈ n.assignedLayers ↔ n.layerRange.1 ≤ l ∧ l < n.layerRange.2 := by
  obtain ⟨start, count, hle, hlayers⟩ := settled.layerRun
  have hlt : ∀ l ∈ n.assignedLayers, l < total.toNat := by
    intro l hl
    rw [hlayers, List.mem_range'_1] at hl
    omega
  have hcount : count ≠ 0 := by
    rintro rfl
    exact hne hlayers
  have hspan : span n.assignedLayers = n.assignedLayers := by
    rw [hlayers]
    exact span_range' start count hcount
  have hmem : l ∈ List.range' n.layerRange.1 (n.layerRange.2 - n.layerRange.1) ↔
      l ∈ n.assignedLayers := by
    rw [n.layerRange_eq_span total.toNat_lt hlt, hspan]
  rw [← hmem, List.mem_range'_1]
  omega

section Step

variable {env : Platform P S B} {o : Orchestrator F P B} {latest : LatestStarts}

theorem startsKept_handleTaskResult (h : StartsKept (o, latest)) (msg : SwarmMessage F P B) :
    StartsKept ((o.handleTaskResult env msg).1, latest) := by
  cases msg with
  | taskResult result =>
    intro taskId state hstate
    obtain ⟨before, hbefore, hsequence, htokens⟩ := exists_lookup_of_handleTaskResult hstate
    rw [h taskId before hbefore, hsequence, htokens]
  | _ => exact h

variable [Scalar F]

theorem startsKept_startSequence (h : StartsKept (o, latest)) (rng : Entropy) (sequenceId : ℕ)
    (taskId : String) (tokens : List ℤ) (initialState : B) :
    StartsKept ((o.startSequence env rng sequenceId taskId tokens initialState).1,
      latest.note (F := F) (P := P) (B := B) Reply.isStarted
        (.startSequence rng sequenceId taskId tokens initialState)
        (.started (o.startSequence env rng sequenceId taskId tokens initialState).2)) := by
  rcases startSequence_cases env o rng sequenceId taskId tokens initialState with
    ⟨n, rest, peer, sealed, hsorted, hparse, hstages, hseal⟩ | ⟨hsame, hnone⟩
  · rw [startSequence_of_sorted env hsorted hparse hstages hseal]
    intro id state hstate
    change Function.update latest taskId (some (sequenceId, tokens)) id = _
    by_cases hid : id = taskId
    · subst hid
      cases (AList.lookup_insert _).symm.trans hstate
      exact Function.update_self ..
    · rw [Function.update_of_ne hid]
      exact h id state ((AList.lookup_insert_ne hid).symm.trans hstate)
  · have hnote : Reply.isStarted (.started (o.startSequence env rng sequenceId taskId tokens
        initialState).2 : Reply F P B) = false := by
      rcases Except.eq_none_or_error hnone with hanswer | ⟨e, hanswer⟩
      · rw [hanswer]
        rfl
      · rw [hanswer]
        rfl
    rw [hsame]
    simp only [LatestStarts.note, hnote, Bool.false_eq_true, if_false]
    exact h

/-- One call keeps the record of the starts right. -/
theorem startsKept_perform (h : StartsKept (o, latest)) (op : Op F P B) :
    StartsKept ((o.perform env op).1, latest.note Reply.isStarted op (o.perform env op).2) := by
  cases op with
  | startSequence rng sequenceId taskId tokens initialState =>
    exact startsKept_startSequence h rng sequenceId taskId tokens initialState
  | taskResult msg => exact startsKept_handleTaskResult h msg
  | _ =>
    intro taskId state hstate
    have hstate : (o.perform env _).1.pipeline.activeSequences.lookup taskId = some state := hstate
    rw [perform_activeSequences env rfl] at hstate
    exact h taskId state hstate

end Step

/-! ## Whole runs -/

variable [Scalar F] (env : Platform P S B)

/-- The orchestrator with a record of the starts whose replies count. -/
def startsNoted (counts : Reply F P B → Bool) :
    Mealy (Orchestrator F P B × LatestStarts) (Op F P B) (Reply F P B) :=
  (machine env).observe fun latest _ op reply => latest.note counts op reply

theorem startsKept_run (total : UInt32) (sharedSecret : String) (clusterKey : B)
    (ops : List (Op F P B)) :
    StartsKept ((startsNoted env Reply.isStarted).run
      (new total sharedSecret clusterKey, fun _ => none) ops) := by
  have preserved : ∀ (x : Orchestrator F P B × LatestStarts) (op : Op F P B), StartsKept x → True →
      StartsKept ((startsNoted env Reply.isStarted).step x op).1 :=
    fun _ op h _ => startsKept_perform h op
  refine (startsNoted env Reply.isStarted).invariant preserved ?_
    ((startsNoted env Reply.isStarted).guarded_of_forall _ fun _ (_ : _ ∈ ops) => trivial)
  rintro taskId state ⟨⟩

theorem settled_of_run (total : UInt32) (sharedSecret : String) (clusterKey : B)
    (ops : List (Op F P B)) :
    ((machine env).run (new total sharedSecret clusterKey) ops).Settled := by
  have preserved : ∀ (o : Orchestrator F P B) (op : Op F P B), o.Settled →
      ((machine env).step o op).1.Settled := fun _ op h => settled_perform h op
  exact Mealy.Reachable.invariant (machine env) preserved
    (settled_new total sharedSecret clusterKey) ⟨ops, rfl⟩

/-- In every run, a task that is forwarded goes to a registered node with the layers of that node,
and carries on the sequence as it was last started. -/
theorem forwardsAsStarted_run (total : UInt32) (sharedSecret : String) (clusterKey : B)
    (ops : List (Op F P B)) :
    ForwardsAsStarted env ((startsNoted env Reply.isStarted).run
      (new total sharedSecret clusterKey, fun _ => none) ops) := by
  intro msg peer next hanswer
  have kept := startsKept_run env total sharedSecret clusterKey ops
  have settled : ((startsNoted env Reply.isStarted).run
      (new total sharedSecret clusterKey, fun _ => none) ops).1.Settled := by
    rw [startsNoted, Mealy.observe_run_fst]
    exact settled_of_run env total sharedSecret clusterKey ops
  cases msg with
  | taskResult result =>
    rcases handleTaskResult_cases env _ result with
      ⟨state, peer', n, hlookup, hsequence, hstage, hget⟩ | ⟨state, hlookup, hsequence, hstage⟩ |
        hnone
    · rw [handleTaskResult_of_next hlookup hsequence hstage hget] at hanswer
      cases hanswer
      refine ⟨result, _, n, _, rfl, rfl, hget,
        fun hne l => mem_assignedLayers_iff (settled _ n hget) hne l, rfl, hstage, rfl, ?_⟩
      exact hsequence ▸ kept result.taskId state hlookup
    · rw [handleTaskResult_of_last hlookup hsequence hstage] at hanswer
      cases hanswer
    · rw [hnone] at hanswer
      cases hanswer
  | _ => cases hanswer

/-! ## A start that is refused -/

/-- Both nodes slip below the threshold of a degraded node, one small step each, and the task is
started again while nobody accepts tasks. -/
def startedInVain : List (Op Float32 Ed25519PeerId Bytes) :=
  [.announce peerA (makeProfile "host-a" .desktop) (makeStatus 0.59 2048) 0,
    .announce peerB (makeProfile "host-b" .desktop) (makeStatus 0.6 2048) 1, startTask,
    .statusUpdate peerA (makeStatus 0.7 2048) 2, .statusUpdate peerB (makeStatus 0.7 2048) 3,
    .startSequence (fun _ => 0) 1 "task" [2] []]

/-- The sequence goes on with the tokens of its first start, not with those of the latest call. -/
theorem not_forwardsAsStarted_refused :
    let x := (startsNoted Platform.reference fun _ => true).run
      (new 32 "secret" [], fun _ => none) startedInVain
    (machine Platform.reference).Reachable (new 32 "secret" []) x.1 ∧
      x.1.registry.ValidIds Platform.reference.peerIds ∧
      ¬ ForwardsAsStarted Platform.reference x := by
  intro x
  have hrun : x.1 = (machine Platform.reference).run (new 32 "secret" []) startedInVain := by
    simp only [x, startsNoted, Mealy.observe_run_fst]
  have announces : ∀ op ∈ startedInVain, op.AnnouncesValid Platform.reference := by decide +kernel
  refine ⟨⟨_, hrun.symm⟩, ?_, fun h => ?_⟩
  · rw [hrun]
    exact (run_of_announcesValid Platform.reference 32 "secret" [] announces).2.1
  · have hnext : (x.1.handleTaskResult Platform.reference (.taskResult taskAnswer)).2 =
        .ok (some (.nextStage ⟨peerB, by decide +kernel⟩ (.processTask
          (x.1.pipeline.stageTask 1 1 "task" [1] [] (16, 32))))) := by decide +kernel
    have hcalled : x.2 "task" = some (1, [2]) := by decide +kernel
    clear_value x
    obtain ⟨_, task, _, _, -, htask, -, -, -, -, -, hlatest⟩ := h _ _ _ hnext
    rw [← SwarmMessage.processTask.inj htask] at hlatest
    have hkept : x.2 "task" = some (1, [1]) := hlatest
    exact absurd (hcalled.symm.trans hkept) (by decide)

end Orchestrator

end NeuralSwarm
