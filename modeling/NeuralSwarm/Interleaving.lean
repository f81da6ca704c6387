import NeuralSwarm.Refusals

/-!
# Sequences that run at the same time

All sequences share one table.  A call about a task reads and writes the entry of that task only,
so while the nodes stay as they are, each task is answered as if it were alone.
-/

namespace NeuralSwarm

variable {F P S B : Type}

/-- Whether a call is about the sequence of a task. -/
def Op.concerns (taskId : String) : Op F P B → Bool
  | .startSequence _ _ id _ _ => id = taskId
  | .taskResult (.taskResult result) => result.taskId = taskId
  | _ => false

namespace Orchestrator

/-- The second orchestrator differs from the first in the sequences of other tasks only. -/
def SameTask (taskId : String) (o o' : Orchestrator F P B) : Prop :=
  ∃ activeSequences, o' = o.withSequences activeSequences ∧
    activeSequences.lookup taskId = o.pipeline.activeSequences.lookup taskId

variable {env : Platform P S B} {o o' : Orchestrator F P B} {taskId : String}

theorem SameTask.refl (taskId : String) (o : Orchestrator F P B) : SameTask taskId o o :=
  ⟨o.pipeline.activeSequences, rfl, rfl⟩

/-- Equal entries of the task are all that is asked of two tables. -/
theorem sameTask_withSequences {s s' : AList fun _ : String => SequenceState}
    (h : s'.lookup taskId = s.lookup taskId) :
    SameTask taskId (o.withSequences s) (o.withSequences s') := ⟨s', rfl, h⟩

/-! ## Calls about other tasks -/

/-- A result changes no sequence but that of its task. -/
theorem handleTaskResult_of_other {result : TaskResult F B} (h : result.taskId ≠ taskId) :
    SameTask taskId o (o.handleTaskResult env (.taskResult result)).1 := by
  rcases handleTaskResult_cases env o result with
    ⟨state, peer, n, hlookup, hsequence, hstage, hget⟩ | ⟨state, hlookup, hsequence, hstage⟩ |
      hnone
  · rw [handleTaskResult_of_next hlookup hsequence hstage hget]
    exact ⟨_, rfl, AList.lookup_insert_ne h.symm⟩
  · rw [handleTaskResult_of_last hlookup hsequence hstage]
    exact ⟨_, rfl, AList.lookup_erase_ne h.symm⟩
  · rw [hnone]
    exact .refl taskId o

variable [Scalar F]

theorem startSequence_of_other {rng : Entropy} {sequenceId : ℕ} {id : String} {tokens : List ℤ}
    {initialState : B} (h : id ≠ taskId) :
    SameTask taskId o (o.startSequence env rng sequenceId id tokens initialState).1 := by
  rcases startSequence_cases env o rng sequenceId id tokens initialState with
    ⟨n, rest, peer, sealed, hsorted, hparse, hstages, hseal⟩ | ⟨hsame, -⟩
  · rw [startSequence_of_sorted env hsorted hparse hstages hseal]
    exact ⟨_, rfl, AList.lookup_insert_ne h.symm⟩
  · rw [hsame]
    exact .refl taskId o

theorem SameTask.perform_other (same : SameTask taskId o o') {op : Op F P B}
    (hsequence : op.isMembership = false) (hother : op.concerns taskId = false) :
    SameTask taskId (o.perform env op).1 o' := by
  have hstep : SameTask taskId o (o.perform env op).1 := by
    cases op with
    | startSequence rng sequenceId id tokens initialState =>
      exact startSequence_of_other (of_decide_eq_false hother)
    | taskResult msg =>
      cases msg with
      | taskResult result => exact handleTaskResult_of_other (of_decide_eq_false hother)
      | _ => exact .refl taskId o
    | _ => cases hsequence
  obtain ⟨s, rfl, hs⟩ := same
  obtain ⟨s', heq, hs'⟩ := hstep
  rw [heq]
  exact ⟨s, rfl, hs.trans hs'.symm⟩

/-! ## Calls about the task -/

variable (env) in
omit [Scalar F] in
/-- A result finds the same sequence, the same stages and the same nodes. -/
theorem SameTask.handleTaskResult (same : SameTask taskId o o') {result : TaskResult F B}
    (h : result.taskId = taskId) :
    SameTask taskId (o.handleTaskResult env (.taskResult result)).1
        (o'.handleTaskResult env (.taskResult result)).1 ∧
      (o.handleTaskResult env (.taskResult result)).2 =
        (o'.handleTaskResult env (.taskResult result)).2 := by
  subst h
  obtain ⟨s, rfl, hs⟩ := same
  rcases handleTaskResult_cases env o result with
    ⟨state, peer, n, hlookup, hsequence, hstage, hget⟩ | ⟨state, hlookup, hsequence, hstage⟩ |
      hnone
  · rw [handleTaskResult_of_next hlookup hsequence hstage hget,
      handleTaskResult_of_next (o := o.withSequences s) (hs.trans hlookup) hsequence hstage hget]
    exact ⟨sameTask_withSequences (by rw [AList.lookup_insert, AList.lookup_insert]), rfl⟩
  · rw [handleTaskResult_of_last hlookup hsequence hstage,
      handleTaskResult_of_last (o := o.withSequences s) (hs.trans hlookup) hsequence hstage]
    exact ⟨sameTask_withSequences (by rw [AList.lookup_erase, AList.lookup_erase]), rfl⟩
  · rcases handleTaskResult_cases env (o.withSequences s) result with
      ⟨state, peer, n, hlookup, hsequence, hstage, hget⟩ | ⟨state, hlookup, hsequence, hstage⟩ |
        hnone'
    · rw [handleTaskResult_of_next (hs.symm.trans hlookup) hsequence hstage hget] at hnone
      cases congrArg Prod.snd hnone
    · rw [handleTaskResult_of_last (hs.symm.trans hlookup) hsequence hstage] at hnone
      cases congrArg Prod.snd hnone
    · rw [hnone, hnone']
      exact ⟨⟨s, rfl, hs⟩, rfl⟩

/-- A start depends on the nodes and the stages only. -/
theorem startSequence_withSequences (s : AList fun _ : String => SequenceState) (rng : Entropy)
    (sequenceId : ℕ) (taskId : String) (tokens : List ℤ) (initialState : B) :
    ((o.withSequences s).startSequence env rng sequenceId taskId tokens initialState).2 =
      (o.startSequence env rng sequenceId taskId tokens initialState).2 := by
  simp only [startSequence, withSequences]
  cases o.registry.sortedByCapacity with
  | nil => rfl
  | cons n rest =>
    cases hparse : env.peerIds.parse n.id with
    | error e => simp only [hparse]
    | ok peer =>
      cases hseal : env.crypto.sealState rng o.clusterKey taskId initialState with
      | error e => simp only [hparse]
      | ok sealed =>
        simp only [hparse, InferencePipeline.startSequence, InferencePipeline.withSequences]
        cases o.pipeline.pipelineStages <;> rfl

variable (env) in
theorem SameTask.startSequence (same : SameTask taskId o o') (rng : Entropy) (sequenceId : ℕ)
    (tokens : List ℤ) (initialState : B) :
    SameTask taskId (o.startSequence env rng sequenceId taskId tokens initialState).1
        (o'.startSequence env rng sequenceId taskId tokens initialState).1 ∧
      (o.startSequence env rng sequenceId taskId tokens initialState).2 =
        (o'.startSequence env rng sequenceId taskId tokens initialState).2 := by
  obtain ⟨s, rfl, hs⟩ := same
  have hanswer : ((o.withSequences s).startSequence env rng sequenceId taskId tokens
      initialState).2 = (o.startSequence env rng sequenceId taskId tokens initialState).2 :=
    startSequence_withSequences ..
  refine ⟨?_, hanswer.symm⟩
  rcases startSequence_cases env o rng sequenceId taskId tokens initialState with
    ⟨n, rest, peer, sealed, hsorted, hparse, hstages, hseal⟩ | ⟨hsame, hrefused⟩
  · rw [startSequence_of_sorted env hsorted hparse hstages hseal,
      startSequence_of_sorted (o := o.withSequences s) env hsorted hparse hstages hseal]
    exact sameTask_withSequences (by rw [AList.lookup_insert, AList.lookup_insert])
  · rw [hsame, startSequence_of_refused fun x => hanswer ▸ hrefused x]
    exact ⟨s, rfl, hs⟩

theorem SameTask.perform_own (same : SameTask taskId o o') {op : Op F P B}
    (hown : op.concerns taskId = true) :
    SameTask taskId (o.perform env op).1 (o'.perform env op).1 ∧
      (o.perform env op).2 = (o'.perform env op).2 := by
  cases op with
  | startSequence rng sequenceId id tokens initialState =>
    obtain rfl : id = taskId := of_decide_eq_true hown
    have hstart := same.startSequence env rng sequenceId tokens initialState
    exact ⟨hstart.1, congrArg Reply.started hstart.2⟩
  | taskResult msg =>
    cases msg with
    | taskResult result =>
      have hadvance := same.handleTaskResult env (of_decide_eq_true hown)
      exact ⟨hadvance.1, congrArg Reply.advanced hadvance.2⟩
    | _ => cases hown
  | _ => cases hown

/-! ## Whole runs -/

variable (env)

/-- However the calls of some sequences interleave, each task is answered as in a run of its own
calls. -/
theorem answersTo_alone (o : Orchestrator F P B) (taskId : String) (calls : List (Op F P B))
    (sequences : ∀ op ∈ calls, op.isMembership = false) :
    (machine env).answersTo (·.concerns taskId) o calls =
      (machine env).answers o (calls.filter (·.concerns taskId)) := by
  have own : ∀ (o o' : Orchestrator F P B) (op : Op F P B), SameTask taskId o o' →
      op.isMembership = false → op.concerns taskId = true →
        SameTask taskId ((machine env).step o op).1 ((machine env).step o' op).1 ∧
          ((machine env).step o op).2 = ((machine env).step o' op).2 :=
    fun _ _ _ same _ hown => same.perform_own hown
  have other : ∀ (o o' : Orchestrator F P B) (op : Op F P B), SameTask taskId o o' →
      op.isMembership = false → op.concerns taskId = false →
        SameTask taskId ((machine env).step o op).1 o' :=
    fun _ _ _ same hsequence hother => same.perform_other hsequence hother
  exact Mealy.answersTo_of_unwinding own other (.refl taskId o)
    ((machine env).guarded_of_forall o sequences)

/-- Two sequences on two stages, with a result for an unknown task and one with a wrong sequence id
in between. -/
def interleavedCalls : List (Op Float32 Ed25519PeerId Bytes) :=
  [startTask, .startSequence (fun _ => 0) 2 "other" [2] [],
    .taskResult (.taskResult { taskAnswer with taskId := "unknown" }),
    .taskResult (.taskResult { taskAnswer with taskId := "other" }),
    .taskResult (.taskResult taskAnswer),
    .taskResult (.taskResult { taskAnswer with taskId := "other", sequenceId := 2 })]

theorem answersTo_alone_two_sequences :
    let o := (machine Platform.reference).run (new 32 "secret" []) twoPeers
    (machine Platform.reference).answersTo (·.concerns "task") o interleavedCalls =
      (machine Platform.reference).answers o (interleavedCalls.filter (·.concerns "task")) :=
  answersTo_alone Platform.reference _ "task" interleavedCalls (by decide)

end Orchestrator

end NeuralSwarm
