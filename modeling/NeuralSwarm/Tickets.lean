import NeuralSwarm.Sequences

/-!
# The route ticket and the master

A task carries the stages of its sequence and the index of its own; the master keeps an index for
each sequence and looks one stage ahead.  While the stages stay fixed, the two count alike: after
`k` accepted results both stand at stage `k`, and the sequence ends with the result of the last one.
-/

namespace NeuralSwarm

variable {F P B : Type}

/-- The calls of the pipeline about sequences, with the layers that the caller has looked up. -/
inductive PipelineCall (F P B : Type)
  | start (sequenceId : ℕ) (taskId : String) (tokens : List ℤ) (initialState : B)
      (firstNodeLayers : ℕ × ℕ)
  | result (msg : SwarmMessage F P B) (nextNodeLayers : ℕ × ℕ)

/-- What they return. -/
inductive PipelineReply (F P B : Type)
  | started (first : Option (P × SwarmMessage F P B))
  | advanced (outcome : Option (PipelineResult F P B))

namespace PipelineCall

def starts (taskId : String) : PipelineCall F P B → Bool
  | start _ id .. => id = taskId
  | result .. => false

/-- Whether a call brings a result with the ids of a sequence. -/
def carries (taskId : String) (sequenceId : ℕ) : PipelineCall F P B → Bool
  | result (.taskResult r) _ => r.taskId = taskId ∧ r.sequenceId = sequenceId
  | _ => false

end PipelineCall

/-- The ticket of the task that a reply issues for a task id. -/
def PipelineReply.ticket (taskId : String) : PipelineReply F P B → Option (RouteTicket P)
  | started (some (_, .processTask task)) => if task.taskId = taskId then task.route else none
  | advanced (some (.nextStage _ (.processTask task))) =>
    if task.taskId = taskId then task.route else none
  | _ => none

namespace InferencePipeline

def call (pipeline : InferencePipeline P) :
    PipelineCall F P B → InferencePipeline P × PipelineReply F P B
  | .start sequenceId taskId tokens initialState firstNodeLayers =>
    (pipeline.startSequence sequenceId taskId tokens initialState firstNodeLayers).map id .started
  | .result msg nextNodeLayers => (pipeline.handleTaskResult msg nextNodeLayers).map id .advanced

/-- The pipeline with fixed stages as a machine. -/
def machine : Mealy (InferencePipeline P) (PipelineCall F P B) (PipelineReply F P B) := ⟨call⟩

/-- The pipeline with the ticket of the task it has just issued for a task id. -/
def ticketing (taskId : String) : Mealy (InferencePipeline P × Option (RouteTicket P))
    (PipelineCall F P B) (PipelineReply F P B) :=
  machine.observe fun ticket _ _ reply => (reply.ticket taskId).or ticket

/-- The ticket of a sequence at stage `index`. -/
def stageTicket (pipeline : InferencePipeline P) (index sequenceId : ℕ) (taskId : String) :
    RouteTicket P :=
  { taskId, sequenceId, nodes := pipeline.pipelineStages, currentIndex := index }

/-- After `k` accepted results: the index of the sequence, which has ended if there is no stage `k`,
and the ticket of its task. -/
structure AtStage (pipeline : InferencePipeline P) (sequenceId : ℕ) (taskId : String)
    (tokens : List ℤ) (k : ℕ) (x : InferencePipeline P × Option (RouteTicket P)) : Prop where
  stages_eq : x.1.pipelineStages = pipeline.pipelineStages
  active_eq : x.1.activeSequences.lookup taskId =
    if k < pipeline.pipelineStages.length then
      some { sequenceId, taskId, tokens, currentNodeIndex := k }
    else none
  ticket_eq : k < pipeline.pipelineStages.length →
    x.2 = some (pipeline.stageTicket k sequenceId taskId)

variable {pipeline : InferencePipeline P} {sequenceId : ℕ} {taskId : String} {tokens : List ℤ}
  {k : ℕ} {x : InferencePipeline P × Option (RouteTicket P)}

/-! ## The three kinds of calls -/

theorem atStage_start (hne : pipeline.pipelineStages ≠ []) (ticket : Option (RouteTicket P))
    (initialState : B) (layers : ℕ × ℕ) :
    AtStage pipeline sequenceId taskId tokens 0 ((ticketing (F := F) taskId).step (pipeline, ticket)
      (.start sequenceId taskId tokens initialState layers)).1 := by
  obtain ⟨first, rest, hstages⟩ := List.exists_cons_of_ne_nil hne
  have hstart := startSequence_of_stages (F := F) hstages sequenceId taskId tokens initialState
    layers
  simp only [ticketing, machine, Mealy.observe, call, hstart, Prod.map, id]
  refine ⟨rfl, ?_, fun _ => ?_⟩
  · rw [if_pos (List.length_pos_of_ne_nil hne)]
    exact AList.lookup_insert _
  · simp only [PipelineReply.ticket, stageTask, if_true]
    rfl

/-- A result with the ids of the sequence moves it by one stage, and the ticket with it. -/
theorem AtStage.carried (h : AtStage pipeline sequenceId taskId tokens k x)
    {result : TaskResult F B} (htask : result.taskId = taskId)
    (hsequence : result.sequenceId = sequenceId) (layers : ℕ × ℕ) :
    AtStage pipeline sequenceId taskId tokens (k + 1)
      ((ticketing taskId).step x (.result (.taskResult result) layers)).1 := by
  subst htask hsequence
  obtain ⟨p, ticket⟩ := x
  obtain ⟨hstages, hactive, hticket⟩ := h
  simp only [ticketing, machine, Mealy.observe, call, Prod.map, id] at *
  by_cases hk : k < pipeline.pipelineStages.length
  · rw [if_pos hk] at hactive
    by_cases hnext : k + 1 < pipeline.pipelineStages.length
    · have hstage : p.pipelineStages[k + 1]? = some pipeline.pipelineStages[k + 1] := by
        rw [hstages]
        exact List.getElem?_eq_getElem hnext
      rw [handleTaskResult_of_next layers hactive rfl hstage]
      refine ⟨hstages, ?_, fun _ => ?_⟩
      · rw [if_pos hnext]
        exact AList.lookup_insert _
      · simp only [PipelineReply.ticket, stageTask, if_true, hstages]
        rfl
    · have hstage : p.pipelineStages[k + 1]? = none := by
        rw [hstages]
        exact List.getElem?_eq_none (Nat.le_of_not_lt hnext)
      rw [handleTaskResult_of_last layers hactive rfl hstage]
      refine ⟨hstages, ?_, fun hlt => absurd hlt hnext⟩
      rw [if_neg hnext]
      exact AList.lookup_erase _ _
  · rw [if_neg hk] at hactive
    rw [handleTaskResult_of_unknown layers hactive]
    refine ⟨hstages, ?_, fun hlt => absurd hlt (by omega)⟩
    rw [if_neg (by omega)]
    exact hactive

/-- Every other call that does not start the task again leaves sequence and ticket alone. -/
theorem AtStage.other (h : AtStage pipeline sequenceId taskId tokens k x) {c : PipelineCall F P B}
    (hstarts : c.starts taskId = false) (hcarries : c.carries taskId sequenceId = false) :
    AtStage pipeline sequenceId taskId tokens k ((ticketing taskId).step x c).1 := by
  obtain ⟨p, ticket⟩ := x
  obtain ⟨hstages, hactive, hticket⟩ := h
  -- a call that touches another task keeps this one, and its ticket is not noted
  have frame : ∀ (s : AList fun _ : String => SequenceState) (reply : PipelineReply F P B),
      s.lookup taskId = p.activeSequences.lookup taskId → reply.ticket taskId = none →
        AtStage pipeline sequenceId taskId tokens k
          (p.withSequences s, (reply.ticket taskId).or ticket) := by
    intro s reply hs hreply
    rw [hreply]
    exact ⟨hstages, hs.trans hactive, hticket⟩
  cases c with
  | start sequenceId' id tokens' initialState layers =>
    have hid : id ≠ taskId := of_decide_eq_false hstarts
    cases hp : p.pipelineStages with
    | nil =>
      simp only [ticketing, machine, Mealy.observe, call, startSequence, hp]
      exact ⟨hstages, hactive, hticket⟩
    | cons first rest =>
      have hstart := startSequence_of_stages (F := F) hp sequenceId' id tokens' initialState layers
      simp only [ticketing, machine, Mealy.observe, call, hstart, Prod.map]
      exact frame _ (.started _) (AList.lookup_insert_ne hid.symm) (if_neg hid)
  | result msg layers =>
    cases msg with
    | taskResult result =>
      simp only [ticketing, machine, Mealy.observe, call, Prod.map]
      cases hlookup : p.activeSequences.lookup result.taskId with
      | none =>
        rw [handleTaskResult_of_unknown layers hlookup]
        exact ⟨hstages, hactive, hticket⟩
      | some state =>
        by_cases hsequence : state.sequenceId = result.sequenceId
        · have hid : result.taskId ≠ taskId := by
            intro htask
            rw [htask, hactive] at hlookup
            split_ifs at hlookup
            cases hlookup
            exact absurd hcarries (by simp [PipelineCall.carries, htask, hsequence.symm])
          cases hstage : p.pipelineStages[state.currentNodeIndex + 1]? with
          | some peer =>
            rw [handleTaskResult_of_next layers hlookup hsequence hstage]
            exact frame _ (.advanced _) (AList.lookup_insert_ne hid.symm) (if_neg hid)
          | none =>
            rw [handleTaskResult_of_last layers hlookup hsequence hstage]
            exact frame _ (.advanced _) (AList.lookup_erase_ne hid.symm) rfl
        · rw [handleTaskResult_of_mismatch layers hlookup hsequence]
          exact ⟨hstages, hactive, hticket⟩
    | _ => exact ⟨hstages, hactive, hticket⟩

/-! ## Whole runs -/

/-- The stage of a sequence is the number of its results so far. -/
theorem atStage_run (hne : pipeline.pipelineStages ≠ []) (sequenceId : ℕ) (tokens : List ℤ)
    (initialState : B) (layers : ℕ × ℕ) {calls : List (PipelineCall F P B)}
    (once : ∀ c ∈ calls, c.starts taskId = false) :
    AtStage pipeline sequenceId taskId tokens (calls.countP (·.carries taskId sequenceId))
      ((ticketing taskId).run (pipeline, none)
        (.start sequenceId taskId tokens initialState layers :: calls)) := by
  rw [Mealy.run_cons]
  induction calls using List.reverseRecOn with
  | nil => exact atStage_start hne none initialState layers
  | append_singleton calls c ih =>
    have hbefore := ih fun c hc => once c (List.mem_append_left _ hc)
    rw [Mealy.run_concat, List.countP_append, List.countP_singleton]
    cases hcarries : c.carries taskId sequenceId with
    | false => exact hbefore.other (once c (by simp)) hcarries
    | true =>
      cases c with
      | start => cases hcarries
      | result msg layers =>
        cases msg with
        | taskResult result =>
          obtain ⟨htask, hsequence⟩ := of_decide_eq_true hcarries
          exact hbefore.carried htask hsequence layers
        | _ => cases hcarries

/-- The `k`-th result of a sequence over `n` stages is forwarded to stage `k`, to the peer that the
ticket of the task just issued names next; the `n`-th ends the sequence, whose ticket then names
nobody; all further ones are ignored. -/
theorem tickets_agree (pipeline : InferencePipeline P) (hne : pipeline.pipelineStages ≠ [])
    (sequenceId : ℕ) (taskId : String) (tokens : List ℤ) (initialState : B) (layers : ℕ × ℕ)
    (calls : List (PipelineCall F P B)) (once : ∀ c ∈ calls, c.starts taskId = false)
    (result : TaskResult F B) (htask : result.taskId = taskId)
    (hsequence : result.sequenceId = sequenceId) (nextNodeLayers : ℕ × ℕ) :
    let n := pipeline.pipelineStages.length
    let x := (ticketing taskId).run (pipeline, none)
      (.start sequenceId taskId tokens initialState layers :: calls)
    let k := calls.countP (·.carries taskId sequenceId) + 1
    let outcome := x.1.handleTaskResult (.taskResult result : SwarmMessage F P B) nextNodeLayers
    (k < n → ∃ peer ticket, pipeline.pipelineStages[k]? = some peer ∧
      outcome.2 = some (.nextStage peer (.processTask (pipeline.stageTask k sequenceId taskId tokens
        result.outputState nextNodeLayers))) ∧
      x.2 = some ticket ∧ ticket.nextPeer = some peer) ∧
    (k = n → outcome.2 = some (.finished result.logits) ∧
      outcome.1.activeSequences.lookup taskId = none ∧
      ∃ ticket, x.2 = some ticket ∧ ticket.nextPeer = none) ∧
    (n < k → outcome.2 = none) := by
  intro n x k outcome
  obtain ⟨j, hj⟩ : ∃ j, calls.countP (·.carries taskId sequenceId) = j := ⟨_, rfl⟩
  obtain ⟨hstages, hactive, hticket⟩ : AtStage pipeline sequenceId taskId tokens j x :=
    hj ▸ atStage_run hne sequenceId tokens initialState layers once
  have hk : k = j + 1 := congrArg (· + 1) hj
  rw [hk]
  subst htask hsequence
  refine ⟨fun hlt => ?_, fun heq => ?_, fun hgt => ?_⟩
  · have hstage : pipeline.pipelineStages[j + 1]? = some pipeline.pipelineStages[j + 1] :=
      List.getElem?_eq_getElem hlt
    have hmaster : x.1.pipelineStages[j + 1]? = some pipeline.pipelineStages[j + 1] := by
      rw [hstages, hstage]
    rw [if_pos (show j < n by omega)] at hactive
    refine ⟨_, _, hstage, ?_, hticket (by omega), hstage⟩
    simp only [outcome, handleTaskResult_of_next nextNodeLayers hactive rfl hmaster, stageTask,
      hstages]
  · have hstage : pipeline.pipelineStages[j + 1]? = none :=
      List.getElem?_eq_none (show n ≤ j + 1 by omega)
    have hmaster : x.1.pipelineStages[j + 1]? = none := by rw [hstages, hstage]
    rw [if_pos (show j < n by omega)] at hactive
    have hlast := handleTaskResult_of_last (F := F) nextNodeLayers hactive rfl hmaster
    refine ⟨by simp only [outcome, hlast], ?_, _, hticket (by omega), hstage⟩
    simp only [outcome, hlast]
    exact AList.lookup_erase _ _
  · rw [if_neg (show ¬ j < n by omega)] at hactive
    simp only [outcome, handleTaskResult_of_unknown nextNodeLayers hactive]

/-! ## Two stages -/

/-- The start of another task, and a result of `"task"` with a wrong sequence id. -/
def callsBetween : List (PipelineCall Float32 Ed25519PeerId Bytes) :=
  [.start 2 "other" [] [] (0, 17),
    .result (.taskResult { taskAnswer with sequenceId := 2 }) (17, 32)]

theorem tickets_agree_two_stages :
    let pipeline := announced Platform.reference 32 "secret" [] twoAnnouncements |>.pipeline
    let x := (ticketing "task").run (pipeline, none)
      (.start 1 "task" [1] [] (0, 17) :: callsBetween)
    ∃ peer ticket, pipeline.pipelineStages[1]? = some peer ∧
      (x.1.handleTaskResult (.taskResult taskAnswer) (17, 32)).2 =
        some (.nextStage peer (.processTask (pipeline.stageTask 1 1 "task" [1] [] (17, 32)))) ∧
      x.2 = some ticket ∧ ticket.nextPeer = some peer :=
  (tickets_agree (announced Platform.reference 32 "secret" [] twoAnnouncements).pipeline
    (by decide +kernel) 1 "task" [1] [] (0, 17) callsBetween (by decide) taskAnswer rfl rfl
    (17, 32)).1 (by decide +kernel)

end InferencePipeline

end NeuralSwarm
