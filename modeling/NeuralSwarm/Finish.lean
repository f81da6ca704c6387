import NeuralSwarm.Basic.Except
import NeuralSwarm.Traversal

/-!
# When a sequence may finish

A sequence finishes when its index runs past the list of stages of the moment.  That is the end of
the model if the task last issued for it was, by its own route, the last one; a rebalance that
shortens the list in between ends the sequence early.
-/

namespace NeuralSwarm

variable {F P S B : Type}

/-- The task that an answer issues, if it issues one. -/
def Reply.issued : Reply F P B → Option (ProcessTask P B)
  | .started (.ok (some (_, .processTask task))) => some task
  | .advanced (.ok (some (.nextStage _ (.processTask task)))) => some task
  | _ => none

/-- The task most recently issued for each task id. -/
abbrev Issued (P B : Type) := String → Option (ProcessTask P B)

/-- Records the task that a call issued. -/
def Issued.note (issued : Issued P B) (reply : Reply F P B) : Issued P B :=
  match reply.issued with
  | some task => Function.update issued task.taskId (some task)
  | none => issued

/-- The route of the task says that its stage is the last one. -/
def ProcessTask.RoutedLast (task : ProcessTask P B) : Prop :=
  ∀ route ∈ task.route, route.nextPeer = none

namespace Orchestrator

variable [Scalar F] (env : Platform P S B)

/-- The orchestrator together with the record of the issued tasks. -/
def recording : Mealy (Orchestrator F P B × Issued P B) (Op F P B) (Reply F P B) :=
  (machine env).observe fun issued _ _ reply => issued.note reply

/-- Every node that can accept tasks holds at least one layer. -/
def AllHold (o : Orchestrator F P B) : Prop := ∀ n ∈ o.registry.activeNodes, n.assignedLayers ≠ []

instance (o : Orchestrator F P B) : Decidable o.AllHold :=
  inferInstanceAs (Decidable (∀ n ∈ o.registry.activeNodes, n.assignedLayers ≠ []))

/-- What is asked of a call: announced ids are valid, a sequence on a single stage starts at that
stage, and a result that finds no next stage answers a task that was issued as the last one. -/
def KeepsFinish (x : Orchestrator F P B × Issued P B) : Op F P B → Prop
  | .announce deviceId _ _ _ => env.peerIds.Valid deviceId
  | .startSequence .. => x.1.pipeline.pipelineStages.length = 1 →
      ∀ n ∈ x.1.registry.sortedByCapacity.head?,
        (env.peerIds.parse n.id).toOption = x.1.pipeline.pipelineStages.head?
  | .taskResult (.taskResult result) => x.1.pipeline.getNextPeerId result.taskId = none →
      ∀ task ∈ x.2 result.taskId, task.RoutedLast
  | _ => True

instance (task : ProcessTask P B) : Decidable task.RoutedLast :=
  inferInstanceAs (Decidable (∀ route ∈ task.route, route.nextPeer = none))

instance [DecidableEq P] (x : Orchestrator F P B × Issued P B) :
    ∀ op : Op F P B, Decidable (KeepsFinish env x op)
  | .announce deviceId _ _ _ => inferInstanceAs (Decidable (env.peerIds.Valid deviceId))
  | .startSequence .. =>
    inferInstanceAs (Decidable (x.1.pipeline.pipelineStages.length = 1 →
      ∀ n ∈ x.1.registry.sortedByCapacity.head?,
        (env.peerIds.parse n.id).toOption = x.1.pipeline.pipelineStages.head?))
  | .taskResult msg =>
    match msg with
    | .taskResult result =>
      inferInstanceAs (Decidable (x.1.pipeline.getNextPeerId result.taskId = none →
        ∀ task ∈ x.2 result.taskId, task.RoutedLast))
    | .authChallenge .. | .authResponse .. | .nodeAnnounce .. | .joinResponse .. | .processTask _
    | .statusUpdate _ | .rebalanceCommand _ | .rebalanceAck _ | .drainRequest _ | .heartbeat =>
      .isTrue trivial
  | .statusUpdate .. | .drain _ | .heartbeat .. | .prune .. => .isTrue trivial

/-- The node of the last stage, if it is registered, has the last layers. -/
def LastStageEnds (o : Orchestrator F P B) : Prop :=
  ∀ peer ∈ o.pipeline.pipelineStages.getLast?,
    ∀ n, o.registry.get (env.peerIds.toString peer) = some n →
      n.layerRange.2 = o.totalModelLayers.toNat

/-- Every active sequence has an issued task, and a task issued as the last one ends the model. -/
def IssuedLastEnds (x : Orchestrator F P B × Issued P B) : Prop :=
  (∀ taskId state, x.1.pipeline.activeSequences.lookup taskId = some state →
    ∃ task, x.2 taskId = some task) ∧
  ∀ taskId task, x.2 taskId = some task →
    (∃ route, task.route = some route) ∧
      (task.RoutedLast → task.endLayer = x.1.totalModelLayers.toNat)

variable {env} {o : Orchestrator F P B}

/-- After a rebalance that leaves no node without a layer, the last stage has the last layers. -/
theorem lastStageEnds_rebalance {registry : NodeRegistry F} (own : registry.OwnIds)
    (valid : registry.ValidIds env.peerIds) (hold : (o.rebalance env registry).AllHold) :
    (o.rebalance env registry).LastStageEnds env := by
  obtain ⟨route, routed⟩ := exists_routed_rebalance o own (valid.of_sorted own)
  intro peer hpeer n hn
  rw [routed.stages, List.getLast?_map, Option.mem_def, Option.map_eq_some_iff] at hpeer
  obtain ⟨stage, hstage, rfl⟩ := hpeer
  have hget := routed.registered stage (List.mem_of_getLast? hstage)
  cases hn.symm.trans hget
  have hlayers := sorted_rebalance_layers env o own
  rw [routed.sorted, List.map_map] at hlayers
  have hlast : (layerBlocks o.totalModelLayers.toNat registry.sortedByCapacity).getLast? =
      some stage.2.assignedLayers := by
    rw [← hlayers, List.getLast?_map, hstage]
    rfl
  have hmem : ∀ stage ∈ route, stage.2.assignedLayers ≠ [] := by
    intro stage hstage
    refine hold stage.2 (((o.rebalance env registry).registry.sortedByCapacity_perm).mem_iff.1 ?_)
    rw [routed.sorted]
    exact List.mem_map_of_mem hstage
  have hnonempty : ∀ block ∈ layerBlocks o.totalModelLayers.toNat registry.sortedByCapacity,
      block ≠ [] := by
    rw [← hlayers]
    exact List.forall_mem_map.2 hmem
  have hsorted : registry.sortedByCapacity ≠ [] := by
    intro hnil
    rw [hnil] at hlast
    cases hlast
  have hlt := o.totalModelLayers.toNat_lt
  have hend := (layerBlocks_consecutive_of_nonempty hlt hsorted hnonempty).getLast_succ hlast
    (hmem stage (List.mem_of_getLast? hstage))
  show u32Add _ 1 = _
  rw [u32Add_of_lt (by omega)]
  exact hend

variable (env)

theorem lastStageEnds_perform (own : o.registry.OwnIds) (valid : o.registry.ValidIds env.peerIds)
    {op : Op F P B} (announces : op.AnnouncesValid env) (hold : (o.perform env op).1.AllHold)
    (h : o.LastStageEnds env) : (o.perform env op).1.LastStageEnds env := by
  cases hop : op.rebalances o with
  | true =>
    rw [perform_of_rebalances env hop] at hold ⊢
    exact lastStageEnds_rebalance (Op.written_ownIds own op)
      (Op.validIds_written env valid announces) hold
  | false =>
    obtain ⟨_, heq⟩ := perform_of_not_rebalances env hop
    rw [heq]
    intro peer hpeer n hn
    have hn : (op.written o).get (env.peerIds.toString peer) = some n := hn
    rcases Op.written_of_not_rebalances hop with hempty | hrewrite
    · rw [hempty] at hn
      cases hn
    · rw [hrewrite] at hn
      have hmap := (AList.lookup_mapValues op.rewrite o.registry.nodes _).symm.trans hn
      obtain ⟨m, hm, rfl⟩ := Option.map_eq_some_iff.1 hmap
      show (op.rewrite _ m).layerRange.2 = o.totalModelLayers.toNat
      rw [NodeEntry.layerRange, op.rewrite_assignedLayers]
      exact h peer hpeer m hm

omit [Scalar F] in
/-- A task with the layers of its stage, issued while the node of the last stage ends the model. -/
theorem endLayer_of_routedLast (h : o.LastStageEnds env) {index : ℕ} {peer : P} {n : NodeEntry F}
    (hstage : o.pipeline.pipelineStages[index]? = some peer)
    (hget : o.registry.get (env.peerIds.toString peer) = some n) {sequenceId : ℕ}
    {taskId : String} {tokens : List ℤ} {inputState : B}
    (hlast : (o.pipeline.stageTask index sequenceId taskId tokens inputState
      n.layerRange).RoutedLast) : n.layerRange.2 = o.totalModelLayers.toNat := by
  have hnone : o.pipeline.pipelineStages[index + 1]? = none := hlast _ rfl
  refine h peer ?_ n hget
  rw [List.getElem?_eq_none_iff] at hnone
  have hindex := (List.getElem?_eq_some_iff.1 hstage).1
  rw [List.getLast?_eq_getElem?, show o.pipeline.pipelineStages.length - 1 = index by omega]
  exact hstage

omit [Scalar F] in
/-- Issuing a task under the id of a sequence that it starts or advances. -/
theorem issuedLastEnds_issue {issued : Issued P B} (h : IssuedLastEnds (o, issued))
    (task : ProcessTask P B) (state : SequenceState) (hroute : ∃ route, task.route = some route)
    (hend : task.RoutedLast → task.endLayer = o.totalModelLayers.toNat) :
    IssuedLastEnds (o.withSequences (o.pipeline.activeSequences.insert task.taskId state),
      Function.update issued task.taskId (some task)) := by
  refine ⟨fun taskId state' hlookup => ?_, fun taskId task' htask => ?_⟩
  · by_cases hid : taskId = task.taskId
    · exact ⟨task, hid ▸ Function.update_self ..⟩
    · have hold : o.pipeline.activeSequences.lookup taskId = some state' :=
        (AList.lookup_insert_ne hid).symm.trans hlookup
      obtain ⟨task', htask'⟩ := h.1 taskId state' hold
      exact ⟨task', (Function.update_of_ne hid ..).trans htask'⟩
  · have htask : Function.update issued task.taskId (some task) taskId = some task' := htask
    by_cases hid : taskId = task.taskId
    · rw [hid, Function.update_self] at htask
      cases htask
      exact ⟨hroute, hend⟩
    · rw [Function.update_of_ne hid] at htask
      exact h.2 taskId task' htask

omit [Scalar F] in
/-- What a result does to the record of issued tasks. -/
theorem issuedLastEnds_handleTaskResult {issued : Issued P B} (h : IssuedLastEnds (o, issued))
    (hlast : o.LastStageEnds env) (result : TaskResult F B) :
    IssuedLastEnds ((o.handleTaskResult env (.taskResult result)).1,
      issued.note (.advanced (o.handleTaskResult env (.taskResult result)).2)) := by
  have active : ∀ taskId state', (o.handleTaskResult env
      (.taskResult result)).1.pipeline.activeSequences.lookup taskId = some state' →
      ∃ task, issued taskId = some task := by
    intro taskId state' hlookup'
    obtain ⟨before, hbefore, -⟩ := exists_lookup_of_handleTaskResult hlookup'
    exact h.1 taskId before hbefore
  rcases handleTaskResult_cases env o result with
    ⟨state, peer, n, hlookup, hsequence, hstage, hget⟩ | ⟨state, hlookup, hsequence, hstage⟩ | heq
  · rw [handleTaskResult_of_next hlookup hsequence hstage hget]
    exact issuedLastEnds_issue h
      (o.pipeline.stageTask (state.currentNodeIndex + 1) result.sequenceId result.taskId
        state.tokens result.outputState n.layerRange) _ ⟨_, rfl⟩
      (endLayer_of_routedLast env hlast hstage hget)
  · rw [handleTaskResult_of_last hlookup hsequence hstage] at active ⊢
    exact ⟨active, h.2⟩
  · rw [heq]
    exact h

/-- What the start of a sequence does to the record of issued tasks. -/
theorem issuedLastEnds_startSequence {issued : Issued P B} (own : o.registry.OwnIds)
    (h : IssuedLastEnds (o, issued)) (hlast : o.LastStageEnds env)
    (hsingle : o.pipeline.pipelineStages.length = 1 →
      ∀ n ∈ o.registry.sortedByCapacity.head?,
        (env.peerIds.parse n.id).toOption = o.pipeline.pipelineStages.head?)
    (rng : Entropy) (sequenceId : ℕ) (taskId : String) (tokens : List ℤ) (initialState : B) :
    IssuedLastEnds ((o.startSequence env rng sequenceId taskId tokens initialState).1,
      issued.note
        (.started (o.startSequence env rng sequenceId taskId tokens initialState).2)) := by
  rcases startSequence_cases env o rng sequenceId taskId tokens initialState with
    ⟨n, rest, peer, sealed, hsorted, hparse, hstages, hseal⟩ | ⟨hsame, hnone⟩
  · rw [startSequence_of_sorted env hsorted hparse hstages hseal]
    refine issuedLastEnds_issue h
      (o.pipeline.stageTask 0 sequenceId taskId tokens sealed n.layerRange) _ ⟨_, rfl⟩
      fun hrouted => ?_
    have hlen : o.pipeline.pipelineStages[0 + 1]? = none := hrouted _ rfl
    obtain ⟨first, others, hcons⟩ := List.exists_cons_of_ne_nil hstages
    have hothers : others = [] := by
      rw [hcons, List.getElem?_cons_succ] at hlen
      rcases others with _ | ⟨second, others⟩
      · rfl
      · cases hlen
    subst hothers
    have hfirst : env.peerIds.parse n.id = .ok first := by
      have hoption := hsingle (by rw [hcons]; rfl) n (by rw [hsorted]; rfl)
      rw [hparse, hcons] at hoption
      cases hoption
      exact hparse
    obtain ⟨⟨key, hkey⟩, -⟩ :=
      NodeRegistry.mem_sortedByCapacity_iff.1 (hsorted ▸ List.mem_cons_self : n ∈ _)
    refine hlast first (by rw [hcons]; rfl) n ?_
    rw [env.peerIds.toString_of_parse hfirst, own key n hkey]
    exact hkey
  · have hnote : issued.note
        (.started (o.startSequence env rng sequenceId taskId tokens initialState).2) = issued := by
      rcases Except.eq_none_or_error hnone with hanswer | ⟨e, hanswer⟩
      · rw [hanswer]
        rfl
      · rw [hanswer]
        rfl
    rw [hsame, hnote]
    exact h

/-- One guarded call keeps the record of issued tasks right. -/
theorem issuedLastEnds_step {x : Orchestrator F P B × Issued P B} (own : x.1.registry.OwnIds)
    (h : IssuedLastEnds x) (hlast : x.1.LastStageEnds env) {op : Op F P B}
    (guard : KeepsFinish env x op) : IssuedLastEnds ((recording env).step x op).1 := by
  obtain ⟨o, issued⟩ := x
  cases hmember : op.isMembership with
  | true =>
    have hsequences := perform_activeSequences env (o := o) hmember
    have hnote : issued.note (o.perform env op).2 = issued := by
      cases op with
      | startSequence => cases hmember
      | taskResult => cases hmember
      | _ => rfl
    show IssuedLastEnds ((o.perform env op).1, issued.note (o.perform env op).2)
    rw [hnote]
    refine ⟨fun taskId state hlookup => ?_, fun taskId task htask => ?_⟩
    · rw [hsequences] at hlookup
      exact h.1 taskId state hlookup
    · rw [(perform_config env o op).1]
      exact h.2 taskId task htask
  | false =>
    cases op with
    | startSequence rng sequenceId taskId tokens initialState =>
      exact issuedLastEnds_startSequence env own h hlast guard rng sequenceId taskId tokens
        initialState
    | taskResult msg =>
      cases msg with
      | taskResult result => exact issuedLastEnds_handleTaskResult env h hlast result
      | _ => exact h
    | _ => cases hmember

/-- What holds in every state of a guarded run. -/
structure RecordInv (total : UInt32) (x : Orchestrator F P B × Issued P B) : Prop where
  own : x.1.registry.OwnIds
  valid : x.1.registry.ValidIds env.peerIds
  total_eq : x.1.totalModelLayers = total
  lastStage : x.1.LastStageEnds env
  issued : IssuedLastEnds x

/-- The conditions of a call, and what it leaves. -/
def KeepsRecord (x : Orchestrator F P B × Issued P B) (op : Op F P B) : Prop :=
  KeepsFinish env x op ∧ (x.1.perform env op).1.AllHold

instance [DecidableEq P] (x : Orchestrator F P B × Issued P B) (op : Op F P B) :
    Decidable (KeepsRecord env x op) :=
  inferInstanceAs (Decidable (KeepsFinish env x op ∧ (x.1.perform env op).1.AllHold))

variable {env}

omit [Scalar F] in
theorem recordInv_new (total : UInt32) (sharedSecret : String) (clusterKey : B) :
    RecordInv env total
      ((new total sharedSecret clusterKey : Orchestrator F P B), fun _ => none) where
  own := NodeRegistry.ownIds_empty
  valid := by
    intro id entry h
    cases h
  total_eq := rfl
  lastStage := by
    rintro peer ⟨⟩
  issued := by
    refine ⟨fun taskId state hlookup => ?_, fun taskId task htask => ?_⟩
    · cases hlookup
    · cases htask

theorem recordInv_step {total : UInt32} {x : Orchestrator F P B × Issued P B} {op : Op F P B}
    (inv : RecordInv env total x) (guard : KeepsRecord env x op) :
    RecordInv env total ((recording env).step x op).1 := by
  obtain ⟨hfinish, hold⟩ := guard
  have announces : op.AnnouncesValid env := by
    cases op with
    | announce => exact hfinish
    | _ => trivial
  exact
    { own := perform_ownIds env inv.own op
      valid := validIds_perform env inv.own inv.valid announces
      total_eq := (perform_config env x.1 op).1.trans inv.total_eq
      lastStage := lastStageEnds_perform env inv.own inv.valid announces hold inv.lastStage
      issued := issuedLastEnds_step env inv.own inv.issued inv.lastStage hfinish }

variable (env)

/-- In a run whose calls meet the conditions and leave no accepting node without a layer, a result
finishes a sequence only if the task last issued for it ended with the last layer. -/
theorem finished_endLayer (total : UInt32) (sharedSecret : String) (clusterKey : B)
    (ops : List (Op F P B)) (result : TaskResult F B) :
    let init : Orchestrator F P B × Issued P B := (new total sharedSecret clusterKey, fun _ => none)
    (recording env).Guarded (KeepsRecord env) init (ops ++ [.taskResult (.taskResult result)]) →
    ∀ logits, (((recording env).run init ops).1.handleTaskResult env (.taskResult result)).2 =
        .ok (some (.finished logits)) →
      ∃ task, ((recording env).run init ops).2 result.taskId = some task ∧
        task.endLayer = total.toNat := by
  intro init guarded logits finished
  rw [Mealy.guarded_append] at guarded
  have inv : RecordInv env total ((recording env).run init ops) :=
    (recording env).invariant (fun _ _ => recordInv_step) (recordInv_new _ _ _) guarded.1
  have guard := guarded.2.1.1
  generalize (recording env).run init ops = x at inv guard finished
  rcases handleTaskResult_cases env x.1 result with
    ⟨state, peer, n, hlookup, hsequence, hstage, hget⟩ | ⟨state, hlookup, hsequence, hstage⟩ | heq
  · rw [handleTaskResult_of_next hlookup hsequence hstage hget] at finished
    cases finished
  · obtain ⟨task, htask⟩ := inv.issued.1 _ _ hlookup
    have hnone : x.1.pipeline.getNextPeerId result.taskId = none := by
      simp only [InferencePipeline.getNextPeerId, hlookup, hstage]
    have hend := (inv.issued.2 _ _ htask).2 (guard hnone task htask)
    exact ⟨task, htask, hend.trans (congrArg _ inv.total_eq)⟩
  · rw [heq] at finished
    cases finished

/-! ## A node that leaves while a sequence is under way -/

theorem finished_endLayer_two_peers :
    let init : Orchestrator Float32 Ed25519PeerId Bytes × Issued Ed25519PeerId Bytes :=
      (new 32 "secret" [], fun _ => none)
    let ops := twoPeers ++ [startTask, .taskResult (.taskResult taskAnswer)]
    ∃ task, ((recording Platform.reference).run init ops).2 "task" = some task ∧
      task.endLayer = (32 : UInt32).toNat :=
  finished_endLayer Platform.reference 32 "secret" [] _ taskAnswer (by decide +kernel) [0.5]
    (by decide +kernel)

/-- The first of two stages is computing when the second one leaves: its result finishes the
sequence at layer `17`. -/
theorem finished_early :
    let init : Orchestrator Float32 Ed25519PeerId Bytes × Issued Ed25519PeerId Bytes :=
      (new 32 "secret" [], fun _ => none)
    let ops := twoPeers ++ [startTask, .drain peerB]
    let x := (recording Platform.reference).run init ops
    (recording Platform.reference).Guarded (fun x op => op.AnnouncesValid Platform.reference ∧
        (x.1.perform Platform.reference op).1.AllHold) init ops ∧
      (x.1.handleTaskResult Platform.reference (.taskResult taskAnswer)).2 =
        .ok (some (.finished [0.5])) ∧
      (x.2 "task").map (·.endLayer) = some 17 := by
  decide +kernel

end Orchestrator

end NeuralSwarm
