import NeuralSwarm.Sequences

/-!
# A sequence from its first stage to its last

`runSequence` starts a sequence and then alternates between the workers, who compute the tasks they
are sent, and the orchestrator, who turns each result into the next task.  `Journey` says what the
workers do along the stages of a pipeline; while the membership does not change, the run is the
journey (`drive_of_journey`).
-/

namespace NeuralSwarm

variable {F P S B σ : Type}

/-- The state of all workers, and how the worker at a peer answers a message. -/
abbrev Work (F P B σ : Type) :=
  σ → P → SwarmMessage F P B → σ × Except String (Option (SwarmMessage F P B))

/-- What happens to a sequence: the messages sent, and the logits if it finishes. -/
structure Traversal (F P B σ : Type) where
  issued : List (P × SwarmMessage F P B)
  logits : Option (List F)
  workers : σ

variable (env : Platform P S B) (work : Work F P B σ)

/-- Sends a task and follows its sequence for at most `fuel` results. -/
def drive : ℕ → Orchestrator F P B → σ → P → SwarmMessage F P B → Traversal F P B σ
  | 0, _, s, peer, msg => ⟨[(peer, msg)], none, s⟩
  | fuel + 1, o, s, peer, msg =>
    match work s peer msg with
    | (s, .ok (some result)) =>
      match o.handleTaskResult env result with
      | (o, .ok (some (.nextStage peer' msg'))) =>
        let rest := drive fuel o s peer' msg'
        { rest with issued := (peer, msg) :: rest.issued }
      | (_, .ok (some (.finished logits))) => ⟨[(peer, msg)], some logits, s⟩
      | _ => ⟨[(peer, msg)], none, s⟩
    | (s, _) => ⟨[(peer, msg)], none, s⟩

/-- Starts a sequence and follows it. -/
def runSequence [Scalar F] (fuel : ℕ) (o : Orchestrator F P B) (s : σ) (rng : Entropy)
    (sequenceId : ℕ) (taskId : String) (tokens : List ℤ) (initialState : B) :
    Option (Traversal F P B σ) :=
  match o.startSequence env rng sequenceId taskId tokens initialState with
  | (o, .ok (some (peer, msg))) => some (drive env work fuel o s peer msg)
  | _ => none

/-- The workers of a list of stages answer one after the other, each computing on the output of the
one before. -/
inductive Journey (pipeline : InferencePipeline P) (sequenceId : ℕ) (taskId : String)
    (tokens : List ℤ) : ℕ → σ → B → List (P × NodeEntry F) → List (P × SwarmMessage F P B) → σ →
      List F → Prop
  | last {k : ℕ} {s s' : σ} {input output : B} {stage : P × NodeEntry F} {logits : List F}
      (answer : work s stage.1
          (.processTask (pipeline.stageTask k sequenceId taskId tokens input stage.2.layerRange)) =
        (s', .ok (some (.taskResult { taskId, sequenceId, outputState := output, logits })))) :
      Journey pipeline sequenceId taskId tokens k s input [stage]
        [(stage.1, .processTask
          (pipeline.stageTask k sequenceId taskId tokens input stage.2.layerRange))] s' logits
  | next {k : ℕ} {s s' s'' : σ} {input output : B} {stage stage' : P × NodeEntry F}
      {rest : List (P × NodeEntry F)} {tasks : List (P × SwarmMessage F P B)}
      {partialLogits logits : List F}
      (answer : work s stage.1
          (.processTask (pipeline.stageTask k sequenceId taskId tokens input stage.2.layerRange)) =
        (s', .ok (some (.taskResult
          { taskId, sequenceId, outputState := output, logits := partialLogits }))))
      (onward : Journey pipeline sequenceId taskId tokens (k + 1) s' output (stage' :: rest) tasks
        s'' logits) :
      Journey pipeline sequenceId taskId tokens k s input (stage :: stage' :: rest)
        ((stage.1, .processTask
          (pipeline.stageTask k sequenceId taskId tokens input stage.2.layerRange)) :: tasks)
        s'' logits

variable {env work}

theorem drive_of_next {fuel : ℕ} {o o' : Orchestrator F P B} {s s' : σ} {peer peer' : P}
    {msg msg' result : SwarmMessage F P B} (answer : work s peer msg = (s', .ok (some result)))
    (onward : o.handleTaskResult env result = (o', .ok (some (.nextStage peer' msg')))) :
    drive env work (fuel + 1) o s peer msg =
      { drive env work fuel o' s' peer' msg' with
        issued := (peer, msg) :: (drive env work fuel o' s' peer' msg').issued } := by
  simp only [drive, answer, onward]

theorem drive_of_finished {fuel : ℕ} {o o' : Orchestrator F P B} {s s' : σ} {peer : P}
    {msg result : SwarmMessage F P B} {logits : List F}
    (answer : work s peer msg = (s', .ok (some result)))
    (finished : o.handleTaskResult env result = (o', .ok (some (.finished logits)))) :
    drive env work (fuel + 1) o s peer msg = ⟨[(peer, msg)], some logits, s'⟩ := by
  simp only [drive, answer, finished]

/-- With the stages of the journey ahead and their nodes registered, the run is the journey. -/
theorem drive_of_journey {pipeline : InferencePipeline P} {sequenceId : ℕ} {taskId : String}
    {tokens : List ℤ} {k : ℕ} {s s' : σ} {input : B} {stages : List (P × NodeEntry F)}
    {tasks : List (P × SwarmMessage F P B)} {logits : List F}
    (journey : Journey work pipeline sequenceId taskId tokens k s input stages tasks s' logits)
    {o : Orchestrator F P B} {fuel : ℕ}
    (hpipeline : o.pipeline.pipelineStages = pipeline.pipelineStages)
    (hstages : pipeline.pipelineStages.drop k = stages.map (·.1))
    (hregistered : ∀ x ∈ stages, o.registry.get (env.peerIds.toString x.1) = some x.2)
    (hactive : o.pipeline.activeSequences.lookup taskId =
      some { sequenceId, taskId, tokens, currentNodeIndex := k })
    (hfuel : stages.length ≤ fuel) {stage : P × NodeEntry F} (hstage : stages.head? = some stage) :
    drive env work fuel o s stage.1 (.processTask
        (pipeline.stageTask k sequenceId taskId tokens input stage.2.layerRange)) =
      ⟨tasks, some logits, s'⟩ := by
  induction journey generalizing o fuel stage with
  | @last k s s' input output stage logits answer =>
    cases hstage
    obtain ⟨fuel, rfl⟩ := Nat.exists_eq_add_of_le' hfuel
    have hnone : o.pipeline.pipelineStages[k + 1]? = none := by
      have hlen := congrArg List.length hstages
      rw [List.length_drop, List.length_map, List.length_singleton] at hlen
      rw [hpipeline, List.getElem?_eq_none_iff]
      omega
    have hlast : o.handleTaskResult env (.taskResult
        { taskId, sequenceId, outputState := output, logits }) =
          (o.withSequences (o.pipeline.activeSequences.erase taskId),
            .ok (some (.finished logits))) :=
      Orchestrator.handleTaskResult_of_last hactive rfl hnone
    exact drive_of_finished answer hlast
  | @next k s s' s'' input output stage stage' rest tasks partialLogits logits answer onward ih =>
    cases hstage
    obtain ⟨fuel, rfl⟩ := Nat.exists_eq_add_of_le' hfuel
    have hnext : o.pipeline.pipelineStages[k + 1]? = some stage'.1 := by
      rw [hpipeline, ← List.getElem?_drop, hstages]
      rfl
    have htail : pipeline.pipelineStages.drop (k + 1) = (stage' :: rest).map (·.1) := by
      rw [← List.tail_drop, hstages]
      rfl
    let result : TaskResult F B :=
      { taskId, sequenceId, outputState := output, logits := partialLogits }
    let state : SequenceState := { sequenceId, taskId, tokens, currentNodeIndex := k }
    have hlookup : o.pipeline.activeSequences.lookup result.taskId = some state := hactive
    have hresult := Orchestrator.handleTaskResult_of_next hlookup rfl hnext
      (hregistered stage' (by simp))
    have honward : drive env work (fuel + rest.length + 1)
        (o.withSequences (o.pipeline.activeSequences.insert taskId
          { sequenceId, taskId, tokens, currentNodeIndex := k + 1 })) s' stage'.1
        (.processTask (pipeline.stageTask (k + 1) sequenceId taskId tokens output
          stage'.2.layerRange)) = ⟨tasks, some logits, s''⟩ := by
      refine ih ?_ htail (fun x hx => ?_) ?_ ?_ rfl
      · exact hpipeline
      · exact hregistered x (List.mem_cons_of_mem _ hx)
      · exact AList.lookup_insert _
      · rw [List.length_cons]
        omega
    have hstageTask : o.pipeline.stageTask (state.currentNodeIndex + 1) result.sequenceId
        result.taskId state.tokens result.outputState stage'.2.layerRange =
          pipeline.stageTask (k + 1) sequenceId taskId tokens output stage'.2.layerRange := by
      simp only [InferencePipeline.stageTask, hpipeline]
      rfl
    rw [hstageTask] at hresult
    rw [show fuel + (stage :: stage' :: rest).length = fuel + rest.length + 1 + 1 from rfl,
      drive_of_next answer hresult, honward]

/-! ## The route of a rebalance -/

/-- The nodes of the route are the sorted nodes and the stages their parsed ids. -/
structure Orchestrator.Routed [Scalar F] (env : Platform P S B) (o : Orchestrator F P B)
    (route : List (P × NodeEntry F)) : Prop where
  sorted : o.registry.sortedByCapacity = route.map (·.2)
  stages : o.pipeline.pipelineStages = route.map (·.1)
  parsed : ∀ stage ∈ route, env.peerIds.parse stage.2.id = .ok stage.1
  registered : ∀ stage ∈ route, o.registry.get (env.peerIds.toString stage.1) = some stage.2

theorem Orchestrator.exists_routed_rebalance [Scalar F] (o : Orchestrator F P B)
    {registry : NodeRegistry F} (own : registry.OwnIds)
    (valid : ∀ n ∈ registry.sortedByCapacity, env.peerIds.Valid n.id) :
    ∃ route, (o.rebalance env registry).Routed env route := by
  have hids := sorted_rebalance_ids env o own
  have valid' : ∀ n ∈ (o.rebalance env registry).registry.sortedByCapacity,
      env.peerIds.Valid n.id := by
    intro n hn
    obtain ⟨m, hm, hid⟩ := List.mem_map.1 (hids ▸ List.mem_map_of_mem hn)
    exact hid ▸ valid m hm
  obtain ⟨route, hsorted, hstages, hparsed⟩ := env.peerIds.exists_parseAll valid'
  refine ⟨route, hsorted.symm, ?_, hparsed, fun stage hstage => ?_⟩
  · rw [rebalance_pipelineStages, hstages, hids]
  · obtain ⟨⟨key, hkey⟩, -⟩ :=
      NodeRegistry.mem_sortedByCapacity_iff.1 (hsorted ▸ List.mem_map_of_mem hstage)
    rw [env.peerIds.toString_of_parse (hparsed stage hstage),
      rebalance_ownIds env o own key stage.2 hkey]
    exact hkey

/-- The state after a call that rebalances, in a run whose announced ids are valid. -/
def Orchestrator.JustRebalanced [Scalar F] (env : Platform P S B) (o : Orchestrator F P B) : Prop :=
  ∃ total sharedSecret clusterKey ops op,
    (∀ op' ∈ ops ++ [op], Op.AnnouncesValid env op') ∧
      op.rebalances ((machine env).run (new total sharedSecret clusterKey) ops) = true ∧
      o = (machine env).run (new total sharedSecret clusterKey) (ops ++ [op])

theorem announced_justRebalanced [Scalar F] (total : UInt32) (sharedSecret : String)
    (clusterKey : B) {nodes : List (Announcement F)} (hne : nodes ≠ [])
    (valid : ∀ a ∈ nodes, env.peerIds.Valid a.deviceId) :
    (announced env total sharedSecret clusterKey nodes).JustRebalanced env := by
  obtain ⟨nodes, a, rfl⟩ := (List.eq_nil_or_concat' nodes).resolve_left hne
  refine ⟨total, sharedSecret, clusterKey, nodes.map Announcement.op, a.op, ?_, rfl, ?_⟩
  · have hmap : nodes.map Announcement.op ++ [(a.op : Op F P B)] =
        (nodes ++ [a]).map Announcement.op := by
      rw [List.map_append]
      rfl
    rw [hmap]
    exact List.forall_mem_map.2 valid
  · rw [announced, List.map_append]
    rfl

theorem Orchestrator.JustRebalanced.exists_routed [Scalar F] {o : Orchestrator F P B}
    (fresh : o.JustRebalanced env) : ∃ route, o.Routed env route := by
  obtain ⟨total, sharedSecret, clusterKey, ops, op, announces, hop, rfl⟩ := fresh
  obtain ⟨own, hvalid, -⟩ := run_of_announcesValid env total sharedSecret clusterKey
    fun op' hop' => announces op' (List.mem_append_left _ hop')
  have own' := Op.written_ownIds own op
  have hvalid' := Op.validIds_written env hvalid (announces op (by simp))
  rw [Mealy.run_concat, show ∀ o, ((machine env).step o op).1 = (o.perform env op).1 from
    fun _ => rfl, perform_of_rebalances env hop]
  exact exists_routed_rebalance _ own' (hvalid'.of_sorted own')

/-- After a rebalance, a run of a sequence is a journey along the route. -/
theorem runSequence_of_journey [Scalar F] {o : Orchestrator F P B}
    {route : List (P × NodeEntry F)} (routed : o.Routed env route) {rng : Entropy}
    {sequenceId : ℕ} {taskId : String} {tokens : List ℤ} {initialState sealed : B}
    (hseal : env.crypto.sealState rng o.clusterKey taskId initialState = .ok sealed) {s s' : σ}
    {tasks : List (P × SwarmMessage F P B)} {logits : List F}
    (journey : Journey work o.pipeline sequenceId taskId tokens 0 s sealed route tasks s' logits)
    {fuel : ℕ} (hfuel : route.length ≤ fuel) :
    runSequence env work fuel o s rng sequenceId taskId tokens initialState =
      some ⟨tasks, some logits, s'⟩ := by
  obtain ⟨stage, rest, rfl⟩ : ∃ stage rest, route = stage :: rest := by
    cases journey
    · exact ⟨_, _, rfl⟩
    · exact ⟨_, _, rfl⟩
  have hstages : o.pipeline.pipelineStages ≠ [] := by
    rw [routed.stages]
    exact List.cons_ne_nil _ _
  have hparse := routed.parsed stage (List.mem_cons_self ..)
  rw [runSequence, Orchestrator.startSequence_of_sorted env routed.sorted hparse hstages hseal]
  refine congrArg some (drive_of_journey journey ?_ ?_ ?_ ?_ hfuel rfl)
  · rfl
  · exact routed.stages
  · exact routed.registered
  · exact AList.lookup_insert _

end NeuralSwarm
