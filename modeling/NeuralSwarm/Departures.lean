import NeuralSwarm.Joining
import NeuralSwarm.Membership

/-!
# Nodes that come and go

A rebalance decides by the entries that it finds, whatever led to them.  So guests leave no trace:
however some nodes announce themselves, report, are drained or pruned, once none of them is
registered any more all other entries and the stages are as in every other run that ends without
them (`same_without_guests`).  In particular a visit undoes itself, and the order in which nodes
depart, one after another or all in one prune, does not matter.
-/

namespace NeuralSwarm

variable {F P S B : Type}

/-- An entry but for the time of its last heartbeat. -/
def NodeEntry.unclocked (n : NodeEntry F) : NodeEntry F := { n with lastHeartbeat := 0 }

/-- What a rebalance sees of an entry and what it decides about it are the whole entry. -/
theorem NodeEntry.unclocked_eq {n m : NodeEntry F} (hview : n.joinView = m.joinView)
    (hassignment : n.assignment = m.assignment) : n.unclocked = m.unclocked := by
  have hlayers : n.assignedLayers = m.assignedLayers := congrArg (·.1) hassignment
  have hstate : n.state = m.state := congrArg (·.2.1) hassignment
  unfold joinView at hview
  rw [hstate] at hview
  by_cases haccept : m.state.canAcceptTasks
  · rw [if_pos haccept, if_pos haccept] at hview
    have := congrArg (fun n : NodeEntry F =>
      { n with state := m.state, assignedLayers := m.assignedLayers }) hview
    simpa only [unclocked, hlayers, hstate] using this
  · rw [if_neg haccept, if_neg haccept] at hview
    simpa only [unclocked, hstate] using hview

@[simp] theorem NodeEntry.joinView_unclocked (n : NodeEntry F) :
    n.unclocked.joinView = n.joinView := by
  have hstate : n.unclocked.state = n.state := rfl
  unfold joinView
  rw [hstate]
  split_ifs <;> rfl

@[simp] theorem NodeEntry.assignment_unclocked (n : NodeEntry F) :
    n.unclocked.assignment = n.assignment := rfl

section Unclocked

variable {registry registry' : NodeRegistry F}

/-- Entries that are the same but for their heartbeats. -/
def NodeRegistry.SameEntries (registry registry' : NodeRegistry F) : Prop :=
  ∀ id, (registry.get id).map (·.unclocked) = (registry'.get id).map (·.unclocked)

theorem NodeRegistry.view_eq_of_unclocked {id : String}
    (h : (registry.get id).map (·.unclocked) = (registry'.get id).map (·.unclocked)) :
    registry.view id = registry'.view id := by
  have hview := congrArg (Option.map fun n : NodeEntry F => n.joinView) h
  simp only [Option.map_map, Function.comp_def, NodeEntry.joinView_unclocked] at hview
  exact hview

theorem NodeRegistry.SameEntries.assignment (h : registry.SameEntries registry') (id : String) :
    (registry.get id).map (·.assignment) = (registry'.get id).map (·.assignment) := by
  have hassignment := congrArg (Option.map fun n : NodeEntry F => n.assignment) (h id)
  simpa only [Option.map_map, Function.comp_def, NodeEntry.assignment_unclocked] using hassignment

theorem NodeRegistry.sameEntries_of_views
    (hview : ∀ id, registry.view id = registry'.view id)
    (hassignment : ∀ id, (registry.get id).map (·.assignment) =
      (registry'.get id).map (·.assignment)) : registry.SameEntries registry' := by
  intro id
  have hid := hview id
  have hassigned := hassignment id
  unfold NodeRegistry.view at hid
  cases hn : registry.get id with
  | none =>
    rw [hn, Option.map_none, eq_comm, Option.map_eq_none_iff] at hid
    rw [hid]
  | some n =>
    rw [hn, Option.map_some, eq_comm, Option.map_eq_some_iff] at hid
    obtain ⟨m, hm, heq⟩ := hid
    rw [hn, hm, Option.map_some, Option.map_some, Option.some.injEq] at hassigned
    rw [hm]
    exact congrArg some (NodeEntry.unclocked_eq heq.symm hassigned)

end Unclocked

/-! ## At rest -/

namespace Orchestrator

variable (env : Platform P S B) {o o' : Orchestrator Float32 P B}

/-- A rebalance would assign the layers as they are. -/
def AtRest (o : Orchestrator Float32 P B) : Prop :=
  (∀ id, (o.registry.get id).map (·.assignment) =
      ((o.rebalance env o.registry).registry.get id).map (·.assignment)) ∧
    o.pipeline.pipelineStages = (o.rebalance env o.registry).pipeline.pipelineStages

theorem atRest_rebalance {registry : NodeRegistry Float32} (h : registry.Comparable) :
    (o.rebalance env registry).AtRest env := by
  have hview : ∀ id, registry.view id = (o.rebalance env registry).registry.view id :=
    fun id => (view_rebalance h.ownIds id).symm
  exact ⟨assignment_rebalance_congr rfl h (comparable_rebalance h) hview,
    pipelineStages_rebalance_congr h hview⟩

variable {env}

/-- At rest, the entries and the stages follow from what a rebalance sees. -/
theorem AtRest.eq (hrest : o.AtRest env) (hrest' : o'.AtRest env)
    (htotal : o.totalModelLayers = o'.totalModelLayers) (h : o.registry.Comparable)
    (h' : o'.registry.Comparable) (hview : ∀ id, o.registry.view id = o'.registry.view id) :
    o.registry.SameEntries o'.registry ∧
      o.pipeline.pipelineStages = o'.pipeline.pipelineStages := by
  constructor
  · refine NodeRegistry.sameEntries_of_views hview fun id => ?_
    rw [hrest.1, hrest'.1]
    exact assignment_rebalance_congr htotal h h' hview id
  · rw [hrest.2, hrest'.2]
    exact pipelineStages_rebalance_congr h hview

theorem AtRest.congr (hrest : o.AtRest env) (htotal : o.totalModelLayers = o'.totalModelLayers)
    (h : o.registry.Comparable) (h' : o'.registry.Comparable)
    (hsame : o.registry.SameEntries o'.registry)
    (hstages : o.pipeline.pipelineStages = o'.pipeline.pipelineStages) : o'.AtRest env := by
  have hview : ∀ id, o.registry.view id = o'.registry.view id :=
    fun id => NodeRegistry.view_eq_of_unclocked (hsame id)
  constructor
  · intro id
    rw [← hsame.assignment id, hrest.1]
    exact assignment_rebalance_congr htotal h h' hview id
  · rw [← hstages, hrest.2]
    exact pipelineStages_rebalance_congr h hview

end Orchestrator

/-! ## One call -/

/-- The call is about guests only; the others may send heartbeats. -/
def Op.AboutGuests (guests : List String) (o : Orchestrator F P B) : Op F P B → Prop
  | .announce deviceId .. | .statusUpdate deviceId .. | .drain deviceId => deviceId ∈ guests
  | .prune timeoutSecs now => ∀ id ∈ o.deadIds timeoutSecs now, id ∈ guests
  | .heartbeat .. | .startSequence .. | .taskResult _ => True

instance (guests : List String) (o : Orchestrator F P B) :
    ∀ op : Op F P B, Decidable (op.AboutGuests guests o)
  | .announce deviceId .. | .statusUpdate deviceId .. | .drain deviceId =>
    inferInstanceAs (Decidable (deviceId ∈ guests))
  | .prune timeoutSecs now =>
    inferInstanceAs (Decidable (∀ id ∈ o.deadIds timeoutSecs now, id ∈ guests))
  | .heartbeat .. | .startSequence .. | .taskResult _ => .isTrue trivial

theorem Op.AboutGuests.congr {guests : List String} {o p : Orchestrator F P B} {op : Op F P B}
    (about : op.AboutGuests guests o) (hget : ∀ id, p.registry.get id = o.registry.get id) :
    op.AboutGuests guests p := by
  cases op with
  | prune timeoutSecs now =>
    intro id hid
    rw [mem_deadIds_iff, hget, ← mem_deadIds_iff] at hid
    exact about id hid
  | announce | statusUpdate | drain | heartbeat | startSequence | taskResult => exact about

section Call

variable [Scalar F] {guests : List String} {o : Orchestrator F P B} {op : Op F P B}

/-- The writes of a call about guests leave all others alone. -/
theorem Op.unclocked_written (about : op.AboutGuests guests o) {id : String} (hid : id ∉ guests) :
    ((op.written o).get id).map (·.unclocked) = (o.registry.get id).map (·.unclocked) := by
  cases op with
  | announce deviceId profile initialStatus now =>
    obtain ⟨registry, hready, hget⟩ :=
      o.registry.markReady_register deviceId profile initialStatus now
    have hne : id ≠ deviceId := fun heq => hid (heq ▸ about)
    simp only [written, hready, Except.toOption, Option.getD_some, hget, if_neg hne]
  | statusUpdate deviceId status now =>
    have hne : id ≠ deviceId := fun heq => hid (heq ▸ about)
    rw [written, NodeRegistry.get_modify, Option.map_map]
    simp only [Function.comp_def, if_neg hne]
  | drain deviceId =>
    have hne : id ≠ deviceId := fun heq => hid (heq ▸ about)
    rw [written, NodeRegistry.get_remove, if_neg hne]
  | heartbeat deviceId now =>
    rw [written, NodeRegistry.heartbeat, NodeRegistry.get_modify, Option.map_map]
    congr 1
    funext entry
    by_cases heq : id = deviceId <;> simp [heq, NodeEntry.unclocked]
  | prune timeoutSecs now =>
    have hdead : id ∉ o.deadIds timeoutSecs now := fun hmem => hid (about id hmem)
    rw [written, NodeRegistry.get_foldl_remove, if_neg hdead]
  | startSequence | taskResult => rfl

/-- A call about guests that does not rebalance changes nothing at all, if the guests are gone then
and somebody is left. -/
theorem Op.sameEntries_written (about : op.AboutGuests guests o) (h : op.rebalances o = false)
    {host : String} (hleft : (op.written o).get host ≠ none)
    (hgone : ∀ id ∈ guests, (op.written o).get id = none) :
    o.registry.SameEntries (op.written o) := by
  intro id
  by_cases hid : id ∈ guests
  · have hget := hgone id hid
    rcases written_of_not_rebalances h with hnone | hwritten
    · exact absurd (hnone host) hleft
    · have hmap : (op.written o).get id = (o.registry.get id).map (op.rewrite id) := by
        rw [hwritten]
        exact AList.lookup_mapValues ..
      rw [hget, eq_comm, Option.map_eq_none_iff] at hmap
      rw [hget, hmap]
  · exact (unclocked_written about hid).symm

end Call

namespace Orchestrator

variable {env : Platform P S B} {guests : List String} {o o' : Orchestrator Float32 P B}

/-- What a call does: it rebalances what it has written, or only writes. -/
def Writes (env : Platform P S B) (o : Orchestrator Float32 P B)
    (registry : NodeRegistry Float32) (rebalances : Bool) (o' : Orchestrator Float32 P B) : Prop :=
  match rebalances with
  | true => o' = o.rebalance env registry
  | false => o'.registry = registry ∧ o'.totalModelLayers = o.totalModelLayers ∧
      o'.pipeline.pipelineStages = o.pipeline.pipelineStages

theorem writes_perform (o : Orchestrator Float32 P B) (op : Op Float32 P B) :
    Writes env o (op.written o) (op.rebalances o) (o.perform env op).1 := by
  cases hop : op.rebalances o with
  | true => exact perform_of_rebalances env hop
  | false =>
    obtain ⟨activeSequences, heq⟩ := perform_of_not_rebalances env hop
    rw [heq]
    exact ⟨rfl, rfl, rfl⟩

/-- The order of iteration makes no difference to what is written. -/
theorem exists_writes_performIn (env : Platform P S B) (order : IterationOrder Float32)
    (h : o.registry.Comparable) (op : Op Float32 P B) :
    ∃ (p : Orchestrator Float32 P B) (registry : NodeRegistry Float32),
      (∀ id, p.registry.get id = o.registry.get id) ∧ p.totalModelLayers = o.totalModelLayers ∧
        p.pipeline.pipelineStages = o.pipeline.pipelineStages ∧ registry.Comparable ∧
          (∀ id, registry.get id = (op.written p).get id) ∧
            Writes env p registry (op.rebalances p) (o.performIn env order op).1 := by
  cases op with
  | announce deviceId profile initialStatus now =>
    refine ⟨o, order.reorder ((Op.announce deviceId profile initialStatus now).written o),
      fun _ => rfl, rfl, rfl, (Op.comparable_written h _).reorder order, order.get_reorder _, ?_⟩
    exact handleAnnounceIn_eq order o deviceId profile initialStatus now
  | statusUpdate | drain | heartbeat | prune | startSequence | taskResult =>
    exact ⟨{ o with registry := order.reorder o.registry }, _, order.get_reorder _, rfl, rfl,
      Op.comparable_written (h.reorder order) _, fun _ => rfl, writes_perform ..⟩

/-! ## A run -/

/-- The guests have changed nothing that a rebalance sees of the others, and nothing at all as soon
as they are gone. -/
structure Hosts (env : Platform P S B) (guests : List String) (o o' : Orchestrator Float32 P B) :
    Prop where
  comparable : o'.registry.Comparable
  totalModelLayers : o'.totalModelLayers = o.totalModelLayers
  view : ∀ id, id ∉ guests → o'.registry.view id = o.registry.view id
  atRest : (∀ id ∈ guests, o'.registry.get id = none) → o'.AtRest env

theorem Hosts.performIn (hosts : Hosts env guests o o') {host : String} (hhost : host ∉ guests)
    (hregistered : o.registry.get host ≠ none) (order : IterationOrder Float32)
    {op : Op Float32 P B} (about : op.AboutGuests guests o') :
    Hosts env guests o (o'.performIn env order op).1 := by
  have hcomparable : (o'.performIn env order op).1.registry.Comparable :=
    comparable_performIn order hosts.comparable op
  obtain ⟨p, registry, hget, htotal, hstages, hregistry, hwritten, hwrites⟩ :=
    exists_writes_performIn env order hosts.comparable op
  replace about : op.AboutGuests guests p := about.congr hget
  have hview : ∀ id, id ∉ guests → registry.view id = o.registry.view id := by
    intro id hid
    rw [← hosts.view id hid]
    apply NodeRegistry.view_eq_of_unclocked
    rw [hwritten, op.unclocked_written about hid, hget]
  cases hop : op.rebalances p with
  | true =>
    rw [hop] at hwrites
    have hstep : (o'.performIn env order op).1 = p.rebalance env registry := hwrites
    rw [hstep] at hcomparable ⊢
    refine ⟨hcomparable, htotal.trans hosts.totalModelLayers, fun id hid => ?_, fun _ => ?_⟩
    · rw [view_rebalance hregistry.ownIds, hview id hid]
    · exact atRest_rebalance env hregistry
  | false =>
    rw [hop] at hwrites
    obtain ⟨hnew, hnewTotal, hnewStages⟩ := hwrites
    rw [← hnew] at hview hwritten
    refine ⟨hcomparable, hnewTotal.trans (htotal.trans hosts.totalModelLayers), hview,
      fun hgone => ?_⟩
    have hleft : (op.written p).get host ≠ none := by
      rw [← hwritten]
      intro hnone
      have hseen := hview host hhost
      rw [NodeRegistry.view, hnone, Option.map_none, eq_comm, NodeRegistry.view,
        Option.map_eq_none_iff] at hseen
      exact hregistered hseen
    have hsame : p.registry.SameEntries (op.written p) :=
      op.sameEntries_written about hop hleft fun id hid => (hwritten id).symm.trans (hgone id hid)
    have hsame' : o'.registry.SameEntries (o'.performIn env order op).1.registry := by
      intro id
      rw [hwritten, ← hsame id, hget]
    have hbefore : ∀ id ∈ guests, o'.registry.get id = none := by
      intro id hid
      have hid := hsame' id
      rw [hgone id ‹_›, Option.map_none, Option.map_eq_none_iff] at hid
      exact hid
    exact (hosts.atRest hbefore).congr (hnewTotal.trans htotal).symm hosts.comparable hcomparable
      hsame' (hnewStages.trans hstages).symm

/-- Comparable registries stay so, in whatever order they are iterated. -/
theorem comparable_run_shuffled (total : UInt32) (sharedSecret : String) (clusterKey : B)
    (history : List (IterationOrder Float32 × Op Float32 P B)) :
    ((shuffled env).run (new total sharedSecret clusterKey) history).registry.Comparable := by
  have preserved : ∀ (o : Orchestrator Float32 P B)
      (input : IterationOrder Float32 × Op Float32 P B), o.registry.Comparable →
        ((shuffled env).step o input).1.registry.Comparable :=
    fun _ input h => comparable_performIn input.1 h input.2
  have initial : (new total sharedSecret clusterKey :
      Orchestrator Float32 P B).registry.Comparable := by
    intro key n hn
    cases hn
  exact Mealy.Reachable.invariant (shuffled env) preserved initial ⟨history, rfl⟩

theorem Hosts.run (hosts : Hosts env guests o o') {host : String} (hhost : host ∉ guests)
    (hregistered : o.registry.get host ≠ none)
    {visit : List (IterationOrder Float32 × Op Float32 P B)}
    (guarded : (shuffled env).Guarded (fun o input => input.2.AboutGuests guests o) o' visit) :
    Hosts env guests o ((shuffled env).run o' visit) := by
  have preserved : ∀ (s : Orchestrator Float32 P B)
      (input : IterationOrder Float32 × Op Float32 P B), Hosts env guests o s →
        input.2.AboutGuests guests s → Hosts env guests o ((shuffled env).step s input).1 :=
    fun _ input hosts about => hosts.performIn hhost hregistered input.1 about
  exact (shuffled env).invariant preserved hosts guarded

end Orchestrator

/-- From every reachable state in which a guest is registered or the layers are at rest, two runs of
calls about guests, with any orders of iteration, end with the same entries but for the heartbeats
and with the same stages, if no guest is registered any more and there is somebody else. -/
theorem same_without_guests (env : Platform P S B) (total : UInt32) (sharedSecret : String)
    (clusterKey : B) (history : List (IterationOrder Float32 × Op Float32 P B))
    {guests : List String} {visit visit' : List (IterationOrder Float32 × Op Float32 P B)} :
    let M := Orchestrator.shuffled env
    let o := M.run (.new total sharedSecret clusterKey) history
    let AboutGuests (o : Orchestrator Float32 P B)
        (input : IterationOrder Float32 × Op Float32 P B) : Prop := input.2.AboutGuests guests o
    (∃ host, host ∉ guests ∧ o.registry.get host ≠ none) →
    ((∃ guest ∈ guests, o.registry.get guest ≠ none) ∨ o.AtRest env) →
    M.Guarded AboutGuests o visit → M.Guarded AboutGuests o visit' →
    (∀ guest ∈ guests, (M.run o visit).registry.get guest = none) →
    (∀ guest ∈ guests, (M.run o visit').registry.get guest = none) →
      (M.run o visit).registry.SameEntries (M.run o visit').registry ∧
        (M.run o visit).pipeline.pipelineStages = (M.run o visit').pipeline.pipelineStages := by
  intro M o AboutGuests hhost hstart guarded guarded' hgone hgone'
  obtain ⟨host, hhost, hregistered⟩ := hhost
  have hosts : Orchestrator.Hosts env guests o o := by
    refine ⟨Orchestrator.comparable_run_shuffled total sharedSecret clusterKey history, rfl,
      fun _ _ => rfl, fun hnone => ?_⟩
    rcases hstart with ⟨guest, hguest, hpresent⟩ | hrest
    · exact absurd (hnone guest hguest) hpresent
    · exact hrest
  have h := hosts.run hhost hregistered guarded
  have h' := hosts.run hhost hregistered guarded'
  refine (h.atRest hgone).eq (h'.atRest hgone') (h.totalModelLayers.trans h'.totalModelLayers.symm)
    h.comparable h'.comparable fun id => ?_
  by_cases hid : id ∈ guests
  · rw [NodeRegistry.view, NodeRegistry.view, hgone id hid, hgone' id hid]
  · rw [h.view id hid, h'.view id hid]

/-- A node that departs may have reported, and joined and fallen silent again before. -/
def leaving : List (IterationOrder Float32 × Op Float32 Ed25519PeerId Bytes) :=
  [(.asIs, .drain peerB)]

def rejoining : List (IterationOrder Float32 × Op Float32 Ed25519PeerId Bytes) :=
  [(.reversed, .statusUpdate peerB (makeStatus 0.9 2000) 5), (.asIs, .heartbeat peerA 20000000000),
    (.reversed, announcementB.op), (.reversed, .prune 10 15000000000)]

def shuffledRun (o : Orchestrator Float32 Ed25519PeerId Bytes)
    (inputs : List (IterationOrder Float32 × Op Float32 Ed25519PeerId Bytes)) :=
  (Orchestrator.shuffled Platform.reference).run o inputs

/-- Two nodes have joined. -/
def twoJoined : Orchestrator Float32 Ed25519PeerId Bytes :=
  shuffledRun (.new 32 "secret" []) (twoPeers.map fun op => (.asIs, op))

theorem same_without_guests_rejoining :
    (shuffledRun twoJoined leaving).registry.SameEntries
        (shuffledRun twoJoined rejoining).registry ∧
      (shuffledRun twoJoined leaving).pipeline.pipelineStages =
        (shuffledRun twoJoined rejoining).pipeline.pipelineStages := by
  have hhost : ∃ host, host ∉ [peerB] ∧ twoJoined.registry.get host ≠ none :=
    ⟨peerA, by decide, by decide +kernel⟩
  have hguest : ∃ guest ∈ [peerB], twoJoined.registry.get guest ≠ none :=
    ⟨peerB, by decide, by decide +kernel⟩
  have hgone : ∀ guest ∈ [peerB], (shuffledRun twoJoined leaving).registry.get guest = none := by
    decide +kernel
  have hgone' : ∀ guest ∈ [peerB], (shuffledRun twoJoined rejoining).registry.get guest = none := by
    decide +kernel
  have guarded : (Orchestrator.shuffled Platform.reference).Guarded
      (fun o input => input.2.AboutGuests [peerB] o) twoJoined leaving := by
    decide +kernel
  have guarded' : (Orchestrator.shuffled Platform.reference).Guarded
      (fun o input => input.2.AboutGuests [peerB] o) twoJoined rejoining := by
    decide +kernel
  unfold twoJoined shuffledRun at *
  exact same_without_guests Platform.reference 32 "secret" [] _ hhost (.inl hguest) guarded guarded'
    hgone hgone'

end NeuralSwarm
