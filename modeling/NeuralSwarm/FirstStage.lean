import NeuralSwarm.Sequences

/-!
# Where a sequence starts

`start_sequence` sends the first task to the strongest node of the moment, with the layers of that
node, while the route of the task is the list of stages of the last rebalance.  The two agree as
long as no status update changes the strongest node without a rebalance.
-/

namespace NeuralSwarm

variable {F P S B : Type} [Scalar F]

/-- An announced id is valid, and a status update that does not rebalance leaves the strongest node
where it is. -/
def Op.KeepsFirst (env : Platform P S B) (o : Orchestrator F P B) : Op F P B → Prop
  | .announce deviceId _ _ _ => env.peerIds.Valid deviceId
  | .statusUpdate deviceId status now =>
    (statusUpdate deviceId status now : Op F P B).rebalances o = true ∨
      ∀ n ∈ ((statusUpdate deviceId status now : Op F P B).written o).sortedByCapacity.head?,
        o.registry.sortedByCapacity.head?.map (·.id) = some n.id
  | _ => True

instance (env : Platform P S B) (o : Orchestrator F P B) :
    ∀ op : Op F P B, Decidable (op.KeepsFirst env o)
  | .announce deviceId _ _ _ => inferInstanceAs (Decidable (env.peerIds.Valid deviceId))
  | .statusUpdate deviceId status now =>
    inferInstanceAs (Decidable (_ = true ∨
      ∀ n ∈ ((Op.statusUpdate deviceId status now : Op F P B).written o).sortedByCapacity.head?,
        o.registry.sortedByCapacity.head?.map (·.id) = some n.id))
  | .drain _ | .heartbeat .. | .prune .. | .startSequence .. | .taskResult _ => .isTrue trivial

theorem Op.KeepsFirst.announcesValid {env : Platform P S B} {o : Orchestrator F P B} {op : Op F P B}
    (h : op.KeepsFirst env o) : op.AnnouncesValid env := by
  cases op with
  | announce => exact h
  | _ => trivial

namespace Orchestrator

variable (env : Platform P S B)

/-- What `start_sequence` promises its caller: the recipient is the peer that the route names as
current, and it computes from layer `0`. -/
def StartsAtFirstStage (o : Orchestrator F P B) : Prop :=
  ∀ rng sequenceId taskId tokens initialState peer task,
    (o.startSequence env rng sequenceId taskId tokens initialState).2 =
        .ok (some (peer, .processTask task)) →
      (∃ route, task.route = some route ∧ route.nodes[route.currentIndex]? = some peer) ∧
        task.startLayer = 0

/-- The strongest node is the first stage and its layers start at `0`. -/
def HeadIsFirst (o : Orchestrator F P B) : Prop :=
  ∀ n ∈ o.registry.sortedByCapacity.head?,
    (∃ peer, env.peerIds.parse n.id = .ok peer ∧
      o.pipeline.pipelineStages.head? = some peer) ∧
    n.assignedLayers.head?.getD 0 = 0

variable {env} {o : Orchestrator F P B}

theorem startsAtFirstStage_of_headIsFirst (h : o.HeadIsFirst env) : o.StartsAtFirstStage env := by
  intro rng sequenceId taskId tokens initialState peer task hstart
  rcases startSequence_cases env o rng sequenceId taskId tokens initialState with
    ⟨n, rest, peer', sealed, hsorted, hparse, hstages, hseal⟩ | ⟨-, hnone⟩
  · rw [startSequence_of_sorted env hsorted hparse hstages hseal] at hstart
    cases hstart
    obtain ⟨⟨p, hp, hstage⟩, hlayer⟩ := h n (by rw [hsorted]; rfl)
    cases hparse.symm.trans hp
    rw [List.head?_eq_getElem?] at hstage
    exact ⟨⟨_, rfl, hstage⟩, hlayer⟩
  · exact absurd hstart (hnone _)

variable (env)

theorem layerBlocks_head (totalLayers : ℕ) (sorted : List (NodeEntry F)) :
    ∀ block ∈ (layerBlocks totalLayers sorted).head?, block.head?.getD 0 = 0 := by
  rcases sorted with _ | ⟨n, rest⟩
  · rintro _ ⟨⟩
  · rintro _ ⟨⟩
    rcases Nat.eq_zero_or_pos (layerStop totalLayers (n :: rest) rest.isEmpty 0 n) with h | h
    · rw [h]
      rfl
    · obtain ⟨k, hk⟩ := Nat.exists_eq_succ_of_ne_zero h.ne'
      rw [hk, Nat.succ_eq_add_one, Nat.sub_zero, List.range'_succ]
      rfl

/-- A rebalance makes the strongest node the first stage. -/
theorem headIsFirst_rebalance {registry : NodeRegistry F} (own : registry.OwnIds)
    (valid : registry.ValidIds env.peerIds) : (o.rebalance env registry).HeadIsFirst env := by
  intro n hn
  rw [sortedByCapacity_rebalance env o own] at hn
  rw [rebalance_pipelineStages]
  have hhead := layerBlocks_head o.totalModelLayers.toNat registry.sortedByCapacity
  cases hsorted : registry.sortedByCapacity with
  | nil => rw [hsorted] at hn; cases hn
  | cons m rest =>
    rw [hsorted] at hn hhead
    obtain ⟨⟨key, hkey⟩, -⟩ :=
      NodeRegistry.mem_sortedByCapacity_iff.1 (hsorted ▸ List.mem_cons_self : m ∈ _)
    obtain ⟨peer, hpeer⟩ := valid key m hkey
    rw [← own key m hkey] at hpeer
    rw [layerBlocks, cutBlocks] at hn hhead
    cases hn
    refine ⟨⟨peer, hpeer, ?_⟩, hhead _ rfl⟩
    simp only [PeerIds.parseAll, List.map_cons, List.filterMap_cons, hpeer, Except.toOption,
      List.head?_cons]

/-- Calls other than a status update leave the order of the nodes as it is. -/
theorem sorted_ids_of_not_rebalances (own : o.registry.OwnIds) {op : Op F P B}
    (h : op.written o = ⟨o.registry.nodes.mapValues op.rewrite⟩)
    (hstatus : ∀ deviceId status now, op ≠ .statusUpdate deviceId status now) :
    (op.written o).sortedByCapacity.map (·.id) = o.registry.sortedByCapacity.map (·.id) := by
  have hsame : ∀ key n, (op.rewrite key n).capacity = n.capacity ∧
      (op.rewrite key n).state = n.state := by
    intro key n
    cases op with
    | statusUpdate deviceId status now => exact absurd rfl (hstatus deviceId status now)
    | heartbeat => simp only [Op.rewrite]; split_ifs <;> exact ⟨rfl, rfl⟩
    | _ => exact ⟨rfl, rfl⟩
  have hsorted : (⟨o.registry.nodes.mapValues op.rewrite⟩ : NodeRegistry F).sortedByCapacity =
      o.registry.sortedByCapacity.map fun n => op.rewrite n.id n :=
    NodeRegistry.sortedByCapacity_mapValues (fun id n hn => by rw [own id n hn])
      (fun n => op.rewrite_id n.id n) (fun n => (hsame n.id n).1)
      fun n _ => by rw [(hsame n.id n).2]
  rw [h, hsorted, List.map_map]
  exact List.map_congr_left fun n _ => op.rewrite_id n.id n

/-- A guarded call that does not rebalance keeps the strongest node at the first stage. -/
theorem headIsFirst_of_not_rebalances (own : o.registry.OwnIds) {op : Op F P B}
    (hop : op.rebalances o = false) (guard : op.KeepsFirst env o) (h : o.HeadIsFirst env) :
    (o.perform env op).1.HeadIsFirst env := by
  obtain ⟨activeSequences, heq⟩ := perform_of_not_rebalances env hop
  rw [heq]
  intro n hn
  have hn : n ∈ (op.written o).sortedByCapacity.head? := hn
  obtain ⟨⟨key, hkey⟩, -⟩ :=
    NodeRegistry.mem_sortedByCapacity_iff.1 (List.mem_of_mem_head? hn)
  rcases Op.written_of_not_rebalances hop with hempty | hrewrite
  · rw [hempty key] at hkey
    cases hkey
  · have hhead : o.registry.sortedByCapacity.head?.map (·.id) = some n.id := by
      by_cases hstatus : ∃ deviceId status now, op = .statusUpdate deviceId status now
      · obtain ⟨deviceId, status, now, rfl⟩ := hstatus
        rcases guard with hreb | hsame
        · rw [hop] at hreb
          cases hreb
        · exact hsame n hn
      · have hids := sorted_ids_of_not_rebalances own hrewrite
          fun deviceId status now heq => hstatus ⟨deviceId, status, now, heq⟩
        rw [← List.head?_map, ← hids, List.head?_map, hn]
        rfl
    obtain ⟨m, hm, hid⟩ := Option.map_eq_some_iff.1 hhead
    obtain ⟨⟨key', hkey'⟩, -⟩ :=
      NodeRegistry.mem_sortedByCapacity_iff.1 (List.mem_of_mem_head? hm)
    have hkeys : key' = key := by
      rw [← own key' m hkey', hid, Op.written_ownIds own op key n hkey]
    have hlayers : n.assignedLayers = m.assignedLayers := by
      rw [hrewrite] at hkey
      have hmap := (AList.lookup_mapValues op.rewrite o.registry.nodes key).symm.trans hkey
      rw [← hkeys, show o.registry.nodes.lookup key' = some m from hkey'] at hmap
      cases hmap
      exact op.rewrite_assignedLayers key' m
    rw [← hid, hlayers]
    exact h m hm

/-- In every run whose calls meet the guard, a sequence starts at its first stage. -/
theorem startsAtFirstStage_run (total : UInt32) (sharedSecret : String) (clusterKey : B)
    (ops : List (Op F P B))
    (guarded : (machine env).Guarded (fun o op => op.KeepsFirst env o)
      (new total sharedSecret clusterKey) ops) :
    ((machine env).run (new total sharedSecret clusterKey) ops).StartsAtFirstStage env := by
  have hinv : ∀ (o : Orchestrator F P B) (op : Op F P B),
      o.registry.OwnIds ∧ o.registry.ValidIds env.peerIds ∧ o.HeadIsFirst env →
      op.KeepsFirst env o →
        ((machine env).step o op).1.registry.OwnIds ∧
          ((machine env).step o op).1.registry.ValidIds env.peerIds ∧
          ((machine env).step o op).1.HeadIsFirst env := by
    rintro o op ⟨own, valid, hhead⟩ guard
    have hvalid := validIds_perform env own valid guard.announcesValid
    refine ⟨perform_ownIds env own op, hvalid, ?_⟩
    cases hop : op.rebalances o with
    | false => exact headIsFirst_of_not_rebalances env own hop guard hhead
    | true =>
      show (o.perform env op).1.HeadIsFirst env
      rw [perform_of_rebalances env hop]
      exact headIsFirst_rebalance env (Op.written_ownIds own op)
        (Op.validIds_written env valid guard.announcesValid)
  refine startsAtFirstStage_of_headIsFirst
    ((machine env).invariant hinv ⟨NodeRegistry.ownIds_empty, ?_, ?_⟩ guarded).2.2
  · intro id entry h
    cases h
  · rintro n ⟨⟩

/-! ## Two nodes that change places -/

theorem startsAtFirstStage_run_two_peers :
    ((machine Platform.reference).run (new 32 "secret" [])
      (twoPeers ++ [.statusUpdate peerB (makeStatus 0.45 12000) 2,
        .statusUpdate peerB (makeStatus 0.1 12000) 3])).StartsAtFirstStage Platform.reference :=
  startsAtFirstStage_run Platform.reference 32 "secret" [] _ (by decide +kernel)

/-- `peerB` overtakes `peerA` by less than `0.15`. -/
def overtaken : Orchestrator Float32 Ed25519PeerId Bytes :=
  (machine Platform.reference).run (new 32 "secret" [])
    (twoPeers ++ [.statusUpdate peerB (makeStatus 0.3 12000) 2])

/-- The task that `peerB` then receives, although its route says `peerA`. -/
def overtakenTask : ProcessTask Ed25519PeerId Bytes :=
  { taskId := "task"
    sequenceId := 1
    inputState :=
      (Platform.reference.crypto.sealState (fun _ => 0) [] "task" []).toOption.getD []
    startLayer := 17
    endLayer := 32
    tokens := [1]
    route := some
      { taskId := "task"
        sequenceId := 1
        nodes := PeerIds.ed25519.parseAll [peerA, peerB]
        currentIndex := 0 } }

theorem not_startsAtFirstStage_overtaken : ¬ overtaken.StartsAtFirstStage Platform.reference := by
  intro h
  have hstart : (overtaken.startSequence Platform.reference (fun _ => 0) 1 "task" [1] []).2 =
      .ok (some (⟨peerB, by decide +kernel⟩, .processTask overtakenTask)) := by decide +kernel
  exact absurd (h _ _ _ _ _ _ _ hstart).2 (by decide)

end Orchestrator

end NeuralSwarm
