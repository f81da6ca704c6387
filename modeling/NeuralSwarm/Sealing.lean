import NeuralSwarm.Sequences
import NeuralSwarm.Worker

/-!
# What a sealed state opens to

The orchestrator and the executors compress and encrypt states of any length; an executor refuses to
decompress more than 256 MiB.  So a state that was sealed opens, under the same key and task id, to
itself or, if it is longer than the limit, to an error.
-/

namespace NeuralSwarm

variable {F P S : Type}

/-- What the crates document, without a promise that encryption succeeds: decompression recovers
what fits its capacity and refuses the rest, and decryption undoes encryption. -/
structure Primitives.SealingLaws (prim : Primitives S) : Prop where
  decompress_of_le : ∀ data compressed capacity, prim.zstdCompress data 3 = .ok compressed →
    data.length ≤ capacity → prim.zstdDecompress compressed capacity = .ok data
  decompress_of_lt : ∀ data compressed capacity, prim.zstdCompress data 3 = .ok compressed →
    capacity < data.length → ∃ e, prim.zstdDecompress compressed capacity = .error e
  decrypt_encrypt : ∀ key nonce aad message ciphertext,
    prim.aes256GcmEncrypt key nonce aad message = .ok ciphertext →
      prim.aes256GcmDecrypt key nonce aad ciphertext = .ok message

/-- The executor hands the state to its backend, whichever that is, as long as the state fits the
limit, and fails otherwise. -/
structure Executor.ReceivesWithin (prim : Primitives S) (executor : Executor Bytes)
    (task : ProcessTask P Bytes) (state : Bytes) : Prop where
  receives : state.length ≤ Primitives.decompressLimit →
    ∀ {σ F : Type} (backend : InferenceBackend σ F Bytes) (s : σ),
      executor.injectState prim.crypto backend s task = backend.setState s state
  refuses : Primitives.decompressLimit < state.length →
    ∀ {σ F : Type} (backend : InferenceBackend σ F Bytes) (s : σ),
      ∃ e, executor.injectState prim.crypto backend s task = (s, .error e)

variable {prim : Primitives S}

namespace Primitives.SealingLaws

/-- What was encrypted is not empty and decrypts to the message. -/
theorem decrypt_of_encrypt (laws : prim.SealingLaws) {rng : Entropy}
    {data key aad encrypted : Bytes}
    (h : prim.crypto.encryptWithAad rng data key aad = .ok encrypted) :
    prim.crypto.isEmpty encrypted = false ∧
      prim.crypto.decryptWithAad encrypted key aad = .ok data := by
  have h : prim.encryptWithAad rng data key aad = .ok encrypted := h
  unfold encryptWithAad at h
  dsimp only at h
  split at h
  · cases h
  · rename_i ciphertext hencrypt
    cases h
    constructor
    · exact isEmpty_nonce_append rng ciphertext
    · simp only [crypto, decryptWithAad_nonce_append _ _ _ _ (rng.length_fillBytes 12),
        laws.decrypt_encrypt _ _ _ _ _ hencrypt]

/-- Under the key and the task id that it was sealed with, a state is received within the limit. -/
theorem receivesWithin_of_seal (laws : prim.SealingLaws) {rng : Entropy} {executor : Executor Bytes}
    {task : ProcessTask P Bytes} {state : Bytes}
    (h : prim.crypto.sealState rng executor.clusterKey task.taskId state = .ok task.inputState) :
    executor.ReceivesWithin prim task state := by
  unfold Crypto.sealState at h
  split at h
  · cases h
  · rename_i compressed hcompress
    split at h
    · cases h
    · rename_i encrypted hencrypt
      cases h
      obtain ⟨hempty, hdecrypt⟩ := laws.decrypt_of_encrypt hencrypt
      have hopen : prim.crypto.openState executor.clusterKey task.taskId task.inputState =
          prim.zstdDecompress compressed decompressLimit := by
        simp only [Crypto.openState, hdecrypt]
        rfl
      constructor
      · intro hle σ F backend s
        simp only [Executor.injectState, hempty, Bool.false_eq_true, if_false, hopen,
          laws.decompress_of_le _ _ _ hcompress hle]
      · intro hlt σ F backend s
        obtain ⟨e, he⟩ := laws.decompress_of_lt _ _ _ hcompress hlt
        refine ⟨e, ?_⟩
        simp only [Executor.injectState, hempty, Bool.false_eq_true, if_false, hopen, he]

end Primitives.SealingLaws

variable {σ : Type} [Scalar F]

/-- The state of a task that `start_sequence` issues, and the state that an executor returns with a
result, reach the backend of every executor of the cluster, for the same task id, if they have at
most 256 MiB; a longer one is refused. -/
theorem receivesWithin_of_issued (laws : prim.SealingLaws) (ids : PeerIds P)
    (receiver : Executor Bytes) (rng : Entropy) :
    (∀ (o : Orchestrator F P Bytes) sequenceId taskId tokens state peer task,
      o.clusterKey = receiver.clusterKey →
      (o.startSequence (prim.platform ids) rng sequenceId taskId tokens state).2 =
        .ok (some (peer, .processTask task)) → receiver.ReceivesWithin prim task state) ∧
    ∀ (sender : Executor Bytes) (backend : InferenceBackend σ F Bytes) s s'
      (message : SwarmMessage F P Bytes) result route state (task : ProcessTask P Bytes),
      sender.clusterKey = receiver.clusterKey →
      sender.runTask prim.crypto backend rng s message =
        (s', .ok (some (.taskResult result, route))) →
      backend.getState s' = .ok state →
      task.taskId = result.taskId → task.inputState = result.outputState →
      receiver.ReceivesWithin prim task state := by
  constructor
  · intro o sequenceId taskId tokens state peer task hkey hstart
    rcases Orchestrator.startSequence_cases (prim.platform ids) o rng sequenceId taskId tokens
      state with ⟨n, rest, first, sealed, hsorted, hparse, hstages, hseal⟩ | ⟨-, hnone⟩
    · rw [Orchestrator.startSequence_of_sorted _ hsorted hparse hstages hseal] at hstart
      cases hstart
      rw [hkey] at hseal
      exact laws.receivesWithin_of_seal hseal
    · exact absurd hstart (hnone _)
  · intro sender backend s s' message result route state task hkey hrun hget hid hinput
    obtain ⟨sent, -, -, logits, outputRaw, encrypted, -, -, -, -, hget', hseal, hresult, -⟩ :=
      Executor.runTask_eq_ok_some hrun
    cases hresult
    cases hget.symm.trans hget'
    have hid : task.taskId = sent.taskId := hid
    have hinput : task.inputState = encrypted := hinput
    rw [hkey, ← hid, ← hinput] at hseal
    exact laws.receivesWithin_of_seal hseal

/-! ## A state beyond the limit -/

theorem Primitives.reference_sealingLaws : reference.SealingLaws where
  decompress_of_le data compressed capacity h hlen := by
    cases h
    exact if_pos hlen
  decompress_of_lt data compressed capacity h hlen := by
    cases h
    exact ⟨_, if_neg (Nat.not_le.2 hlen)⟩
  decrypt_encrypt key nonce aad message ciphertext h := by
    obtain ⟨ciphertext', h', hdecrypt⟩ :=
      Primitives.reference_lawful.aes_roundTrip key nonce aad message
    cases h.symm.trans h'
    exact hdecrypt

/-- The result of the task of a first stage, with the sealed state of its backend. -/
def goodResult (sealed : Bytes) : TaskResult Float32 Bytes :=
  { taskId := "task", sequenceId := 1, outputState := sealed, logits := [Float32.ofInt 42 / 10.0] }

/-- The mock backend hands on whatever state it has. -/
theorem runTask_goodTask (executor : Executor Bytes) {state sealed : Bytes}
    (hseal : Primitives.reference.crypto.sealState (fun _ => 0) executor.clusterKey "task" state =
      .ok sealed) :
    executor.runTask Primitives.reference.crypto mockBackend (fun _ => 0) state
        (.processTask Executor.goodTask) =
      (state, .ok (some (.taskResult (goodResult sealed), none))) := by
  have hensure : mockBackend.ensureLayers state 0 32 = (state, .ok ()) := rfl
  have hinject : executor.injectState Primitives.reference.crypto mockBackend state
      Executor.goodTask = (state, .ok ()) := rfl
  have hlayers : mockBackend.runLayers state 0 32 [42] 1 =
      (state, .ok [Float32.ofInt 42 / 10.0]) := rfl
  have hget : mockBackend.getState state = .ok state := rfl
  unfold Executor.goodTask at hinject ⊢
  simp only [Executor.runTask, hensure, hinject, hlayers, hget, hseal, goodResult]

/-- A stage hands on a state that no executor accepts. -/
theorem not_receives_of_issued :
    ¬ ∀ (receiver sender : Executor Bytes) (backend : InferenceBackend Bytes Float32 Bytes)
        (s s' : Bytes) (message : SwarmMessage Float32 Ed25519PeerId Bytes)
        (result : TaskResult Float32 Bytes) (route : Option (RouteTicket Ed25519PeerId))
        (state : Bytes) (task : ProcessTask Ed25519PeerId Bytes),
      sender.clusterKey = receiver.clusterKey →
      sender.runTask Primitives.reference.crypto backend (fun _ => 0) s message =
        (s', .ok (some (.taskResult result, route))) →
      backend.getState s' = .ok state →
      task.taskId = result.taskId → task.inputState = result.outputState →
      receiver.injectState Primitives.reference.crypto backend s task =
        backend.setState s state := by
  intro h
  let executor : Executor Bytes := { deviceId := "node-1", clusterKey := [] }
  obtain ⟨state, hlong⟩ : ∃ state : Bytes, Primitives.decompressLimit < state.length :=
    ⟨List.replicate (Primitives.decompressLimit + 1) 0, by rw [List.length_replicate]; omega⟩
  obtain ⟨sealed, hseal⟩ := Primitives.reference_lawful.exists_seal (fun _ => 0)
    executor.clusterKey "task" state
  let next : ProcessTask Ed25519PeerId Bytes := { Executor.goodTask with inputState := sealed }
  have hreceived := h executor executor mockBackend state state _ _ none state next rfl
    (runTask_goodTask executor hseal) rfl rfl rfl
  have hreceives : executor.ReceivesWithin Primitives.reference next state :=
    Primitives.reference_sealingLaws.receivesWithin_of_seal hseal
  obtain ⟨e, hrefused⟩ := hreceives.refuses hlong mockBackend state
  rw [hrefused] at hreceived
  cases hreceived

/-- The first task of a sequence on two peers, and the result of a stage that holds three bytes. -/
theorem receivesWithin_of_issued_two_peers :
    let prim := Primitives.reference
    let o := announced (prim.platform .ed25519) 32 "secret" [] twoAnnouncements
    let executor : Executor Bytes := { deviceId := "node-1", clusterKey := [] }
    (∃ peer task, (o.startSequence (prim.platform .ed25519) (fun _ => 0) 1 "task" [42]
        [1, 2, 3]).2 = .ok (some (peer, .processTask task)) ∧
      executor.ReceivesWithin prim task [1, 2, 3]) ∧
    ∃ sealed, executor.runTask prim.crypto mockBackend (fun _ => 0) [1, 2, 3]
        (.processTask Executor.goodTask) =
          ([1, 2, 3], .ok (some (.taskResult (goodResult sealed), none))) ∧
      executor.ReceivesWithin prim { Executor.goodTask with inputState := sealed } [1, 2, 3] := by
  intro prim o executor
  obtain ⟨issued, handedOn⟩ := receivesWithin_of_issued (F := Float32) (σ := Bytes)
    Primitives.reference_sealingLaws .ed25519 executor (fun _ => 0)
  constructor
  · have hsome : (o.startSequence (prim.platform .ed25519) (fun _ => 0) 1 "task" [42]
        [1, 2, 3]).2.toOption.join.isSome = true := by decide +kernel
    rcases Orchestrator.startSequence_cases (prim.platform .ed25519) o (fun _ => 0) 1 "task" [42]
      [1, 2, 3] with ⟨n, rest, peer, sealed, hsorted, hparse, hstages, hseal⟩ | ⟨-, hnone⟩
    · have hstart := congrArg Prod.snd
        (Orchestrator.startSequence_of_sorted _ hsorted hparse hstages hseal 1 [42])
      exact ⟨peer, _, hstart, issued o 1 "task" [42] [1, 2, 3] peer _ (by decide +kernel) hstart⟩
    · cases hanswer : (o.startSequence (prim.platform .ed25519) (fun _ => 0) 1 "task" [42]
        [1, 2, 3]).2 with
      | error e => rw [hanswer] at hsome; cases hsome
      | ok answer =>
        cases answer with
        | none => rw [hanswer] at hsome; cases hsome
        | some x => exact absurd hanswer (hnone x)
  · obtain ⟨sealed, hseal⟩ := Primitives.reference_lawful.exists_seal (fun _ => 0)
      executor.clusterKey "task" [1, 2, 3]
    have hrun := runTask_goodTask executor hseal
    exact ⟨sealed, hrun, handedOn executor mockBackend [1, 2, 3] [1, 2, 3] _ _ none [1, 2, 3]
      { Executor.goodTask with inputState := sealed } rfl hrun rfl rfl rfl⟩

end NeuralSwarm
