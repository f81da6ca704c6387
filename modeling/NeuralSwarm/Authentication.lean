import NeuralSwarm.ConnectionFrame
import NeuralSwarm.Handshake

/-!
# Authentication against the network

The token hash of an `AuthResponse` is a code over the nonce of the socket under the shared secret.
The attacker cannot make one, not even in the runs in which it opens the cluster key, and an honest
client answers one challenge only.  So each authenticated connection has an honest client of its own
that answered its challenge (`authenticated_by_client`): no answer counts twice.
-/

namespace NeuralSwarm

open Symbolic

variable {F P : Type}

/-- The nonce of the challenge that each client has answered, by the number of the client. -/
abbrev Answers := ℕ → Option Message

/-- The record after an event: a client that awaits its challenge answers the one that it gets. -/
def Answers.note (answered : Answers) (net : Network F P) (e : NetworkEvent F P) (_ : Unit) :
    Answers :=
  match e with
  | .toClient number (.message (.authChallenge nonce _)) =>
    match net.clients[number]? with
    | some (.awaitingChallenge ..) => Function.update answered number (some nonce)
    | _ => answered
  | _ => answered

/-- The network with the record of the answers. -/
def Network.recordingAnswers [Scalar F] (peerIds : PeerIds P) :
    Mealy (Network F P × Answers) (NetworkEvent F P) Unit :=
  (machine peerIds).observe Answers.note

def Client.IsAwaitingChallenge {B : Type} : Client F B → Prop
  | .awaitingChallenge .. => True
  | _ => False

/-- The shared secret alone; here the cluster key may be known. -/
def Atom.IsSharedSecret (sharedSecret : String) : Atom → Prop
  | bytes b => b = sharedSecret.toUTF8.toList
  | _ => False

theorem Atom.IsPublic.not_isSharedSecret {sharedSecret : String} (a : Atom)
    (h : a.IsPublic sharedSecret) : ¬ a.IsSharedSecret sharedSecret := by
  cases a with
  | bytes b => exact h
  | nonce | clusterKey => exact h.elim

/-- The codes that clients have issued. -/
def Answers.issued (sharedSecret : String) (answered : Answers) : Set Message :=
  {t | ∃ number nonce, answered number = some nonce ∧ t = .mac (utf8 sharedSecret) nonce}

/-- A term that the network may see: an issued code, or a term that gives away the shared secret
under no choice of issued codes. -/
def Answers.Sendable (sharedSecret : String) (answered : Answers) (t : Message) : Prop :=
  t ∈ answered.issued sharedSecret ∨
    ∀ issued, Harmless (Atom.IsSharedSecret sharedSecret) SecretKey.IsAttackers issued t

/-! ## The invariant -/

structure AuthInv (sharedSecret : String) (x : Network F P × Answers) : Prop where
  secret_eq : x.1.server.sharedSecret = sharedSecret
  clusterKey_eq : x.1.server.orchestrator.clusterKey = .atom .clusterKey
  sent : ∀ t ∈ x.1.sent, x.2.Sendable sharedSecret t
  awaiting : ∀ (socket : ℕ) (nonce : Message) (mySecret : SecretKey),
    x.1.server.connections[socket]? = some (.awaitingResponse nonce mySecret) →
      nonce = .atom (.nonce socket)
  authenticated : ∀ (socket : ℕ) (nodeId : String) (sessionKey : Message),
    x.1.server.connections[socket]? = some (.authenticated nodeId sessionKey) →
      ∃ number, x.2 number = some (.atom (.nonce socket))
  answered : ∀ number, x.2 number ≠ none →
    ∃ client, x.1.clients[number]? = some client ∧ ¬ client.IsAwaitingChallenge

section Step

variable {peerIds : PeerIds P} {sharedSecret : String} {x : Network F P × Answers}

/-- A code over a nonce that the attacker can derive has been issued by a client. -/
theorem AuthInv.exists_answer (inv : AuthInv sharedSecret x) {nonce tokenHash : Message}
    (hderives : Attacker.Derives sharedSecret x.1.sent tokenHash)
    (hverify : symbolicCrypto.verifyHmac nonce sharedSecret tokenHash = true) :
    ∃ number, x.2 number = some nonce := by
  obtain rfl : .mac (utf8 sharedSecret) nonce = tokenHash := eq_of_beq hverify
  have hharmless : ∀ t ∈ x.1.sent, Harmless (Atom.IsSharedSecret sharedSecret)
      SecretKey.IsAttackers (x.2.issued sharedSecret) t := by
    intro t ht
    rcases inv.sent t ht with hissued | hall
    · obtain ⟨number, nonce', hanswer, rfl⟩ := hissued
      exact .inl ⟨number, nonce', hanswer, rfl⟩
    · exact hall _
  have hsecret : (Atom.bytes sharedSecret.toUTF8.toList).IsSharedSecret sharedSecret := rfl
  obtain ⟨number, nonce', hanswer, heq⟩ :=
    hderives.mem_issued Atom.IsPublic.not_isSharedSecret hharmless hsecret
  cases heq
  exact ⟨number, hanswer⟩

variable [Scalar F]

theorem AuthInv.openSocket (inv : AuthInv sharedSecret x) (challengeSent : Bool) :
    AuthInv sharedSecret
      ((Network.recordingAnswers peerIds).step x (.openSocket challengeSent)).1 := by
  show AuthInv sharedSecret (x.1.step peerIds (.openSocket challengeSent), x.2)
  cases challengeSent with
  | false =>
    simp only [Network.step, Network.serverStep, Server.step, Server.accept, Bool.false_eq_true,
      if_false, Option.toList_none, List.flatMap_nil, List.append_nil]
    refine ⟨inv.secret_eq, inv.clusterKey_eq, inv.sent, fun socket nonce mySecret h => ?_,
      fun socket nodeId sessionKey h => ?_, inv.answered⟩
    · rcases getElem?_concat_eq_some_iff.1 h with hold | ⟨-, hnew⟩
      · exact inv.awaiting socket nonce mySecret hold
      · cases hnew
    · rcases getElem?_concat_eq_some_iff.1 h with hold | ⟨-, hnew⟩
      · exact inv.authenticated socket nodeId sessionKey hold
      · cases hnew
  | true =>
    simp only [Network.step, Network.serverStep, Server.step, Server.accept, if_true,
      Option.toList_some, List.flatMap_singleton, SwarmMessage.byteStrings]
    refine ⟨inv.secret_eq, inv.clusterKey_eq, fun t ht => ?_, fun socket nonce mySecret h => ?_,
      fun socket nodeId sessionKey h => ?_, inv.answered⟩
    · rw [List.mem_append, List.mem_pair] at ht
      rcases ht with ht | rfl | rfl
      · exact inv.sent t ht
      · exact .inr fun _ h => h
      · exact .inr fun _ => trivial
    · rcases getElem?_concat_eq_some_iff.1 h with hold | ⟨rfl, hnew⟩
      · exact inv.awaiting socket nonce mySecret hold
      · cases hnew
        rfl
    · rcases getElem?_concat_eq_some_iff.1 h with hold | ⟨-, hnew⟩
      · exact inv.authenticated socket nodeId sessionKey hold
      · cases hnew

theorem AuthInv.startClient (inv : AuthInv sharedSecret x) (profile : NodeProfile)
    (status : NodeStatus F) :
    AuthInv sharedSecret
      ((Network.recordingAnswers peerIds).step x (.startClient profile status)).1 := by
  refine ⟨inv.secret_eq, inv.clusterKey_eq, inv.sent, inv.awaiting, inv.authenticated,
    fun number hnumber => ?_⟩
  obtain ⟨client, hclient, hanswered⟩ := inv.answered number hnumber
  refine ⟨client, ?_, hanswered⟩
  have hlt := (List.getElem?_eq_some_iff.1 hclient).1
  exact (List.getElem?_append_left hlt).trans hclient

omit [Scalar F] in
/-- An event at a client that answers nothing. -/
theorem AuthInv.silent (inv : AuthInv sharedSecret x) {number : ℕ}
    {client client' : Client F Message} (hclient : x.1.clients[number]? = some client)
    (hawaits : ¬ client'.IsAwaitingChallenge) :
    AuthInv sharedSecret ({ x.1 with clients := x.1.clients.set number client' }, x.2) := by
  refine ⟨inv.secret_eq, inv.clusterKey_eq, inv.sent, inv.awaiting, inv.authenticated,
    fun other hother => ?_⟩
  obtain ⟨old, hold, hanswered⟩ := inv.answered other hother
  by_cases heq : other = number
  · subst heq
    exact ⟨client', List.getElem?_set_self (List.getElem?_eq_some_iff.1 hclient).1, hawaits⟩
  · exact ⟨old, (List.getElem?_set_ne (Ne.symm heq)).trans hold, hanswered⟩

/-- A client answers the first challenge that it gets, and no other. -/
theorem AuthInv.answer (inv : AuthInv sharedSecret x) {number : ℕ} {profile : NodeProfile}
    {status : NodeStatus F} (nonce masterPublic : Message)
    (hclient : x.1.clients[number]? = some (.awaitingChallenge profile status)) :
    AuthInv sharedSecret ((Network.recordingAnswers peerIds).step x
      (.toClient number (.message (.authChallenge nonce masterPublic)))).1 := by
  have hnone : x.2 number = none := by
    by_contra hanswered
    obtain ⟨client, hother, hnot⟩ := inv.answered number hanswered
    rw [hclient] at hother
    cases hother
    exact hnot trivial
  have hkeeps : ∀ other nonce', x.2 other = some nonce' →
      Function.update x.2 number (some nonce) other = some nonce' := by
    intro other nonce' hother
    have hne : other ≠ number := by
      rintro rfl
      rw [hnone] at hother
      cases hother
    rw [Function.update_of_ne hne, hother]
  simp only [Network.recordingAnswers, Mealy.observe, Network.machine, Network.step, Answers.note,
    hclient, Client.receive]
  refine ⟨inv.secret_eq, inv.clusterKey_eq, fun t ht => ?_, inv.awaiting,
    fun socket nodeId sessionKey h => ?_, fun other hother => ?_⟩
  · simp only [List.flatMap_cons, SwarmMessage.byteStrings, List.flatMap_nil, List.append_nil,
      List.mem_append, List.mem_pair] at ht
    rcases ht with ht | rfl | rfl
    · rcases inv.sent t ht with ⟨other, nonce', hother, rfl⟩ | hall
      · exact .inl ⟨other, nonce', hkeeps other nonce' hother, rfl⟩
      · exact .inr hall
    · refine .inl ⟨number, nonce, Function.update_self .., ?_⟩
      rw [inv.secret_eq]
      rfl
    · exact .inr fun _ => trivial
  · obtain ⟨other, hother⟩ := inv.authenticated socket nodeId sessionKey h
    exact ⟨other, hkeeps other _ hother⟩
  · by_cases heq : other = number
    · subst heq
      exact ⟨_, List.getElem?_set_self (List.getElem?_eq_some_iff.1 hclient).1, id⟩
    · have hother : Function.update x.2 number (some nonce) other ≠ none := hother
      rw [Function.update_of_ne heq] at hother
      obtain ⟨client, hold, hanswered⟩ := inv.answered other hother
      exact ⟨client, (List.getElem?_set_ne (Ne.symm heq)).trans hold, hanswered⟩

omit [Scalar F] in
/-- Nothing but the first challenge is answered, and no client waits for another. -/
theorem receive_silent {client : Client F Message} {received : Received F P Message}
    (h : client.IsAwaitingChallenge → ∀ nonce masterPublic,
      received ≠ .message (.authChallenge nonce masterPublic)) (sharedSecret : String)
    (mySecret : SecretKey) :
    ¬ (client.receive symbolicCrypto sharedSecret mySecret received).1.IsAwaitingChallenge ∧
      (client.receive symbolicCrypto sharedSecret mySecret received).2 = [] := by
  cases client with
  | awaitingChallenge profile status =>
    cases received with
    | message msg =>
      cases msg with
      | authChallenge nonce masterPublic => exact absurd rfl (h trivial nonce masterPublic)
      | _ => exact ⟨id, rfl⟩
    | _ => exact ⟨id, rfl⟩
  | awaitingJoin sessionKey =>
    cases received with
    | message msg =>
      cases msg with
      | joinResponse assignedLayers totalLayers encrypted =>
        simp only [Client.receive]
        cases symbolicCrypto.decryptWithAad encrypted sessionKey
            (symbolicCrypto.asBytes clusterKeyAad) with
        | error e => exact ⟨id, rfl⟩
        | ok dec => exact ⟨id, rfl⟩
      | _ => exact ⟨id, rfl⟩
    | _ => exact ⟨id, rfl⟩
  | connected | failed | panicked => exact ⟨id, rfl⟩

theorem AuthInv.toClient (inv : AuthInv sharedSecret x) (number : ℕ)
    (received : Received F P Message) :
    AuthInv sharedSecret
      ((Network.recordingAnswers peerIds).step x (.toClient number received)).1 := by
  cases hclient : x.1.clients[number]? with
  | none =>
    have hnote : x.2.note x.1 (.toClient number received) () = x.2 := by
      unfold Answers.note
      split
      · rename_i heq
        cases heq
        rw [hclient]
      · rfl
    simpa only [Network.recordingAnswers, Mealy.observe, Network.machine, Network.step, hclient,
      hnote] using inv
  | some client =>
    by_cases hanswers : client.IsAwaitingChallenge ∧
        ∃ nonce masterPublic, received = .message (.authChallenge nonce masterPublic)
    · obtain ⟨hawaits, nonce, masterPublic, rfl⟩ := hanswers
      cases client with
      | awaitingChallenge profile status => exact inv.answer nonce masterPublic hclient
      | _ => exact hawaits.elim
    · have hsilent : client.IsAwaitingChallenge → ∀ nonce masterPublic,
          received ≠ .message (.authChallenge nonce masterPublic) :=
        fun hawaits nonce masterPublic heq => hanswers ⟨hawaits, nonce, masterPublic, heq⟩
      obtain ⟨hawaits, hmsgs⟩ := receive_silent hsilent x.1.server.sharedSecret
        (.client number)
      have hnote : x.2.note x.1 (.toClient number received) () = x.2 := by
        unfold Answers.note
        split
        · rename_i heq
          cases heq
          rw [hclient]
          cases client with
          | awaitingChallenge => exact absurd rfl (hsilent trivial _ _)
          | _ => rfl
        · rfl
      simp only [Network.recordingAnswers, Mealy.observe, Network.machine, Network.step, hclient,
        hnote, hmsgs, List.flatMap_nil, List.append_nil]
      exact inv.silent hclient hawaits

omit [Scalar F] in
/-- The connection of a socket after the socket has received something. -/
theorem AuthInv.update (inv : AuthInv sharedSecret x) {socket : ℕ}
    {connection : Connection SecretKey Message} {orchestrator : Orchestrator F P Message}
    {sent : List Message} (hkey : orchestrator.clusterKey = .atom .clusterKey)
    (hsent : ∀ t ∈ sent, x.2.Sendable sharedSecret t)
    (hawaiting : connection.isAwaiting = false)
    (hanswered : ∀ nodeId sessionKey, connection = .authenticated nodeId sessionKey →
      ∃ number, x.2 number = some (.atom (.nonce socket))) :
    AuthInv sharedSecret
      ({ x.1 with
          server :=
            { x.1.server with
              orchestrator
              connections := x.1.server.connections.set socket connection }
          sent := x.1.sent ++ sent }, x.2) := by
  have hset : ∀ (other : ℕ) (c : Connection SecretKey Message),
      (x.1.server.connections.set socket connection)[other]? = some c →
        x.1.server.connections[other]? = some c ∨ other = socket ∧ c = connection := by
    intro other c h
    by_cases heq : other = socket
    · subst heq
      have hlt := (List.getElem?_eq_some_iff.1 h).1
      rw [List.length_set] at hlt
      rw [List.getElem?_set_self hlt] at h
      cases h
      exact .inr ⟨rfl, rfl⟩
    · rw [List.getElem?_set_ne (Ne.symm heq)] at h
      exact .inl h
  refine ⟨inv.secret_eq, hkey, fun t ht => ?_, fun other nonce mySecret h => ?_,
    fun other nodeId sessionKey h => ?_, inv.answered⟩
  · exact (List.mem_append.1 ht).elim (inv.sent t) (hsent t)
  · rcases hset other _ h with hold | ⟨-, rfl⟩
    · exact inv.awaiting other nonce mySecret hold
    · cases hawaiting
  · rcases hset other _ h with hold | ⟨rfl, rfl⟩
    · exact inv.authenticated other nodeId sessionKey hold
    · exact hanswered nodeId sessionKey rfl

theorem AuthInv.toServer (inv : AuthInv sharedSecret x) {socket : ℕ}
    {received : Received F P Message} {rng : Entropy} {now : Instant}
    (possible : (NetworkEvent.toServer socket received rng now).Possible x.1) :
    AuthInv sharedSecret
      ((Network.recordingAnswers peerIds).step x (.toServer socket received rng now)).1 := by
  show AuthInv sharedSecret (x.1.step peerIds (.toServer socket received rng now), x.2)
  have idle (h : x.1.server.receive (symbolicPlatform peerIds) socket received rng now =
      (x.1.server, none)) :
      AuthInv sharedSecret (x.1.step peerIds (.toServer socket received rng now), x.2) := by
    simpa only [Network.step, Network.serverStep, Server.step, h, Option.toList_none,
      List.flatMap_nil, List.append_nil] using inv
  cases hconnection : x.1.server.connections[socket]? with
  | none => exact idle (by simp only [Server.receive, hconnection])
  | some connection =>
    cases connection with
    | awaitingResponse nonce mySecret =>
      simp only [Network.step, Network.serverStep, Server.step, Server.receive, hconnection,
        Option.toList_none, List.flatMap_nil]
      refine inv.update inv.clusterKey_eq (fun _ h => absurd h List.not_mem_nil)
        (authenticate_isAwaiting ..) fun nodeId sessionKey h => ?_
      obtain ⟨tokenHash, theirPublic, rfl, hverify, -⟩ := authenticate_eq_authenticated h
      have hderives := possible tokenHash (List.mem_cons_self ..)
      rw [inv.secret_eq] at hverify hderives
      obtain rfl := inv.awaiting socket nonce mySecret hconnection
      exact inv.exists_answer hderives hverify
    | authenticated nodeId sessionKey =>
      have hanswer := inv.authenticated socket nodeId sessionKey hconnection
      simp only [Network.step, Network.serverStep, Server.step,
        Server.receive_of_authenticated _ hconnection]
      refine inv.update ((serve_clusterKey ..).trans inv.clusterKey_eq) (fun t ht => ?_) ?_
        fun _ _ _ => hanswer
      · obtain ⟨iv, aad, rfl⟩ := byteStrings_serve peerIds _ _ _ _ _ _ t ht
        rw [inv.clusterKey_eq]
        exact .inr fun _ _ => id
      · rcases serve_connection (symbolicPlatform peerIds) x.1.server.orchestrator nodeId
          sessionKey rng now received with heq | heq <;> rw [heq] <;> rfl
    | returned => exact idle (Server.receive_of_returned _ hconnection)

theorem AuthInv.step (inv : AuthInv sharedSecret x) :
    ∀ e : NetworkEvent F P, e.Possible x.1 →
      AuthInv sharedSecret ((Network.recordingAnswers peerIds).step x e).1
  | .openSocket challengeSent, _ => inv.openSocket challengeSent
  | .startClient profile status, _ => inv.startClient profile status
  | .toServer .., possible => inv.toServer possible
  | .toClient number received, _ => inv.toClient number received

end Step

/-! ## Whole runs -/

/-- Whatever the attacker does, each authenticated connection has an honest client of its own that
answered its challenge. -/
theorem authenticated_by_client [Scalar F] (peerIds : PeerIds P) (total : UInt32)
    (sharedSecret : String) {events : List (NetworkEvent F P)}
    (attack : (Network.recordingAnswers peerIds).Guarded (fun x e => e.Possible x.1)
      (Network.new total sharedSecret, fun _ => none) events) :
    let x := (Network.recordingAnswers peerIds).run
      (Network.new total sharedSecret, fun _ => none) events
    let authenticated := {socket : ℕ | (x.1.server.nodeId socket).isSome}
    ∃ clientOf : ℕ → ℕ, Set.InjOn clientOf authenticated ∧
      ∀ socket ∈ authenticated, clientOf socket < x.1.clients.length ∧
        x.2 (clientOf socket) = some (.atom (.nonce socket)) := by
  intro x authenticated
  have initial : AuthInv sharedSecret ((Network.new total sharedSecret, fun _ => none) :
      Network F P × Answers) :=
    { secret_eq := rfl
      clusterKey_eq := rfl
      sent := by simp [Network.new]
      awaiting := by simp [Network.new, Server.new]
      authenticated := by simp [Network.new, Server.new]
      answered := fun _ h => absurd rfl h }
  have inv : AuthInv sharedSecret x :=
    Mealy.invariant _ (fun _ e inv possible => inv.step e possible) initial attack
  have hanswer : ∀ socket, ∃ number, socket ∈ authenticated →
      x.2 number = some (.atom (.nonce socket)) := by
    intro socket
    by_cases h : socket ∈ authenticated
    · obtain ⟨nodeId, hnodeId⟩ := Option.isSome_iff_exists.1 h
      obtain ⟨sessionKey, hconnection⟩ := Server.nodeId_eq_some_iff.1 hnodeId
      obtain ⟨number, hnumber⟩ := inv.authenticated socket nodeId sessionKey hconnection
      exact ⟨number, fun _ => hnumber⟩
    · exact ⟨0, fun hmem => absurd hmem h⟩
  choose clientOf hclientOf using hanswer
  refine ⟨clientOf, fun socket hsocket other hother heq => ?_, fun socket hsocket => ?_⟩
  · have hsame := (hclientOf socket hsocket).symm.trans (heq ▸ hclientOf other hother)
    cases hsame
    rfl
  · have hnumber := hclientOf socket hsocket
    obtain ⟨client, hclient, -⟩ := inv.answered (clientOf socket) (by simp [hnumber])
    exact ⟨(List.getElem?_eq_some_iff.1 hclient).1, hnumber⟩

/-- The run in which the attacker puts its own public key beside the hash of the client: the client
has answered the challenge of the connection all the same. -/
theorem authenticated_by_client_substituted :
    ∃ number, number < 1 ∧
      ((Network.recordingAnswers .ed25519).run (Network.new 32 "secret", fun _ => none)
        (challenged ++ joining (.publicKey (.attacker 0)))).2 number =
          some (.atom (.nonce 0)) := by
  have relayed : (Network.recordingAnswers .ed25519).Guarded (fun x e => e.Relays x.1)
      (Network.new 32 "secret", fun _ => none)
      (challenged ++ joining (.publicKey (.attacker 0))) := by
    decide +kernel
  obtain ⟨clientOf, -, h⟩ := authenticated_by_client .ed25519 32 "secret"
    (relayed.mono _ fun _ _ h => h.possible)
  obtain ⟨hlt, hanswer⟩ := h 0 (by decide +kernel)
  have hlength : ((Network.recordingAnswers .ed25519).run (Network.new 32 "secret", fun _ => none)
      (challenged ++ joining (.publicKey (.attacker 0)))).1.clients.length = 1 := by
    decide +kernel
  exact ⟨clientOf 0, hlength ▸ hlt, hanswer⟩

end NeuralSwarm
