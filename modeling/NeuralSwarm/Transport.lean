import NeuralSwarm.Basic.Machine
import NeuralSwarm.Orchestrator

/-!
# Transport

The two ends of a WebSocket connection: `handle_socket` of the server and `connect_to_cluster` of
the client.  The server is a machine over all its connections, which share one orchestrator; a
socket is known by its number, in the order of acceptance.  Nonces, key pairs, random bytes and
clock readings are arguments.
-/

namespace NeuralSwarm

variable {F P S B : Type}

/-- What `receiver.next()` yields. -/
inductive Received (F P B : Type)
  /-- A binary frame that deserializes. -/
  | message (msg : SwarmMessage F P B)
  /-- A binary frame that does not. -/
  | undecodable
  /-- A text, ping, pong or close frame. -/
  | otherFrame
  /-- The end of the stream, or an error. -/
  | ended

/-- The associated data under which the cluster key travels. -/
def clusterKeyAad : String := "cluster-key-handshake"

/-! ## Server -/

/-- Where a call of `handle_socket` stands. -/
inductive Connection (S B : Type)
  | awaitingResponse (nonce : B) (mySecret : S)
  | authenticated (nodeId : String) (sessionKey : B)
  | returned

structure Server (F P S B : Type) where
  orchestrator : Orchestrator F P B
  sharedSecret : String
  connections : List (Connection S B)

inductive SocketEvent (F P S B : Type)
  /-- A socket is accepted and the challenge is `sent` or not. -/
  | accept (nonce : B) (mySecret : S) (sent : Bool)
  | receive (socket : ℕ) (received : Received F P B) (rng : Entropy) (now : Instant)

/-- The wait for the `AuthResponse`: whatever else comes first drops the connection. -/
def authenticate (crypto : Crypto S B) (sharedSecret : String) (nonce : B) (mySecret : S) :
    Received F P B → Connection S B
  | .message (.authResponse id tokenHash theirPublic) =>
    if crypto.verifyHmac nonce sharedSecret tokenHash then
      .authenticated id (crypto.deriveSessionKey mySecret theirPublic nonce)
    else .returned
  | _ => .returned

/-- Puts the encrypted cluster key into a `JoinResponse`, if encryption succeeds. -/
def SwarmMessage.withClusterKey (crypto : Crypto S B) (rng : Entropy) (clusterKey sessionKey : B) :
    SwarmMessage F P B → SwarmMessage F P B
  | .joinResponse assignedLayers totalLayers encryptedClusterKey =>
    match crypto.encryptWithAad rng clusterKey sessionKey (crypto.asBytes clusterKeyAad) with
    | .ok enc => .joinResponse assignedLayers totalLayers enc
    | .error _ => .joinResponse assignedLayers totalLayers encryptedClusterKey
  | msg => msg

section Server

variable [Scalar F] (env : Platform P S B)

/-- One turn of the main event loop: the orchestrator, the connection and the response after. -/
def serve (o : Orchestrator F P B) (nodeId : String) (sessionKey : B) (rng : Entropy)
    (now : Instant) :
    Received F P B → Orchestrator F P B × Connection S B × Option (SwarmMessage F P B)
  | .message (.nodeAnnounce deviceId _ profile initialStatus) =>
    if deviceId ≠ nodeId then
      -- this return skips the drain at the end of `handle_socket`
      (o, .returned, none)
    else
      let (o, answer) := o.handleAnnounce env deviceId profile initialStatus now
      (o, .authenticated nodeId sessionKey,
        answer.toOption.map (·.withClusterKey env.crypto rng o.clusterKey sessionKey))
  | .message (.statusUpdate status) =>
    let (o, answer) := o.handleStatusUpdate env nodeId status now
    (o, .authenticated nodeId sessionKey, answer.toOption.join)
  | .message .heartbeat =>
    ((o.handleHeartbeat nodeId now).1, .authenticated nodeId sessionKey, none)
  | .message (.drainRequest _) =>
    ((o.handleDrain env nodeId).1, .authenticated nodeId sessionKey, none)
  | .message _ | .undecodable | .otherFrame => (o, .authenticated nodeId sessionKey, none)
  | .ended => ((o.handleDrain env nodeId).1, .returned, none)

namespace Server

def new (orchestrator : Orchestrator F P B) (sharedSecret : String) : Server F P S B :=
  { orchestrator, sharedSecret, connections := [] }

/-- A call of `handle_socket` starts: the challenge is sent, or sending it fails. -/
def accept (server : Server F P S B) (nonce : B) (mySecret : S) (sent : Bool) :
    Server F P S B × Option (SwarmMessage F P B) :=
  if sent then
    ({ server with connections := server.connections ++ [.awaitingResponse nonce mySecret] },
      some (.authChallenge nonce (env.crypto.publicKey mySecret)))
  else ({ server with connections := server.connections ++ [.returned] }, none)

/-- The call of `handle_socket` on `socket` receives its next item. -/
def receive (server : Server F P S B) (socket : ℕ) (received : Received F P B) (rng : Entropy)
    (now : Instant) : Server F P S B × Option (SwarmMessage F P B) :=
  match server.connections[socket]? with
  | some (.awaitingResponse nonce mySecret) =>
    let connection := authenticate env.crypto server.sharedSecret nonce mySecret received
    ({ server with connections := server.connections.set socket connection }, none)
  | some (.authenticated nodeId sessionKey) =>
    let (orchestrator, connection, response) :=
      serve env server.orchestrator nodeId sessionKey rng now received
    ({ server with
        orchestrator
        connections := server.connections.set socket connection }, response)
  | some .returned | none => (server, none)

/-- One socket event, with the message that the server sends on that socket. -/
def step (server : Server F P S B) :
    SocketEvent F P S B → Server F P S B × Option (SwarmMessage F P B)
  | .accept nonce mySecret sent => server.accept env nonce mySecret sent
  | .receive socket received rng now => server.receive env socket received rng now

/-- The server as a machine. -/
def machine : Mealy (Server F P S B) (SocketEvent F P S B) (Option (SwarmMessage F P B)) :=
  ⟨step env⟩

end Server

end Server

/-! ## Client -/

/-- Where a call of `connect_to_cluster` stands. -/
inductive Client (F B : Type)
  | awaitingChallenge (profile : NodeProfile) (status : NodeStatus F)
  | awaitingJoin (sessionKey : B)
  | connected (clusterKey : B)
  | failed (error : String)
  /-- `copy_from_slice` met a key of another length. -/
  | panicked
  deriving DecidableEq

namespace Client

/-- What the client does with the next item of its stream, and the messages it sends. -/
def receive (crypto : Crypto S B) (sharedSecret : String) (mySecret : S) :
    Client F B → Received F P B → Client F B × List (SwarmMessage F P B)
  | .awaitingChallenge profile status, .message (.authChallenge nonce masterPublic) =>
    let sessionKey := crypto.deriveSessionKey mySecret masterPublic nonce
    let tokenHash := crypto.signHmac nonce sharedSecret
    (.awaitingJoin sessionKey,
      [.authResponse profile.hostname tokenHash (crypto.publicKey mySecret),
        .nodeAnnounce profile.hostname none profile status])
  | .awaitingChallenge .., .message _ | .awaitingChallenge .., .undecodable =>
    (.failed "Expected AuthChallenge from server", [])
  | .awaitingChallenge .., _ =>
    (.failed "Connection closed or invalid message before AuthChallenge", [])
  | .awaitingJoin sessionKey, .message (.joinResponse _ _ encryptedClusterKey) =>
    match crypto.decryptWithAad encryptedClusterKey sessionKey (crypto.asBytes clusterKeyAad) with
    | .error e => (.failed ("Failed to decrypt cluster key: " ++ e), [])
    | .ok dec => if crypto.isKey dec then (.connected dec, []) else (.panicked, [])
  | .awaitingJoin _, _ => (.failed "Failed to obtain cluster key", [])
  | client, _ => (client, [])

end Client

end NeuralSwarm
