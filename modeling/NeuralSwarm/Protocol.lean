import NeuralSwarm.Compute

/-!
# Messages

The messages exchanged between nodes.  `F` stands for `f32`, `P` for peer ids and `B` for byte
strings (fixed arrays, vectors and `Bytes` alike).
-/

namespace NeuralSwarm

/-- The route of an inference sequence: the peers of the pipeline and the one now computing. -/
structure RouteTicket (P : Type) where
  taskId : String
  sequenceId : ℕ
  nodes : List P
  currentIndex : ℕ
  deriving DecidableEq

def RouteTicket.nextPeer {P : Type} (ticket : RouteTicket P) : Option P :=
  ticket.nodes[ticket.currentIndex + 1]?

structure ProcessTask (P B : Type) where
  taskId : String
  sequenceId : ℕ
  inputState : B
  startLayer : ℕ
  endLayer : ℕ
  tokens : List ℤ
  route : Option (RouteTicket P)
  deriving DecidableEq

structure TaskResult (F B : Type) where
  taskId : String
  sequenceId : ℕ
  outputState : B
  logits : List F
  deriving DecidableEq

inductive SwarmMessage (F P B : Type)
  | authChallenge (nonce publicKey : B)
  | authResponse (nodeId : String) (tokenHash publicKey : B)
  | nodeAnnounce (deviceId : String) (peerId : Option String) (profile : NodeProfile)
      (initialStatus : NodeStatus F)
  | joinResponse (assignedLayers : List ℕ) (totalLayers : ℕ) (encryptedClusterKey : B)
  | processTask (task : ProcessTask P B)
  | taskResult (result : TaskResult F B)
  | statusUpdate (status : NodeStatus F)
  | rebalanceCommand (newLayers : List ℕ)
  | rebalanceAck (deviceId : String)
  | drainRequest (reason : String)
  | heartbeat
  deriving DecidableEq

end NeuralSwarm
