import NeuralSwarm.Basic.Machine
import NeuralSwarm.Node.Registry
import NeuralSwarm.Pipeline
import NeuralSwarm.Platform

/-!
# The orchestrator

It owns the registry and the pipeline, assigns the layers of the model to the nodes in proportion to
their capacity and routes sequences.  Every handler holds the locks it needs from start to end, so
it is a function from the state before to the state after and an answer; clock readings and random
bytes are arguments.
-/

namespace NeuralSwarm

structure Orchestrator (F P B : Type) where
  registry : NodeRegistry F
  pipeline : InferencePipeline P
  totalModelLayers : UInt32
  sharedSecret : String
  /-- Random key for cluster-wide payload encryption. -/
  clusterKey : B

variable {F P S B : Type}

/-! ## Layer assignment -/

section Rebalance

variable [Scalar F]

/-- `let _ = registry.assign_layers(..)`. -/
def NodeRegistry.assign (registry : NodeRegistry F) (id : String) (layers : List ℕ) :
    NodeRegistry F :=
  match registry.assignLayers id layers with
  | .ok registry => registry
  | .error _ => registry

/-- The loop of the equal split; `current` is the running total. -/
def assignEqually (totalLayers perNode : ℕ) : ℕ → List String → NodeRegistry F → NodeRegistry F
  | _, [], registry => registry
  | current, id :: rest, registry =>
    let count := if rest.isEmpty then totalLayers - current else perNode
    let layers := List.range' current count
    assignEqually totalLayers perNode (current + count) rest (registry.assign id layers)

/-- The loop of the proportional split; the last node gets what remains. -/
def assignProportionally (totalLayers : ℕ) (totalComposite : F) :
    ℕ → List (String × F) → NodeRegistry F → NodeRegistry F
  | _, [], registry => registry
  | currentLayer, (id, composite) :: rest, registry =>
    let layerCount :=
      if rest.isEmpty then totalLayers - currentLayer
      else (Scalar.roundU32 (composite / totalComposite * Scalar.ofNat totalLayers)).toNat
    -- the sum is taken before the cap, so it can wrap
    let endLayer := min (u32Add currentLayer layerCount) totalLayers
    let layers := List.range' currentLayer (endLayer - currentLayer)
    assignProportionally totalLayers totalComposite endLayer rest (registry.assign id layers)

/-- Distributes the layers in proportion to capacity and replaces the pipeline stages by the nodes
that can accept tasks, strongest first. -/
def rebalanceLayers (env : Platform P S B) (registry : NodeRegistry F) (totalLayers : UInt32)
    (pipeline : InferencePipeline P) : NodeRegistry F × InferencePipeline P :=
  let sorted := registry.sortedByCapacity
  if sorted.isEmpty then (registry, pipeline.updateStages [])
  else
    let totalComposite := Scalar.sum (sorted.map (·.capacity.composite))
    if totalComposite ≤ 0.0 then
      let perNode := totalLayers.toNat / sorted.length
      let nodeIds := sorted.map (·.id)
      let peers := env.peerIds.parseAll nodeIds
      (assignEqually totalLayers.toNat perNode 0 nodeIds registry, pipeline.updateStages peers)
    else
      let idsAndComposites := sorted.map fun n => (n.id, n.capacity.composite)
      let stagePeers := env.peerIds.parseAll (idsAndComposites.map (·.1))
      (assignProportionally totalLayers.toNat totalComposite 0 idsAndComposites registry,
        pipeline.updateStages stagePeers)

end Rebalance

/-- The layer range of a node: from its first layer to one past its last, both `0` by default. -/
def NodeEntry.layerRange (entry : NodeEntry F) : ℕ × ℕ :=
  (entry.assignedLayers.head?.getD 0, u32Add (entry.assignedLayers.getLast?.getD 0) 1)

namespace Orchestrator

def new (totalLayers : UInt32) (sharedSecret : String) (clusterKey : B) : Orchestrator F P B :=
  { registry := .empty
    pipeline := .empty
    totalModelLayers := totalLayers
    sharedSecret
    clusterKey }

/-- `Self::rebalance_layers` on a registry and the orchestrator's own pipeline. -/
def rebalance [Scalar F] (env : Platform P S B) (o : Orchestrator F P B)
    (registry : NodeRegistry F) : Orchestrator F P B :=
  let (registry, pipeline) := rebalanceLayers env registry o.totalModelLayers o.pipeline
  { o with registry, pipeline }

variable [Scalar F] (env : Platform P S B)

/-! ## Membership -/

/-- Registers a node, marks it as ready, rebalances and answers with its assignment. -/
def handleAnnounce (o : Orchestrator F P B) (deviceId : String) (profile : NodeProfile)
    (initialStatus : NodeStatus F) (now : Instant) :
    Orchestrator F P B × Except String (SwarmMessage F P B) :=
  let registry := o.registry.register deviceId profile now
  match registry.markReady deviceId initialStatus with
  | .error e => ({ o with registry }, .error e)
  | .ok registry =>
    let o := o.rebalance env registry
    match o.registry.get deviceId with
    | none => (o, .error "Node disappeared after registration")
    | some entry =>
      (o, .ok (.joinResponse entry.assignedLayers o.totalModelLayers.toNat env.crypto.empty))

/-- The layers of a node, none if it is not registered. -/
def layersOf (o : Orchestrator F P B) (deviceId : String) : List ℕ :=
  ((o.registry.get deviceId).map (·.assignedLayers)).getD []

/-- Records a status and rebalances if the capacity of the node changed significantly. -/
def handleStatusUpdate (o : Orchestrator F P B) (deviceId : String) (status : NodeStatus F)
    (now : Instant) : Orchestrator F P B × Except String (Option (SwarmMessage F P B)) :=
  match o.registry.updateStatus deviceId status now with
  | .error e => (o, .error e)
  | .ok (significantChange, registry) =>
    let o := { o with registry }
    if significantChange then
      let oldLayers := o.layersOf deviceId
      let o := o.rebalance env o.registry
      let newLayers := o.layersOf deviceId
      if oldLayers ≠ newLayers then (o, .ok (some (.rebalanceCommand newLayers)))
      else (o, .ok none)
    else (o, .ok none)

/-- Moves a node to `draining`, removes it and rebalances what is left. -/
def handleDrain (o : Orchestrator F P B) (deviceId : String) :
    Orchestrator F P B × Except String Unit :=
  let drained : Except String (NodeRegistry F) :=
    match o.registry.get deviceId with
    | none => .ok o.registry
    | some entry =>
      if entry.state.canTransitionTo .draining then
        match entry.state.transitionTo .draining with
        | .error e => .error e
        | .ok state => .ok (o.registry.modify deviceId ({ · with state }))
      else .ok o.registry
  match drained with
  | .error e => (o, .error e)
  | .ok registry =>
    let registry := registry.remove deviceId
    if registry.isEmpty then ({ o with registry }, .ok ())
    else (o.rebalance env registry, .ok ())

def handleHeartbeat (o : Orchestrator F P B) (deviceId : String) (now : Instant) :
    Orchestrator F P B × Except String Unit :=
  ({ o with registry := o.registry.heartbeat deviceId now }, .ok ())

/-- The nodes without a heartbeat for more than `timeoutSecs` whole seconds. -/
def deadIds (o : Orchestrator F P B) (timeoutSecs : ℕ) (now : Instant) : List String :=
  (o.registry.nodes.entries.filter fun e =>
    (now - e.2.lastHeartbeat) / 10 ^ 9 > timeoutSecs).map (·.1)

/-- Removes the dead nodes and rebalances what is left. -/
def pruneDeadNodes (o : Orchestrator F P B) (timeoutSecs : ℕ) (now : Instant) :
    Orchestrator F P B × Except String Unit :=
  let dead := o.deadIds timeoutSecs now
  if dead.isEmpty then (o, .ok ())
  else
    let registry := dead.foldl NodeRegistry.remove o.registry
    if registry.isEmpty then ({ o with registry }, .ok ())
    else (o.rebalance env registry, .ok ())

/-! ## Sequences -/

/-- Starts a sequence at the strongest node, with the initial state compressed and encrypted. -/
def startSequence (o : Orchestrator F P B) (rng : Entropy) (sequenceId : ℕ) (taskId : String)
    (tokens : List ℤ) (initialState : B) :
    Orchestrator F P B × Except String (Option (P × SwarmMessage F P B)) :=
  match o.registry.sortedByCapacity with
  | [] => (o, .ok none)
  | firstNode :: _ =>
    match env.peerIds.parse firstNode.id with
    | .error e => (o, .error ("Invalid PeerId in registry: " ++ e))
    | .ok firstPeerId =>
      match env.crypto.sealState rng o.clusterKey taskId initialState with
      | .error e => (o, .error e)
      | .ok encrypted =>
        let (pipeline, started) :=
          o.pipeline.startSequence sequenceId taskId tokens encrypted firstNode.layerRange
        -- the peer chosen by the pipeline is replaced by the first of the registry
        ({ o with pipeline }, .ok (started.map fun (_, msg) => (firstPeerId, msg)))

/-- Advances the sequence of a result to the node of its next stage, or ends it. -/
def handleTaskResult (o : Orchestrator F P B) (result : SwarmMessage F P B) :
    Orchestrator F P B × Except String (Option (PipelineResult F P B)) :=
  match result with
  | .taskResult taskResult =>
    match o.pipeline.getNextPeerId taskResult.taskId with
    | some nextPeerId =>
      match o.registry.get (env.peerIds.toString nextPeerId) with
      | some nextNode =>
        let (pipeline, outcome) := o.pipeline.handleTaskResult result nextNode.layerRange
        ({ o with pipeline }, .ok outcome)
      | none => (o, .ok none)
    | none =>
      -- last stage
      let (pipeline, outcome) := o.pipeline.handleTaskResult result (0, 0)
      ({ o with pipeline }, .ok outcome)
  | _ => (o, .ok none)

end Orchestrator

end NeuralSwarm
