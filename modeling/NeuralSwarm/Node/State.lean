import Mathlib.Tactic.SplitIfs

/-!
# Lifecycle of a node

The states of a node and the transitions that are allowed between them.
-/

namespace NeuralSwarm

inductive NodeState
  | joining
  | ready
  | active
  | degraded
  | draining
  | left
  deriving DecidableEq

namespace NodeState

def name : NodeState → String
  | joining => "Joining"
  | ready => "Ready"
  | active => "Active"
  | degraded => "Degraded"
  | draining => "Draining"
  | left => "Left"

def canTransitionTo : NodeState → NodeState → Bool
  | joining, ready => true
  | ready, active => true
  | active, degraded => true
  | degraded, active => true
  | active, draining => true
  | degraded, draining => true
  | draining, left => true
  | ready, draining => true
  | joining, left => true
  | _, _ => false

def transitionTo (state target : NodeState) : Except String NodeState :=
  if state.canTransitionTo target then .ok target
  else .error ("Invalid state transition: " ++ state.name ++ " → " ++ target.name)

/-- Whether the node can accept new tasks. -/
def canAcceptTasks : NodeState → Bool
  | active => true
  | ready => true
  | _ => false

end NodeState

end NeuralSwarm
