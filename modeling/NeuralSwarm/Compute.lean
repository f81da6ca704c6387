import NeuralSwarm.Basic.Scalar

/-!
# Profiles, statuses and effective capacity

What a node reports about itself and the score the orchestrator derives from it.  Megabytes, cores
and milliseconds have the widths of the program, since a score computed from larger numbers could be
a NaN; the `f32` values are elements of a `Scalar`.
-/

namespace NeuralSwarm

inductive Architecture
  | x86_64
  | aarch64
  | other
  deriving DecidableEq

/-- Classification of the device, which selects its resource reservation. -/
inductive DeviceType
  | server
  | desktop
  | laptop
  | mobile
  | embedded
  deriving DecidableEq

structure GpuProfile where
  name : String
  vramMb : UInt64
  deriving DecidableEq

/-- Static hardware profile of a node. -/
structure NodeProfile where
  arch : Architecture
  deviceType : DeviceType
  cpuCores : UInt32
  ramTotalMb : UInt64
  gpu : Option GpuProfile
  hostname : String
  deriving DecidableEq

/-- `NodeProfile::custom` on an x86-64 machine. -/
def NodeProfile.custom (deviceType : DeviceType) (cpuCores : UInt32) (ramTotalMb : UInt64)
    (hostname : String) : NodeProfile :=
  { arch := .x86_64, deviceType, cpuCores, ramTotalMb, gpu := none, hostname }

inductive ThermalState
  | nominal
  | warm
  | throttling
  | critical
  deriving DecidableEq

variable {F : Type} [Scalar F]

/-- The factor applied to the capacity score. -/
def ThermalState.penaltyFactor : ThermalState → F
  | .nominal => 1.0
  | .warm => 0.85
  | .throttling => 0.4
  | .critical => 0.0

/-- Dynamic resource snapshot of a node, as sent over the wire. -/
structure NodeStatus (F : Type) where
  cpuUsage : F
  ramUsedMb : UInt64
  ramAvailableMb : UInt64
  thermal : ThermalState
  latencyMs : Option UInt32
  deriving DecidableEq

def NodeStatus.unknown : NodeStatus F :=
  { cpuUsage := 0.0, ramUsedMb := 0, ramAvailableMb := 0, thermal := .nominal, latencyMs := none }

/-- The share of a device that stays with its user. -/
structure ResourceReservation (F : Type) where
  cpuReserved : F
  ramReservedMb : UInt64
  deriving DecidableEq

def ResourceReservation.forDevice : DeviceType → ResourceReservation F
  | .server => { cpuReserved := 0.05, ramReservedMb := 512 }
  | .desktop => { cpuReserved := 0.20, ramReservedMb := 2048 }
  | .laptop => { cpuReserved := 0.30, ramReservedMb := 2048 }
  | .mobile => { cpuReserved := 0.40, ramReservedMb := 1024 }
  | .embedded => { cpuReserved := 0.10, ramReservedMb := 256 }

/-- The score used for layer assignment. -/
structure EffectiveCapacity (F : Type) where
  cpuScore : F
  ramAvailableMb : UInt64
  composite : F
  deriving DecidableEq

def EffectiveCapacity.zero : EffectiveCapacity F :=
  { cpuScore := 0.0, ramAvailableMb := 0, composite := 0.0 }

/-- `u64::saturating_sub`. -/
def saturatingSub (a b : UInt64) : UInt64 := if b ≤ a then a - b else 0

/-- The weighted CPU and RAM scores, clamped, with the thermal and the latency penalty. -/
def EffectiveCapacity.compute (profile : NodeProfile) (status : NodeStatus F)
    (reservation : ResourceReservation F) : EffectiveCapacity F :=
  let cpuCeiling : F := 1.0 - reservation.cpuReserved
  let cpuScore := Scalar.max (cpuCeiling - status.cpuUsage) 0.0
  let ramAfterReservation := saturatingSub status.ramAvailableMb reservation.ramReservedMb
  let ramTotal := max profile.ramTotalMb 1
  let ramScore : F := Scalar.ofNat ramAfterReservation.toNat / Scalar.ofNat ramTotal.toNat
  let thermalPenalty : F := status.thermal.penaltyFactor
  let rawComposite := Scalar.clamp (0.6 * cpuScore + 0.4 * ramScore) 0.0 1.0
  let composite := rawComposite * thermalPenalty
  -- 1000 ms of latency or more cost half of the score
  let composite :=
    match status.latencyMs with
    | some latency =>
      let penalty := Scalar.min (Scalar.ofNat latency.toNat / 2000.0) 0.5
      composite * (1.0 - penalty)
    | none => composite
  { cpuScore, ramAvailableMb := ramAfterReservation, composite }

/-! ## Profiles and statuses of the repository's tests -/

def makeProfile (name : String) (deviceType : DeviceType) : NodeProfile :=
  .custom deviceType 8 16384 name

def makeStatus (cpu : F) (ramAvail : UInt64) : NodeStatus F :=
  { cpuUsage := cpu
    ramUsedMb := 0
    ramAvailableMb := ramAvail
    thermal := .nominal
    latencyMs := none }

end NeuralSwarm
