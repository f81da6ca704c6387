import Mathlib.Algebra.Order.Group.MinMax
import NeuralSwarm.Basic.Machine
import NeuralSwarm.CapacityOrder

/-!
# The compute monitor

It samples the system at regular intervals and reports a sample if that differs enough from the one
it reported last.  However many samples it has kept to itself, the capacity that follows from the
last report is never off by more than four thirds of the threshold (`composite_of_last_report`).
Capacities are exact rationals there.
-/

namespace NeuralSwarm

variable {F : Type}

/-- What one refresh of `sysinfo` reads: the usage of each core in percent, memory in bytes. -/
structure SystemReading (F : Type) where
  cpus : List F
  usedMemory : UInt64
  availableMemory : UInt64

structure MonitorConfig (F : Type) where
  /-- The smallest change that is reported. -/
  changeThreshold : F

variable [Scalar F]

def MonitorConfig.default : MonitorConfig F := { changeThreshold := 0.10 }

/-- The relative change between a status and another one. -/
def NodeStatus.delta (status other : NodeStatus F) : F :=
  let cpuDelta := Scalar.abs (status.cpuUsage - other.cpuUsage)
  let ramTotal : F := Scalar.ofNat (max (status.ramUsedMb + status.ramAvailableMb) 1).toNat
  let ramDelta :=
    Scalar.abs (Scalar.ofNat status.ramAvailableMb.toNat -
      Scalar.ofNat other.ramAvailableMb.toNat) / ramTotal
  cpuDelta * 0.7 + ramDelta * 0.3

namespace ComputeMonitor

/-- A single sample of the resources. -/
def sample (system : SystemReading F) : NodeStatus F :=
  let cpuUsage : F :=
    if system.cpus.isEmpty then 0.0
    else Scalar.sum system.cpus / Scalar.ofNat system.cpus.length / 100.0
  { cpuUsage
    ramUsedMb := system.usedMemory / (1024 * 1024)
    ramAvailableMb := system.availableMemory / (1024 * 1024)
    thermal := .nominal
    latencyMs := none }

/-- One turn of the loop: the status reported last, and the sample if it is reported. -/
def turn (config : MonitorConfig F) (lastReported : NodeStatus F) (system : SystemReading F) :
    NodeStatus F × Option (NodeStatus F) :=
  let status := sample system
  let delta := status.delta lastReported
  if delta ≥ config.changeThreshold then (status, some status) else (lastReported, none)

/-- The loop; it starts with `NodeStatus::unknown()`. -/
def machine (config : MonitorConfig F) :
    Mealy (NodeStatus F) (SystemReading F) (Option (NodeStatus F)) := ⟨turn config⟩

end ComputeMonitor

/-! ## How much the composite can differ -/

theorem abs_min_sub_min_le_abs (a b c : ℚ) : |min a c - min b c| ≤ |a - b| := by
  have h := abs_min_sub_min_le_max a c b c
  rwa [sub_self, abs_zero, max_eq_left (abs_nonneg _)] at h

/-- A difference that stops at zero. -/
theorem abs_tsub_sub_tsub_le (a b c : ℕ) :
    |((a - c : ℕ) : ℚ) - ((b - c : ℕ) : ℚ)| ≤ |(a : ℚ) - b| := by
  have htsub : ∀ n : ℕ, ((n - c : ℕ) : ℚ) = max ((n : ℚ) - c) 0 := by
    intro n
    rcases le_total c n with h | h
    · have hcast : (c : ℚ) ≤ n := by exact_mod_cast h
      rw [Nat.cast_sub h, max_eq_left (by linarith)]
    · have hcast : (n : ℚ) ≤ c := by exact_mod_cast h
      rw [Nat.sub_eq_zero_of_le h, Nat.cast_zero, max_eq_right (by linarith)]
  rw [htsub, htsub]
  refine (abs_max_sub_max_le_abs ..).trans_eq ?_
  rw [sub_sub_sub_cancel_right]

/-- The composite moves by at most the weighted changes of load and memory. -/
theorem abs_rawComposite_sub_le (profile : NodeProfile) (reservation : ResourceReservation ℚ)
    (status other : NodeStatus ℚ) :
    |rawComposite profile status reservation - rawComposite profile other reservation| ≤
      3 / 5 * |status.cpuUsage - other.cpuUsage| +
        2 / 5 * (|(status.ramAvailableMb.toNat : ℚ) - other.ramAvailableMb.toNat| /
          (max profile.ramTotalMb 1).toNat) := by
  have hcpu := abs_max_sub_max_le_abs (1 - reservation.cpuReserved - status.cpuUsage)
    (1 - reservation.cpuReserved - other.cpuUsage) 0
  rw [sub_sub_sub_cancel_left, abs_sub_comm other.cpuUsage] at hcpu
  have hram := abs_tsub_sub_tsub_le status.ramAvailableMb.toNat other.ramAvailableMb.toNat
    reservation.ramReservedMb.toNat
  have htotal : (0 : ℚ) ≤ (max profile.ramTotalMb 1).toNat := Nat.cast_nonneg _
  have hscore := div_le_div_of_nonneg_right hram htotal
  rw [← abs_of_nonneg htotal, ← abs_div, sub_div, abs_of_nonneg htotal] at hscore
  unfold rawComposite
  refine (abs_min_sub_min_le_abs ..).trans ((abs_max_sub_max_le_abs ..).trans ?_)
  rw [add_sub_add_comm, ← mul_sub, ← mul_sub]
  refine (abs_add_le ..).trans (add_le_add ?_ ?_)
  · rw [abs_mul, abs_of_pos (by norm_num)]
    exact mul_le_mul_of_nonneg_left hcpu (by norm_num)
  · rw [abs_mul, abs_of_pos (by norm_num)]
    exact mul_le_mul_of_nonneg_left hscore (by norm_num)

/-- In exact arithmetic, the change between two statuses. -/
theorem NodeStatus.delta_eq (status other : NodeStatus ℚ) :
    status.delta other = 7 / 10 * |status.cpuUsage - other.cpuUsage| +
      3 / 10 * (|(status.ramAvailableMb.toNat : ℚ) - other.ramAvailableMb.toNat| /
        (max (status.ramUsedMb + status.ramAvailableMb) 1).toNat) := by
  simp only [delta, Scalar.abs, Scalar.ofNat]
  ring

theorem toNat_max_one (a : UInt64) : (max a 1).toNat = max a.toNat 1 := by
  show (if a ≤ 1 then 1 else a).toNat = max a.toNat 1
  split_ifs with h
  · exact (max_eq_right (UInt64.le_iff_toNat_le.1 h)).symm
  · exact (max_eq_left (UInt64.lt_iff_toNat_lt.1 (UInt64.not_le.1 h)).le).symm

/-- On a machine that has at least the memory that it reports, the composite moves by at most four
thirds of the change. -/
theorem abs_rawComposite_sub_le_delta (profile : NodeProfile)
    (reservation : ResourceReservation ℚ) {status : NodeStatus ℚ} (other : NodeStatus ℚ)
    (hfits : status.ramUsedMb.toNat + status.ramAvailableMb.toNat ≤ profile.ramTotalMb.toNat) :
    |rawComposite profile status reservation - rawComposite profile other reservation| ≤
      4 / 3 * status.delta other := by
  refine (abs_rawComposite_sub_le ..).trans ?_
  rw [NodeStatus.delta_eq]
  have hcpu := abs_nonneg (status.cpuUsage - other.cpuUsage)
  have htotal : (max (status.ramUsedMb + status.ramAvailableMb) 1).toNat ≤
      (max profile.ramTotalMb 1).toNat := by
    rw [toNat_max_one, toNat_max_one, UInt64.toNat_add]
    have hmod := Nat.mod_le (status.ramUsedMb.toNat + status.ramAvailableMb.toNat) (2 ^ 64)
    omega
  have hpos : 0 < (max (status.ramUsedMb + status.ramAvailableMb) 1).toNat := by
    rw [toNat_max_one]
    omega
  have hram : |(status.ramAvailableMb.toNat : ℚ) - other.ramAvailableMb.toNat| /
        (max profile.ramTotalMb 1).toNat ≤
      |(status.ramAvailableMb.toNat : ℚ) - other.ramAvailableMb.toNat| /
        (max (status.ramUsedMb + status.ramAvailableMb) 1).toNat :=
    div_le_div_of_nonneg_left (abs_nonneg _) (Nat.cast_pos.2 hpos) (Nat.cast_le.2 htotal)
  linarith

/-! ## Runs -/

namespace ComputeMonitor

variable (config : MonitorConfig ℚ)

/-- What a sample does not measure. -/
def Unmeasured (status : NodeStatus ℚ) : Prop := status.thermal = .nominal ∧ status.latencyMs = none

theorem composite_of_unmeasured {status : NodeStatus ℚ} (h : Unmeasured status)
    (profile : NodeProfile) (reservation : ResourceReservation ℚ) :
    (EffectiveCapacity.compute profile status reservation).composite =
      rawComposite profile status reservation := by
  have hpenalty : (ThermalState.nominal.penaltyFactor : ℚ) = 1 := by
    norm_num [ThermalState.penaltyFactor]
  rw [EffectiveCapacity.composite_compute_eq, h.1, h.2, hpenalty, latencyFactor, mul_one, mul_one]

theorem unmeasured_run (readings : List (SystemReading ℚ)) :
    Unmeasured ((machine config).run .unknown readings) := by
  have preserved : ∀ status system, Unmeasured status →
      Unmeasured ((machine config).step status system).1 := by
    intro status system h
    simp only [machine, turn]
    split_ifs
    · exact ⟨rfl, rfl⟩
    · exact h
  exact Mealy.Reachable.invariant _ preserved ⟨rfl, rfl⟩ ⟨readings, rfl⟩

/-- After a turn the sample is what was reported last, or within the threshold of it. -/
theorem delta_turn (hpos : 0 < config.changeThreshold) (lastReported : NodeStatus ℚ)
    (system : SystemReading ℚ) :
    (sample system).delta (turn config lastReported system).1 < config.changeThreshold := by
  simp only [turn]
  split_ifs with h
  · rw [NodeStatus.delta_eq, sub_self, sub_self, abs_zero]
    simpa using hpos
  · exact not_le.1 h

/-- Whatever the monitor has sampled, the capacity of its latest sample is within four thirds of the
threshold of the capacity of the status that it has reported last. -/
theorem composite_of_last_report (hpos : 0 < config.changeThreshold)
    (readings : List (SystemReading ℚ)) (latest : SystemReading ℚ) (profile : NodeProfile)
    (reservation : ResourceReservation ℚ)
    (hfits : (sample latest).ramUsedMb.toNat + (sample latest).ramAvailableMb.toNat ≤
      profile.ramTotalMb.toNat) :
    |(EffectiveCapacity.compute profile (sample latest) reservation).composite -
        (EffectiveCapacity.compute profile
          ((machine config).run .unknown (readings ++ [latest])) reservation).composite| <
      4 / 3 * config.changeThreshold := by
  have hsample : Unmeasured (sample latest) := ⟨rfl, rfl⟩
  rw [composite_of_unmeasured hsample,
    composite_of_unmeasured (unmeasured_run config (readings ++ [latest])), Mealy.run_concat]
  refine (abs_rawComposite_sub_le_delta profile reservation _ hfits).trans_lt ?_
  exact mul_lt_mul_of_pos_left (delta_turn config hpos _ latest) (by norm_num)

/-- A machine with 16 GB of memory and two cores. -/
def reading (load : ℚ) (usedGb : UInt64) : SystemReading ℚ :=
  { cpus := [load, load]
    usedMemory := usedGb * 1073741824
    availableMemory := (16 - usedGb) * 1073741824 }

theorem composite_of_last_report_sixteen :
    let profile := makeProfile "host" .desktop
    let reservation : ResourceReservation ℚ := .forDevice .desktop
    |(EffectiveCapacity.compute profile (sample (reading 27 9)) reservation).composite -
        (EffectiveCapacity.compute profile
          ((machine .default).run .unknown ([reading 20 8] ++ [reading 27 9]))
          reservation).composite| < 4 / 3 * (0.10 : ℚ) := by
  intro profile reservation
  have hpos : (0 : ℚ) < MonitorConfig.default.changeThreshold := by
    norm_num [MonitorConfig.default]
  exact composite_of_last_report .default hpos [reading 20 8] (reading 27 9) profile reservation
    (by decide)

end ComputeMonitor

end NeuralSwarm
