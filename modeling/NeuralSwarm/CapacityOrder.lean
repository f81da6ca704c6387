import Mathlib.Tactic.Linarith
import Mathlib.Tactic.NormNum
import NeuralSwarm.Compute

/-!
# The order on capacities

In exact arithmetic the composite of a node lies between `0` and `1`, whatever the node reports, and
it does not grow when the node reports more load, more heat, a longer latency or less free memory,
or keeps more of itself for its user.  The composite is a product of three factors, each of them
monotone and between `0` and `1`.
-/

namespace NeuralSwarm

/-- The order of the thermal states, the hottest last. -/
def ThermalState.severity : ThermalState → ℕ
  | .nominal => 0
  | .warm => 1
  | .throttling => 2
  | .critical => 3

/-- `busier` reports no more room than `status`; a missing latency is the lowest. -/
structure NodeStatus.LoadLE (status busier : NodeStatus ℚ) : Prop where
  cpuUsage : status.cpuUsage ≤ busier.cpuUsage
  thermal : status.thermal.severity ≤ busier.thermal.severity
  latencyMs : status.latencyMs ≤ busier.latencyMs
  ramAvailableMb : busier.ramAvailableMb ≤ status.ramAvailableMb

/-- `larger` keeps at least as much as `reservation`. -/
structure ResourceReservation.LE (reservation larger : ResourceReservation ℚ) : Prop where
  cpuReserved : reservation.cpuReserved ≤ larger.cpuReserved
  ramReservedMb : reservation.ramReservedMb ≤ larger.ramReservedMb

/-! ## The three factors -/

theorem ThermalState.penaltyFactor_mem (thermal : ThermalState) :
    (0 : ℚ) ≤ thermal.penaltyFactor ∧ (thermal.penaltyFactor : ℚ) ≤ 1 := by
  cases thermal <;> norm_num [penaltyFactor]

/-- A hotter node is penalized more. -/
theorem ThermalState.penaltyFactor_anti {thermal hotter : ThermalState}
    (h : thermal.severity ≤ hotter.severity) :
    (hotter.penaltyFactor : ℚ) ≤ thermal.penaltyFactor := by
  cases thermal <;> cases hotter <;> first
    | exact absurd h (by decide)
    | norm_num [penaltyFactor]

/-- What is left of a score at some latency. -/
def latencyFactor : Option UInt32 → ℚ
  | some latency => 1 - (latency.toNat / 2000 : ℚ) ⊓ (1 / 2)
  | none => 1

theorem latencyFactor_mem (latencyMs : Option UInt32) :
    0 ≤ latencyFactor latencyMs ∧ latencyFactor latencyMs ≤ 1 := by
  cases latencyMs with
  | none => exact ⟨zero_le_one, le_rfl⟩
  | some latency =>
    have hhalf : (latency.toNat / 2000 : ℚ) ⊓ (1 / 2) ≤ 1 / 2 := min_le_right ..
    have hnonneg : (0 : ℚ) ≤ (latency.toNat / 2000 : ℚ) ⊓ (1 / 2) :=
      le_min (by positivity) (by norm_num)
    simp only [latencyFactor]
    constructor <;> linarith

/-- A longer latency leaves less, and a missing one leaves everything. -/
theorem latencyFactor_anti {latencyMs longer : Option UInt32} (h : latencyMs ≤ longer) :
    latencyFactor longer ≤ latencyFactor latencyMs := by
  cases latencyMs with
  | none => exact (latencyFactor_mem longer).2
  | some latency =>
    cases longer with
    | none => exact absurd h (by simp)
    | some longer =>
      have hle : (latency.toNat : ℚ) ≤ longer.toNat := by
        exact_mod_cast UInt32.le_iff_toNat_le.1 (Option.some_le_some.1 h)
      refine sub_le_sub_left (inf_le_inf_right _ ?_) 1
      exact div_le_div_of_nonneg_right hle (by norm_num)

theorem saturatingSub_toNat (a b : UInt64) : (saturatingSub a b).toNat = a.toNat - b.toNat := by
  unfold saturatingSub
  split_ifs with h
  · exact UInt64.toNat_sub_of_le a b h
  · have hlt : a.toNat < b.toNat := UInt64.lt_iff_toNat_lt.1 (UInt64.not_le.1 h)
    rw [Nat.sub_eq_zero_of_le hlt.le]
    rfl

/-- The weighted CPU and RAM scores, clamped. -/
def rawComposite (profile : NodeProfile) (status : NodeStatus ℚ)
    (reservation : ResourceReservation ℚ) : ℚ :=
  let cpuScore : ℚ := (1 - reservation.cpuReserved - status.cpuUsage) ⊔ 0
  let ramScore : ℚ := ((status.ramAvailableMb.toNat - reservation.ramReservedMb.toNat : ℕ) : ℚ) /
    (max profile.ramTotalMb 1).toNat
  ((3 / 5 * cpuScore + 2 / 5 * ramScore) ⊔ 0) ⊓ 1

variable (profile : NodeProfile) {status busier : NodeStatus ℚ}
  {reservation larger : ResourceReservation ℚ}

theorem rawComposite_mem : 0 ≤ rawComposite profile status reservation ∧
    rawComposite profile status reservation ≤ 1 :=
  ⟨le_min (le_max_right ..) zero_le_one, min_le_right ..⟩

theorem rawComposite_anti (hstatus : status.LoadLE busier) (hreservation : reservation.LE larger) :
    rawComposite profile busier larger ≤ rawComposite profile status reservation := by
  have hcpu : (1 - larger.cpuReserved - busier.cpuUsage) ⊔ 0 ≤
      (1 - reservation.cpuReserved - status.cpuUsage) ⊔ 0 := by
    refine sup_le_sup_right ?_ 0
    have hreserved := hreservation.cpuReserved
    have husage := hstatus.cpuUsage
    linarith
  have hram : busier.ramAvailableMb.toNat - larger.ramReservedMb.toNat ≤
      status.ramAvailableMb.toNat - reservation.ramReservedMb.toNat := by
    have havailable := UInt64.le_iff_toNat_le.1 hstatus.ramAvailableMb
    have hreserved := UInt64.le_iff_toNat_le.1 hreservation.ramReservedMb
    omega
  have hscore : ((busier.ramAvailableMb.toNat - larger.ramReservedMb.toNat : ℕ) : ℚ) /
      (max profile.ramTotalMb 1).toNat ≤
      ((status.ramAvailableMb.toNat - reservation.ramReservedMb.toNat : ℕ) : ℚ) /
        (max profile.ramTotalMb 1).toNat := by
    refine div_le_div_of_nonneg_right ?_ (Nat.cast_nonneg _)
    exact_mod_cast hram
  refine inf_le_inf_right 1 (sup_le_sup_right ?_ 0)
  linarith

namespace EffectiveCapacity

/-- The composite is the product of the three factors. -/
theorem composite_compute_eq :
    (compute profile status reservation).composite =
      rawComposite profile status reservation * status.thermal.penaltyFactor *
        latencyFactor status.latencyMs := by
  have hraw : Scalar.clamp (0.6 * Scalar.max (1.0 - reservation.cpuReserved - status.cpuUsage) 0.0 +
      0.4 * (Scalar.ofNat (saturatingSub status.ramAvailableMb reservation.ramReservedMb).toNat /
        Scalar.ofNat (max profile.ramTotalMb 1).toNat)) 0.0 1.0 =
      rawComposite profile status reservation := by
    rw [Scalar.clamp_rat, Scalar.max_rat, saturatingSub_toNat]
    simp only [rawComposite, Scalar.ofNat]
    norm_num
  unfold compute
  simp only [hraw]
  cases status.latencyMs with
  | none => exact (mul_one _).symm
  | some latency =>
    simp only [latencyFactor, Scalar.min_rat, Scalar.ofNat]
    norm_num

theorem composite_compute_mem :
    0 ≤ (compute profile status reservation).composite ∧
      (compute profile status reservation).composite ≤ 1 := by
  have hraw : 0 ≤ rawComposite profile status reservation ∧
    rawComposite profile status reservation ≤ 1 := rawComposite_mem profile
  have hthermal := status.thermal.penaltyFactor_mem
  have hlatency := latencyFactor_mem status.latencyMs
  rw [composite_compute_eq]
  constructor
  · exact mul_nonneg (mul_nonneg hraw.1 hthermal.1) hlatency.1
  · exact mul_le_one₀ (mul_le_one₀ hraw.2 hthermal.1 hthermal.2) hlatency.1 hlatency.2

/-- The composite lies between `0` and `1` and does not grow with the load or the reservation. -/
theorem composite_compute_anti (hstatus : status.LoadLE busier)
    (hreservation : reservation.LE larger) :
    0 ≤ (compute profile busier larger).composite ∧
      (compute profile busier larger).composite ≤
        (compute profile status reservation).composite ∧
      (compute profile status reservation).composite ≤ 1 := by
  refine ⟨(composite_compute_mem profile).1, ?_, (composite_compute_mem profile).2⟩
  have hraw : 0 ≤ rawComposite profile status reservation ∧
    rawComposite profile status reservation ≤ 1 := rawComposite_mem profile
  have hthermal := busier.thermal.penaltyFactor_mem
  have hlatency := latencyFactor_mem busier.latencyMs
  rw [composite_compute_eq, composite_compute_eq]
  apply mul_le_mul
  · apply mul_le_mul
    · exact rawComposite_anti profile hstatus hreservation
    · exact ThermalState.penaltyFactor_anti hstatus.thermal
    · exact hthermal.1
    · exact hraw.1
  · exact latencyFactor_anti hstatus.latencyMs
  · exact hlatency.1
  · exact mul_nonneg hraw.1 status.thermal.penaltyFactor_mem.1

/-- More load than a processor has, against a negative load and more free than total memory. -/
theorem composite_compute_anti_overloaded :
    let status : NodeStatus ℚ := { makeStatus (-1) 32768 with thermal := .warm }
    let busier : NodeStatus ℚ := { makeStatus 2 4096 with
      thermal := .throttling
      latencyMs := some 1500 }
    0 ≤ (compute (makeProfile "host-a" .desktop) busier (.forDevice .laptop)).composite ∧
      (compute (makeProfile "host-a" .desktop) busier (.forDevice .laptop)).composite ≤
        (compute (makeProfile "host-a" .desktop) status (.forDevice .server)).composite ∧
      (compute (makeProfile "host-a" .desktop) status (.forDevice .server)).composite ≤ 1 := by
  intro status busier
  exact composite_compute_anti _ ⟨by decide +kernel, by decide, Option.none_le, by decide⟩
    ⟨by decide +kernel, by decide⟩

end EffectiveCapacity

end NeuralSwarm
