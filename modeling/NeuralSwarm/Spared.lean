import NeuralSwarm.Shares

/-!
# Nodes without capacity

A node whose composite is `0` has an empty share, but if it is the last of the sorted list it takes
what the rounding of all the others has left over.  So the nodes without capacity are spared if and
only if the rounded parts of the others reach the end of the model, and the running total does not
wrap on the way.  Composites are exact rationals.
-/

namespace NeuralSwarm

variable {P S B : Type}

/-! ## The remainder of the last node -/

section Remainder

variable {total : ℕ} {sorted : List (NodeEntry ℚ)}

/-- The rounded parts reach the end of the model, and adding them up in `u32` does not wrap. -/
def QuotasReach (total : ℕ) (sorted : List (NodeEntry ℚ)) : Prop :=
  total ≤ (sorted.map (quota total sorted)).sum ∧
    ∀ i (hi : i < sorted.length), min ((sorted.take i).map (quota total sorted)).sum total +
      quota total sorted sorted[i] < 2 ^ 32

variable (nonneg : ∀ n ∈ sorted, 0 ≤ n.capacity.composite) (htotal : total < 2 ^ 32)
  (hpos : 0 < (sorted.map (·.capacity.composite)).sum)
include nonneg htotal hpos

theorem shareSum_eq_sum_quota (i : ℕ) :
    shareSum total sorted i = ((sorted.take i).map (quota total sorted)).sum :=
  congrArg List.sum (List.map_congr_left fun _ hn =>
    share_eq_quota nonneg htotal hpos (List.mem_of_mem_take hn))

theorem share_of_composite_eq_zero {n : NodeEntry ℚ} (hn : n ∈ sorted)
    (hzero : n.capacity.composite = 0) : share total sorted n = 0 := by
  rw [share_eq_quota nonneg htotal hpos hn, quota, hzero, zero_div, zero_mul, zero_add,
    Nat.floor_eq_zero]
  norm_num

/-- Rounding cannot make the sum of the shares larger than twice the model. -/
theorem shareSum_le_two_mul (i : ℕ) : shareSum total sorted i ≤ 2 * total := by
  have hround : ∀ n ∈ sorted.take i, (share total sorted n : ℚ) ≤
      2 * (n.capacity.composite / (sorted.map (·.capacity.composite)).sum * total) := by
    intro n hn
    have hmem : n ∈ sorted := List.mem_of_mem_take hn
    rw [share_eq_quota nonneg htotal hpos hmem]
    exact floor_add_half_le_two_mul (part_nonneg nonneg hmem total)
  have hsum := List.sum_le_sum hround
  rw [List.sum_map_mul_left, sum_parts] at hsum
  have hparts := sum_parts_le nonneg total i
  have hcast : (shareSum total sorted i : ℚ) ≤ 2 * total := by
    rw [shareSum, Nat.cast_list_sum, List.map_map]
    exact hsum.trans (mul_le_mul_of_nonneg_left hparts (by norm_num))
  exact_mod_cast hcast

/-- Nothing is left for a last node without capacity if and only if the rounded parts reach. -/
theorem boundary_eq_total_iff {i : ℕ} (hi : i < sorted.length) (hlast : i + 1 = sorted.length)
    (hzero : sorted[i].capacity.composite = 0) :
    boundary total sorted i = total ↔ QuotasReach total sorted := by
  have hshare : share total sorted sorted[i] = 0 :=
    share_of_composite_eq_zero nonneg htotal hpos (List.getElem_mem _) hzero
  have hsum : shareSum total sorted i = (sorted.map (quota total sorted)).sum := by
    have hall := shareSum_eq_sum_quota nonneg htotal hpos (i + 1)
    rwa [shareSum_succ hi, hshare, hlast, List.take_length] at hall
  have hfit : SharesFit total sorted 0 sorted ↔ ∀ i (hi : i < sorted.length),
      min ((sorted.take i).map (quota total sorted)).sum total + quota total sorted sorted[i] <
        2 ^ 32 := by
    refine (sharesFit_iff htotal).trans ⟨fun h k hk => ?_, fun h k hk => ?_⟩
    · rw [← shareSum_eq_sum_quota nonneg htotal hpos,
        ← share_eq_quota nonneg htotal hpos (List.getElem_mem hk)]
      by_cases hlt : k + 1 < sorted.length
      · exact h k hlt
      · obtain rfl : k = i := by omega
        omega
    · rw [shareSum_eq_sum_quota nonneg htotal hpos,
        share_eq_quota nonneg htotal hpos (List.getElem_mem _)]
      exact h k (by omega)
  rw [QuotasReach, ← hsum, ← hfit]
  constructor
  · intro heq
    by_cases hfits : SharesFit total sorted 0 sorted
    · rw [boundary_eq_min htotal hfits hi] at heq
      exact ⟨by omega, hfits⟩
    · -- after a wrap the running total stays below the end of the model
      rw [sharesFit_iff_boundary htotal] at hfits
      push Not at hfits
      obtain ⟨j, hj, wrap⟩ := hfits
      have hnot : ¬ Scalar.sum (sorted.map (·.capacity.composite)) ≤ 0.0 :=
        fun hle => (scalar_sum_le_zero_iff _).1 hle hpos
      have hwrap : boundary total sorted i + 2 ^ 32 ≤ shareSum total sorted i :=
        boundary_add_le_of_wrap htotal hnot hj wrap (by omega) hi
      have htwice := shareSum_le_two_mul nonneg htotal hpos i
      omega
  · rintro ⟨hreach, hfits⟩
    rw [boundary_eq_min htotal hfits hi]
    omega

end Remainder

namespace Orchestrator

variable (env : Platform P S B) (o : Orchestrator ℚ P B) {registry : NodeRegistry ℚ}

/-- If a node has no capacity then the last one has none either, as it is the weakest. -/
theorem composite_last_eq_zero
    (nonneg : ∀ n ∈ registry.sortedByCapacity, 0 ≤ n.capacity.composite) {n : NodeEntry ℚ}
    (hn : n ∈ registry.sortedByCapacity) (hzero : n.capacity.composite = 0) {i : ℕ}
    (hi : i < registry.sortedByCapacity.length) (hlast : i + 1 = registry.sortedByCapacity.length) :
    registry.sortedByCapacity[i].capacity.composite = 0 := by
  obtain ⟨j, hj, rfl⟩ := List.mem_iff_getElem.1 hn
  refine le_antisymm ?_ (nonneg _ (List.getElem_mem hi))
  rcases (show j ≤ i by omega).eq_or_lt with rfl | hlt
  · exact hzero.le
  · exact hzero ▸ List.pairwise_iff_getElem.1 registry.sortedByCapacity_pairwise j i hj hi hlt

/-- The last node takes what is left, so it is without layers if the rounded parts reach the end. -/
theorem layersOf_last_eq_nil_iff (own : registry.OwnIds)
    (nonneg : ∀ n ∈ registry.sortedByCapacity, 0 ≤ n.capacity.composite)
    (hpos : 0 < (registry.sortedByCapacity.map (·.capacity.composite)).sum) {i : ℕ}
    (hi : i < registry.sortedByCapacity.length) (hlast : i + 1 = registry.sortedByCapacity.length)
    (hzero : registry.sortedByCapacity[i].capacity.composite = 0) :
    (o.rebalance env registry).layersOf registry.sortedByCapacity[i].id = [] ↔
      QuotasReach o.totalModelLayers.toNat registry.sortedByCapacity := by
  have htotal := o.totalModelLayers.toNat_lt
  have hle : boundary o.totalModelLayers.toNat registry.sortedByCapacity i ≤
      o.totalModelLayers.toNat := boundary_le hi
  have hstop : boundary o.totalModelLayers.toNat registry.sortedByCapacity (i + 1) =
      o.totalModelLayers.toNat := if_neg (by omega)
  rw [← boundary_eq_total_iff nonneg htotal hpos hi hlast hzero,
    layersOf_rebalance_getElem env o own hi, List.range'_eq_nil_iff, hstop]
  omega

/-- The nodes without capacity get no layers if and only if there are none or the rounded parts of
the others reach the end of the model. -/
theorem spared_iff (own : registry.OwnIds)
    (nonneg : ∀ n ∈ registry.activeNodes, 0 ≤ n.capacity.composite)
    (capable : ∃ n ∈ registry.activeNodes, 0 < n.capacity.composite) :
    (∀ n ∈ registry.activeNodes, n.capacity.composite = 0 →
        (o.rebalance env registry).layersOf n.id = []) ↔
      (∀ n ∈ registry.activeNodes, n.capacity.composite ≠ 0) ∨
        QuotasReach o.totalModelLayers.toNat registry.sortedByCapacity := by
  have htotal := o.totalModelLayers.toNat_lt
  simp only [← registry.sortedByCapacity_perm.mem_iff] at nonneg capable ⊢
  obtain ⟨strong, hstrong, hcapable⟩ := capable
  have hpos : 0 < (registry.sortedByCapacity.map (·.capacity.composite)).sum :=
    hcapable.trans_le (List.single_le_sum (by simpa using nonneg) _ (List.mem_map_of_mem hstrong))
  constructor
  · intro spared
    by_cases hall : ∀ n ∈ registry.sortedByCapacity, n.capacity.composite ≠ 0
    · exact .inl hall
    · push Not at hall
      obtain ⟨weak, hweak, hzero⟩ := hall
      have hlen : 0 < registry.sortedByCapacity.length := List.length_pos_of_mem hweak
      have hi : registry.sortedByCapacity.length - 1 < registry.sortedByCapacity.length := by omega
      have hlast := composite_last_eq_zero nonneg hweak hzero hi (by omega)
      have hempty := spared _ (List.getElem_mem hi) hlast
      exact .inr ((layersOf_last_eq_nil_iff env o own nonneg hpos hi (by omega) hlast).1 hempty)
  · rintro (hall | hreach) n hn hzero
    · exact absurd hzero (hall n hn)
    · obtain ⟨i, hi, rfl⟩ := List.mem_iff_getElem.1 hn
      by_cases hlast : i + 1 < registry.sortedByCapacity.length
      · have hshare := share_of_composite_eq_zero nonneg htotal hpos hn hzero
        rw [layersOf_rebalance_getElem env o own hi, List.range'_eq_nil_iff,
          boundary_succ_of_share_eq_zero htotal hlast hshare, Nat.sub_self]
      · exact (layersOf_last_eq_nil_iff env o own nonneg hpos hi (by omega) hzero).2 hreach

/-! ## Three equal nodes and one that is too hot -/

def threeAndCritical : Orchestrator ℚ Ed25519PeerId Bytes :=
  (threeEqual.perform Platform.reference (.announce "node-d" (makeProfile "node-d" .desktop)
    { makeStatus 0.2 0 with thermal := .critical } 0)).1

theorem spared_iff_three_and_critical :
    (∀ n ∈ threeAndCritical.registry.activeNodes, n.capacity.composite = 0 →
        (threeAndCritical.rebalance Platform.reference threeAndCritical.registry).layersOf n.id =
          []) ↔
      (∀ n ∈ threeAndCritical.registry.activeNodes, n.capacity.composite ≠ 0) ∨
        QuotasReach threeAndCritical.totalModelLayers.toNat
          threeAndCritical.registry.sortedByCapacity :=
  spared_iff Platform.reference threeAndCritical
    (perform_ownIds Platform.reference (ownIds_joinedWith _ _) _) (by decide +kernel)
    (by decide +kernel)

/-- Of four layers each equal node gets one, and the node in critical state the last. -/
theorem not_spared_three_and_critical :
    ¬ ((∃ n ∈ threeAndCritical.registry.activeNodes, 0 < n.capacity.composite) →
      ∀ n ∈ threeAndCritical.registry.activeNodes, n.capacity.composite = 0 →
        (threeAndCritical.rebalance Platform.reference threeAndCritical.registry).layersOf n.id =
          []) := by
  decide +kernel

end Orchestrator

end NeuralSwarm
