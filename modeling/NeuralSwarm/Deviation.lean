import NeuralSwarm.Shares

/-!
# How far a rebalance is from exact proportions

Every rounding moves the boundaries behind a node by at most half a layer, and cutting the running
total off at the end of the model does not move them further away.  So behind the first `k` nodes
the boundary is within `k / 2` of the exact one, and the last node, which takes what is left, has at
most `(n - 1) / 2` layers more than its part.  Composites are exact rationals.
-/

namespace NeuralSwarm

variable {P S B : Type} {total : ℕ} {sorted : List (NodeEntry ℚ)}

/-- The sum of the shares is off by at most one half for each of them. -/
theorem abs_shareSum_sub_le (nonneg : ∀ n ∈ sorted, 0 ≤ n.capacity.composite)
    (htotal : total < 2 ^ 32) (hpos : 0 < (sorted.map (·.capacity.composite)).sum) {i : ℕ}
    (hi : i ≤ sorted.length) :
    |(shareSum total sorted i : ℚ) - ((sorted.take i).map (·.capacity.composite)).sum /
      (sorted.map (·.capacity.composite)).sum * total| ≤ i / 2 := by
  have hround : ∀ n ∈ sorted.take i, |(share total sorted n : ℚ) -
      n.capacity.composite / (sorted.map (·.capacity.composite)).sum * total| ≤ 1 / 2 := by
    intro n hn
    have hmem : n ∈ sorted := List.mem_of_mem_take hn
    rw [share_eq_quota nonneg htotal hpos hmem]
    exact abs_floor_add_half_sub_le (part_nonneg nonneg hmem total)
  have hsum := abs_sum_sub_sum_le hround
  rw [sum_parts, List.length_take_of_le hi, mul_one_div] at hsum
  rwa [shareSum, Nat.cast_list_sum, List.map_map]

theorem abs_boundary_sub_le (nonneg : ∀ n ∈ sorted, 0 ≤ n.capacity.composite)
    (htotal : total < 2 ^ 31) (hpos : 0 < (sorted.map (·.capacity.composite)).sum) {i : ℕ}
    (hi : i < sorted.length) :
    |(boundary total sorted i : ℚ) - ((sorted.take i).map (·.capacity.composite)).sum /
      (sorted.map (·.capacity.composite)).sum * total| ≤ i / 2 := by
  rw [boundary_eq_min (by omega) (sharesFit_of_nonneg nonneg htotal) hi, Nat.cast_min]
  exact abs_min_sub_le (sum_parts_le nonneg total i)
    (abs_shareSum_sub_le nonneg (by omega) hpos hi.le)

/-- What the last node takes exceeds its exact part by at most one half for each other node. -/
theorem sub_boundary_le (nonneg : ∀ n ∈ sorted, 0 ≤ n.capacity.composite)
    (htotal : total < 2 ^ 31) (hpos : 0 < (sorted.map (·.capacity.composite)).sum) {i : ℕ}
    (hi : i < sorted.length) (hlast : i + 1 = sorted.length) :
    ((total - boundary total sorted i : ℕ) : ℚ) ≤
      sorted[i].capacity.composite / (sorted.map (·.capacity.composite)).sum * total + i / 2 := by
  have hsplit : ((sorted.take i).map (·.capacity.composite)).sum + sorted[i].capacity.composite =
      (sorted.map (·.capacity.composite)).sum := by
    have htake : sorted = sorted.take i ++ [sorted[i]] := by
      rw [← List.take_succ_eq_append_getElem hi, hlast, List.take_length]
    have hsum := congrArg (fun ns => (ns.map (·.capacity.composite)).sum) htake
    simpa only [List.map_append, List.sum_append, List.map_singleton, List.sum_singleton]
      using hsum.symm
  have hparts : ((sorted.take i).map (·.capacity.composite)).sum /
        (sorted.map (·.capacity.composite)).sum * total +
      sorted[i].capacity.composite / (sorted.map (·.capacity.composite)).sum * total = total := by
    rw [← add_mul, ← add_div, hsplit, div_self hpos.ne', one_mul]
  have hbound := (abs_sub_le_iff.1 (abs_boundary_sub_le nonneg htotal hpos hi)).2
  rw [Nat.cast_sub (boundary_le hi)]
  linarith

namespace Orchestrator

variable (env : Platform P S B) (o : Orchestrator ℚ P B) {registry : NodeRegistry ℚ}

/-- The first `k` nodes hold their exact part up to `k / 2` layers; the last node is at most
`(n - 1) / 2` layers above its own. -/
theorem abs_sum_length_sub_le (own : registry.OwnIds)
    (nonneg : ∀ n ∈ registry.activeNodes, 0 ≤ n.capacity.composite)
    (hpos : 0 < (registry.sortedByCapacity.map (·.capacity.composite)).sum)
    (htotal : o.totalModelLayers.toNat < 2 ^ 24) :
    (∀ k < registry.sortedByCapacity.length,
      |((((registry.sortedByCapacity.take k).map fun n =>
            ((o.rebalance env registry).layersOf n.id).length).sum : ℕ) : ℚ) -
          o.totalModelLayers.toNat *
            ((registry.sortedByCapacity.take k).map (·.capacity.composite)).sum /
              (registry.sortedByCapacity.map (·.capacity.composite)).sum| ≤ k / 2) ∧
      ∀ n ∈ registry.sortedByCapacity.getLast?,
        (((o.rebalance env registry).layersOf n.id).length : ℚ) ≤
          o.totalModelLayers.toNat * n.capacity.composite /
              (registry.sortedByCapacity.map (·.capacity.composite)).sum +
            (registry.sortedByCapacity.length - 1) / 2 := by
  have hsorted : ∀ n ∈ registry.sortedByCapacity, 0 ≤ n.capacity.composite :=
    fun n hn => nonneg n (registry.sortedByCapacity_perm.mem_iff.1 hn)
  have hfit : SharesFit o.totalModelLayers.toNat registry.sortedByCapacity 0
      registry.sortedByCapacity := sharesFit_of_nonneg hsorted (by omega)
  constructor
  · intro k hk
    have hne : registry.sortedByCapacity ≠ [] := List.ne_nil_of_length_pos (by omega)
    rw [sum_length_layersOf_rebalance env o own hfit hne hk.le, mul_div_assoc, mul_comm]
    exact abs_boundary_sub_le hsorted (by omega) hpos hk
  · intro n hn
    rw [List.getLast?_eq_getElem?, Option.mem_def, List.getElem?_eq_some_iff] at hn
    obtain ⟨hlt, rfl⟩ := hn
    have hlast : registry.sortedByCapacity.length - 1 + 1 = registry.sortedByCapacity.length := by
      omega
    have hstop : boundary o.totalModelLayers.toNat registry.sortedByCapacity
        (registry.sortedByCapacity.length - 1 + 1) = o.totalModelLayers.toNat :=
      if_neg (by omega)
    have hlen : ((registry.sortedByCapacity.length - 1 : ℕ) : ℚ) =
        registry.sortedByCapacity.length - 1 := by
      rw [Nat.cast_sub (by omega), Nat.cast_one]
    rw [layersOf_rebalance_getElem env o own hlt, List.length_range', hstop, mul_div_assoc,
      mul_comm, ← hlen]
    exact sub_boundary_le hsorted (by omega) hpos hlt hlast

/-- Two of three equal nodes have two of four layers. -/
theorem abs_sum_length_sub_le_three_equal :
    |((((threeEqual.registry.sortedByCapacity.take 2).map fun n =>
          ((threeEqual.rebalance Platform.reference threeEqual.registry).layersOf
            n.id).length).sum : ℕ) : ℚ) -
        threeEqual.totalModelLayers.toNat *
          ((threeEqual.registry.sortedByCapacity.take 2).map (·.capacity.composite)).sum /
            (threeEqual.registry.sortedByCapacity.map (·.capacity.composite)).sum| ≤
      (2 : ℕ) / 2 :=
  (abs_sum_length_sub_le Platform.reference threeEqual (ownIds_joinedWith _ _)
    (by decide +kernel) (by decide +kernel) (by decide +kernel)).1 2 (by decide +kernel)

end Orchestrator

end NeuralSwarm
