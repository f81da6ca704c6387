import NeuralSwarm.Basic.Permutation
import NeuralSwarm.Basic.Rounding
import NeuralSwarm.CapacityOrder
import NeuralSwarm.Partition

/-!
# Who gets more layers

The boundary behind the first nodes of the sorted list is the sum of their shares, cut off at the
end of the model, as long as the running total does not wrap.  So a node gets at least as many
layers as any weaker one but the last: what the rounding leaves over goes to the last node.
Composites are exact rationals in the second half.
-/

namespace NeuralSwarm

variable {F P S B : Type}

/-! ## Boundaries -/

section Boundaries

variable [Scalar F] {total : ℕ} {sorted : List (NodeEntry F)} {i j : ℕ}

/-- Where the layers of the first `i` nodes end. -/
def boundary (total : ℕ) (sorted : List (NodeEntry F)) (i : ℕ) : ℕ :=
  if i < sorted.length then (sorted.take i).foldl (layerStop total sorted false) 0 else total

/-- The shares of the first `i` nodes together. -/
def shareSum (total : ℕ) (sorted : List (NodeEntry F)) (i : ℕ) : ℕ :=
  ((sorted.take i).map (share total sorted)).sum

@[simp] theorem shareSum_zero : shareSum total sorted 0 = 0 := rfl

theorem shareSum_succ (hi : i < sorted.length) :
    shareSum total sorted (i + 1) = shareSum total sorted i + share total sorted sorted[i] := by
  rw [shareSum, shareSum, List.take_succ_eq_append_getElem hi, List.map_append, List.sum_append]
  simp

theorem shareSum_mono : Monotone (shareSum total sorted) := by
  refine monotone_nat_of_le_succ fun i => ?_
  by_cases hi : i < sorted.length
  · rw [shareSum_succ hi]
    exact Nat.le_add_right ..
  · rw [shareSum, shareSum, List.take_of_length_le (by omega), List.take_of_length_le (by omega)]

theorem boundary_zero (hne : sorted ≠ []) : boundary total sorted 0 = 0 :=
  if_pos (List.length_pos_of_ne_nil hne)

theorem boundary_succ (hi : i + 1 < sorted.length) :
    boundary total sorted (i + 1) =
      layerStop total sorted false (boundary total sorted i) sorted[i] := by
  have hlt : i < sorted.length := by omega
  rw [boundary, boundary, if_pos hi, if_pos hlt, List.take_succ_eq_append_getElem hlt,
    List.foldl_append]
  rfl

theorem shareSum_of_zero (hzero : Scalar.sum (sorted.map (·.capacity.composite)) ≤ 0.0)
    (hi : i ≤ sorted.length) : shareSum total sorted i = i * (total / sorted.length) := by
  have hshare : share total sorted = fun _ => total / sorted.length := by
    funext n
    simp only [share, layerCount, if_pos hzero, Bool.false_eq_true, if_false]
  rw [shareSum, hshare, List.map_const', List.sum_replicate, List.length_take_of_le hi,
    smul_eq_mul]

/-- Equal parts never exceed the model. -/
theorem shareSum_le_of_zero (hzero : Scalar.sum (sorted.map (·.capacity.composite)) ≤ 0.0)
    (hi : i ≤ sorted.length) : shareSum total sorted i ≤ total := by
  rw [shareSum_of_zero hzero hi]
  calc i * (total / sorted.length) ≤ sorted.length * (total / sorted.length) :=
        Nat.mul_le_mul_right _ hi
    _ ≤ total := Nat.mul_div_le ..

theorem boundary_of_zero (hzero : Scalar.sum (sorted.map (·.capacity.composite)) ≤ 0.0)
    (hi : i < sorted.length) : boundary total sorted i = shareSum total sorted i := by
  induction i with
  | zero => exact boundary_zero (List.ne_nil_of_length_pos hi)
  | succ i ih =>
    rw [boundary_succ hi, shareSum_succ (by omega), ih (by omega), layerStop, if_pos hzero]
    rfl

theorem boundary_le (hi : i < sorted.length) : boundary total sorted i ≤ total := by
  by_cases hzero : Scalar.sum (sorted.map (·.capacity.composite)) ≤ 0.0
  · rw [boundary_of_zero hzero hi]
    exact shareSum_le_of_zero hzero hi.le
  · rcases i with _ | i
    · rw [boundary_zero (List.ne_nil_of_length_pos hi)]
      exact Nat.zero_le _
    · rw [boundary_succ hi, layerStop, if_neg hzero]
      exact min_le_right ..

theorem boundary_succ_le (hi : i + 1 < sorted.length) :
    boundary total sorted (i + 1) ≤ boundary total sorted i + share total sorted sorted[i] := by
  rw [boundary_succ hi, layerStop]
  split_ifs
  · exact le_rfl
  · exact (min_le_left ..).trans (Nat.mod_le ..)

theorem boundary_le_shareSum (hi : i < sorted.length) :
    boundary total sorted i ≤ shareSum total sorted i := by
  induction i with
  | zero => exact (boundary_zero (List.ne_nil_of_length_pos hi)).le
  | succ i ih =>
    rw [shareSum_succ (by omega)]
    exact (boundary_succ_le hi).trans (Nat.add_le_add_right (ih (by omega)) _)

/-- What a wrap takes from the running total never comes back. -/
theorem boundary_add_le_of_wrap (htotal : total < 2 ^ 32)
    (hpos : ¬ Scalar.sum (sorted.map (·.capacity.composite)) ≤ 0.0) (hj : j + 1 < sorted.length)
    (wrap : 2 ^ 32 ≤ boundary total sorted j + share total sorted sorted[j]) (hji : j + 1 ≤ i)
    (hi : i < sorted.length) :
    boundary total sorted i + 2 ^ 32 ≤ shareSum total sorted i := by
  induction i, hji using Nat.le_induction with
  | base =>
    have hstart : boundary total sorted j ≤ total := boundary_le (by omega)
    have hsum : boundary total sorted j ≤ shareSum total sorted j := boundary_le_shareSum (by omega)
    have hshare : share total sorted sorted[j] < 2 ^ 32 := by
      simp only [share, layerCount, Bool.false_eq_true, if_false, if_neg hpos]
      exact UInt32.toNat_lt _
    have hstop : boundary total sorted (j + 1) ≤
        u32Add (boundary total sorted j) (share total sorted sorted[j]) := by
      rw [boundary_succ hj, layerStop, if_neg hpos]
      exact min_le_left ..
    rw [u32Add] at hstop
    rw [shareSum_succ (by omega)]
    omega
  | succ i hji ih =>
    have hstep : boundary total sorted (i + 1) ≤
        boundary total sorted i + share total sorted sorted[i] := boundary_succ_le hi
    have hprev := ih (by omega)
    rw [shareSum_succ (by omega)]
    omega

/-- An empty share leaves the boundary where it is. -/
theorem boundary_succ_of_share_eq_zero (htotal : total < 2 ^ 32) (hi : i + 1 < sorted.length)
    (hshare : share total sorted sorted[i] = 0) :
    boundary total sorted (i + 1) = boundary total sorted i := by
  have hle : boundary total sorted i ≤ total := boundary_le (by omega)
  have hcount : layerCount total sorted false (boundary total sorted i) sorted[i] = 0 := hshare
  rw [boundary_succ hi, layerStop, hcount, u32Add]
  split_ifs <;> omega

/-- The block of a node reaches from its boundary to the next. -/
theorem getElem?_layerBlocks (htotal : total < 2 ^ 32) (hi : i < sorted.length) :
    (layerBlocks total sorted)[i]? = some (List.range' (boundary total sorted i)
      (boundary total sorted (i + 1) - boundary total sorted i)) := by
  have hstart : (sorted.take i).foldl (layerStop total sorted false) 0 = boundary total sorted i :=
    (if_pos hi).symm
  have hstop : layerStop total sorted (i + 1 == sorted.length) (boundary total sorted i) sorted[i] =
      boundary total sorted (i + 1) := by
    by_cases hlast : i + 1 < sorted.length
    · rw [boundary_succ hlast, beq_false_of_ne (by omega)]
    · have heq : i + 1 = sorted.length := by omega
      rw [heq, beq_self_eq_true, layerStop_last htotal (boundary_le hi), boundary,
        if_neg (lt_irrefl _)]
  rw [layerBlocks, getElem?_cutBlocks _ _ hi, hstart, hstop]

/-- The shares fit if at each node what is taken so far and its share stay below `2 ^ 32`. -/
theorem sharesFit_iff_getElem {current : ℕ} {rest : List (NodeEntry F)} :
    SharesFit total sorted current rest ↔ ∀ i (hi : i < rest.length),
      (rest.take i).foldl (layerStop total sorted false) current +
        layerCount total sorted (i + 1 == rest.length)
          ((rest.take i).foldl (layerStop total sorted false) current) rest[i] < 2 ^ 32 := by
  induction rest generalizing current with
  | nil => simp [SharesFit]
  | cons n rest ih =>
    have hhead : (0 + 1 == (n :: rest).length) = rest.isEmpty := by
      cases rest <;> simp
    rw [SharesFit, ih]
    refine Iff.trans (and_congr ?_ (forall₂_congr fun i hi => ?_)) Nat.forall_lt_succ_left'.symm
    · rw [hhead]
      rfl
    · have hempty : rest.isEmpty = false :=
        List.isEmpty_eq_false_iff.2 (List.ne_nil_of_length_pos (by omega))
      have hlast : (i + 1 + 1 == (n :: rest).length) = (i + 1 == rest.length) := by simp
      rw [hempty, hlast]
      rfl

/-- Only the running totals before the last node can wrap. -/
theorem sharesFit_iff_boundary (htotal : total < 2 ^ 32) :
    SharesFit total sorted 0 sorted ↔ ∀ i (hi : i + 1 < sorted.length),
      boundary total sorted i + share total sorted sorted[i] < 2 ^ 32 := by
  have hstart : ∀ i, i < sorted.length →
      (sorted.take i).foldl (layerStop total sorted false) 0 = boundary total sorted i :=
    fun i hi => (if_pos hi).symm
  rw [sharesFit_iff_getElem]
  constructor
  · intro h i hi
    have hfit := h i (by omega)
    rw [hstart i (by omega), beq_false_of_ne (by omega)] at hfit
    exact hfit
  · intro h i hi
    rw [hstart i hi]
    by_cases hlast : i + 1 < sorted.length
    · rw [beq_false_of_ne (by omega)]
      exact h i hlast
    · have hle : boundary total sorted i ≤ total := boundary_le hi
      rw [show i + 1 = sorted.length by omega, beq_self_eq_true]
      simp only [layerCount, if_true]
      omega

/-- One step of the running total. -/
theorem boundary_succ_eq_min (hi : i + 1 < sorted.length)
    (h : boundary total sorted i = min (shareSum total sorted i) total)
    (hfit : boundary total sorted i + share total sorted sorted[i] < 2 ^ 32) :
    boundary total sorted (i + 1) = min (shareSum total sorted (i + 1)) total := by
  by_cases hzero : Scalar.sum (sorted.map (·.capacity.composite)) ≤ 0.0
  · rw [boundary_of_zero hzero hi, min_eq_left (shareSum_le_of_zero hzero hi.le)]
  · have hstop : layerStop total sorted false (boundary total sorted i) sorted[i] =
        min (boundary total sorted i + share total sorted sorted[i]) total := by
      rw [layerStop, if_neg hzero]
      exact congrArg (min · total) (u32Add_of_lt hfit)
    rw [boundary_succ hi, hstop, shareSum_succ (by omega)]
    omega

/-- If the shares fit, the boundaries are the sums of the shares, cut off at the end. -/
theorem boundary_eq_min (htotal : total < 2 ^ 32) (hfit : SharesFit total sorted 0 sorted)
    (hi : i < sorted.length) :
    boundary total sorted i = min (shareSum total sorted i) total := by
  induction i with
  | zero => simp [boundary_zero (List.ne_nil_of_length_pos hi)]
  | succ i ih =>
    exact boundary_succ_eq_min hi (ih (by omega)) ((sharesFit_iff_boundary htotal).1 hfit i hi)

/-- Whether the shares fit, told from the shares alone. -/
theorem sharesFit_iff (htotal : total < 2 ^ 32) :
    SharesFit total sorted 0 sorted ↔ ∀ i (hi : i + 1 < sorted.length),
      min (shareSum total sorted i) total + share total sorted sorted[i] < 2 ^ 32 := by
  constructor
  · intro hfit i hi
    rw [← boundary_eq_min htotal hfit (by omega)]
    exact (sharesFit_iff_boundary htotal).1 hfit i hi
  · intro h
    have hboundary : ∀ i, i < sorted.length →
        boundary total sorted i = min (shareSum total sorted i) total := by
      intro i
      induction i with
      | zero => exact fun hi => by simp [boundary_zero (List.ne_nil_of_length_pos hi)]
      | succ i ih =>
        intro hi
        have hprev := ih (by omega)
        exact boundary_succ_eq_min hi hprev (by rw [hprev]; exact h i hi)
    refine (sharesFit_iff_boundary htotal).2 fun i hi => ?_
    rw [hboundary i (by omega)]
    exact h i hi

theorem boundary_mono_succ (htotal : total < 2 ^ 32) (hfit : SharesFit total sorted 0 sorted)
    (hi : i < sorted.length) : boundary total sorted i ≤ boundary total sorted (i + 1) := by
  by_cases hlast : i + 1 < sorted.length
  · have hmono : shareSum total sorted i ≤ shareSum total sorted (i + 1) :=
      shareSum_mono (Nat.le_succ i)
    rw [boundary_eq_min htotal hfit hi, boundary_eq_min htotal hfit hlast]
    omega
  · have hend : boundary total sorted (i + 1) = total := if_neg hlast
    rw [hend]
    exact boundary_le hi

namespace Orchestrator

variable (env : Platform P S B) (o : Orchestrator F P B) {registry : NodeRegistry F}

/-- After a rebalance a node holds what lies between its boundaries. -/
theorem layersOf_rebalance_getElem (own : registry.OwnIds)
    (hi : i < registry.sortedByCapacity.length) :
    (o.rebalance env registry).layersOf registry.sortedByCapacity[i].id =
      List.range' (boundary o.totalModelLayers.toNat registry.sortedByCapacity i)
        (boundary o.totalModelLayers.toNat registry.sortedByCapacity (i + 1) -
          boundary o.totalModelLayers.toNat registry.sortedByCapacity i) := by
  have hblock := getElem?_layerBlocks o.totalModelLayers.toNat_lt hi
  rw [← map_layersOf_rebalance env o own, List.getElem?_map, List.getElem?_eq_getElem hi] at hblock
  exact Option.some.inj hblock

/-- The first nodes together hold what lies before their boundary. -/
theorem sum_length_layersOf_rebalance (own : registry.OwnIds)
    (hfit : SharesFit o.totalModelLayers.toNat registry.sortedByCapacity 0
      registry.sortedByCapacity)
    (hne : registry.sortedByCapacity ≠ []) (hi : i ≤ registry.sortedByCapacity.length) :
    ((registry.sortedByCapacity.take i).map fun n =>
        ((o.rebalance env registry).layersOf n.id).length).sum =
      boundary o.totalModelLayers.toNat registry.sortedByCapacity i := by
  induction i with
  | zero => exact (boundary_zero hne).symm
  | succ i ih =>
    have hmono := boundary_mono_succ o.totalModelLayers.toNat_lt hfit hi
    rw [List.take_succ_eq_append_getElem hi, List.map_append, List.sum_append, ih (by omega),
      List.map_singleton, List.sum_singleton, layersOf_rebalance_getElem env o own hi,
      List.length_range']
    omega

end Orchestrator

end Boundaries

/-! ## Exact shares -/

section Exact

variable {total : ℕ} {sorted : List (NodeEntry ℚ)}

theorem partialCmp_rat (x y : ℚ) : Scalar.partialCmp x y = some (compare x y) := by
  unfold Scalar.partialCmp
  rcases lt_trichotomy x y with h | h | h
  · rw [if_pos h, compare_lt_iff_lt.2 h]
  · rw [if_neg h.not_lt, if_neg h.not_gt, if_pos h.le, compare_eq_iff_eq.2 h]
  · rw [if_neg h.not_gt, if_pos h, compare_gt_iff_gt.2 h]

/-- The strongest node comes first. -/
theorem NodeRegistry.sortedByCapacity_pairwise (registry : NodeRegistry ℚ) :
    registry.sortedByCapacity.Pairwise
      fun a b => b.capacity.composite ≤ a.capacity.composite := by
  have hkey : registry.sortedByCapacity.Pairwise fun a b : NodeEntry ℚ =>
      toLex (OrderDual.toDual a.capacity.composite, a.id) ≤
        toLex (OrderDual.toDual b.capacity.composite, b.id) :=
    List.pairwise_insertionSort_of_key fun _ _ _ _ =>
      compareCapacity_ne_gt_iff_of_rank id (partialCmp_rat ..)
  refine hkey.imp fun h => ?_
  rcases Prod.Lex.toLex_le_toLex.1 h with hlt | ⟨heq, -⟩
  · exact (OrderDual.toDual_lt_toDual.1 hlt).le
  · exact (OrderDual.toDual_inj.1 heq).ge

theorem scalar_sum_eq_sum (xs : List ℚ) : Scalar.sum xs = xs.sum := by
  have hzero : (0.0 : ℚ) = 0 := by norm_num
  rw [List.sum_eq_foldl, ← hzero]
  rfl

theorem scalar_sum_le_zero_iff (xs : List ℚ) : Scalar.sum xs ≤ 0.0 ↔ ¬ 0 < xs.sum := by
  rw [scalar_sum_eq_sum, not_lt]
  norm_num

/-- The proportional part of the model, rounded half away from zero. -/
def quota (total : ℕ) (sorted : List (NodeEntry ℚ)) (n : NodeEntry ℚ) : ℕ :=
  ⌊n.capacity.composite / (sorted.map (·.capacity.composite)).sum * total + 1 / 2⌋₊

theorem share_of_pos (hpos : 0 < (sorted.map (·.capacity.composite)).sum) (n : NodeEntry ℚ) :
    share total sorted n = (saturatingU32 (quota total sorted n)).toNat := by
  have hnot : ¬ Scalar.sum (sorted.map (·.capacity.composite)) ≤ 0.0 :=
    fun hzero => (scalar_sum_le_zero_iff _).1 hzero hpos
  simp only [share, layerCount, Bool.false_eq_true, if_false, if_neg hnot]
  rw [scalar_sum_eq_sum]
  rfl

theorem share_of_not_pos (hpos : ¬ 0 < (sorted.map (·.capacity.composite)).sum)
    (n : NodeEntry ℚ) : share total sorted n = total / sorted.length := by
  have hzero := (scalar_sum_le_zero_iff _).2 hpos
  simp only [share, layerCount, Bool.false_eq_true, if_false, if_pos hzero]

theorem toNat_saturatingU32 (n : ℕ) : (saturatingU32 n).toNat = min n (2 ^ 32 - 1) := by
  rw [saturatingU32, UInt32.toNat_ofNat']
  omega

/-- A larger composite never has a smaller share. -/
theorem share_mono {a b : NodeEntry ℚ} (h : b.capacity.composite ≤ a.capacity.composite) :
    share total sorted b ≤ share total sorted a := by
  by_cases hpos : 0 < (sorted.map (·.capacity.composite)).sum
  · have hquota : quota total sorted b ≤ quota total sorted a := by
      refine floor_add_half_mono (mul_le_mul_of_nonneg_right ?_ (Nat.cast_nonneg _))
      exact div_le_div_of_nonneg_right h hpos.le
    rw [share_of_pos hpos, share_of_pos hpos, toNat_saturatingU32, toNat_saturatingU32]
    omega
  · rw [share_of_not_pos hpos, share_of_not_pos hpos]

/-! ### Composites that are not negative -/

/-- The exact parts of the first nodes add up. -/
theorem sum_parts (total : ℕ) (sorted : List (NodeEntry ℚ)) (i : ℕ) :
    ((sorted.take i).map fun n =>
        n.capacity.composite / (sorted.map (·.capacity.composite)).sum * (total : ℚ)).sum =
      ((sorted.take i).map (·.capacity.composite)).sum /
        (sorted.map (·.capacity.composite)).sum * total := by
  simp only [div_eq_mul_inv, List.sum_map_mul_right]

variable (nonneg : ∀ n ∈ sorted, 0 ≤ n.capacity.composite)
include nonneg

theorem sum_nonneg : 0 ≤ (sorted.map (·.capacity.composite)).sum :=
  List.sum_nonneg (by simpa using nonneg)

theorem sum_take_le (i : ℕ) : ((sorted.take i).map (·.capacity.composite)).sum ≤
    (sorted.map (·.capacity.composite)).sum := by
  have hsplit := List.sum_take_add_sum_drop (sorted.map (·.capacity.composite)) i
  have hdrop : 0 ≤ ((sorted.map (·.capacity.composite)).drop i).sum := by
    refine List.sum_nonneg fun c hc => ?_
    obtain ⟨n, hn, rfl⟩ := List.mem_map.1 (List.mem_of_mem_drop hc)
    exact nonneg n hn
  rw [List.map_take]
  linarith

/-- The exact parts of the first nodes do not exceed the model. -/
theorem sum_parts_le (total i : ℕ) : ((sorted.take i).map (·.capacity.composite)).sum /
    (sorted.map (·.capacity.composite)).sum * total ≤ total := by
  refine mul_le_of_le_one_left (Nat.cast_nonneg _) ?_
  exact div_le_one_of_le₀ (sum_take_le nonneg i) (sum_nonneg nonneg)

theorem part_nonneg {n : NodeEntry ℚ} (hn : n ∈ sorted) (total : ℕ) :
    0 ≤ n.capacity.composite / (sorted.map (·.capacity.composite)).sum * (total : ℚ) :=
  mul_nonneg (div_nonneg (nonneg n hn) (sum_nonneg nonneg)) (Nat.cast_nonneg _)

theorem quota_le {n : NodeEntry ℚ} (hn : n ∈ sorted) : quota total sorted n ≤ total := by
  refine floor_add_half_le (mul_le_of_le_one_left (Nat.cast_nonneg _) ?_)
  refine div_le_one_of_le₀ (List.single_le_sum ?_ _ (List.mem_map_of_mem hn)) (sum_nonneg nonneg)
  simpa using nonneg

/-- The saturation of `as u32` plays no role. -/
theorem share_eq_quota (htotal : total < 2 ^ 32)
    (hpos : 0 < (sorted.map (·.capacity.composite)).sum) {n : NodeEntry ℚ} (hn : n ∈ sorted) :
    share total sorted n = quota total sorted n := by
  have hle : quota total sorted n ≤ total := quota_le nonneg hn
  rw [share_of_pos hpos, toNat_saturatingU32]
  omega

theorem share_le {n : NodeEntry ℚ} (hn : n ∈ sorted) : share total sorted n ≤ total := by
  by_cases hpos : 0 < (sorted.map (·.capacity.composite)).sum
  · have hle : quota total sorted n ≤ total := quota_le nonneg hn
    rw [share_of_pos hpos, toNat_saturatingU32]
    omega
  · rw [share_of_not_pos hpos]
    exact Nat.div_le_self ..

/-- The running total cannot wrap for a model of less than `2 ^ 31` layers. -/
theorem sharesFit_of_nonneg (htotal : total < 2 ^ 31) : SharesFit total sorted 0 sorted := by
  refine (sharesFit_iff (by omega)).2 fun i hi => ?_
  have hle : share total sorted sorted[i] ≤ total := share_le nonneg (List.getElem_mem _)
  omega

omit nonneg

/-! ### Stronger and weaker nodes -/

/-- The parts of two nodes, the first one the stronger. -/
theorem boundary_sub_le_iff (htotal : total < 2 ^ 32) (hfit : SharesFit total sorted 0 sorted)
    {i j : ℕ} (hij : i < j) (hj : j < sorted.length)
    (hge : sorted[j].capacity.composite ≤ sorted[i].capacity.composite) :
    boundary total sorted (j + 1) - boundary total sorted j ≤
        boundary total sorted (i + 1) - boundary total sorted i ↔
      (j + 1 = sorted.length →
        total ≤ shareSum total sorted j + share total sorted sorted[i]) := by
  have hshare : share total sorted sorted[j] ≤ share total sorted sorted[i] := share_mono hge
  have hsum : shareSum total sorted (i + 1) ≤ shareSum total sorted j := shareSum_mono hij
  have hi : shareSum total sorted (i + 1) =
      shareSum total sorted i + share total sorted sorted[i] :=
    shareSum_succ (hij.trans hj)
  have hstart := boundary_eq_min htotal hfit (hij.trans hj)
  have hstop : boundary total sorted (i + 1) = min (shareSum total sorted (i + 1)) total :=
    boundary_eq_min htotal hfit (by omega)
  have hstart' := boundary_eq_min htotal hfit hj
  by_cases hlast : j + 1 < sorted.length
  · have hstop' := boundary_eq_min htotal hfit hlast
    rw [shareSum_succ hj] at hstop'
    omega
  · have hstop' : boundary total sorted (j + 1) = total := if_neg hlast
    omega

/-! ### The composites that nodes get -/

theorem EffectiveCapacity.composite_compute_nonneg (profile : NodeProfile) (status : NodeStatus ℚ)
    (reservation : ResourceReservation ℚ) :
    0 ≤ (EffectiveCapacity.compute profile status reservation).composite :=
  (EffectiveCapacity.composite_compute_mem profile).1

/-- No rebalance of a run meets a negative composite. -/
theorem Orchestrator.Settled.composite_written_nonneg {o : Orchestrator ℚ P B} (h : o.Settled)
    (op : Op ℚ P B) {key : String} {n : NodeEntry ℚ} (hn : (op.written o).get key = some n) :
    0 ≤ n.capacity.composite := by
  rcases Op.get_written hn with ⟨old, hold, rfl⟩ | ⟨_, _, _, -, rfl⟩
  · rw [((h key old hold).rewrite op).capacity_eq]
    exact EffectiveCapacity.composite_compute_nonneg ..
  · exact EffectiveCapacity.composite_compute_nonneg ..

end Exact

namespace Orchestrator

variable (env : Platform P S B) (o : Orchestrator ℚ P B) {registry : NodeRegistry ℚ}

/-- A node gets at least as many layers as a weaker one, unless the weaker one is the last and what
is left over for it exceeds the share of the stronger one. -/
theorem length_layersOf_le_iff (own : registry.OwnIds)
    (hfit : SharesFit o.totalModelLayers.toNat registry.sortedByCapacity 0
      registry.sortedByCapacity)
    {i j : ℕ} (hij : i < j) (hj : j < registry.sortedByCapacity.length)
    (hge : registry.sortedByCapacity[j].capacity.composite ≤
      registry.sortedByCapacity[i].capacity.composite) :
    ((o.rebalance env registry).layersOf registry.sortedByCapacity[j].id).length ≤
        ((o.rebalance env registry).layersOf registry.sortedByCapacity[i].id).length ↔
      (j + 1 = registry.sortedByCapacity.length →
        o.totalModelLayers.toNat ≤
          shareSum o.totalModelLayers.toNat registry.sortedByCapacity j +
            share o.totalModelLayers.toNat registry.sortedByCapacity
              registry.sortedByCapacity[i]) := by
  rw [layersOf_rebalance_getElem env o own hj, layersOf_rebalance_getElem env o own (hij.trans hj),
    List.length_range', List.length_range']
  exact boundary_sub_le_iff o.totalModelLayers.toNat_lt hfit hij hj hge

/-! ## Three equal nodes -/

/-- Desktops without free memory that report these loads. -/
def joinedWith (total : UInt32) (loads : List (String × ℚ)) :
    Orchestrator ℚ Ed25519PeerId Bytes :=
  (machine Platform.reference).run (new total "secret" []) (loads.map fun load =>
    .announce load.1 (makeProfile load.1 .desktop) (makeStatus load.2 0) 0)

def threeEqual : Orchestrator ℚ Ed25519PeerId Bytes :=
  joinedWith 4 [("node-a", 0.2), ("node-b", 0.2), ("node-c", 0.2)]

theorem ownIds_joinedWith (total : UInt32) (loads : List (String × ℚ)) :
    (joinedWith total loads).registry.OwnIds := ownIds_of_reachable Platform.reference ⟨_, rfl⟩

theorem length_layersOf_le_iff_three_equal :
    ∃ h : 2 < threeEqual.registry.sortedByCapacity.length,
      (((threeEqual.rebalance Platform.reference threeEqual.registry).layersOf
            threeEqual.registry.sortedByCapacity[2].id).length ≤
          ((threeEqual.rebalance Platform.reference threeEqual.registry).layersOf
            threeEqual.registry.sortedByCapacity[0].id).length ↔
        (2 + 1 = threeEqual.registry.sortedByCapacity.length →
          threeEqual.totalModelLayers.toNat ≤
            shareSum threeEqual.totalModelLayers.toNat threeEqual.registry.sortedByCapacity 2 +
              share threeEqual.totalModelLayers.toNat threeEqual.registry.sortedByCapacity
                threeEqual.registry.sortedByCapacity[0])) :=
  ⟨by decide +kernel, length_layersOf_le_iff Platform.reference threeEqual
    (ownIds_joinedWith _ _) (by decide +kernel) (by decide) (by decide +kernel)
    (by decide +kernel)⟩

/-- Four layers are split into one, one and two. -/
theorem not_length_layersOf_le_three_equal :
    ¬ ∀ i j (hij : i < j) (hj : j < threeEqual.registry.sortedByCapacity.length),
      threeEqual.registry.sortedByCapacity[j].capacity.composite ≤
        threeEqual.registry.sortedByCapacity[i].capacity.composite →
      ((threeEqual.rebalance Platform.reference threeEqual.registry).layersOf
          threeEqual.registry.sortedByCapacity[j].id).length ≤
        ((threeEqual.rebalance Platform.reference threeEqual.registry).layersOf
          threeEqual.registry.sortedByCapacity[i].id).length := by
  intro h
  have hlast := h 0 2 (by decide) (by decide +kernel) (by decide +kernel)
  exact absurd hlast (by decide +kernel)

/-- Nodes whose exact parts of `2 ^ 32 - 1` layers are four times `1073741823.5`, one and zero. -/
def halves : Orchestrator ℚ Ed25519PeerId Bytes :=
  let load (part : ℚ) : ℚ := 0.8 - part / 2 ^ 32 / 0.6
  { joinedWith 1 [("node-a", load 1073741823.5), ("node-b", load 1073741823.5),
      ("node-c", load 1073741823.5), ("node-d", load 1073741823.5), ("node-e", load 1),
      ("node-f", load 0)] with totalModelLayers := 4294967295 }

/-- When the running total wraps, a node in the middle can get nothing and the next one a layer. -/
theorem not_length_layersOf_le_halves :
    ∃ h : 4 + 1 < halves.registry.sortedByCapacity.length,
      halves.registry.sortedByCapacity[4].capacity.composite ≤
        halves.registry.sortedByCapacity[3].capacity.composite ∧
      ¬ ((halves.rebalance Platform.reference halves.registry).layersOf
          halves.registry.sortedByCapacity[4].id).length ≤
        ((halves.rebalance Platform.reference halves.registry).layersOf
          halves.registry.sortedByCapacity[3].id).length := by
  have own : halves.registry.OwnIds := ownIds_joinedWith _ _
  refine ⟨by decide +kernel, by decide +kernel, ?_⟩
  rw [layersOf_rebalance_getElem Platform.reference halves own (by decide +kernel),
    layersOf_rebalance_getElem Platform.reference halves own (by decide +kernel),
    List.length_range', List.length_range']
  decide +kernel

end Orchestrator

end NeuralSwarm
