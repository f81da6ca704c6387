import Mathlib.Data.List.Nodup
import Mathlib.Order.Lattice

/-!
# Ranking by a key

The indices below `n` as a stable sort arranges them: greater keys first, and equal keys in the
order of the indices.  `Beats` is the order of this arrangement; an index is among the first `k` if
and only if fewer than `k` indices beat it (`mem_take_ranking_iff`).
-/

namespace Ranking

variable {κ : Type*} [LinearOrder κ] (key : ℕ → κ)

/-- The indices below `n`, the greatest key first. -/
def ranking (n : ℕ) : List ℕ := (List.range n).mergeSort fun i j => decide (key j ≤ key i)

def Beats (i j : ℕ) : Prop := key j < key i ∨ key i = key j ∧ i < j

instance (i j : ℕ) : Decidable (Beats key i j) := inferInstanceAs (Decidable (_ ∨ _))

variable {key} {n k : ℕ}

theorem Beats.asymm {i j : ℕ} (h : Beats key i j) : ¬ Beats key j i := by
  rintro (hlt | ⟨heq, hlt⟩)
  · rcases h with h | ⟨h, -⟩
    · exact lt_asymm h hlt
    · exact absurd h.symm hlt.ne'
  · rcases h with h | ⟨-, h⟩
    · exact absurd heq h.ne
    · exact Nat.lt_asymm h hlt

theorem perm_ranking : (ranking key n).Perm (List.range n) := List.mergeSort_perm ..

theorem nodup_ranking : (ranking key n).Nodup := perm_ranking.nodup_iff.2 List.nodup_range

theorem mem_ranking {i : ℕ} : i ∈ ranking key n ↔ i < n := by
  rw [perm_ranking.mem_iff, List.mem_range]

@[simp] theorem length_ranking : (ranking key n).length = n := by
  rw [perm_ranking.length_eq, List.length_range]

theorem trans_le (i j l : ℕ) (hij : decide (key j ≤ key i) = true)
    (hjl : decide (key l ≤ key j) = true) : decide (key l ≤ key i) = true := by
  rw [decide_eq_true_iff] at *
  exact hjl.trans hij

theorem total_le (i j : ℕ) : (decide (key j ≤ key i) || decide (key i ≤ key j)) = true := by
  simpa using le_total (key j) (key i)

/-- The sort is stable: the indices with one key stay as they were. -/
theorem filter_ranking (c : κ) :
    (ranking key n).filter (key · = c) = (List.range n).filter (key · = c) := by
  have hsorted : ((List.range n).filter (key · = c)).Pairwise
      fun i j => decide (key j ≤ key i) := by
    refine List.pairwise_of_forall_mem_list fun i hi j hj => ?_
    have hi : key i = c := by simpa using (List.mem_filter.1 hi).2
    have hj : key j = c := by simpa using (List.mem_filter.1 hj).2
    simp [hi, hj]
  have hsub := List.sublist_mergeSort trans_le total_le hsorted List.filter_sublist
  have hfilter := hsub.filter (key · = c)
  rw [List.filter_filter, List.filter_congr fun _ _ => Bool.and_self _] at hfilter
  exact (hfilter.eq_of_length (perm_ranking.filter _).length_eq.symm).symm

/-- Every index beats those behind it. -/
theorem pairwise_ranking : (ranking key n).Pairwise (Beats key) := by
  rw [List.pairwise_iff_forall_sublist]
  intro i j hsub
  have hle : key j ≤ key i := by
    have hsorted := (List.pairwise_mergeSort trans_le total_le (List.range n)).sublist hsub
    simpa using hsorted
  rcases hle.lt_or_eq with hlt | heq
  · exact .inl hlt
  · have hpair : [i, j].Sublist ((List.range n).filter (key · = key i)) := by
      rw [← filter_ranking]
      simpa [heq] using hsub.filter (key · = key i)
    have hlt := (List.pairwise_lt_range.sublist List.filter_sublist).sublist hpair
    exact .inr ⟨heq.symm, by simpa using hlt⟩

/-- What stands among the first `k` of a list in strict order. -/
theorem mem_take_iff {α : Type*} {R : α → α → Prop} [DecidableRel R]
    (asymm : ∀ a b, R a b → ¬ R b a) {l : List α} (sorted : l.Pairwise R) {a : α} (ha : a ∈ l) :
    a ∈ l.take k ↔ l.countP (fun b => R b a) < k := by
  induction l generalizing k with
  | nil => cases ha
  | cons b l ih =>
    obtain ⟨hb, sorted⟩ := List.pairwise_cons.1 sorted
    have irrefl : ∀ c, ¬ R c c := fun c h => asymm c c h h
    cases k with
    | zero => simp
    | succ k =>
      rw [List.take_succ_cons, List.mem_cons, List.countP_cons]
      by_cases heq : a = b
      · subst heq
        have hzero : l.countP (fun c => R c a) = 0 := by
          rw [List.countP_eq_zero]
          intro c hc
          simpa using asymm a c (hb c hc)
        simp [hzero, irrefl]
      · have hmem := (List.mem_cons.1 ha).resolve_left heq
        simp [heq, ih sorted hmem, hb a hmem]

/-- An index is among the first `k` if and only if fewer than `k` beat it. -/
theorem mem_take_ranking_iff {i : ℕ} : i ∈ (ranking key n).take k ↔
    i < n ∧ (List.range n).countP (fun j => Beats key j i) < k := by
  by_cases hi : i < n
  · rw [mem_take_iff (fun _ _ => Beats.asymm) pairwise_ranking (mem_ranking.2 hi),
      perm_ranking.countP_eq]
    simp [hi]
  · have hnot : i ∉ (ranking key n).take k := fun h => hi (mem_ranking.1 (List.mem_of_mem_take h))
    simp [hi, hnot]

end Ranking
