import Mathlib.Algebra.Order.Ring.Nat
import Mathlib.Data.List.Range
import Mathlib.Data.List.Nodup

/-!
# Consecutive blocks of natural numbers

`Consecutive a blocks b` says that the lists of `blocks` are intervals that follow each other from
`a` to `b`.  Such blocks are disjoint and their concatenation is the interval (`flatten_eq`).
`cutBlocks` is the loop that cuts one block for each item of a list, given where each block ends.
-/

/-- The lists of `blocks` are intervals, each starting where the one before it ends. -/
inductive Consecutive : ℕ → List (List ℕ) → ℕ → Prop
  | nil (a : ℕ) : Consecutive a [] a
  | cons {a b c : ℕ} {blocks : List (List ℕ)} (hab : a ≤ b) (rest : Consecutive b blocks c) :
      Consecutive a (List.range' a (b - a) :: blocks) c

namespace Consecutive

variable {a b : ℕ} {blocks : List (List ℕ)}

theorem le (h : Consecutive a blocks b) : a ≤ b := by
  induction h with
  | nil => exact le_rfl
  | cons hab _ ih => exact hab.trans ih

theorem flatten_eq (h : Consecutive a blocks b) : blocks.flatten = List.range' a (b - a) := by
  induction h with
  | nil => simp
  | @cons a b c blocks hab rest ih =>
    have hbc := rest.le
    rw [List.flatten_cons, ih, show c - a = (b - a) + (c - b) by omega, ← List.range'_append_1]
    congr 2
    omega

theorem mem_flatten_iff (h : Consecutive a blocks b) (l : ℕ) :
    l ∈ blocks.flatten ↔ a ≤ l ∧ l < b := by
  have hab := h.le
  rw [h.flatten_eq, List.mem_range'_1]
  omega

theorem pairwise_disjoint (h : Consecutive a blocks b) : blocks.Pairwise List.Disjoint := by
  have nodup : blocks.flatten.Nodup := h.flatten_eq ▸ List.nodup_range'
  exact (List.nodup_flatten.1 nodup).2

/-- The last block, if it is not empty, ends where the interval does. -/
theorem getLast_succ (h : Consecutive a blocks b) {block : List ℕ}
    (hlast : blocks.getLast? = some block) (hne : block ≠ []) :
    block.getLast?.getD 0 + 1 = b := by
  induction h with
  | nil => cases hlast
  | @cons a b c blocks hab rest ih =>
    rcases blocks with _ | ⟨next, blocks⟩
    · cases rest
      rw [List.getLast?_singleton, Option.some.injEq] at hlast
      subst hlast
      have hlt : b - a ≠ 0 := fun h0 => hne (by rw [h0]; rfl)
      rw [List.getLast?_range', if_neg hlt, Option.getD_some]
      omega
    · rw [List.getLast?_cons_cons] at hlast
      exact ih hlast

/-- Every block is an interval inside the whole one. -/
theorem mem_interval (h : Consecutive a blocks b) {block : List ℕ} (hb : block ∈ blocks) :
    ∃ lo hi, a ≤ lo ∧ lo ≤ hi ∧ hi ≤ b ∧ block = List.range' lo (hi - lo) := by
  induction h with
  | nil => simp at hb
  | @cons a b c blocks hab rest ih =>
    rcases List.mem_cons.1 hb with rfl | hb
    · exact ⟨a, b, le_rfl, hab, rest.le, rfl⟩
    · obtain ⟨lo, hi, h1, h2, h3, h4⟩ := ih hb
      exact ⟨lo, hi, hab.trans h1, h2, h3, h4⟩

end Consecutive

variable {α : Type*}

/-- One block for each item: `next last cur x` is where the block of `x` that starts at `cur`
ends, `last` telling whether `x` is the last item. -/
def cutBlocks (next : Bool → ℕ → α → ℕ) : ℕ → List α → List (List ℕ)
  | _, [] => []
  | cur, x :: xs =>
    let stop := next xs.isEmpty cur x
    List.range' cur (stop - cur) :: cutBlocks next stop xs

theorem length_cutBlocks (next : Bool → ℕ → α → ℕ) (cur : ℕ) (xs : List α) :
    (cutBlocks next cur xs).length = xs.length := by
  induction xs generalizing cur with
  | nil => rfl
  | cons x xs ih => simp [cutBlocks, ih]

theorem cutBlocks_map {β : Type*} (next : Bool → ℕ → β → ℕ) (f : α → β) (cur : ℕ) (xs : List α) :
    cutBlocks next cur (xs.map f) = cutBlocks (fun last cur x => next last cur (f x)) cur xs := by
  induction xs generalizing cur with
  | nil => rfl
  | cons x xs ih => simp only [List.map_cons, cutBlocks, List.isEmpty_map, ih]

theorem exists_of_mem_cutBlocks {next : Bool → ℕ → α → ℕ} {cur : ℕ} {xs : List α}
    {block : List ℕ} (h : block ∈ cutBlocks next cur xs) :
    ∃ last start x, block = List.range' start (next last start x - start) := by
  induction xs generalizing cur with
  | nil => cases h
  | cons x xs ih =>
    rcases List.mem_cons.1 h with rfl | h
    · exact ⟨_, _, x, rfl⟩
    · exact ih h

/-- The block of an item starts where the items before it have led. -/
theorem getElem?_cutBlocks (next : Bool → ℕ → α → ℕ) (cur : ℕ) {xs : List α} {i : ℕ}
    (hi : i < xs.length) :
    (cutBlocks next cur xs)[i]? =
      some (List.range' ((xs.take i).foldl (next false) cur)
        (next (i + 1 == xs.length) ((xs.take i).foldl (next false) cur) xs[i] -
          (xs.take i).foldl (next false) cur)) := by
  induction xs generalizing cur i with
  | nil => cases hi
  | cons x xs ih =>
    rw [cutBlocks]
    rcases i with _ | i
    · have hlast : (0 + 1 == (x :: xs).length) = xs.isEmpty := by
        cases xs <;> simp
      rw [List.getElem?_cons_zero, hlast]
      rfl
    · rw [List.length_cons, Nat.add_lt_add_iff_right] at hi
      have hempty : xs.isEmpty = false :=
        List.isEmpty_eq_false_iff.2 (List.ne_nil_of_length_pos (by omega))
      have hlast : (i + 1 + 1 == (x :: xs).length) = (i + 1 == xs.length) := by simp
      rw [List.getElem?_cons_succ, hempty, ih _ hi, hlast]
      rfl

/-- No block ends before it starts. -/
def Forward (next : Bool → ℕ → α → ℕ) : ℕ → List α → Prop
  | _, [] => True
  | cur, x :: xs => cur ≤ next xs.isEmpty cur x ∧ Forward next (next xs.isEmpty cur x) xs

variable {next : Bool → ℕ → α → ℕ} {total cur : ℕ} {xs : List α}

theorem forward_of_nonempty (nonempty : ∀ block ∈ cutBlocks next cur xs, block ≠ []) :
    Forward next cur xs := by
  induction xs generalizing cur with
  | nil => trivial
  | cons x xs ih =>
    refine ⟨?_, ih fun block hb => nonempty block (List.mem_cons_of_mem _ hb)⟩
    by_contra hlt
    refine nonempty _ (List.mem_cons_self ..) ?_
    rw [show next xs.isEmpty cur x - cur = 0 by omega]
    rfl

/-- Blocks that never step back and whose last one ends at `total` are consecutive. -/
theorem cutBlocks_consecutive (lastStop : ∀ cur x, cur ≤ total → next true cur x = total)
    (bounded : ∀ last cur x, next last cur x ≤ total) (hcur : cur ≤ total) (hne : xs ≠ [])
    (forward : Forward next cur xs) : Consecutive cur (cutBlocks next cur xs) total := by
  induction xs generalizing cur with
  | nil => exact absurd rfl hne
  | cons x xs ih =>
    rcases xs with _ | ⟨y, ys⟩
    · have : next true cur x = total := lastStop cur x hcur
      simp only [cutBlocks, List.isEmpty_nil, this]
      exact .cons hcur (.nil _)
    · exact .cons forward.1 (ih (bounded _ _ _) (by simp) forward.2)

/-- Every number from `cur` to `total` is in the block of some item. -/
theorem exists_zip_cutBlocks (lastStop : ∀ cur x, cur ≤ total → next true cur x = total)
    (hne : xs ≠ []) {l : ℕ} (hcur : cur ≤ l) (hl : l < total) :
    ∃ pair ∈ xs.zip (cutBlocks next cur xs), l ∈ pair.2 := by
  induction xs generalizing cur with
  | nil => exact absurd rfl hne
  | cons x xs ih =>
    rw [cutBlocks, List.zip_cons_cons]
    by_cases hlt : l < next xs.isEmpty cur x
    · refine ⟨_, List.mem_cons_self .., ?_⟩
      rw [List.mem_range'_1]
      omega
    · rcases xs with _ | ⟨y, ys⟩
      · have : next true cur x = total := lastStop cur x (by omega)
        exact absurd (this.symm ▸ hl) hlt
      · obtain ⟨pair, hpair, hmem⟩ := ih (by simp) (Nat.le_of_not_lt hlt)
        exact ⟨pair, List.mem_cons_of_mem _ hpair, hmem⟩

/-- Blocks of equal size, the last one taking the rest, are consecutive. -/
theorem cutBlocks_consecutive_of_equal {size : ℕ}
    (step : ∀ cur x, next false cur x = cur + size)
    (lastStop : ∀ cur x, cur ≤ total → next true cur x = total)
    (room : cur + size * xs.length ≤ total) (hne : xs ≠ []) :
    Consecutive cur (cutBlocks next cur xs) total := by
  induction xs generalizing cur with
  | nil => exact absurd rfl hne
  | cons x xs ih =>
    rw [List.length_cons, Nat.mul_succ] at room
    rcases xs with _ | ⟨y, ys⟩
    · have : next true cur x = total := lastStop cur x (by omega)
      simp only [cutBlocks, List.isEmpty_nil, this]
      exact .cons (by omega) (.nil _)
    · have hnext : next (y :: ys).isEmpty cur x = cur + size := step cur x
      rw [cutBlocks, hnext]
      exact .cons (by omega) (ih (by omega) (by simp))

/-- No block is empty if and only if every share but the last is positive and these shares leave
something for the last block. -/
theorem cutBlocks_nonempty_iff {share : α → ℕ}
    (lastStop : ∀ cur x, cur < next true cur x ↔ cur < total)
    (step : ∀ cur x k, cur < next false cur x ∧ next false cur x + k < total ↔
      0 < share x ∧ cur + share x + k < total) (hne : xs ≠ []) :
    (∀ block ∈ cutBlocks next cur xs, block ≠ []) ↔
      (∀ x ∈ xs.dropLast, 0 < share x) ∧ cur + (xs.dropLast.map share).sum < total := by
  have hblock : ∀ cur stop, List.range' cur (stop - cur) ≠ [] ↔ cur < stop := by
    intro cur stop
    rw [ne_eq, List.range'_eq_nil_iff]
    omega
  induction xs generalizing cur with
  | nil => exact absurd rfl hne
  | cons x xs ih =>
    rcases xs with _ | ⟨y, ys⟩
    · rw [cutBlocks, cutBlocks, List.forall_mem_singleton, List.isEmpty_nil, hblock, lastStop]
      simp
    · have hstep := step cur x ((y :: ys).dropLast.map share).sum
      have hrest := @ih (next false cur x) (List.cons_ne_nil y ys)
      rw [cutBlocks, List.forall_mem_cons, hblock, show (y :: ys).isEmpty = false from rfl,
        List.dropLast_cons_of_ne_nil (List.cons_ne_nil y ys), List.forall_mem_cons,
        List.map_cons, List.sum_cons, ← Nat.add_assoc]
      refine (and_congr_right fun _ => hrest).trans ?_
      constructor
      · rintro ⟨h1, h2, h3⟩
        exact ⟨⟨(hstep.1 ⟨h1, h3⟩).1, h2⟩, (hstep.1 ⟨h1, h3⟩).2⟩
      · rintro ⟨⟨h1, h2⟩, h3⟩
        exact ⟨(hstep.2 ⟨h1, h3⟩).1, h2, (hstep.2 ⟨h1, h3⟩).2⟩

/-! ## Intervals recovered from their ends -/

/-- The interval from the first to the last element of a block, both `0` if there is none. -/
def span (block : List ℕ) : List ℕ :=
  List.range' (block.head?.getD 0) (block.getLast?.getD 0 + 1 - block.head?.getD 0)

@[simp] theorem span_nil : span [] = [0] := rfl

theorem span_range' (a n : ℕ) (hn : n ≠ 0) : span (List.range' a n) = List.range' a n := by
  obtain ⟨n, rfl⟩ := Nat.exists_eq_succ_of_ne_zero hn
  have hhead : (List.range' a (n + 1)).head? = some a := by rw [List.range'_succ, List.head?_cons]
  have hlast : (List.range' a (n + 1)).getLast? = some (a + n) := by
    rw [List.getLast?_range', if_neg (by omega)]
    congr 1
  rw [span, Nat.succ_eq_add_one, hhead, hlast, Option.getD_some, Option.getD_some,
    show a + n + 1 - a = n + 1 by omega]

theorem Consecutive.map_span {a b : ℕ} {blocks : List (List ℕ)} (h : Consecutive a blocks b)
    (nonempty : ∀ block ∈ blocks, block ≠ []) : blocks.map span = blocks := by
  refine (List.map_congr_left fun block hb => ?_).trans (List.map_id blocks)
  obtain ⟨lo, hi, -, -, -, rfl⟩ := h.mem_interval hb
  exact span_range' lo (hi - lo) fun h0 => nonempty _ hb (by rw [h0]; rfl)

/-- The first block of a cut starts at `cur`, whether or not it is empty. -/
theorem mem_span_cutBlocks_head {x : α} : 0 ∈ span (List.range' 0 (next xs.isEmpty 0 x - 0)) := by
  rcases Nat.eq_zero_or_pos (next xs.isEmpty 0 x) with h0 | h0
  · rw [h0]
    exact List.mem_singleton.2 rfl
  · rw [span_range' _ _ (by omega), List.mem_range'_1]
    omega

/-- The intervals recovered from the ends cover `0, …, total - 1` in order if and only if no block
is empty: an empty block is recovered as `[0]`, and `0` belongs to the first block. -/
theorem flatten_map_span_eq_iff (htotal : 0 < total) (hne : xs ≠ [])
    (lastStop : ∀ x, next true 0 x = total)
    (consecutive : (∀ block ∈ cutBlocks next 0 xs, block ≠ []) →
      Consecutive 0 (cutBlocks next 0 xs) total) :
    ((cutBlocks next 0 xs).map span).flatten = List.range total ↔
      ∀ block ∈ cutBlocks next 0 xs, block ≠ [] := by
  constructor
  · intro heq
    have nodup : ((cutBlocks next 0 xs).map span).flatten.Nodup := heq ▸ List.nodup_range
    obtain ⟨-, disjoint⟩ := List.nodup_flatten.1 nodup
    obtain ⟨x, xs, rfl⟩ := List.exists_cons_of_ne_nil hne
    rw [cutBlocks, List.map_cons, List.pairwise_cons] at disjoint
    have hrest : ∀ block ∈ cutBlocks next (next xs.isEmpty 0 x) xs, block ≠ [] := by
      rintro _ hb rfl
      exact disjoint.1 _ (List.mem_map_of_mem hb) mem_span_cutBlocks_head (by simp)
    have hfirst : List.range' 0 (next xs.isEmpty 0 x - 0) ≠ [] := by
      intro hempty
      have hstop : next xs.isEmpty 0 x = 0 := by simpa using hempty
      rcases xs with _ | ⟨y, ys⟩
      · exact htotal.ne' ((lastStop x).symm.trans hstop)
      · rw [hstop, cutBlocks] at disjoint
        exact disjoint.1 _ (List.mem_cons_self ..) (by simp) mem_span_cutBlocks_head
    exact List.forall_mem_cons.2 ⟨hfirst, hrest⟩
  · intro nonempty
    have h := consecutive nonempty
    rw [h.map_span nonempty, h.flatten_eq, List.range_eq_range', Nat.sub_zero]
