import Mathlib.Data.List.Sort
import Mathlib.Logic.Function.Basic

/-!
# What does not depend on the order of a list

Sorting by keys that tell the elements apart, and writing values under distinct keys.
-/

namespace List

variable {α β κ ν : Type*}

/-- A relation that compares keys in a linear order sorts by the keys. -/
theorem pairwise_insertionSort_of_key [LinearOrder β] {r : α → α → Prop} [DecidableRel r]
    {f : α → β} {l : List α} (hr : ∀ a ∈ l, ∀ b ∈ l, r a b ↔ f a ≤ f b) :
    (l.insertionSort r).Pairwise fun a b => f a ≤ f b := by
  have hmap := map_insertionSort (r := r) (s := fun a b => f a ≤ f b) id l hr
  have total : Std.Total fun a b : α => f a ≤ f b := ⟨fun a b => le_total (f a) (f b)⟩
  have trans : IsTrans α fun a b => f a ≤ f b := ⟨fun _ _ _ hab hbc => hab.trans hbc⟩
  rw [map_id_fun, id_eq, id_eq] at hmap
  rw [hmap]
  exact pairwise_insertionSort _ l

/-- Lists that are permutations of each other are sorted to the same list, if the relation compares
keys in a linear order and no two elements have the same key. -/
theorem insertionSort_eq_of_perm [LinearOrder β] {r : α → α → Prop} [DecidableRel r] {f : α → β}
    {l₁ l₂ : List α} (hr : ∀ a ∈ l₁, ∀ b ∈ l₁, r a b ↔ f a ≤ f b)
    (inj : ∀ a ∈ l₁, ∀ b ∈ l₁, f a = f b → a = b) (h : l₁.Perm l₂) :
    l₁.insertionSort r = l₂.insertionSort r := by
  have hr₂ : ∀ a ∈ l₂, ∀ b ∈ l₂, r a b ↔ f a ≤ f b :=
    fun a ha b hb => hr a (h.mem_iff.2 ha) b (h.mem_iff.2 hb)
  refine Perm.eq_of_pairwise (fun a b ha hb hab hba => ?_) (pairwise_insertionSort_of_key hr)
    (pairwise_insertionSort_of_key hr₂) ?_
  · rw [mem_insertionSort] at ha hb
    exact inj a ha b (h.mem_iff.2 hb) (le_antisymm hab hba)
  · exact (perm_insertionSort _ l₁).trans (h.trans (perm_insertionSort _ l₂).symm)

/-- Values written under distinct keys may be written in any order. -/
theorem foldl_update_of_perm [DecidableEq κ] {l₁ l₂ : List (κ × ν)} (h : l₁.Perm l₂)
    (nodup : (l₁.map Prod.fst).Nodup) (f : κ → ν) :
    l₁.foldl (fun f item => Function.update f item.1 item.2) f =
      l₂.foldl (fun f item => Function.update f item.1 item.2) f := by
  refine h.foldl_eq' (fun x hx y hy f => ?_) f
  by_cases heq : x = y
  · rw [heq]
  · have hne : x.1 ≠ y.1 := fun hkey => heq (inj_on_of_nodup_map nodup hx hy hkey)
    exact Function.update_comm hne ..

end List
