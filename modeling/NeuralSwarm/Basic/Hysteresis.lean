import Mathlib.Data.List.Basic
import Mathlib.Data.List.Induction
import Mathlib.Order.Lattice

/-!
# A switch with two thresholds

The switch goes on when a value falls below `lo` and off when a value reaches `hi`; in between it
stays as it is.  Its position is a function of the history: it is on if and only if some value was
below `lo` and none since has reached `hi`.
-/

namespace Hysteresis

variable {α : Type*} [LinearOrder α] (lo hi : α)

def switch (on : Bool) (c : α) : Bool :=
  if on = false ∧ c < lo then true else if on = true ∧ hi ≤ c then false else on

/-- Some value is below `lo` and no later one reaches `hi`. -/
def LowSince (cs : List α) : Prop :=
  ∃ front c back, cs = front ++ c :: back ∧ c < lo ∧ ∀ d ∈ back, d < hi

variable {lo hi}

theorem not_lowSince_nil : ¬ LowSince lo hi [] := by
  rintro ⟨front, c, back, hsplit, -⟩
  simp at hsplit

/-- One value more: it is low itself, or the history was and it is not high. -/
theorem lowSince_concat_iff {cs : List α} {d : α} :
    LowSince lo hi (cs ++ [d]) ↔ d < lo ∨ d < hi ∧ LowSince lo hi cs := by
  constructor
  · rintro ⟨front, c, back, hsplit, hlow, hback⟩
    rcases List.eq_nil_or_concat' back with rfl | ⟨back, e, rfl⟩
    · obtain ⟨-, heq⟩ := List.append_inj' hsplit rfl
      cases heq
      exact .inl hlow
    · rw [← List.cons_append, ← List.append_assoc] at hsplit
      obtain ⟨rfl, heq⟩ := List.append_inj' hsplit rfl
      cases heq
      refine .inr ⟨hback d (by simp), front, c, back, rfl, hlow, fun e he => ?_⟩
      exact hback e (List.mem_append_left _ he)
  · rintro (hlow | ⟨hhigh, front, c, back, rfl, hlow, hback⟩)
    · exact ⟨cs, d, [], rfl, hlow, by simp⟩
    · refine ⟨front, c, back ++ [d], by simp, hlow, fun e he => ?_⟩
      rcases List.mem_append.1 he with he | he
      · exact hback e he
      · rwa [List.mem_singleton.1 he]

theorem switch_eq_true_iff (hle : lo ≤ hi) {on : Bool} {c : α} :
    switch lo hi on c = true ↔ c < lo ∨ c < hi ∧ on = true := by
  cases on with
  | false => simp [switch]
  | true =>
    simp only [switch, Bool.true_eq_false, false_and, if_false, true_and, and_true]
    split_ifs with h
    · simp [h.not_gt, (le_trans hle h).not_gt]
    · simp [not_le.1 h]

/-- The position of the switch after a history. -/
theorem foldl_switch_iff (hle : lo ≤ hi) (cs : List α) :
    cs.foldl (switch lo hi) false = true ↔ LowSince lo hi cs := by
  induction cs using List.reverseRecOn with
  | nil => simp [not_lowSince_nil]
  | append_singleton cs d ih =>
    rw [List.foldl_concat, switch_eq_true_iff hle, lowSince_concat_iff, ih]

end Hysteresis
