import Mathlib.Data.Int.Notation
import Mathlib.Data.List.Infix

/-!
# Readers with a position

What a reader of some contents may do: a read copies elements from the position to the front of an
output buffer, possibly fewer than fit, and a seek moves the position.  A reader that keeps a window
of the contents delivers from it whatever overlaps it.
-/

/-- Where a seek counts from. -/
inductive SeekFrom
  | start (offset : ℕ)
  | fromEnd (offset : ℤ)
  | current (offset : ℤ)
  deriving DecidableEq

/-- The position after a seek in contents of some length; there is none before the start. -/
def SeekFrom.target (length pos : ℕ) : SeekFrom → Option ℕ
  | .start offset => some offset
  | .fromEnd offset => if (length : ℤ) + offset < 0 then none else some (length + offset).toNat
  | .current offset => if (pos : ℤ) + offset < 0 then none else some (pos + offset).toNat

/-- A read of `n` elements: they are those of the contents from `pos` on, the rest of the output
buffer stays, and only the end of the contents or an empty buffer stop the reader. -/
structure Delivers {α : Type*} (contents : List α) (pos : ℕ) (out out' : List α) (n : ℕ) :
    Prop where
  fits : n ≤ out.length
  available : n ≤ contents.length - pos
  copied : out' = (contents.drop pos).take n ++ out.drop n
  progress : n = 0 → contents.length ≤ pos ∨ out = []

variable {α : Type*} {contents window out : List α} {start pos : ℕ}

/-- A read that finds nothing. -/
theorem delivers_zero (h : contents.length ≤ pos ∨ out = []) : Delivers contents pos out out 0 where
  fits := Nat.zero_le _
  available := Nat.zero_le _
  copied := rfl
  progress _ := h

/-- A read from a window of the contents that overlaps the position. -/
theorem delivers_of_window (hwindow : window <+: contents.drop start) (hstart : start ≤ pos)
    (hpos : pos - start < window.length) (hout : out ≠ []) {n : ℕ}
    (hn : n = min (window.drop (pos - start)).length out.length) :
    Delivers contents pos out ((window.drop (pos - start)).take n ++ out.drop n) n := by
  have hdrop : window.drop (pos - start) <+: contents.drop pos := by
    have h := hwindow.drop (pos - start)
    rwa [List.drop_drop, Nat.add_sub_cancel' hstart] at h
  have hlen := hdrop.length_le
  rw [List.length_drop, List.length_drop] at hlen
  obtain ⟨behind, hbehind⟩ := hdrop
  constructor
  · omega
  · rw [List.length_drop] at hn
    omega
  · rw [← hbehind, List.take_append_of_le_length (by omega)]
  · intro hzero
    have hpositive := List.length_pos_iff.2 hout
    rw [List.length_drop] at hn
    omega
