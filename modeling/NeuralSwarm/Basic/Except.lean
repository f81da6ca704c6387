import Mathlib.Data.List.Basic
import Mathlib.Data.Nat.Notation

/-!
# Computations that may fail

What a sequence of `Except` computations and a `mapM` over a list return when they succeed.
-/

namespace Except

variable {ε α β : Type}

@[simp] theorem ok_bind (a : α) (f : α → Except ε β) : (Except.ok a >>= f) = f a := rfl

@[simp] theorem error_bind (e : ε) (f : α → Except ε β) : (Except.error e >>= f) = .error e := rfl

@[simp] theorem pure_eq_ok (a : α) : (pure a : Except ε α) = .ok a := rfl

theorem bind_eq_ok {x : Except ε α} {f : α → Except ε β} {b : β} :
    (x >>= f) = .ok b ↔ ∃ a, x = .ok a ∧ f a = .ok b := by
  cases x with
  | error e => simp
  | ok a => simp

/-- A last step that does not fail. -/
theorem exists_bind_ok {x : Except ε α} {f : α → β} :
    (∃ b, (x >>= fun a => .ok (f a)) = .ok b) ↔ ∃ a, x = .ok a := by
  cases x with
  | error e => simp
  | ok a => simp

theorem exists_eq_ok_of_isOk {x : Except ε α} (h : x.isOk = true) : ∃ a, x = .ok a := by
  cases x with
  | error e => cases h
  | ok a => exact ⟨a, rfl⟩

/-- What returns no value returns nothing or fails. -/
theorem eq_none_or_error {x : Except ε (Option α)} (h : ∀ a, x ≠ .ok (some a)) :
    x = .ok none ∨ ∃ e, x = .error e := by
  cases x with
  | error e => exact .inr ⟨e, rfl⟩
  | ok x =>
    cases x with
    | none => exact .inl rfl
    | some a => exact absurd rfl (h a)

theorem mapM_append_eq_ok {f : α → Except ε β} {front back : List α} {bs : List β} :
    (front ++ back).mapM f = .ok bs ↔
      ∃ bs1 bs2, front.mapM f = .ok bs1 ∧ back.mapM f = .ok bs2 ∧ bs = bs1 ++ bs2 := by
  rw [List.mapM_append, bind_eq_ok]
  constructor
  · rintro ⟨bs1, h1, h⟩
    obtain ⟨bs2, h2, h⟩ := bind_eq_ok.1 h
    exact ⟨bs1, bs2, h1, h2, (Except.ok.inj h).symm⟩
  · rintro ⟨bs1, bs2, h1, h2, rfl⟩
    exact ⟨bs1, h1, by rw [h2]; rfl⟩

theorem length_of_mapM {f : α → Except ε β} {as : List α} {bs : List β}
    (h : as.mapM f = .ok bs) : bs.length = as.length := by
  induction as generalizing bs with
  | nil =>
    cases h
    rfl
  | cons a as ih =>
    rw [List.mapM_cons, bind_eq_ok] at h
    obtain ⟨b, -, h⟩ := h
    obtain ⟨bs', h', h⟩ := bind_eq_ok.1 h
    cases h
    rw [List.length_cons, ih h', List.length_cons]

theorem exists_of_mem_mapM {f : α → Except ε β} {as : List α} {bs : List β}
    (h : as.mapM f = .ok bs) {b : β} (hb : b ∈ bs) : ∃ a ∈ as, f a = .ok b := by
  induction as generalizing bs with
  | nil =>
    cases h
    cases hb
  | cons a as ih =>
    rw [List.mapM_cons, bind_eq_ok] at h
    obtain ⟨b', hb', h⟩ := h
    obtain ⟨bs', hbs', h⟩ := bind_eq_ok.1 h
    cases h
    rcases List.mem_cons.1 hb with rfl | hb
    · exact ⟨a, List.mem_cons_self .., hb'⟩
    · obtain ⟨a', ha', h⟩ := ih hbs' hb
      exact ⟨a', List.mem_cons_of_mem _ ha', h⟩

/-- A front of at most `n` elements, with nothing behind it if it is shorter, is what `take` cuts
off. -/
theorem eq_take_and_drop {xs front back : List α} {n : ℕ} (h : xs = front ++ back)
    (hlen : front.length ≤ n) (hback : front.length < n → back = []) :
    front = xs.take n ∧ back = xs.drop n := by
  subst h
  rcases Nat.lt_or_eq_of_le hlen with hlt | rfl
  · rw [hback hlt, List.append_nil, List.take_of_length_le hlen, List.drop_of_length_le hlen]
    exact ⟨rfl, rfl⟩
  · rw [List.take_left, List.drop_left]
    exact ⟨rfl, rfl⟩

/-- A part of the list gives the corresponding part of the results. -/
theorem mapM_take_drop {f : α → Except ε β} {as : List α} {bs : List β} (h : as.mapM f = .ok bs)
    (n : ℕ) : (as.take n).mapM f = .ok (bs.take n) ∧ (as.drop n).mapM f = .ok (bs.drop n) := by
  rw [← List.take_append_drop n as, mapM_append_eq_ok] at h
  obtain ⟨bs1, bs2, h1, h2, hbs⟩ := h
  have hlen1 := length_of_mapM h1
  have hlen2 := length_of_mapM h2
  rw [List.length_take] at hlen1
  rw [List.length_drop] at hlen2
  obtain ⟨rfl, rfl⟩ : bs1 = bs.take n ∧ bs2 = bs.drop n :=
    eq_take_and_drop hbs (by omega) fun hlt => List.eq_nil_of_length_eq_zero (by omega)
  exact ⟨h1, h2⟩

end Except
