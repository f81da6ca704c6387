import Mathlib.Data.List.Basic
import Mathlib.Data.List.ReduceOption

/-!
# Machines that answer every input

A `Mealy` machine takes an input and returns its next state and an answer.  Runs are lists of
inputs.  `Guarded` restricts the inputs of a run by the state each one meets, `invariant` is the
induction rule along guarded runs, and `observe` adds a history variable that follows the run
without influencing it.  Two machines are compared along their runs by `answers_of_simulation` and
`run_of_refinement`, for the same inputs, by `answersTo_of_unwinding`, where one of them sees only
some of the inputs, and by `exists_answers_of_deferral`, where one of them answers later.
-/

/-- A deterministic machine with states `σ`, inputs `ι` and answers `ο`. -/
structure Mealy (σ ι ο : Type*) where
  step : σ → ι → σ × ο

namespace Mealy

variable {σ ι ο γ : Type*} (M : Mealy σ ι ο)

/-- The state after a list of inputs. -/
def run (s : σ) (is : List ι) : σ := is.foldl (fun s i => (M.step s i).1) s

/-- The answers to a list of inputs, in order. -/
def answers : σ → List ι → List ο
  | _, [] => []
  | s, i :: is => (M.step s i).2 :: answers (M.step s i).1 is

/-- The answers to the selected inputs of a run. -/
def answersTo (sel : ι → Bool) : σ → List ι → List ο
  | _, [] => []
  | s, i :: is =>
    if sel i then (M.step s i).2 :: answersTo sel (M.step s i).1 is
    else answersTo sel (M.step s i).1 is

/-- Every input of the run meets the guard in the state that receives it. -/
def Guarded (G : σ → ι → Prop) : σ → List ι → Prop
  | _, [] => True
  | s, i :: is => G s i ∧ Guarded G (M.step s i).1 is

instance decidableGuarded (G : σ → ι → Prop) [∀ s i, Decidable (G s i)] :
    ∀ s is, Decidable (M.Guarded G s is)
  | _, [] => .isTrue trivial
  | s, i :: is =>
    have := decidableGuarded G (M.step s i).1 is
    inferInstanceAs (Decidable (G s i ∧ M.Guarded G (M.step s i).1 is))

@[simp] theorem run_nil (s : σ) : M.run s [] = s := rfl

@[simp] theorem run_cons (s : σ) (i : ι) (is : List ι) :
    M.run s (i :: is) = M.run (M.step s i).1 is := rfl

theorem run_append (s : σ) (is js : List ι) : M.run s (is ++ js) = M.run (M.run s is) js :=
  List.foldl_append

theorem run_concat (s : σ) (is : List ι) (i : ι) :
    M.run s (is ++ [i]) = (M.step (M.run s is) i).1 := M.run_append s is [i]

theorem answers_append (s : σ) (is js : List ι) :
    M.answers s (is ++ js) = M.answers s is ++ M.answers (M.run s is) js := by
  induction is generalizing s with
  | nil => rfl
  | cons i is ih => rw [List.cons_append, answers, answers, ih, List.cons_append, run_cons]

theorem guarded_append (G : σ → ι → Prop) (s : σ) (is js : List ι) :
    M.Guarded G s (is ++ js) ↔ M.Guarded G s is ∧ M.Guarded G (M.run s is) js := by
  induction is generalizing s with
  | nil => simp [Guarded]
  | cons i is ih => simp only [List.cons_append, Guarded, ih, run_cons, and_assoc]

theorem guarded_of_forall {G : ι → Prop} (s : σ) {is : List ι} (h : ∀ i ∈ is, G i) :
    M.Guarded (fun _ i => G i) s is := by
  induction is generalizing s with
  | nil => trivial
  | cons i is ih =>
    exact ⟨h i (List.mem_cons_self ..), ih _ fun j hj => h j (List.mem_cons_of_mem _ hj)⟩

theorem Guarded.mono {G H : σ → ι → Prop} (hGH : ∀ s i, G s i → H s i) {s : σ} {is : List ι}
    (h : M.Guarded G s is) : M.Guarded H s is := by
  induction is generalizing s with
  | nil => trivial
  | cons i is ih => exact ⟨hGH s i h.1, ih h.2⟩

/-- What every guarded step preserves holds after every guarded run. -/
theorem invariant {G : σ → ι → Prop} {P : σ → Prop}
    (preserved : ∀ s i, P s → G s i → P (M.step s i).1) {s : σ} {is : List ι} (initial : P s)
    (guarded : M.Guarded G s is) : P (M.run s is) := by
  induction is generalizing s with
  | nil => exact initial
  | cons i is ih => exact ih (preserved s i initial guarded.1) guarded.2

/-- Where exactly the guarded inputs keep `P`, the guarded runs are those that keep it
throughout. -/
theorem guarded_iff_prefixes {G : σ → ι → Prop} {I P : σ → Prop}
    (preserved : ∀ s i, I s → I (M.step s i).1)
    (keeps : ∀ s i, I s → P s → (P (M.step s i).1 ↔ G s i)) {s : σ} {is : List ι}
    (hI : I s) (hP : P s) : (∀ js, js <+: is → P (M.run s js)) ↔ M.Guarded G s is := by
  induction is generalizing s with
  | nil => simp [Guarded, hP]
  | cons i is ih =>
    constructor
    · intro h
      have hi : P (M.step s i).1 := h [i] ⟨is, rfl⟩
      refine ⟨(keeps s i hI hP).1 hi, (ih (preserved s i hI) hi).1 fun js hjs => ?_⟩
      exact h (i :: js) (List.prefix_cons_inj i |>.2 hjs)
    · rintro ⟨hG, hrest⟩ js hjs
      rcases js with - | ⟨j, js⟩
      · exact hP
      · obtain ⟨rfl, hprefix⟩ := List.cons_prefix_cons.1 hjs
        exact (ih (preserved s j hI) ((keeps s j hI hP).2 hG)).2 hrest js hprefix

/-- The states that some list of inputs reaches. -/
def Reachable (init s : σ) : Prop := ∃ is, M.run init is = s

theorem Reachable.invariant {P : σ → Prop} (preserved : ∀ s i, P s → P (M.step s i).1)
    {init s : σ} (initial : P init) (h : M.Reachable init s) : P s := by
  obtain ⟨is, rfl⟩ := h
  exact M.invariant (fun s i hs _ => preserved s i hs) initial
    (M.guarded_of_forall init fun _ _ => trivial)

/-- The same machine with a history variable beside its state. -/
def observe (note : γ → σ → ι → ο → γ) : Mealy (σ × γ) ι ο where
  step x i := (((M.step x.1 i).1, note x.2 x.1 i (M.step x.1 i).2), (M.step x.1 i).2)

variable (note : γ → σ → ι → ο → γ)

@[simp] theorem observe_step_fst (x : σ × γ) (i : ι) :
    ((M.observe note).step x i).1.1 = (M.step x.1 i).1 := rfl

@[simp] theorem observe_step_answer (x : σ × γ) (i : ι) :
    ((M.observe note).step x i).2 = (M.step x.1 i).2 := rfl

theorem observe_run_fst (x : σ × γ) (is : List ι) :
    ((M.observe note).run x is).1 = M.run x.1 is := by
  induction is generalizing x with
  | nil => rfl
  | cons i is ih => rw [run_cons, ih, observe_step_fst, run_cons]

/-- A history variable does not change the answers. -/
theorem observe_answersTo (sel : ι → Bool) (x : σ × γ) (is : List ι) :
    (M.observe note).answersTo sel x is = M.answersTo sel x.1 is := by
  induction is generalizing x with
  | nil => rfl
  | cons i is ih => simp only [answersTo, observe_step_answer, ih, observe_step_fst]

/-! ## Comparing two machines -/

variable {τ ο' : Type*} {M} {N : Mealy τ ι ο'} {R : σ → τ → Prop}

/-- Machines whose steps correspond, as long as the first accepts, answer alike. -/
theorem answers_of_simulation {accepts : ο → Prop} {f : ο → ο'}
    (simulates : ∀ s t i, R s t → accepts (M.step s i).2 →
      R (M.step s i).1 (N.step t i).1 ∧ (N.step t i).2 = f (M.step s i).2)
    {s : σ} {t : τ} {is : List ι} (related : R s t) (accepted : ∀ o ∈ M.answers s is, accepts o) :
    N.answers t is = (M.answers s is).map f := by
  induction is generalizing s t with
  | nil => rfl
  | cons i is ih =>
    simp only [answers, List.forall_mem_cons] at accepted
    obtain ⟨hnext, hanswer⟩ := simulates s t i related accepted.1
    rw [answers, answers, List.map_cons, hanswer, ih hnext accepted.2]

/-- If `f` maps the steps of one machine to those of the other as long as `P` holds, then it maps
the runs that keep `P`. -/
theorem run_of_refinement {G : σ → ι → Prop} {P : σ → Prop} {f : σ → τ}
    (preserved : ∀ s i, P s → G s i → P (M.step s i).1)
    (maps : ∀ s i, P s → G s i → (N.step (f s) i).1 = f (M.step s i).1) {s : σ} {is : List ι}
    (initial : P s) (guarded : M.Guarded G s is) : N.run (f s) is = f (M.run s is) := by
  induction is generalizing s with
  | nil => rfl
  | cons i is ih =>
    rw [run_cons, run_cons, maps s i initial guarded.1]
    exact ih (preserved s i initial guarded.1) guarded.2

/-- If the selected inputs are answered alike and the others keep the two states related, then the
selected inputs are answered as in a run of their own. -/
theorem answersTo_of_unwinding {N : Mealy τ ι ο} {G : σ → ι → Prop} {sel : ι → Bool}
    (own : ∀ s t i, R s t → G s i → sel i = true →
      R (M.step s i).1 (N.step t i).1 ∧ (M.step s i).2 = (N.step t i).2)
    (other : ∀ s t i, R s t → G s i → sel i = false → R (M.step s i).1 t)
    {s : σ} {t : τ} {is : List ι} (related : R s t) (guarded : M.Guarded G s is) :
    M.answersTo sel s is = N.answers t (is.filter sel) := by
  induction is generalizing s t with
  | nil => rfl
  | cons i is ih =>
    cases hsel : sel i with
    | true =>
      obtain ⟨hnext, hanswer⟩ := own s t i related guarded.1 hsel
      rw [answersTo, hsel, if_pos rfl, List.filter_cons_of_pos hsel, answers, hanswer,
        ih hnext guarded.2]
    | false =>
      rw [answersTo, hsel, if_neg Bool.false_ne_true,
        List.filter_cons_of_neg (by rw [hsel]; exact Bool.false_ne_true)]
      exact ih (other s t i related guarded.1 hsel) guarded.2

/-- If the selected inputs are answered later, after any number of others, then the answers are
those of a machine that answers them at once, but for the one that is `pending`. -/
theorem exists_answers_of_deferral {κ : Type*} {M : Mealy σ ι (Option ο)}
    {N : Mealy τ κ (Option ο)} {G : σ → ι → Prop} {sel : ι → Option κ}
    {R : σ → Option ο → τ → Prop}
    (own : ∀ s pending t i k, R s pending t → G s i → sel i = some k → pending = none ∧
      (M.step s i).2 = none ∧ R (M.step s i).1 (N.step t k).2 (N.step t k).1)
    (other : ∀ s pending t i, R s pending t → G s i → sel i = none →
      (M.step s i).2 = none ∧ R (M.step s i).1 pending t ∨
        (M.step s i).2 = pending ∧ R (M.step s i).1 none t)
    {s : σ} {pending : Option ο} {t : τ} {is : List ι} (related : R s pending t)
    (guarded : M.Guarded G s is) :
    ∃ left, R (M.run s is) left (N.run t (is.filterMap sel)) ∧
      (M.answers s is).reduceOption ++ left.toList =
        pending.toList ++ (N.answers t (is.filterMap sel)).reduceOption := by
  induction is generalizing s pending t with
  | nil => exact ⟨pending, related, by simp [answers]⟩
  | cons i is ih =>
    rcases hsel : sel i with - | k
    · rw [List.filterMap_cons_none hsel, run_cons, answers]
      rcases other s pending t i related guarded.1 hsel with ⟨hanswer, hnext⟩ | ⟨hanswer, hnext⟩
      · obtain ⟨left, hleft, heq⟩ := ih hnext guarded.2
        exact ⟨left, hleft, by rw [hanswer, List.reduceOption_cons_of_none, heq]⟩
      · obtain ⟨left, hleft, heq⟩ := ih hnext guarded.2
        refine ⟨left, hleft, ?_⟩
        rw [Option.toList_none, List.nil_append] at heq
        rw [hanswer, ← heq]
        cases pending <;> rfl
    · rw [List.filterMap_cons_some hsel, run_cons, run_cons, answers, answers]
      obtain ⟨rfl, hanswer, hnext⟩ := own s pending t i k related guarded.1 hsel
      obtain ⟨left, hleft, heq⟩ := ih hnext guarded.2
      refine ⟨left, hleft, ?_⟩
      rw [hanswer, List.reduceOption_cons_of_none, heq, Option.toList_none, List.nil_append]
      cases (N.step t k).2 <;> rfl

end Mealy
