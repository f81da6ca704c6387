import Mathlib.Data.List.Induction
import NeuralSwarm.Basic.Machine

/-!
# Leases

A lease is granted, renewed, reviewed and revoked by the inputs of a machine.  It is held at the end
of a list of inputs if and only if one of them granted it and it survived all later ones
(`held_eq_some_iff`); what it carries has then been renewed by those.  `Mealy.run_eq_held` finds the
lease in the state of a machine.
-/

/-- What an input does to a lease that carries an `α`. -/
inductive LeaseAction (α : Type*)
  | grant (a : α)
  | renew (f : α → α)
  | review (keep : α → Bool)
  | revoke

namespace LeaseAction

variable {α ι : Type*}

def apply : LeaseAction α → Option α → Option α
  | grant a, _ => some a
  | renew f, lease => lease.map f
  | review keep, lease => lease.filter keep
  | revoke, _ => none

/-- The lease that carries `a` is the same one after the action. -/
def admits : LeaseAction α → α → Prop
  | renew _, _ => True
  | review keep, a => keep a = true
  | grant _, _ | revoke, _ => False

/-- What a lease carries after the action, if it is the same one. -/
def renewal : LeaseAction α → α → α
  | renew f, a => f a
  | _, a => a

/-- Without a grant, an action keeps the lease that it admits. -/
theorem apply_eq_some_iff {action : LeaseAction α} (hgrant : ∀ a, action ≠ grant a)
    {lease : Option α} {a : α} :
    action.apply lease = some a ↔ ∃ b, lease = some b ∧ action.admits b ∧ action.renewal b = a := by
  cases action with
  | grant a => exact absurd rfl (hgrant a)
  | renew f => simp [apply, admits, renewal]
  | review keep =>
    simp only [apply, admits, renewal, Option.filter_eq_some_iff]
    constructor
    · rintro ⟨rfl, hkeep⟩
      exact ⟨a, rfl, hkeep, rfl⟩
    · rintro ⟨b, rfl, hkeep, rfl⟩
      exact ⟨rfl, hkeep⟩
  | revoke => simp [apply, admits]

theorem apply_renew_id (lease : Option α) : (renew fun a => a).apply lease = lease := by
  cases lease <;> rfl

variable (act : ι → LeaseAction α)

/-- The lease after some inputs; there is none at the beginning. -/
def held (is : List ι) : Option α := is.foldl (fun lease i => (act i).apply lease) none

/-- What a lease carries after the inputs that it survived. -/
def renewed (a : α) (is : List ι) : α := is.foldl (fun a i => (act i).renewal a) a

/-- A lease survives inputs if each of them admits what it carries by then. -/
def Survives (a : α) (is : List ι) : Prop :=
  ∀ before i after, is = before ++ i :: after → (act i).admits (renewed act a before)

theorem held_concat (is : List ι) (i : ι) :
    held act (is ++ [i]) = (act i).apply (held act is) := by
  simp only [held, List.foldl_append, List.foldl_cons, List.foldl_nil]

theorem renewed_concat (a : α) (is : List ι) (i : ι) :
    renewed act a (is ++ [i]) = (act i).renewal (renewed act a is) := by
  simp only [renewed, List.foldl_append, List.foldl_cons, List.foldl_nil]

theorem held_map {κ : Type*} (f : κ → ι) (ks : List κ) :
    held act (ks.map f) = held (fun k => act (f k)) ks := by
  rw [held, held, List.foldl_map]

theorem survives_nil (a : α) : Survives act a [] := by
  intro before i after h
  exact absurd h.symm (List.append_ne_nil_of_right_ne_nil _ (List.cons_ne_nil _ _))

/-- The last element of a list is the one in the middle, or it stands behind that. -/
theorem concat_eq_append_cons_iff {is before after : List ι} {i j : ι} :
    is ++ [i] = before ++ j :: after ↔
      (before = is ∧ j = i ∧ after = []) ∨
        ∃ after', after = after' ++ [i] ∧ is = before ++ j :: after' := by
  constructor
  · intro h
    rcases List.eq_nil_or_concat' after with rfl | ⟨after', k, rfl⟩
    · obtain ⟨rfl, hij⟩ := List.append_inj' h rfl
      exact .inl ⟨rfl, (List.cons.inj hij).1.symm, rfl⟩
    · rw [← List.cons_append, ← List.append_assoc] at h
      obtain ⟨rfl, hik⟩ := List.append_inj' h rfl
      exact .inr ⟨after', by rw [(List.cons.inj hik).1], rfl⟩
  · rintro (⟨rfl, rfl, rfl⟩ | ⟨after', rfl, rfl⟩)
    · rfl
    · rw [List.append_assoc, List.cons_append]

theorem survives_concat_iff {a : α} {is : List ι} {i : ι} :
    Survives act a (is ++ [i]) ↔ Survives act a is ∧ (act i).admits (renewed act a is) := by
  constructor
  · intro h
    refine ⟨fun before j after heq => ?_, h is i [] rfl⟩
    exact h before j (after ++ [i]) (by rw [heq, List.append_assoc, List.cons_append])
  · rintro ⟨hsurvives, hadmits⟩ before j after heq
    rcases (concat_eq_append_cons_iff).1 heq with ⟨rfl, rfl, -⟩ | ⟨after', -, rfl⟩
    · exact hadmits
    · exact hsurvives before j after' rfl

/-- A lease is held if and only if it was granted and survived all that came later. -/
theorem held_eq_some_iff {is : List ι} {a : α} :
    held act is = some a ↔ ∃ before i granted after, is = before ++ i :: after ∧
      act i = grant granted ∧ Survives act granted after ∧ renewed act granted after = a := by
  induction is using List.reverseRecOn generalizing a with
  | nil =>
    constructor
    · intro h
      cases h
    · rintro ⟨before, i, granted, after, h, -⟩
      exact absurd h.symm (List.append_ne_nil_of_right_ne_nil _ (List.cons_ne_nil _ _))
  | append_singleton is i ih =>
    rw [held_concat]
    by_cases hgrant : ∃ granted, act i = grant granted
    · obtain ⟨granted, hgrant⟩ := hgrant
      rw [hgrant, apply, Option.some.injEq]
      constructor
      · rintro rfl
        exact ⟨is, i, granted, [], rfl, hgrant, survives_nil act granted, rfl⟩
      · rintro ⟨before, j, granted', after, heq, hj, hsurvives, rfl⟩
        rcases concat_eq_append_cons_iff.1 heq with ⟨rfl, rfl, rfl⟩ | ⟨after', rfl, -⟩
        · cases hgrant.symm.trans hj
          rfl
        · have hadmits := (survives_concat_iff act).1 hsurvives |>.2
          rw [hgrant] at hadmits
          exact hadmits.elim
    · rw [apply_eq_some_iff fun granted h => hgrant ⟨granted, h⟩]
      constructor
      · rintro ⟨b, hb, hadmits, rfl⟩
        obtain ⟨before, j, granted, after, rfl, hj, hsurvives, rfl⟩ := ih.1 hb
        refine ⟨before, j, granted, after ++ [i], ?_, hj, ?_, renewed_concat act granted after i⟩
        · rw [List.append_assoc, List.cons_append]
        · exact (survives_concat_iff act).2 ⟨hsurvives, hadmits⟩
      · rintro ⟨before, j, granted, after, heq, hj, hsurvives, rfl⟩
        rcases concat_eq_append_cons_iff.1 heq with ⟨-, rfl, -⟩ | ⟨after', rfl, rfl⟩
        · exact absurd ⟨granted, hj⟩ hgrant
        · obtain ⟨hsurvives, hadmits⟩ := (survives_concat_iff act).1 hsurvives
          exact ⟨_, ih.2 ⟨before, j, granted, after', rfl, hj, hsurvives, rfl⟩, hadmits,
            (renewed_concat act granted after' i).symm⟩

end LeaseAction

namespace Mealy

variable {σ ι ο α : Type*} (M : Mealy σ ι ο)

/-- The inputs of a run, each with its answer. -/
def trace : σ → List ι → List (ι × ο)
  | _, [] => []
  | s, i :: is => (i, (M.step s i).2) :: trace (M.step s i).1 is

theorem map_fst_trace (s : σ) (is : List ι) : (M.trace s is).map Prod.fst = is := by
  induction is generalizing s with
  | nil => rfl
  | cons i is ih => rw [trace, List.map_cons, ih]

/-- If every step acts on a part of the state as a lease, then after a run that part is the lease
that its inputs and answers leave. -/
theorem run_eq_held (lease : σ → Option α) (act : ι × ο → LeaseAction α) {I : σ → Prop}
    (preserved : ∀ s i, I s → I (M.step s i).1)
    (acts : ∀ s i, I s → lease (M.step s i).1 = (act (i, (M.step s i).2)).apply (lease s))
    {init : σ} (initial : I init) (hnone : lease init = none) (is : List ι) :
    lease (M.run init is) = LeaseAction.held act (M.trace init is) := by
  suffices hfold : ∀ s, I s → lease (M.run s is) =
      (M.trace s is).foldl (fun lease i => (act i).apply lease) (lease s) by
    rw [hfold init initial, hnone]
    rfl
  intro s hs
  induction is generalizing s with
  | nil => rfl
  | cons i is ih => rw [run_cons, ih _ (preserved s i hs), trace, List.foldl_cons, acts s i hs]

end Mealy
