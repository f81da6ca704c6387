import Mathlib.Data.List.AList

/-!
# Updating the values of an association list

`mapValues` rewrites the values of an association list in place: keys and order of the entries stay.
-/

namespace AList

variable {α β : Type*} [DecidableEq α]

/-- Applies `f` to every key and value, in place. -/
def mapValues (f : α → β → β) (s : AList fun _ : α => β) : AList fun _ : α => β :=
  ⟨s.entries.map (.map id f), s.nodupKeys.map₂ f⟩

theorem lookup_mapValues (f : α → β → β) (s : AList fun _ : α => β) (a : α) :
    (s.mapValues f).lookup a = (s.lookup a).map (f a) := List.dlookup_map₂ a

theorem mapValues_congr {f g : α → β → β} {s : AList fun _ : α => β}
    (hfg : ∀ a b, s.lookup a = some b → f a b = g a b) : s.mapValues f = s.mapValues g := by
  refine AList.ext (List.map_congr_left fun ⟨a, b⟩ hmem => ?_)
  exact congrArg (Sigma.mk a) (hfg a b (mem_lookup_iff.2 hmem))

omit [DecidableEq α] in
theorem mapValues_id (s : AList fun _ : α => β) : (s.mapValues fun _ b => b) = s :=
  AList.ext (List.map_id _)

omit [DecidableEq α] in
theorem mapValues_mapValues (f g : α → β → β) (s : AList fun _ : α => β) :
    (s.mapValues f).mapValues g = s.mapValues fun a b => g a (f a b) :=
  AList.ext (List.map_map ..)

theorem erase_mapValues (f : α → β → β) (s : AList fun _ : α => β) (a : α) :
    (s.mapValues f).erase a = (s.erase a).mapValues f :=
  AList.ext (List.eraseP_map ..)

/-- The values, in the order of the entries. -/
def values (s : AList fun _ : α => β) : List β := s.entries.map Sigma.snd

theorem mem_values_iff {s : AList fun _ : α => β} {b : β} :
    b ∈ s.values ↔ ∃ a, s.lookup a = some b := by
  simp only [values, List.mem_map]
  constructor
  · rintro ⟨⟨a, b⟩, hmem, rfl⟩
    exact ⟨a, mem_lookup_iff.2 hmem⟩
  · rintro ⟨a, ha⟩
    exact ⟨⟨a, b⟩, mem_lookup_iff.1 ha, rfl⟩

theorem values_mapValues (f : α → β → β) (s : AList fun _ : α => β) {g : β → β}
    (hfg : ∀ a b, s.lookup a = some b → f a b = g b) :
    (s.mapValues f).values = s.values.map g := by
  simp only [values, mapValues, List.map_map]
  refine List.map_congr_left fun ⟨a, b⟩ hmem => ?_
  exact hfg a b (mem_lookup_iff.2 hmem)

theorem entries_eq_nil_iff {s : AList fun _ : α => β} :
    s.entries = [] ↔ ∀ a, s.lookup a = none := by
  constructor
  · intro h a
    rw [lookup, h, List.dlookup_nil]
  · intro h
    refine List.eq_nil_iff_forall_not_mem.2 fun ⟨a, b⟩ hmem => ?_
    have := mem_lookup_iff.2 hmem
    rw [h a] at this
    cases this

/-- If every value contains its key, these keys are distinct. -/
theorem map_values_nodup {s : AList fun _ : α => β} {key : β → α}
    (hkey : ∀ a b, s.lookup a = some b → key b = a) : (s.values.map key).Nodup := by
  have : s.values.map key = s.keys := by
    simp only [values, keys, List.keys, List.map_map]
    exact List.map_congr_left fun ⟨a, b⟩ hmem => hkey a b (mem_lookup_iff.2 hmem)
  exact this ▸ s.keys_nodup

end AList
