import Mathlib.Data.List.Induction
import NeuralSwarm.Basic.Ranking
import NeuralSwarm.QuantizedLlama.Layer

/-!
# Routing of rows to experts

The loops of `MlpOrMoe::forward` that fill `top_x` and `selected_rws`, as they are written: for each
row and each expert chosen for it, a push into the lists of the expert.  They compute what
`rowsOfExpert` says, and they panic exactly if a row chooses an expert that does not exist
(`route_eq`).  A row goes to the experts that fewer than `nExpertUsed` others beat
(`routed_iff_and_count`).
-/

namespace NeuralSwarm

open Ranking

/-! ## The loops -/

/-- `lists[i].push(a)`. -/
def pushAt {α : Type} (lists : List (List α)) (i : ℕ) (a : α) : Except String (List (List α)) :=
  if i < lists.length then .ok (lists.modify i (· ++ [a])) else .error "index out of bounds"

/-- The rows of each expert and their weights, in the order of the experts. -/
structure Routing where
  topX : List (List ℕ)
  selectedRws : List (List Float32)

def Routing.new (nExperts : ℕ) : Routing :=
  { topX := List.replicate nExperts [], selectedRws := List.replicate nExperts [] }

/-- The body of the first loop over the experts chosen for a row. -/
def pushRow (rowIdx : ℕ) (rw : List Float32) :
    Float32 × List (List ℕ) → ℕ → Except String (Float32 × List (List ℕ))
  | (sumRoutingWeights, topX), expertIdx => do
    let topX ← pushAt topX expertIdx rowIdx
    return (sumRoutingWeights + rw.getD expertIdx 0, topX)

/-- The body of the second. -/
def pushWeight (sumRoutingWeights : Float32) (rw : List Float32)
    (selectedRws : List (List Float32)) (expertIdx : ℕ) : Except String (List (List Float32)) :=
  pushAt selectedRws expertIdx (rw.getD expertIdx 0 / sumRoutingWeights)

/-- The body of the loop over the rows. -/
def Routing.addRow (nExpertUsed : ℕ) (routing : Routing) (rowIdx : ℕ) (rw : List Float32) :
    Except String Routing := do
  let dst := chosenExperts nExpertUsed rw
  let (sumRoutingWeights, topX) ← dst.foldlM (pushRow rowIdx rw) (0, routing.topX)
  let selectedRws ← dst.foldlM (pushWeight sumRoutingWeights rw) routing.selectedRws
  return { topX, selectedRws }

def route (nExpertUsed nExperts : ℕ) (routingWeights : List (List Float32)) :
    Except String Routing :=
  routingWeights.zipIdx.foldlM (fun routing (rw, rowIdx) => routing.addRow nExpertUsed rowIdx rw)
    (.new nExperts)

/-! ## One row -/

variable {α : Type}

/-- Pushes at different places. -/
theorem foldlM_pushAt (f : ℕ → α) {places : List ℕ} (nodup : places.Nodup)
    (lists : List (List α)) :
    places.foldlM (fun lists i => pushAt lists i (f i)) lists =
      if places.any (lists.length ≤ ·) then .error "index out of bounds"
      else .ok (lists.mapIdx fun i l => if i ∈ places then l ++ [f i] else l) := by
  induction places generalizing lists with
  | nil =>
    refine congrArg Except.ok (List.ext_getElem? fun j => ?_)
    simp
  | cons i places ih =>
    obtain ⟨hi, nodup⟩ := List.nodup_cons.1 nodup
    by_cases hlt : i < lists.length
    · have hlists : (lists.modify i (· ++ [f i])).mapIdx
          (fun j l => if j ∈ places then l ++ [f j] else l) =
            lists.mapIdx fun j l => if j ∈ i :: places then l ++ [f j] else l := by
        apply List.ext_getElem?
        intro j
        rw [List.getElem?_mapIdx, List.getElem?_mapIdx, List.getElem?_modify, Option.map_eq_map,
          Option.map_map]
        refine congrArg (Option.map · lists[j]?) (funext fun l => ?_)
        by_cases hj : i = j
        · subst hj
          simp [hi]
        · simp [hj, Ne.symm hj]
      rw [List.foldlM_cons, pushAt, if_pos hlt, Except.ok_bind, ih nodup, hlists,
        List.length_modify]
      simp [Nat.not_le.2 hlt]
    · rw [List.foldlM_cons, pushAt, if_neg hlt, Except.error_bind]
      simp [Nat.le_of_not_lt hlt]

/-- The sum of the weights runs along with the pushes. -/
theorem foldlM_pushRow (rowIdx : ℕ) (rw : List Float32) (places : List ℕ) (sum : Float32)
    (topX : List (List ℕ)) :
    places.foldlM (pushRow rowIdx rw) (sum, topX) =
      (places.foldlM (fun topX i => pushAt topX i rowIdx) topX).map
        fun topX => ((places.map (rw.getD · 0)).foldl (· + ·) sum, topX) := by
  induction places generalizing sum topX with
  | nil => rfl
  | cons i places ih =>
    rw [List.foldlM_cons, List.foldlM_cons, pushRow]
    cases pushAt topX i rowIdx with
    | error e => rfl
    | ok topX => exact ih (sum + rw.getD i 0) topX

variable {nExpertUsed : ℕ} {routing : Routing} {rw : List Float32}

theorem chosenExperts_eq (nExpertUsed : ℕ) (rw : List Float32) :
    chosenExperts nExpertUsed rw =
      (ranking (fun i => totalKey (rw.getD i 0)) rw.length).take nExpertUsed := rfl

theorem nodup_chosenExperts (nExpertUsed : ℕ) (rw : List Float32) :
    (chosenExperts nExpertUsed rw).Nodup := by
  rw [chosenExperts_eq]
  exact nodup_ranking.sublist (List.take_sublist ..)

/-- The weight of an expert among those chosen for a row. -/
def normalized (nExpertUsed : ℕ) (rw : List Float32) (expertIdx : ℕ) : Float32 :=
  rw.getD expertIdx 0 / ((chosenExperts nExpertUsed rw).map (rw.getD · 0)).foldl (· + ·) 0

theorem addRow_eq (hlength : routing.selectedRws.length = routing.topX.length) (rowIdx : ℕ) :
    routing.addRow nExpertUsed rowIdx rw =
      if (chosenExperts nExpertUsed rw).any (routing.topX.length ≤ ·) then
        .error "index out of bounds"
      else .ok
        { topX := routing.topX.mapIdx fun i l =>
            if i ∈ chosenExperts nExpertUsed rw then l ++ [rowIdx] else l
          selectedRws := routing.selectedRws.mapIdx fun i l =>
            if i ∈ chosenExperts nExpertUsed rw then l ++ [normalized nExpertUsed rw i]
            else l } := by
  have hrows := foldlM_pushAt (fun _ => rowIdx) (nodup_chosenExperts nExpertUsed rw)
    routing.topX
  have hweights := foldlM_pushAt (normalized nExpertUsed rw) (nodup_chosenExperts nExpertUsed rw)
    routing.selectedRws
  rw [hlength] at hweights
  rw [Routing.addRow, foldlM_pushRow, hrows]
  by_cases hany : (chosenExperts nExpertUsed rw).any (routing.topX.length ≤ ·) = true
  · simp only [if_pos hany]
    rfl
  · simp only [if_neg hany] at hweights ⊢
    show ((chosenExperts nExpertUsed rw).foldlM (fun lists i =>
      pushAt lists i (normalized nExpertUsed rw i)) routing.selectedRws >>= _) = _
    rw [hweights]
    rfl

/-! ## All rows -/

/-- What `rowsOfExpert` says, for all experts. -/
def Routing.ofRows (nExpertUsed nExperts : ℕ) (routingWeights : List (List Float32)) : Routing :=
  { topX := (List.range nExperts).map fun expertIdx =>
      (rowsOfExpert nExpertUsed routingWeights expertIdx).map (·.1)
    selectedRws := (List.range nExperts).map fun expertIdx =>
      (rowsOfExpert nExpertUsed routingWeights expertIdx).map (·.2) }

variable {nExperts : ℕ} {routingWeights : List (List Float32)}

theorem rowsOfExpert_concat (expertIdx : ℕ) :
    rowsOfExpert nExpertUsed (routingWeights ++ [rw]) expertIdx =
      rowsOfExpert nExpertUsed routingWeights expertIdx ++
        if expertIdx ∈ chosenExperts nExpertUsed rw then
          [(routingWeights.length, normalized nExpertUsed rw expertIdx)]
        else [] := by
  rw [rowsOfExpert, List.zipIdx_append, List.filterMap_append]
  by_cases hmem : expertIdx ∈ chosenExperts nExpertUsed rw
  · simp [hmem, rowsOfExpert, normalized]
  · simp [hmem, rowsOfExpert]

theorem addRow_ofRows :
    (Routing.ofRows nExpertUsed nExperts routingWeights).addRow nExpertUsed routingWeights.length
        rw =
      if (chosenExperts nExpertUsed rw).any (nExperts ≤ ·) then .error "index out of bounds"
      else .ok (.ofRows nExpertUsed nExperts (routingWeights ++ [rw])) := by
  rw [addRow_eq (by simp [Routing.ofRows])]
  have hlength : (Routing.ofRows nExpertUsed nExperts routingWeights).topX.length = nExperts := by
    simp [Routing.ofRows]
  rw [hlength]
  congr 2
  simp only [Routing.ofRows, rowsOfExpert_concat]
  congr 1
  all_goals
    apply List.ext_getElem?
    intro i
    by_cases hi : i < nExperts
    · by_cases hmem : i ∈ chosenExperts nExpertUsed rw <;> simp [hi, hmem]
    · simp [hi]

/-- The loops compute what `rowsOfExpert` says, and panic exactly if some row chooses an expert that
does not exist. -/
theorem route_eq (nExpertUsed nExperts : ℕ) (routingWeights : List (List Float32)) :
    route nExpertUsed nExperts routingWeights =
      if routingWeights.any fun rw => (chosenExperts nExpertUsed rw).any (nExperts ≤ ·) then
        .error "index out of bounds"
      else .ok (.ofRows nExpertUsed nExperts routingWeights) := by
  induction routingWeights using List.reverseRecOn with
  | nil => simp [route, Routing.new, Routing.ofRows, rowsOfExpert]
  | append_singleton routingWeights rw ih =>
    have hstep : route nExpertUsed nExperts (routingWeights ++ [rw]) =
        (route nExpertUsed nExperts routingWeights >>= fun routing =>
          routing.addRow nExpertUsed routingWeights.length rw) := by
      rw [route, List.zipIdx_append, List.foldlM_append]
      refine congrArg _ (funext fun routing => ?_)
      rw [List.zipIdx_singleton, List.foldlM_cons, Nat.zero_add]
      exact bind_pure _
    rw [hstep, ih, List.any_append]
    by_cases hany : routingWeights.any fun rw =>
        (chosenExperts nExpertUsed rw).any (nExperts ≤ ·)
    · simp [hany]
    · rw [if_neg hany, Except.ok_bind, addRow_ofRows]
      simp [hany]

/-! ## Which experts a row goes to -/

theorem mem_rowsOfExpert_iff {rowIdx expertIdx : ℕ} (hrow : routingWeights[rowIdx]? = some rw) :
    rowIdx ∈ (rowsOfExpert nExpertUsed routingWeights expertIdx).map (·.1) ↔
      expertIdx ∈ chosenExperts nExpertUsed rw := by
  rw [rowsOfExpert, List.mem_map]
  constructor
  · rintro ⟨⟨row, w⟩, hmem, rfl⟩
    obtain ⟨⟨rw', row'⟩, hzip, hsome⟩ := List.mem_filterMap.1 hmem
    rw [List.mem_zipIdx_iff_getElem?] at hzip
    dsimp only at hzip hsome
    split_ifs at hsome with hchosen
    cases hsome
    rw [hrow] at hzip
    cases hzip
    exact hchosen
  · intro hchosen
    refine ⟨(rowIdx, normalized nExpertUsed rw expertIdx),
      List.mem_filterMap.2 ⟨(rw, rowIdx), List.mem_zipIdx_iff_getElem?.2 hrow, ?_⟩, rfl⟩
    simp only [if_pos hchosen]
    rfl

theorem eq_ofRows_of_route (h : route nExpertUsed nExperts routingWeights = .ok routing) :
    routing = .ofRows nExpertUsed nExperts routingWeights ∧
      ∀ rw ∈ routingWeights, ∀ expertIdx ∈ chosenExperts nExpertUsed rw, expertIdx < nExperts := by
  rw [route_eq] at h
  by_cases hany : routingWeights.any fun rw =>
      (chosenExperts nExpertUsed rw).any (nExperts ≤ ·)
  · rw [if_pos hany] at h
    cases h
  · rw [if_neg hany] at h
    cases h
    simp only [List.any_eq_true, decide_eq_true_eq, not_exists, not_and, Nat.not_le] at hany
    exact ⟨rfl, hany⟩

/-- A row goes to the experts that fewer than `nExpertUsed` others beat, by a greater weight or by
an equal weight and a lower index, and to no more and no fewer experts than asked for. -/
theorem routed_iff_and_count (h : route nExpertUsed nExperts routingWeights = .ok routing)
    {rowIdx : ℕ} (hrow : routingWeights[rowIdx]? = some rw) :
    (∀ (expertIdx : ℕ) (rows : List ℕ), routing.topX[expertIdx]? = some rows →
      (rowIdx ∈ rows ↔ expertIdx < rw.length ∧
        (List.range rw.length).countP (fun other =>
          Beats (fun i => totalKey (rw.getD i 0)) other expertIdx) < nExpertUsed)) ∧
      routing.topX.countP (rowIdx ∈ ·) = min nExpertUsed rw.length := by
  obtain ⟨rfl, hlt⟩ := eq_ofRows_of_route h
  constructor
  · intro expertIdx rows hrows
    have hrows : (rowsOfExpert nExpertUsed routingWeights expertIdx).map (·.1) = rows := by
      rw [Routing.ofRows, List.getElem?_map, Option.map_eq_some_iff] at hrows
      obtain ⟨i, hi, rfl⟩ := hrows
      obtain ⟨hi', rfl⟩ := List.getElem?_eq_some_iff.1 hi
      rw [List.getElem_range]
    rw [← hrows, mem_rowsOfExpert_iff hrow, chosenExperts_eq, mem_take_ranking_iff]
  · have hperm : ((List.range nExperts).filter (· ∈ chosenExperts nExpertUsed rw)).Perm
        (chosenExperts nExpertUsed rw) := by
      apply (List.perm_ext_iff_of_nodup (List.nodup_range.filter _)
        (nodup_chosenExperts nExpertUsed rw)).2
      intro expertIdx
      rw [List.mem_filter, List.mem_range, decide_eq_true_iff]
      exact ⟨And.right, fun hmem => ⟨hlt rw (List.mem_of_getElem? hrow) expertIdx hmem, hmem⟩⟩
    rw [Routing.ofRows, List.countP_map]
    have hcongr : (List.range nExperts).countP ((fun rows => decide (rowIdx ∈ rows)) ∘
        fun expertIdx => (rowsOfExpert nExpertUsed routingWeights expertIdx).map (·.1)) =
          (List.range nExperts).countP (· ∈ chosenExperts nExpertUsed rw) := by
      apply List.countP_congr
      intro expertIdx _
      simp only [Function.comp_apply, decide_eq_true_iff]
      exact mem_rowsOfExpert_iff hrow
    rw [hcongr, List.countP_eq_length_filter, hperm.length_eq, chosenExperts_eq,
      List.length_take, length_ranking]

/-- No panic if no row has more weights than there are experts. -/
theorem route_of_lengths (h : ∀ rw ∈ routingWeights, rw.length ≤ nExperts) :
    route nExpertUsed nExperts routingWeights =
      .ok (.ofRows nExpertUsed nExperts routingWeights) := by
  rw [route_eq, if_neg]
  simp only [List.any_eq_true, decide_eq_true_eq, not_exists, not_and, Nat.not_le]
  intro rw hrw expertIdx hmem
  have hlt := mem_ranking.1 (List.mem_of_mem_take (chosenExperts_eq nExpertUsed rw ▸ hmem))
  exact hlt.trans_le (h rw hrw)

/-- Three rows for two experts; the weights of the second are equal. -/
def threeRows : List (List Float32) := [[0.25, 0.75], [0.5, 0.5], [0.75, 0.25]]

theorem routed_iff_and_count_tie :
    (∀ rows, (Routing.ofRows 1 2 threeRows).topX[0]? = some rows → 1 ∈ rows) ∧
      (Routing.ofRows 1 2 threeRows).topX.countP (1 ∈ ·) = 1 := by
  have hroute : route 1 2 threeRows = .ok (.ofRows 1 2 threeRows) :=
    route_of_lengths (by simp [threeRows])
  have hrow : threeRows[1]? = some ([0.5, 0.5] : List Float32) := rfl
  obtain ⟨hiff, hcount⟩ := routed_iff_and_count hroute hrow
  exact ⟨fun rows hrows => (hiff 0 rows hrows).2 (by decide +kernel), hcount⟩

/-! ## The whole block -/

section Forward

variable {T Q : Type} (candle : Candle T Q)

/-- The body of the loop over the experts. -/
def addRouted (xs : T) (hiddenDim : ℕ) (topX : List ℕ) (selectedRws : List Float32)
    (expert : Mlp T) (ys : T) : Except String T :=
  if topX.isEmpty then .ok ys
  else do
    let topXs ← candle.newU32 topX
    let weights ← candle.newF32 selectedRws
    let weights ← candle.reshape weights [selectedRws.length, 1]
    let currentState ← candle.indexSelect xs topXs 0
    let currentState ← candle.reshape currentState [topX.length, hiddenDim]
    let currentHiddenStates ← expert.forward candle currentState
    let currentHiddenStates ← candle.broadcastMul currentHiddenStates weights
    candle.indexAdd ys topXs currentHiddenStates 0

/-- The block with the loops of the source. -/
def forwardRouted (nExpertUsed : ℕ) (feedForwardGateInp : ForwardFn T) (experts : List (Mlp T)) :
    ForwardFn T := fun xs => do
  let (bSize, seqLen, hiddenDim) ← candle.dims3 xs
  let xs ← candle.reshape xs [bSize * seqLen, hiddenDim]
  let routerLogits ← feedForwardGateInp xs
  let routingWeights ← candle.softmaxLastDim routerLogits
  let routingWeights ← candle.toVec2 (← candle.toDtypeF32 routingWeights)
  let routing ← route nExpertUsed experts.length routingWeights
  let ys ← candle.zerosLike xs
  let ys ← experts.zipIdx.foldlM (fun ys (expert, expertIdx) =>
    addRouted candle xs hiddenDim (routing.topX.getD expertIdx [])
      (routing.selectedRws.getD expertIdx []) expert ys) ys
  candle.reshape ys [bSize, seqLen, hiddenDim]

theorem addRouted_rows (xs : T) (hiddenDim : ℕ) (rows : List (ℕ × Float32)) (expert : Mlp T)
    (ys : T) :
    addRouted candle xs hiddenDim (rows.map (·.1)) (rows.map (·.2)) expert ys =
      addExpert candle xs hiddenDim rows expert ys := by
  simp only [addRouted, addExpert, List.isEmpty_map, List.length_map]

theorem foldlM_congr {α β : Type} {f g : β → α → Except String β} {l : List α}
    (h : ∀ a ∈ l, ∀ b, f b a = g b a) (b : β) : l.foldlM f b = l.foldlM g b := by
  induction l generalizing b with
  | nil => rfl
  | cons a l ih =>
    rw [List.foldlM_cons, List.foldlM_cons, h a (List.mem_cons_self ..)]
    exact congrArg _ (funext fun b => ih (fun a ha => h a (List.mem_cons_of_mem _ ha)) b)

/-- The block computes the same with its loops as with `rowsOfExpert`. -/
theorem forward_eq_forwardRouted (nExpertUsed : ℕ) (feedForwardGateInp : ForwardFn T)
    (experts : List (Mlp T)) (xs : T) :
    (MlpOrMoe.moe nExpertUsed feedForwardGateInp experts).forward candle xs =
      forwardRouted candle nExpertUsed feedForwardGateInp experts xs := by
  have hadd (xs : T) (hiddenDim : ℕ) (routingWeights : List (List Float32)) (ys : T) :
      experts.zipIdx.foldlM (fun ys (expert, expertIdx) =>
        addRouted candle xs hiddenDim
          ((Routing.ofRows nExpertUsed experts.length routingWeights).topX.getD expertIdx [])
          ((Routing.ofRows nExpertUsed experts.length routingWeights).selectedRws.getD expertIdx [])
          expert ys) ys =
        experts.zipIdx.foldlM (fun ys (expert, expertIdx) =>
          addExpert candle xs hiddenDim (rowsOfExpert nExpertUsed routingWeights expertIdx) expert
            ys) ys := by
    apply foldlM_congr
    rintro ⟨expert, expertIdx⟩ hmem ys
    have hlt := (List.mem_zipIdx' hmem).1
    simp only [Routing.ofRows, List.getD_eq_getElem?_getD, List.getElem?_map,
      List.getElem?_range hlt, Option.map_some, Option.getD_some]
    exact addRouted_rows ..
  simp only [MlpOrMoe.forward, forwardRouted, route_eq]
  refine bind_congr fun dims => bind_congr fun xs => bind_congr fun routerLogits =>
    bind_congr fun probabilities => bind_congr fun probabilities => bind_congr fun routingWeights =>
      ?_
  by_cases hany : routingWeights.any fun rw =>
      (chosenExperts nExpertUsed rw).any (experts.length ≤ ·)
  · simp only [if_pos hany, Except.error_bind]
  · simp only [if_neg hany, Except.ok_bind, hadd]

/-- The loops leave with each expert the rows that choose it, and panic exactly if a row chooses one
that does not exist; so the block with the loops is the block of the model. -/
theorem forward_moe_eq (nExpertUsed : ℕ) (feedForwardGateInp : ForwardFn T)
    (experts : List (Mlp T)) :
    (∀ routingWeights, route nExpertUsed experts.length routingWeights =
      if routingWeights.any fun rw => (chosenExperts nExpertUsed rw).any (experts.length ≤ ·) then
        .error "index out of bounds"
      else .ok (.ofRows nExpertUsed experts.length routingWeights)) ∧
    ∀ xs, (MlpOrMoe.moe nExpertUsed feedForwardGateInp experts).forward candle xs =
      forwardRouted candle nExpertUsed feedForwardGateInp experts xs :=
  ⟨route_eq nExpertUsed experts.length,
    forward_eq_forwardRouted candle nExpertUsed feedForwardGateInp experts⟩

end Forward

end NeuralSwarm
