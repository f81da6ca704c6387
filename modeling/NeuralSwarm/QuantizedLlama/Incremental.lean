import NeuralSwarm.Resident
import NeuralSwarm.Stacking

/-!
# Layers with a cache

A layer that has processed some positions at position `0` and then processes the next one with its
cache computes what it computes on all of them at once: the same output row, and the same cache.
The modules of a dense model that is loaded work on each position alone (`rowwise_of_load`).
-/

namespace NeuralSwarm

variable {T Q : Type} {candle : Candle T Q}

/-! ## Rows -/

theorem Mlp.rowwise_forward (laws : candle.Exact) {mlp : Mlp T}
    (w1 : candle.Rowwise mlp.feedForwardW1) (w2 : candle.Rowwise mlp.feedForwardW2)
    (w3 : candle.Rowwise mlp.feedForwardW3) : candle.Rowwise (mlp.forward candle) := by
  intro batch n m d a b x y stacked h
  obtain ⟨x1, h1, h⟩ := Except.bind_eq_ok.1 h
  obtain ⟨x3, h3, h⟩ := Except.bind_eq_ok.1 h
  obtain ⟨gate, hgate, h⟩ := Except.bind_eq_ok.1 h
  obtain ⟨product, hproduct, h⟩ := Except.bind_eq_ok.1 h
  obtain ⟨d1, a1, b1, ha1, hb1, stacked1⟩ := w1 stacked h1
  obtain ⟨d3, a3, b3, ha3, hb3, stacked3⟩ := w3 stacked h3
  obtain ⟨d1, ga, gb, hga, hgb, stacked1⟩ := laws.silu stacked1 hgate
  obtain ⟨pa, pb, hpa, hpb, stacked⟩ := laws.mul stacked1 stacked3 hproduct
  obtain ⟨d', both⟩ := w2 stacked h
  refine ⟨d', ?_⟩
  simpa only [Mlp.forward, ha1, hb1, ha3, hb3, hga, hgb, hpa, hpb, Except.ok_bind] using both

/-! ## One layer -/

namespace LayerWeights

/-- The modules of a layer work on each position alone. -/
structure Rowwise (candle : Candle T Q) (layer : LayerWeights T) : Prop where
  attentionWq : candle.Rowwise layer.attentionWq
  attentionWk : candle.Rowwise layer.attentionWk
  attentionWv : candle.Rowwise layer.attentionWv
  attentionWo : candle.Rowwise layer.attentionWo
  attentionBq : ∀ bias ∈ layer.attentionBq, ∃ d, candle.dims bias = [d]
  attentionBk : ∀ bias ∈ layer.attentionBk, ∃ d, candle.dims bias = [d]
  attentionBv : ∀ bias ∈ layer.attentionBv, ∃ d, candle.dims bias = [d]
  attentionNorm : candle.Rowwise layer.attentionNorm
  mlpOrMoe : candle.Rowwise (layer.mlpOrMoe.forward candle)
  ffnNorm : candle.Rowwise layer.ffnNorm
  negInf : candle.newScalar (Float32.ofBits 0xff800000) = .ok layer.negInf

theorem rowwise_addBias (laws : candle.Exact) {bias : Option T}
    (vector : ∀ b ∈ bias, ∃ d, candle.dims b = [d]) : candle.Rowwise (addBias candle bias) := by
  intro batch n m d a b x y stacked h
  cases bias with
  | none =>
    cases h
    exact ⟨d, a, b, rfl, rfl, stacked⟩
  | some bias =>
    obtain ⟨k, hk⟩ := vector bias rfl
    exact laws.broadcastAdd hk stacked h

variable {layer : LayerWeights T} {batch n m d : ℕ} {a b x : T}

/-- A projection with its bias, by heads. -/
def heads (candle : Candle T Q) (w : ForwardFn T) (bias : Option T) (dims : List ℕ) (x : T) :
    Except String T := do
  let y ← w x
  let y ← addBias candle bias y
  candle.transpose (← candle.reshape y dims) 1 2

theorem both_heads (laws : candle.Exact) {w : ForwardFn T} {bias : Option T} {nHead headDim : ℕ}
    {y : T} (rowwise : candle.Rowwise w) (vector : ∀ b ∈ bias, ∃ d, candle.dims b = [d])
    (stacked : candle.Stacked [batch] n m [d] a b x)
    (h : heads candle w bias [batch, n + m, nHead, headDim] x = .ok y) :
    candle.Both [batch, nHead] n m [headDim] (heads candle w bias [batch, n, nHead, headDim] a)
      (heads candle w bias [batch, m, nHead, headDim] b) y := by
  obtain ⟨y1, hy1, h⟩ := Except.bind_eq_ok.1 h
  obtain ⟨y2, hy2, h⟩ := Except.bind_eq_ok.1 h
  obtain ⟨y3, hy3, h⟩ := Except.bind_eq_ok.1 h
  obtain ⟨_, a1, b1, ha1, hb1, stacked⟩ := rowwise stacked hy1
  obtain ⟨_, a2, b2, ha2, hb2, stacked⟩ := rowwise_addBias laws vector stacked hy2
  have hy3 : candle.reshape y2 ([batch] ++ (n + m) :: [nHead, headDim]) = .ok y3 := hy3
  obtain ⟨a3, b3, ha3, hb3, stacked⟩ := laws.reshape stacked hy3
  have both := laws.splitHeads stacked h
  simp only [List.singleton_append] at ha3 hb3
  simpa only [heads, ha1, hb1, ha2, hb2, ha3, hb3, Except.ok_bind] using both

theorem dims4_eq {d1 d2 d3 d4 : ℕ} (h : candle.dims x = [d1, d2, d3, d4]) :
    candle.dims4 x = .ok (d1, d2, d3, d4) := by
  simp only [Candle.dims4, h]

theorem dims3_eq {d1 d2 d3 : ℕ} (h : candle.dims x = [d1, d2, d3]) :
    candle.dims3 x = .ok (d1, d2, d3) := by
  simp only [Candle.dims3, h]

theorem both_applyRotaryEmb (laws : candle.Exact) {heads indexPos : ℕ} {y : T}
    (stacked : candle.Stacked [batch, heads] n m [d] a b x)
    (h : layer.applyRotaryEmb candle x indexPos = .ok y) :
    candle.Both [batch, heads] n m [d] (layer.applyRotaryEmb candle a indexPos)
      (layer.applyRotaryEmb candle b (indexPos + n)) y := by
  rw [applyRotaryEmb, dims4_eq (laws.dims_stacked stacked), Except.ok_bind] at h
  obtain ⟨cos, hcos, h⟩ := Except.bind_eq_ok.1 h
  obtain ⟨sin, hsin, h⟩ := Except.bind_eq_ok.1 h
  rw [laws.contiguous, Except.ok_bind] at h
  obtain ⟨post, ca, cb, hca, hcb, cosStacked⟩ := laws.narrow stacked.nonempty hcos
  obtain ⟨post', sa, sb, hsa, hsb, sinStacked⟩ := laws.narrow stacked.nonempty hsin
  have both := laws.ropeI stacked cosStacked sinStacked h
  simpa only [applyRotaryEmb, dims4_eq stacked.front, dims4_eq stacked.back, hca, hcb, hsa, hsb,
    laws.contiguous, Except.ok_bind] using both

/-- The projections are computed independently of each other. -/
theorem project_eq_ok_iff (laws : candle.Exact) {seqLen indexPos : ℕ} {q k v : T}
    (hdims : candle.dims x = [batch, seqLen, d]) :
    layer.project candle x indexPos = .ok (q, k, v) ↔
      (heads candle layer.attentionWq layer.attentionBq
        [batch, seqLen, layer.nHead, layer.headDim] x >>=
          (layer.applyRotaryEmb candle · indexPos)) = .ok q ∧
      (heads candle layer.attentionWk layer.attentionBk
        [batch, seqLen, layer.nKvHead, layer.headDim] x >>=
          (layer.applyRotaryEmb candle · indexPos)) = .ok k ∧
      heads candle layer.attentionWv layer.attentionBv
        [batch, seqLen, layer.nKvHead, layer.headDim] x = .ok v := by
  rw [project, dims3_eq hdims, Except.ok_bind]
  simp only [heads, laws.contiguous, Except.bind_eq_ok, Except.ok_bind, Except.pure_eq_ok]
  constructor
  · rintro ⟨q1, hq1, k1, hk1, v1, hv1, q2, hq2, k2, hk2, v2, hv2, q3, hq3, q4, hq4, k3, hk3, k4,
      hk4, v3, hv3, v4, hv4, q5, hq5, k5, hk5, h⟩
    cases h
    exact ⟨⟨q4, ⟨q1, hq1, q2, hq2, q3, hq3, hq4⟩, hq5⟩, ⟨k4, ⟨k1, hk1, k2, hk2, k3, hk3, hk4⟩, hk5⟩,
      v1, hv1, v2, hv2, v3, hv3, hv4⟩
  · rintro ⟨⟨q4, ⟨q1, hq1, q2, hq2, q3, hq3, hq4⟩, hq5⟩,
      ⟨k4, ⟨k1, hk1, k2, hk2, k3, hk3, hk4⟩, hk5⟩, v1, hv1, v2, hv2, v3, hv3, hv4⟩
    exact ⟨q1, hq1, k1, hk1, v1, hv1, q2, hq2, k2, hk2, v2, hv2, q3, hq3, q4, hq4, k3, hk3, k4, hk4,
      v3, hv3, v, hv4, q, hq5, k, hk5, rfl⟩

/-- The projections of all positions are those of the first and those of the others. -/
theorem exists_project (laws : candle.Exact) (rowwise : layer.Rowwise candle)
    (stacked : candle.Stacked [batch] n m [d] a b x) {indexPos : ℕ} {q k v : T}
    (h : layer.project candle x indexPos = .ok (q, k, v)) :
    ∃ qa ka va qb kb vb, layer.project candle a indexPos = .ok (qa, ka, va) ∧
      layer.project candle b (indexPos + n) = .ok (qb, kb, vb) ∧
      candle.Stacked [batch, layer.nHead] n m [layer.headDim] qa qb q ∧
      candle.Stacked [batch, layer.nKvHead] n m [layer.headDim] ka kb k ∧
      candle.Stacked [batch, layer.nKvHead] n m [layer.headDim] va vb v := by
  obtain ⟨hq, hk, hv⟩ := (project_eq_ok_iff laws (laws.dims_stacked stacked)).1 h
  obtain ⟨q', hq', hq⟩ := Except.bind_eq_ok.1 hq
  obtain ⟨k', hk', hk⟩ := Except.bind_eq_ok.1 hk
  obtain ⟨qa', qb', hqa', hqb', qStacked⟩ :=
    both_heads laws rowwise.attentionWq rowwise.attentionBq stacked hq'
  obtain ⟨ka', kb', hka', hkb', kStacked⟩ :=
    both_heads laws rowwise.attentionWk rowwise.attentionBk stacked hk'
  obtain ⟨va, vb, hva, hvb, vStacked⟩ :=
    both_heads laws rowwise.attentionWv rowwise.attentionBv stacked hv
  obtain ⟨qa, qb, hqa, hqb, qStacked⟩ := both_applyRotaryEmb laws qStacked hq
  obtain ⟨ka, kb, hka, hkb, kStacked⟩ := both_applyRotaryEmb laws kStacked hk
  refine ⟨qa, ka, va, qb, kb, vb, (project_eq_ok_iff laws stacked.front).2 ?_,
    (project_eq_ok_iff laws stacked.back).2 ?_, qStacked, kStacked, vStacked⟩
  · exact ⟨Except.bind_eq_ok.2 ⟨qa', hqa', hqa⟩, Except.bind_eq_ok.2 ⟨ka', hka', hka⟩, hva⟩
  · exact ⟨Except.bind_eq_ok.2 ⟨qb', hqb', hqb⟩, Except.bind_eq_ok.2 ⟨kb', hkb', hkb⟩, hvb⟩

/-! ## Attention -/

/-- The rows of the causal mask. -/
def causalRows (n : ℕ) : List (List UInt8) :=
  (List.range n).map fun i => (List.range n).map fun j => if j > i then 1 else 0

@[simp] theorem length_causalRows : (causalRows n).length = n := by simp [causalRows]

theorem causalMask_eq : ModelWeights.causalMask candle n =
    candle.fromSlice (causalRows n).flatten [n, n] := by
  rw [ModelWeights.causalMask, causalRows, List.flatMap_def]

/-- Each position attends to itself. -/
theorem mem_causalRows {row : List UInt8} (h : row ∈ causalRows n) : row.length = n ∧ 0 ∈ row := by
  obtain ⟨i, hi, rfl⟩ := List.mem_map.1 h
  refine ⟨by simp, List.mem_map.2 ⟨i, hi, by simp⟩⟩

/-- The mask of one more position: a masked column, and a row without a mask. -/
theorem causalRows_succ : (causalRows (n + 1)).flatten =
    (causalRows n).flatMap (· ++ List.replicate 1 1) ++ List.replicate (n + 1) 0 := by
  have htop : ∀ i ∈ List.range n, ((List.range (n + 1)).map fun j => if j > i then (1 : UInt8)
      else 0) = ((List.range n).map fun j => if j > i then 1 else 0) ++ List.replicate 1 1 := by
    intro i hi
    simp [List.range_succ, List.mem_range.1 hi]
  have hbottom : ((List.range (n + 1)).map fun j => if j > n then (1 : UInt8) else 0) =
      List.replicate (n + 1) 0 := by
    rw [List.eq_replicate_iff]
    refine ⟨by simp, fun bit hbit => ?_⟩
    obtain ⟨j, hj, rfl⟩ := List.mem_map.1 hbit
    have hj := List.mem_range.1 hj
    rw [if_neg (by omega)]
  rw [causalRows, List.range_succ, List.map_append, List.flatten_append, ← List.range_succ,
    List.map_congr_left htop, List.map_singleton, hbottom, causalRows, List.flatMap_def,
    List.map_map]
  simp [Function.comp_def]

theorem exists_causalMask_succ (laws : candle.Exact) {mask : T} (hn : 0 < n)
    (h : ModelWeights.causalMask candle (n + 1) = .ok mask) :
    candle.Both [] n 1 [n + 1]
      (candle.fromSlice ((causalRows n).flatMap (· ++ List.replicate 1 1)) [n, n + 1])
      (candle.fromSlice (List.replicate (n + 1) 0) [1, n + 1]) mask := by
  rw [causalMask_eq, causalRows_succ] at h
  refine laws.fromSlice ⟨hn, Nat.one_pos⟩ ?_ (by simp) h
  have hlength : ∀ row ∈ causalRows n, (row ++ List.replicate 1 (1 : UInt8)).length = n + 1 := by
    intro row hrow
    simp [(mem_causalRows hrow).1]
  rw [List.length_flatMap, List.map_congr_left hlength]
  simp

variable {att attA attB v y mask top bottom negInf : T}

/-- The weighted sum of each row depends on its row of the mask alone. -/
theorem both_weigh (laws : candle.Exact) {heads columns e : ℕ} {pre : List ℕ}
    (scalar : candle.newScalar (Float32.ofBits 0xff800000) = .ok negInf)
    (stacked : candle.Stacked [batch, heads] n m [columns] attA attB att)
    (maskStacked : candle.Stacked [] n m [columns] top bottom mask)
    (hv : candle.dims v = pre ++ [e]) (h : weigh candle negInf (some mask) att v = .ok y) :
    candle.Both [batch, heads] n m [e] (weigh candle negInf (some top) attA v)
      (weigh candle negInf (some bottom) attB v) y := by
  rw [weigh, laws.dims_stacked stacked] at h
  obtain ⟨mask', hmask', h⟩ := Except.bind_eq_ok.1 h
  obtain ⟨masked, hmasked, h⟩ := Except.bind_eq_ok.1 h
  obtain ⟨infs, hinfs, hmasked⟩ := Except.bind_eq_ok.1 hmasked
  obtain ⟨weights, hweights, h⟩ := Except.bind_eq_ok.1 h
  rw [laws.contiguous, Except.ok_bind] at h
  obtain ⟨top', bottom', htop', hbottom', maskStacked⟩ := laws.broadcastAs maskStacked hmask'
  rw [laws.dims_stacked maskStacked] at hinfs
  obtain ⟨ia, ib, hia, hib, infStacked⟩ := laws.broadcastAs_scalar stacked.nonempty scalar hinfs
  obtain ⟨ma, mb, hma, hmb, stacked'⟩ := laws.whereCond maskStacked infStacked stacked hmasked
  obtain ⟨wa, wb, hwa, hwb, stacked'⟩ := laws.softmaxLastDim stacked' hweights
  have both := laws.matmul_rows stacked' hv h
  simp only [List.cons_append, List.nil_append] at htop' hbottom' hia hib
  simpa only [weigh, maskedFill, stacked.front, stacked.back, List.cons_append, List.nil_append,
    htop', hbottom', maskStacked.front, maskStacked.back, hia, hib, hma, hmb, hwa, hwb,
    laws.contiguous, Except.ok_bind] using both

/-- A mask of zeros hides nothing. -/
theorem weigh_zeros (laws : candle.Exact) {count : ℕ} {dims : List ℕ}
    (hmask : candle.fromSlice (List.replicate count 0) dims = .ok mask)
    (h : weigh candle negInf (some mask) att v = .ok y) :
    weigh candle negInf none att v = .ok y := by
  rw [weigh] at h
  obtain ⟨mask', hmask', h⟩ := Except.bind_eq_ok.1 h
  obtain ⟨masked, hmasked, h⟩ := Except.bind_eq_ok.1 h
  obtain ⟨infs, -, hmasked⟩ := Except.bind_eq_ok.1 hmasked
  rw [laws.whereCond_const hmask hmask' hmasked, if_pos rfl] at h
  exact h

/-- Columns that are masked do not count, if each row has another that does. -/
theorem weigh_masked (laws : candle.Exact) {heads heads' count d : ℕ} {rows : List (List UInt8)}
    {a va vb mask' : T} (hcount : rows.length = count)
    (hrows : ∀ row ∈ rows, row.length = n ∧ 0 ∈ row)
    (scalar : candle.newScalar (Float32.ofBits 0xff800000) = .ok negInf)
    (stacked : candle.Stacked [batch, heads, count] n m [] a attB att)
    (vStacked : candle.Stacked [batch, heads'] n m [d] va vb v)
    (hmask : candle.fromSlice (rows.flatMap (· ++ List.replicate m 1)) [count, n + m] = .ok mask)
    (hmask' : candle.fromSlice rows.flatten [count, n] = .ok mask')
    (h : weigh candle negInf (some mask) att v = .ok y) :
    weigh candle negInf (some mask') a va = .ok y := by
  rw [weigh, laws.dims_stacked stacked] at h
  obtain ⟨cond, hcond, h⟩ := Except.bind_eq_ok.1 h
  obtain ⟨masked, hmasked, h⟩ := Except.bind_eq_ok.1 h
  obtain ⟨infs, hinfs, hmasked⟩ := Except.bind_eq_ok.1 hmasked
  obtain ⟨weights, hweights, h⟩ := Except.bind_eq_ok.1 h
  rw [laws.contiguous, Except.ok_bind] at h
  obtain ⟨front, ones, hfront, hones, maskStacked⟩ :=
    laws.fromSlice_columns stacked.nonempty hcount (fun row hrow => (hrows row hrow).1) hmask
  obtain rfl : front = mask' := Except.ok.inj (hfront.symm.trans hmask')
  obtain ⟨condA, condB, hcondA, hcondB, condStacked⟩ := laws.broadcastAs maskStacked hcond
  rw [laws.dims_stacked condStacked] at hinfs
  obtain ⟨infsA, infsB, hinfsA, hinfsB, infStacked⟩ :=
    laws.broadcastAs_scalar stacked.nonempty scalar hinfs
  obtain ⟨maskedA, maskedB, hmaskedA, hmaskedB, maskedStacked⟩ :=
    laws.whereCond condStacked infStacked stacked hmasked
  -- the columns that are masked are `-∞`
  obtain rfl : maskedB = infsB := laws.whereCond_const hones hcondB hmaskedB
  have hfrontWeights := laws.softmax_masked hcount hrows hfront hcondA scalar hinfsA hinfsB hmaskedA
    maskedStacked vStacked hweights h
  obtain ⟨weightsA, hweightsA, hvalues⟩ := Except.bind_eq_ok.1 hfrontWeights
  simp only [List.cons_append, List.nil_append] at hcondA hinfsA
  simp only [weigh, maskedFill, stacked.front, condStacked.front, List.cons_append,
    List.nil_append, hcondA, hinfsA, hmaskedA, hweightsA, laws.contiguous, hvalues, Except.ok_bind]

/-- The rows of all positions but the last are weighed as if the last did not exist. -/
theorem weigh_front (laws : candle.Exact) {heads heads' d : ℕ} {va vb : T} {mask' : Option T}
    (scalar : candle.newScalar (Float32.ofBits 0xff800000) = .ok negInf)
    (stacked : candle.Stacked [batch, heads, n] n 1 [] attA attB att)
    (vStacked : candle.Stacked [batch, heads'] n 1 [d] va vb v)
    (hmask : candle.fromSlice ((causalRows n).flatMap (· ++ List.replicate 1 1)) [n, n + 1] =
      .ok mask)
    (hmask' : ModelWeights.freshMask candle n = .ok mask')
    (h : weigh candle negInf (some mask) att v = .ok y) :
    weigh candle negInf mask' attA va = .ok y := by
  obtain ⟨front, -, hfront, -, -⟩ := laws.fromSlice_columns stacked.nonempty length_causalRows
    (fun row hrow => (mem_causalRows hrow).1) hmask
  have h := weigh_masked laws length_causalRows (fun row => mem_causalRows) scalar stacked vStacked
    hmask hfront h
  by_cases hone : n = 1
  · subst hone
    rw [ModelWeights.freshMask, if_pos rfl] at hmask'
    cases hmask'
    have hzeros : candle.fromSlice (List.replicate 1 0) [1, 1] = .ok front := hfront
    exact weigh_zeros laws hzeros h
  · rw [ModelWeights.freshMask, if_neg hone, causalMask_eq, hfront] at hmask'
    cases hmask'
    exact h

/-- Attention without the fused kernel. -/
def attention (candle : Candle T Q) (layer : LayerWeights T) (mask : Option T) (q k v : T) :
    Except String T := do
  let k ← candle.repeatKv k (← divide layer.nHead layer.nKvHead)
  let v ← candle.repeatKv v (← divide layer.nHead layer.nKvHead)
  let att ← candle.matmul q (← candle.t k)
  let att ← candle.divScalar att (Float.ofNat layer.headDim).sqrt
  weigh candle layer.negInf mask att v

theorem attend_eq {q k : T} {maskOf : Option T} (cpu : candle.isMetal q = false) :
    layer.attend candle x q k v maskOf = (do
      let (batch, seqLen, nEmbd) ← candle.dims3 x
      let y ← layer.attention candle maskOf q k v
      let y ← candle.transpose y 1 2
      layer.attentionWo (← candle.reshape y [batch, seqLen, nEmbd])) := by
  cases maskOf <;>
    simp only [attend, cpu, Bool.false_and, Bool.false_eq_true, if_false, attention, weigh,
      bind_assoc, pure_bind]

/-- The attention of all positions is that of the front on its own, and that of the last position
without a mask. -/
theorem both_attention (laws : candle.Exact) (rowwise : layer.Rowwise candle) {heads kvHeads d : ℕ}
    {q k qa ka va qb kb vb : T} {mask' : Option T}
    (hmask : ModelWeights.causalMask candle (n + 1) = .ok mask)
    (hmask' : ModelWeights.freshMask candle n = .ok mask')
    (qStacked : candle.Stacked [batch, heads] n 1 [d] qa qb q)
    (kStacked : candle.Stacked [batch, kvHeads] n 1 [d] ka kb k)
    (vStacked : candle.Stacked [batch, kvHeads] n 1 [d] va vb v)
    (h : layer.attention candle (some mask) q k v = .ok y) :
    candle.Both [batch, heads] n 1 [d] (layer.attention candle mask' qa ka va)
      (layer.attention candle none qb k v) y := by
  obtain ⟨times, htimes, h⟩ := Except.bind_eq_ok.1 h
  obtain ⟨k', hk', h⟩ := Except.bind_eq_ok.1 h
  rw [htimes, Except.ok_bind] at h
  obtain ⟨v', hv', h⟩ := Except.bind_eq_ok.1 h
  obtain ⟨kt, hkt, h⟩ := Except.bind_eq_ok.1 h
  obtain ⟨scores, hscores, h⟩ := Except.bind_eq_ok.1 h
  obtain ⟨scaled, hscaled, h⟩ := Except.bind_eq_ok.1 h
  obtain ⟨_, ka', kb', hka', hkb', kStacked⟩ := laws.repeatKv kStacked hk'
  obtain ⟨kvHeads', va', vb', hva', hvb', vStacked⟩ := laws.repeatKv vStacked hv'
  have hdims : candle.dims v' = [batch, kvHeads', n + 1] ++ [d] := laws.dims_stacked vStacked
  obtain ⟨kta, ktb, hkta, hktb, kStacked⟩ := laws.t kStacked hkt
  -- the rows of the scores, and the columns of those in front
  obtain ⟨sa, sb, hsa, hsb, stacked⟩ :=
    laws.matmul_rows qStacked (laws.dims_stacked kStacked) hscores
  obtain ⟨saa, sab, hsaa, hsab, stackedA⟩ := laws.matmul_columns qStacked.front kStacked hsa
  obtain ⟨ta, tb, hta, htb, stacked⟩ := laws.divScalar stacked hscaled
  obtain ⟨taa, tab, htaa, htab, stackedA⟩ := laws.divScalar stackedA hta
  obtain ⟨top, bottom, htop, hbottom, maskStacked⟩ :=
    exists_causalMask_succ laws qStacked.nonempty.1 hmask
  obtain ⟨ya, yb, hya, hyb, stacked⟩ :=
    both_weigh laws rowwise.negInf stacked maskStacked hdims h
  have hya := weigh_front laws rowwise.negInf stackedA vStacked htop hmask' hya
  have hyb := weigh_zeros laws hbottom hyb
  refine ⟨ya, yb, ?_, ?_, stacked⟩
  · simp only [attention, htimes, hka', hva', hkta, hsaa, htaa, hya, Except.ok_bind]
  · simp only [attention, htimes, hk', hv', hkt, hsb, htb, hyb, Except.ok_bind]

variable {layer' : LayerWeights T} {mask' : Option T} (cpu : ∀ x, candle.isMetal x = false)

include cpu in
theorem both_attend (laws : candle.Exact) (rowwise : layer.Rowwise candle) {heads kvHeads e : ℕ}
    {q k qa ka va qb kb vb : T} (hmask : ModelWeights.causalMask candle (n + 1) = .ok mask)
    (hmask' : ModelWeights.freshMask candle n = .ok mask')
    (stacked : candle.Stacked [batch] n 1 [d] a b x)
    (qStacked : candle.Stacked [batch, heads] n 1 [e] qa qb q)
    (kStacked : candle.Stacked [batch, kvHeads] n 1 [e] ka kb k)
    (vStacked : candle.Stacked [batch, kvHeads] n 1 [e] va vb v)
    (h : layer.attend candle x q k v (some mask) = .ok y) :
    ∃ d', candle.Both [batch] n 1 [d'] (layer.attend candle a qa ka va mask')
      (layer.attend candle b qb k v none) y := by
  rw [attend_eq (cpu q), dims3_eq (laws.dims_stacked stacked), Except.ok_bind] at h
  obtain ⟨y1, hy1, h⟩ := Except.bind_eq_ok.1 h
  obtain ⟨y2, hy2, h⟩ := Except.bind_eq_ok.1 h
  obtain ⟨y3, hy3, h⟩ := Except.bind_eq_ok.1 h
  obtain ⟨a1, b1, ha1, hb1, stacked1⟩ :=
    both_attention laws rowwise hmask hmask' qStacked kStacked vStacked hy1
  obtain ⟨a2, b2, ha2, hb2, stacked2⟩ := laws.mergeHeads stacked1 hy2
  have hy3 : candle.reshape y2 ([batch] ++ (n + 1) :: [d]) = .ok y3 := hy3
  obtain ⟨a3, b3, ha3, hb3, stacked3⟩ := laws.reshape stacked2 hy3
  obtain ⟨d', both⟩ := rowwise.attentionWo stacked3 h
  simp only [List.singleton_append] at ha3 hb3
  refine ⟨d', ?_⟩
  simpa only [attend_eq (cpu qa), attend_eq (cpu qb), dims3_eq stacked.front,
    dims3_eq stacked.back, ha1, hb1, ha2, hb2, ha3, hb3, Except.ok_bind] using both

include cpu in
/-- Attention with a cache: the last position after the others leaves the cache of all. -/
theorem exists_forwardAttn (laws : candle.Exact) (rowwise : layer.Rowwise candle)
    (hmask : ModelWeights.causalMask candle (n + 1) = .ok mask)
    (hmask' : ModelWeights.freshMask candle n = .ok mask')
    (stacked : candle.Stacked [batch] n 1 [d] a b x)
    (h : layer.forwardAttn candle x (some mask) 0 = (layer', .ok y)) :
    ∃ between ya yb d', layer.forwardAttn candle a mask' 0 = (between, .ok ya) ∧
      between.forwardAttn candle b none n = (layer', .ok yb) ∧
      candle.Stacked [batch] n 1 [d'] ya yb y := by
  rw [forwardAttn_zero] at h
  rcases hproject : layer.project candle x 0 with e | ⟨q, k, v⟩ <;> rw [hproject] at h
  · cases h
  obtain ⟨rfl, hattend⟩ := Prod.mk.inj h
  obtain ⟨qa, ka, va, qb, kb, vb, ha, hb, qStacked, kStacked, vStacked⟩ :=
    exists_project laws rowwise stacked hproject
  rw [Nat.zero_add] at hb
  obtain ⟨d', ya, yb, hya, hyb, stacked'⟩ :=
    both_attend cpu laws rowwise hmask hmask' stacked qStacked kStacked vStacked hattend
  refine ⟨{ layer with kvCache := some (ka, va) }, ya, yb, d', ?_, ?_, stacked'⟩
  · rw [forwardAttn_zero, ha]
    dsimp only
    rw [hya]
  · have hk : candle.cat [ka, kb] 2 = .ok k := kStacked.whole
    have hv : candle.cat [va, vb] 2 = .ok v := vStacked.whole
    have hcache : extendCache candle (some (ka, va)) kb vb n = .ok (k, v) := by
      simp only [extendCache, if_neg stacked.nonempty.1.ne', hk, hv, Except.ok_bind,
        Except.pure_eq_ok]
    have hb' : ({ layer with kvCache := some (ka, va) } : LayerWeights T).project candle b n =
        .ok (qb, kb, vb) := hb
    rw [forwardAttn, hb']
    dsimp only
    rw [hcache]
    exact congrArg (Prod.mk _) hyb

theorem both_feedForward (laws : candle.Exact) (rowwise : layer.Rowwise candle) {e : ℕ}
    {attn ra rb residual : T} (stacked : candle.Stacked [batch] n m [d] attA attB attn)
    (stacked' : candle.Stacked [batch] n m [e] ra rb residual)
    (h : layer.feedForward candle attn residual = .ok y) :
    ∃ d', candle.Both [batch] n m [d'] (layer.feedForward candle attA ra)
      (layer.feedForward candle attB rb) y := by
  obtain ⟨x, hx, h⟩ := Except.bind_eq_ok.1 h
  obtain ⟨x1, hx1, h⟩ := Except.bind_eq_ok.1 h
  obtain ⟨x2, hx2, h⟩ := Except.bind_eq_ok.1 h
  obtain ⟨xa, xb, hxa, hxb, stacked⟩ := laws.add stacked stacked' hx
  obtain ⟨_, a1, b1, ha1, hb1, stacked1⟩ := rowwise.ffnNorm stacked hx1
  obtain ⟨_, a2, b2, ha2, hb2, stacked2⟩ := rowwise.mlpOrMoe stacked1 hx2
  have both := laws.add stacked2 stacked h
  refine ⟨e, ?_⟩
  simpa only [feedForward, hxa, hxb, ha1, hb1, ha2, hb2, Except.ok_bind] using both

include cpu in
/-- One layer with a cache: the last position after the others. -/
theorem exists_forward (laws : candle.Exact) (rowwise : layer.Rowwise candle)
    (hmask : ModelWeights.causalMask candle (n + 1) = .ok mask)
    (hmask' : ModelWeights.freshMask candle n = .ok mask')
    (stacked : candle.Stacked [batch] n 1 [d] a b x)
    (h : layer.forward candle x (some mask) 0 = (layer', .ok y)) :
    ∃ between ya yb d', layer.forward candle a mask' 0 = (between, .ok ya) ∧
      between.forward candle b none n = (layer', .ok yb) ∧
      candle.Stacked [batch] n 1 [d'] ya yb y := by
  rw [forward] at h
  rcases hnorm : layer.attentionNorm x with e | x1 <;> rw [hnorm] at h
  · cases h
  dsimp only at h
  rcases hattn : layer.forwardAttn candle x1 (some mask) 0 with ⟨layer1, e | attn⟩ <;>
    rw [hattn] at h
  · cases h
  obtain ⟨rfl, hfeed⟩ := Prod.mk.inj h
  obtain ⟨_, a1, b1, ha1, hb1, stacked1⟩ := rowwise.attentionNorm stacked hnorm
  obtain ⟨between, a2, b2, _, ha2, hb2, stacked2⟩ :=
    exists_forwardAttn cpu laws rowwise hmask hmask' stacked1 hattn
  obtain ⟨cache, hbetween⟩ : ∃ kvCache,
    (layer.forwardAttn candle a1 mask' 0).1 = { layer with kvCache } := forwardAttn_fst
  obtain ⟨cache', hlayer1⟩ : ∃ kvCache,
    (layer.forwardAttn candle x1 (some mask) 0).1 = { layer with kvCache } := forwardAttn_fst
  rw [ha2] at hbetween
  rw [hattn] at hlayer1
  have hfeed : layer.feedForward candle attn x = .ok y := by
    rw [← hfeed, show layer1 = _ from hlayer1]
    rfl
  obtain ⟨d', ya, yb, hya, hyb, stacked'⟩ := both_feedForward laws rowwise stacked2 stacked hfeed
  refine ⟨between, ya, yb, d', ?_, ?_, stacked'⟩
  · rw [forward, ha1]
    dsimp only
    rw [ha2, ← hya, show between = _ from hbetween]
    rfl
  · have hb1' : between.attentionNorm b = .ok b1 := by
      rw [show between = _ from hbetween]
      exact hb1
    rw [forward, hb1']
    dsimp only
    rw [hb2, ← hyb, show layer1 = _ from hlayer1]
    rfl

end LayerWeights

/-! ## A list of layers -/

/-- Layers with caches: the last position after the others. -/
theorem exists_forwardLayers (laws : candle.Exact) (cpu : ∀ x, candle.isMetal x = false)
    {layers layers' : List (LayerWeights T)} (rowwise : ∀ layer ∈ layers, layer.Rowwise candle)
    {batch n d : ℕ} {mask : T} {mask' : Option T} {a b x y : T}
    (hmask : ModelWeights.causalMask candle (n + 1) = .ok mask)
    (hmask' : ModelWeights.freshMask candle n = .ok mask')
    (stacked : candle.Stacked [batch] n 1 [d] a b x)
    (h : forwardLayers candle layers x (some mask) 0 = (layers', .ok y)) :
    ∃ between ya yb d', forwardLayers candle layers a mask' 0 = (between, .ok ya) ∧
      forwardLayers candle between b none n = (layers', .ok yb) ∧
      candle.Stacked [batch] n 1 [d'] ya yb y := by
  induction layers generalizing a b x d layers' with
  | nil =>
    cases h
    exact ⟨[], a, b, d, rfl, rfl, stacked⟩
  | cons layer layers ih =>
    obtain ⟨head, tail⟩ := List.forall_mem_cons.1 rowwise
    rw [forwardLayers] at h
    rcases hlayer : layer.forward candle x (some mask) 0 with ⟨layer', e | x'⟩ <;> rw [hlayer] at h
    · cases h
    rcases hrest : forwardLayers candle layers x' (some mask) 0 with ⟨rest', result⟩
    dsimp only at h
    rw [hrest] at h
    obtain ⟨rfl, rfl⟩ := Prod.mk.inj h
    obtain ⟨between, a', b', _, ha, hb, stacked⟩ :=
      LayerWeights.exists_forward cpu laws head hmask hmask' stacked hlayer
    obtain ⟨rest, ya, yb, d', hya, hyb, stacked⟩ := ih tail stacked hrest
    refine ⟨between :: rest, ya, yb, d', ?_, ?_, stacked⟩
    · simp only [forwardLayers, ha, hya]
    · simp only [forwardLayers, hb, hyb]

/-! ## Models that are loaded -/

/-- The modules of a model work on each position alone. -/
structure ModelWeights.Rowwise (candle : Candle T Q) (full : ModelWeights T) : Prop where
  layers : ∀ layer ∈ full.layers, layer.Rowwise candle
  tokEmbeddings : ∀ tok ∈ full.tokEmbeddings, ∃ w hiddenSize, tok = candle.embedding w hiddenSize
  norm : ∀ norm ∈ full.norm, candle.Rowwise norm

/-- A layer without experts, whose biases are vectors. -/
structure LayerWeights.Dense (candle : Candle T Q) (layer : LayerWeights T) : Prop where
  block : ∃ block, layer.mlpOrMoe = .mlp block
  attentionBq : ∀ bias ∈ layer.attentionBq, ∃ d, candle.dims bias = [d]
  attentionBk : ∀ bias ∈ layer.attentionBk, ∃ d, candle.dims bias = [d]
  attentionBv : ∀ bias ∈ layer.attentionBv, ∃ d, candle.dims bias = [d]

theorem rowwise_of_mlpOrMoe (laws : candle.Exact) {gguf : Gguf Q} {hp : HyperParameters}
    {blk : String} {block : Mlp T} (h : gguf.mlpOrMoe candle hp blk = .ok (.mlp block)) :
    candle.Rowwise (block.forward candle) := by
  unfold Gguf.mlpOrMoe at h
  split_ifs at h
  · obtain ⟨block', hblock, h⟩ := Except.bind_eq_ok.1 h
    cases h
    obtain ⟨q1, -, h⟩ := Except.bind_eq_ok.1 hblock
    obtain ⟨q2, -, h⟩ := Except.bind_eq_ok.1 h
    obtain ⟨q3, -, h⟩ := Except.bind_eq_ok.1 h
    obtain ⟨w1, h1, h⟩ := Except.bind_eq_ok.1 h
    obtain ⟨w2, h2, h⟩ := Except.bind_eq_ok.1 h
    obtain ⟨w3, h3, h⟩ := Except.bind_eq_ok.1 h
    cases h
    exact Mlp.rowwise_forward laws (laws.qMatMul h1) (laws.qMatMul h2) (laws.qMatMul h3)
  · obtain ⟨q, -, h⟩ := Except.bind_eq_ok.1 h
    obtain ⟨experts, -, h⟩ := Except.bind_eq_ok.1 h
    obtain ⟨gate, -, h⟩ := Except.bind_eq_ok.1 h
    cases h

theorem rowwise_of_loadLayer (laws : candle.Exact) {gguf : Gguf Q} {hp : HyperParameters}
    {cos sin negInf : T} {layerIdx : ℕ} {layer : LayerWeights T}
    (scalar : candle.newScalar (Float32.ofBits 0xff800000) = .ok negInf)
    (h : gguf.loadLayer candle hp cos sin negInf layerIdx = .ok layer)
    (dense : layer.Dense candle) : layer.Rowwise candle := by
  obtain ⟨tq, -, h⟩ := Except.bind_eq_ok.1 h
  obtain ⟨tk, -, h⟩ := Except.bind_eq_ok.1 h
  obtain ⟨tv, -, h⟩ := Except.bind_eq_ok.1 h
  obtain ⟨tout, -, h⟩ := Except.bind_eq_ok.1 h
  obtain ⟨mlpOrMoe, hmlp, h⟩ := Except.bind_eq_ok.1 h
  obtain ⟨tn, -, h⟩ := Except.bind_eq_ok.1 h
  obtain ⟨tf, -, h⟩ := Except.bind_eq_ok.1 h
  obtain ⟨wq, hwq, h⟩ := Except.bind_eq_ok.1 h
  obtain ⟨wk, hwk, h⟩ := Except.bind_eq_ok.1 h
  obtain ⟨wv, hwv, h⟩ := Except.bind_eq_ok.1 h
  obtain ⟨wo, hwo, h⟩ := Except.bind_eq_ok.1 h
  obtain ⟨attentionNorm, hnorm, h⟩ := Except.bind_eq_ok.1 h
  obtain ⟨ffnNorm, hffn, h⟩ := Except.bind_eq_ok.1 h
  cases h
  obtain ⟨block, rfl⟩ := dense.block
  exact
    { attentionWq := laws.qMatMul hwq
      attentionWk := laws.qMatMul hwk
      attentionWv := laws.qMatMul hwv
      attentionWo := laws.qMatMul hwo
      attentionBq := dense.attentionBq
      attentionBk := dense.attentionBk
      attentionBv := dense.attentionBv
      attentionNorm := laws.rmsNorm hnorm
      mlpOrMoe := rowwise_of_mlpOrMoe laws hmlp
      ffnNorm := laws.rmsNorm hffn
      negInf := scalar }

theorem rowwise_of_load (laws : candle.Exact) {gguf : Gguf Q} {full : ModelWeights T}
    (hload : ModelWeights.fromGguf candle gguf = .ok full)
    (dense : ∀ layer ∈ full.layers, layer.Dense candle) : full.Rowwise candle := by
  obtain ⟨hp, cos, sin, negInf, -, -, scalar, htok, hhead, hlayers, -, -, -⟩ :=
    ModelWeights.fromGgufPartial_eq_ok hload
  refine ⟨fun layer hlayer => ?_, fun tok hmem => ?_, fun norm hmem => ?_⟩
  · obtain ⟨i, -, h⟩ := Except.exists_of_mem_mapM hlayers hlayer
    exact rowwise_of_loadLayer laws scalar h (dense layer hlayer)
  · rw [show full.tokEmbeddings = some tok from hmem, Gguf.loadEmbeddings] at htok
    split_ifs at htok
    · obtain ⟨q, -, htok⟩ := Except.bind_eq_ok.1 htok
      obtain ⟨w, -, htok⟩ := Except.bind_eq_ok.1 htok
      cases htok
      exact ⟨w, hp.embeddingLength, rfl⟩
    · cases htok
  · rw [show full.norm = some norm from hmem, Gguf.loadHead] at hhead
    split_ifs at hhead
    · obtain ⟨q, -, hhead⟩ := Except.bind_eq_ok.1 hhead
      obtain ⟨norm', hnorm, hhead⟩ := Except.bind_eq_ok.1 hhead
      have hnone : some norm' = some norm := by
        dsimp only at hhead
        split at hhead
        all_goals
          obtain ⟨outputQ, -, hhead⟩ := Except.bind_eq_ok.1 hhead
          obtain ⟨output, -, hhead⟩ := Except.bind_eq_ok.1 hhead
          exact congrArg Prod.fst (Except.ok.inj hhead)
      cases hnone
      exact laws.rmsNorm hnorm
    · cases hhead

end NeuralSwarm
