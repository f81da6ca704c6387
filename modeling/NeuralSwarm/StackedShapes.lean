import NeuralSwarm.Stacking

/-!
# Shapes in two parts

`Candle.vectors` is `Candle.shapes` with the check of the norm that its weights are a vector, and
with numbers of elements that do not wrap.  On shapes, the functions of the crates work on the parts
of a tensor alone.
-/

namespace NeuralSwarm

namespace Shape

theorem ext_dims {x y : Shape} (h : x.dims = y.dims) : x = y := by
  cases x
  cases y
  cases h
  rfl

/-- A shape that is smaller everywhere does not overflow. -/
theorem exists_ofDims_mid {pre post : List ℕ} {k n : ℕ} {y : Shape}
    (hy : y.dims = pre ++ n :: post) (hle : k ≤ n) :
    ∃ x, ofDims (pre ++ k :: post) = .ok x ∧ x.dims = pre ++ k :: post := by
  have hlt : ∀ d ∈ pre ++ k :: post, d < 2 ^ 64 := by
    intro d hd
    have hbound := y.dims_lt
    rw [hy] at hbound
    simp only [List.mem_append, List.mem_cons] at hd hbound
    rcases hd with hd | rfl | hd
    · exact hbound d (.inl hd)
    · exact Nat.lt_of_le_of_lt hle (hbound n (.inr (.inl rfl)))
    · exact hbound d (.inr (.inr hd))
  exact ⟨⟨_, hlt⟩, dif_pos hlt, rfl⟩

theorem ofDims_of_dims {x : Shape} {dims : List ℕ} (h : x.dims = dims) : ofDims dims = .ok x := by
  rw [← h]
  exact ofDims_dims x

end Shape

namespace Candle

open Shape

/-- Tensors of zeros, with the norm's check of its weights, and elements that can be counted. -/
def vectors : Candle Shape Shape :=
  { shapes with
    reshape := fun x dims =>
      if x.dims.prod = dims.prod then ofDims dims else .error "shape mismatch"
    rmsNorm := fun q _ => .ok fun x =>
      match q.dims with
      | [d] => if x.dims.getLast? = some d then .ok x else .error "shape mismatch in rms-norm"
      | _ => .error "unexpected rank, expected: 1" }

theorem vectors_lawful : vectors.Lawful where
  dims_tokens := shapes_lawful.dims_tokens
  isHidden_embedding := shapes_lawful.isHidden_embedding
  isHidden_add := shapes_lawful.isHidden_add

variable {pre post : List ℕ} {n m : ℕ} {a b x y : Shape}

theorem stacked_vectors_iff : vectors.Stacked pre n m post a b x ↔ (0 < n ∧ 0 < m) ∧
    a.dims = pre ++ n :: post ∧ b.dims = pre ++ m :: post ∧ x.dims = pre ++ (n + m) :: post := by
  have hcat (ha : a.dims = pre ++ n :: post) (hb : b.dims = pre ++ m :: post) :
      vectors.cat [a, b] pre.length = ofDims (pre ++ (n + m) :: post) := by
    change Shape.cat [a, b] pre.length = _
    simp [Shape.cat, Shape.withDim, ha, hb, List.getD_eq_getElem?_getD]
  constructor
  · rintro ⟨nonempty, ha, hb, hx⟩
    rw [hcat ha hb] at hx
    exact ⟨nonempty, ha, hb, dims_of_ofDims hx⟩
  · rintro ⟨nonempty, ha, hb, hx⟩
    exact ⟨nonempty, ha, hb, by rw [hcat ha hb, ofDims_of_dims hx]⟩

theorem dims_of_stacked (stacked : vectors.Stacked pre n m post a b x) :
    a.dims = pre ++ n :: post ∧ b.dims = pre ++ m :: post ∧ x.dims = pre ++ (n + m) :: post :=
  (stacked_vectors_iff.1 stacked).2

/-- Results that are given by their shapes. -/
theorem both_vectors (nonempty : 0 < n ∧ 0 < m) (hy : y.dims = pre ++ (n + m) :: post)
    {front back : Except String Shape}
    (hfront : front = ofDims (pre ++ n :: post)) (hback : back = ofDims (pre ++ m :: post)) :
    vectors.Both pre n m post front back y := by
  obtain ⟨ya, hya, hda⟩ := exists_ofDims_mid hy (Nat.le_add_right n m)
  obtain ⟨yb, hyb, hdb⟩ := exists_ofDims_mid hy (Nat.le_add_left m n)
  exact ⟨ya, yb, hfront.trans hya, hback.trans hyb, stacked_vectors_iff.2 ⟨nonempty, hda, hdb, hy⟩⟩

/-- An operation that keeps its argument. -/
theorem both_self (stacked : vectors.Stacked pre n m post a b x) :
    vectors.Both pre n m post (.ok a) (.ok b) x := ⟨a, b, rfl, rfl, stacked⟩

theorem embed_vectors (w : Shape) (hiddenSize : ℕ) (ids : List ℕ) :
    embed vectors (vectors.embedding w hiddenSize) ids = ofDims [1, ids.length, hiddenSize] := by
  change (ofDims [ids.length] >>= fun x => (if 0 ≤ x.dims.length then ofDims (x.dims.insertIdx 0 1)
    else .error "dim out of range") >>= fun x => ofDims (x.dims ++ [hiddenSize])) = _
  by_cases hlt : ids.length < 2 ^ 64
  · have hids : ofDims [ids.length] = .ok ⟨[ids.length], by simpa using hlt⟩ :=
      dif_pos (by simpa using hlt)
    have hrow : ofDims [1, ids.length] = .ok ⟨[1, ids.length], by simpa using hlt⟩ :=
      dif_pos (by simpa using hlt)
    rw [hids, Except.ok_bind, if_pos (Nat.zero_le _)]
    simp only [List.insertIdx_zero, hrow, Except.ok_bind, List.cons_append, List.nil_append]
  · have hids : ofDims [ids.length] = .error "shape overflow" :=
      dif_neg fun h => hlt (by simpa using h)
    have hall : ofDims [1, ids.length, hiddenSize] = .error "shape overflow" :=
      dif_neg fun h => hlt (h ids.length (by simp))
    rw [hids, hall, Except.error_bind]

theorem rowwise_linear (w : Shape) : vectors.Rowwise w.linear := by
  intro batch n m d a b x y stacked h
  obtain ⟨ha, hb, hx⟩ := dims_of_stacked stacked
  unfold Shape.linear at h
  split at h
  · rename_i r k hw
    rw [hx] at h
    split_ifs at h with hlast
    refine ⟨r, both_vectors stacked.nonempty (dims_of_ofDims h) ?_ ?_⟩
    · simp only [Shape.linear, hw, ha]
      exact if_pos hlast
    · simp only [Shape.linear, hw, hb]
      exact if_pos hlast
  · cases h

theorem rowwise_rmsNorm {q : Shape} {eps : Float} {f : ForwardFn Shape}
    (h : vectors.rmsNorm q eps = .ok f) : vectors.Rowwise f := by
  cases h
  intro batch n m d a b x y stacked h
  obtain ⟨ha, hb, hx⟩ := dims_of_stacked stacked
  dsimp only at h ⊢
  split at h
  · rw [hx] at h
    split_ifs at h with hlast
    cases h
    refine ⟨d, a, b, ?_, ?_, stacked⟩
    · rw [ha]
      exact if_pos hlast
    · rw [hb]
      exact if_pos hlast
  · cases h

theorem rowwise_broadcastAdd {bias : Shape} {k : ℕ} (hbias : vectors.dims bias = [k]) :
    vectors.Rowwise (vectors.broadcastAdd · bias) := by
  intro batch n m d a b x y stacked h
  obtain ⟨ha, hb, hx⟩ := dims_of_stacked stacked
  have hadd (z : Shape) : vectors.broadcastAdd z bias =
      if stretches [k] z.dims then .ok z else .error "cannot broadcast" := by
    rw [← hbias]
    rfl
  have hstretch (s : ℕ) : stretches [k] ([batch] ++ s :: [d]) =
      stretches [k] ([batch] ++ (n + m) :: [d]) := rfl
  dsimp only at h ⊢
  rw [hadd, hx] at h
  split_ifs at h with hok
  cases h
  refine ⟨d, a, b, ?_, ?_, stacked⟩
  · rw [hadd, ha, hstretch, if_pos hok]
  · rw [hadd, hb, hstretch, if_pos hok]

theorem same_eq_ok {x y z : Shape} (h : same x y = .ok z) : x.dims = y.dims ∧ z = y := by
  unfold same at h
  split_ifs at h with hdims
  cases h
  exact ⟨hdims, rfl⟩

theorem same_of_dims {x y : Shape} (h : x.dims = y.dims) : same x y = .ok y := if_pos h

/-- Addition and multiplication. -/
theorem both_same {post' : List ℕ} {a' b' x' : Shape} (stacked : vectors.Stacked pre n m post a b x)
    (stacked' : vectors.Stacked pre n m post' a' b' x') (h : same x x' = .ok y) :
    vectors.Both pre n m post' (same a a') (same b b') y := by
  obtain ⟨hdims, rfl⟩ := same_eq_ok h
  obtain ⟨ha, hb, hx⟩ := dims_of_stacked stacked
  obtain ⟨ha', hb', hx'⟩ := dims_of_stacked stacked'
  rw [hx, hx'] at hdims
  have hpost : post = post' := (List.cons.inj (List.append_cancel_left hdims)).2
  rw [hpost] at ha hb
  exact ⟨a', b', same_of_dims (ha.trans ha'.symm), same_of_dims (hb.trans hb'.symm), stacked'⟩

theorem both_reshape {post' : List ℕ} (stacked : vectors.Stacked pre n m post a b x)
    (h : vectors.reshape x (pre ++ (n + m) :: post') = .ok y) :
    vectors.Both pre n m post' (vectors.reshape a (pre ++ n :: post'))
      (vectors.reshape b (pre ++ m :: post')) y := by
  have hreshape (z : Shape) (dims : List ℕ) : vectors.reshape z dims =
      if z.dims.prod = dims.prod then ofDims dims else .error "shape mismatch" := rfl
  obtain ⟨ha, hb, hx⟩ := dims_of_stacked stacked
  rw [hreshape, hx] at h
  split_ifs at h with hprod
  simp only [List.prod_append, List.prod_cons] at hprod
  have hpart (k : ℕ) (hk : n + m = 0 → k = 0) :
      (pre ++ k :: post).prod = (pre ++ k :: post').prod := by
    simp only [List.prod_append, List.prod_cons]
    rcases Nat.eq_zero_or_pos pre.prod with hzero | hpos
    · rw [hzero, Nat.zero_mul, Nat.zero_mul]
    · have hprod := Nat.eq_of_mul_eq_mul_left hpos hprod
      rcases Nat.eq_zero_or_pos (n + m) with hzero | hpos
      · rw [hk hzero, Nat.zero_mul, Nat.zero_mul]
      · rw [Nat.eq_of_mul_eq_mul_left hpos hprod]
  refine both_vectors stacked.nonempty (dims_of_ofDims h) ?_ ?_
  · rw [hreshape, ha, if_pos (hpart n (by omega))]
  · rw [hreshape, hb, if_pos (hpart m (by omega))]

theorem narrow_vectors (x : Shape) (start len : ℕ) : vectors.narrow x 0 start len =
    if start + len ≤ x.dims.getD 0 0 then x.withDim 0 len else .error "narrow invalid args" := rfl

theorem both_narrow {start : ℕ} (nonempty : 0 < n ∧ 0 < m)
    (h : vectors.narrow x 0 start (n + m) = .ok y) :
    ∃ post, vectors.Both [] n m post (vectors.narrow x 0 start n)
      (vectors.narrow x 0 (start + n) m) y := by
  rw [narrow_vectors] at h
  split_ifs at h with hle
  unfold Shape.withDim at h
  split_ifs at h with hpos
  obtain ⟨len, post, hx⟩ : ∃ len post, x.dims = len :: post :=
    List.exists_cons_of_length_pos hpos
  rw [hx] at h hle
  refine ⟨post, both_vectors nonempty (dims_of_ofDims h) ?_ ?_⟩
  · rw [narrow_vectors, hx, if_pos (by simp at hle ⊢; omega), Shape.withDim, hx]
    rfl
  · rw [narrow_vectors, hx, if_pos (by simp at hle ⊢; omega), Shape.withDim, hx]
    rfl

theorem both_matmul_rows {batch heads d e : ℕ} {pre : List ℕ} {z : Shape}
    (stacked : vectors.Stacked [batch, heads] n m [d] a b x) (hz : vectors.dims z = pre ++ [e])
    (h : vectors.matmul x z = .ok y) :
    vectors.Both [batch, heads] n m [e] (vectors.matmul a z) (vectors.matmul b z) y := by
  obtain ⟨ha, hb, hx⟩ := dims_of_stacked stacked
  have hz : z.dims.reverse = e :: pre.reverse := by
    rw [show z.dims = _ from hz, List.reverse_append]
    rfl
  have hmatmul (w : Shape) (s : ℕ) (hw : w.dims = [batch, heads] ++ s :: [d]) :
      vectors.matmul w z = match pre.reverse with
        | k' :: batch' => if d = k' ∧ [heads, batch] = batch' then
            ofDims ([batch, heads] ++ [s, e]) else .error "shape mismatch"
        | [] => .error "unexpected rank" := by
    change Shape.matmul w z = _
    rw [Shape.matmul, hw, hz]
    cases pre.reverse <;> rfl
  rw [hmatmul x _ hx] at h
  split at h
  · rename_i k' batch' hpre
    split_ifs at h with hdims
    refine both_vectors stacked.nonempty (dims_of_ofDims h) ?_ ?_
    · rw [hmatmul a _ ha, hpre]
      exact if_pos hdims
    · rw [hmatmul b _ hb, hpre]
      exact if_pos hdims
  · cases h

theorem both_matmul_columns {batch heads rows d : ℕ} {z : Shape}
    (hx : vectors.dims x = [batch, heads, rows, d]) (stacked : vectors.Stacked pre n m [] a b z)
    (h : vectors.matmul x z = .ok y) :
    vectors.Both [batch, heads, rows] n m [] (vectors.matmul x a) (vectors.matmul x b) y := by
  obtain ⟨ha, hb, hz⟩ := dims_of_stacked stacked
  have hmatmul (w : Shape) (s : ℕ) (hw : w.dims = pre ++ s :: []) :
      vectors.matmul x w = match pre.reverse with
        | k' :: batch' => if d = k' ∧ [heads, batch] = batch' then
            ofDims ([batch, heads, rows] ++ s :: []) else .error "shape mismatch"
        | [] => .error "unexpected rank" := by
    change Shape.matmul x w = _
    rw [Shape.matmul, show x.dims = _ from hx, hw, List.reverse_append]
    cases pre.reverse <;> rfl
  rw [hmatmul z _ hz] at h
  split at h
  · rename_i k' batch' hpre
    split_ifs at h with hdims
    refine both_vectors stacked.nonempty (dims_of_ofDims h) ?_ ?_
    · rw [hmatmul a _ ha, hpre]
      exact if_pos hdims
    · rw [hmatmul b _ hb, hpre]
      exact if_pos hdims
  · cases h

theorem both_transpose {pre' post' : List ℕ} {i j : ℕ}
    (stacked : vectors.Stacked pre n m post a b x)
    (htranspose : ∀ z : Shape, ∀ s, z.dims = pre ++ s :: post →
      vectors.transpose z i j = ofDims (pre' ++ s :: post'))
    (h : vectors.transpose x i j = .ok y) :
    vectors.Both pre' n m post' (vectors.transpose a i j) (vectors.transpose b i j) y := by
  obtain ⟨ha, hb, hx⟩ := dims_of_stacked stacked
  rw [htranspose x _ hx] at h
  exact both_vectors stacked.nonempty (dims_of_ofDims h) (htranspose a _ ha) (htranspose b _ hb)

theorem both_ropeI {batch heads d : ℕ} {post' post'' : List ℕ} {ca cb cos sa sb sin : Shape}
    (stacked : vectors.Stacked [batch, heads] n m [d] a b x)
    (cosStacked : vectors.Stacked [] n m post' ca cb cos)
    (sinStacked : vectors.Stacked [] n m post'' sa sb sin) (h : vectors.ropeI x cos sin = .ok y) :
    vectors.Both [batch, heads] n m [d] (vectors.ropeI a ca sa) (vectors.ropeI b cb sb) y := by
  obtain ⟨ha, hb, hx⟩ := dims_of_stacked stacked
  have hrope (z cos sin : Shape) (s : ℕ) (hz : z.dims = [batch, heads] ++ s :: [d]) :
      vectors.ropeI z cos sin = if s * d = 0 then .error "chunk_size must not be zero"
        else same cos sin >>= fun _ => .ok z := by
    change (if (z.dims.drop 2).prod = 0 then _ else _) = _
    rw [hz]
    simp
  rw [hrope x _ _ _ hx] at h
  split_ifs at h with hchunk
  obtain ⟨_, hsame, h⟩ := Except.bind_eq_ok.1 h
  cases h
  obtain ⟨_, _, hfront, hback, -⟩ := both_same cosStacked sinStacked hsame
  have hd : d ≠ 0 := right_ne_zero_of_mul hchunk
  refine ⟨a, b, ?_, ?_, stacked⟩
  · rw [hrope a _ _ _ ha, if_neg (Nat.mul_ne_zero stacked.nonempty.1.ne' hd)]
    exact Except.bind_eq_ok.2 ⟨_, hfront, rfl⟩
  · rw [hrope b _ _ _ hb, if_neg (Nat.mul_ne_zero stacked.nonempty.2.ne' hd)]
    exact Except.bind_eq_ok.2 ⟨_, hback, rfl⟩

theorem both_whereCond {a' b' x' a'' b'' x'' : Shape} (stacked : vectors.Stacked pre n m post a b x)
    (stacked' : vectors.Stacked pre n m post a' b' x')
    (stacked'' : vectors.Stacked pre n m post a'' b'' x'')
    (h : vectors.whereCond x x' x'' = .ok y) :
    vectors.Both pre n m post (vectors.whereCond a a' a'') (vectors.whereCond b b' b'') y := by
  obtain ⟨z, hz, h⟩ := Except.bind_eq_ok.1 h
  obtain ⟨za, zb, hza, hzb, stacked⟩ := both_same stacked stacked' hz
  obtain ⟨ya, yb, hya, hyb, stacked⟩ := both_same stacked stacked'' h
  exact ⟨ya, yb, Except.bind_eq_ok.2 ⟨za, hza, hya⟩, Except.bind_eq_ok.2 ⟨zb, hzb, hyb⟩, stacked⟩

theorem fromSlice_eq_ok {bits : List UInt8} {dims : List ℕ}
    (h : vectors.fromSlice bits dims = .ok y) :
    bits.length = elemCount dims ∧ ofDims dims = .ok y := by
  change (if bits.length = elemCount dims then ofDims dims else .error "shape mismatch") = _ at h
  split_ifs at h with hlength
  exact ⟨hlength, h⟩

theorem fromSlice_vectors {bits : List UInt8} {dims : List ℕ} (h : bits.length = elemCount dims) :
    vectors.fromSlice bits dims = ofDims dims := if_pos h

/-- A list that is as long as a shape has elements, and no longer than one can be. -/
theorem length_eq_elemCount {bits : List UInt8} {dims : List ℕ} (h : bits.length = dims.prod)
    (hlt : bits.length < 2 ^ 64) : bits.length = elemCount dims := by
  rw [elemCount, ← h, Nat.mod_eq_of_lt hlt]

theorem both_fromSlice {front back : List UInt8} {d : ℕ} (nonempty : 0 < n ∧ 0 < m)
    (hfront : front.length = n * d) (hback : back.length = m * d)
    (h : vectors.fromSlice (front ++ back) [n + m, d] = .ok y) :
    vectors.Both [] n m [d] (vectors.fromSlice front [n, d]) (vectors.fromSlice back [m, d]) y := by
  obtain ⟨hlength, hy⟩ := fromSlice_eq_ok h
  have hlt : elemCount [n + m, d] < 2 ^ 64 := Nat.mod_lt _ (by decide)
  rw [← hlength, List.length_append] at hlt
  refine both_vectors nonempty (dims_of_ofDims hy) ?_ ?_
  · exact fromSlice_vectors (length_eq_elemCount (by simpa using hfront) (by omega))
  · exact fromSlice_vectors (length_eq_elemCount (by simpa using hback) (by omega))

theorem broadcastAs_vectors {dims : List ℕ} (h : stretches x.dims dims = true) :
    vectors.broadcastAs x dims = ofDims dims := if_pos h

theorem stretches_cons_cons (batch heads : ℕ) (dims : List ℕ) :
    stretches dims (batch :: heads :: dims) = true := by
  have hzip : dims.reverse.zip (batch :: heads :: dims).reverse =
      dims.reverse.zip dims.reverse := by
    have happend : (dims.reverse ++ []).zip (dims.reverse ++ [heads, batch]) = _ :=
      List.zip_append rfl
    simpa using happend
  have hself : ∀ pair ∈ dims.reverse.zip dims.reverse, pair.1 = pair.2 := by
    intro pair hpair
    rw [← List.map_id dims.reverse, List.zip_map'] at hpair
    obtain ⟨d, -, rfl⟩ := List.mem_map.1 hpair
    rfl
  rw [stretches, hzip, Bool.and_eq_true, List.all_eq_true]
  refine ⟨by simp; omega, fun pair hpair => ?_⟩
  simp [hself pair hpair]

theorem both_broadcastAs {batch heads : ℕ} (stacked : vectors.Stacked pre n m post a b x)
    (h : vectors.broadcastAs x (batch :: heads :: pre ++ (n + m) :: post) = .ok y) :
    vectors.Both (batch :: heads :: pre) n m post
      (vectors.broadcastAs a (batch :: heads :: pre ++ n :: post))
      (vectors.broadcastAs b (batch :: heads :: pre ++ m :: post)) y := by
  obtain ⟨ha, hb, hx⟩ := dims_of_stacked stacked
  rw [broadcastAs_vectors (by rw [hx]; exact stretches_cons_cons ..)] at h
  refine both_vectors stacked.nonempty (dims_of_ofDims h) ?_ ?_
  · exact broadcastAs_vectors (by rw [ha]; exact stretches_cons_cons ..)
  · exact broadcastAs_vectors (by rw [hb]; exact stretches_cons_cons ..)

theorem broadcastAs_of_scalar {v : Float32} (hx : vectors.newScalar v = .ok x) (dims : List ℕ) :
    vectors.broadcastAs x dims = ofDims dims := by
  have hdims : x.dims = [] := dims_of_ofDims hx
  exact broadcastAs_vectors (by rw [hdims]; simp [stretches])

theorem row_vectors {batch d : ℕ} (stacked : vectors.Stacked [batch] n 1 [d] a b x)
    (h : vectors.row x n = .ok y) : vectors.row b 0 = .ok y := by
  obtain ⟨-, hb, hx⟩ := dims_of_stacked stacked
  have hrow (z : Shape) (s i : ℕ) (hz : z.dims = [batch, s, d]) (hi : i < s) :
      vectors.row z i = ofDims [batch, d] := by
    simp only [vectors, shapes, hz]
    exact if_pos hi
  rw [hrow x (n + 1) n hx (Nat.lt_succ_self n)] at h
  rw [hrow b 1 0 hb Nat.one_pos, h]

theorem both_fromSlice_columns {count : ℕ} {rows : List (List UInt8)} (nonempty : 0 < n ∧ 0 < m)
    (hcount : rows.length = count) (hrows : ∀ row ∈ rows, row.length = n)
    (h : vectors.fromSlice (rows.flatMap (· ++ List.replicate m 1)) [count, n + m] = .ok y) :
    vectors.Both [count] n m [] (vectors.fromSlice rows.flatten [count, n])
      (vectors.fromSlice (List.replicate (count * m) 1) [count, m]) y := by
  obtain ⟨hlength, hy⟩ := fromSlice_eq_ok h
  have hwide : ∀ row ∈ rows, (row ++ List.replicate m 1).length = n + m := by
    intro row hrow
    rw [List.length_append, hrows row hrow, List.length_replicate]
  have hlt : elemCount [count, n + m] < 2 ^ 64 := Nat.mod_lt _ (by decide)
  rw [← hlength, List.length_flatMap, List.map_congr_left hwide, List.map_const', hcount,
    List.sum_replicate_nat, Nat.mul_add] at hlt
  have hflat : rows.flatten.length = count * n := by
    rw [List.length_flatten, List.map_congr_left hrows]
    simp [hcount]
  refine both_vectors nonempty (dims_of_ofDims hy) ?_ ?_
  · exact fromSlice_vectors (length_eq_elemCount (by simpa using hflat) (by omega))
  · exact fromSlice_vectors (length_eq_elemCount (by simp) (by rw [List.length_replicate]; omega))

/-- Of a choice by a mask, everything has the same shape. -/
theorem whereCond_eq_ok {mask onTrue onFalse : Shape}
    (h : vectors.whereCond mask onTrue onFalse = .ok y) : y = onTrue ∧ y = onFalse := by
  obtain ⟨z, hz, hsame⟩ := Except.bind_eq_ok.1 h
  obtain ⟨-, rfl⟩ := same_eq_ok hz
  obtain ⟨hdims, rfl⟩ := same_eq_ok hsame
  exact ⟨ext_dims hdims.symm, rfl⟩

theorem matmul_front {batch heads heads' count d : ℕ} {va vb v : Shape}
    (stacked : vectors.Stacked [batch, heads, count] n m [] a b x)
    (vStacked : vectors.Stacked [batch, heads'] n m [d] va vb v)
    (h : vectors.matmul x v = .ok y) : vectors.matmul a va = .ok y := by
  obtain ⟨ha, -, hx⟩ := dims_of_stacked stacked
  obtain ⟨hva, -, hv⟩ := dims_of_stacked vStacked
  change Shape.matmul x v = _ at h
  change Shape.matmul a va = _
  rw [Shape.matmul, hx, hv] at h
  rw [Shape.matmul, ha, hva]
  change (if n + m = n + m ∧ [heads, batch] = [heads', batch] then
    ofDims ([heads, batch].reverse ++ [count, d]) else _) = _ at h
  change (if n = n ∧ [heads, batch] = [heads', batch] then
    ofDims ([heads, batch].reverse ++ [count, d]) else _) = _
  simpa using h

theorem vectors_exact : vectors.Exact where
  dims_stacked stacked := (dims_of_stacked stacked).2.2
  contiguous _ := rfl
  embedding {w hiddenSize front back y} nonempty h := by
    rw [embed_vectors, List.length_append] at h
    refine ⟨hiddenSize, both_vectors nonempty (dims_of_ofDims h) ?_ ?_⟩ <;> exact embed_vectors ..
  qMatMul h := by
    cases h
    exact rowwise_linear _
  rmsNorm := rowwise_rmsNorm
  silu stacked h := by
    cases h
    exact ⟨_, both_self stacked⟩
  broadcastAdd := rowwise_broadcastAdd
  mul := both_same
  add := both_same
  divScalar stacked h := by
    cases h
    exact both_self stacked
  reshape := both_reshape
  splitHeads {batch n m heads d a b x y} stacked h := by
    refine both_transpose stacked (fun z s hz => ?_) h
    change Shape.transpose z 1 2 = _
    rw [Shape.transpose, hz]
    rfl
  mergeHeads {batch n m heads d a b x y} stacked h := by
    refine both_transpose stacked (fun z s hz => ?_) h
    change Shape.transpose z 1 2 = _
    rw [Shape.transpose, hz]
    rfl
  narrow := both_narrow
  ropeI := both_ropeI
  repeatKv {batch heads n m d a b x times y} stacked h := by
    obtain ⟨ha, hb, hx⟩ := dims_of_stacked stacked
    have hrepeat (z : Shape) (s : ℕ) (hz : z.dims = [batch, heads] ++ s :: [d]) :
        vectors.repeatKv z times = ofDims ([batch, heads * times] ++ s :: [d]) := by
      change z.withDim 1 (z.dims.getD 1 0 * times) = _
      rw [Shape.withDim, hz]
      rfl
    rw [hrepeat x _ hx] at h
    exact ⟨heads * times,
      both_vectors stacked.nonempty (dims_of_ofDims h) (hrepeat a _ ha) (hrepeat b _ hb)⟩
  t {batch heads n m d a b x y} stacked h := by
    obtain ⟨ha, hb, hx⟩ := dims_of_stacked stacked
    have ht (z : Shape) (s : ℕ) (hz : z.dims = [batch, heads] ++ s :: [d]) :
        vectors.t z = ofDims ([batch, heads, d] ++ s :: []) := by
      change z.transpose (z.dims.length - 2) (z.dims.length - 1) = _
      rw [Shape.transpose, hz]
      rfl
    rw [ht x _ hx] at h
    exact both_vectors stacked.nonempty (dims_of_ofDims h) (ht a _ ha) (ht b _ hb)
  matmul_rows := both_matmul_rows
  matmul_columns := both_matmul_columns
  softmaxLastDim stacked h := by
    cases h
    exact both_self stacked
  row := row_vectors
  fromSlice := both_fromSlice
  broadcastAs := both_broadcastAs
  broadcastAs_scalar nonempty hx h := by
    rw [broadcastAs_of_scalar hx] at h
    exact both_vectors nonempty (dims_of_ofDims h) (broadcastAs_of_scalar hx _)
      (broadcastAs_of_scalar hx _)
  whereCond := both_whereCond
  whereCond_const _ _ h := by
    obtain ⟨honTrue, honFalse⟩ := whereCond_eq_ok h
    split
    · exact honFalse
    · exact honTrue
  fromSlice_columns := both_fromSlice_columns
  softmax_masked _ _ _ _ _ _ _ _ stacked vStacked hweights h := by
    cases hweights
    exact matmul_front stacked vStacked h

end Candle

end NeuralSwarm
