import NeuralSwarm.QuantizedLlama.Layer

/-!
# Tensors in two parts

`Stacked` says that a tensor is one tensor followed by another along some dimension.  `Candle.Exact`
collects what the crates document of their functions on such tensors, in exact arithmetic: they work
on the parts alone, a mask of one value chooses everything, and a score of `-∞` does not count.
-/

namespace NeuralSwarm

variable {T Q : Type} (candle : Candle T Q)

/-! ## Two parts -/

/-- A tensor is `a` followed by `b`: `n` and `m` entries, at least one each, of the dimension
between `pre` and `post`. -/
structure Candle.Stacked (pre : List ℕ) (n m : ℕ) (post : List ℕ) (a b x : T) : Prop where
  nonempty : 0 < n ∧ 0 < m
  front : candle.dims a = pre ++ n :: post
  back : candle.dims b = pre ++ m :: post
  whole : candle.cat [a, b] pre.length = .ok x

/-- Two results that are the parts of a tensor. -/
def Candle.Both (pre : List ℕ) (n m : ℕ) (post : List ℕ) (front back : Except String T) (y : T) :
    Prop :=
  ∃ ya yb, front = .ok ya ∧ back = .ok yb ∧ candle.Stacked pre n m post ya yb y

/-- A function that computes each position of a hidden state from this position alone. -/
def Candle.Rowwise (f : ForwardFn T) : Prop :=
  ∀ {batch n m d a b x y}, candle.Stacked [batch] n m [d] a b x → f x = .ok y →
    ∃ d', candle.Both [batch] n m [d'] (f a) (f b) y

/-- The weighted sum of the values: the last part of the attention. -/
def weigh (negInf : T) (mask : Option T) (att v : T) : Except String T := do
  let att ←
    match mask with
    | none => pure att
    | some mask => do
      let mask ← candle.broadcastAs mask (candle.dims att)
      maskedFill candle att mask negInf
  let att ← candle.softmaxLastDim att
  candle.matmul att (← candle.contiguous v)

/-- Tensors of token ids, embedded. -/
def embed (embedding : ForwardFn T) (ids : List ℕ) : Except String T := do
  embedding (← candle.unsqueeze (← candle.newU32 ids) 0)

/-- What the crates document of their functions on tensors in two parts, in exact arithmetic. -/
structure Candle.Exact : Prop where
  dims_stacked : ∀ {pre n m post a b x}, candle.Stacked pre n m post a b x →
    candle.dims x = pre ++ (n + m) :: post
  contiguous : ∀ x, candle.contiguous x = .ok x
  embedding : ∀ {w hiddenSize front back y}, 0 < front.length ∧ 0 < back.length →
    embed candle (candle.embedding w hiddenSize) (front ++ back) = .ok y →
      ∃ d, candle.Both [1] front.length back.length [d]
        (embed candle (candle.embedding w hiddenSize) front)
        (embed candle (candle.embedding w hiddenSize) back) y
  qMatMul : ∀ {q f}, candle.qMatMul q = .ok f → candle.Rowwise f
  rmsNorm : ∀ {q eps f}, candle.rmsNorm q eps = .ok f → candle.Rowwise f
  silu : candle.Rowwise candle.silu
  broadcastAdd : ∀ {bias d}, candle.dims bias = [d] → candle.Rowwise (candle.broadcastAdd · bias)
  mul : ∀ {pre n m post post' a b x a' b' x' y}, candle.Stacked pre n m post a b x →
    candle.Stacked pre n m post' a' b' x' → candle.mul x x' = .ok y →
      candle.Both pre n m post' (candle.mul a a') (candle.mul b b') y
  add : ∀ {pre n m post post' a b x a' b' x' y}, candle.Stacked pre n m post a b x →
    candle.Stacked pre n m post' a' b' x' → candle.add x x' = .ok y →
      candle.Both pre n m post' (candle.add a a') (candle.add b b') y
  divScalar : ∀ {pre n m post a b x c y}, candle.Stacked pre n m post a b x →
    candle.divScalar x c = .ok y →
      candle.Both pre n m post (candle.divScalar a c) (candle.divScalar b c) y
  reshape : ∀ {pre n m post post' a b x y}, candle.Stacked pre n m post a b x →
    candle.reshape x (pre ++ (n + m) :: post') = .ok y →
      candle.Both pre n m post' (candle.reshape a (pre ++ n :: post'))
        (candle.reshape b (pre ++ m :: post')) y
  splitHeads : ∀ {batch n m heads d a b x y}, candle.Stacked [batch] n m [heads, d] a b x →
    candle.transpose x 1 2 = .ok y →
      candle.Both [batch, heads] n m [d] (candle.transpose a 1 2) (candle.transpose b 1 2) y
  mergeHeads : ∀ {batch n m heads d a b x y}, candle.Stacked [batch, heads] n m [d] a b x →
    candle.transpose x 1 2 = .ok y →
      candle.Both [batch] n m [heads, d] (candle.transpose a 1 2) (candle.transpose b 1 2) y
  narrow : ∀ {x start n m y}, 0 < n ∧ 0 < m → candle.narrow x 0 start (n + m) = .ok y →
    ∃ post, candle.Both [] n m post (candle.narrow x 0 start n) (candle.narrow x 0 (start + n) m) y
  ropeI : ∀ {batch heads n m d post post' a b x ca cb cos sa sb sin y},
    candle.Stacked [batch, heads] n m [d] a b x → candle.Stacked [] n m post ca cb cos →
    candle.Stacked [] n m post' sa sb sin → candle.ropeI x cos sin = .ok y →
      candle.Both [batch, heads] n m [d] (candle.ropeI a ca sa) (candle.ropeI b cb sb) y
  repeatKv : ∀ {batch heads n m d a b x times y}, candle.Stacked [batch, heads] n m [d] a b x →
    candle.repeatKv x times = .ok y →
      ∃ heads', candle.Both [batch, heads'] n m [d] (candle.repeatKv a times)
        (candle.repeatKv b times) y
  t : ∀ {batch heads n m d a b x y}, candle.Stacked [batch, heads] n m [d] a b x →
    candle.t x = .ok y → candle.Both [batch, heads, d] n m [] (candle.t a) (candle.t b) y
  matmul_rows : ∀ {batch heads n m d a b x z pre e y}, candle.Stacked [batch, heads] n m [d] a b x →
    candle.dims z = pre ++ [e] → candle.matmul x z = .ok y →
      candle.Both [batch, heads] n m [e] (candle.matmul a z) (candle.matmul b z) y
  matmul_columns : ∀ {batch heads rows d x pre n m a b z y},
    candle.dims x = [batch, heads, rows, d] → candle.Stacked pre n m [] a b z →
    candle.matmul x z = .ok y →
      candle.Both [batch, heads, rows] n m [] (candle.matmul x a) (candle.matmul x b) y
  softmaxLastDim : ∀ {batch heads n m d a b x y}, candle.Stacked [batch, heads] n m [d] a b x →
    candle.softmaxLastDim x = .ok y →
      candle.Both [batch, heads] n m [d] (candle.softmaxLastDim a) (candle.softmaxLastDim b) y
  row : ∀ {batch n d a b x y}, candle.Stacked [batch] n 1 [d] a b x → candle.row x n = .ok y →
    candle.row b 0 = .ok y
  /-- A mask is given row by row. -/
  fromSlice : ∀ {front back n m d x}, 0 < n ∧ 0 < m →
    front.length = n * d → back.length = m * d →
    candle.fromSlice (front ++ back) [n + m, d] = .ok x →
      candle.Both [] n m [d] (candle.fromSlice front [n, d]) (candle.fromSlice back [m, d]) x
  broadcastAs : ∀ {batch heads pre n m post a b x y}, candle.Stacked pre n m post a b x →
    candle.broadcastAs x (batch :: heads :: pre ++ (n + m) :: post) = .ok y →
      candle.Both (batch :: heads :: pre) n m post
        (candle.broadcastAs a (batch :: heads :: pre ++ n :: post))
        (candle.broadcastAs b (batch :: heads :: pre ++ m :: post)) y
  broadcastAs_scalar : ∀ {v x pre n m post y}, 0 < n ∧ 0 < m → candle.newScalar v = .ok x →
    candle.broadcastAs x (pre ++ (n + m) :: post) = .ok y →
      candle.Both pre n m post (candle.broadcastAs x (pre ++ n :: post))
        (candle.broadcastAs x (pre ++ m :: post)) y
  whereCond : ∀ {pre n m post a b x a' b' x' a'' b'' x'' y}, candle.Stacked pre n m post a b x →
    candle.Stacked pre n m post a' b' x' → candle.Stacked pre n m post a'' b'' x'' →
    candle.whereCond x x' x'' = .ok y →
      candle.Both pre n m post (candle.whereCond a a' a'') (candle.whereCond b b' b'') y
  whereCond_const : ∀ {count bit dims dims' constant mask x y z},
    candle.fromSlice (List.replicate count bit) dims = .ok constant →
    candle.broadcastAs constant dims' = .ok mask → candle.whereCond mask x y = .ok z →
      z = if bit = 0 then y else x
  /-- A mask with more columns. -/
  fromSlice_columns : ∀ {count n m mask} {rows : List (List UInt8)}, 0 < n ∧ 0 < m →
    rows.length = count → (∀ row ∈ rows, row.length = n) →
    candle.fromSlice (rows.flatMap (· ++ List.replicate m 1)) [count, n + m] = .ok mask →
      candle.Both [count] n m [] (candle.fromSlice rows.flatten [count, n])
        (candle.fromSlice (List.replicate (count * m) 1) [count, m]) mask
  /-- Scores of `-∞` weigh nothing, if each row has another score: they do not count for the
  weighted sums. -/
  softmax_masked : ∀ {batch heads heads' count d n m} {rows : List (List UInt8)}
      {mask cond negInf infs infs' a masked x weights va vb v y},
    rows.length = count → (∀ row ∈ rows, row.length = n ∧ 0 ∈ row) →
    candle.fromSlice rows.flatten [count, n] = .ok mask →
    candle.broadcastAs mask [batch, heads, count, n] = .ok cond →
    candle.newScalar (Float32.ofBits 0xff800000) = .ok negInf →
    candle.broadcastAs negInf [batch, heads, count, n] = .ok infs →
    candle.broadcastAs negInf [batch, heads, count, m] = .ok infs' →
    candle.whereCond cond infs a = .ok masked →
    candle.Stacked [batch, heads, count] n m [] masked infs' x →
    candle.Stacked [batch, heads'] n m [d] va vb v →
    candle.softmaxLastDim x = .ok weights → candle.matmul weights v = .ok y →
      (candle.softmaxLastDim masked >>= fun weights => candle.matmul weights va) = .ok y

end NeuralSwarm
