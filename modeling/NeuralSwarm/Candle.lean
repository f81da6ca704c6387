import Mathlib.Algebra.Order.Ring.Nat
import Mathlib.Algebra.BigOperators.Group.List.Basic
import NeuralSwarm.Basic.Except

/-!
# Tensors

`Candle T Q` collects the functions of the candle crates that the model and the backend call, for
tensors `T` and the quantized tensors `Q` of a GGUF file.  A tensor is a value: its shape, its type
and its elements.  `Candle.shapes` is an instance to compute with, for models whose weights are all
zero: their hidden states and logits are zero whatever is attended to, so that shapes alone are
computed, and checked as the crates check them.
-/

namespace NeuralSwarm

/-- What `forward` of a loaded module computes. -/
abbrev ForwardFn (T : Type) := T → Except String T

/-- The functions of `candle_core`, `candle_nn` and `candle_transformers`. -/
structure Candle (T Q : Type) where
  dims : T → List ℕ
  isMetal : T → Bool
  /-- `Tensor::new` of a scalar, a slice of `u32` and a slice of `f32`. -/
  newScalar : Float32 → Except String T
  newU32 : List ℕ → Except String T
  newF32 : List Float32 → Except String T
  /-- `Tensor::from_vec` and `Tensor::from_slice`, the latter on bytes. -/
  fromVec : List Float32 → List ℕ → Except String T
  fromSlice : List UInt8 → List ℕ → Except String T
  arange : ℕ → ℕ → Except String T
  zerosLike : T → Except String T
  toDtypeF32 : T → Except String T
  flattenAll : T → Except String T
  toVec1 : T → Except String (List Float32)
  toVec2 : T → Except String (List (List Float32))
  unsqueeze : T → ℕ → Except String T
  reshape : T → List ℕ → Except String T
  transpose : T → ℕ → ℕ → Except String T
  /-- `t`, the transpose of the last two dimensions. -/
  t : T → Except String T
  contiguous : T → Except String T
  narrow : T → (dim start len : ℕ) → Except String T
  /-- `i((.., row, ..))`. -/
  row : T → ℕ → Except String T
  cat : List T → ℕ → Except String T
  broadcastAs : T → List ℕ → Except String T
  whereCond : (mask onTrue onFalse : T) → Except String T
  add : T → T → Except String T
  mul : T → T → Except String T
  broadcastAdd : T → T → Except String T
  broadcastMul : T → T → Except String T
  divScalar : T → Float → Except String T
  matmul : T → T → Except String T
  cos : T → Except String T
  sin : T → Except String T
  silu : T → Except String T
  softmaxLastDim : T → Except String T
  indexSelect : T → (indexes : T) → ℕ → Except String T
  indexAdd : T → (indexes source : T) → ℕ → Except String T
  ropeI : (x cos sin : T) → Except String T
  sdpa : (q k v : T) → (scale softcapping : Float32) → Except String T
  repeatKv : T → ℕ → Except String T
  dequantize : Q → Except String T
  /-- `QMatMul::from_qtensor`. -/
  qMatMul : Q → Except String (ForwardFn T)
  /-- `RmsNorm::from_qtensor`. -/
  rmsNorm : Q → Float → Except String (ForwardFn T)
  /-- `Embedding::new`. -/
  embedding : T → ℕ → ForwardFn T

namespace Candle

variable {T Q : Type} (candle : Candle T Q)

def dims2 (x : T) : Except String (ℕ × ℕ) :=
  match candle.dims x with
  | [d1, d2] => .ok (d1, d2)
  | _ => .error "unexpected rank, expected: 2"

def dims3 (x : T) : Except String (ℕ × ℕ × ℕ) :=
  match candle.dims x with
  | [d1, d2, d3] => .ok (d1, d2, d3)
  | _ => .error "unexpected rank, expected: 3"

def dims4 (x : T) : Except String (ℕ × ℕ × ℕ × ℕ) :=
  match candle.dims x with
  | [d1, d2, d3, d4] => .ok (d1, d2, d3, d4)
  | _ => .error "unexpected rank, expected: 4"

/-- A tensor of three dimensions over `f32`, which its elements determine: `from_vec` of what
`to_vec1` returns is the tensor again.  Dimensions and lengths are `usize`. -/
def IsHidden (x : T) : Prop :=
  ∃ d1 d2 d3 flat data, candle.dims3 x = .ok (d1, d2, d3) ∧ candle.flattenAll x = .ok flat ∧
    candle.toVec1 flat = .ok data ∧ candle.fromVec data [d1, d2, d3] = .ok x ∧
    d1 < 2 ^ 64 ∧ d2 < 2 ^ 64 ∧ d3 < 2 ^ 64 ∧ data.length < 2 ^ 64

/-- What the crates document of the operations that hidden states come from. -/
structure Lawful : Prop where
  dims_tokens : ∀ tokens x y, candle.newU32 tokens = .ok x → candle.unsqueeze x 0 = .ok y →
    candle.dims2 y = .ok (1, tokens.length)
  isHidden_embedding : ∀ q w hiddenSize x y d1 d2, candle.dequantize q = .ok w →
    candle.dims2 x = .ok (d1, d2) → candle.embedding w hiddenSize x = .ok y → candle.IsHidden y
  isHidden_add : ∀ x y z, candle.add x y = .ok z → candle.IsHidden y → candle.IsHidden z

end Candle

/-! ## Shapes -/

/-- A shape whose sizes are `usize`. -/
structure Shape where
  dims : List ℕ
  dims_lt : ∀ d ∈ dims, d < 2 ^ 64

namespace Shape

/-- `elem_count`: a product of `usize`, which wraps in a release build. -/
def elemCount (dims : List ℕ) : ℕ := dims.prod % 2 ^ 64

def ofDims (dims : List ℕ) : Except String Shape :=
  if h : ∀ d ∈ dims, d < 2 ^ 64 then .ok ⟨dims, h⟩ else .error "shape overflow"

theorem dims_of_ofDims {dims : List ℕ} {x : Shape} (h : ofDims dims = .ok x) : x.dims = dims := by
  unfold ofDims at h
  split at h <;> cases h
  rfl

theorem ofDims_dims (x : Shape) : ofDims x.dims = .ok x := dif_pos x.dims_lt

/-- Whether a shape stretches to another: aligned at the end, each size is the same or one. -/
def stretches (dims target : List ℕ) : Bool :=
  dims.length ≤ target.length &&
    (dims.reverse.zip target.reverse).all fun (d, e) => d == e || d == 1

/-- The size of a dimension replaced. -/
def withDim (x : Shape) (dim size : ℕ) : Except String Shape :=
  if dim < x.dims.length then ofDims (x.dims.set dim size) else .error "dim out of range"

/-- Two shapes that have to be the same. -/
def same (x y : Shape) : Except String Shape :=
  if x.dims = y.dims then .ok y else .error "shape mismatch"

def transpose (x : Shape) (i j : ℕ) : Except String Shape :=
  match x.dims[i]?, x.dims[j]? with
  | some d, some e => ofDims ((x.dims.set i e).set j d)
  | _, _ => .error "dim out of range"

def matmul (x y : Shape) : Except String Shape :=
  match x.dims.reverse, y.dims.reverse with
  | k :: m :: batch, n :: k' :: batch' =>
    if k = k' ∧ batch = batch' then ofDims (batch.reverse ++ [m, n]) else .error "shape mismatch"
  | _, _ => .error "unexpected rank"

def cat (xs : List Shape) (dim : ℕ) : Except String Shape :=
  match xs with
  | [] => .error "cat of no tensors"
  | x :: rest =>
    if rest.all fun y => y.dims.set dim 0 == x.dims.set dim 0 then
      x.withDim dim ((xs.map (·.dims.getD dim 0)).sum)
    else .error "shape mismatch"

/-- `forward` of a matrix with the given size: the last dimension is replaced. -/
def linear (w x : Shape) : Except String Shape :=
  match w.dims with
  | [n, k] =>
    if x.dims.getLast? = some k then ofDims (x.dims.dropLast ++ [n]) else .error "shape mismatch"
  | _ => .error "unexpected rank, expected: 2"

end Shape

namespace Candle

open Shape

/-- Tensors of zeros, of which the shape is computed. -/
def shapes : Candle Shape Shape where
  dims x := x.dims
  isMetal _ := false
  newScalar _ := ofDims []
  newU32 xs := ofDims [xs.length]
  newF32 xs := ofDims [xs.length]
  fromVec xs dims := if xs.length = elemCount dims then ofDims dims else .error "shape mismatch"
  fromSlice xs dims := if xs.length = elemCount dims then ofDims dims else .error "shape mismatch"
  arange start stop := ofDims [stop - start]
  zerosLike x := .ok x
  toDtypeF32 x := .ok x
  flattenAll x := ofDims [elemCount x.dims]
  toVec1 x :=
    match x.dims with
    | [n] => .ok (List.replicate n 0)
    | _ => .error "unexpected rank, expected: 1"
  toVec2 x :=
    match x.dims with
    | [m, n] => .ok (List.replicate m (List.replicate n 0))
    | _ => .error "unexpected rank, expected: 2"
  unsqueeze x dim :=
    if dim ≤ x.dims.length then ofDims (x.dims.insertIdx dim 1) else .error "dim out of range"
  reshape x dims :=
    if elemCount x.dims = elemCount dims then ofDims dims else .error "shape mismatch"
  transpose := Shape.transpose
  t x := x.transpose (x.dims.length - 2) (x.dims.length - 1)
  contiguous x := .ok x
  narrow x dim start len :=
    if start + len ≤ x.dims.getD dim 0 then x.withDim dim len else .error "narrow invalid args"
  row x i :=
    match x.dims with
    | [m, n, k] => if i < n then ofDims [m, k] else .error "narrow invalid args"
    | _ => .error "unexpected rank, expected: 3"
  cat := Shape.cat
  broadcastAs x dims := if stretches x.dims dims then ofDims dims else .error "cannot broadcast"
  whereCond mask onTrue onFalse := mask.same onTrue >>= (·.same onFalse)
  add := same
  mul := same
  broadcastAdd x y := if stretches y.dims x.dims then .ok x else .error "cannot broadcast"
  broadcastMul x y := if stretches y.dims x.dims then .ok x else .error "cannot broadcast"
  divScalar x _ := .ok x
  matmul := Shape.matmul
  cos x := .ok x
  sin x := .ok x
  silu x := .ok x
  softmaxLastDim x := .ok x
  indexSelect x indexes dim := x.withDim dim indexes.dims.prod
  indexAdd x _ _ _ := .ok x
  ropeI x cos sin :=
    -- a panic of the kernel, which cuts the elements into chunks
    if (x.dims.drop 2).prod = 0 then .error "chunk_size must not be zero"
    else cos.same sin >>= fun _ => .ok x
  sdpa q _ v _ _ := q.withDim 3 (v.dims.getD 3 0)
  repeatKv x n := x.withDim 1 (x.dims.getD 1 0 * n)
  dequantize q := .ok q
  qMatMul q := .ok q.linear
  rmsNorm q _ := .ok fun x => if stretches q.dims x.dims then .ok x else .error "shape mismatch"
  embedding _ hiddenSize x := ofDims (x.dims ++ [hiddenSize])

theorem isHidden_shapes {x : Shape} {d1 d2 d3 : ℕ} (h : x.dims = [d1, d2, d3]) :
    shapes.IsHidden x := by
  have hlt := x.dims_lt
  have hof := ofDims_dims x
  rw [h] at hlt hof
  simp only [List.forall_mem_cons] at hlt
  have hcount : elemCount [d1, d2, d3] < 2 ^ 64 := Nat.mod_lt _ (by decide)
  have hflat : ∀ d ∈ [elemCount [d1, d2, d3]], d < 2 ^ 64 := List.forall_mem_singleton.2 hcount
  refine ⟨d1, d2, d3, ⟨[elemCount [d1, d2, d3]], hflat⟩,
    List.replicate (elemCount [d1, d2, d3]) 0, ?_, ?_, rfl, ?_, hlt.1, hlt.2.1, hlt.2.2.1, ?_⟩
  · simp only [dims3, shapes, h]
  · simp only [shapes, h]
    exact dif_pos hflat
  · simp only [shapes, List.length_replicate, if_true, hof]
  · rwa [List.length_replicate]

theorem shapes_lawful : shapes.Lawful where
  dims_tokens tokens x y hx hy := by
    have hx : x.dims = [tokens.length] := dims_of_ofDims hx
    have hy : y.dims = x.dims.insertIdx 0 1 := dims_of_ofDims hy
    rw [hx] at hy
    simp only [dims2, shapes, hy, List.insertIdx_zero]
  isHidden_embedding q w hiddenSize x y d1 d2 _ hx hy := by
    have hy : y.dims = x.dims ++ [hiddenSize] := dims_of_ofDims hy
    have hx : x.dims = [d1, d2] := by
      unfold dims2 at hx
      split at hx <;> cases hx
      assumption
    rw [hx] at hy
    exact isHidden_shapes hy
  isHidden_add x y z hz hy := by
    have hz : y = z := by
      change same x y = .ok z at hz
      unfold same at hz
      split at hz <;> cases hz
      rfl
    rwa [← hz]

end Candle

end NeuralSwarm
