import Mathlib.Algebra.Order.Ring.Int
import NeuralSwarm.Basic.Cursor
import NeuralSwarm.Basic.Except
import NeuralSwarm.Basic.Machine
import NeuralSwarm.Crypto

/-!
# Remote files

A reader of a remote file over range requests.  It keeps the bytes of the last reply as a window
that is taken to start where the request did.  Arithmetic is that of `u64` and `i64` in a release
build.
-/

namespace NeuralSwarm

/-- `u64` arithmetic. -/
def wrapU64 (n : ℕ) : ℕ := n % 2 ^ 64

/-- `i64` arithmetic, and `as i64`. -/
def asI64 (n : ℤ) : ℤ := (n + 2 ^ 63) % 2 ^ 64 - 2 ^ 63

/-- What a server sends; reading the body may fail. -/
structure HttpReply where
  status : ℕ
  body : Except String Bytes

/-- What becomes of a request for the bytes from `first` to `last`. -/
abbrev FileServer := (first last : ℕ) → Except String HttpReply

structure HttpRangeReader where
  url : String
  pos : ℕ
  len : ℕ
  buf : Bytes
  bufStart : ℕ
  /-- How many bytes have been transferred, for diagnostics. -/
  fetchedBytes : ℕ
  deriving DecidableEq

namespace HttpRangeReader

/-- Small reads are fetched in windows of this size, large ones as they are. -/
def smallReadahead : ℕ := 256 * 1024

/-- Opens a remote file; `head` is what the `HEAD` request returns for the header
`Content-Length`. -/
def new (url : String) (head : Except String (Option ℕ)) : Except String HttpRangeReader :=
  match head with
  | .error e => .error e
  | .ok none => .error "remote model: missing/!invalid Content-Length"
  | .ok (some len) => .ok { url, pos := 0, len, buf := [], bufStart := 0, fetchedBytes := 0 }

/-- A range request and its body.  A status from `400` on is an error; no other is looked at. -/
def getRange (r : HttpRangeReader) (server : FileServer) (first last : ℕ) : Except String Bytes :=
  match server first last with
  | .error e => .error e
  | .ok resp =>
    if 400 ≤ resp.status then .error (r.url ++ ": status code " ++ toString resp.status)
    else resp.body

/-- Fetches at least `want` bytes from `start` on into the window, as far as the file goes. -/
def fetch (r : HttpRangeReader) (server : FileServer) (start want : ℕ) :
    HttpRangeReader × Except String Unit :=
  let span := max want (min smallReadahead (r.len - start))
  let stop := min (wrapU64 (start + span)) r.len
  if stop ≤ start then ({ r with buf := [], bufStart := start }, .ok ())
  else
    match r.getRange server start (stop - 1) with
    | .error e => (r, .error e)
    | .ok data =>
      ({ r with
          buf := data
          bufStart := start
          fetchedBytes := wrapU64 (r.fetchedBytes + data.length) }, .ok ())

def prefetch (r : HttpRangeReader) (server : FileServer) (start len : ℕ) :
    HttpRangeReader × Except String Unit :=
  r.fetch server start len

/-- The window overlaps the position. -/
def InBuf (r : HttpRangeReader) : Prop :=
  r.bufStart ≤ r.pos ∧ r.pos < wrapU64 (r.bufStart + r.buf.length)

instance (r : HttpRangeReader) : Decidable r.InBuf := inferInstanceAs (Decidable (_ ∧ _))

/-- Copies bytes from the window to the front of `out`. -/
def deliver (r : HttpRangeReader) (out : Bytes) : HttpRangeReader × Bytes × Except String ℕ :=
  -- the window starts at or before the position
  let offset := r.pos - r.bufStart
  if r.buf.length ≤ offset then (r, out, .ok 0)
  else
    let avail := r.buf.drop offset
    let n := min avail.length out.length
    ({ r with pos := wrapU64 (r.pos + n) }, avail.take n ++ out.drop n, .ok n)

/-- `read` into a buffer that holds `out`: the reader, the buffer and the number of bytes. -/
def read (r : HttpRangeReader) (server : FileServer) (out : Bytes) :
    HttpRangeReader × Bytes × Except String ℕ :=
  if r.len ≤ r.pos ∨ out = [] then (r, out, .ok 0)
  else if r.InBuf then r.deliver out
  else
    match r.fetch server r.pos out.length with
    | (r, .error e) => (r, out, .error e)
    | (r, .ok ()) => r.deliver out

/-- The position that a seek asks for, as `i64`. -/
def newPos (r : HttpRangeReader) : SeekFrom → ℤ
  | .start s => asI64 s
  | .fromEnd e => asI64 (asI64 r.len + e)
  | .current c => asI64 (asI64 r.pos + c)

def seek (r : HttpRangeReader) (pos : SeekFrom) : HttpRangeReader × Except String ℕ :=
  let new := r.newPos pos
  if new < 0 then (r, .error "seek before start")
  else ({ r with pos := new.toNat }, .ok new.toNat)

/-! ## Calls -/

/-- A call, with what the server does about the request that it may cause. -/
inductive Call
  | read (server : FileServer) (out : Bytes)
  | seek (pos : SeekFrom)
  | prefetch (server : FileServer) (start len : ℕ)

/-- What a call returns: `read` returns its buffer, too. -/
inductive Answer
  | read (out : Bytes) (result : Except String ℕ)
  | seek (result : Except String ℕ)
  | prefetch (result : Except String Unit)

def machine : Mealy HttpRangeReader Call Answer where
  step r
    | .read server out =>
      let (r, out, result) := r.read server out
      (r, .read out result)
    | .seek pos => (r.seek pos).map id .seek
    | .prefetch server start len => (r.prefetch server start len).map id .prefetch

/-! ## What a call can do -/

variable {r r' : HttpRangeReader} {server : FileServer} {start want : ℕ}

/-- Where a fetch ends. -/
def fetchEnd (r : HttpRangeReader) (start want : ℕ) : ℕ :=
  min (wrapU64 (start + max want (min smallReadahead (r.len - start)))) r.len

theorem fetch_of_le (h : r.fetchEnd start want ≤ start) :
    r.fetch server start want = ({ r with buf := [], bufStart := start }, .ok ()) := if_pos h

theorem fetch_of_error {e : String} (h : start < r.fetchEnd start want)
    (hget : r.getRange server start (r.fetchEnd start want - 1) = .error e) :
    r.fetch server start want = (r, .error e) := by
  have hnot : ¬ r.fetchEnd start want ≤ start := Nat.not_le.2 h
  simp only [fetchEnd] at hnot hget
  simp only [fetch, if_neg hnot, hget]

theorem fetch_of_ok {data : Bytes} (h : start < r.fetchEnd start want)
    (hget : r.getRange server start (r.fetchEnd start want - 1) = .ok data) :
    r.fetch server start want =
      ({ r with
          buf := data
          bufStart := start
          fetchedBytes := wrapU64 (r.fetchedBytes + data.length) }, .ok ()) := by
  have hnot : ¬ r.fetchEnd start want ≤ start := Nat.not_le.2 h
  simp only [fetchEnd] at hnot hget
  simp only [fetch, if_neg hnot, hget]

/-- Without an overflow, a fetch from inside the file asks for something. -/
theorem lt_fetchEnd (hstart : start < r.len) (hwant : 0 < want)
    (hrange : start + max want smallReadahead < 2 ^ 64) : start < r.fetchEnd start want := by
  unfold fetchEnd wrapU64
  rw [Nat.mod_eq_of_lt (by omega)]
  omega

end HttpRangeReader

end NeuralSwarm
