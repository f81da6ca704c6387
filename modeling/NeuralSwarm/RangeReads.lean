import NeuralSwarm.Remote

/-!
# Reading over a server that keeps to the ranges

As long as a server answers a range request with exactly the bytes it was asked for, or not at all,
the window of the reader is a part of the file, and the reader is a plain reader of the file: one
that may deliver fewer bytes than there are, and that may fail without any effect.
-/

namespace NeuralSwarm.HttpRangeReader

variable {file : Bytes} {r r' : HttpRangeReader} {server : FileServer}

/-- Whatever the server sends for some bytes of the file is exactly these bytes. -/
def Serves (file : Bytes) (server : FileServer) : Prop :=
  ∀ first last reply body, first ≤ last → last < file.length → server first last = .ok reply →
    reply.status < 400 → reply.body = .ok body → body = (file.drop first).take (last + 1 - first)

/-- The window is a part of the file. -/
structure Mirrors (file : Bytes) (r : HttpRangeReader) : Prop where
  len : r.len = file.length
  pos_lt : r.pos < 2 ^ 63
  window : r.buf <+: file.drop r.bufStart

/-- The server keeps to the ranges, and seeks stay within `i64`. -/
def InRange (file : Bytes) (r : HttpRangeReader) : Call → Prop
  | .read server out => Serves file server ∧ out.length < 2 ^ 63
  | .seek (.start s) => s < 2 ^ 63
  | .seek (.fromEnd e) => -2 ^ 63 ≤ e ∧ (file.length : ℤ) + e < 2 ^ 63
  | .seek (.current c) => -2 ^ 63 ≤ c ∧ (r.pos : ℤ) + c < 2 ^ 63
  | .prefetch server _ _ => Serves file server

/-- What a plain reader of the file does: it delivers bytes from its position on, moves where a seek
says, or fails and stays as it is. -/
inductive PlainStep (file : Bytes) (r : HttpRangeReader) :
    Call → HttpRangeReader → Answer → Prop
  | read {server : FileServer} {out out' : Bytes} {n : ℕ} {r' : HttpRangeReader}
    (delivers : Delivers file r.pos out out' n) (pos : r'.pos = r.pos + n) :
    PlainStep file r (.read server out) r' (.read out' (.ok n))
  | readError {server : FileServer} {out : Bytes} {e : String} :
    PlainStep file r (.read server out) r (.read out (.error e))
  | seek {pos : SeekFrom} {target : ℕ} (htarget : pos.target file.length r.pos = some target) :
    PlainStep file r (.seek pos) { r with pos := target } (.seek (.ok target))
  | seekError {pos : SeekFrom} {e : String} (htarget : pos.target file.length r.pos = none) :
    PlainStep file r (.seek pos) r (.seek (.error e))
  | prefetch {server : FileServer} {start len : ℕ} {r' : HttpRangeReader} (pos : r'.pos = r.pos) :
    PlainStep file r (.prefetch server start len) r' (.prefetch (.ok ()))
  | prefetchError {server : FileServer} {start len : ℕ} {e : String} :
    PlainStep file r (.prefetch server start len) r (.prefetch (.error e))

/-! ## Fetching -/

theorem getRange_eq_ok {first last : ℕ} {data : Bytes} (serves : Serves file server)
    (hle : first ≤ last) (hlt : last < file.length)
    (h : r.getRange server first last = .ok data) :
    data = (file.drop first).take (last + 1 - first) := by
  unfold getRange at h
  cases hreply : server first last with
  | error e =>
    rw [hreply] at h
    cases h
  | ok reply =>
    simp only [hreply] at h
    by_cases hstatus : 400 ≤ reply.status
    · rw [if_pos hstatus] at h
      cases h
    · rw [if_neg hstatus] at h
      exact serves first last reply data hle hlt hreply (Nat.lt_of_not_le hstatus) h

/-- A fetch fails without an effect, or leaves a part of the file as the window. -/
theorem Mirrors.fetch_cases (mirrors : Mirrors file r) (serves : Serves file server)
    (start want : ℕ) :
    (∃ e, r.fetch server start want = (r, .error e)) ∨
    ∃ r', r.fetch server start want = (r', .ok ()) ∧ r'.pos = r.pos ∧ r'.len = r.len ∧
      r'.bufStart = start ∧ r'.buf = (file.drop start).take (r.fetchEnd start want - start) := by
  rcases Nat.lt_or_ge start (r.fetchEnd start want) with hlt | hle
  · have hend : r.fetchEnd start want ≤ file.length :=
      (Nat.min_le_right _ _).trans_eq mirrors.len
    cases hget : r.getRange server start (r.fetchEnd start want - 1) with
    | error e => exact .inl ⟨e, fetch_of_error hlt hget⟩
    | ok data =>
      refine .inr ⟨_, fetch_of_ok hlt hget, rfl, rfl, rfl, ?_⟩
      have hdata := getRange_eq_ok serves (by omega) (by omega) hget
      rwa [Nat.sub_add_cancel (by omega)] at hdata
  · refine .inr ⟨_, fetch_of_le hle, rfl, rfl, rfl, ?_⟩
    rw [Nat.sub_eq_zero_of_le hle, List.take_zero]

/-! ## Steps -/

/-- A position that the window overlaps is read from it. -/
theorem deliver_of_window {out : Bytes} (hwindow : r.buf <+: file.drop r.bufStart)
    (hfile : file.length < 2 ^ 64) (hstart : r.bufStart ≤ r.pos)
    (hpos : r.pos - r.bufStart < r.buf.length) (hout : out ≠ []) :
    ∃ out' n, r.deliver out = ({ r with pos := r.pos + n }, out', .ok n) ∧
      r.pos + n ≤ file.length ∧ Delivers file r.pos out out' n := by
  obtain ⟨n, hn⟩ : ∃ n, n = min (r.buf.drop (r.pos - r.bufStart)).length out.length := ⟨_, rfl⟩
  have delivers := delivers_of_window hwindow hstart hpos hout hn
  have havailable := delivers.available
  have hlen := hwindow.length_le
  rw [List.length_drop] at hlen
  have hend : r.pos + n ≤ file.length := by omega
  have hwrap : wrapU64 (r.pos + n) = r.pos + n := Nat.mod_eq_of_lt (by omega)
  refine ⟨_, n, ?_, hend, delivers⟩
  simp only [deliver, if_neg (Nat.not_le.2 hpos), ← hn, hwrap]

theorem Mirrors.read {out : Bytes} (mirrors : Mirrors file r) (hfile : file.length < 2 ^ 63)
    (serves : Serves file server) (hout : out.length < 2 ^ 63) :
    Mirrors file (machine.step r (.read server out)).1 ∧
      PlainStep file r (.read server out) (machine.step r (.read server out)).1
        (machine.step r (.read server out)).2 := by
  have hpos := mirrors.pos_lt
  have hlen := mirrors.len
  simp only [machine, HttpRangeReader.read]
  by_cases hend : r.len ≤ r.pos ∨ out = []
  · rw [if_pos hend]
    rw [hlen] at hend
    exact ⟨mirrors, .read (delivers_zero hend) rfl⟩
  · rw [if_neg hend]
    obtain ⟨hinside, hne⟩ := not_or.1 hend
    by_cases hbuf : r.InBuf
    · rw [if_pos hbuf]
      have hoverlaps : r.pos - r.bufStart < r.buf.length := by
        have hbefore := hbuf.1
        have hwrapped : r.pos < (r.bufStart + r.buf.length) % 2 ^ 64 := hbuf.2
        have hle := Nat.mod_le (r.bufStart + r.buf.length) (2 ^ 64)
        omega
      obtain ⟨out', n, hdeliver, hmoved, delivers⟩ :=
        deliver_of_window mirrors.window (by omega) hbuf.1 hoverlaps hne
      rw [hdeliver]
      exact ⟨⟨hlen, by dsimp only; omega, mirrors.window⟩, .read delivers rfl⟩
    · rw [if_neg hbuf]
      rcases mirrors.fetch_cases serves r.pos out.length with
        ⟨e, hfetch⟩ | ⟨r1, hfetch, hpos1, hlen1, hstart1, hbuf1⟩
      · rw [hfetch]
        exact ⟨mirrors, .readError⟩
      · rw [hfetch]
        have mirrors1 : Mirrors file r1 :=
          ⟨hlen1.trans hlen, by omega, by rw [hstart1, hbuf1]; exact List.take_prefix _ _⟩
        have hpositive : 0 < out.length := List.length_pos_iff.2 hne
        have hlt : r.pos < r.fetchEnd r.pos out.length := by
          refine lt_fetchEnd (by omega) hpositive ?_
          unfold smallReadahead
          omega
        have hoverlaps : r1.pos - r1.bufStart < r1.buf.length := by
          rw [hpos1, hstart1, hbuf1, List.length_take, List.length_drop]
          omega
        obtain ⟨out', n, hdeliver, hmoved, delivers⟩ :=
          deliver_of_window mirrors1.window (by omega) (by omega) hoverlaps hne
        simp only [hdeliver]
        rw [hpos1] at delivers
        exact ⟨⟨mirrors1.len, by dsimp only; omega, mirrors1.window⟩,
          .read delivers (by dsimp only; omega)⟩

theorem Mirrors.prefetch (mirrors : Mirrors file r) (serves : Serves file server)
    (start len : ℕ) :
    Mirrors file (machine.step r (.prefetch server start len)).1 ∧
      PlainStep file r (.prefetch server start len) (machine.step r (.prefetch server start len)).1
        (machine.step r (.prefetch server start len)).2 := by
  simp only [machine, HttpRangeReader.prefetch]
  rcases mirrors.fetch_cases serves start len with
    ⟨e, hfetch⟩ | ⟨r1, hfetch, hpos1, hlen1, hstart1, hbuf1⟩
  · rw [hfetch]
    exact ⟨mirrors, .prefetchError⟩
  · rw [hfetch]
    have hpos := mirrors.pos_lt
    have hlen := mirrors.len
    have mirrors1 : Mirrors file r1 :=
      ⟨hlen1.trans hlen, by omega, by rw [hstart1, hbuf1]; exact List.take_prefix _ _⟩
    exact ⟨mirrors1, .prefetch hpos1⟩

theorem asI64_eq {n : ℤ} (hlow : -2 ^ 63 ≤ n) (hhigh : n < 2 ^ 63) : asI64 n = n := by
  unfold asI64
  omega

/-- Within the range of `i64`, a seek goes where it says. -/
theorem seek_eq (hpos : r.pos < 2 ^ 63) (hlen : r.len = file.length)
    (hfile : file.length < 2 ^ 63) {pos : SeekFrom} (inRange : InRange file r (.seek pos)) :
    r.seek pos =
      match pos.target file.length r.pos with
      | none => (r, .error "seek before start")
      | some target => ({ r with pos := target }, .ok target) := by
  cases pos with
  | start s =>
    have hs : s < 2 ^ 63 := inRange
    have hnew : r.newPos (.start s) = s := asI64_eq (by omega) (by omega)
    have hnot : ¬ (s : ℤ) < 0 := by omega
    simp only [HttpRangeReader.seek, hnew, if_neg hnot, Int.toNat_natCast, SeekFrom.target]
  | fromEnd e =>
    obtain ⟨hlow, hhigh⟩ : -2 ^ 63 ≤ e ∧ (file.length : ℤ) + e < 2 ^ 63 := inRange
    have hnew : r.newPos (.fromEnd e) = file.length + e := by
      rw [newPos, hlen, asI64_eq (n := file.length) (by omega) (by omega)]
      exact asI64_eq (by omega) hhigh
    simp only [HttpRangeReader.seek, hnew, SeekFrom.target]
    split <;> rfl
  | current c =>
    obtain ⟨hlow, hhigh⟩ : -2 ^ 63 ≤ c ∧ (r.pos : ℤ) + c < 2 ^ 63 := inRange
    have hnew : r.newPos (.current c) = r.pos + c := by
      rw [newPos, asI64_eq (n := r.pos) (by omega) (by omega)]
      exact asI64_eq (by omega) hhigh
    simp only [HttpRangeReader.seek, hnew, SeekFrom.target]
    split <;> rfl

/-- A seek within the range of `i64` stays there. -/
theorem target_lt {pos : SeekFrom} {target : ℕ} (inRange : InRange file r (.seek pos))
    (htarget : pos.target file.length r.pos = some target) : target < 2 ^ 63 := by
  cases pos with
  | start s =>
    have hs : s < 2 ^ 63 := inRange
    cases htarget
    exact hs
  | fromEnd e =>
    obtain ⟨-, hhigh⟩ : -2 ^ 63 ≤ e ∧ (file.length : ℤ) + e < 2 ^ 63 := inRange
    simp only [SeekFrom.target] at htarget
    split at htarget <;> cases htarget
    omega
  | current c =>
    obtain ⟨-, hhigh⟩ : -2 ^ 63 ≤ c ∧ (r.pos : ℤ) + c < 2 ^ 63 := inRange
    simp only [SeekFrom.target] at htarget
    split at htarget <;> cases htarget
    omega

theorem Mirrors.seek (mirrors : Mirrors file r) (hfile : file.length < 2 ^ 63) {pos : SeekFrom}
    (inRange : InRange file r (.seek pos)) :
    Mirrors file (machine.step r (.seek pos)).1 ∧
      PlainStep file r (.seek pos) (machine.step r (.seek pos)).1
        (machine.step r (.seek pos)).2 := by
  simp only [machine, seek_eq mirrors.pos_lt mirrors.len hfile inRange]
  cases htarget : pos.target file.length r.pos with
  | none => exact ⟨mirrors, .seekError htarget⟩
  | some target =>
    exact ⟨⟨mirrors.len, target_lt inRange htarget, mirrors.window⟩, .seek htarget⟩

/-! ## Runs -/

/-- Every call of a reader whose window is a part of the file is a step of a plain reader. -/
theorem Mirrors.step (mirrors : Mirrors file r) (hfile : file.length < 2 ^ 63) {call : Call}
    (inRange : InRange file r call) :
    Mirrors file (machine.step r call).1 ∧
      PlainStep file r call (machine.step r call).1 (machine.step r call).2 := by
  cases call with
  | read server out => exact mirrors.read hfile inRange.1 inRange.2
  | seek pos => exact mirrors.seek hfile inRange
  | prefetch server start len => exact mirrors.prefetch inRange start len

/-- Over a server that keeps to the ranges, every call in every history of calls is a step of a
plain reader of the file. -/
theorem plainStep_of_run (hfile : file.length < 2 ^ 63) {url : String}
    (hnew : new url (.ok (some file.length)) = .ok r) {calls : List Call}
    (inRange : machine.Guarded (InRange file) r calls) {call : Call}
    (hcall : InRange file (machine.run r calls) call) :
    PlainStep file (machine.run r calls) call (machine.step (machine.run r calls) call).1
      (machine.step (machine.run r calls) call).2 := by
  have mirrors : Mirrors file r := by
    cases hnew
    exact ⟨rfl, Nat.two_pow_pos 63, List.nil_prefix⟩
  have preserved : ∀ r call, Mirrors file r → InRange file r call →
      Mirrors file (machine.step r call).1 := fun _ _ mirrors inRange =>
    (mirrors.step hfile inRange).1
  exact ((machine.invariant preserved mirrors inRange).step hfile hcall).2

/-- A server of a file. -/
def serving (file : Bytes) : FileServer := fun first last =>
  .ok { status := 206, body := .ok ((file.drop first).take (last + 1 - first)) }

theorem serves_serving (file : Bytes) : Serves file (serving file) := by
  rintro first last reply body - - hreply - hbody
  cases hreply
  exact (Except.ok.inj hbody).symm

theorem plainStep_of_run_read :
    let file : Bytes := [1, 2, 3, 4]
    let r : HttpRangeReader := ⟨"http://host/model.gguf", 0, 4, [], 0, 0⟩
    let calls : List Call := [.prefetch (serving file) 3 1, .seek (.fromEnd (-2))]
    PlainStep file (machine.run r calls) (.read (serving file) [0, 0])
      (machine.step (machine.run r calls) (.read (serving file) [0, 0])).1
      (machine.step (machine.run r calls) (.read (serving file) [0, 0])).2 := by
  intro file r calls
  have hnew : new "http://host/model.gguf" (.ok (some file.length)) = .ok r := rfl
  have inRange : machine.Guarded (InRange file) r calls :=
    ⟨serves_serving file, ⟨by decide, by decide⟩, trivial⟩
  have hcall : InRange file (machine.run r calls) (.read (serving file) [0, 0]) :=
    ⟨serves_serving file, by decide⟩
  exact plainStep_of_run (by decide) hnew inRange hcall

end NeuralSwarm.HttpRangeReader
