import NeuralSwarm.RangeReads

/-!
# What is transferred

What a reader costs over a server that keeps to the ranges.  Reads that start in a prefetched span
are answered from the window without another request (`read_after_prefetch`).  A reader that only
reads on transfers no byte twice, and is always less than one small window ahead of its position
(`transferred_once`).
-/

namespace NeuralSwarm.HttpRangeReader

variable {file : Bytes} {r r' : HttpRangeReader} {server : FileServer} {start want : ℕ}

/-! ## A read from the window and a fetch -/

theorem deliver_eq (out : Bytes) (hpos : r.pos - r.bufStart < r.buf.length) :
    r.deliver out =
      let n := min (r.buf.length - (r.pos - r.bufStart)) out.length
      ({ r with pos := wrapU64 (r.pos + n) },
        (r.buf.drop (r.pos - r.bufStart)).take n ++ out.drop n, .ok n) := by
  simp only [deliver, if_neg (Nat.not_le.2 hpos), List.length_drop]

/-- A window inside the file ends before arithmetic wraps. -/
theorem inBuf_iff (hlt : r.bufStart + r.buf.length < 2 ^ 64) :
    r.InBuf ↔ r.bufStart ≤ r.pos ∧ r.pos < r.bufStart + r.buf.length := by
  unfold InBuf wrapU64
  rw [Nat.mod_eq_of_lt hlt]

/-- What a fetch transfers is its window. -/
theorem fetchedBytes_of_fetch (hfetched : r.fetchedBytes < 2 ^ 64)
    (h : r.fetch server start want = (r', .ok ())) :
    r'.fetchedBytes = wrapU64 (r.fetchedBytes + r'.buf.length) := by
  rcases Nat.lt_or_ge start (r.fetchEnd start want) with hlt | hle
  · cases hget : r.getRange server start (r.fetchEnd start want - 1) with
    | error e =>
      rw [fetch_of_error hlt hget] at h
      cases h
    | ok data =>
      rw [fetch_of_ok hlt hget] at h
      cases h
      rfl
  · rw [fetch_of_le hle] at h
    cases h
    exact (Nat.mod_eq_of_lt hfetched).symm

/-! ## Reads from a prefetched span -/

/-- The window holds the file from `start` to `stop`, and `fetched` bytes have been transferred. -/
structure Covers (file : Bytes) (start stop fetched : ℕ) (r : HttpRangeReader) : Prop where
  mirrors : Mirrors file r
  bufStart_le : r.bufStart ≤ start
  le_bufEnd : stop ≤ r.bufStart + r.buf.length
  fetchedBytes : r.fetchedBytes = fetched

/-- A read that starts in the span, over whatever server, or a seek within `i64`. -/
def Inside (file : Bytes) (start stop : ℕ) (r : HttpRangeReader) : Call → Prop
  | .read _ out => start ≤ r.pos ∧ r.pos < stop ∧ out.length < 2 ^ 63
  | .seek pos => InRange file r (.seek pos)
  | .prefetch .. => False

variable {stop fetched : ℕ}

theorem Covers.read (covers : Covers file start stop fetched r) (hfile : file.length < 2 ^ 63)
    {out : Bytes} (inside : Inside file start stop r (.read server out)) :
    ∃ out' n, r.read server out = ({ r with pos := r.pos + n }, out', .ok n) ∧
      r.pos + n < 2 ^ 63 ∧ Delivers file r.pos out out' n := by
  obtain ⟨hstart, hstop, -⟩ := inside
  have hle := covers.bufStart_le
  have hend := covers.le_bufEnd
  have hwindow := covers.mirrors.window.length_le
  rw [List.length_drop] at hwindow
  have hoverlaps : r.pos - r.bufStart < r.buf.length := by omega
  by_cases hout : out = []
  · refine ⟨out, 0, ?_, by omega, delivers_zero (.inr hout)⟩
    exact if_pos (.inr hout)
  · have hbuf : r.InBuf := (inBuf_iff (by omega)).2 ⟨by omega, by omega⟩
    have hlen := covers.mirrors.len
    have hgo : ¬ (r.len ≤ r.pos ∨ out = []) := by
      rintro (h | h)
      · omega
      · exact hout h
    obtain ⟨out', n, hdeliver, hmoved, delivers⟩ :=
      deliver_of_window covers.mirrors.window (by omega) hbuf.1 hoverlaps hout
    refine ⟨out', n, ?_, by omega, delivers⟩
    rw [HttpRangeReader.read, if_neg hgo, if_pos hbuf, hdeliver]

theorem Covers.step (covers : Covers file start stop fetched r) (hfile : file.length < 2 ^ 63)
    {call : Call} (inside : Inside file start stop r call) :
    Covers file start stop fetched (machine.step r call).1 := by
  cases call with
  | read server out =>
    obtain ⟨out', n, hread, hlt, -⟩ := covers.read hfile inside
    simp only [machine, hread]
    exact ⟨⟨covers.mirrors.len, hlt, covers.mirrors.window⟩, covers.bufStart_le, covers.le_bufEnd,
      covers.fetchedBytes⟩
  | seek pos =>
    have mirrors := (covers.mirrors.seek hfile inside).1
    simp only [machine, Prod.map_fst, id,
      seek_eq covers.mirrors.pos_lt covers.mirrors.len hfile inside] at mirrors ⊢
    cases htarget : pos.target file.length r.pos with
    | none => exact covers
    | some target =>
      rw [htarget] at mirrors
      exact ⟨mirrors, covers.bufStart_le, covers.le_bufEnd, covers.fetchedBytes⟩
  | prefetch => exact inside.elim

theorem Mirrors.covers_of_prefetch (mirrors : Mirrors file r) (hfile : file.length < 2 ^ 63)
    (serves : Serves file server) {len : ℕ} (hlen : len < 2 ^ 63)
    (h : r.prefetch server start len = (r', .ok ())) :
    Covers file start (min (start + len) file.length) r'.fetchedBytes r' := by
  have mirrors' : Mirrors file r' := by
    have hstep := (mirrors.prefetch serves start len).1
    simp only [machine, h] at hstep
    exact hstep
  rcases mirrors.fetch_cases serves start len with
    ⟨e, hfetch⟩ | ⟨r1, hfetch, -, -, hstart, hbuf⟩
  · rw [HttpRangeReader.prefetch, hfetch] at h
    cases h
  · rw [HttpRangeReader.prefetch, hfetch] at h
    cases h
    refine ⟨mirrors', hstart.le, ?_, rfl⟩
    have hflen := mirrors.len
    rw [hstart, hbuf, List.length_take, List.length_drop, fetchEnd, wrapU64]
    by_cases hinside : start < file.length
    · have hspan : max len (min smallReadahead (r.len - start)) < 2 ^ 63 := by
        unfold smallReadahead
        omega
      rw [Nat.mod_eq_of_lt (by omega)]
      omega
    · omega

/-- Once a span has been prefetched, the reads that start in it are answered, with the bytes of the
file and without another transfer, even if no server answers any more. -/
theorem read_after_prefetch (hfile : file.length < 2 ^ 63) {url : String}
    (hnew : new url (.ok (some file.length)) = .ok r) {history : List Call}
    (inRange : machine.Guarded (InRange file) r history) (serves : Serves file server) {len : ℕ}
    (hlen : len < 2 ^ 63)
    (hprefetch : (machine.run r history).prefetch server start len = (r', .ok ()))
    {calls : List Call}
    (inside : machine.Guarded (Inside file start (min (start + len) file.length)) r' calls)
    {server' : FileServer} {out : Bytes}
    (hread : Inside file start (min (start + len) file.length) (machine.run r' calls)
      (.read server' out)) :
    let s := machine.run r' calls
    s.fetchedBytes = r'.fetchedBytes ∧
      ∃ out' n, s.read server' out = ({ s with pos := s.pos + n }, out', .ok n) ∧
        Delivers file s.pos out out' n := by
  intro s
  have mirrors : Mirrors file (machine.run r history) := by
    have initial : Mirrors file r := by
      cases hnew
      exact ⟨rfl, Nat.two_pow_pos 63, List.nil_prefix⟩
    exact machine.invariant (fun _ _ mirrors inRange => (mirrors.step hfile inRange).1) initial
      inRange
  have covers : Covers file start (min (start + len) file.length) r'.fetchedBytes s :=
    machine.invariant (fun _ _ covers inside => covers.step hfile inside)
      (mirrors.covers_of_prefetch hfile serves hlen hprefetch) inside
  obtain ⟨out', n, heq, -, delivers⟩ := covers.read hfile hread
  exact ⟨covers.fetchedBytes, out', n, heq, delivers⟩

/-- A server that has gone. -/
def gone : FileServer := fun _ _ => .error "connection refused"

theorem read_after_prefetch_gone :
    let file : Bytes := [1, 2, 3, 4]
    let r : HttpRangeReader := ⟨"http://host/model.gguf", 0, 4, [], 0, 0⟩
    let calls : List Call := [.seek (.start 2), .read gone [0], .seek (.current (-2))]
    let s := machine.run (r.prefetch (serving file) 1 3).1 calls
    s.fetchedBytes = 3 ∧
      ∃ out' n, s.read gone [0, 0] = ({ s with pos := s.pos + n }, out', .ok n) ∧
        Delivers file s.pos [0, 0] out' n := by
  intro file r calls s
  have hnew : new "http://host/model.gguf" (.ok (some file.length)) = .ok r := rfl
  have hprefetch : r.prefetch (serving file) 1 3 = ((r.prefetch (serving file) 1 3).1, .ok ()) :=
    rfl
  have inside : machine.Guarded (Inside file 1 (min (1 + 3) file.length))
      (r.prefetch (serving file) 1 3).1 calls :=
    ⟨(by decide : (2 : ℕ) < 2 ^ 63), ⟨by decide, by decide, by decide⟩, ⟨by decide, by decide⟩,
      trivial⟩
  have fresh : machine.Guarded (InRange file) r [] := trivial
  exact read_after_prefetch (by decide) hnew fresh (serves_serving file) (by decide) hprefetch
    inside ⟨by decide, by decide, by decide⟩

/-! ## Reading on -/

/-- Everything up to the end of the window has been transferred once, and the window ends less than
`smallReadahead` behind the position. -/
structure ReadsOn (file : Bytes) (r : HttpRangeReader) : Prop where
  mirrors : Mirrors file r
  fetchedBytes : r.fetchedBytes = r.bufStart + r.buf.length
  bufStart_le : r.bufStart ≤ r.pos
  pos_le : r.pos ≤ r.fetchedBytes
  le_length : r.fetchedBytes ≤ file.length
  lt_pos_add : r.fetchedBytes < r.pos + smallReadahead

/-- Reading from the window. -/
theorem ReadsOn.deliver (mirrors : Mirrors file r) (hfile : file.length < 2 ^ 63) {out : Bytes}
    (hout : out ≠ []) (hfetched : r.fetchedBytes = r.bufStart + r.buf.length)
    (hstart : r.bufStart ≤ r.pos) (hpos : r.pos < r.bufStart + r.buf.length)
    (hlength : r.fetchedBytes ≤ file.length)
    (hahead : r.fetchedBytes ≤ r.pos + max out.length smallReadahead) :
    ReadsOn file (r.deliver out).1 := by
  have hpositive : 0 < out.length := List.length_pos_iff.2 hout
  rw [deliver_eq out (by omega)]
  have hwrap : wrapU64 (r.pos + min (r.buf.length - (r.pos - r.bufStart)) out.length) =
      r.pos + min (r.buf.length - (r.pos - r.bufStart)) out.length :=
    Nat.mod_eq_of_lt (by omega)
  have mirrors' : Mirrors file { r with
      pos := wrapU64 (r.pos + min (r.buf.length - (r.pos - r.bufStart)) out.length) } :=
    ⟨mirrors.len, by dsimp only; omega, mirrors.window⟩
  have hsmall : 0 < smallReadahead := by decide
  refine ⟨mirrors', hfetched, ?_, ?_, hlength, ?_⟩
  all_goals dsimp only; omega

theorem ReadsOn.read (reads : ReadsOn file r) (hfile : file.length < 2 ^ 63)
    (serves : Serves file server) {out : Bytes} (hlen : out.length < 2 ^ 63) :
    ReadsOn file (r.read server out).1 := by
  obtain ⟨mirrors, hfetched, hstart, hpos, hlength, hahead⟩ := reads
  unfold HttpRangeReader.read
  by_cases hend : r.len ≤ r.pos ∨ out = []
  · rw [if_pos hend]
    exact ⟨mirrors, hfetched, hstart, hpos, hlength, hahead⟩
  · obtain ⟨hinside, hout⟩ := not_or.1 hend
    rw [if_neg hend]
    by_cases hbuf : r.InBuf
    · rw [if_pos hbuf]
      have hoverlaps := (inBuf_iff (by omega)).1 hbuf
      exact ReadsOn.deliver mirrors hfile hout hfetched hstart hoverlaps.2 hlength (by omega)
    · rw [if_neg hbuf]
      -- the window has been used up, and the next one starts where it ends
      have hused : r.pos = r.fetchedBytes := by
        rw [inBuf_iff (by omega)] at hbuf
        omega
      rcases mirrors.fetch_cases serves r.pos out.length with
        ⟨e, hfetch⟩ | ⟨r1, hfetch, hpos1, hlen1, hstart1, hbuf1⟩
      · rw [hfetch]
        exact ⟨mirrors, hfetched, hstart, hpos, hlength, hahead⟩
      · rw [hfetch]
        have hflen := mirrors.len
        have hpositive : 0 < out.length := List.length_pos_iff.2 hout
        have htransfer := fetchedBytes_of_fetch (by omega) hfetch
        have hlt : r.pos < r.fetchEnd r.pos out.length := by
          refine lt_fetchEnd (by omega) hpositive ?_
          unfold smallReadahead
          omega
        have hstop : r.fetchEnd r.pos out.length ≤ file.length :=
          (Nat.min_le_right _ _).trans_eq hflen
        have hspan : r.fetchEnd r.pos out.length ≤ r.pos + max out.length smallReadahead := by
          unfold fetchEnd wrapU64
          have hmod := Nat.mod_le (r.pos + max out.length (min smallReadahead (r.len - r.pos)))
            (2 ^ 64)
          omega
        have hwindow : r1.buf.length = r.fetchEnd r.pos out.length - r.pos := by
          rw [hbuf1, List.length_take, List.length_drop]
          omega
        have hfetched1 : r1.fetchedBytes = r1.bufStart + r1.buf.length := by
          rw [htransfer, wrapU64, Nat.mod_eq_of_lt (by omega)]
          omega
        have mirrors1 : Mirrors file r1 :=
          ⟨hlen1.trans hflen, by omega, by rw [hstart1, hbuf1]; exact List.take_prefix _ _⟩
        exact ReadsOn.deliver mirrors1 hfile hout hfetched1 (by omega) (by omega) (by omega)
          (by omega)

/-- A read over a server that keeps to the ranges. -/
def Call.Reads (file : Bytes) (call : Call) : Prop :=
  ∃ server out, call = .read server out ∧ Serves file server ∧ out.length < 2 ^ 63

/-- A new reader that only reads, whatever sizes and with whatever failures, has transferred no byte
twice: as many as up to the end of its window, which is less than `smallReadahead` ahead. -/
theorem transferred_once (hfile : file.length < 2 ^ 63) {url : String}
    (hnew : new url (.ok (some file.length)) = .ok r) {reads : List (FileServer × Bytes)}
    (hreads : ∀ x ∈ reads, Serves file x.1 ∧ x.2.length < 2 ^ 63) :
    let s := machine.run r (reads.map fun x => .read x.1 x.2)
    s.fetchedBytes = s.bufStart + s.buf.length ∧ s.pos ≤ s.fetchedBytes ∧
      s.fetchedBytes ≤ file.length ∧ s.fetchedBytes < s.pos + smallReadahead := by
  intro s
  have initial : ReadsOn file r := by
    cases hnew
    have hsmall : 0 < smallReadahead := by decide
    exact ⟨⟨rfl, Nat.two_pow_pos 63, List.nil_prefix⟩, rfl, le_rfl, le_rfl, Nat.zero_le _,
      (Nat.zero_add smallReadahead).symm ▸ hsmall⟩
  have preserved : ∀ r call, ReadsOn file r → call.Reads file →
      ReadsOn file (machine.step r call).1 := by
    rintro r _ h ⟨server, out, rfl, serves, hout⟩
    exact h.read hfile serves hout
  have guarded : machine.Guarded (fun _ call => call.Reads file) r
      (reads.map fun x => .read x.1 x.2) := by
    refine machine.guarded_of_forall r (List.forall_mem_map.2 fun x hx => ?_)
    exact ⟨x.1, x.2, rfl, hreads x hx⟩
  have h : ReadsOn file s := machine.invariant preserved initial guarded
  exact ⟨h.fetchedBytes, h.pos_le, h.le_length, h.lt_pos_add⟩

theorem transferred_once_three :
    let file : Bytes := [1, 2, 3, 4]
    let r : HttpRangeReader := ⟨"http://host/model.gguf", 0, 4, [], 0, 0⟩
    let reads : List (FileServer × Bytes) := [(gone, [0]), (serving file, [0, 0]), (gone, [0])]
    let s := machine.run r (reads.map fun x => .read x.1 x.2)
    s.fetchedBytes = s.bufStart + s.buf.length ∧ s.pos ≤ s.fetchedBytes ∧
      s.fetchedBytes ≤ file.length ∧ s.fetchedBytes < s.pos + smallReadahead := by
  intro file r reads
  have hnew : new "http://host/model.gguf" (.ok (some file.length)) = .ok r := rfl
  have hgone : Serves file gone := by
    rintro first last reply body - - hreply
    cases hreply
  refine transferred_once (by decide) hnew fun x hx => ?_
  simp only [reads, List.mem_cons, List.not_mem_nil, or_false] at hx
  rcases hx with rfl | rfl | rfl
  · exact ⟨hgone, by decide⟩
  · exact ⟨serves_serving file, by decide⟩
  · exact ⟨hgone, by decide⟩

end NeuralSwarm.HttpRangeReader
