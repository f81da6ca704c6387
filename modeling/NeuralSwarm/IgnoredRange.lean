import NeuralSwarm.RangeReads

/-!
# Reading over a server that ignores ranges

A server may answer a range request with status `200` and the complete file.  The reader looks at
neither and takes what it gets for the bytes it asked for.  What it delivers is right if the first
request that is answered is for the start of the file, as the window then is the file itself, and
wrong for some file of that length otherwise.
-/

namespace NeuralSwarm.HttpRangeReader

/-- Fails, or sends the complete file, whatever the range. -/
def ignoring (file : Bytes) (failure : Option String) : FileServer := fun _ _ =>
  match failure with
  | some e => .error e
  | none => .ok { status := 200, body := .ok file }

/-- What is done with a reader: a read comes with the failure of the request that it may cause. -/
inductive Access
  | read (failure : Option String) (out : Bytes)
  | seek (pos : SeekFrom)
  deriving DecidableEq

def Access.call (file : Bytes) : Access → Call
  | .read failure out => .read (ignoring file failure) out
  | .seek pos => .seek pos

/-- The size of a buffer is an `isize`. -/
def Access.Fits : Access → Prop
  | .read _ out => out.length < 2 ^ 63
  | .seek _ => True

/-- A read fails or delivers the bytes at the position. -/
def ReadsRight (file : Bytes) (r : HttpRangeReader) : Call → Prop
  | .read server out => ∀ r' out' n, r.read server out = (r', out', .ok n) →
    Delivers file r.pos out out' n
  | _ => True

/-- The position of the first read that asks the server for bytes and is answered.  Until then,
seeks alone change the reader. -/
def firstRequest (r : HttpRangeReader) : List Access → Option ℕ
  | [] => none
  | .seek target :: rest => firstRequest (r.seek target).1 rest
  | .read failure out :: rest =>
    if failure = none ∧ r.pos < r.len ∧ out ≠ [] then some r.pos else firstRequest r rest

variable {file : Bytes} {r : HttpRangeReader} {failure : Option String} {out : Bytes}

/-! ## Before the first answer -/

/-- Nothing has been fetched yet. -/
structure Unfetched (file : Bytes) (r : HttpRangeReader) : Prop where
  len : r.len = file.length
  pos_lt : r.pos < 2 ^ 63
  buf : r.buf = []
  bufStart : r.bufStart = 0

theorem newPos_lt (r : HttpRangeReader) (target : SeekFrom) : r.newPos target < 2 ^ 63 := by
  have hlt (n : ℤ) : asI64 n < 2 ^ 63 := by
    unfold asI64
    omega
  cases target <;> exact hlt _

/-- A seek changes the position alone. -/
theorem exists_seek_eq (r : HttpRangeReader) (target : SeekFrom) :
    ∃ pos, (r.seek target).1 = { r with pos } ∧ (r.pos < 2 ^ 63 → pos < 2 ^ 63) := by
  have hlt := r.newPos_lt target
  unfold HttpRangeReader.seek
  by_cases hneg : r.newPos target < 0
  · exact ⟨r.pos, by rw [if_pos hneg], id⟩
  · exact ⟨(r.newPos target).toNat, by rw [if_neg hneg], fun _ => by omega⟩

theorem Unfetched.seek (unfetched : Unfetched file r) (target : SeekFrom) :
    Unfetched file (r.seek target).1 := by
  obtain ⟨pos, hseek, hpos⟩ := r.exists_seek_eq target
  rw [hseek]
  exact ⟨unfetched.len, hpos unfetched.pos_lt, unfetched.buf, unfetched.bufStart⟩

/-- A read that has nothing to read. -/
theorem read_of_nothing (h : r.len ≤ r.pos ∨ out = []) (server : FileServer) :
    r.read server out = (r, out, .ok 0) := if_pos h

theorem readsRight_of_nothing (hlen : r.len = file.length) (h : r.len ≤ r.pos ∨ out = [])
    (server : FileServer) : ReadsRight file r (.read server out) := by
  intro r' out' n hread
  cases (read_of_nothing h server).symm.trans hread
  rw [hlen] at h
  exact delivers_zero h

/-- The first read that has something to read asks for the bytes at its position. -/
theorem Unfetched.read_eq (unfetched : Unfetched file r) (hpos : r.pos < r.len) (hne : out ≠ [])
    (server : FileServer) :
    r.read server out =
      match r.fetch server r.pos out.length with
      | (r, .error e) => (r, out, .error e)
      | (r, .ok ()) => r.deliver out := by
  have hnothing : ¬ (r.len ≤ r.pos ∨ out = []) := by
    rintro (hle | rfl)
    · omega
    · exact hne rfl
  have hbuf : ¬ r.InBuf := by
    rintro ⟨-, hlt⟩
    rw [unfetched.buf, unfetched.bufStart] at hlt
    cases hlt
  exact (if_neg hnothing).trans (if_neg hbuf)

theorem Unfetched.lt_fetchEnd (unfetched : Unfetched file r) (hpos : r.pos < r.len) (hne : out ≠ [])
    (hout : out.length < 2 ^ 63) : r.pos < r.fetchEnd r.pos out.length := by
  have hlt := unfetched.pos_lt
  refine HttpRangeReader.lt_fetchEnd hpos (List.length_pos_iff.2 hne) ?_
  unfold smallReadahead
  omega

/-- A read that is not answered. -/
theorem Unfetched.read_of_error (unfetched : Unfetched file r) (hpos : r.pos < r.len)
    (hne : out ≠ []) (hout : out.length < 2 ^ 63) (e : String) :
    r.read (ignoring file (some e)) out = (r, out, .error e) := by
  rw [unfetched.read_eq hpos hne, fetch_of_error (unfetched.lt_fetchEnd hpos hne hout) rfl]

/-- The reader that has got the complete file for the bytes from its position on. -/
def fetched (file : Bytes) (r : HttpRangeReader) : HttpRangeReader :=
  { r with
    buf := file
    bufStart := r.pos
    fetchedBytes := wrapU64 (r.fetchedBytes + file.length) }

/-- The first read that is answered takes the start of the file for the bytes at its position. -/
theorem Unfetched.read_of_answer (unfetched : Unfetched file r) (hpos : r.pos < r.len)
    (hne : out ≠ []) (hout : out.length < 2 ^ 63) :
    r.read (ignoring file none) out = (r.fetched file).deliver out := by
  rw [unfetched.read_eq hpos hne, fetch_of_ok (unfetched.lt_fetchEnd hpos hne hout) rfl]
  rfl

/-- A read either has no effect and is right, or it is the first one that is answered. -/
theorem Unfetched.read_cases (unfetched : Unfetched file r) (hout : out.length < 2 ^ 63)
    (failure : Option String) (rest : List Access) :
    ((machine.step r (.read (ignoring file failure) out)).1 = r ∧
      ReadsRight file r (.read (ignoring file failure) out) ∧
      firstRequest r (.read failure out :: rest) = firstRequest r rest) ∨
    (failure = none ∧ r.pos < r.len ∧ out ≠ [] ∧
      firstRequest r (.read failure out :: rest) = some r.pos) := by
  by_cases hnothing : r.len ≤ r.pos ∨ out = []
  · have hright := readsRight_of_nothing unfetched.len hnothing (ignoring file failure)
    refine .inl ⟨?_, hright, if_neg fun h => ?_⟩
    · simp only [machine, read_of_nothing hnothing]
    · exact hnothing.elim (fun hle => absurd h.2.1 (Nat.not_lt.2 hle)) h.2.2
  · obtain ⟨hpos, hne⟩ := not_or.1 hnothing
    have hpos : r.pos < r.len := Nat.lt_of_not_le hpos
    cases failure with
    | some e =>
      have hread := unfetched.read_of_error hpos hne hout e
      refine .inl ⟨?_, fun r' out' n heq => ?_, if_neg fun h => ?_⟩
      · simp only [machine, hread]
      · cases hread.symm.trans heq
      · cases h.1
    | none => exact .inr ⟨rfl, hpos, hne, if_pos ⟨rfl, hpos, hne⟩⟩

/-! ## After an answer to a request for the start -/

/-- The window is the file. -/
structure Whole (file : Bytes) (r : HttpRangeReader) : Prop where
  len : r.len = file.length
  buf : r.buf = file
  bufStart : r.bufStart = 0

theorem Whole.deliver (whole : Whole file r) (hfile : file.length < 2 ^ 64)
    (hpos : r.pos < file.length) (hne : out ≠ []) :
    ∃ out' n, r.deliver out = ({ r with pos := r.pos + n }, out', .ok n) ∧
      Delivers file r.pos out out' n := by
  have hwindow : r.buf <+: file.drop r.bufStart := by
    rw [whole.buf, whole.bufStart, List.drop_zero]
  have hoverlaps : r.pos - r.bufStart < r.buf.length := by
    rw [whole.buf, whole.bufStart]
    omega
  obtain ⟨out', n, hdeliver, -, delivers⟩ := deliver_of_window hwindow hfile
    (by rw [whole.bufStart]; omega) hoverlaps hne
  exact ⟨out', n, hdeliver, delivers⟩

/-- From then on, everything is read from the window. -/
theorem Whole.step (whole : Whole file r) (hfile : file.length < 2 ^ 64) (access : Access) :
    ReadsRight file r (access.call file) ∧ Whole file (machine.step r (access.call file)).1 := by
  cases access with
  | seek target =>
    refine ⟨trivial, ?_⟩
    obtain ⟨pos, hseek, -⟩ := r.exists_seek_eq target
    have hstep : (machine.step r (.seek target)).1 = { r with pos } := hseek
    rw [Access.call, hstep]
    exact ⟨whole.len, whole.buf, whole.bufStart⟩
  | read failure out =>
    by_cases hnothing : r.len ≤ r.pos ∨ out = []
    · refine ⟨readsRight_of_nothing whole.len hnothing _, ?_⟩
      simp only [Access.call, machine, read_of_nothing hnothing]
      exact whole
    · simp only [Access.call, machine, ReadsRight]
      obtain ⟨hpos, hne⟩ := not_or.1 hnothing
      rw [whole.len] at hpos
      have hbuf : r.InBuf := by
        constructor
        · rw [whole.bufStart]
          omega
        · rw [whole.bufStart, whole.buf, Nat.zero_add, wrapU64, Nat.mod_eq_of_lt hfile]
          omega
      obtain ⟨out', n, hdeliver, delivers⟩ := whole.deliver hfile (by omega) hne
      rw [HttpRangeReader.read, if_neg hnothing, if_pos hbuf, hdeliver]
      refine ⟨?_, ⟨whole.len, whole.buf, whole.bufStart⟩⟩
      rintro _ _ _ heq
      cases heq
      exact delivers

theorem Whole.guarded (whole : Whole file r) (hfile : file.length < 2 ^ 64)
    (accesses : List Access) :
    machine.Guarded (ReadsRight file) r (accesses.map (·.call file)) := by
  induction accesses generalizing r with
  | nil => trivial
  | cons access rest ih => exact ⟨(whole.step hfile access).1, ih (whole.step hfile access).2⟩

/-! ## Histories -/

/-- If the first request that is answered is for the start of the file, every read is right. -/
theorem Unfetched.guarded (unfetched : Unfetched file r) (hfile : file.length < 2 ^ 64)
    {accesses : List Access} (hfits : ∀ access ∈ accesses, access.Fits)
    (hfirst : ∀ pos, firstRequest r accesses = some pos → pos = 0) :
    machine.Guarded (ReadsRight file) r (accesses.map (·.call file)) := by
  induction accesses generalizing r with
  | nil => trivial
  | cons access rest ih =>
    obtain ⟨hfit, hrest⟩ := List.forall_mem_cons.1 hfits
    cases access with
    | seek target => exact ⟨trivial, ih (unfetched.seek target) hrest hfirst⟩
    | read failure out =>
      rcases unfetched.read_cases hfit failure rest with
        ⟨hstep, hright, hskip⟩ | ⟨rfl, hpos, hne, hnow⟩
      · rw [hskip] at hfirst
        refine ⟨hright, ?_⟩
        change machine.Guarded _ (machine.step r (.read (ignoring file failure) out)).1 _
        rw [hstep]
        exact ih unfetched hrest hfirst
      · have whole : Whole file (r.fetched file) := ⟨unfetched.len, rfl, hfirst r.pos hnow⟩
        obtain ⟨out', n, hdeliver, delivers⟩ :=
          whole.deliver hfile (hpos.trans_eq unfetched.len) hne
        have hread := unfetched.read_of_answer hpos hne hfit
        rw [hdeliver] at hread
        refine ⟨fun r' out' n heq => ?_, ?_⟩
        · cases hread.symm.trans heq
          exact delivers
        · simp only [Access.call, machine, hread]
          have whole' : Whole file { r.fetched file with pos := (r.fetched file).pos + n } :=
            ⟨whole.len, whole.buf, whole.bufStart⟩
          exact whole'.guarded hfile rest

/-- If every read is right, the first answer starts with the byte at the position of its request. -/
theorem Unfetched.getElem?_of_guarded (unfetched : Unfetched file r) {accesses : List Access}
    (hfits : ∀ access ∈ accesses, access.Fits)
    (guarded : machine.Guarded (ReadsRight file) r (accesses.map (·.call file))) {pos : ℕ}
    (hfirst : firstRequest r accesses = some pos) :
    pos < file.length ∧ file[0]? = file[pos]? := by
  induction accesses generalizing r with
  | nil => cases hfirst
  | cons access rest ih =>
    obtain ⟨hfit, hrest⟩ := List.forall_mem_cons.1 hfits
    cases access with
    | seek target => exact ih (unfetched.seek target) hrest guarded.2 hfirst
    | read failure out =>
      obtain ⟨hright, hlater⟩ := guarded
      rcases unfetched.read_cases hfit failure rest with
        ⟨hstep, -, hskip⟩ | ⟨rfl, hpos, hne, hnow⟩
      · change machine.Guarded _ (machine.step r (.read (ignoring file failure) out)).1 _ at hlater
        rw [hstep] at hlater
        exact ih unfetched hrest hlater (hskip ▸ hfirst)
      · obtain rfl : r.pos = pos := Option.some.inj (hnow.symm.trans hfirst)
        have hpos : r.pos < file.length := hpos.trans_eq unfetched.len
        have hread := unfetched.read_of_answer (unfetched.len ▸ hpos) hne hfit
        have hzero : (r.fetched file).pos - (r.fetched file).bufStart = 0 := Nat.sub_self _
        have hsome : ¬ (r.fetched file).buf.length ≤ 0 := by
          change ¬ file.length ≤ 0
          omega
        rw [deliver, hzero, if_neg hsome] at hread
        have hcopied := List.append_cancel_right (hright _ _ _ hread).copied
        have hpositive : 0 < min ((r.fetched file).buf.drop 0).length out.length := by
          rw [List.drop_zero]
          exact Nat.lt_min.2 ⟨Nat.lt_of_not_le hsome, List.length_pos_iff.2 hne⟩
        have hbyte := congrArg (·[0]?) hcopied
        simp only [List.getElem?_take_of_lt hpositive, List.getElem?_drop, Nat.add_zero] at hbyte
        exact ⟨hpos, hbyte⟩

/-- A file of zeros with a one at a position. -/
def marked (len pos : ℕ) : Bytes := (List.replicate len 0).set pos 1

/-- Over a server that ignores ranges, the reads of all files of a length are right exactly if the
first request that is answered is for the start. -/
theorem readsRight_iff {len : ℕ} (hlen : len < 2 ^ 64) {url : String} {r : HttpRangeReader}
    (hnew : new url (.ok (some len)) = .ok r) {accesses : List Access}
    (hfits : ∀ access ∈ accesses, access.Fits) :
    (∀ file : Bytes, file.length = len →
        machine.Guarded (ReadsRight file) r (accesses.map (·.call file))) ↔
      ∀ pos, firstRequest r accesses = some pos → pos = 0 := by
  have unfetched {file : Bytes} (hfile : file.length = len) : Unfetched file r := by
    cases hnew
    exact ⟨hfile.symm, Nat.two_pow_pos 63, rfl, rfl⟩
  constructor
  · intro h pos hfirst
    have hmarked : (marked len pos).length = len := by
      rw [marked, List.length_set, List.length_replicate]
    obtain ⟨hpos, hsame⟩ :=
      (unfetched hmarked).getElem?_of_guarded hfits (h _ hmarked) hfirst
    rw [hmarked] at hpos
    by_contra hne
    rw [marked, List.getElem?_set_ne hne, List.getElem?_set_self (by simpa using hpos),
      List.getElem?_replicate_of_lt (by omega)] at hsame
    cases hsame
  · intro hfirst file hfile
    exact (unfetched hfile).guarded (by omega) hfits hfirst

theorem readsRight_iff_three_bytes :
    let r : HttpRangeReader := ⟨"http://host/model.gguf", 0, 3, [], 0, 0⟩
    let accesses : List Access := [.read none [0], .seek (.start 2), .read none [0, 0]]
    (∀ file : Bytes, file.length = 3 →
        machine.Guarded (ReadsRight file) r (accesses.map (·.call file))) ↔
      ∀ pos, firstRequest r accesses = some pos → pos = 0 := by
  intro r accesses
  have hfits : ∀ access ∈ accesses, access.Fits := by
    simp only [accesses, List.forall_mem_cons, Access.Fits]
    exact ⟨by decide, trivial, by decide, fun _ h => absurd h List.not_mem_nil⟩
  have hnew : new "http://host/model.gguf" (.ok (some 3)) = .ok r := rfl
  exact readsRight_iff (by decide) hnew hfits

/-- A reader that seeks to the second byte first is given the first one. -/
theorem not_readsRight_seek :
    ¬ ∀ (file : Bytes) (r : HttpRangeReader) (accesses : List Access), file.length < 2 ^ 63 →
      new "http://host/model.gguf" (.ok (some file.length)) = .ok r →
        (∀ access ∈ accesses, access.Fits) →
          machine.Guarded (ReadsRight file) r (accesses.map (·.call file)) := by
  intro h
  let accesses : List Access := [.seek (.start 1), .read none [0]]
  have hfits : ∀ access ∈ accesses, access.Fits := by
    simp only [accesses, List.forall_mem_cons, Access.Fits]
    exact ⟨trivial, by decide, fun _ h => absurd h List.not_mem_nil⟩
  obtain ⟨-, hright, -⟩ := h [7, 8] ⟨"http://host/model.gguf", 0, 2, [], 0, 0⟩ accesses (by decide)
    rfl hfits
  have delivers := hright _ [7] 1 rfl
  have hcopied := delivers.copied
  revert hcopied
  decide

end NeuralSwarm.HttpRangeReader
