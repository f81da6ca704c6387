import Mathlib.Algebra.Order.Ring.Int
import NeuralSwarm.Basic.Codec
import NeuralSwarm.Crypto
import NeuralSwarm.Protocol

/-!
# The wire format

How bincode lays out the messages: fields in the order of their declaration, numbers as
little-endian words of their width, a variant tag of 32 bits, a byte before an optional value, and
lengths of 64 bits before vectors and strings.  Bytes after the end are ignored.  A message is
accepted if and only if the bytes start with its encoding and it has the sizes that the types of its
fields promise (`deserialize_eq_ok_iff`).  The formats of `f32` and of peer ids are parameters.
-/

namespace NeuralSwarm

variable {F P : Type}

/-! ## Built-in types -/

namespace Bincode

open Codec

def u32 : Codec ℕ := .word 4

def u64 : Codec ℕ := .word 8

def byte : Codec UInt8 := (word 1).map UInt8.ofNat UInt8.toNat fun _ => UInt8.ofNat_toNat

def uint32 : Codec UInt32 := u32.map UInt32.ofNat UInt32.toNat fun _ => UInt32.ofNat_toNat

def uint64 : Codec UInt64 := u64.map UInt64.ofNat UInt64.toNat fun _ => UInt64.ofNat_toNat

/-- The 32 bits of a signed number, in two's complement. -/
def toWord (x : ℤ) : ℕ := (x % 2 ^ 32).toNat

def ofWord (n : ℕ) : ℤ := if n < 2 ^ 31 then n else n - 2 ^ 32

theorem ofWord_toWord {x : ℤ} (hlow : -2 ^ 31 ≤ x) (hhigh : x < 2 ^ 31) :
    ofWord (toWord x) = x := by
  unfold ofWord toWord
  split_ifs <;> omega

theorem toWord_ofWord {n : ℕ} (h : n < 2 ^ 32) : toWord (ofWord n) = n := by
  unfold ofWord toWord
  split_ifs <;> omega

theorem ofWord_bounds {n : ℕ} (h : n < 2 ^ 32) : -2 ^ 31 ≤ ofWord n ∧ ofWord n < 2 ^ 31 := by
  unfold ofWord
  split_ifs <;> omega

def decodeI32 : LittleEndian.Decoder ℤ := fun bytes => do
  let (n, bytes) ← LittleEndian.decode 4 bytes
  return (ofWord n, bytes)

theorem decodeI32_append {x : ℤ} (h : -2 ^ 31 ≤ x ∧ x < 2 ^ 31) (rest : Bytes) :
    decodeI32 (LittleEndian.encode 4 (toWord x) ++ rest) = .ok (x, rest) := by
  have hword : toWord x < 256 ^ 4 := by
    unfold toWord
    omega
  simp only [decodeI32, LittleEndian.decode_encode_append hword, Except.ok_bind,
    ofWord_toWord h.1 h.2, Except.pure_eq_ok]

def i32 : Codec ℤ where
  Fits x := -2 ^ 31 ≤ x ∧ x < 2 ^ 31
  encode x := LittleEndian.encode 4 (toWord x)
  decode := decodeI32
  decode_append := decodeI32_append

def vec {α : Type} (c : Codec α) : Codec (List α) := .list 8 c

def bytes : Codec Bytes := vec byte

/-- `[u8; n]`, without its length. -/
def array (n : ℕ) : Codec Bytes := byte.many n

def string : Codec String :=
  bytes.convert (fun b => String.fromUTF8? ⟨b.toArray⟩) (fun s => s.toUTF8.data.toList)
    "string is not valid utf8" fun s => by
      rw [Array.toArray_toList]
      exact dif_pos s.isValidUTF8

theorem canonical_u32 : u32.Canonical := canonical_word 4

theorem canonical_u64 : u64.Canonical := canonical_word 8

theorem canonical_byte : byte.Canonical := by
  apply (canonical_word 1).map
  intro n hn
  have hn : n < 256 := hn
  rw [UInt8.toNat_ofNat']
  omega

theorem canonical_uint32 : uint32.Canonical := by
  apply (canonical_word 4).map
  intro n hn
  have hn : n < 4294967296 := hn
  rw [UInt32.toNat_ofNat']
  omega

theorem canonical_uint64 : uint64.Canonical := by
  apply (canonical_word 8).map
  intro n hn
  have hn : n < 18446744073709551616 := hn
  rw [UInt64.toNat_ofNat']
  omega

theorem canonical_i32 : i32.Canonical := by
  constructor
  intro bytes rest x h
  obtain ⟨⟨n, bytes1⟩, hn, h⟩ := Except.bind_eq_ok.1 h
  simp only [Except.pure_eq_ok, Except.ok.injEq, Prod.mk.injEq] at h
  obtain ⟨rfl, rfl⟩ := h
  obtain ⟨hlt, rfl⟩ := eq_encode_of_decode hn
  have hlt : n < 2 ^ 32 := hlt
  refine ⟨ofWord_bounds hlt, ?_⟩
  simp only [i32, toWord_ofWord hlt]

theorem canonical_vec {α : Type} {c : Codec α} (hc : c.Canonical) : (vec c).Canonical :=
  hc.list 8

theorem canonical_bytes : bytes.Canonical := canonical_vec canonical_byte

theorem canonical_array (n : ℕ) : (array n).Canonical := canonical_byte.many n

theorem canonical_string : string.Canonical := by
  apply canonical_bytes.convert
  intro b s _ h
  rw [String.fromUTF8?] at h
  split at h
  · cases h
    rfl
  · cases h

/-! ## What fits -/

@[simp] theorem fits_u32 {n : ℕ} : u32.Fits n ↔ n < 2 ^ 32 := Iff.rfl

@[simp] theorem fits_u64 {n : ℕ} : u64.Fits n ↔ n < 2 ^ 64 := Iff.rfl

@[simp] theorem fits_byte (b : UInt8) : byte.Fits b := b.toNat_lt

@[simp] theorem fits_uint32 (n : UInt32) : uint32.Fits n := n.toNat_lt

@[simp] theorem fits_uint64 (n : UInt64) : uint64.Fits n := n.toNat_lt

@[simp] theorem fits_i32 {x : ℤ} : i32.Fits x ↔ -2 ^ 31 ≤ x ∧ x < 2 ^ 31 := Iff.rfl

@[simp] theorem fits_vec {α : Type} {c : Codec α} {as : List α} :
    (vec c).Fits as ↔ as.length < 2 ^ 64 ∧ ∀ a ∈ as, c.Fits a := Iff.rfl

@[simp] theorem fits_bytes {b : Bytes} : bytes.Fits b ↔ b.length < 2 ^ 64 := by
  simp [bytes]

@[simp] theorem fits_array {n : ℕ} {b : Bytes} : (array n).Fits b ↔ b.length = n := by
  constructor
  · exact And.left
  · exact fun h => ⟨h, fun a _ => fits_byte a⟩

@[simp] theorem fits_string {s : String} : string.Fits s ↔ s.utf8ByteSize < 2 ^ 64 :=
  fits_bytes

end Bincode

/-! ## The types of the fields -/

open Codec Bincode

def Architecture.codec : Codec Architecture :=
  (ordinal 4 3 "invalid value").map
    (fun | 0 => .x86_64 | 1 => .aarch64 | 2 => .other)
    (fun | .x86_64 => 0 | .aarch64 => 1 | .other => 2)
    fun arch => by cases arch <;> rfl

def DeviceType.codec : Codec DeviceType :=
  (ordinal 4 5 "invalid value").map
    (fun | 0 => .server | 1 => .desktop | 2 => .laptop | 3 => .mobile | 4 => .embedded)
    (fun | .server => 0 | .desktop => 1 | .laptop => 2 | .mobile => 3 | .embedded => 4)
    fun deviceType => by cases deviceType <;> rfl

def ThermalState.codec : Codec ThermalState :=
  (ordinal 4 4 "invalid value").map
    (fun | 0 => .nominal | 1 => .warm | 2 => .throttling | 3 => .critical)
    (fun | .nominal => 0 | .warm => 1 | .throttling => 2 | .critical => 3)
    fun thermal => by cases thermal <;> rfl

@[simp] theorem Architecture.fits_codec (arch : Architecture) :
    Architecture.codec.Fits arch :=
  fits_ordinal "invalid value" (by decide) _

theorem Architecture.canonical_codec : Architecture.codec.Canonical :=
  (canonical_ordinal 4 3 _).map fun tag _ => match tag with
    | 0 | 1 | 2 => rfl

@[simp] theorem DeviceType.fits_codec (deviceType : DeviceType) :
    DeviceType.codec.Fits deviceType :=
  fits_ordinal "invalid value" (by decide) _

theorem DeviceType.canonical_codec : DeviceType.codec.Canonical :=
  (canonical_ordinal 4 5 _).map fun tag _ => match tag with
    | 0 | 1 | 2 | 3 | 4 => rfl

@[simp] theorem ThermalState.fits_codec (thermal : ThermalState) :
    ThermalState.codec.Fits thermal :=
  fits_ordinal "invalid value" (by decide) _

theorem ThermalState.canonical_codec : ThermalState.codec.Canonical :=
  (canonical_ordinal 4 4 _).map fun tag _ => match tag with
    | 0 | 1 | 2 | 3 => rfl

def GpuProfile.codec : Codec GpuProfile :=
  (string.pair uint64).map (fun (name, vramMb) => { name, vramMb })
    (fun gpu => (gpu.name, gpu.vramMb)) fun _ => rfl

@[simp] theorem GpuProfile.fits_codec {gpu : GpuProfile} :
    GpuProfile.codec.Fits gpu ↔ gpu.name.utf8ByteSize < 2 ^ 64 := by
  simp [GpuProfile.codec]

theorem GpuProfile.canonical_codec : GpuProfile.codec.Canonical :=
  (canonical_string.pair canonical_uint64).map fun _ _ => rfl

def NodeProfile.codec : Codec NodeProfile :=
  (Architecture.codec.pair <| DeviceType.codec.pair <| uint32.pair <| uint64.pair <|
      GpuProfile.codec.option.pair string).map
    (fun (arch, deviceType, cpuCores, ramTotalMb, gpu, hostname) =>
      { arch, deviceType, cpuCores, ramTotalMb, gpu, hostname })
    (fun p => (p.arch, p.deviceType, p.cpuCores, p.ramTotalMb, p.gpu, p.hostname)) fun _ => rfl

def NodeProfile.Sized (profile : NodeProfile) : Prop :=
  (∀ gpu, profile.gpu = some gpu → gpu.name.utf8ByteSize < 2 ^ 64) ∧
    profile.hostname.utf8ByteSize < 2 ^ 64

@[simp] theorem NodeProfile.fits_codec {profile : NodeProfile} :
    NodeProfile.codec.Fits profile ↔ profile.Sized := by
  simp [NodeProfile.codec, NodeProfile.Sized]

theorem NodeProfile.canonical_codec : NodeProfile.codec.Canonical :=
  (Architecture.canonical_codec.pair <| DeviceType.canonical_codec.pair <| canonical_uint32.pair <|
    canonical_uint64.pair <| GpuProfile.canonical_codec.option.pair canonical_string).map
    fun _ _ => rfl

/-- `measured_at` is skipped. -/
def NodeStatus.codec (f32 : Codec F) : Codec (NodeStatus F) :=
  (f32.pair <| uint64.pair <| uint64.pair <| ThermalState.codec.pair uint32.option).map
    (fun (cpuUsage, ramUsedMb, ramAvailableMb, thermal, latencyMs) =>
      { cpuUsage, ramUsedMb, ramAvailableMb, thermal, latencyMs })
    (fun s => (s.cpuUsage, s.ramUsedMb, s.ramAvailableMb, s.thermal, s.latencyMs)) fun _ => rfl

@[simp] theorem NodeStatus.fits_codec {f32 : Codec F} {status : NodeStatus F} :
    (NodeStatus.codec f32).Fits status ↔ f32.Fits status.cpuUsage := by
  simp [NodeStatus.codec]

theorem NodeStatus.canonical_codec {f32 : Codec F} (hf : f32.Canonical) :
    (NodeStatus.codec f32).Canonical :=
  (hf.pair <| canonical_uint64.pair <| canonical_uint64.pair <|
    ThermalState.canonical_codec.pair canonical_uint32.option).map fun _ _ => rfl

/-- `usize` has 64 bits on the wire. -/
def RouteTicket.codec (peerId : Codec P) : Codec (RouteTicket P) :=
  (string.pair <| u64.pair <| (vec peerId).pair u64).map
    (fun (taskId, sequenceId, nodes, currentIndex) => { taskId, sequenceId, nodes, currentIndex })
    (fun t => (t.taskId, t.sequenceId, t.nodes, t.currentIndex)) fun _ => rfl

def RouteTicket.Sized (peerId : Codec P) (ticket : RouteTicket P) : Prop :=
  ticket.taskId.utf8ByteSize < 2 ^ 64 ∧ ticket.sequenceId < 2 ^ 64 ∧
    (ticket.nodes.length < 2 ^ 64 ∧ ∀ p ∈ ticket.nodes, peerId.Fits p) ∧
    ticket.currentIndex < 2 ^ 64

@[simp] theorem RouteTicket.fits_codec {peerId : Codec P} {ticket : RouteTicket P} :
    (RouteTicket.codec peerId).Fits ticket ↔ ticket.Sized peerId := by
  simp [RouteTicket.codec, RouteTicket.Sized]

theorem RouteTicket.canonical_codec {peerId : Codec P} (hp : peerId.Canonical) :
    (RouteTicket.codec peerId).Canonical :=
  (canonical_string.pair <| canonical_u64.pair <| (canonical_vec hp).pair canonical_u64).map
    fun _ _ => rfl

def ProcessTask.codec (peerId : Codec P) : Codec (ProcessTask P Bytes) :=
  (string.pair <| u64.pair <| bytes.pair <| u32.pair <| u32.pair <| (vec i32).pair
      (RouteTicket.codec peerId).option).map
    (fun (taskId, sequenceId, inputState, startLayer, endLayer, tokens, route) =>
      { taskId, sequenceId, inputState, startLayer, endLayer, tokens, route })
    (fun t => (t.taskId, t.sequenceId, t.inputState, t.startLayer, t.endLayer, t.tokens, t.route))
    fun _ => rfl

def ProcessTask.Sized (peerId : Codec P) (task : ProcessTask P Bytes) : Prop :=
  task.taskId.utf8ByteSize < 2 ^ 64 ∧ task.sequenceId < 2 ^ 64 ∧
    task.inputState.length < 2 ^ 64 ∧ task.startLayer < 2 ^ 32 ∧ task.endLayer < 2 ^ 32 ∧
    (task.tokens.length < 2 ^ 64 ∧ ∀ x ∈ task.tokens, -2 ^ 31 ≤ x ∧ x < 2 ^ 31) ∧
    ∀ ticket, task.route = some ticket → ticket.Sized peerId

@[simp] theorem ProcessTask.fits_codec {peerId : Codec P} {task : ProcessTask P Bytes} :
    (ProcessTask.codec peerId).Fits task ↔ task.Sized peerId := by
  simp [ProcessTask.codec, ProcessTask.Sized]

theorem ProcessTask.canonical_codec {peerId : Codec P} (hp : peerId.Canonical) :
    (ProcessTask.codec peerId).Canonical :=
  (canonical_string.pair <| canonical_u64.pair <| canonical_bytes.pair <| canonical_u32.pair <|
    canonical_u32.pair <| (canonical_vec canonical_i32).pair
      (RouteTicket.canonical_codec hp).option).map fun _ _ => rfl

def TaskResult.codec (f32 : Codec F) : Codec (TaskResult F Bytes) :=
  (string.pair <| u64.pair <| bytes.pair (vec f32)).map
    (fun (taskId, sequenceId, outputState, logits) => { taskId, sequenceId, outputState, logits })
    (fun r => (r.taskId, r.sequenceId, r.outputState, r.logits)) fun _ => rfl

def TaskResult.Sized (f32 : Codec F) (result : TaskResult F Bytes) : Prop :=
  result.taskId.utf8ByteSize < 2 ^ 64 ∧ result.sequenceId < 2 ^ 64 ∧
    result.outputState.length < 2 ^ 64 ∧
    (result.logits.length < 2 ^ 64 ∧ ∀ x ∈ result.logits, f32.Fits x)

@[simp] theorem TaskResult.fits_codec {f32 : Codec F} {result : TaskResult F Bytes} :
    (TaskResult.codec f32).Fits result ↔ result.Sized f32 := by
  simp [TaskResult.codec, TaskResult.Sized]

theorem TaskResult.canonical_codec {f32 : Codec F} (hf : f32.Canonical) :
    (TaskResult.codec f32).Canonical :=
  (canonical_string.pair <| canonical_u64.pair <| canonical_bytes.pair (canonical_vec hf)).map
    fun _ _ => rfl

/-! ## Messages -/

namespace SwarmMessage

/-- What follows the variant tag. -/
def Payload (F P : Type) : Fin 11 → Type
  | 0 => Bytes × Bytes
  | 1 => String × Bytes × Bytes
  | 2 => String × Option String × NodeProfile × NodeStatus F
  | 3 => List ℕ × ℕ × Bytes
  | 4 => ProcessTask P Bytes
  | 5 => TaskResult F Bytes
  | 6 => NodeStatus F
  | 7 => List ℕ
  | 8 => String
  | 9 => String
  | 10 => Unit

def payload (f32 : Codec F) (peerId : Codec P) : ∀ tag, Codec (Payload F P tag)
  | 0 => (array 32).pair (array 32)
  | 1 => string.pair (bytes.pair (array 32))
  | 2 => string.pair (string.option.pair (NodeProfile.codec.pair (NodeStatus.codec f32)))
  | 3 => (vec u32).pair (u32.pair bytes)
  | 4 => ProcessTask.codec peerId
  | 5 => TaskResult.codec f32
  | 6 => NodeStatus.codec f32
  | 7 => vec u32
  | 8 => string
  | 9 => string
  | 10 => unit

def ofPayload : (Σ tag, Payload F P tag) → SwarmMessage F P Bytes
  | ⟨0, (nonce, publicKey)⟩ => .authChallenge nonce publicKey
  | ⟨1, (nodeId, tokenHash, publicKey)⟩ => .authResponse nodeId tokenHash publicKey
  | ⟨2, (deviceId, peerId, profile, initialStatus)⟩ =>
    .nodeAnnounce deviceId peerId profile initialStatus
  | ⟨3, (assignedLayers, totalLayers, encryptedClusterKey)⟩ =>
    .joinResponse assignedLayers totalLayers encryptedClusterKey
  | ⟨4, task⟩ => .processTask task
  | ⟨5, result⟩ => .taskResult result
  | ⟨6, status⟩ => .statusUpdate status
  | ⟨7, newLayers⟩ => .rebalanceCommand newLayers
  | ⟨8, deviceId⟩ => .rebalanceAck deviceId
  | ⟨9, reason⟩ => .drainRequest reason
  | ⟨10, ()⟩ => .heartbeat

def toPayload : SwarmMessage F P Bytes → Σ tag, Payload F P tag
  | .authChallenge nonce publicKey => ⟨0, (nonce, publicKey)⟩
  | .authResponse nodeId tokenHash publicKey => ⟨1, (nodeId, tokenHash, publicKey)⟩
  | .nodeAnnounce deviceId peerId profile initialStatus =>
    ⟨2, (deviceId, peerId, profile, initialStatus)⟩
  | .joinResponse assignedLayers totalLayers encryptedClusterKey =>
    ⟨3, (assignedLayers, totalLayers, encryptedClusterKey)⟩
  | .processTask task => ⟨4, task⟩
  | .taskResult result => ⟨5, result⟩
  | .statusUpdate status => ⟨6, status⟩
  | .rebalanceCommand newLayers => ⟨7, newLayers⟩
  | .rebalanceAck deviceId => ⟨8, deviceId⟩
  | .drainRequest reason => ⟨9, reason⟩
  | .heartbeat => ⟨10, ()⟩

theorem ofPayload_toPayload (msg : SwarmMessage F P Bytes) : ofPayload msg.toPayload = msg := by
  cases msg <;> rfl

theorem toPayload_ofPayload : ∀ x : Σ tag, Payload F P tag, (ofPayload x).toPayload = x
  | ⟨0, _, _⟩ | ⟨1, _, _, _⟩ | ⟨2, _, _, _, _⟩ | ⟨3, _, _, _⟩ | ⟨4, _⟩ | ⟨5, _⟩ | ⟨6, _⟩ | ⟨7, _⟩
  | ⟨8, _⟩ | ⟨9, _⟩ | ⟨10, _⟩ => rfl

def codec (f32 : Codec F) (peerId : Codec P) : Codec (SwarmMessage F P Bytes) :=
  (tagged 4 11 (payload f32 peerId) "invalid value" (by decide)).map ofPayload toPayload
    ofPayload_toPayload

theorem canonical_payload {f32 : Codec F} {peerId : Codec P} (hf : f32.Canonical)
    (hp : peerId.Canonical) : ∀ tag, (payload f32 peerId tag).Canonical
  | 0 => (canonical_array 32).pair (canonical_array 32)
  | 1 => canonical_string.pair (canonical_bytes.pair (canonical_array 32))
  | 2 =>
    canonical_string.pair <| canonical_string.option.pair <|
      NodeProfile.canonical_codec.pair (NodeStatus.canonical_codec hf)
  | 3 => (canonical_vec canonical_u32).pair (canonical_u32.pair canonical_bytes)
  | 4 => ProcessTask.canonical_codec hp
  | 5 => TaskResult.canonical_codec hf
  | 6 => NodeStatus.canonical_codec hf
  | 7 => canonical_vec canonical_u32
  | 8 | 9 => canonical_string
  | 10 => canonical_unit

theorem canonical_codec {f32 : Codec F} {peerId : Codec P} (hf : f32.Canonical)
    (hp : peerId.Canonical) : (codec f32 peerId).Canonical :=
  (canonical_tagged (canonical_payload hf hp)).map fun x _ => toPayload_ofPayload x

/-- The fields have the sizes that their types promise. -/
def Sized (f32 : Codec F) (peerId : Codec P) : SwarmMessage F P Bytes → Prop
  | .authChallenge nonce publicKey => nonce.length = 32 ∧ publicKey.length = 32
  | .authResponse nodeId tokenHash publicKey =>
    nodeId.utf8ByteSize < 2 ^ 64 ∧ tokenHash.length < 2 ^ 64 ∧ publicKey.length = 32
  | .nodeAnnounce deviceId peerId profile initialStatus =>
    deviceId.utf8ByteSize < 2 ^ 64 ∧ (∀ p, peerId = some p → p.utf8ByteSize < 2 ^ 64) ∧
      profile.Sized ∧ f32.Fits initialStatus.cpuUsage
  | .joinResponse assignedLayers totalLayers encryptedClusterKey =>
    (assignedLayers.length < 2 ^ 64 ∧ ∀ l ∈ assignedLayers, l < 2 ^ 32) ∧
      totalLayers < 2 ^ 32 ∧ encryptedClusterKey.length < 2 ^ 64
  | .processTask task => task.Sized peerId
  | .taskResult result => result.Sized f32
  | .statusUpdate status => f32.Fits status.cpuUsage
  | .rebalanceCommand newLayers => newLayers.length < 2 ^ 64 ∧ ∀ l ∈ newLayers, l < 2 ^ 32
  | .rebalanceAck text | .drainRequest text => text.utf8ByteSize < 2 ^ 64
  | .heartbeat => True

theorem fits_codec (f32 : Codec F) (peerId : Codec P) {msg : SwarmMessage F P Bytes} :
    (codec f32 peerId).Fits msg ↔ msg.Sized f32 peerId := by
  have hpayload : (codec f32 peerId).Fits msg ↔
      (payload f32 peerId msg.toPayload.1).Fits msg.toPayload.2 := Iff.rfl
  rw [hpayload]
  cases msg <;> simp [toPayload, payload, Sized]

/-- `bincode::serialize`. -/
def serialize (f32 : Codec F) (peerId : Codec P) (msg : SwarmMessage F P Bytes) : Bytes :=
  (codec f32 peerId).encode msg

/-- `bincode::deserialize`, which ignores what follows the message. -/
def deserialize (f32 : Codec F) (peerId : Codec P) (bytes : Bytes) :
    Except String (SwarmMessage F P Bytes) :=
  match (codec f32 peerId).decode bytes with
  | .ok (msg, _) => .ok msg
  | .error e => .error e

variable {f32 : Codec F} {peerId : Codec P}

theorem deserialize_serialize_append {msg : SwarmMessage F P Bytes}
    (h : msg.Sized f32 peerId) (rest : Bytes) :
    deserialize f32 peerId (msg.serialize f32 peerId ++ rest) = .ok msg := by
  have hread := (codec f32 peerId).decode_append ((fits_codec f32 peerId).2 h) rest
  simp only [deserialize, serialize, hread]

theorem sized_of_deserialize (hf : f32.Canonical) (hp : peerId.Canonical) {bytes : Bytes}
    {msg : SwarmMessage F P Bytes} (h : deserialize f32 peerId bytes = .ok msg) :
    msg.Sized f32 peerId ∧ ∃ rest, bytes = msg.serialize f32 peerId ++ rest := by
  rw [deserialize] at h
  split at h
  · rename_i msg' rest hread
    cases h
    obtain ⟨hfits, hbytes⟩ := (canonical_codec hf hp).sound hread
    exact ⟨(fits_codec f32 peerId).1 hfits, rest, hbytes⟩
  · cases h

/-- What is accepted is an encoding of a message with the sizes of its types, and what follows. -/
theorem deserialize_eq_ok_iff (hf : f32.Canonical) (hp : peerId.Canonical) (bytes : Bytes)
    (msg : SwarmMessage F P Bytes) :
    deserialize f32 peerId bytes = .ok msg ↔
      msg.Sized f32 peerId ∧ ∃ rest, bytes = msg.serialize f32 peerId ++ rest := by
  constructor
  · exact sized_of_deserialize hf hp
  · rintro ⟨hsized, rest, rfl⟩
    exact deserialize_serialize_append hsized rest

/-- The bytes of a `JoinResponse`, a `1` after them: the tag, two layers after their number, the
total and a key of three bytes after its length. -/
def joinResponseBytes : Bytes :=
  [3, 0, 0, 0, 2, 0, 0, 0, 0, 0, 0, 0, 0, 0, 0, 0, 1, 0, 0, 0, 32, 0, 0, 0,
    3, 0, 0, 0, 0, 0, 0, 0, 1, 2, 3] ++ [1]

theorem deserialize_eq_ok_iff_joinResponse :
    deserialize uint32 bytes joinResponseBytes =
      .ok (.joinResponse [0, 1] 32 [1, 2, 3] : SwarmMessage UInt32 Bytes Bytes) := by
  refine (deserialize_eq_ok_iff canonical_uint32 canonical_bytes _ _).2 ⟨?_, [1], ?_⟩
  · simp [Sized]
  · decide

/-- A message cut short is not accepted, whatever message it is. -/
theorem not_deserialize_of_cut (hf : f32.Canonical) (hp : peerId.Canonical)
    {msg : SwarmMessage F P Bytes} (h : msg.Sized f32 peerId) {n : ℕ}
    (hn : n < (msg.serialize f32 peerId).length) (msg' : SwarmMessage F P Bytes) :
    deserialize f32 peerId ((msg.serialize f32 peerId).take n) ≠ .ok msg' := by
  intro hok
  obtain ⟨hsized, rest, hrest⟩ := sized_of_deserialize hf hp hok
  have hprefix : msg'.serialize f32 peerId <+: msg.serialize f32 peerId := by
    apply List.IsPrefix.trans _ (List.take_prefix n _)
    exact ⟨rest, hrest.symm⟩
  obtain rfl : msg' = msg :=
    eq_of_prefix ((fits_codec f32 peerId).2 hsized) ((fits_codec f32 peerId).2 h) hprefix
  have hlen := congrArg List.length hrest
  rw [List.length_take, List.length_append] at hlen
  omega

theorem not_deserialize_of_cut_joinResponse :
    deserialize uint32 bytes
      ((serialize uint32 bytes (.joinResponse [0, 1] 32 [1, 2, 3] :
        SwarmMessage UInt32 Bytes Bytes)).take 20) ≠ .ok (.joinResponse [0] 1 []) := by
  refine not_deserialize_of_cut canonical_uint32 canonical_bytes ?_ ?_ _
  · simp [Sized]
  · decide

end SwarmMessage

end NeuralSwarm
