import AdaptivePlatform.Foundations.SharedBuffers
import AdaptivePlatform.Nsomeip.MakeTpMsg

/-!
# Reading messages from a stream

`nsi_stream_handle_read` receives bytes into the buffer of the connection and
takes messages off it. It waits for the start of a message, for its header or
for the rest of its payload. The payload is not copied: a message refers to the
memory of the buffer, and the buffer moves on to other memory once it is used
up, unless nobody refers to it any longer.
-/
namespace AdaptivePlatform.Nsomeip

open Bytes

/-! ### Headers -/

structure MsgHdr where
  serv : uint16
  method : uint16
  len : uint32
  client : uint16
  session : uint16
  protocol : uint8
  interface : uint8
  type : uint8
  code : uint8

/-- `NSI_MSGHDR_SIZE`: the part of the header that the length field does not count. -/
def msghdrSize : ℕ := 8

/-- `sizeof(nsi_msghdr_t)` -/
def sizeofMsghdr : ℕ := 16

def sigextSize : ℕ := 0

def notification : uint8 := 0x02

def servField (h : List uint8) : uint16 := beWord 16 (h.take 2)

def methodField (h : List uint8) : uint16 := beWord 16 ((h.drop 2).take 2)

def lenField (h : List uint8) : uint32 := beWord 32 ((h.drop 4).take 4)

/-- `nsi_msghdr_ntoh_ua_1st_half` and `nsi_msghdr_ntoh_ua_2nd_half` -/
def normalHdr (h : List uint8) : MsgHdr where
  serv := servField h
  method := methodField h
  len := lenField h
  client := beWord 16 ((h.drop 8).take 2)
  session := beWord 16 ((h.drop 10).take 2)
  protocol := beWord 8 ((h.drop 12).take 1)
  interface := beWord 8 ((h.drop 13).take 1)
  type := beWord 8 ((h.drop 14).take 1)
  code := beWord 8 ((h.drop 15).take 1)

/-- The header that a signal gets. It keeps the same length as a normal one. -/
def signalHdr (h : List uint8) : MsgHdr where
  serv := servField h
  method := methodField h
  len := lenField h + BitVec.ofNat 32 (msgextSize - sigextSize)
  client := 0
  session := 0
  protocol := -1
  interface := -1
  type := notification
  code := 0

/-- The part of the configuration that the reader uses. `isSignal` is the answer of the callback
for any instance of a service, `bsize` the size of the buffers of the network. -/
structure StreamConf where
  isLocal : Bool
  msgLimit : uint32
  isSignal : uint16 → uint16 → Bool
  bsize : ℕ
  bsize_ge : 64 * 1024 - 64 ≤ bsize

def StreamConf.endpointIsSignal (conf : StreamConf) (serv method : uint16) : Bool :=
  !conf.isLocal && conf.isSignal serv method

/-- `c->in.evt`: the last lookup -/
structure EventCache where
  serv : uint16
  method : uint16
  sig : Bool

section

variable (conf : StreamConf) (evt : EventCache) (serv method : uint16)

/-- `nsi_stream_incoming_is_signal`, which leaves its result in the cache -/
def StreamConf.lookup : EventCache :=
  if evt.serv ≠ serv ∨ evt.method ≠ method then ⟨serv, method, conf.endpointIsSignal serv method⟩
  else evt

/-- `is_signal` for a header, and the cache afterwards -/
def StreamConf.classify (h : List uint8) : Bool × EventCache :=
  if conf.isLocal then (false, evt)
  else
    let evt := conf.lookup evt (servField h) (methodField h)
    (evt.sig, evt)

/-- What `NSI_STREAM_HEAD` finds: too few bytes, a length above the limit, or a header of the given
size. -/
inductive Head
  | more (evt : EventCache)
  | tooLong
  | header (evt : EventCache) (size : ℕ) (hdr : MsgHdr)

/-- `case NSI_STREAM_HEAD` for the bytes received so far -/
def StreamConf.readHead (h : List uint8) : Head :=
  if h.length < msghdrSize then .more evt
  else if conf.msgLimit < lenField h then .tooLong
  else if (conf.classify evt h).1 then .header (conf.classify evt h).2 msghdrSize (signalHdr h)
  else if h.length < sizeofMsghdr then .more (conf.classify evt h).2
  else .header (conf.classify evt h).2 sizeofMsghdr (normalHdr h)

end

/-- `m->hdr.len - (NSI_MSGEXT_SIZE - NSI_SIGEXT_SIZE)`, computed as `size_t` -/
def MsgHdr.payloadLen (hdr : MsgHdr) : uint64 :=
  hdr.len.setWidth 64 - BitVec.ofNat 64 (msgextSize - sigextSize)

/-! ### The reader -/

/-- `c->in.incoming`: a message whose payload is not complete -/
structure Incoming where
  hdr : MsgHdr
  payload : List View := []

/-- `c->read`, with `c->in.incoming` and `c->in.msglen` -/
inductive ReadStat
  | wait
  | head
  | payload (m : Incoming) (msglen : uint64)

/-- A message as it is handed to `nsi_stream_handle_incoming`. -/
structure StreamMessage where
  hdr : MsgHdr
  payload : List uint8

/-- The reading side of a connection; `handed` are the messages so far, `error` is the error that
was reported. -/
structure NsiStream (conf : StreamConf) where
  buf : SharedBuffer conf.bsize
  read : ReadStat := .wait
  evt : EventCache
  handed : List StreamMessage := []
  error : Option Errno := none

namespace NsiStream

variable {conf : StreamConf} (c : NsiStream conf)

/-- What a pass through `while (enough)` comes to: another pass, or the need for more bytes. -/
inductive Pass (conf : StreamConf)
  | again (c : NsiStream conf)
  | enough (c : NsiStream conf) (needspace : ℕ)

variable (m : Incoming) (n : ℕ)

/-- The message with the next part of its payload is handed over. -/
def handOver : NsiStream conf :=
  { c with
    buf := c.buf.share n
    handed := c.handed ++
      [⟨m.hdr, (m.payload ++ [c.buf.front n]).flatMap (c.buf.share n).bytes⟩] }

/-- `case NSI_STREAM_PAYLOAD` -/
def readPayload (msglen : uint64) : Pass conf :=
  if c.buf.size < msglen.toNat then
    if c.buf.total ≤ c.buf.size then
      .enough { c with
        buf := c.buf.share c.buf.size
        read := .payload { m with payload := m.payload ++ [c.buf.front c.buf.size] }
          (msglen - BitVec.ofNat 64 c.buf.size) } 0
    else .enough { c with read := .payload m msglen } 0
  else if 0 < (c.handOver m msglen.toNat).buf.size then
    .again { c.handOver m msglen.toNat with read := .head }
  else .enough { c.handOver m msglen.toNat with read := .wait } sizeofMsghdr

/-- The header is taken off the buffer. -/
def takeHeader (evt : EventCache) (size : ℕ) : NsiStream conf :=
  { c with buf := c.buf.consume size, evt := evt }

/-- One pass through `while (enough)` -/
def pass : Pass conf :=
  match c.read with
  | .payload m msglen => c.readPayload m msglen
  | _ =>
    match conf.readHead c.evt c.buf.content with
    | .more evt => .enough { c with read := .head, evt := evt } (sizeofMsghdr - c.buf.size)
    | .tooLong => .enough { c with read := .head, error := some .emsgsize } 0
    | .header evt size hdr => (c.takeHeader evt size).readPayload ⟨hdr, []⟩ hdr.payloadLen

/-- No payload is being read. -/
def AtHead : Prop := c.read = .wait ∨ c.read = .head

/-- A pass takes a header or ends a message. -/
def measure : ℕ :=
  match c.read with
  | .payload _ _ => 2 * c.buf.size + 1
  | _ => 2 * c.buf.size

theorem size_handOver : (c.handOver m n).buf.size = c.buf.size - n := rfl

variable {c} {m : Incoming} {msglen : uint64} {c' : NsiStream conf}

theorem readPayload_again (h : c.readPayload m msglen = .again c') :
    c'.measure ≤ 2 * c.buf.size := by
  unfold readPayload at h
  split_ifs at h
  obtain rfl := Pass.again.inj h
  simp only [measure, size_handOver]
  omega

theorem size_pos_of_header {evt evt' : EventCache} {h : List uint8} {size : ℕ} {hdr : MsgHdr}
    (hhead : conf.readHead evt h = .header evt' size hdr) : 0 < size ∧ size ≤ h.length := by
  unfold StreamConf.readHead at hhead
  split_ifs at hhead with h8 hlimit hsig h16
  · obtain ⟨-, rfl, -⟩ := Head.header.inj hhead
    exact ⟨by decide, Nat.le_of_not_lt h8⟩
  · obtain ⟨-, rfl, -⟩ := Head.header.inj hhead
    exact ⟨by decide, Nat.le_of_not_lt h16⟩

theorem atHead_or_payload : c.AtHead ∨ ∃ m msglen, c.read = .payload m msglen := by
  cases hread : c.read with
  | wait => exact Or.inl (Or.inl hread)
  | head => exact Or.inl (Or.inr hread)
  | payload m msglen => exact Or.inr ⟨m, msglen, rfl⟩

theorem pass_of_payload (h : c.read = .payload m msglen) : c.pass = c.readPayload m msglen := by
  simp [pass, h]

theorem AtHead.pass_eq (h : c.AtHead) :
    c.pass =
      match conf.readHead c.evt c.buf.content with
      | .more evt => .enough { c with read := .head, evt := evt } (sizeofMsghdr - c.buf.size)
      | .tooLong => .enough { c with read := .head, error := some .emsgsize } 0
      | .header evt size hdr => (c.takeHeader evt size).readPayload ⟨hdr, []⟩ hdr.payloadLen := by
  unfold pass
  rcases h with h | h
  · rw [h]
  · rw [h]

theorem measure_lt_of_again (h : c.pass = .again c') : c'.measure < c.measure := by
  rcases c.atHead_or_payload with hread | ⟨m, msglen, hread⟩
  · have hmeasure : c.measure = 2 * c.buf.size := by
      rcases hread with hread | hread <;> simp [measure, hread]
    rw [hread.pass_eq] at h
    split at h
    · cases h
    · cases h
    · rename_i evt size hdr hhead
      obtain ⟨hpos, hsize⟩ := size_pos_of_header hhead
      have hle := readPayload_again h
      rw [SharedBuffer.length_content] at hsize
      simp only [takeHeader, SharedBuffer.consume] at hle
      omega
  · have hmeasure : c.measure = 2 * c.buf.size + 1 := by simp only [measure, hread]
    rw [pass_of_payload hread] at h
    have hle := readPayload_again h
    omega

/-- `while (enough)`: the connection, and the space needed for what is missing -/
def readLoop (c : NsiStream conf) : NsiStream conf × ℕ :=
  match _h : c.pass with
  | .again c' => readLoop c'
  | .enough c' needspace => (c', needspace)
termination_by c.measure
decreasing_by exact measure_lt_of_again _h

/-- What a read brings: the bytes, and whether the application still refers to a part of the
memory at this time. `alloc` is the buffer that `nsi_network_create_buf` finds, to which nobody
refers. -/
structure Arrival where
  data : List uint8
  holds : View → Bool
  alloc : List View → ℕ
  alloc_new : ∀ views, ∀ v ∈ views, v.obj ≠ alloc views

variable (c : NsiStream conf) (a : Arrival)

/-- The parts of the memory to which the message refers that is being received. -/
def pending : List View :=
  match c.read with
  | .payload m _ => m.payload
  | _ => []

/-- The buffer without the references that were given up by now. -/
def heldBuf : SharedBuffer conf.bsize := c.buf.release fun v => v ∈ c.pending || a.holds v

/-- `nsi_endpoint_realloc_buf`: without other references to it the memory is used again. -/
def reallocBuf : NsiStream conf :=
  if h : ∀ v ∈ (c.heldBuf a).views, v.obj ≠ c.buf.obj then
    { c with buf := (c.heldBuf a).moveTo c.buf.obj h }
  else { c with buf := (c.heldBuf a).moveTo (a.alloc (c.heldBuf a).views) (a.alloc_new _) }

/-- One pass through the outer loop of `nsi_stream_handle_read`. A read gets at least one byte, and
at most as many as there is space for; the connection is not read from after an error. -/
def recv : Option (NsiStream conf) :=
  if c.error.isSome then some c
  else if a.data = [] ∨ c.buf.total - c.buf.size < a.data.length then none
  else
    let (c', needspace) := { c with buf := c.buf.receive a.data }.readLoop
    if c'.error.isSome then some c'
    else if c'.buf.total - c'.buf.size < needspace ∨
        (c'.buf.total - c'.buf.size = 0 ∧ c'.buf.size = 0) then some (c'.reallocBuf a)
    else some c'

end NsiStream

end AdaptivePlatform.Nsomeip
