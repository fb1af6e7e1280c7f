import AdaptivePlatform.Foundations.Bytes
import AdaptivePlatform.Foundations.RingIndex

/-!
# Message ports in shared memory

A port is a ring of references to packets. The sender puts packets in at `head`
and frees them at `last`; each peer reads at a pointer of its own and releases
messages in any order. What it has released up to the first message that it still
holds is published as the `next` pointer of its entry in the peer array.
`npc_port_handle_send` computes from these pointers how many slots are in use and
frees the others.
-/
namespace AdaptivePlatform.Npc

open RingIndex
open Function (update)

/-- The sizes a port is created with. -/
structure PortConf where
  pcount : ℕ
  qcount : ℕ
  two_le : 2 ≤ qcount
  qcount_lt : qcount < 2 ^ 16

/-- An entry of the peer array; `peer` is 0 in an entry that is not used. -/
structure MPeer where
  next : BitVec 15 := 0
  peer : uint16 := 0

/-- A message that was read and not released. `message` is what its packet held, `number` is a
ghost: the how-many-th message of the port it was. -/
structure Held (M : Type*) where
  qindex : ℕ
  ref : uint32
  message : Option M
  number : ℕ

/-- The port of a reading peer. `got` and `added` are ghosts: what the peer found in the slots,
and the number of messages that were queued when it was added. -/
structure Reader (M : Type*) where
  last : ℕ := 0
  next : ℕ := 0
  stat : ℕ → Bool := fun _ => false
  held : List (Held M) := []
  got : List (Option M) := []
  added : ℕ := 0

/-- The port, with the port objects of the sender and of all peers. `zone` holds the packets that
are allocated. `sent` and `freed` are ghosts: the messages that were queued, and how many of
their slots were freed. -/
structure Port (M : Type*) (conf : PortConf) where
  head : ℕ := 0
  last : ℕ := 0
  peers : Fin conf.pcount → MPeer := fun _ => {}
  readers : Fin conf.pcount → Reader M := fun _ => {}
  mqueue : ℕ → uint32 := fun _ => 0
  zone : uint32 → Option M := fun _ => none
  send : List M := []
  wait : List M := []
  sent : List M := []
  freed : ℕ := 0

/-- What `npc_port_unpack_message` says to a packet. -/
inductive Unpacked
  | taken
  | exists
  | failed
  deriving DecidableEq, Repr

namespace Reader

variable {M : Type*} (q : ℕ) (r : Reader M)

/-- The read pointer moves over a packet. -/
def skip (message : Option M) : Reader M :=
  { r with next := succ q r.next, got := r.got ++ [message] }

/-- The same for a packet that is taken: its slot is marked as read. -/
def take (ref : uint32) (message : Option M) : Reader M :=
  { r.skip q message with
    stat := update r.stat r.next true
    held := ⟨r.next, ref, message, r.added + r.got.length⟩ :: r.held }

/-- The mark of the `k`-th message that is held is taken away. -/
def unmark (k : ℕ) (h : Held M) : Reader M :=
  { r with stat := update r.stat h.qindex false, held := r.held.eraseIdx k }

/-- The loop of `npc_port_seen`: behind `last`, up to the next message that is held. -/
def seenLoop : ℕ → ℕ → ℕ
  | 0, last => last
  | rounds + 1, last =>
    let last := succ q last
    if last = r.next ∨ r.stat last = true then last else seenLoop rounds last

/-- `npc_port_seen`; it ends within a round. -/
def seen : Reader M := { r with last := r.seenLoop q q r.last }

end Reader

namespace Port

variable {M : Type*} {conf : PortConf} (p : Port M conf) (n : Fin conf.pcount)

/-- The entry is used. -/
def Attached : Prop := (p.peers n).peer ≠ 0

instance (n : Fin conf.pcount) : Decidable (p.Attached n) := inferInstanceAs (Decidable (_ ≠ _))

/-! ### The sender -/

/-- `npc_port_queue` for a packet at `ref`, or without one if the zone is full. A reference that
is in use is not allocated. -/
def queue (m : M) : Option uint32 → Option (Port M conf)
  | none => some p
  | some ref =>
    if (p.zone ref).isSome then none
    else some { p with
      zone := update p.zone ref (some m)
      mqueue := update p.mqueue p.head ref
      head := succ conf.qcount p.head
      send := p.send ++ [m]
      sent := p.sent ++ [m] }

/-- The space that `npc_port_send` finds in the queue. -/
def left : ℕ := if p.last ≤ p.head then p.last + (conf.qcount - p.head) else p.last - p.head

def sendMessage (m : M) (ref : Option uint32) : Option (Port M conf) :=
  if p.left ≤ 1 then some p else p.queue m ref

/-- The slots in use, as `npc_port_handle_send` counts them. -/
def inuse : ℕ :=
  (List.finRange conf.pcount).foldl
    (fun inuse n =>
      if p.Attached n then max inuse (behind conf.qcount p.head (p.peers n).next.toNat)
      else inuse) 0

/-- A slot is freed and its message taken off the sending list. -/
def freeSlot : Port M conf :=
  { p with
    zone := update p.zone (p.mqueue p.last) none
    last := succ conf.qcount p.last
    send := p.send.tail
    freed := p.freed + 1 }

/-- Slots are freed up to `tail`, which is reached within a round. -/
def freeUntil (tail : ℕ) : ℕ → Port M conf → Port M conf
  | 0, p => p
  | rounds + 1, p => if p.last = tail then p else freeUntil tail rounds p.freeSlot

/-- Blocked messages are posted as long as more than one slot is `left`; `refs` are the references
that their packets get. -/
def post : ℕ → (ℕ → Option uint32) → Port M conf → Option (Port M conf)
  | left + 2, refs, p =>
    match p.wait with
    | [] => some p
    | m :: wait =>
      ({ p with wait := wait }.queue m (refs 0)).bind (post (left + 1) fun k => refs (k + 1))
  | _, _, p => some p

def handleSend (refs : ℕ → Option uint32) : Option (Port M conf) :=
  let tail := back conf.qcount p.head p.inuse
  if tail = p.last then some p
  else (freeUntil tail conf.qcount p).post (conf.qcount - p.inuse) refs

/-! ### The peers -/

/-- `npc_port_add`, and `npc_port_attach` of the peer, which starts at the pointer of its entry. -/
def add (peer : uint16) : Port M conf :=
  if (List.finRange conf.pcount).any fun n => (p.peers n).peer == peer then p
  else
    match (List.finRange conf.pcount).find? fun n => (p.peers n).peer == 0 with
    | none => p
    | some n =>
      let next : BitVec 15 := .ofNat 15 p.head
      { p with
        peers := update p.peers n ⟨next, peer⟩
        readers := update p.readers n
          { last := next.toNat, next := next.toNat, added := p.sent.length } }

/-- A turn of the loop of `npc_port_read`. A packet that is not taken is skipped. -/
def read (unpacked : Unpacked) : Port M conf :=
  let r := p.readers n
  if r.next = p.head then p
  else
    let ref := p.mqueue r.next
    { p with
      readers := update p.readers n
        (if unpacked = .taken then r.take conf.qcount ref (p.zone ref)
        else r.skip conf.qcount (p.zone ref)) }

/-- `npc_port_handle_seen` for the `k`-th message that a peer holds. -/
def handleSeen (k : ℕ) : Option (Port M conf) :=
  let r := p.readers n
  (r.held[k]?).map fun h =>
    if r.stat h.qindex = false then
      -- it has been seen
      { p with readers := update p.readers n { r with held := r.held.eraseIdx k } }
    else if h.qindex = r.last then
      let r := (r.unmark k h).seen conf.qcount
      { p with
        readers := update p.readers n r
        peers := update p.peers n { p.peers n with next := .ofNat 15 r.last } }
    else { p with readers := update p.readers n (r.unmark k h) }

/-- What can happen to a port. -/
inductive Step (M : Type*) (conf : PortConf)
  | add (peer : uint16)
  | send (m : M) (ref : Option uint32)
  | read (n : Fin conf.pcount) (unpacked : Unpacked)
  | seen (n : Fin conf.pcount) (k : ℕ)
  | handleSend (refs : ℕ → Option uint32)

/-- Only peers that were added read and release. -/
def step (p : Port M conf) : Step M conf → Option (Port M conf)
  | .add peer => some (p.add peer)
  | .send m ref => p.sendMessage m ref
  | .read n unpacked => if p.Attached n then some (p.read n unpacked) else none
  | .seen n k => if p.Attached n then p.handleSeen n k else none
  | .handleSend refs => p.handleSend refs

end Port

end AdaptivePlatform.Npc
