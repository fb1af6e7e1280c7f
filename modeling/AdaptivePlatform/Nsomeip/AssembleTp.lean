import AdaptivePlatform.Foundations.Bytes

/-!
# Assembling segmented messages

`nsi_message_assemble_tp` puts a segment of a SOME/IP-TP message into the list
of the buffers received so far. The buffers are kept in the order of their
offsets, which are stored in their `total` until the message is complete. There
are ways for the first buffer, for the last segment, and for a segment behind
all others while the last one is missing; any other segment is inserted after a
scan of the list, which also notes whether the buffers before it leave a gap.
-/
namespace AdaptivePlatform.Nsomeip

/-- `NSI_MSGEXT_SIZE`: the part of the header that the length field counts. -/
def msgextSize : ℕ := 8

/-- A received buffer; `total` is its offset in the message while that is assembled. -/
structure TpBuf where
  total : ℕ
  data : List uint8
  deriving DecidableEq, Repr

def TpBuf.offend (c : TpBuf) : ℕ := c.total + c.data.length

/-- A message that is being assembled: its buffers, its length field, and whether its last
segment was seen. -/
structure TpMessage where
  payload : List TpBuf := []
  len : uint32 := BitVec.ofNat 32 msgextSize
  last : Bool := false

/-- What the scan of the buffers finds for a new one: a buffer that it overlaps, or the list with
the new buffer in its place. `gap` is set if the buffers before the new one, or the new one and
the next, do not join. -/
inductive TpScan
  | overlaps (c : TpBuf)
  | placed (payload : List TpBuf) (gap : Bool)
  deriving DecidableEq, Repr

def TpScan.behind (c : TpBuf) : TpScan → TpScan
  | .overlaps c' => .overlaps c'
  | .placed payload gap => .placed (c :: payload) gap

/-- The loop of the slow way. `hole` is set behind a gap, `position` is where the buffers passed
so far end. -/
def scanTp (b : TpBuf) : List TpBuf → Bool → ℕ → TpScan
  | [], hole, position => .placed [b] (hole || position ≠ b.total)
  | c :: payload, hole, position =>
    if b.offend ≤ c.total then
      .placed (b :: c :: payload) (hole || position ≠ b.total || c.total ≠ b.offend)
    else if c.offend ≤ b.total then
      if hole then (scanTp b payload true position).behind c
      else if c.total ≠ position then (scanTp b payload true position).behind c
      else (scanTp b payload false c.offend).behind c
    else .overlaps c

section

variable {b c : TpBuf} {payload : List TpBuf} {hole : Bool} {position : ℕ}

theorem scanTp_of_before (h : b.offend ≤ c.total) :
    scanTp b (c :: payload) hole position =
      .placed (b :: c :: payload) (hole || position ≠ b.total || c.total ≠ b.offend) := by
  rw [scanTp, if_pos h]

theorem scanTp_of_behind (h : ¬ b.offend ≤ c.total) (h' : c.offend ≤ b.total) :
    scanTp b (c :: payload) hole position =
      (scanTp b payload (hole || c.total ≠ position)
        (if hole || c.total ≠ position then position else c.offend)).behind c := by
  rw [scanTp, if_neg h, if_pos h']
  cases hole with
  | true => simp
  | false =>
    by_cases hjoin : c.total = position
    · simp [hjoin]
    · simp [hjoin]

theorem scanTp_of_overlap (h : ¬ b.offend ≤ c.total) (h' : ¬ c.offend ≤ b.total) :
    scanTp b (c :: payload) hole position = .overlaps c := by
  rw [scanTp, if_neg h, if_neg h']

end

namespace TpMessage

variable (m : TpMessage)

/-- The message with other buffers, longer by the new one. -/
def grow (b : TpBuf) (payload : List TpBuf) : TpMessage :=
  { m with payload := payload, len := m.len + BitVec.ofNat 32 b.data.length }

def setLast (last : Bool) : TpMessage := { m with last := last }

def completeTp : ℤ × TpMessage :=
  (1, { m with payload := m.payload.map fun c => { c with total := c.data.length } })

/-- The buffers, of which the last ends at `offend`, have the length of the message. -/
def isComplete (offend : ℕ) : Bool := m.len.toNat = offend + msgextSize

/-- `_repeat`: a segment that was received before is ignored, any other one that overlaps a buffer
is an error. -/
def repeatTp (c b : TpBuf) : ℤ × TpMessage :=
  if c.total = b.total ∧ c.offend = b.offend then (0, m)
  else (-1, { m with payload := m.payload ++ [b] })

/-- The slow way -/
def insertTp (b : TpBuf) : ℤ × TpMessage :=
  match scanTp b m.payload false 0 with
  | .overlaps c => m.repeatTp c b
  | .placed payload gap =>
    if gap || !m.last then (0, m.grow b payload)
    else if (m.grow b payload).isComplete ((payload.getLast?.map TpBuf.offend).getD 0) then
      (m.grow b payload).completeTp
    else (0, m.grow b payload)

/-- `nsi_message_assemble_tp`: the result is 1 if the message is complete, 0 if it is not, and -1
if the segment does not fit. -/
def assembleTp (data : List uint8) (start : ℕ) (more : Bool) : ℤ × TpMessage :=
  let b : TpBuf := ⟨start, data⟩
  match m.payload.getLast? with
  | none =>
    if !more && start = 0 then ((m.grow b [b]).setLast true).completeTp
    else (0, (m.grow b [b]).setLast !more)
  | some c =>
    if more = false then
      if m.last then m.repeatTp c b
      else if c.offend ≤ start then
        if (m.grow b (m.payload ++ [b])).isComplete b.offend then
          ((m.grow b (m.payload ++ [b])).setLast true).completeTp
        else (0, (m.grow b (m.payload ++ [b])).setLast true)
      else (m.setLast true).insertTp b
    else if !m.last && c.offend ≤ start then (0, m.grow b (m.payload ++ [b]))
    else m.insertTp b

variable {m} {more : Bool} {b c : TpBuf}

theorem isComplete_setLast (last : Bool) (offend : ℕ) :
    (m.setLast last).isComplete offend = m.isComplete offend := rfl

theorem assembleTp_of_nil (h : m.payload = []) :
    m.assembleTp b.data b.total more =
      if !more && b.total = 0 then ((m.grow b [b]).setLast true).completeTp
      else (0, (m.grow b [b]).setLast !more) := by
  simp [assembleTp, h]

theorem assembleTp_last (h : m.payload.getLast? = some c) :
    m.assembleTp b.data b.total false =
      if m.last then m.repeatTp c b
      else if c.offend ≤ b.total then
        if (m.grow b (m.payload ++ [b])).isComplete b.offend then
          ((m.grow b (m.payload ++ [b])).setLast true).completeTp
        else (0, (m.grow b (m.payload ++ [b])).setLast true)
      else (m.setLast true).insertTp b := by
  simp [assembleTp, h]

theorem assembleTp_more (h : m.payload.getLast? = some c) :
    m.assembleTp b.data b.total true =
      if !m.last && c.offend ≤ b.total then (0, m.grow b (m.payload ++ [b]))
      else m.insertTp b := by
  simp [assembleTp, h]

theorem repeatTp_self : m.repeatTp b b = (0, m) := if_pos ⟨rfl, rfl⟩

theorem insertTp_of_overlaps (h : scanTp b m.payload false 0 = .overlaps c) :
    m.insertTp b = m.repeatTp c b := by
  simp [insertTp, h]

theorem insertTp_of_placed {payload : List TpBuf} {gap : Bool}
    (h : scanTp b m.payload false 0 = .placed payload gap) :
    m.insertTp b =
      if gap || !m.last then (0, m.grow b payload)
      else if (m.grow b payload).isComplete ((payload.getLast?.map TpBuf.offend).getD 0) then
        (m.grow b payload).completeTp
      else (0, m.grow b payload) := by
  simp [insertTp, h]

end TpMessage

end AdaptivePlatform.Nsomeip
