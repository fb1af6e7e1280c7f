import Mathlib.Data.List.MinMax
import AdaptivePlatform.Foundations.Cutters
import AdaptivePlatform.Foundations.Runs
import AdaptivePlatform.Nsomeip.StreamRead

/-!
# What the reader hands over

The reader finds a message at the start of what it has received, needs more, or
reports an error. What it hands over is what this cuts off the stream, however
the stream was split into reads and wherever the buffer was moved in between.
`outcome` says what will come of the rest of the stream from any state of the
reader on; no step of the reader changes it.
-/
namespace AdaptivePlatform.Nsomeip

open List Option
open Nat (le_of_not_lt)
open NsiStream (error handed read)
open BitVec (ofNat)
open SharedBuffer (bytes_front content_share empty length_content)
open Or (inl inr)

/-! ### Headers -/

theorem take_drop_append_of_le {l : List uint8} {k n : ℕ} (h : k + n ≤ l.length) (t : List uint8) :
    ((l ++ t).drop k).take n = (l.drop k).take n := by
  rw [drop_append_of_le_length (by omega), take_append_of_le_length]
  rw [length_drop]
  omega

section

variable {l : List uint8} (h : msghdrSize ≤ l.length) (t : List uint8)

include h

theorem servField_append : servField (l ++ t) = servField l := by
  rw [msghdrSize] at h
  rw [servField, servField, take_append_of_le_length (by omega)]

theorem methodField_append : methodField (l ++ t) = methodField l := by
  rw [msghdrSize] at h
  rw [methodField, methodField, take_drop_append_of_le (by omega)]

theorem lenField_append : lenField (l ++ t) = lenField l := by
  rw [msghdrSize] at h
  rw [lenField, lenField, take_drop_append_of_le (by omega)]

theorem signalHdr_append : signalHdr (l ++ t) = signalHdr l := by
  rw [signalHdr, signalHdr, servField_append h, methodField_append h, lenField_append h]

theorem classify_append (conf : StreamConf) (evt : EventCache) :
    conf.classify evt (l ++ t) = conf.classify evt l := by
  rw [StreamConf.classify, StreamConf.classify, servField_append h, methodField_append h]

end

theorem normalHdr_append {l : List uint8} (h : sizeofMsghdr ≤ l.length) (t : List uint8) :
    normalHdr (l ++ t) = normalHdr l := by
  have h8 : msghdrSize ≤ l.length := le_trans (by decide) h
  rw [sizeofMsghdr] at h
  simp only [normalHdr, servField_append h8, methodField_append h8, lenField_append h8]
  congr 2 <;> exact take_drop_append_of_le (by omega) t

namespace StreamConf

variable (conf : StreamConf)

/-- The second lookup of a header finds the result of the first. -/
theorem classify_classify (evt : EventCache) (h : List uint8) :
    conf.classify (conf.classify evt h).2 h = conf.classify evt h := by
  unfold classify lookup
  split_ifs <;> simp_all

variable {conf} {evt evt' : EventCache} {l : List uint8}

theorem readHead_append_of_tooLong (h : conf.readHead evt l = .tooLong) (t : List uint8) :
    conf.readHead evt (l ++ t) = .tooLong := by
  unfold readHead at h
  split_ifs at h with h8 hlimit
  have h8 := le_of_not_lt h8
  rw [readHead, if_neg, lenField_append h8, if_pos hlimit]
  rw [length_append]
  omega

theorem readHead_append_of_header {size : ℕ} {hdr : MsgHdr}
    (h : conf.readHead evt l = .header evt' size hdr) (t : List uint8) :
    conf.readHead evt (l ++ t) = .header evt' size hdr := by
  unfold readHead at h
  split_ifs at h with h8 hlimit hsig h16
  · have h8 := le_of_not_lt h8
    rw [readHead, if_neg (by rw [length_append]; omega), lenField_append h8, if_neg hlimit,
      classify_append h8, if_pos hsig, signalHdr_append h8, h]
  · have h8 := le_of_not_lt h8
    have h16 := le_of_not_lt h16
    rw [readHead, if_neg (by rw [length_append]; omega), lenField_append h8, if_neg hlimit,
      classify_append h8, if_neg hsig, if_neg (by rw [length_append]; omega),
      normalHdr_append h16, h]

/-- The cache may be ahead of the bytes: the lookup is made before the header is complete. -/
theorem readHead_append_of_more (h : conf.readHead evt l = .more evt') (t : List uint8) :
    conf.readHead evt' (l ++ t) = conf.readHead evt (l ++ t) := by
  unfold readHead at h
  split_ifs at h with h8 hlimit hsig h16
  · rw [Head.more.inj h]
  · have h8 := le_of_not_lt h8
    have hlong : ¬ (l ++ t).length < msghdrSize := by
      rw [length_append]
      omega
    obtain rfl := Head.more.inj h
    simp only [readHead, classify_append h8, classify_classify, if_neg hlong]

theorem length_lt_of_more (h : conf.readHead evt l = .more evt') : l.length < sizeofMsghdr := by
  unfold readHead at h
  split_ifs at h with h8 hlimit hsig h16
  · exact h8.trans (by decide)
  · exact h16

/-- What the reader finds at the start of a stream. -/
def find (conf : StreamConf) (evt : EventCache) (l : List uint8) : Found EventCache StreamMessage :=
  match conf.readHead evt l with
  | .more _ => .more
  | .tooLong => .fail
  | .header evt' size hdr =>
    if l.length - size < hdr.payloadLen.toNat then .more
    else .item ⟨hdr, (l.drop size).take hdr.payloadLen.toNat⟩ (size + hdr.payloadLen.toNat) evt'

def cutter (conf : StreamConf) : Cutter EventCache uint8 StreamMessage where
  find := conf.find
  length_le := by
    intro evt l m n evt' h
    unfold find at h
    split at h
    · cases h
    · cases h
    · rename_i evt'' size hdr hhead
      split_ifs at h with hlen
      obtain ⟨-, rfl, -⟩ := Found.item.inj h
      obtain ⟨hpos, hle⟩ := NsiStream.size_pos_of_header hhead
      omega

variable {size : ℕ} {hdr : MsgHdr}

theorem find_of_header (h : conf.readHead evt l = .header evt' size hdr) :
    conf.find evt l =
      if l.length - size < hdr.payloadLen.toNat then .more
      else .item ⟨hdr, (l.drop size).take hdr.payloadLen.toNat⟩ (size + hdr.payloadLen.toNat)
        evt' := by
  simp [find, h]

theorem cut_append_of_more (h : conf.readHead evt l = .more evt') (t : List uint8) :
    conf.cutter.cut evt' (l ++ t) = conf.cutter.cut evt (l ++ t) := by
  apply Cutter.cut_congr
  change conf.find evt' (l ++ t) = conf.find evt (l ++ t)
  rw [find, find, readHead_append_of_more h]

theorem cut_of_readHead_more (h : conf.readHead evt l = .more evt') :
    conf.cutter.cut evt l = {} := by
  apply Cutter.cut_of_more
  change conf.find evt l = .more
  simp [find, h]

theorem cut_append_of_tooLong (h : conf.readHead evt l = .tooLong) (t : List uint8) :
    conf.cutter.cut evt (l ++ t) = { failed := true } := by
  apply Cutter.cut_of_fail
  change conf.find evt (l ++ t) = .fail
  simp [find, readHead_append_of_tooLong h]

end StreamConf

namespace NsiStream

variable {conf : StreamConf} (c : NsiStream conf)

/-- What comes of the rest of the stream while the payload of a message is read. -/
def payloadOutcome (m : Incoming) (msglen : uint64) (t : List uint8) : Cut StreamMessage :=
  if (c.buf.content ++ t).length < msglen.toNat then { items := c.handed }
  else
    (conf.cutter.cut c.evt ((c.buf.content ++ t).drop msglen.toNat)).after
      (c.handed ++
        [⟨m.hdr, m.payload.flatMap c.buf.bytes ++ (c.buf.content ++ t).take msglen.toNat⟩])

/-- What has been handed over, and what comes of the rest of the stream. -/
def outcome (t : List uint8) : Cut StreamMessage :=
  if c.error.isSome then { items := c.handed, failed := true }
  else
    match c.read with
    | .payload m msglen => c.payloadOutcome m msglen t
    | _ => (conf.cutter.cut c.evt (c.buf.content ++ t)).after c.handed

/-- The message that is being received refers to memory that is kept. -/
def Valid : Prop := ∀ v ∈ c.pending, v ∈ c.buf.views

/-- Nothing more can be handed over, and there is or will be space to read on. -/
structure Ready (needspace : ℕ) : Prop where
  valid : c.Valid
  settled : c.outcome [] = { items := c.handed, failed := c.error.isSome }
  size_lt : c.error = none → c.buf.size < conf.bsize
  room : c.error = none → c.buf.total - c.buf.size < needspace ∨
    (c.buf.total - c.buf.size = 0 ∧ c.buf.size = 0) ∨ c.buf.size < c.buf.total

variable {c} {m : Incoming} {msglen : uint64}

theorem outcome_of_payload (herror : c.error = none) (hread : c.read = .payload m msglen)
    (t : List uint8) : c.outcome t = c.payloadOutcome m msglen t := by
  simp [outcome, herror, hread]

theorem AtHead.outcome_eq (hread : c.AtHead) (herror : c.error = none) (t : List uint8) :
    c.outcome t = (conf.cutter.cut c.evt (c.buf.content ++ t)).after c.handed := by
  rcases hread with hread | hread <;> simp [outcome, herror, hread]

theorem payloadOutcome_share (hsize : c.buf.size < msglen.toNat) (t : List uint8) :
    { c with buf := c.buf.share c.buf.size }.payloadOutcome
        { m with payload := m.payload ++ [c.buf.front c.buf.size] }
        (msglen - ofNat 64 c.buf.size) t =
      c.payloadOutcome m msglen t := by
  have hlen := c.buf.length_content
  have hcontent : (c.buf.share c.buf.size).content = [] := by
    rw [content_share, ← hlen, drop_length]
  have hsub : (msglen - ofNat 64 c.buf.size).toNat = msglen.toNat - c.buf.size := by
    have hmod : (ofNat 64 c.buf.size).toNat = c.buf.size := by
      exact Nat.mod_eq_of_lt (hsize.trans msglen.isLt)
    have hle : ofNat 64 c.buf.size ≤ msglen := by
      rw [BitVec.le_def, hmod]
      exact hsize.le
    rw [BitVec.toNat_sub_of_le hle, hmod]
  have hshown : (m.payload ++ [c.buf.front c.buf.size]).flatMap (c.buf.share c.buf.size).bytes =
      m.payload.flatMap c.buf.bytes ++ c.buf.content := by
    rw [flatMap_append, flatMap_singleton, bytes_front, ← hlen, take_length]
    rfl
  have hlt : t.length < msglen.toNat - c.buf.size ↔ (c.buf.content ++ t).length < msglen.toNat := by
    rw [length_append, hlen]
    omega
  have hdrop : (c.buf.content ++ t).drop msglen.toNat = t.drop (msglen.toNat - c.buf.size) := by
    rw [drop_append, drop_of_length_le (by omega), nil_append, hlen]
  have htake : (c.buf.content ++ t).take msglen.toNat =
      c.buf.content ++ t.take (msglen.toNat - c.buf.size) := by
    rw [take_append, take_of_length_le (by omega), hlen]
  simp [payloadOutcome, hcontent, hsub, hshown, hlt, hdrop, htake]

theorem payloadOutcome_nil_of_lt (hsize : c.buf.size < msglen.toNat) :
    c.payloadOutcome m msglen [] = { items := c.handed } := by
  rw [payloadOutcome, append_nil, c.buf.length_content, if_pos hsize]

theorem payloadOutcome_handOver (hsize : msglen.toNat ≤ c.buf.size) (t : List uint8) :
    (conf.cutter.cut c.evt ((c.handOver m msglen.toNat).buf.content ++ t)).after
        (c.handOver m msglen.toNat).handed = c.payloadOutcome m msglen t := by
  have hlen := c.buf.length_content
  have hshown : (m.payload ++ [c.buf.front msglen.toNat]).flatMap
      (c.buf.share msglen.toNat).bytes =
        m.payload.flatMap c.buf.bytes ++ c.buf.content.take msglen.toNat := by
    rw [flatMap_append, flatMap_singleton, bytes_front]
    rfl
  have hcontent : (c.handOver m msglen.toNat).buf.content = c.buf.content.drop msglen.toNat :=
    content_share _
  rw [payloadOutcome, if_neg (by rw [length_append]; omega), hcontent,
    drop_append_of_le_length (by omega), take_append_of_le_length (by omega), handOver,
    hshown]

/-- What is left of a stream after a pass comes to the same as before it. -/
def Pass.Keeps (outcome : List uint8 → Cut StreamMessage) : Pass conf → Prop
  | .again c => c.error = none ∧ c.Valid ∧ ∀ t, c.outcome t = outcome t
  | .enough c needspace => c.Ready needspace ∧ ∀ t, c.outcome t = outcome t

theorem readPayload_keeps (herror : c.error = none) (hviews : ∀ v ∈ m.payload, v ∈ c.buf.views) :
    (c.readPayload m msglen).Keeps (c.payloadOutcome m msglen) := by
  have hbsize : 0 < conf.bsize := lt_of_lt_of_le (by decide) conf.bsize_ge
  have hwait : c.buf.size < msglen.toNat →
      c.payloadOutcome m msglen [] = { items := c.handed, failed := c.error.isSome } := by
    intro hsize
    rw [payloadOutcome_nil_of_lt hsize, herror]
    rfl
  unfold readPayload
  split_ifs with hsize hfull hleft
  · -- the buffer is full
    have hshare := payloadOutcome_share (m := m) hsize
    have hzero : (c.buf.share c.buf.size).size = 0 := Nat.sub_self c.buf.size
    have htotal := SharedBuffer.total_share_size hfull
    refine ⟨⟨?_, ?_, fun _ => hzero.trans_lt hbsize, fun _ => ?_⟩, fun t => ?_⟩
    · intro v hv
      rcases mem_append.mp hv with hv | hv
      · exact mem_cons_of_mem _ (hviews v hv)
      · rw [mem_singleton.mp hv]
        exact mem_cons_self
    · rw [outcome_of_payload (by exact herror) rfl]
      exact (hshare []).trans (hwait hsize)
    · exact inr (inl ⟨by rw [htotal, Nat.zero_sub], hzero⟩)
    · rw [outcome_of_payload (by exact herror) rfl]
      exact hshare t
  · have hsame (t : List uint8) := outcome_of_payload (c := { c with read := .payload m msglen })
      herror rfl t
    have hspace : c.buf.size < c.buf.total := Nat.lt_of_not_le hfull
    exact ⟨⟨hviews, (hsame []).trans (hwait hsize), fun _ => hspace.trans_le (Nat.sub_le _ _),
      fun _ => inr (inr hspace)⟩, hsame⟩
  · refine ⟨herror, forall_mem_nil _, fun t => ?_⟩
    rw [AtHead.outcome_eq (inr rfl) (by exact herror),
      ← payloadOutcome_handOver (le_of_not_lt hsize)]
    rfl
  · -- nothing is left behind the message
    have hle : msglen.toNat ≤ c.buf.size := le_of_not_lt hsize
    have hzero : (c.handOver m msglen.toNat).buf.size = 0 := Nat.eq_zero_of_not_pos hleft
    have hnil : (c.handOver m msglen.toNat).buf.content = [] := by
      rw [← length_eq_zero_iff, length_content, hzero]
    have hcut : conf.cutter.cut c.evt [] = {} := StreamConf.cut_of_readHead_more rfl
    refine ⟨⟨forall_mem_nil _, ?_, fun _ => hzero.trans_lt hbsize, fun _ => ?_⟩,
      fun t => ?_⟩
    · rw [AtHead.outcome_eq (inl rfl) (by exact herror), append_nil, hnil]
      simp [Cut.after, handOver, herror, hcut]
    · rw [hzero, sizeofMsghdr]
      omega
    · rw [AtHead.outcome_eq (inl rfl) (by exact herror), ← payloadOutcome_handOver hle]
      rfl

theorem payloadOutcome_of_header {evt : EventCache} {size : ℕ} {hdr : MsgHdr}
    (h : conf.readHead c.evt c.buf.content = .header evt size hdr) (t : List uint8) :
    (c.takeHeader evt size).payloadOutcome ⟨hdr, []⟩ hdr.payloadLen t =
      (conf.cutter.cut c.evt (c.buf.content ++ t)).after c.handed := by
  have hle := (size_pos_of_header h).2
  have hfind := StreamConf.find_of_header (StreamConf.readHead_append_of_header h t)
  have hcontent : (c.takeHeader evt size).buf.content ++ t = (c.buf.content ++ t).drop size := by
    rw [takeHeader, SharedBuffer.content_consume, drop_append_of_le_length hle]
  simp only [payloadOutcome, hcontent, length_drop, drop_drop]
  split_ifs at hfind ⊢ with hlen
  · rw [Cutter.cut_of_more hfind]
    simp [Cut.after, takeHeader]
  · have hcut := Cutter.cut_of_item (c := conf.cutter) hfind
    rw [hcut, Cut.after_after]
    rfl

theorem pass_keeps (herror : c.error = none) (hvalid : c.Valid) : c.pass.Keeps c.outcome := by
  rcases c.atHead_or_payload with hread | ⟨m, msglen, hread⟩
  · have houtcome := hread.outcome_eq herror
    rw [hread.pass_eq]
    cases hhead : conf.readHead c.evt c.buf.content with
    | more evt =>
      have hshort : c.buf.size < sizeofMsghdr := by
        rw [← length_content]
        exact StreamConf.length_lt_of_more hhead
      have hsame := StreamConf.cut_append_of_more hhead
      have hbsize := conf.bsize_ge
      refine ⟨⟨forall_mem_nil _, ?_, fun _ => ?_, fun _ => ?_⟩, fun t => ?_⟩
      · rw [AtHead.outcome_eq (inr rfl) (by exact herror), hsame, append_nil,
          StreamConf.cut_of_readHead_more hhead]
        simp [Cut.after, herror]
      · exact hshort.trans_le (le_trans (by decide) hbsize)
      · dsimp only
        omega
      · rw [AtHead.outcome_eq (inr rfl) (by exact herror), houtcome, hsame]
    | tooLong =>
      refine ⟨⟨forall_mem_nil _, rfl, fun h => ?_, fun h => ?_⟩, fun t => ?_⟩
      · cases h
      · cases h
      · rw [houtcome, StreamConf.cut_append_of_tooLong hhead]
        simp [Cut.after, outcome]
    | header evt size hdr =>
      have hkeeps : ((c.takeHeader evt size).readPayload ⟨hdr, []⟩ hdr.payloadLen).Keeps _ :=
        readPayload_keeps herror (forall_mem_nil _)
      rwa [funext (payloadOutcome_of_header hhead), ← funext houtcome] at hkeeps
  · rw [pass_of_payload hread, funext (outcome_of_payload herror hread)]
    apply readPayload_keeps herror
    rw [Valid, pending, hread] at hvalid
    exact hvalid

/-- Some passes bring the reader to a state in which it waits for more. -/
theorem readLoop_spec (herror : c.error = none) (hvalid : c.Valid) :
    c.readLoop.1.Ready c.readLoop.2 ∧ ∀ t, c.readLoop.1.outcome t = c.outcome t := by
  induction hmeasure : c.measure using Nat.strongRecOn generalizing c with
  | _ n ih =>
    have hkeeps := pass_keeps herror hvalid
    rw [readLoop]
    split
    · rename_i c' hpass
      rw [hpass] at hkeeps
      obtain ⟨herror', hvalid', hsame⟩ := hkeeps
      obtain ⟨hready, hloop⟩ := ih _ (hmeasure ▸ measure_lt_of_again hpass) herror' hvalid' rfl
      exact ⟨hready, fun t => (hloop t).trans (hsame t)⟩
    · rename_i c' needspace hpass
      rwa [hpass] at hkeeps

/-! ### Reads -/

/-- The outcome depends on the buffer only through what it shows. -/
theorem outcome_of_buf {buf : SharedBuffer conf.bsize} {s t : List uint8}
    (hcontent : buf.content ++ s = c.buf.content ++ t)
    (hbytes : ∀ v ∈ c.pending, buf.bytes v = c.buf.bytes v) :
    { c with buf := buf }.outcome s = c.outcome t := by
  cases hstat : c.read with
  | wait | head => simp [outcome, hcontent, hstat]
  | payload m msglen =>
    rw [pending, hstat] at hbytes
    have hshown : m.payload.flatMap buf.bytes = m.payload.flatMap c.buf.bytes :=
      flatMap_congr hbytes
    simp [outcome, payloadOutcome, hcontent, hstat, hshown]

theorem exists_reallocBuf_eq (c : NsiStream conf) (a : Arrival) :
    ∃ o h, c.reallocBuf a = { c with buf := (c.heldBuf a).moveTo o h } := by
  unfold reallocBuf
  split_ifs with h
  · exact ⟨_, h, rfl⟩
  · exact ⟨_, a.alloc_new _, rfl⟩

theorem reallocBuf_spec (hvalid : c.Valid) (a : Arrival) :
    (c.reallocBuf a).Valid ∧ (c.reallocBuf a).error = c.error ∧
      (c.reallocBuf a).handed = c.handed ∧ (c.reallocBuf a).buf.size = c.buf.size ∧
      (c.reallocBuf a).buf.total = conf.bsize ∧
      ∀ t, (c.reallocBuf a).outcome t = c.outcome t := by
  have hkept : ∀ v ∈ c.pending, v ∈ (c.heldBuf a).views := by
    intro v hv
    refine mem_filter.mpr ⟨hvalid v hv, ?_⟩
    simp [hv]
  have hcontent : (c.heldBuf a).content = c.buf.content := rfl
  obtain ⟨o, h, heq⟩ := c.exists_reallocBuf_eq a
  rw [heq]
  refine ⟨hkept, rfl, rfl, rfl, rfl, fun t => ?_⟩
  refine outcome_of_buf ?_ fun v hv => ?_
  · rw [SharedBuffer.content_moveTo, hcontent]
  · exact SharedBuffer.bytes_moveTo h (hkept v hv)

/-- Between two reads: nothing is left to be handed over, and there is space for a read. -/
structure Waiting (c : NsiStream conf) : Prop where
  valid : c.Valid
  settled : c.outcome [] = { items := c.handed, failed := c.error.isSome }
  room : c.error = none → c.buf.size < c.buf.total

theorem outcome_receive (hvalid : c.Valid) {data : List uint8}
    (hspace : data.length ≤ c.buf.total - c.buf.size) (t : List uint8) :
    { c with buf := c.buf.receive data }.outcome t = c.outcome (data ++ t) := by
  refine outcome_of_buf ?_ fun v hv => ?_
  · rw [SharedBuffer.content_receive hspace, append_assoc]
  · exact SharedBuffer.bytes_receive hspace (hvalid v hv)

variable {c' : NsiStream conf}

theorem recv_spec (hwaiting : c.Waiting) {a : Arrival} (h : c.recv a = some c') :
    c'.Waiting ∧ ∀ t, c'.outcome t = c.outcome (a.data ++ t) := by
  unfold recv at h
  split_ifs at h with herror hread
  · cases h
    refine ⟨hwaiting, fun t => ?_⟩
    rw [outcome, if_pos herror, outcome, if_pos herror]
  · have herror : c.error = none := not_isSome_iff_eq_none.mp herror
    obtain ⟨-, hspace⟩ := not_or.mp hread
    obtain ⟨hready, hsame⟩ := readLoop_spec (c := { c with buf := c.buf.receive a.data })
      herror hwaiting.valid
    have hsame : ∀ t, _ = c.outcome (a.data ++ t) := fun t =>
      (hsame t).trans (outcome_receive hwaiting.valid (le_of_not_lt hspace) t)
    simp only at h
    split_ifs at h with hfailed hrealloc
    · cases h
      refine ⟨⟨hready.valid, hready.settled, fun hnone => ?_⟩, hsame⟩
      rw [hnone] at hfailed
      cases hfailed
    · cases h
      obtain ⟨hvalid, herror', hhanded, hsize, htotal, hmoved⟩ := reallocBuf_spec hready.valid a
      refine ⟨⟨hvalid, ?_, fun hnone => ?_⟩, fun t => (hmoved t).trans (hsame t)⟩
      · rw [hmoved, hready.settled, herror', hhanded]
      · rw [hsize, htotal]
        exact hready.size_lt (herror' ▸ hnone)
    · cases h
      refine ⟨⟨hready.valid, hready.settled, fun hnone => ?_⟩, hsame⟩
      rcases hready.room hnone with hneed | hfull | hroom
      · exact absurd (inl hneed) hrealloc
      · exact absurd (inr hfull) hrealloc
      · exact hroom

/-- A connection that is new; what the cache holds as the result of a lookup was never set. -/
def fresh (conf : StreamConf) (sig : Bool) : NsiStream conf where
  buf := empty conf.bsize
  evt := ⟨0xffff, 0, sig⟩

theorem waiting_fresh (conf : StreamConf) (sig : Bool) : (fresh conf sig).Waiting := by
  have hbsize : 0 < conf.bsize := lt_of_lt_of_le (by decide) conf.bsize_ge
  have hmore : conf.readHead (fresh conf sig).evt [] = .more (fresh conf sig).evt := rfl
  refine ⟨forall_mem_nil _, ?_, fun _ => hbsize⟩
  have hcontent : (fresh conf sig).buf.content = [] := SharedBuffer.content_empty
  rw [AtHead.outcome_eq (inl rfl) rfl, hcontent, append_nil, StreamConf.cut_of_readHead_more hmore]
  rfl

/-- Whatever the reads were, what is handed over is what is cut off the stream. -/
theorem exec_recv_spec {reads : List Arrival} (hwaiting : c.Waiting)
    (h : Runs.exec recv c reads = some c') :
    c'.Waiting ∧ ∀ t, c'.outcome t = c.outcome (reads.flatMap (·.data) ++ t) := by
  induction reads generalizing c with
  | nil =>
    cases h
    exact ⟨hwaiting, fun t => rfl⟩
  | cons a reads ih =>
    obtain ⟨c₁, hrecv, hrest⟩ := bind_eq_some_iff.mp h
    obtain ⟨hwaiting₁, hsame⟩ := recv_spec hwaiting hrecv
    obtain ⟨hwaiting', hreads⟩ := ih hwaiting₁ hrest
    refine ⟨hwaiting', fun t => ?_⟩
    rw [hreads, hsame, flatMap_cons, append_assoc]

def Arrival.single (b : uint8) : Arrival where
  data := [b]
  holds _ := false
  alloc views := (views.map View.obj).foldr max 0 + 1
  alloc_new := by
    intro views v hv heq
    have hle : v.obj ≤ (views.map View.obj).foldr max 0 :=
      List.le_max_of_le' 0 (List.mem_map_of_mem hv) le_rfl
    omega

theorem exists_exec_recv (hwaiting : c.Waiting) (stream : List uint8) :
    ∃ c', Runs.exec recv c (stream.map Arrival.single) = some c' := by
  induction stream generalizing c with
  | nil => exact ⟨c, rfl⟩
  | cons b stream ih =>
    obtain ⟨c₁, hrecv⟩ : ∃ c₁, c.recv (Arrival.single b) = some c₁ := by
      unfold recv
      split_ifs with herror hnone
      · exact ⟨c, rfl⟩
      · have hroom := hwaiting.room (not_isSome_iff_eq_none.mp herror)
        rcases hnone with hnil | hspace
        · cases hnil
        · change c.buf.total - c.buf.size < 1 at hspace
          omega
      · simp only
        split_ifs
        all_goals exact ⟨_, rfl⟩
    obtain ⟨c', hrest⟩ := ih (recv_spec hwaiting hrecv).1
    exact ⟨c', bind_eq_some_iff.mpr ⟨c₁, hrecv, hrest⟩⟩

end NsiStream

end AdaptivePlatform.Nsomeip
