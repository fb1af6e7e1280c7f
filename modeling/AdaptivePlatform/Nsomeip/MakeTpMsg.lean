import AdaptivePlatform.Nsomeip.AssembleTp

/-!
# Segmenting a message

A message that does not fit into a datagram is sent in segments. Each call of
`nsi_dgram_make_tp_msg` prepares a batch of them: it walks on through the
buffers of the payload and notes for each segment the pieces of the buffers
that it is sent from. A batch has at most 32 segments, and their headers and
pieces together fit into an array of 64 entries.
-/
namespace AdaptivePlatform.Nsomeip

open List

inductive Errno
  | einval
  | eoverflow
  | emsgsize
  deriving DecidableEq, Repr

/-! ### Walking through the buffers -/

/-- A buffer of a message; `eos` marks the last one. -/
structure MsgBuf where
  data : List uint8
  eos : Bool := false

/-- `nai_bufwalk_t`: the buffers from the current one on, and the position in it. -/
structure BufWalk where
  bufs : List MsgBuf
  off : ℕ := 0

/-- A walk does not stay at the end of a buffer. -/
def BufWalk.skipEnd : BufWalk → BufWalk
  | ⟨[], off⟩ => ⟨[], off⟩
  | ⟨b :: bufs, off⟩ => if b.data.length ≤ off then ⟨bufs, 0⟩ else ⟨b :: bufs, off⟩

/-- The loop of `nai_bufwalk_to_rbufarray` for the buffers of a message, all of them in memory:
at most `count` pieces with `limit` bytes together. -/
def walkPieces : List MsgBuf → ℕ → ℕ → ℕ → Except Errno (List (List uint8) × BufWalk)
  | [], _, _, _ => .ok ([], ⟨[], 0⟩)
  | b :: bufs, off, count, limit =>
    if b.data.length < off then .error .einval
    else if b.data.length = off then
      if b.eos then .ok ([], ⟨bufs, 0⟩) else walkPieces bufs 0 count limit
    else
      match count with
      | 0 => .error .eoverflow
      | count + 1 =>
        let size := min (b.data.length - off) limit
        if b.eos || limit - size = 0 then
          .ok ([(b.data.drop off).take size], BufWalk.skipEnd ⟨b :: bufs, off + size⟩)
        else
          (walkPieces bufs 0 count (limit - size)).map fun rest =>
            ((b.data.drop off).take size :: rest.1, rest.2)

def BufWalk.toRbufarray (walk : BufWalk) (count limit : ℕ) :
    Except Errno (List (List uint8) × BufWalk) :=
  if limit = 0 then .ok ([], walk) else walkPieces walk.bufs walk.off count limit

/-! ### Batches of segments -/

/-- A segment: the offset field and the more flag of its TP header, and its payload. -/
structure TpSegment where
  off : BitVec 28
  more : Bool
  payload : List uint8
  deriving DecidableEq, Repr

/-- `nai_countof(c->out.tv)` -/
def tvCount : ℕ := 32

/-- `nai_countof(c->out.va)` -/
def vaCount : ℕ := 64

variable (mss : ℕ) (bufs : List MsgBuf)

/-- The payload of a full segment: a multiple of 16 bytes behind headers of 20 bytes. -/
def segmentSize : ℕ := (mss - 20) / 16 * 16

/-- What is left to be sent of a message. -/
structure TpOut where
  walk : BufWalk
  paylen : ℕ

/-- The offset field has 28 bits, also while the offset in bytes is computed in it. -/
def tpOff (hdrLen : uint32) (paylen : ℕ) : BitVec 28 :=
  (hdrLen.setWidth 28 - BitVec.ofNat 28 (msgextSize + paylen)) / 16

/-- The loop of `nsi_dgram_make_tp_msg` with `room` segments left and `v` entries of the array
used; `first` as long as there is no segment. -/
def makeTpLoop (mss : ℕ) (hdrLen : uint32) :
    ℕ → Bool → ℕ → TpOut → Except Errno (List TpSegment × TpOut)
  | 0, _, _, out => .ok ([], out)
  | room + 1, first, v, out =>
    let len := min (segmentSize mss) out.paylen
    match out.walk.toRbufarray (vaCount - v - 1) len with
    | .error ec => if !first && ec = .eoverflow then .ok ([], out) else .error ec
    | .ok (pieces, walk) =>
      -- the length of the message is not that of its payload
      if pieces.flatten.length ≠ len then .error .einval
      else
        let segment : TpSegment :=
          { off := tpOff hdrLen out.paylen, more := len < out.paylen, payload := pieces.flatten }
        let next : TpOut := ⟨walk, out.paylen - len⟩
        if vaCount ≤ v + (pieces.length + 1) ∨ next.paylen = 0 then .ok ([segment], next)
        else
          (makeTpLoop mss hdrLen room false (v + (pieces.length + 1)) next).map fun rest =>
            (segment :: rest.1, rest.2)

def makeTpMsg (hdrLen : uint32) (out : TpOut) : Except Errno (List TpSegment × TpOut) :=
  makeTpLoop mss hdrLen tvCount true 0 out

/-- All batches of a message, if at most the given number of calls makes them. -/
def sendTp (mss : ℕ) (hdrLen : uint32) : ℕ → TpOut → Option (Except Errno (List TpSegment))
  | 0, _ => none
  | calls + 1, out =>
    match makeTpMsg mss hdrLen out with
    | .error ec => some (.error ec)
    | .ok (segments, next) =>
      if next.paylen = 0 then some (.ok segments)
      else (sendTp mss hdrLen calls next).map (·.map (segments ++ ·))

def payloadOf : List uint8 := bufs.flatMap (·.data)

/-- The message is sent, with one call for each byte at most. -/
def sendMessage : Option (Except Errno (List TpSegment)) :=
  sendTp mss (BitVec.ofNat 32 (msgextSize + (payloadOf bufs).length)) ((payloadOf bufs).length + 1)
    ⟨⟨bufs, 0⟩, (payloadOf bufs).length⟩

/-! ### What a walk finds -/

/-- How many of the buffers with the given lengths have a byte between two positions. -/
def touched : List ℕ → ℕ → ℕ → ℕ
  | [], _, _ => 0
  | n :: lengths, lo, hi => (if lo < min n hi then 1 else 0) + touched lengths (lo - n) (hi - n)

/-- Only the last buffer may be marked as the last. -/
def EosLast : Prop := ∀ b ∈ bufs.dropLast, b.eos = false

/-- The walk through the buffers has passed the given number of bytes. -/
def BufWalk.At (position : ℕ) (walk : BufWalk) : Prop :=
  ∃ passed, bufs = passed ++ walk.bufs ∧ position = (payloadOf passed).length + walk.off ∧
    ∀ b ∈ walk.bufs.head?, walk.off ≤ b.data.length

def lengths : List ℕ := bufs.map (·.data.length)

@[simp] theorem payloadOf_cons (b : MsgBuf) (bufs : List MsgBuf) :
    payloadOf (b :: bufs) = b.data ++ payloadOf bufs := rfl

@[simp] theorem payloadOf_append (bufs bufs' : List MsgBuf) :
    payloadOf (bufs ++ bufs') = payloadOf bufs ++ payloadOf bufs' := flatMap_append

variable (lens : List ℕ) {b : MsgBuf} {bufs : List MsgBuf} {off position limit : ℕ} {walk : BufWalk}

theorem touched_self (n : ℕ) : touched lens n n = 0 := by
  induction lens generalizing n with
  | nil => rfl
  | cons m lens ih => rw [touched, ih, if_neg (by omega)]

theorem touched_passed (passed bufs : List MsgBuf) (lo hi : ℕ) :
    touched (lengths (passed ++ bufs)) ((payloadOf passed).length + lo)
      ((payloadOf passed).length + hi) = touched (lengths bufs) lo hi := by
  induction passed generalizing lo hi with
  | nil => simp [payloadOf]
  | cons b passed ih =>
    rw [cons_append, lengths, map_cons, touched, payloadOf_cons, length_append,
      if_neg (by omega), ← ih lo hi, Nat.zero_add]
    congr 1 <;> omega

theorem EosLast.tail (h : EosLast (b :: bufs)) : EosLast bufs := by
  cases bufs with
  | nil => exact forall_mem_nil _
  | cons b' bufs => exact fun c hc => h c (mem_cons_of_mem b hc)

theorem EosLast.of_append {passed : List MsgBuf} (h : EosLast (passed ++ bufs)) : EosLast bufs := by
  induction passed with
  | nil => exact h
  | cons b passed ih => exact ih h.tail

theorem EosLast.eq_nil (h : EosLast (b :: bufs)) (hb : b.eos = true) : bufs = [] := by
  cases bufs with
  | nil => rfl
  | cons b' bufs => exact absurd hb (by rw [h b mem_cons_self]; exact Bool.false_ne_true)

theorem BufWalk.At.skipEnd (h : off ≤ b.data.length) :
    BufWalk.At (b :: bufs) off (BufWalk.skipEnd ⟨b :: bufs, off⟩) := by
  unfold BufWalk.skipEnd
  simp only
  split_ifs with hend
  · exact ⟨[b], rfl, by simp [payloadOf]; omega, fun _ _ => Nat.zero_le _⟩
  · refine ⟨[], rfl, by simp [payloadOf], fun c hc => ?_⟩
    obtain rfl : b = c := by simpa using hc
    exact h

theorem BufWalk.At.cons (h : BufWalk.At bufs position walk) :
    BufWalk.At (b :: bufs) (b.data.length + position) walk := by
  obtain ⟨passed, hbufs, hposition, hoff⟩ := h
  refine ⟨b :: passed, by rw [hbufs, cons_append], ?_, hoff⟩
  rw [payloadOf_cons, length_append, hposition, Nat.add_assoc]

theorem EosLast.eos_eq_false (h : EosLast (b :: bufs)) {n : ℕ}
    (hle : n ≤ (payloadOf (b :: bufs)).length) (hn : b.data.length < n) : b.eos = false := by
  cases hb : b.eos with
  | false => rfl
  | true =>
    rw [h.eq_nil hb] at hle
    simp only [payloadOf, flatMap_cons, flatMap_nil, append_nil] at hle
    omega

theorem touched_cons_of_lt {n : ℕ} (hoff : off < n) (hlimit : 0 < limit) :
    touched (n :: lens) off (off + limit) = touched lens 0 (limit - (n - off)) + 1 := by
  rw [touched, if_pos (by omega), Nat.sub_eq_zero_of_le hoff.le, Nat.add_comm]
  congr 2
  omega

/-- What the pieces are, and when there are too many of them. -/
theorem walkPieces_spec (count : ℕ) (heos : EosLast bufs)
    (hoff : ∀ b ∈ bufs.head?, off ≤ b.data.length) (hlimit : 0 < limit)
    (hle : off + limit ≤ (payloadOf bufs).length) :
    (count < touched (lengths bufs) off (off + limit) ∧
      walkPieces bufs off count limit = .error .eoverflow) ∨
    ∃ pieces walk, walkPieces bufs off count limit = .ok (pieces, walk) ∧
      pieces.length = touched (lengths bufs) off (off + limit) ∧ pieces.length ≤ count ∧
      pieces.flatten = ((payloadOf bufs).drop off).take limit ∧
      BufWalk.At bufs (off + limit) walk := by
  induction bufs generalizing off limit count with
  | nil =>
    simp only [payloadOf, flatMap_nil, length_nil] at hle
    omega
  | cons b bufs ih =>
    have hoff : off ≤ b.data.length := hoff b rfl
    have hle' := hle
    rw [payloadOf_cons, length_append] at hle'
    rcases hoff.eq_or_lt with rfl | hoff
    · -- nothing is left of this buffer
      have hfalse := heos.eos_eq_false hle (by omega)
      have hwalk : walkPieces (b :: bufs) b.data.length count limit =
          walkPieces bufs 0 count limit := by
        rw [walkPieces.eq_def]
        simp [hfalse]
      have htouched : touched (lengths (b :: bufs)) b.data.length (b.data.length + limit) =
          touched (lengths bufs) 0 (0 + limit) := by
        rw [lengths, map_cons, touched, if_neg (by omega), Nat.sub_self,
          Nat.add_sub_cancel_left, Nat.zero_add, Nat.zero_add]
        rfl
      rw [hwalk, htouched, payloadOf_cons, drop_left]
      refine (ih count heos.tail (fun _ _ => Nat.zero_le _) hlimit (by omega)).imp_right ?_
      rintro ⟨pieces, walk, hok, hlength, hcount, hflatten, hat⟩
      exact ⟨pieces, walk, hok, hlength, hcount, hflatten, (Nat.zero_add limit ▸ hat).cons⟩
    · have htouched : touched (lengths (b :: bufs)) off (off + limit) = _ :=
        touched_cons_of_lt (lengths bufs) hoff hlimit
      rw [htouched]
      cases count with
      | zero =>
        refine Or.inl ⟨Nat.succ_pos _, ?_⟩
        unfold walkPieces
        rw [if_neg (by omega), if_neg (by omega)]
      | succ count =>
        by_cases hfit : limit ≤ b.data.length - off
        · -- the buffer holds all that is asked for
          refine Or.inr ⟨[(b.data.drop off).take limit], _, ?_, ?_, ?_, ?_,
            BufWalk.At.skipEnd (by omega)⟩
          · rw [walkPieces, if_neg (by omega), if_neg (by omega), Nat.min_eq_right hfit]
            simp
          · rw [Nat.sub_eq_zero_of_le hfit, touched_self]
            rfl
          · exact Nat.succ_le_succ (Nat.zero_le count)
          · rw [flatten_singleton, payloadOf_cons, drop_append_of_le_length hoff.le,
              take_append_of_le_length (by rw [length_drop]; exact hfit)]
        · have hfalse := heos.eos_eq_false hle (by omega)
          have hwalk : walkPieces (b :: bufs) off (count + 1) limit =
              (walkPieces bufs 0 count (limit - (b.data.length - off))).map fun rest =>
                ((b.data.drop off).take (b.data.length - off) :: rest.1, rest.2) := by
            rw [walkPieces, if_neg (by omega), if_neg (by omega)]
            simp only [Nat.min_eq_left (Nat.le_of_not_le hfit), hfalse]
            rw [if_neg (by simp; omega)]
          have hleft : 0 < limit - (b.data.length - off) := by omega
          rw [hwalk]
          rcases ih count heos.tail (fun _ _ => Nat.zero_le _) hleft (by omega) with
            ⟨hcount, herror⟩ | ⟨pieces, walk, hok, hlength, hcount, hflatten, hat⟩
          · rw [herror]
            rw [Nat.zero_add] at hcount
            exact Or.inl ⟨Nat.succ_lt_succ hcount, rfl⟩
          · rw [hok]
            rw [Nat.zero_add] at hlength hat
            refine Or.inr ⟨_, walk, rfl, ?_, Nat.succ_le_succ hcount, ?_, ?_⟩
            · rw [length_cons, hlength]
            · have hdrop : (b.data.drop off).length = b.data.length - off := length_drop
              have hall : (b.data.drop off).take limit = b.data.drop off :=
                take_of_length_le (by omega)
              rw [flatten_cons, hflatten, payloadOf_cons,
                drop_append_of_le_length hoff.le, drop_zero, ← hdrop, take_length,
                take_append, hall]
            · have hsum : off + limit = b.data.length + (limit - (b.data.length - off)) := by omega
              rw [hsum]
              exact hat.cons

/-- The same from any position in the buffers. -/
theorem BufWalk.At.toRbufarray_spec (hat : walk.At bufs position) (count : ℕ)
    (heos : EosLast bufs) (hle : position + limit ≤ (payloadOf bufs).length) :
    (count < touched (lengths bufs) position (position + limit) ∧
      walk.toRbufarray count limit = .error .eoverflow) ∨
    ∃ pieces next, walk.toRbufarray count limit = .ok (pieces, next) ∧
      pieces.length = touched (lengths bufs) position (position + limit) ∧
      pieces.length ≤ count ∧
      pieces.flatten = ((payloadOf bufs).drop position).take limit ∧
      next.At bufs (position + limit) := by
  unfold BufWalk.toRbufarray
  split_ifs with hzero
  · subst hzero
    exact Or.inr ⟨[], walk, rfl, (touched_self _ _).symm, Nat.zero_le _, by simp, hat⟩
  · obtain ⟨passed, rfl, rfl, hoff⟩ := hat
    rw [payloadOf_append, length_append, Nat.add_assoc] at hle
    have hspec := walkPieces_spec count heos.of_append hoff (Nat.pos_of_ne_zero hzero) (by omega)
    rw [Nat.add_assoc, touched_passed, payloadOf_append, drop_append,
      drop_of_length_le (Nat.le_add_right _ _), Nat.add_sub_cancel_left, nil_append]
    refine hspec.imp_right ?_
    rintro ⟨pieces, next, hok, hlength, hcount, hflatten, passed', hbufs, hposition, hoff'⟩
    refine ⟨pieces, next, hok, hlength, hcount, hflatten, passed ++ passed', ?_, ?_, hoff'⟩
    · rw [append_assoc, ← hbufs]
    · rw [payloadOf_append, length_append, hposition]
      omega

end AdaptivePlatform.Nsomeip
