import AdaptivePlatform.Foundations.Chunks
import AdaptivePlatform.Nsomeip.MakeTpMsg

/-!
# The segments of a message

Whatever the batches are, a message is sent in pieces of `segmentSize` bytes of
its payload, each with its offset as far as the offset field can hold it. A
segment that takes its bytes from more than 63 buffers does not fit into the
array together with its header, so that the message is not sent.
-/
namespace AdaptivePlatform.Nsomeip

open Chunks
open BitVec (ofNat)

def segmentAt (payload : List uint8) (size i : ℕ) : TpSegment where
  off := ofNat 28 (i * size) / 16
  more := i + 1 < count payload size
  payload := chunk payload size i

def buffersOf (bufs : List MsgBuf) (size i : ℕ) : ℕ :=
  touched (lengths bufs) (i * size) (stop (payloadOf bufs) size i)

/-- `i` segments of the message are made. -/
structure TpOut.At (bufs : List MsgBuf) (size i : ℕ) (out : TpOut) : Prop where
  walk : out.walk.At bufs (i * size)
  paylen : out.paylen = (payloadOf bufs).length - i * size

variable {payload : List uint8}

theorem tpOff_eq {position : ℕ} (h : position ≤ payload.length) :
    tpOff (ofNat 32 (msgextSize + payload.length)) (payload.length - position) =
      ofNat 28 position / 16 := by
  have hsum : msgextSize + payload.length =
      position + (msgextSize + (payload.length - position)) := by omega
  rw [tpOff, BitVec.setWidth_ofNat_of_le (by omega), hsum, BitVec.ofNat_add, BitVec.add_sub_cancel]

theorem segmentAt_eq {size i : ℕ} (hsize : 0 < size) (hi : i < count payload size) :
    (⟨tpOff (ofNat 32 (msgextSize + payload.length)) (payload.length - i * size),
      (chunk payload size i).length < payload.length - i * size, chunk payload size i⟩ :
        TpSegment) = segmentAt payload size i := by
  have hmore : (chunk payload size i).length < payload.length - i * size ↔
      i + 1 < count payload size := by
    rw [length_chunk, lt_count_iff hsize, Nat.succ_mul]
    omega
  rw [segmentAt, tpOff_eq (mul_le_length_of_lt_count hsize hi), decide_eq_decide.mpr hmore]

theorem stop_le_length {size i : ℕ} (h : i * size ≤ payload.length) :
    stop payload size i ≤ payload.length := by
  rw [stop, length_chunk]
  omega

section

variable {bufs : List MsgBuf} {mss size : ℕ} (hmss : segmentSize mss = size)
  (heos : EosLast bufs) (hsize : 0 < size)

include hmss heos hsize

variable {out : TpOut}

section

variable {i : ℕ} (hi : i < count (payloadOf bufs) size)
  (hout : out.At bufs size i)

include hi hout

theorem makeTpLoop_spec {room v : ℕ} {first : Bool} (hroom : first = true → 0 < room ∧ v = 0) :
    (first = true ∧ vaCount - 1 < buffersOf bufs size i ∧
      makeTpLoop mss (ofNat 32 (msgextSize + (payloadOf bufs).length)) room first v out =
        .error .eoverflow) ∨
    ∃ n next,
      makeTpLoop mss (ofNat 32 (msgextSize + (payloadOf bufs).length)) room first v out =
        .ok ((List.range' i n).map (segmentAt (payloadOf bufs) size), next) ∧
      (first = true → 0 < n) ∧ i + n ≤ count (payloadOf bufs) size ∧
      (∀ k, i ≤ k → k < i + n → buffersOf bufs size k ≤ vaCount - 1) ∧
      next.paylen = (payloadOf bufs).length - (i + n) * size ∧
      (i + n < count (payloadOf bufs) size → next.At bufs size (i + n)) := by
  induction room generalizing v i first out with
  | zero =>
    have hfirst : ¬ first = true := fun h => absurd (hroom h).1 (Nat.lt_irrefl 0)
    exact Or.inr ⟨0, out, rfl, fun h => absurd h hfirst, hi.le, by omega, hout.paylen,
      fun _ => hout⟩
  | succ room ih =>
    have hmul := mul_le_length_of_lt_count hsize hi
    have hlen : min (segmentSize mss) out.paylen = (chunk (payloadOf bufs) size i).length := by
      rw [hmss, hout.paylen, length_chunk]
    rcases hout.walk.toRbufarray_spec (vaCount - v - 1) heos (stop_le_length hmul) with
      ⟨hmany, herror⟩ | ⟨pieces, walk, hok, hlength, hcount, hflatten, hat⟩
    · simp only [makeTpLoop, hlen, herror]
      cases hfirst : first with
      | true =>
        obtain ⟨-, rfl⟩ := hroom hfirst
        exact Or.inl ⟨rfl, hmany, rfl⟩
      | false => exact Or.inr ⟨0, out, rfl, by simp, hi.le, by omega, hout.paylen, fun _ => hout⟩
    · have hpieces : pieces.flatten = chunk (payloadOf bufs) size i :=
        hflatten.trans (List.prefix_iff_eq_take.mp (List.take_prefix _ _)).symm
      have hsegment : (⟨tpOff (ofNat 32 (msgextSize + (payloadOf bufs).length)) out.paylen,
          (chunk (payloadOf bufs) size i).length < out.paylen, chunk (payloadOf bufs) size i⟩ :
            TpSegment) = segmentAt (payloadOf bufs) size i := by
        rw [hout.paylen, segmentAt_eq hsize hi]
      have hbuffers : buffersOf bufs size i ≤ vaCount - 1 := by
        rw [buffersOf, stop, ← hlength]
        omega
      have hpaylen : out.paylen - (chunk (payloadOf bufs) size i).length =
          (payloadOf bufs).length - (i + 1) * size := by
        rw [hout.paylen, length_chunk, Nat.succ_mul]
        omega
      simp only [makeTpLoop, hlen, hok, hpieces, ne_eq, not_true, if_false, hsegment]
      split_ifs with hend
      · refine Or.inr ⟨1, _, rfl, fun _ => Nat.one_pos, hi, fun k hk hk' => ?_, hpaylen, ?_⟩
        · obtain rfl : i = k := by omega
          exact hbuffers
        · intro hnext
          exact ⟨stop_of_succ_lt hsize hnext ▸ hat, hpaylen⟩
      · obtain ⟨-, hleft⟩ := not_or.mp hend
        have hnext : i + 1 < count (payloadOf bufs) size :=
          (lt_count_iff hsize).mpr (Or.inr (by omega))
        have hnextOut : TpOut.At bufs size (i + 1)
            ⟨walk, out.paylen - (chunk (payloadOf bufs) size i).length⟩ :=
          ⟨stop_of_succ_lt hsize hnext ▸ hat, hpaylen⟩
        rcases ih hnext hnextOut (fun h => absurd h Bool.false_ne_true) with
          ⟨hfalse, -⟩ | ⟨n, next, hloop, -, hn, hall, hpaylen, hnextAt⟩
        · cases hfalse
        · have hsum : i + 1 + n = i + (n + 1) := by omega
          rw [hsum] at hn hpaylen hnextAt hall
          refine Or.inr ⟨n + 1, next, ?_, fun _ => Nat.succ_pos n, hn, fun k hk hk' => ?_, hpaylen,
            hnextAt⟩
          · rw [hloop, List.range'_succ]
            rfl
          · rcases hk.eq_or_lt with rfl | hk
            · exact hbuffers
            · exact hall k hk hk'

/-- Further calls send what is left, or fail at a segment from too many buffers. -/
theorem sendTp_spec {calls : ℕ} (hcalls : out.paylen < calls) :
    ((∀ k, i ≤ k → k < count (payloadOf bufs) size →
        buffersOf bufs size k ≤ vaCount - 1) ∧
      sendTp mss (ofNat 32 (msgextSize + (payloadOf bufs).length)) calls out =
        some (.ok ((List.range' i (count (payloadOf bufs) size - i)).map
          (segmentAt (payloadOf bufs) size)))) ∨
    ((∃ k < count (payloadOf bufs) size,
        vaCount - 1 < buffersOf bufs size k) ∧
      sendTp mss (ofNat 32 (msgextSize + (payloadOf bufs).length)) calls out =
        some (.error .eoverflow)) := by
  induction calls generalizing i out with
  | zero => exact absurd hcalls (Nat.not_lt_zero _)
  | succ calls ih =>
    rcases makeTpLoop_spec hmss heos hsize hi hout (fun _ => ⟨(by decide : 0 < tvCount), rfl⟩) with
      ⟨-, hmany, herror⟩ | ⟨n, next, hok, hpos, hn, hall, hpaylen, hnext⟩
    · refine Or.inr ⟨⟨i, hi, hmany⟩, ?_⟩
      rw [sendTp, makeTpMsg, herror]
    · have hpos := hpos rfl
      rw [sendTp, makeTpMsg, hok]
      simp only
      split_ifs with hend
      · -- nothing is left, so these are all
        have hlast : i + n = count (payloadOf bufs) size := by
          refine hn.antisymm (Nat.le_of_not_lt fun hlt => ?_)
          have := ((lt_count_iff hsize).mp hlt).resolve_left (by omega)
          omega
        refine Or.inl ⟨fun k hk hk' => hall k hk (by omega), ?_⟩
        rw [← hlast, Nat.add_sub_cancel_left]
      · have hlt : i + n < count (payloadOf bufs) size :=
          (lt_count_iff hsize).mpr (Or.inr (by omega))
        have hless : next.paylen < calls := by
          have hmul : i * size < (i + n) * size := Nat.mul_lt_mul_of_pos_right (by omega) hsize
          rw [hout.paylen] at hcalls
          omega
        rcases ih hlt (hnext hlt) hless with ⟨hrest, hsend⟩ | ⟨hmany, hsend⟩
        · refine Or.inl ⟨fun k hk hk' => ?_, ?_⟩
          · by_cases hkn : k < i + n
            · exact hall k hk hkn
            · exact hrest k (by omega) hk'
          · have hsum : count (payloadOf bufs) size - i =
                n + (count (payloadOf bufs) size - (i + n)) := by omega
            rw [hsend, hsum, ← List.range'_append_1, List.map_append]
            rfl
        · exact Or.inr ⟨hmany, by rw [hsend]; rfl⟩

end

end

/-- A message is sent in the pieces of its payload, unless one comes from too many buffers. -/
theorem sendMessage_spec {bufs : List MsgBuf} {mss : ℕ} (heos : EosLast bufs)
    (hsize : 0 < segmentSize mss) :
    ((∀ k < count (payloadOf bufs) (segmentSize mss),
        buffersOf bufs (segmentSize mss) k ≤ vaCount - 1) ∧
      sendMessage mss bufs = some (.ok ((List.range (count (payloadOf bufs) (segmentSize mss))).map
        (segmentAt (payloadOf bufs) (segmentSize mss))))) ∨
    ((∃ k < count (payloadOf bufs) (segmentSize mss),
        vaCount - 1 < buffersOf bufs (segmentSize mss) k) ∧
      sendMessage mss bufs = some (.error .eoverflow)) := by
  have hstart : TpOut.At bufs (segmentSize mss) 0 ⟨⟨bufs, 0⟩, (payloadOf bufs).length⟩ := by
    refine ⟨⟨[], rfl, ?_, fun _ _ => Nat.zero_le _⟩, ?_⟩
    · simp [payloadOf]
    · simp
  have hspec := sendTp_spec rfl heos hsize (Nat.succ_pos _) hstart (Nat.lt_succ_self _)
  simp only [Nat.zero_le, forall_const, ← List.range_eq_range'] at hspec
  exact hspec

end AdaptivePlatform.Nsomeip
