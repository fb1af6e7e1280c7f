import Mathlib.Data.List.FinRange
import AdaptivePlatform.Nsomeip.TpRoundTrip

/-!
# Delivering the segments of a message

The segments of a message reach the receiver in any order, and some of them
again and again. All calls but the one with the last missing segment leave the
message incomplete, and that one completes it, as long as the offsets of the
segments can be told apart. An offset of `2 ^ 28` bytes or more is stored
without its upper bits: the segment seems to lie inside those that came before.
-/
namespace AdaptivePlatform.Nsomeip

open Chunks OrderedSets List TpMessage
open List (range)

variable {payload : List uint8} {size : ℕ}

/-- The call of `nsi_message_assemble_tp` for a received segment. -/
def TpMessage.receive (m : TpMessage) (s : TpSegment) : ℤ × TpMessage :=
  m.assembleTp s.payload (s.off.toNat * 16) s.more

/-- Segments one after the other, with the result of each call. -/
def TpMessage.receiveAll : TpMessage → List TpSegment → List ℤ × TpMessage
  | m, [] => ([], m)
  | m, s :: segments =>
    let rest := (m.receive s).2.receiveAll segments
    ((m.receive s).1 :: rest.1, rest.2)

/-- The calls for some segments give 0, and the one for the next segment completes the message. -/
def CompletedBy (payload : List uint8) (segments : List TpSegment) (s : TpSegment) : Prop :=
  let before := ({} : TpMessage).receiveAll segments
  let final := before.2.receive s
  (∀ r ∈ before.1, r = 0) ∧ final.1 = 1 ∧
    final.2.payload.flatMap (·.data) = payload ∧
    final.2.len.toNat = msgextSize + payload.length

/-- The last missing one of the segments completes the message, whatever the order of the others
was and whichever of them came more than once. -/
def Delivers (payload : List uint8) (segments : List TpSegment) : Prop :=
  ∀ (seen : List (Fin segments.length)) (j : Fin segments.length),
    j ∉ seen → (∀ i, i ≠ j → i ∈ seen) →
      CompletedBy payload (seen.map segments.get) (segments.get j)

/-- The message is sent, and its segments deliver it. -/
def RoundTrip (mss : ℕ) (bufs : List MsgBuf) : Prop :=
  ∃ segments, sendMessage mss bufs = some (.ok segments) ∧ Delivers (payloadOf bufs) segments

theorem receiveAll_append (m : TpMessage) (s t : List TpSegment) :
    m.receiveAll (s ++ t) =
      ((m.receiveAll s).1 ++ ((m.receiveAll s).2.receiveAll t).1,
        ((m.receiveAll s).2.receiveAll t).2) := by
  induction s generalizing m with
  | nil => rfl
  | cons a s ih =>
    rw [cons_append, TpMessage.receiveAll, ih]
    rfl

/-! ### Offsets -/

section

variable {i : ℕ} (hdvd : 16 ∣ size)

include hdvd

theorem off_segmentAt_mul : (segmentAt payload size i).off.toNat * 16 = i * size % 2 ^ 28 := by
  have hmod : 16 ∣ i * size % 2 ^ 28 := (Nat.dvd_mod_iff (by decide)).mpr (hdvd.mul_left i)
  exact Nat.div_mul_cancel hmod

theorem receive_segmentAt (m : TpMessage) (hfit : i * size < 2 ^ 28) :
    m.receive (segmentAt payload size i) =
      m.assembleTp (chunk payload size i) (i * size) (i + 1 < count payload size) := by
  rw [TpMessage.receive, off_segmentAt_mul hdvd, Nat.mod_eq_of_lt hfit]
  rfl

end

/-! ### Segments in any order -/

section

variable (hsize : 0 < size)

include hsize

variable {j : ℕ} {idx : List ℕ}

theorem assembleTp_first (hj : j < count payload size) :
    (collected payload size []).assembleTp (chunk payload size j) (j * size)
        (j + 1 < count payload size) =
      if insertNew [] j = range (count payload size) then
        (collected payload size (range (count payload size))).completeTp
      else (0, collected payload size (insertNew [] j)) := by
  have hnil : (collected payload size []).payload = [] := rfl
  have hgrow : ((collected payload size []).grow (bufAt payload size j)
      [bufAt payload size j]).setLast (!decide (j + 1 < count payload size)) =
        collected payload size (insertNew [] j) := by
    refine grow_collected not_mem_nil ?_
    rw [← decide_not, decide_eq_decide, mem_insertNew]
    simp only [not_mem_nil, or_false]
    omega
  change (collected payload size []).assembleTp (bufAt payload size j).data
    (bufAt payload size j).total _ = _
  rw [assembleTp_of_nil hnil, hgrow]
  have honly : (!decide (j + 1 < count payload size) &&
      decide ((bufAt payload size j).total = 0)) = true ↔
        insertNew [] j = range (count payload size) := by
    have hzero : j * size = 0 ↔ j = 0 := by simp [hsize.ne']
    have hone : insertNew [] j = [j] := rfl
    rw [Bool.and_eq_true, ← decide_not, decide_eq_true_iff, decide_eq_true_iff, bufAt, hzero, hone]
    constructor
    · rintro ⟨hlast, rfl⟩
      have hcount : count payload size = 1 := by omega
      rw [hcount]
      rfl
    · intro hrange
      have hcount : count payload size = 1 := by
        rw [← length_range (n := count payload size), ← hrange]
        rfl
      omega
  by_cases hall : insertNew [] j = range (count payload size)
  · have hlast := honly.mpr hall
    have htrue : (!decide (j + 1 < count payload size)) = true := (Bool.and_eq_true_iff.mp hlast).1
    rw [htrue] at hgrow
    rw [if_pos hlast, if_pos hall, hgrow, hall]
  · rw [if_neg (honly.not.mpr hall), if_neg hall]

variable (hlen : msgextSize + payload.length < 2 ^ 32)

include hlen

theorem assembleTp_collected (h : Arrived payload size idx)
    (hopen : idx ≠ range (count payload size)) (hj : j < count payload size) :
    (collected payload size idx).assembleTp (chunk payload size j) (j * size)
        (j + 1 < count payload size) =
      if insertNew idx j = range (count payload size) then
        (collected payload size (range (count payload size))).completeTp
      else (0, collected payload size (insertNew idx j)) := by
  cases idx with
  | nil => exact assembleTp_first hsize hj
  | cons i idx =>
    have hpayload : 0 < payload.length := by
      -- there are at least two segments: one arrived, and one is missing
      by_contra hempty
      refine hopen (h.eq_range_iff.mpr fun k hk => ?_)
      have hzero := (lt_count_iff hsize).mp hk
      have hi := (lt_count_iff hsize).mp (h.lt i mem_cons_self)
      obtain rfl : k = i := by omega
      exact mem_cons_self
    exact assembleTp_next hsize hpayload h hlen (cons_ne_nil i idx) hopen hj

variable (hdvd : 16 ∣ size)

include hdvd

variable {seen : List ℕ}

theorem receiveAll_collected (h : Arrived payload size idx)
    (hj : j < count payload size) (hidx : j ∉ idx) (hmissing : j ∉ seen)
    (hseen : ∀ i ∈ seen, i < count payload size ∧ i * size < 2 ^ 28) :
    (collected payload size idx).receiveAll (seen.map (segmentAt payload size)) =
      (seen.map fun _ => 0, collected payload size (seen.foldl insertNew idx)) := by
  induction seen generalizing idx with
  | nil => rfl
  | cons i seen ih =>
    obtain ⟨⟨hi, hfit⟩, hseen'⟩ := forall_mem_cons.mp hseen
    obtain ⟨hne, hmissing'⟩ := not_or.mp (mem_cons.not.mp hmissing)
    have hopen : ∀ {idx : List ℕ}, j ∉ idx → idx ≠ range (count payload size) :=
      fun hnot heq => hnot (heq ▸ mem_range.mpr hj)
    have hnext : j ∉ insertNew idx i := fun hmem => (mem_insertNew.mp hmem).elim hne hidx
    have hstep : (collected payload size idx).receive (segmentAt payload size i) =
        (0, collected payload size (insertNew idx i)) := by
      rw [receive_segmentAt hdvd _ hfit, assembleTp_collected hsize hlen h (hopen hidx) hi,
        if_neg (hopen hnext)]
    rw [map_cons, TpMessage.receiveAll, hstep]
    simp only [ih (h.insertNew hi) hnext hmissing' hseen']
    rfl

theorem receive_missing (hj : j < count payload size) (hmissing : j ∉ seen)
    (hall : ∀ i < count payload size, i ≠ j → i ∈ seen)
    (hseen : ∀ i ∈ seen, i < count payload size) (hfit : j * size < 2 ^ 28) :
    (collected payload size (ofList seen)).receive (segmentAt payload size j) =
      (collected payload size (range (count payload size))).completeTp := by
  have harrived : Arrived payload size (ofList seen) :=
    ⟨fun i hi => hseen i (mem_ofList.mp hi), pairwise_ofList seen, nodup_ofList seen⟩
  have hopen : ofList seen ≠ range (count payload size) :=
    fun heq => hmissing (mem_ofList.mp (heq ▸ mem_range.mpr hj))
  have hcomplete : insertNew (ofList seen) j = range (count payload size) := by
    refine (harrived.insertNew hj).eq_range_iff.mpr fun i hi => mem_insertNew.mpr ?_
    by_cases hij : i = j
    · exact Or.inl hij
    · exact Or.inr (mem_ofList.mpr (hall i hi hij))
  rw [receive_segmentAt hdvd _ hfit, assembleTp_collected hsize hlen harrived hopen hj,
    if_pos hcomplete]

end

theorem payload_completeTp (hsize : 0 < size) :
    (collected payload size
      (range (count payload size))).completeTp.2.payload.flatMap (·.data) = payload := by
  have hdata : (collected payload size
      (range (count payload size))).completeTp.2.payload.flatMap (·.data) =
        ((range (count payload size)).map (chunk payload size)).flatten := by
    simp only [TpMessage.completeTp, collected, map_map, flatMap_def]
    rfl
  rw [hdata, flatten_chunks hsize]

theorem len_completeTp (hsize : 0 < size) (hlen : msgextSize + payload.length < 2 ^ 32) :
    (collected payload size (range (count payload size))).completeTp.2.len.toNat =
      msgextSize + payload.length := by
  have htotal := total_range (l := payload) hsize
  rw [TpMessage.completeTp, collected, BitVec.toNat_ofNat, htotal]
  exact Nat.mod_eq_of_lt hlen

/-! ### Offsets that do not fit -/

theorem repeatTp_fst_ne_one (m : TpMessage) (c b : TpBuf) : (m.repeatTp c b).1 ≠ 1 := by
  unfold TpMessage.repeatTp
  split_ifs <;> simp

theorem repeatTp_of_fst_eq_zero {m : TpMessage} {c b : TpBuf} (h : (m.repeatTp c b).1 = 0) :
    m.repeatTp c b = (0, m) := by
  unfold TpMessage.repeatTp at h ⊢
  split_ifs at h ⊢
  · rfl
  · simp at h

section

variable (hsize : 0 < size)

include hsize

/-- A buffer that begins inside buffers without gaps overlaps one of them. -/
theorem exists_scanTp_overlaps {b : TpBuf} (hdata : 0 < b.data.length) {p n : ℕ}
    (hcount : p + n < count payload size) (hlo : p * size ≤ b.total)
    (hhi : b.total < (p + n) * size) (hole : Bool) (position : ℕ) :
    ∃ c, scanTp b ((List.range' p n).map (bufAt payload size)) hole position = .overlaps c := by
  induction n generalizing p hole position with
  | zero => exact absurd hlo (Nat.not_le_of_lt hhi)
  | succ n ih =>
    have hstop : (bufAt payload size p).offend = (p + 1) * size := stop_of_succ_lt hsize (by omega)
    have hbefore : ¬ b.offend ≤ (bufAt payload size p).total :=
      Nat.not_le_of_lt (hlo.trans_lt (Nat.lt_add_of_pos_right hdata))
    rw [range'_succ, map_cons]
    by_cases hbehind : (bufAt payload size p).offend ≤ b.total
    · rw [scanTp_of_behind hbefore hbehind]
      have hsum : p + 1 + n = p + (n + 1) := by omega
      obtain ⟨c, hc⟩ := ih (by omega) (hstop ▸ hbehind) (hsum ▸ hhi)
        (hole || (bufAt payload size p).total ≠ position)
        (if hole || (bufAt payload size p).total ≠ position then position
          else (bufAt payload size p).offend)
      exact ⟨c, by rw [hc]; rfl⟩
    · exact ⟨_, scanTp_of_overlap hbefore hbehind⟩

variable (hdvd : 16 ∣ size) {k : ℕ} (hk : k < count payload size) (hwrap : 2 ^ 28 ≤ k * size)
  {m : TpMessage} (hm : m.payload = (range k).map (bufAt payload size))
  (hlast : m.last = false)

include hdvd hk hwrap hm hlast

/-- Behind the segments whose offsets fit, any further one is taken for a part of them. -/
theorem exists_receive_eq_repeatTp {i : ℕ} (hi : i < count payload size) :
    ∃ c b, m.receive (segmentAt payload size i) =
      (m.setLast !decide (i + 1 < count payload size)).repeatTp c b := by
  have hk0 : k ≠ 0 := fun h => by simp [h] at hwrap
  have hpayload : 0 < payload.length :=
    (Nat.zero_le _).trans_lt (((lt_count_iff hsize).mp hk).resolve_left hk0)
  have hdata : 0 < (chunk payload size i).length := by
    have := lt_stop hsize hpayload hi
    rw [stop] at this
    omega
  have hstart : i * size % 2 ^ 28 < (0 + k) * size := by
    rw [Nat.zero_add]
    exact (Nat.mod_lt _ (by decide)).trans_le hwrap
  obtain ⟨c, hc⟩ : ∃ c, scanTp ⟨i * size % 2 ^ 28, chunk payload size i⟩ m.payload false 0 =
      .overlaps c := by
    rw [hm, range_eq_range']
    exact exists_scanTp_overlaps hsize hdata (by omega) (by simp) hstart false 0
  have htail : m.payload.getLast? = some (bufAt payload size (k - 1)) := by
    obtain ⟨k, rfl⟩ := Nat.exists_eq_succ_of_ne_zero hk0
    rw [hm, range_succ, map_append, map_singleton, getLast?_concat]
    rfl
  have hinside : ¬ (bufAt payload size (k - 1)).offend ≤ i * size % 2 ^ 28 := by
    have hstop : (bufAt payload size (k - 1)).offend = (k - 1 + 1) * size :=
      stop_of_succ_lt hsize (by omega)
    rw [hstop, Nat.sub_add_cancel (Nat.pos_of_ne_zero hk0)]
    omega
  refine ⟨c, ⟨i * size % 2 ^ 28, chunk payload size i⟩, ?_⟩
  rw [TpMessage.receive, off_segmentAt_mul hdvd, segmentAt]
  cases hmore : decide (i + 1 < count payload size) with
  | true =>
    have hsame : m.setLast (!true) = m := by rw [TpMessage.setLast, Bool.not_true, ← hlast]
    rw [assembleTp_more (b := ⟨i * size % 2 ^ 28, chunk payload size i⟩) htail,
      if_neg fun h => hinside (of_decide_eq_true (Bool.and_eq_true_iff.mp h).2),
      insertTp_of_overlaps hc, hsame]
  | false =>
    rw [assembleTp_last (b := ⟨i * size % 2 ^ 28, chunk payload size i⟩) htail, hlast,
      if_neg Bool.false_ne_true, if_neg hinside]
    exact insertTp_of_overlaps hc

/-- If none of them is reported, the message stays as it is. -/
theorem receiveAll_of_wrapped {seen : List ℕ} (hseen : ∀ i ∈ seen, i + 1 < count payload size)
    (hzero : ∀ r ∈ (m.receiveAll (seen.map (segmentAt payload size))).1, r = 0) :
    (m.receiveAll (seen.map (segmentAt payload size))).2 = m := by
  induction seen with
  | nil => rfl
  | cons i seen ih =>
    obtain ⟨hi, hseen'⟩ := forall_mem_cons.mp hseen
    rw [map_cons, TpMessage.receiveAll] at hzero ⊢
    obtain ⟨hfirst, hrest⟩ := forall_mem_cons.mp hzero
    obtain ⟨c, b, hstep⟩ := exists_receive_eq_repeatTp hsize hdvd hk hwrap hm hlast
      (Nat.lt_of_succ_lt hi)
    have hsame : m.setLast (!decide (i + 1 < count payload size)) = m := by
      rw [TpMessage.setLast, decide_eq_true hi, Bool.not_true, ← hlast]
    rw [hsame] at hstep
    rw [hstep] at hfirst hrest ⊢
    rw [repeatTp_of_fst_eq_zero hfirst] at hrest ⊢
    exact ih hseen' hrest

end

/-! ### The round trip -/

theorem delivers_iff {f : ℕ → TpSegment} {n : ℕ} :
    Delivers payload ((range n).map f) ↔
      ∀ (seen : List ℕ) (j : ℕ), (∀ i ∈ seen, i < n) → j < n → j ∉ seen →
        (∀ i < n, i ≠ j → i ∈ seen) → CompletedBy payload (seen.map f) (f j) := by
  have hlength : ((range n).map f).length = n := by simp
  have hget : ((range n).map f).get = f ∘ Fin.val := by
    funext i
    simp
  rw [Delivers, hget]
  constructor
  · intro h seen j hseen hj hmissing hall
    have hvals : (seen.pmap (fun i hi => (⟨i, hi⟩ : Fin ((range n).map f).length))
        fun i hi => (hseen i hi).trans_eq hlength.symm).map Fin.val = seen := by
      simp [map_pmap]
    have hmem : ∀ i : Fin ((range n).map f).length,
        i ∈ seen.pmap (fun i hi => (⟨i, hi⟩ : Fin ((range n).map f).length))
          (fun i hi => (hseen i hi).trans_eq hlength.symm) ↔ i.val ∈ seen := by
      intro i
      simp [Fin.ext_iff]
    have hstep := h _ ⟨j, hj.trans_eq hlength.symm⟩ ((hmem _).not.mpr hmissing)
      fun i hi => (hmem i).mpr (hall i (i.isLt.trans_eq hlength) fun heq => hi (Fin.ext heq))
    rw [← map_map, hvals] at hstep
    exact hstep
  · intro h seen j hmissing hall
    rw [← map_map]
    refine h (seen.map Fin.val) j ?_ (j.isLt.trans_eq hlength) ?_ ?_
    · intro i hi
      obtain ⟨i, -, rfl⟩ := mem_map.mp hi
      exact i.isLt.trans_eq hlength
    · intro hmem
      obtain ⟨i, hi, hij⟩ := mem_map.mp hmem
      exact hmissing (Fin.ext hij ▸ hi)
    · intro i hi hij
      have hmem := hall ⟨i, hi.trans_eq hlength.symm⟩ fun heq => hij (congrArg Fin.val heq)
      exact mem_map.mpr ⟨_, hmem, rfl⟩

section

variable (hsize : 0 < size) (hdvd : 16 ∣ size) (hlen : msgextSize + payload.length < 2 ^ 32)

include hsize hdvd hlen

theorem receiveAll_segments {seen : List ℕ} {j : ℕ} (hj : j < count payload size)
    (hmissing : j ∉ seen) (hseen : ∀ i ∈ seen, i < count payload size ∧ i * size < 2 ^ 28) :
    ({} : TpMessage).receiveAll (seen.map (segmentAt payload size)) =
      (seen.map fun _ => 0, collected payload size (ofList seen)) := by
  have hnil : Arrived payload size [] := ⟨by simp, List.Pairwise.nil, nodup_nil⟩
  exact receiveAll_collected hsize hlen hdvd hnil hj not_mem_nil hmissing hseen

theorem delivers_of_lt (hfit : ∀ i < count payload size, i * size < 2 ^ 28) :
    Delivers payload ((range (count payload size)).map (segmentAt payload size)) := by
  refine delivers_iff.mpr fun seen j hseen hj hmissing hall => ?_
  have hbefore := receiveAll_segments hsize hdvd hlen hj hmissing
    fun i hi => ⟨hseen i hi, hfit i (hseen i hi)⟩
  have hfinal := receive_missing hsize hlen hdvd hj hmissing hall hseen (hfit j hj)
  rw [CompletedBy, hbefore, hfinal]
  refine ⟨?_, rfl, payload_completeTp hsize, len_completeTp hsize hlen⟩
  intro r hr
  obtain ⟨-, -, rfl⟩ := mem_map.mp hr
  rfl

/-- If some offset does not fit, the segments do not complete the message in the order in which
they are sent. -/
theorem lt_of_delivers
    (h : Delivers payload ((range (count payload size)).map (segmentAt payload size)))
    {i : ℕ} (hi : i < count payload size) : i * size < 2 ^ 28 := by
  by_contra hwrapped
  have hex : ∃ k, 2 ^ 28 ≤ k * size := ⟨i, Nat.le_of_not_lt hwrapped⟩
  obtain ⟨k, hwrap, hfirst⟩ : ∃ k, 2 ^ 28 ≤ k * size ∧ ∀ l < k, l * size < 2 ^ 28 :=
    ⟨Nat.find hex, Nat.find_spec hex, fun l hl => Nat.lt_of_not_le (Nat.find_min hex hl)⟩
  have hk : k < count payload size := by
    refine Nat.lt_of_not_le fun hle => ?_
    exact absurd (hfirst i (hi.trans_le hle)) hwrapped
  -- the segments with offsets that fit, and then the others but for the last one
  obtain ⟨hzero, hone, -⟩ := delivers_iff.mp h
    (range k ++ List.range' k (count payload size - 1 - k)) (count payload size - 1)
    (by simp; omega) (by omega) (by simp; omega) (by simp; omega)
  have hbefore := receiveAll_segments hsize hdvd hlen
    (Nat.sub_lt (Nat.zero_lt_of_lt hk) Nat.one_pos)
    (show count payload size - 1 ∉ range k by simp; omega)
    (fun l hl => ⟨(mem_range.mp hl).trans hk, hfirst l (mem_range.mp hl)⟩)
  have hofList : ofList (range k) = range k :=
    eq_of_pairwise_of_mem_iff (fun _ _ => Nat.le_antisymm) (nodup_ofList _) nodup_range
      (pairwise_ofList _) pairwise_le_range fun _ => mem_ofList
  have hlast : (collected payload size (range k)).last = false :=
    decide_eq_false (by rw [mem_range]; omega)
  rw [hofList] at hbefore
  rw [map_append, receiveAll_append, hbefore] at hzero hone
  have hsame := receiveAll_of_wrapped hsize hdvd hk hwrap rfl hlast
    (fun l hl => by have := mem_range'_1.mp hl; omega)
    (fun r hr => hzero r (mem_append_right _ hr))
  rw [hsame] at hone
  obtain ⟨c, b, hstep⟩ := exists_receive_eq_repeatTp hsize hdvd hk hwrap rfl hlast
    (Nat.sub_lt (Nat.zero_lt_of_lt hk) Nat.one_pos)
  rw [hstep] at hone
  exact repeatTp_fst_ne_one _ c b hone

end

/-- A message within the limit of the receiver makes the round trip exactly if each segment takes
its bytes from at most 63 buffers and begins in the first `2 ^ 28` bytes. -/
theorem roundTrip_iff {mss : ℕ} {bufs : List MsgBuf} (tpmLimit : uint32) (heos : EosLast bufs)
    (hmss : 36 ≤ mss) (hlimit : msgextSize + (payloadOf bufs).length ≤ tpmLimit.toNat) :
    RoundTrip mss bufs ↔
      ∀ i < count (payloadOf bufs) (segmentSize mss),
        buffersOf bufs (segmentSize mss) i ≤ vaCount - 1 ∧ i * segmentSize mss < 2 ^ 28 := by
  have hsize : 0 < segmentSize mss := by
    have hdiv : 0 < (mss - 20) / 16 := Nat.div_pos (by omega) (by decide)
    exact Nat.mul_pos hdiv (by decide)
  have hdvd : 16 ∣ segmentSize mss := Dvd.intro_left _ rfl
  have hlen : msgextSize + (payloadOf bufs).length < 2 ^ 32 := hlimit.trans_lt tpmLimit.isLt
  rcases sendMessage_spec heos hsize with ⟨hbuffers, hsend⟩ | ⟨⟨k, hk, hmany⟩, hsend⟩
  · constructor
    · rintro ⟨segments, hok, hdelivers⟩ i hi
      obtain rfl := Except.ok.inj (Option.some.inj (hsend.symm.trans hok))
      exact ⟨hbuffers i hi, lt_of_delivers hsize hdvd hlen hdelivers hi⟩
    · intro h
      exact ⟨_, hsend, delivers_of_lt hsize hdvd hlen fun i hi => (h i hi).2⟩
  · constructor
    · rintro ⟨segments, hok, -⟩
      simp [hsend] at hok
    · intro h
      exact absurd (h k hk).1 (Nat.not_le_of_lt hmany)

theorem roundTrip_three_buffers :
    RoundTrip 36 [⟨List.replicate 9 1, false⟩, ⟨[], false⟩, ⟨List.replicate 17 2, false⟩] :=
  (roundTrip_iff 34 (by unfold EosLast; decide) (by decide) (by decide)).mpr (by decide)

/-- A payload of 128 bytes, each in a buffer of its own, is not sent. -/
theorem not_roundTrip : ¬ RoundTrip 100 (List.replicate 128 ⟨[0], false⟩) := by
  rintro ⟨segments, hok, -⟩
  have hsend : sendMessage 100 (List.replicate 128 ⟨[0], false⟩) = some (.error .eoverflow) := by
    decide +kernel
  cases Option.some.inj (hsend.symm.trans hok)

end AdaptivePlatform.Nsomeip
