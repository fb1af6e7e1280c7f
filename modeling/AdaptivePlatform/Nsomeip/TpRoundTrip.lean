import AdaptivePlatform.Foundations.OrderedSets
import AdaptivePlatform.Nsomeip.TpSegments

/-!
# The round trip of a segmented message

The receiver has the segments that arrived so far in the order of their
offsets, each once. A new one is put between them, and the message is complete
as soon as none is missing, whatever the order was and whichever segments came
more than once.
-/
namespace AdaptivePlatform.Nsomeip

open Chunks OrderedSets List
open OrderedSets (insertNew)
open List (range)
open TpMessage hiding last

variable {payload : List uint8} {size j : ℕ} {idx : List ℕ}

def bufAt (payload : List uint8) (size i : ℕ) : TpBuf := ⟨i * size, chunk payload size i⟩

def collected (payload : List uint8) (size : ℕ) (idx : List ℕ) : TpMessage where
  payload := idx.map (bufAt payload size)
  len := BitVec.ofNat 32 (msgextSize + total payload size idx)
  last := count payload size - 1 ∈ idx

section

variable (hsize : 0 < size)

include hsize

theorem offend_bufAt_le {i j : ℕ} (hij : i < j) (hj : j < count payload size) :
    (bufAt payload size i).offend ≤ (bufAt payload size j).total :=
  stop_le_mul_of_lt hsize hij hj

variable (hpayload : 0 < payload.length)

include hpayload

theorem not_offend_bufAt_le {i : ℕ} (hij : i ≤ j) (hj : j < count payload size) :
    ¬ (bufAt payload size j).offend ≤ (bufAt payload size i).total := by
  have hlt : j * size < stop payload size j := lt_stop hsize hpayload hj
  have hle : i * size ≤ j * size := Nat.mul_le_mul_right size hij
  exact Nat.not_le_of_lt (hle.trans_lt hlt)

theorem scanTp_of_mem (hidx : ∀ i ∈ idx, i < count payload size) (hsorted : idx.Pairwise (· ≤ ·))
    (hj : j ∈ idx) (hole : Bool) (position : ℕ) :
    scanTp (bufAt payload size j) (idx.map (bufAt payload size)) hole position =
      .overlaps (bufAt payload size j) := by
  induction idx generalizing hole position with
  | nil => exact absurd hj not_mem_nil
  | cons i idx ih =>
    obtain ⟨hi, hidx'⟩ := forall_mem_cons.mp hidx
    obtain ⟨hle, hsorted'⟩ := pairwise_cons.mp hsorted
    rw [map_cons]
    by_cases hij : j = i
    · rw [hij, scanTp_of_overlap (not_offend_bufAt_le hsize hpayload le_rfl hi)
        (not_offend_bufAt_le hsize hpayload le_rfl hi)]
    · have hmem : j ∈ idx := (mem_cons.mp hj).resolve_left hij
      have hlt : i < j := lt_of_le_of_ne (hle j hmem) (Ne.symm hij)
      rw [scanTp_of_behind (not_offend_bufAt_le hsize hpayload hlt.le (hidx j hj))
        (offend_bufAt_le hsize hlt (hidx j hj)), ih hidx' hsorted' hmem]
      rfl

theorem exists_scanTp_of_notMem (hidx : ∀ i ∈ idx, i < count payload size)
    (hj : j < count payload size) (hnew : j ∉ idx) (hole : Bool) (position : ℕ) :
    ∃ gap, scanTp (bufAt payload size j) (idx.map (bufAt payload size)) hole position =
      .placed ((idx.orderedInsert (· ≤ ·) j).map (bufAt payload size)) gap := by
  induction idx generalizing hole position with
  | nil => exact ⟨_, rfl⟩
  | cons i idx ih =>
    obtain ⟨hi, hidx'⟩ := forall_mem_cons.mp hidx
    obtain ⟨hne, hnew'⟩ := not_or.mp (mem_cons.not.mp hnew)
    rw [map_cons, orderedInsert_cons]
    split_ifs with hle
    · rw [scanTp_of_before (offend_bufAt_le hsize (lt_of_le_of_ne hle hne) hi)]
      exact ⟨_, rfl⟩
    · have hlt : i < j := Nat.lt_of_not_le hle
      rw [scanTp_of_behind (not_offend_bufAt_le hsize hpayload hlt.le hj)
        (offend_bufAt_le hsize hlt hj)]
      obtain ⟨gap, hgap⟩ := ih hidx' hnew' (hole || (bufAt payload size i).total ≠ position)
        (if hole || (bufAt payload size i).total ≠ position then position
          else (bufAt payload size i).offend)
      exact ⟨gap, by rw [hgap]; rfl⟩

theorem scanTp_of_complete {p n : ℕ} (hnew : j ∉ idx)
    (hcomplete : idx.orderedInsert (· ≤ ·) j = List.range' p n)
    (hcount : p + n = count payload size) :
    scanTp (bufAt payload size j) (idx.map (bufAt payload size)) false (p * size) =
      .placed ((idx.orderedInsert (· ≤ ·) j).map (bufAt payload size)) false := by
  induction idx generalizing p n with
  | nil =>
    cases n with
    | zero => simp at hcomplete
    | succ n =>
      obtain rfl : j = p := (cons.inj hcomplete).1
      simp [scanTp, bufAt]
  | cons i idx ih =>
    obtain ⟨hne, hnew'⟩ := not_or.mp (mem_cons.not.mp hnew)
    rw [orderedInsert_cons] at hcomplete
    cases n with
    | zero => split_ifs at hcomplete <;> simp at hcomplete
    | succ n =>
      rw [map_cons, orderedInsert_cons]
      split_ifs at hcomplete ⊢ with hle
      · -- it is the first, and the next one follows
        obtain ⟨rfl, hrest⟩ := cons.inj hcomplete
        cases n with
        | zero => simp at hrest
        | succ n =>
          obtain rfl : i = j + 1 := (cons.inj hrest).1
          have hi : j + 1 < count payload size := by omega
          have hstop : (bufAt payload size j).offend = (bufAt payload size (j + 1)).total :=
            stop_of_succ_lt hsize hi
          rw [scanTp_of_before hstop.le, hstop]
          simp [bufAt]
      · obtain ⟨rfl, hrest⟩ := cons.inj hcomplete
        have hlt : i < j := Nat.lt_of_not_le hle
        have hj : j < count payload size := by
          have hmem : j ∈ List.range' (i + 1) n := by
            rw [← hrest]
            exact (mem_orderedInsert _).mpr (Or.inl rfl)
          have := (mem_range'_1.mp hmem).2
          omega
        have hstop : (bufAt payload size i).offend = (i + 1) * size :=
          stop_of_succ_lt hsize (by omega)
        rw [scanTp_of_behind (not_offend_bufAt_le hsize hpayload hlt.le hj)
          (offend_bufAt_le hsize hlt hj), hstop]
        have hjoin : (false || decide ((bufAt payload size i).total ≠ i * size)) = false := by
          simp [bufAt]
        rw [hjoin, if_neg Bool.false_ne_true, ih hnew' hrest (by omega)]
        rfl

end

/-- Segments of the message in the order of their offsets, each once. -/
structure Arrived (payload : List uint8) (size : ℕ) (idx : List ℕ) : Prop where
  lt : ∀ i ∈ idx, i < count payload size
  sorted : idx.Pairwise (· ≤ ·)
  nodup : idx.Nodup

theorem Arrived.insertNew (h : Arrived payload size idx) (hj : j < count payload size) :
    Arrived payload size (insertNew idx j) where
  lt i hi := by
    rcases mem_insertNew.mp hi with rfl | hi
    · exact hj
    · exact h.lt i hi
  sorted := pairwise_insertNew h.sorted j
  nodup := nodup_insertNew h.nodup j

theorem Arrived.eq_range_iff (h : Arrived payload size idx) :
    idx = range (count payload size) ↔ ∀ i < count payload size, i ∈ idx := by
  constructor
  · rintro rfl i hi
    exact mem_range.mpr hi
  · intro hall
    refine eq_of_pairwise_of_mem_iff (fun _ _ => Nat.le_antisymm) h.nodup nodup_range h.sorted
      pairwise_le_range fun i => ?_
    rw [mem_range]
    exact ⟨h.lt i, hall i⟩

theorem insertNew_of_notMem (hnew : j ∉ idx) :
    insertNew idx j = idx.orderedInsert (· ≤ ·) j := if_neg hnew

theorem total_insertNew (hnew : j ∉ idx) :
    total payload size (insertNew idx j) =
      total payload size idx + (chunk payload size j).length := by
  rw [insertNew_of_notMem hnew, total, ((perm_orderedInsert _ j idx).map _).sum_eq,
    map_cons, sum_cons, Nat.add_comm, ← total]

theorem grow_collected (hnew : j ∉ idx) {last : Bool}
    (hlast : last = decide (count payload size - 1 ∈ insertNew idx j)) :
    ((collected payload size idx).grow (bufAt payload size j)
        ((insertNew idx j).map (bufAt payload size))).setLast last =
      collected payload size (insertNew idx j) := by
  simp only [collected, total_insertNew hnew, ← Nat.add_assoc, BitVec.ofNat_add, hlast]
  rfl

theorem grow_collected_more (hnew : j ∉ idx) (hj : j ≠ count payload size - 1) :
    (collected payload size idx).grow (bufAt payload size j)
        ((insertNew idx j).map (bufAt payload size)) =
      collected payload size (insertNew idx j) := by
  rw [← grow_collected hnew rfl]
  simp only [mem_insertNew, hj.symm, false_or]
  rfl

theorem Arrived.le_of_getLast? (h : Arrived payload size idx) {t : ℕ} (ht : idx.getLast? = some t)
    {i : ℕ} (hi : i ∈ idx) : i ≤ t := by
  obtain ⟨before, rfl⟩ := getLast?_eq_some_iff.mp ht
  rcases mem_append.mp hi with hi | hi
  · exact (pairwise_append.mp h.sorted).2.2 i hi t (mem_singleton_self t)
  · exact (mem_singleton.mp hi).le

theorem Arrived.getLast?_eq (h : Arrived payload size idx) (hlast : count payload size - 1 ∈ idx) :
    idx.getLast? = some (count payload size - 1) := by
  cases ht : idx.getLast? with
  | none =>
    rw [getLast?_eq_none_iff.mp ht] at hlast
    exact absurd hlast not_mem_nil
  | some t =>
    have hle := h.le_of_getLast? ht hlast
    have hlt := h.lt t (mem_of_getLast? ht)
    congr 1
    omega

theorem insertNew_ne_range (hj : j ≠ count payload size - 1)
    (hlast : count payload size - 1 ∉ idx) :
    insertNew idx j ≠ range (count payload size) := by
  intro h
  have hmem : count payload size - 1 ∈ insertNew idx j := by
    rw [h, mem_range]
    exact Nat.sub_lt (Nat.succ_pos _) Nat.one_pos
  rcases mem_insertNew.mp hmem with heq | hmem
  · exact hj heq.symm
  · exact hlast hmem

section

variable (hsize : 0 < size) (hpayload : 0 < payload.length) (h : Arrived payload size idx)

theorem collected_append (hnew : j ∉ idx) (habove : ∀ i ∈ idx, i < j) :
    (collected payload size idx).payload ++ [bufAt payload size j] =
      (insertNew idx j).map (bufAt payload size) := by
  rw [insertNew_eq_append hnew fun i hi => Nat.not_le_of_lt (habove i hi), map_append]
  rfl

include hsize hpayload h

theorem insertTp_of_mem (hj : j ∈ idx) :
    (collected payload size idx).insertTp (bufAt payload size j) =
      (0, collected payload size idx) := by
  have hscan := scanTp_of_mem hsize hpayload h.lt h.sorted hj false 0
  rw [insertTp_of_overlaps hscan, repeatTp_self]

variable (hlen : msgextSize + payload.length < 2 ^ 32)

include hlen

theorem isComplete_collected_iff :
    (collected payload size idx).isComplete payload.length = true ↔
      idx = range (count payload size) := by
  have hle := total_le hsize h.nodup h.lt
  have hmod : (msgextSize + total payload size idx) % 2 ^ 32 =
      msgextSize + total payload size idx := Nat.mod_eq_of_lt (by omega)
  rw [h.eq_range_iff, ← total_eq_length_iff hsize hpayload h.nodup h.lt, TpMessage.isComplete,
    decide_eq_true_iff, collected, BitVec.toNat_ofNat, hmod]
  omega

theorem insertTp_of_notMem (hj : j < count payload size) (hmore : j ≠ count payload size - 1)
    (hnew : j ∉ idx) :
    (collected payload size idx).insertTp (bufAt payload size j) =
      if insertNew idx j = range (count payload size) then
        (collected payload size (range (count payload size))).completeTp
      else (0, collected payload size (insertNew idx j)) := by
  obtain ⟨gap, hscan⟩ := exists_scanTp_of_notMem hsize hpayload h.lt hj hnew false 0
  rw [← insertNew_of_notMem hnew] at hscan
  rw [insertTp_of_placed hscan, grow_collected_more hnew hmore]
  by_cases hlast : count payload size - 1 ∈ idx
  · have htail := (h.insertNew hj).getLast?_eq (mem_insertNew.mpr (Or.inr hlast))
    have hend : (((insertNew idx j).map (bufAt payload size)).getLast?.map TpBuf.offend).getD 0 =
        payload.length := by
      rw [getLast?_map, htail]
      exact stop_last hsize
    have hcomplete := isComplete_collected_iff hsize hpayload (h.insertNew hj) hlen
    have hseen : (collected payload size idx).last = true := decide_eq_true hlast
    rw [hend, hseen, Bool.not_true, Bool.or_false]
    cases gap with
    | true =>
      -- the message is not complete, or there would be no gap
      rw [if_pos rfl, if_neg]
      intro hall
      have hnone := scanTp_of_complete hsize hpayload hnew
        (by rw [← insertNew_of_notMem hnew, hall, range_eq_range']) (Nat.zero_add _)
      rw [Nat.zero_mul, ← insertNew_of_notMem hnew] at hnone
      exact absurd (TpScan.placed.inj (hscan.symm.trans hnone)).2 Bool.true_eq_false_eq_False
    | false =>
      rw [if_neg Bool.false_ne_true]
      by_cases hall : insertNew idx j = range (count payload size)
      · rw [if_pos (hcomplete.mpr hall), if_pos hall, hall]
      · rw [if_neg (hcomplete.not.mpr hall), if_neg hall]
  · have hseen : (collected payload size idx).last = false := decide_eq_false hlast
    rw [hseen, Bool.not_false, Bool.or_true, if_pos rfl, if_neg (insertNew_ne_range hmore hlast)]

theorem assembleTp_next (hne : idx ≠ []) (hopen : idx ≠ range (count payload size))
    (hj : j < count payload size) :
    (collected payload size idx).assembleTp (chunk payload size j) (j * size)
        (j + 1 < count payload size) =
      if insertNew idx j = range (count payload size) then
        (collected payload size (range (count payload size))).completeTp
      else (0, collected payload size (insertNew idx j)) := by
  obtain ⟨t, ht⟩ : ∃ t, idx.getLast? = some t :=
    Option.ne_none_iff_exists'.mp (getLast?_eq_none_iff.not.mpr hne)
  have htail : (collected payload size idx).payload.getLast? = some (bufAt payload size t) := by
    rw [collected, getLast?_map, ht]
    rfl
  have hrepeat : j ∈ idx → insertNew idx j = idx := fun hmem => if_pos hmem
  change (collected payload size idx).assembleTp (bufAt payload size j).data
    (bufAt payload size j).total _ = _
  by_cases hmore : j = count payload size - 1
  · have hfalse : decide (j + 1 < count payload size) = false := decide_eq_false (by omega)
    rw [hfalse, assembleTp_last htail]
    subst hmore
    by_cases hmem : count payload size - 1 ∈ idx
    · -- the last segment again
      have hseen : (collected payload size idx).last = true := decide_eq_true hmem
      obtain rfl : count payload size - 1 = t :=
        Option.some.inj ((h.getLast?_eq hmem).symm.trans ht)
      rw [hseen, if_pos rfl, repeatTp_self, hrepeat hmem, if_neg hopen]
    · have hseen : (collected payload size idx).last = false := decide_eq_false hmem
      have habove : ∀ i ∈ idx, i < count payload size - 1 := by
        intro i hi
        have hlt := h.lt i hi
        have hne : i ≠ count payload size - 1 := fun heq => hmem (heq ▸ hi)
        omega
      have hlast :
          true = decide (count payload size - 1 ∈ insertNew idx (count payload size - 1)) :=
        (decide_eq_true (mem_insertNew.mpr (Or.inl rfl))).symm
      have hgrow := grow_collected hmem hlast
      have hcomplete := isComplete_collected_iff hsize hpayload (h.insertNew hj) hlen
      have hoffend : (bufAt payload size (count payload size - 1)).offend = payload.length :=
        stop_last hsize
      rw [hseen, if_neg Bool.false_ne_true, collected_append hmem habove, hgrow, hoffend,
        if_pos (offend_bufAt_le hsize (habove t (mem_of_getLast? ht)) hj)]
      rw [← hgrow, isComplete_setLast] at hcomplete
      by_cases hall : insertNew idx (count payload size - 1) = range (count payload size)
      · rw [if_pos (hcomplete.mpr hall), if_pos hall, hall]
      · rw [if_neg (hcomplete.not.mpr hall), if_neg hall]
  · have htrue : decide (j + 1 < count payload size) = true := decide_eq_true (by omega)
    rw [htrue, assembleTp_more htail]
    by_cases hfast : (!(collected payload size idx).last &&
        decide ((bufAt payload size t).offend ≤ (bufAt payload size j).total)) = true
    · -- behind all others, and the last segment is missing
      obtain ⟨hlast, htj⟩ := Bool.and_eq_true_iff.mp hfast
      have hlast : count payload size - 1 ∉ idx := by simpa [collected] using hlast
      have htj : t < j := Nat.lt_of_not_le fun hjt =>
        not_offend_bufAt_le hsize hpayload hjt (h.lt t (mem_of_getLast? ht)) (of_decide_eq_true htj)
      have habove : ∀ i ∈ idx, i < j := fun i hi => (h.le_of_getLast? ht hi).trans_lt htj
      have hmem : j ∉ idx := fun hi => Nat.lt_irrefl j (habove j hi)
      rw [if_pos hfast, collected_append hmem habove, grow_collected_more hmem hmore,
        if_neg (insertNew_ne_range hmore hlast)]
    · rw [if_neg hfast]
      by_cases hmem : j ∈ idx
      · rw [insertTp_of_mem hsize hpayload h hmem, hrepeat hmem, if_neg hopen]
      · exact insertTp_of_notMem hsize hpayload h hlen hj hmore hmem

end

end AdaptivePlatform.Nsomeip
