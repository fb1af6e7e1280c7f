import AdaptivePlatform.Foundations.Runs
import AdaptivePlatform.Npc.ZoneAllocation
import AdaptivePlatform.Npc.ZoneRelease

/-!
# Consistent zones

The blocks that the users hold are the runs that the tables have as taken. Every call
keeps this, as long as it leaves a block in each segment that it frees blocks of.
-/
namespace AdaptivePlatform.Npc

open Function Tilings LinkedRings List ZoneAct
open Tilings (total)
open Finset hiding ext
open ZoneConf (secEnd secStart)

variable {conf : ZoneConf} {z : MZone} {k : ℕ} {rows : ℕ → List (Piece Use)}

namespace MZone

/-- The walk through a list finds the first run of it that is long enough. -/
theorem findFit_ring {z : MZone} {list : ℕ} {xs : List ℕ} {fuel ent : ℕ} (count : ℕ)
    (hchain : List.IsChain (LinkedRings.Joined z.next z.prev) (xs ++ [list])) (hlist : list ∉ xs)
    (hfuel : xs.length < fuel) (hent : (xs ++ [list]).head? = some ent) :
    z.findFit list count fuel ent = some (xs.find? fun e => count ≤ z.count e) := by
  induction xs generalizing fuel ent with
  | nil =>
    obtain ⟨fuel, rfl⟩ := Nat.exists_eq_add_one_of_ne_zero (by omega : fuel ≠ 0)
    obtain rfl : list = ent := by simpa using hent
    simp [findFit]
  | cons x xs ih =>
    obtain ⟨fuel, rfl⟩ := Nat.exists_eq_add_one_of_ne_zero (by omega : fuel ≠ 0)
    obtain rfl : x = ent := by simpa using hent
    rw [List.mem_cons, not_or] at hlist
    rw [findFit, if_neg (Ne.symm hlist.1), find?_cons]
    by_cases hfit : count ≤ z.count x
    · simp [hfit]
    · rw [cons_append, isChain_cons] at hchain
      obtain ⟨e, he⟩ : ∃ e, (xs ++ [list]).head? = some e := by cases xs <;> simp
      have hnext : z.next x = e := (hchain.1 e he).1
      simp only [hfit]
      exact ih hchain.2 hlist.2 (by simpa using hfuel) (hnext ▸ he)

theorem length_list_le (h : Layout conf z.toZoneTables k rows) {xs : List ℕ} (hnodup : xs.Nodup)
    (hxs : ∀ x ∈ xs, ∃ r, FreeRun conf k rows x r) :
    xs.length < 17 + conf.segCount * conf.secCount := by
  have hsub : xs.toFinset ⊆ Finset.range (16 + conf.segCount * conf.secCount) := by
    intro x hx
    obtain ⟨r, n, hn, hr⟩ := hxs x (mem_toFinset.1 hx)
    have hb := h.mem_bounds hn hr
    have hle : (n + 1) * conf.secCount ≤ conf.segCount * conf.secCount :=
      Nat.mul_le_mul_right _ (lt_of_lt_of_le hn h.le)
    rw [Nat.succ_mul] at hle
    unfold secEnd secStart at hb
    rw [Finset.mem_range]
    omega
  have hcard := card_le_card hsub
  rw [toFinset_card_of_nodup hnodup, card_range] at hcard
  omega

/-- What the search through the lists finds is a free run that is long enough, in its list. -/
theorem findList_layout (h : Layout conf z.toZoneTables k rows) (count : ℕ) {m n : ℕ}
    (hmn : n + m ≤ 16) : ∃ r, z.findList conf count m n = some r ∧ ∀ list sec,
      r = some (list, sec) → FreeRun conf k rows sec (z.count sec) ∧
        msectPlistIndex (z.count sec) = list ∧ count ≤ z.count sec := by
  obtain ⟨lists, hrings, hmem⟩ := h.filed
  induction m generalizing n with
  | zero => exact ⟨none, rfl, by simp⟩
  | succ m ih =>
    have hn : n < 16 := by omega
    have hring := hrings.ring n hn
    rw [LinkedRings.Ring, cons_append, isChain_cons] at hring
    obtain ⟨e, he⟩ : ∃ e, (lists n ++ [n]).head? = some e := by cases lists n <;> simp
    have hlen : (lists n).length < 17 + conf.segCount * conf.secCount := by
      apply length_list_le h (hrings.nodup n hn)
      intro x hx
      obtain ⟨r, hr, -⟩ := (hmem n hn x).1 hx
      exact ⟨r, hr⟩
    have hfit := findFit_ring count hring.2 (nodup_cons.1 (hrings.cons_nodup hn)).1 hlen he
    rw [findList, (hring.1 e he).1, hfit]
    cases hfind : (lists n).find? fun e => count ≤ z.count e with
    | none => exact ih (by omega)
    | some sec =>
      refine ⟨_, rfl, ?_⟩
      intro list sec' heq
      obtain ⟨rfl, rfl⟩ : n = list ∧ sec = sec' := by simpa using heq
      obtain ⟨r, hr, hidx⟩ := (hmem n hn sec).1 (mem_of_find?_eq_some hfind)
      obtain ⟨s, hs, hr'⟩ := hr
      have hcount := (h.freeTag hs hr').count
      rw [hcount]
      exact ⟨⟨s, hs, hr'⟩, hidx, by simpa [hcount] using find?_some hfind⟩

end MZone

section

variable (conf : ZoneConf) (uid : uint32) (n : ℕ) (blocks : Finset Block)

/-- The block is in segment `n`. -/
abbrev Block.InSegm (b : Block) : Prop := conf.secStart n ≤ b.start ∧ b.start < conf.secEnd n

/-- A segment with a block of `uid` has one of another user. -/
def Shared (n : ℕ) : Prop :=
  ∀ b ∈ blocks, b.owner = uid → b.InSegm conf n → ∃ b' ∈ blocks, b'.owner ≠ uid ∧ b'.InSegm conf n

/-- The blocks that are left when those of `uid` in segment `n` are freed. -/
def cleaned : Finset Block := blocks.filter fun b => ¬ (b.owner = uid ∧ b.InSegm conf n)

end

/-- The zone holds these blocks: the runs that its layout has as taken. -/
structure ZoneHolds (conf : ZoneConf) (z : MZone) (blocks : Finset Block) (k : ℕ)
    (rows : ℕ → List (Piece Use)) : Prop where
  layout : Layout conf z.toZoneTables k rows
  logValid : z.logValid = false
  taken : ∀ b, b ∈ blocks ↔ Run conf k rows b.start ⟨b.count, .taken b.owner⟩
  used : z.used = ∑ b ∈ blocks, b.count

namespace ZoneHolds

variable {blocks : Finset Block} {self : uint32} {count : ℕ} {b : Block}

section

variable (h : ZoneHolds conf z blocks k rows)

include h

theorem not_mem_of_free {x r : ℕ} (hx : FreeRun conf k rows x r)
    (hstart : x ≤ b.start ∧ b.start < x + r) : b ∉ blocks := by
  intro hb
  obtain ⟨n, hn, hx⟩ := hx
  obtain ⟨m, hm, hmem⟩ := (h.taken b).1 hb
  have hpos := (h.layout.mem_bounds hm hmem).2.1
  obtain ⟨-, heq⟩ := h.layout.eq_of_overlap hn hm hx hmem hstart
    ⟨le_rfl, Nat.lt_add_of_pos_right hpos⟩
  simp at heq

theorem allocSects (self : uint32) {sec c : ℕ} (hsec : FreeRun conf k rows sec c)
    (hcount : 0 < count) (hle : count ≤ c) : ∃ rows',
      ZoneHolds conf ((ZoneAct.allocSects (msectPlistIndex c) sec count self).run z)
        (insert ⟨sec + (c - count), count, self⟩ blocks) k rows' := by
  obtain ⟨s, hs, hmem⟩ := id hsec
  obtain ⟨as, bs, hrow, hstart⟩ := exists_split_of_mem hmem
  rw [append_cons] at hrow
  obtain ⟨left, rfl, hleft⟩ : ∃ left : Option ℕ, c = left.getD 0 + count ∧ ∀ l ∈ left, 0 < l := by
    rcases hle.eq_or_lt with rfl | hlt
    · exact ⟨none, by simp⟩
    · exact ⟨some (c - count), by simp; omega⟩
  have hrun := h.layout.run_replace hs hrow hstart
    (by simp : total (gap left ++ [⟨count, .taken self⟩]) = _)
  rw [Nat.add_sub_cancel]
  refine ⟨_, h.layout.allocSects hrow hstart hcount hs hleft, logValid_allocSects _ _ _ _ _, ?_, ?_⟩
  · intro b
    have htaken : (b.start, ⟨b.count, .taken b.owner⟩) ∈
        place sec (gap left ++ [⟨count, .taken self⟩]) ↔ b = ⟨sec + left.getD 0, count, self⟩ := by
      cases left <;> simp [gap, place, Block.ext_iff]
    have hnot := h.not_mem_of_free hsec (b := b)
    rw [h.taken] at hnot
    rw [hrun, htaken, mem_insert, h.taken, or_comm]
    apply or_congr_left
    simp only [total_cons]
    tauto
  · rw [used_allocSects conf, sum_insert, h.used, add_comm]
    apply h.not_mem_of_free hsec
    change sec ≤ sec + left.getD 0 ∧ sec + left.getD 0 < sec + (left.getD 0 + count)
    omega

theorem growSegm (hk : k < conf.segCount) :
    ZoneHolds conf ((ZoneAct.growSegm conf k).run z) blocks (k + 1)
      (update rows k [⟨conf.secEnd k - conf.secStart k, .free⟩]) := by
  have hvalid : z.valid k = false := by simpa using h.layout.valid k hk
  refine ⟨h.layout.growSegm hk, logValid_growSegm _ _ _, ?_, ?_⟩
  · intro b
    rw [h.taken]
    constructor
    · rintro ⟨n, hn, hx⟩
      exact ⟨n, by omega, by rwa [update_of_ne hn.ne]⟩
    · rintro ⟨n, hn, hx⟩
      by_cases he : n = k
      · subst he
        simp [place] at hx
      · rw [update_of_ne he] at hx
        exact ⟨n, by omega, hx⟩
  · rw [Layout.run_growSegm hvalid]
    exact h.used

theorem find_segm :
    ((List.range conf.segCount).find? fun n => !(z.valid n && z.inuse n)) =
      if k < conf.segCount then some k else none := by
  split_ifs with hk
  · rw [find?_range_eq_some]
    refine ⟨?_, List.mem_range.2 hk, ?_⟩
    · simp [h.layout.valid k hk]
    · intro j hj
      simp [h.layout.valid j (by omega), h.layout.inuse j (by omega), hj]
  · rw [find?_range_eq_none]
    intro j hj
    have hlt : j < k := by omega
    simp [h.layout.valid j hj, h.layout.inuse j hj, hlt]

/-- The loop of the allocation comes to an end: it takes further segments into use until there is
a run that is long enough, or no segment is left. -/
theorem allocLoop (grows : ℕ → Bool) (self : uint32) (hcount : 0 < count) {fuel : ℕ}
    (hfuel : conf.segCount - k < fuel) : ∃ ws ret k' rows',
      z.allocLoop conf grows self count fuel = some (ws, ret) ∧ k ≤ k' ∧
      ZoneHolds conf (z.writes ws) (granted blocks count self ret) k' rows' := by
  induction fuel generalizing z k rows with
  | zero => omega
  | succ fuel ih =>
    obtain ⟨r, hr, hfound⟩ := MZone.findList_layout h.layout count
      (m := 16 - msectPlistIndex count) (n := msectPlistIndex count)
      (by have := msectPlistIndex_lt count; omega)
    rw [MZone.allocLoop]
    simp only [hr]
    cases r with
    | some found =>
      obtain ⟨list, sec⟩ := found
      obtain ⟨hsec, rfl, hle⟩ := hfound list sec rfl
      obtain ⟨rows', hheld⟩ := h.allocSects self hsec hcount hle
      exact ⟨_, _, k, rows', rfl, le_rfl, hheld⟩
    | none =>
      simp only [h.find_segm]
      by_cases hk : k < conf.segCount
      · simp only [if_pos hk]
        split_ifs with hgrow
        · exact ⟨[], none, k, rows, rfl, le_rfl, h⟩
        · obtain ⟨ws, ret, k', rows', hloop, hle, hheld⟩ := ih (h.growSegm hk) (by omega)
          refine ⟨ZoneAct.growSegm conf k z ++ ws, ret, k', rows', ?_, by omega, ?_⟩
          · change Option.map _ (MZone.allocLoop conf grows self count fuel
              ((ZoneAct.growSegm conf k).run z)) = _
            rw [hloop]
            rfl
          · rw [MZone.writes_append]
            exact hheld
      · simp only [if_neg hk]
        exact ⟨[], none, k, rows, rfl, le_rfl, h⟩

theorem eq_of_start {b' : Block} (hb : b ∈ blocks) (hb' : b' ∈ blocks)
    (hstart : b.start = b'.start) : b = b' := by
  obtain ⟨n, hn, hx⟩ := (h.taken b).1 hb
  obtain ⟨n', hn', hx'⟩ := (h.taken b').1 hb'
  have hpos := (h.layout.mem_bounds hn hx).2.1
  have hpos' := (h.layout.mem_bounds hn' hx').2.1
  obtain ⟨-, heq⟩ := h.layout.eq_of_overlap hn hn' hx hx'
    ⟨le_rfl, Nat.lt_add_of_pos_right hpos⟩ ⟨hstart.ge, hstart ▸ Nat.lt_add_of_pos_right hpos'⟩
  rw [Piece.mk.injEq, Use.taken.injEq] at heq
  exact Block.ext hstart heq.1 heq.2

end

section

variable {s sec c : ℕ} {owner : uint32} {p q : Option ℕ} {as bs as' bs' : List (Piece Use)}
  (h : ZoneHolds conf z blocks k rows)

include h

/-- The stretch that becomes free has no block but the one that is freed. -/
theorem start_iff (hs : s < k)
    (hrow : rows s = as' ++ (gap p ++ ⟨c, .taken owner⟩ :: gap q) ++ bs')
    (hsec : sec = conf.secStart s + total as' + p.getD 0) (hb : b ∈ blocks) :
    (conf.secStart s + total as' ≤ b.start ∧ b.start <
      conf.secStart s + total as' + total (gap p ++ ⟨c, .taken owner⟩ :: gap q)) ↔
      b.start = sec := by
  obtain ⟨n, hn, hx⟩ := (h.taken b).1 hb
  have hpos := (h.layout.mem_bounds hn hx).2.1
  constructor
  · rintro ⟨hle, hlt⟩
    obtain ⟨x, o, hmem, hxle, hxlt⟩ := exists_mem_of_lt hle hlt
    have hmem' : (x, o) ∈ place (conf.secStart s) (rows s) := by
      rw [hrow, place_append, place_append]
      exact mem_append_left _ (mem_append_right _ hmem)
    obtain ⟨rfl, rfl⟩ := h.layout.eq_of_overlap hn hs hx hmem'
      ⟨le_rfl, Nat.lt_add_of_pos_right hpos⟩ ⟨hxle, hxlt⟩
    rw [place_append, mem_append, place, List.mem_cons, total_gap] at hmem
    rcases hmem with hmem | heq | hmem
    · cases kind_of_mem_gap (mem_of_mem_place hmem)
    · rw [Prod.mk.injEq] at heq
      omega
    · cases kind_of_mem_gap (mem_of_mem_place hmem)
  · intro hstart
    have hc : 0 < c := h.layout.pos s hs ⟨c, .taken owner⟩ (by simp [hrow])
    simp only [total_append, total_cons, total_gap]
    omega

theorem freeSects (hs : s < k) (hrow : rows s = as ++ ⟨c, .taken owner⟩ :: bs)
    (hsec : sec = conf.secStart s + total as) (hother : ∃ p ∈ as ++ bs, p.kind ≠ .free) :
    ∃ as' p q bs', as = as' ++ gap p ∧ bs = gap q ++ bs' ∧
      ZoneHolds conf ((ZoneAct.freeSects conf s sec).run z) (blocks.filter fun b => b.start ≠ sec) k
        (update rows s (as' ++ [⟨p.getD 0 + (c + q.getD 0), .free⟩] ++ bs')) := by
  obtain ⟨as', p, q, bs', rfl, rfl, hlayout⟩ := h.layout.freeSects hs hrow hsec hother
  have hmem := Layout.mem_block hrow hsec
  have hblock : (⟨sec, c, owner⟩ : Block) ∈ blocks := (h.taken _).2 ⟨s, hs, hmem⟩
  have hrow' : rows s = as' ++ (gap p ++ ⟨c, .taken owner⟩ :: gap q) ++ bs' := by simpa using hrow
  have hsec' : sec = conf.secStart s + total as' + p.getD 0 := by simpa [add_assoc] using hsec
  refine ⟨as', p, q, bs', rfl, rfl, hlayout, logValid_freeSects _ _ _ _, ?_, ?_⟩
  · intro b
    rw [h.layout.run_replace hs hrow' rfl (by simp), Finset.mem_filter, ← h.taken]
    have hstart := h.start_iff hs hrow' hsec' (b := b)
    simp only [place, List.mem_singleton, Prod.mk.injEq, Piece.mk.injEq, reduceCtorEq, and_false,
      or_false]
    exact and_congr_right fun hb => not_congr (hstart hb).symm
  · have herase : (blocks.filter fun b => b.start ≠ sec) = blocks.erase ⟨sec, c, owner⟩ := by
      ext b
      rw [Finset.mem_filter, mem_erase, and_comm]
      apply and_congr_left
      intro hb
      constructor
      · rintro hne rfl
        exact hne rfl
      · intro hne hstart
        exact hne (h.eq_of_start hb hblock hstart)
    rw [used_freeSects, (h.layout.takenTag hs hmem).count, herase, h.used,
      ← add_sum_erase blocks _ hblock]
    simp

theorem mem_place_of_block (hb : b ∈ blocks)
    (hin : b.InSegm conf s) :
    (b.start, ⟨b.count, .taken b.owner⟩) ∈ place (conf.secStart s) (rows s) := by
  obtain ⟨n, hn, hx⟩ := (h.taken b).1 hb
  have hbounds := h.layout.mem_bounds hn hx
  rcases lt_trichotomy n s with hlt | rfl | hgt
  · have := conf.secEnd_le_secStart hlt
    omega
  · exact hx
  · have := conf.secEnd_le_secStart hgt
    omega

theorem exists_other (hrow : rows s = as ++ ⟨c, .taken owner⟩ :: bs)
    (hsec : sec = conf.secStart s + total as) (hb : b ∈ blocks) (hne : b.start ≠ sec)
    (hin : b.InSegm conf s) :
    ∃ p ∈ as ++ bs, p.kind ≠ .free := by
  have hx := h.mem_place_of_block hb hin
  refine ⟨⟨b.count, .taken b.owner⟩, ?_, by simp⟩
  rw [hrow, place_append, mem_append, place, List.mem_cons] at hx
  rcases hx with hx | heq | hx
  · exact mem_append_left _ (mem_of_mem_place hx)
  · rw [Prod.mk.injEq] at heq
    omega
  · exact mem_append_right _ (mem_of_mem_place hx)

end

theorem owner_eq {t : ZoneTables} {x size : ℕ} {owner : uint32} (h : TakenTag t x size owner) :
    t.owner x = owner.toNat := by
  rw [ZoneTables.owner, h.next, h.prev]
  exact Nat.mod_add_div _ _

section

variable {n : ℕ} {uid : uint32}

/-- Where the scan goes on after a block was freed: at the free run it has become part of. -/
theorem scan_freed {sec pre m c : ℕ} {p q : Option ℕ} {as' bs' : List (Piece Use)} (hn : n < k)
    (hm : p.getD 0 + (c + q.getD 0) = m) (hc : 0 < c) (hpos : ∀ r ∈ gap p, 0 < r.size)
    (h : ZoneHolds conf z blocks k (update rows n (as' ++ [⟨m, .free⟩] ++ bs')))
    (hpre : pre = conf.secStart n + total (as' ++ gap p).dropLast)
    (hsec : sec = conf.secStart n + total (as' ++ gap p)) :
    (if z.count sec = 0 then pre else sec) = conf.secStart n + total as' ∧
      z.count (if z.count sec = 0 then pre else sec) = m := by
  have htag : FreeTag z.toZoneTables (conf.secEnd n) (conf.secStart n + total as') m := by
    apply h.layout.freeTag hn
    rw [update_self, append_assoc]
    exact mem_place_append
  rw [total_append, total_gap] at hsec
  cases p with
  | none =>
    obtain rfl : sec = conf.secStart n + total as' := by simpa using hsec
    rw [htag.count, if_neg (by omega)]
    exact ⟨rfl, htag.count⟩
  | some r =>
    obtain rfl : pre = conf.secStart n + total as' := by simpa [gap] using hpre
    simp only [Option.getD_some] at hsec hm
    have hr : 0 < r := hpos ⟨r, .free⟩ (by simp [gap])
    rw [(htag.inner sec (by omega) (by omega)).1, if_pos rfl]
    exact ⟨rfl, htag.count⟩

theorem cleaned_filter (h : ZoneHolds conf z blocks k rows) (hb : b ∈ blocks)
    (howner : b.owner = uid) (hin : b.InSegm conf n) :
    cleaned conf uid n (blocks.filter fun b' => b'.start ≠ b.start) = cleaned conf uid n blocks := by
  unfold cleaned
  rw [Finset.filter_filter]
  apply Finset.filter_congr
  intro b' hb'
  refine ⟨And.right, fun hnot => ⟨fun heq => hnot ?_, hnot⟩⟩
  rw [h.eq_of_start hb' hb heq]
  exact ⟨howner, hin⟩

/-- The scan of a segment frees the blocks of `uid`. The runs `as` have been seen, and `pre` is
where the last of them starts. -/
theorem cleanSegm (hn : n < k) {fuel pre sec : ℕ} {as bs : List (Piece Use)}
    (h : ZoneHolds conf z blocks k rows) (hrow : rows n = as ++ bs)
    (hsec : sec = conf.secStart n + total as)
    (hpre : pre = conf.secStart n + total as.dropLast)
    (hseen : ∀ p ∈ as, p.kind ≠ .taken uid) (hshared : Shared conf uid blocks n)
    (hfuel : bs.length < fuel) : ∃ z' rows',
      MZone.cleanSegm conf uid n fuel pre sec z = some z' ∧
      ZoneHolds conf z' (cleaned conf uid n blocks) k rows' := by
  induction fuel generalizing z blocks rows as bs pre sec with
  | zero => omega
  | succ fuel ih =>
    have hsize := h.layout.size n hn
    rw [hrow, total_append] at hsize
    rw [MZone.cleanSegm]
    cases bs with
    | nil =>
      rw [total_nil] at hsize
      rw [if_pos (by omega)]
      refine ⟨z, rows, rfl, ?_⟩
      rw [cleaned, filter_true_of_mem]
      · exact h
      · rintro b hb ⟨howner, hin⟩
        have hmem := mem_of_mem_place (h.mem_place_of_block hb hin)
        rw [hrow, append_nil] at hmem
        exact hseen _ hmem (by rw [howner])
    | cons p bs =>
      have hmem : (sec, p) ∈ place (conf.secStart n) (rows n) := by
        rw [hrow, hsec]
        exact mem_place_append
      have hb' := h.layout.mem_bounds hn hmem
      rw [if_neg (by omega)]
      -- a run that stays is passed over
      have hskip : p.kind ≠ .taken uid → z.count sec = p.size → ∃ z' rows',
          MZone.cleanSegm conf uid n fuel sec (sec + z.count sec) z = some z' ∧
          ZoneHolds conf z' (cleaned conf uid n blocks) k rows' := by
        intro hkind hcount
        have hrow' : rows n = (as ++ [p]) ++ bs := by simpa using hrow
        apply ih h hrow' _ (by simpa using hsec) _ hshared (by simpa using hfuel)
        · rw [hcount, hsec, total_append]
          simp [add_assoc]
        · simpa [or_imp, forall_and] using ⟨hseen, hkind⟩
      obtain ⟨size, kind⟩ := p
      cases kind with
      | free =>
        have htag := h.layout.freeTag hn hmem
        rw [if_neg (by simp [htag.alloc])]
        exact hskip (by simp) htag.count
      | taken owner =>
        have htag := h.layout.takenTag hn hmem
        by_cases howner : owner = uid
        · subst howner
          rw [if_pos ⟨htag.alloc, owner_eq htag⟩, MZone.logRestore, if_pos h.logValid,
            Option.bind_some]
          have h₀ : ZoneHolds conf { z with log := [] } blocks k rows :=
            ⟨h.layout, h.logValid, h.taken, h.used⟩
          have hblock : (⟨sec, size, owner⟩ : Block) ∈ blocks := (h.taken _).2 ⟨n, hn, hmem⟩
          have hseg : Block.InSegm conf n ⟨sec, size, owner⟩ := by
            change conf.secStart n ≤ sec ∧ sec < conf.secEnd n
            omega
          obtain ⟨b, hb, hne, hin⟩ := hshared _ hblock rfl hseg
          have hstart : b.start ≠ sec := by
            intro heq
            exact hne (by rw [h.eq_of_start hb hblock heq])
          obtain ⟨as', p, q, bs', rfl, rfl, hfree⟩ := h₀.freeSects hn hrow hsec
            (h.exists_other hrow hsec hb hstart hin)
          generalize hm : p.getD 0 + (size + q.getD 0) = m at hfree
          have hpos : ∀ r ∈ gap p, 0 < r.size := by
            intro r hr
            apply h.layout.pos n hn
            rw [hrow]
            simp [hr]
          obtain ⟨hnext, hcount⟩ := scan_freed hn hm hb'.2.1 hpos hfree hpre hsec
          have hrow' : update rows n (as' ++ [⟨m, .free⟩] ++ bs') n =
              (as' ++ [⟨m, .free⟩]) ++ bs' := by simp
          have hseen' : ∀ p ∈ as' ++ [⟨m, .free⟩], p.kind ≠ .taken owner := by
            intro p hp
            rcases mem_append.1 hp with hp | hp
            · exact hseen p (mem_append_left _ hp)
            · simp [List.mem_singleton.1 hp]
          have hlen : bs'.length < fuel := by
            simp only [length_cons, length_append] at hfuel
            omega
          obtain ⟨z'', rows'', hscan, hholds⟩ := ih hfree hrow' rfl rfl hseen'
            (fun _ _ _ _ => ⟨b, Finset.mem_filter.2 ⟨hb, hstart⟩, hne, hin⟩) hlen
          refine ⟨z'', rows'', ?_, ?_⟩
          · rw [dropLast_concat] at hscan
            simpa [hnext, ← hcount, add_assoc] using hscan
          · rwa [h.cleaned_filter hblock rfl hseg] at hholds
        · rw [if_neg]
          · exact hskip (by simpa using howner) htag.count
          · rintro ⟨-, heq⟩
            rw [owner_eq htag] at heq
            exact howner (BitVec.eq_of_toNat_eq heq)

variable (h : ZoneHolds conf z blocks k rows)

include h

theorem length_row_le (hn : n < k) : (rows n).length ≤ conf.secCount := by
  have hle := length_le_total (h.layout.pos n hn)
  rw [h.layout.size n hn] at hle
  unfold secEnd at hle
  omega

theorem exists_segm (hb : b ∈ blocks) :
    ∃ i < k, conf.secStart i ≤ b.start ∧ 0 < b.count ∧ b.start + b.count ≤ conf.secEnd i := by
  obtain ⟨i, hi, hmem⟩ := (h.taken b).1 hb
  exact ⟨i, hi, h.layout.mem_bounds hi hmem⟩

theorem secStart_le_start_iff (hb : b ∈ blocks) (n : ℕ) :
    conf.secStart n ≤ b.start ↔ b.InSegm conf n ∨ conf.secStart (n + 1) ≤ b.start := by
  obtain ⟨i, -, hbounds⟩ := h.exists_segm hb
  have hnext : conf.secStart (n + 1) = conf.secStart n + conf.secCount := by
    unfold secStart
    rw [Nat.succ_mul, add_assoc]
  unfold Block.InSegm secEnd at *
  omega

/-- The blocks of a user are freed in all segments from `n` on. -/
theorem shmzClean {m : ℕ} (hm : n + m = conf.segCount)
    (hshared : ∀ i, Shared conf uid blocks i) : ∃ z' rows',
      MZone.shmzClean conf uid m n z = some z' ∧
      ZoneHolds conf z' (blocks.filter fun b =>
        ¬ (b.owner = uid ∧ conf.secStart n ≤ b.start)) k rows' := by
  -- a segment that is not in use has no block, nor do those after it
  have hnone : ∀ i, k ≤ i → ∀ b ∈ blocks, ¬ conf.secStart i ≤ b.start := by
    intro i hi b hb hstart
    obtain ⟨j, hj, hbounds⟩ := h.exists_segm hb
    have := conf.secEnd_le_secStart (lt_of_lt_of_le hj hi)
    omega
  induction m generalizing n z blocks rows with
  | zero =>
    refine ⟨z, rows, rfl, ?_⟩
    rw [filter_true_of_mem]
    · exact h
    · rintro b hb ⟨-, hstart⟩
      exact hnone n (h.layout.le.trans hm.ge) b hb hstart
  | succ m ih =>
    rw [MZone.shmzClean, h.layout.inuse n (by omega)]
    by_cases hn : n < k
    · obtain ⟨z', rows', hscan, hholds⟩ := cleanSegm hn h (nil_append (rows n)).symm rfl rfl
        (by simp) (hshared n) (Nat.lt_succ_of_le (h.length_row_le hn))
      obtain ⟨z'', rows'', hclean, hholds'⟩ := ih (n := n + 1) hholds (by omega) (by
          intro i b hb howner hin
          obtain ⟨b', hb', hne, hin'⟩ := hshared i b (Finset.mem_filter.1 hb).1 howner hin
          exact ⟨b', Finset.mem_filter.2 ⟨hb', fun hnot => hne hnot.1⟩, hne, hin'⟩)
        fun i hi b hb => hnone i hi b (Finset.mem_filter.1 hb).1
      refine ⟨z'', rows'', ?_, ?_⟩
      · simp only [hn]
        simp only [total_nil, add_zero, dropLast_nil] at hscan
        rw [hscan]
        exact hclean
      · rw [cleaned, Finset.filter_filter] at hholds'
        convert hholds' using 1
        apply Finset.filter_congr
        intro b hb
        have hiff := h.secStart_le_start_iff hb n
        tauto
    · obtain ⟨z'', rows'', hclean, hholds⟩ := ih (n := n + 1) h (by omega) hshared hnone
      refine ⟨z'', rows'', ?_, ?_⟩
      · simp only [hn]
        exact hclean
      · convert hholds using 1
        apply Finset.filter_congr
        intro b hb
        have h₁ := hnone n (by omega) b hb
        have h₂ := hnone (n + 1) (by omega) b hb
        tauto

end

end ZoneHolds

end AdaptivePlatform.Npc
