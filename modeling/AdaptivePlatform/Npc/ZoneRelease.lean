import AdaptivePlatform.Npc.ZoneEdits

/-!
# Freeing a block keeps the layout of a zone

A block that is freed is joined with the free runs before and after it, if there are
such. The segment is not released: another block is in it.
-/
namespace AdaptivePlatform.Npc

open Function Tilings LinkedRings List Option
open TableWrite (Inside)
open ZoneTables (write writes)
open ZoneAct (alloc_refile count_refile refile run_set set)

variable {t : ZoneTables} {owner : uint32} {y k s c x : ℕ} {rows : ℕ → List (Piece Use)}
  {as bs : List (Piece Use)}

namespace ZoneTables

/-- The tags of a block that is being freed, as `npc_shmz_free_sects` clears them. -/
def released (sec count : ℕ) (t : ZoneTables) : ZoneTables :=
  (t.writes [.owner sec 0, .alloc sec false]).writes
    (if 1 < count then [.alloc (sec + count - 1) false, .count (sec + count - 1) 0] else [])

variable {sec count : ℕ}

theorem released_of_ne (hy : y ≠ sec) (hy' : y ≠ sec + count - 1) :
    (t.released sec count).count y = t.count y ∧ (t.released sec count).alloc y = t.alloc y := by
  unfold released
  split_ifs <;> simp [writes, write, hy, hy']

theorem count_released (htag : TakenTag t sec count owner) :
    (t.released sec count).count sec = count := by
  unfold released
  split_ifs with h
  · have : sec ≠ sec + count - 1 := by omega
    simp [writes, write, this, htag.count]
  · simp [writes, write, htag.count]

theorem inner_released (htag : TakenTag t sec count owner) (hy : sec < y) (hy' : y < sec + count) :
    (t.released sec count).count y = 0 ∧ (t.released sec count).alloc y = false := by
  by_cases hlast : y = sec + count - 1
  · unfold released
    rw [if_pos (by omega)]
    simp [writes, write, hlast]
  · have hkeep := released_of_ne (t := t) hy.ne' hlast
    rw [hkeep.1, hkeep.2]
    exact htag.inner y hy (by omega)

theorem alloc_released : (t.released sec count).alloc sec = false := by
  unfold released
  split_ifs with h
  · have : sec ≠ sec + count - 1 := by omega
    simp [writes, write, this]
  · simp [writes, write]

theorem released_outside (hy : y < sec ∨ sec + count ≤ y) (hcount : 0 < count) :
    (t.released sec count).count y = t.count y ∧ (t.released sec count).alloc y = t.alloc y :=
  released_of_ne (by omega) (by omega)

section

variable {lo hi : ℕ} (htag : TakenTag t sec count owner) (hcount : 0 < count)

include htag hcount

theorem alloc_released_stretch (hbefore : ∀ y, lo ≤ y → y < sec → t.alloc y = false)
    (hafter : ∀ y, sec + count ≤ y → y < hi → t.alloc y = false) (hy : lo ≤ y) (hy' : y < hi) :
    (t.released sec count).alloc y = false := by
  rcases lt_trichotomy y sec with hlt | rfl | hgt
  · exact (released_outside (.inl hlt) hcount).2.trans (hbefore y hy hlt)
  · exact alloc_released
  · rcases lt_or_ge y (sec + count) with hlt | hge
    · exact (inner_released htag hgt hlt).2
    · exact (released_outside (.inr hge) hcount).2.trans (hafter y hge hy')

theorem count_released_stretch (hbefore : ∀ y, lo < y → y < sec → t.count y = 0)
    (hafter : ∀ y, sec + count < y → y < hi → t.count y = 0) (hy : lo < y) (hy' : y < hi)
    (hsec : y ≠ sec) (hnext : y ≠ sec + count) : (t.released sec count).count y = 0 := by
  rcases lt_or_gt_of_ne hsec with hlt | hgt
  · exact (released_outside (.inl hlt) hcount).1.trans (hbefore y hy hlt)
  · rcases lt_or_ge y (sec + count) with hlt | hge
    · exact (inner_released htag hgt hlt).1
    · exact (released_outside (.inr hge) hcount).1.trans (hafter y (by omega) hy')

end

theorem freePlan_spec {conf : ZoneConf} {zone : ℕ} {p : FreePlan}
    (hp : t.freePlan conf zone sec = p) :
    p.count = t.count sec ∧ p.next = sec + p.count ∧
      p.concat = p.count + (if p.ncon then t.count p.next else 0) +
        (if p.pcon then t.count p.prev else 0) ∧
      p.new = (if p.pcon then p.prev else sec) ∧
      p.n = (if p.pcon then some (msectPlistIndex (t.count p.prev))
        else if p.ncon then some (msectPlistIndex (t.count p.next)) else none) ∧
      p.l = msectPlistIndex p.concat ∧
      p.whole = decide (p.new = conf.secStart zone ∧
        p.concat = conf.secEnd zone - conf.secStart zone) := by
  subst hp
  exact ⟨rfl, rfl, rfl, rfl, rfl, rfl, rfl⟩

end ZoneTables

/-- The tables that a release leaves are those of its writes, from the tables before. -/
theorem ZoneAct.run_freeSects (conf : ZoneConf) (zone sec : ℕ) (z : MZone) : ∃ z₁ : MZone,
    z₁.toZoneTables = z.toZoneTables ∧ ((freeSects conf zone sec).run z).toZoneTables =
      ((freeWrite conf zone sec).run z₁).toZoneTables := by
  obtain ⟨z₁, h₁, hrun⟩ :=
    run_journaled (Logging.freeLog conf zone sec) (.freeWrite conf zone sec) z
  refine ⟨z₁, h₁, ?_⟩
  rw [freeSects, hrun, run_logFinish]

theorem FreeTag.alloc_of_mem {stop x size : ℕ} (h : FreeTag t stop x size) {y : ℕ} (hy : x ≤ y)
    (hy' : y < x + size) : t.alloc y = false := by
  rcases hy.eq_or_lt with rfl | hlt
  · exact h.alloc
  · exact (h.inner y hlt hy').2

theorem Edited.released {t' : ZoneTables} {F G : ℕ → ℕ → Prop} {lo hi sec count : ℕ}
    (h : Edited t G lo hi t' F) (hnot : ¬ Filed.Linked 16 F sec) (hcount : 0 < count)
    (hin : lo ≤ sec ∧ sec + count ≤ hi) : Edited t G lo hi (t'.released sec count) F := by
  apply Edited.writes
  · apply h.writes
    simp only [mem_cons, not_mem_nil, or_false, forall_eq_or_imp, forall_eq, Inside]
    exact ⟨⟨by omega, hnot⟩, by omega⟩
  · split_ifs
    · simp only [mem_cons, not_mem_nil, or_false, forall_eq_or_imp, forall_eq, Inside]
      omega
    · simp

namespace Layout

variable {conf : ZoneConf} {z : MZone} {sec : ℕ}

theorem takenTag (h : Layout conf t k rows) (hs : s < k)
    (hx : (sec, ⟨c, .taken owner⟩) ∈ place (conf.secStart s) (rows s)) : TakenTag t sec c owner :=
  h.tagged s hs sec _ hx

section

variable (h : Layout conf t k rows) (hs : s < k) (hrow : rows s = as ++ ⟨c, .taken owner⟩ :: bs)
  (hsec : sec = conf.secStart s + Tilings.total as)

include hrow hsec in
theorem mem_block : (sec, ⟨c, .taken owner⟩) ∈ place (conf.secStart s) (rows s) := by
  rw [hrow, hsec]
  exact mem_place_append

include h hs hrow hsec in
theorem block_spec : TakenTag t sec c owner ∧ 0 < c ∧
    ∀ y, sec ≤ y → y < sec + c → ¬ Filed.Linked 16 (FreeRun conf k rows) y := by
  have hmem := mem_block hrow hsec
  exact ⟨h.takenTag hs hmem, (h.mem_bounds hs hmem).2.1,
    fun y hy hy' => h.not_linked hs hmem ⟨hy, hy'⟩ (.inr (by simp))⟩

include hrow hsec in
theorem mem_after {q : Piece Use} (hq : q ∈ bs.head?) :
    (sec + c, q) ∈ place (conf.secStart s) (rows s) := by
  obtain ⟨bs', rfl⟩ : ∃ bs', bs = q :: bs' := head?_eq_some_iff.1 hq
  have hnext : sec + c = conf.secStart s + Tilings.total (as ++ [⟨c, .taken owner⟩]) := by
    rw [hsec, total_append]
    simp [add_assoc]
  rw [hrow, hnext, append_cons]
  exact mem_place_append

include hrow hsec in
theorem mem_before {q : Piece Use} (hq : q ∈ as.getLast?) :
    ∃ x, (x, q) ∈ place (conf.secStart s) (rows s) ∧ x + q.size = sec := by
  obtain ⟨as', rfl⟩ : ∃ as', as = as' ++ [q] := getLast?_eq_some_iff.1 hq
  refine ⟨conf.secStart s + Tilings.total as', ?_, ?_⟩
  · rw [hrow, append_assoc]
    exact mem_place_append
  · rw [hsec, total_append]
    simp [add_assoc]

end

end Layout

/-- A block of a row with the free runs next to it, which are not the whole row. -/
structure BlockAt (conf : ZoneConf) (rows : ℕ → List (Piece Use)) (s x c : ℕ) (owner : uint32)
    (p q : Option ℕ) (as bs : List (Piece Use)) : Prop where
  row : rows s = as ++ (gap p ++ ⟨c, .taken owner⟩ :: gap q) ++ bs
  start : x = conf.secStart s + Tilings.total as
  other : as ++ bs ≠ []
  front : ∀ r ∈ as.getLast?, r.kind ≠ .free
  back : ∀ r ∈ bs.head?, r.kind ≠ .free

namespace BlockAt

variable {conf : ZoneConf} {p q : Option ℕ} (h : BlockAt conf rows s x c owner p q as bs)

include h

theorem row_cons : rows s = as ++ gap p ++ ⟨c, .taken owner⟩ :: (gap q ++ bs) := by
  simpa using h.row

theorem sec_eq : x + p.getD 0 = conf.secStart s + Tilings.total (as ++ gap p) := by
  simp [h.start, add_assoc]

theorem mem_before {r : ℕ} (hp : p = some r) :
    (x, ⟨r, .free⟩) ∈ place (conf.secStart s) (rows s) := by
  rw [h.row, h.start, hp, append_assoc]
  exact mem_place_append

theorem mem_after {r : ℕ} (hq : q = some r) :
    (x + p.getD 0 + c, ⟨r, .free⟩) ∈ place (conf.secStart s) (rows s) :=
  Layout.mem_after h.row_cons h.sec_eq (hq ▸ rfl)

end BlockAt

namespace Layout

variable {conf : ZoneConf} {z : MZone} {r size : ℕ} {p q : Option ℕ} {F : ℕ → ℕ → Prop}

section

variable (h : Layout conf t k rows) (hs : s < k) (hb : BlockAt conf rows s x c owner p q as bs)

include h hs hb

theorem whole_false : ¬ (x = conf.secStart s ∧
    p.getD 0 + (c + q.getD 0) = conf.secEnd s - conf.secStart s) := by
  rintro ⟨hstart, hfill⟩
  have hsize := h.size s hs
  obtain ⟨o, ho⟩ := exists_mem_of_ne_nil _ hb.other
  have hpos : 0 < o.size := by
    apply h.pos s hs
    rw [hb.row]
    simp only [mem_append] at ho ⊢
    tauto
  have hle : o.size ≤ Tilings.total (as ++ bs) := le_sum_of_mem (List.mem_map_of_mem ho)
  rw [hb.row] at hsize
  simp only [total_append, total_cons, total_gap] at hsize hle
  omega

omit hb in
theorem gap_spec (hmem : (x, ⟨r, .free⟩) ∈ place (conf.secStart s) (rows s)) :
    FreeTag t (conf.secEnd s) x r ∧ FreeRun conf k rows x r ∧ 0 < r :=
  ⟨h.freeTag hs hmem, ⟨s, hs, hmem⟩, (h.mem_bounds hs hmem).2.1⟩

theorem freePlan_ncon : (t.freePlan conf s (x + p.getD 0)).ncon = q.isSome := by
  have hcount := (h.takenTag hs (mem_block hb.row_cons hb.sec_eq)).count
  cases q with
  | none =>
    -- the block is at the end of its segment, or another block follows
    have hsize := h.size s hs
    rw [hb.row_cons, total_append, total_cons] at hsize
    have hsec := hb.sec_eq
    simp only [ZoneTables.freePlan, hcount, isSome_none, decide_eq_false_iff_not, not_and,
      Bool.not_eq_false]
    intro hlt
    cases hr : bs.head? with
    | none =>
      simp only [head?_eq_none_iff.1 hr, append_nil, total_gap, getD_none] at hsize
      omega
    | some r =>
      obtain ⟨size, kind⟩ := r
      cases kind with
      | free => exact absurd rfl (hb.back _ hr)
      | taken owner => exact (h.takenTag hs (mem_after hb.row_cons hb.sec_eq hr)).alloc
  | some r =>
    have hmem := hb.mem_after rfl
    have hbounds := h.mem_bounds hs hmem
    simp only [ZoneTables.freePlan, hcount, isSome_some, decide_eq_true_eq]
    exact ⟨by omega, (h.freeTag hs hmem).alloc⟩

theorem freePlan_pcon : (t.freePlan conf s (x + p.getD 0)).pcon = p.isSome ∧
    (p.isSome → (t.freePlan conf s (x + p.getD 0)).prev = x) := by
  have h16 := h.sixteen_le hs (mem_block hb.row_cons hb.sec_eq)
  have hstart := hb.start
  cases p with
  | none =>
    -- the block is at the start of its segment, or it follows another block
    simp only [ZoneTables.freePlan, isSome_none, decide_eq_false_iff_not, not_and,
      Bool.not_eq_false, Bool.false_eq_true, false_imp_iff, and_true]
    intro hle
    cases hr : as.getLast? with
    | none =>
      rw [getLast?_eq_none_iff.1 hr, total_nil] at hstart
      simp only [getD_none] at hle h16
      omega
    | some r =>
      obtain ⟨y, hmem, hy⟩ := mem_before hb.row_cons hb.sec_eq (q := r) (by simpa [gap] using hr)
      obtain ⟨size, kind⟩ := r
      cases kind with
      | free => exact absurd rfl (hb.front _ hr)
      | taken owner => exact hy ▸ (h.takenTag hs hmem).last
  | some r =>
    have hmem := hb.mem_before rfl
    obtain ⟨hfree, -, hr⟩ := h.gap_spec hs hmem
    have hbounds := h.mem_bounds hs (mem_block hb.row_cons hb.sec_eq)
    simp only [getD_some] at hbounds ⊢
    have hlast : t.alloc (x + r - 1) = false := hfree.alloc_of_mem (by omega) (by omega)
    simp only [ZoneTables.freePlan, isSome_some, decide_eq_true_eq, forall_const]
    refine ⟨⟨by omega, hlast⟩, ?_⟩
    by_cases h1 : r = 1
    · rw [h1, Nat.add_sub_cancel, hfree.count, if_neg (by omega)]
    · rw [(hfree.inner (x + r - 1) (by omega) (by omega)).1, if_pos rfl]
      exact hfree.back (by omega) (by omega)

/-- What `npc_shmz_free_sects` finds around the block. -/
theorem freePlan_eq : ∃ prev, (p.isSome → prev = x) ∧ t.freePlan conf s (x + p.getD 0) =
    ⟨c, x + p.getD 0 + c, q.isSome, p.isSome, prev, p.getD 0 + (c + q.getD 0),
      (p.or q).map msectPlistIndex, x, msectPlistIndex (p.getD 0 + (c + q.getD 0)), false⟩ := by
  have hcount := (h.takenTag hs (mem_block hb.row_cons hb.sec_eq)).count
  have hafter : ∀ r ∈ q, t.count (x + p.getD 0 + c) = r := by
    rintro r rfl
    exact (h.gap_spec hs (hb.mem_after rfl)).1.count
  have hbefore : ∀ r ∈ p, t.count x = r := by
    rintro r rfl
    exact (h.gap_spec hs (hb.mem_before rfl)).1.count
  have hncon := h.freePlan_ncon hs hb
  have hpcon := h.freePlan_pcon hs hb
  have hwhole := h.whole_false hs hb
  cases hplan : t.freePlan conf s (x + p.getD 0) with
  | mk count next ncon pcon prev concat n new l whole =>
    have hspec := ZoneTables.freePlan_spec hplan
    rw [hplan] at hncon hpcon
    refine ⟨prev, ?_, ?_⟩
    · cases p <;> simp_all
    · cases p <;> cases q <;> simp_all [add_comm]

/-- The free runs that are joined with the block are those that begin at `x` or after it. -/
theorem not_mem_around (hy : FreeRun conf k rows y r) :
    (y, ⟨r, .free⟩) ∉ place x (gap p ++ ⟨c, .taken owner⟩ :: gap q) ↔
      y ≠ x ∧ (q.isSome → y ≠ x + p.getD 0 + c) := by
  obtain ⟨-, hpos, hnot⟩ := h.block_spec hs hb.row_cons hb.sec_eq
  have hstretch := h.freeRun_stretch hs hb.row hb.start y r
  constructor
  · intro hmem
    rw [← hstretch, not_and] at hmem
    have hout := hmem hy
    simp only [total_append, total_cons, total_gap] at hout
    refine ⟨by omega, ?_⟩
    intro hq
    obtain ⟨r', rfl⟩ := Option.isSome_iff_exists.1 hq
    have hr' := (h.gap_spec hs (hb.mem_after rfl)).2.2
    simp only [getD_some] at hout
    omega
  · rintro ⟨hne, hne'⟩ hmem
    cases p <;> cases q <;> simp_all [gap, place]

/-- The block and the free runs next to it become one free run. -/
theorem merge {t' : ZoneTables} (hsize : p.getD 0 + (c + q.getD 0) = size)
    (hedit : Edited t (FreeRun conf k rows) x (x + size) t' F)
    (hF : ∀ y r, F y r ↔ FreeRun conf k rows y r ∧ y ≠ x ∧ (q.isSome → y ≠ x + p.getD 0 + c) ∨
      y = x ∧ r = size) (htag : FreeTag t' (conf.secEnd s) x size) (v : ℕ) :
    Layout conf (t'.write (.used v)) k (update rows s (as ++ [⟨size, .free⟩] ++ bs)) := by
  have hpos := (h.block_spec hs hb.row_cons hb.sec_eq).2.1
  have htotal : Tilings.total (gap p ++ ⟨c, .taken owner⟩ :: gap q) = size := by simp [hsize]
  apply h.replace_edited hs hb.row hb.start (by omega)
  · simp [htotal]
  · simp only [mem_singleton, forall_eq]
    omega
  · rw [htotal]
    exact hedit.write (w := .used v) trivial
  · intro y r
    rw [hF]
    refine or_congr (and_congr_right fun hy => (h.not_mem_around hs hb hy).symm) ?_
    simp [place]
  · intro y o hy
    obtain ⟨rfl, rfl⟩ : y = x ∧ o = ⟨size, .free⟩ := by simpa [place] using hy
    exact Tagged.used htag
  · have hapart := h.apart s hs
    rw [hb.row] at hapart
    unfold Apart at hapart
    rw [isChain_append, isChain_append] at hapart
    rw [append_assoc, singleton_append, apart_append_cons]
    exact ⟨hapart.1.1, hapart.2.1, fun _ => ⟨hb.front, hb.back⟩⟩

/-- The end of `npc_shmz_free_sects` where the block is joined with a free run: the run at `x` gets
its size and its place in the lists. -/
theorem join {y₀ r₀ : ℕ} (hsize : p.getD 0 + (c + q.getD 0) = size) (hy₀ : x < y₀ ∧ y₀ < x + size)
    (hedit : Edited t (FreeRun conf k rows) x (x + size) z.toZoneTables F) (hxF : F x r₀)
    (hF : ∀ y r, y ≠ x → (F y r ↔ FreeRun conf k rows y r ∧ (q.isSome → y ≠ x + p.getD 0 + c)))
    (halloc : ∀ y, x ≤ y → y < x + size → z.alloc y = false)
    (hcount : ∀ y, x < y → y < x + size → y ≠ y₀ → z.count y = 0) (v : ℕ) :
    Layout conf (((refile (msectPlistIndex r₀) (msectPlistIndex size) x).run
        ((set [.count x size, .prev (x + size - 1) x, .count y₀ 0]).run z)
      ).toZoneTables.write (.used v)) k (update rows s (as ++ [⟨size, .free⟩] ++ bs)) := by
  have h16 := hedit.sixteen_le x r₀ hxF
  have hlast : ¬ Filed.Linked 16 F (x + size - 1) := by
    rintro (hlt | ⟨r, hr⟩)
    · omega
    · obtain ⟨hfree, hne⟩ := (hF _ _ (by omega)).1 hr
      apply (h.not_mem_around hs hb hfree).2 ⟨by omega, hne⟩
      rw [← h.freeRun_stretch hs hb.row hb.start]
      simp only [total_append, total_cons, total_gap]
      exact ⟨hfree, by omega⟩
  have hset : Edited t (FreeRun conf k rows) x (x + size)
      ((set [.count x size, .prev (x + size - 1) x, .count y₀ 0]).run z).toZoneTables F := by
    rw [run_set]
    apply hedit.writes
    simp only [mem_cons, not_mem_nil, or_false, forall_eq_or_imp, forall_eq, Inside]
    exact ⟨by omega, ⟨by omega, hlast⟩, by omega⟩
  apply h.merge hs hb hsize (hset.refile hxF ⟨le_rfl, by omega⟩ size)
  · intro y r
    apply or_congr_left
    rw [and_comm, and_left_comm]
    exact and_congr_right (hF y r)
  · constructor
    · rw [count_refile, run_set]
      simp only [writes, List.foldl, write]
      rw [update_of_ne (by omega), update_self]
    · rw [alloc_refile, run_set]
      exact halloc x le_rfl (by omega)
    · intro y hy hy'
      rw [count_refile, alloc_refile, run_set]
      refine ⟨?_, halloc y hy.le hy'⟩
      simp only [writes, List.foldl, write]
      by_cases he : y = y₀
      · rw [he, update_self]
      · rw [update_of_ne he, update_of_ne hy.ne']
        exact hcount y hy hy' he
    · intro h1 _
      rw [hset.refile_prev hxF hlast, run_set]
      simp [writes, write]

end

section

variable {p q : ℕ} (h : Layout conf z.toZoneTables k rows) (hs : s < k)

include h hs

/-- The block is between other blocks, or the ends of the segment. -/
theorem freeWrite_alone (hb : BlockAt conf rows s x c owner none none as bs) :
    Layout conf ((ZoneAct.freeWrite conf s x).run z).toZoneTables k
      (update rows s (as ++ [⟨c, .free⟩] ++ bs)) := by
  obtain ⟨prev, -, hplan⟩ := h.freePlan_eq hs hb
  obtain ⟨htag, hpos, hnot⟩ := h.block_spec hs hb.row_cons hb.sec_eq
  simp only [getD_none, add_zero, zero_add] at hplan htag hnot
  unfold ZoneAct.freeWrite
  rw [ZoneAct.run_dep]
  simp only [hplan, isSome_none, Bool.false_eq_true, if_false, ZoneAct.run_acts_cons,
    ZoneAct.run_ite_set]
  set t₂ := (z.toZoneTables.released x c).writes (if 1 < c then [.prev (x + c - 1) x] else [])
    with ht₂
  set t₃ := t₂.writes (t₂.msectInsertBefore (msectPlistIndex c) x)
  have hedit : Edited z.toZoneTables (FreeRun conf k rows) x (x + c) t₃
      fun a r => FreeRun conf k rows a r ∨ a = x ∧ r = c := by
    apply Edited.insertBefore
    · apply ((h.edited _ _).released (hnot x le_rfl (by omega)) hpos ⟨le_rfl, le_rfl⟩).writes
      split_ifs
      · simp only [mem_singleton, forall_eq]
        exact ⟨by omega, hnot _ (by omega) (by omega)⟩
      · simp
    · exact .inl rfl
    · exact h.sixteen_le hs (mem_block hb.row_cons hb.sec_eq)
    · omega
    · intro r hr
      exact hnot x le_rfl (by omega) (.inr ⟨r, hr⟩)
  have htags : t₃.count = (z.toZoneTables.released x c).count ∧
      t₃.alloc = (z.toZoneTables.released x c).alloc := by
    change t₂.count = _ ∧ t₂.alloc = _
    rw [ht₂]
    split_ifs <;> exact ⟨rfl, rfl⟩
  apply h.merge hs hb (by simp) hedit
  · intro y r
    have hne : FreeRun conf k rows y r → y ≠ x := by
      rintro hy rfl
      exact hnot y le_rfl (by omega) (.inr ⟨r, hy⟩)
    simp [and_iff_left_of_imp hne]
  · constructor
    · rw [htags.1, ZoneTables.count_released htag]
    · rw [htags.2, ZoneTables.alloc_released]
    · intro y hy hy'
      rw [htags.1, htags.2]
      exact ZoneTables.inner_released htag hy hy'
    · intro h1 _
      rw [Edited.insertBefore_prev (.inl (msectPlistIndex_lt c)) (hnot _ (by omega) (by omega))
        (by omega), ht₂, if_pos h1]
      exact update_self _ _ _

/-- The block follows a free run. -/
theorem freeWrite_prev (hb : BlockAt conf rows s x c owner (some p) none as bs) :
    Layout conf ((ZoneAct.freeWrite conf s (x + p)).run z).toZoneTables k
      (update rows s (as ++ [⟨p + c, .free⟩] ++ bs)) := by
  obtain ⟨prev, hprev, hplan⟩ := h.freePlan_eq hs hb
  obtain rfl := hprev rfl
  obtain ⟨htag, hpos, hnot⟩ := h.block_spec hs hb.row_cons hb.sec_eq
  obtain ⟨hfree, hrun, hp⟩ := h.gap_spec hs (hb.mem_before rfl)
  simp only [getD_none, getD_some, add_zero, some_or, map_some] at hplan htag hnot
  unfold ZoneAct.freeWrite
  rw [ZoneAct.run_dep]
  simp only [hplan, hfree.count, ZoneAct.run_acts_cons, ZoneAct.run_ite_set, ne_eq, some.injEq]
  have hedit := (h.edited prev (prev + (p + c))).released (hnot _ le_rfl (by omega)) hpos
    ⟨by omega, by omega⟩
  apply h.join hs hb (rfl : _ = p + c) (by omega) hedit hrun
  · simp
  · intro y
    exact ZoneTables.alloc_released_stretch htag hpos (fun y => hfree.alloc_of_mem) (by omega)
  · intro y hy hy' hne
    exact ZoneTables.count_released_stretch htag hpos (fun y hy hy' => (hfree.inner y hy hy').1)
      (by omega) hy hy' hne (by omega)

/-- The block is between two free runs. -/
theorem freeWrite_both (hb : BlockAt conf rows s x c owner (some p) (some q) as bs) :
    Layout conf ((ZoneAct.freeWrite conf s (x + p)).run z).toZoneTables k
      (update rows s (as ++ [⟨p + (c + q), .free⟩] ++ bs)) := by
  obtain ⟨prev, hprev, hplan⟩ := h.freePlan_eq hs hb
  obtain rfl := hprev rfl
  obtain ⟨htag, hpos, hnot⟩ := h.block_spec hs hb.row_cons hb.sec_eq
  obtain ⟨hfree, hrun, hp⟩ := h.gap_spec hs (hb.mem_before rfl)
  obtain ⟨hnext, hnextRun, hq⟩ := h.gap_spec hs (hb.mem_after rfl)
  simp only [getD_some, some_or, map_some, isSome_some] at hplan htag hnot hnext hnextRun
  unfold ZoneAct.freeWrite
  rw [ZoneAct.run_dep]
  simp only [hplan, hfree.count, hnext.count, ZoneAct.run_acts_cons, ZoneAct.run_acts_nil,
    ZoneAct.run_ite_set, ne_eq, some.injEq, if_true]
  set z₂ : MZone := { z with toZoneTables := z.toZoneTables.released (prev + p) c }
  have hreleased := (h.edited prev (prev + (p + (c + q)))).released (hnot _ le_rfl (by omega)) hpos
    ⟨by omega, by omega⟩
  have hedit : Edited z.toZoneTables (FreeRun conf k rows) prev (prev + (p + (c + q)))
      ((ZoneAct.set [.count (prev + p) (c + q), .count (prev + p + c) 0]).run
        ((ZoneAct.msectEntryRemove (prev + p + c)).run z₂)).toZoneTables
      fun y r => FreeRun conf k rows y r ∧ y ≠ prev + p + c := by
    rw [ZoneAct.run_set, ZoneAct.msectEntryRemove, ZoneAct.run_tab]
    apply (hreleased.remove hnextRun).writes
    simp only [mem_cons, not_mem_nil, or_false, forall_eq_or_imp, forall_eq, Inside]
    omega
  apply h.join hs hb (rfl : _ = p + (c + q)) (by omega) hedit ⟨hrun, by omega⟩
  · simp
  · intro y
    apply ZoneTables.alloc_released_stretch htag hpos fun y => hfree.alloc_of_mem
    exact fun y hy hy' => hnext.alloc_of_mem hy (by omega)
  · intro y hy hy' hne
    change update (update (z.toZoneTables.released (prev + p) c).count (prev + p) (c + q))
      (prev + p + c) 0 y = 0
    rcases eq_or_ne y (prev + p + c) with rfl | hne'
    · exact update_self _ _ _
    · rw [update_of_ne hne', update_of_ne hne]
      exact ZoneTables.count_released_stretch htag hpos (fun y hy hy' => (hfree.inner y hy hy').1)
        (fun y hy hy' => (hnext.inner y hy (by omega)).1) hy hy' hne hne'

/-- The block is before a free run. -/
theorem freeWrite_next (hb : BlockAt conf rows s x c owner none (some q) as bs) :
    Layout conf ((ZoneAct.freeWrite conf s x).run z).toZoneTables k
      (update rows s (as ++ [⟨c + q, .free⟩] ++ bs)) := by
  obtain ⟨prev, -, hplan⟩ := h.freePlan_eq hs hb
  obtain ⟨htag, hpos, hnot⟩ := h.block_spec hs hb.row_cons hb.sec_eq
  obtain ⟨hnext, hrun, hq⟩ := h.gap_spec hs (hb.mem_after rfl)
  have h16 := h.sixteen_le hs (mem_block hb.row_cons hb.sec_eq)
  simp only [getD_none, getD_some, add_zero, zero_add, none_or, map_some, isSome_some,
    isSome_none] at hplan htag hnot hnext hrun h16
  unfold ZoneAct.freeWrite
  rw [ZoneAct.run_dep]
  simp only [hplan, hnext.count, Bool.false_eq_true, if_false, ZoneAct.run_acts_cons,
    ZoneAct.run_acts_nil, ZoneAct.run_ite_set, ne_eq, some.injEq, if_true]
  -- the block takes the place of the free run in its list
  have hreleased := (h.edited x (x + (c + q))).released (hnot x le_rfl (by omega)) hpos
    ⟨le_rfl, by omega⟩
  have hinsert := hreleased.insertBefore (.inr ⟨q, hrun, rfl⟩) h16 ⟨le_rfl, by omega⟩
    fun r hr => hnot x le_rfl (by omega) (.inr ⟨r, hr⟩)
  set z₂ : MZone := { z with toZoneTables := z.toZoneTables.released x c }
  have hedit : Edited z.toZoneTables (FreeRun conf k rows) x (x + (c + q))
      ((ZoneAct.msectEntryRemove (x + c)).run
        ((ZoneAct.msectInsertBefore (x + c) x).run z₂)).toZoneTables
      fun y r => (FreeRun conf k rows y r ∨ y = x ∧ r = q) ∧ y ≠ x + c :=
    hinsert.remove (.inl hrun)
  apply h.join hs hb (by simp : _ = c + q) (by omega) hedit ⟨.inr ⟨rfl, rfl⟩, by omega⟩
  · intro y r hne
    simp [hne]
  · intro y
    apply ZoneTables.alloc_released_stretch htag hpos (by omega)
    exact fun y hy hy' => hnext.alloc_of_mem hy (by omega)
  · intro y hy hy' hne
    exact ZoneTables.count_released_stretch htag hpos (by omega)
      (fun y hy hy' => (hnext.inner y hy (by omega)).1) hy hy' hy.ne' hne

end

/-- The free run at the end of a row, if there is one; what is before it does not end with one. -/
theorem exists_front (has : Apart as) :
    ∃ as' p, as = as' ++ gap p ∧ ∀ r ∈ as'.getLast?, r.kind ≠ .free := by
  cases hr : as.getLast? with
  | none =>
    obtain rfl := getLast?_eq_none_iff.1 hr
    exact ⟨[], none, rfl, by simp⟩
  | some r =>
    obtain ⟨as', rfl⟩ : ∃ as', as = as' ++ [r] := getLast?_eq_some_iff.1 hr
    obtain ⟨size, kind⟩ := r
    cases kind with
    | free => exact ⟨as', some size, rfl, ((apart_append_cons.1 has).2.2 rfl).1⟩
    | taken owner => exact ⟨_, none, (append_nil _).symm, by simp⟩

theorem exists_back (hbs : Apart bs) :
    ∃ q bs', bs = gap q ++ bs' ∧ ∀ r ∈ bs'.head?, r.kind ≠ .free := by
  cases bs with
  | nil => exact ⟨none, [], rfl, by simp⟩
  | cons r bs' =>
    obtain ⟨size, kind⟩ := r
    cases kind with
    | free =>
      have hends := (@apart_append_cons ⟨size, .free⟩ [] bs').1 hbs
      exact ⟨some size, bs', rfl, (hends.2.2 rfl).2⟩
    | taken owner => exact ⟨none, _, rfl, by simp⟩

/-- A block that is not the last one of its segment is freed and joined with the free runs next
to it. -/
theorem freeSects {sec : ℕ} (h : Layout conf z.toZoneTables k rows) (hs : s < k)
    (hrow : rows s = as ++ ⟨c, .taken owner⟩ :: bs)
    (hsec : sec = conf.secStart s + Tilings.total as)
    (hother : ∃ p ∈ as ++ bs, p.kind ≠ .free) :
    ∃ as' p q bs', as = as' ++ gap p ∧ bs = gap q ++ bs' ∧
      Layout conf ((ZoneAct.freeSects conf s sec).run z).toZoneTables k
        (update rows s (as' ++ [⟨p.getD 0 + (c + q.getD 0), .free⟩] ++ bs')) := by
  have hapart := h.apart s hs
  rw [hrow, apart_append_cons] at hapart
  obtain ⟨as', p, rfl, has⟩ := exists_front hapart.1
  obtain ⟨q, bs', rfl, hbs⟩ := exists_back hapart.2.1
  have hrest : as' ++ bs' ≠ [] := by
    obtain ⟨o, ho, hne⟩ := hother
    apply ne_nil_of_mem (a := o)
    simp only [mem_append] at ho ⊢
    rcases ho with (ho | ho) | ho | ho
    · exact .inl ho
    · exact absurd (kind_of_mem_gap ho) hne
    · exact absurd (kind_of_mem_gap ho) hne
    · exact .inr ho
  have hb : BlockAt conf rows s (conf.secStart s + Tilings.total as') c owner p q as' bs' :=
    ⟨by simpa using hrow, rfl, hrest, has, hbs⟩
  refine ⟨as', p, q, bs', rfl, rfl, ?_⟩
  obtain ⟨z₁, h₁, hrun⟩ := ZoneAct.run_freeSects conf s sec z
  rw [← h₁] at h
  rw [hrun, hsec, ← hb.sec_eq]
  cases p with
  | none =>
    cases q with
    | none => simpa using h.freeWrite_alone hs hb
    | some q => simpa using h.freeWrite_next hs hb
  | some p =>
    cases q with
    | none => exact h.freeWrite_prev hs hb
    | some q => exact h.freeWrite_both hs hb

end Layout

namespace ZoneAct

variable (conf : ZoneConf) (zone sec : ℕ) (z : MZone)

theorem used_freeSects : ((freeSects conf zone sec).run z).used = z.used - z.count sec := by
  obtain ⟨z₁, h₁, hrun⟩ := run_freeSects conf zone sec z
  rw [hrun, ← h₁]
  unfold freeWrite
  rw [run_dep]
  simp only [run_acts_cons]
  rfl

theorem logValid_freeSects : ((freeSects conf zone sec).run z).logValid = false := by
  simp only [freeSects, run_acts_cons]
  rfl

end ZoneAct

end AdaptivePlatform.Npc
