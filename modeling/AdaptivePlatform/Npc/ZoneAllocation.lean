import AdaptivePlatform.Npc.ZoneEdits

/-!
# Allocation keeps the layout of a zone
-/
namespace AdaptivePlatform.Npc

open Function Tilings LinkedRings List
open Filed (Linked)
open TableWrite (Inside)
open ZoneAct (allocSects allocWrite growClear refile run run_acts_cons run_dep run_ite_set run_set)
open ZoneTables (write writes)
open Tagged (used)
open ZoneConf (secStart)

namespace ZoneTables

/-- The tags of an allocated block, as `npc_shmz_alloc` sets them. -/
def take (ret count : ℕ) (self : uint32) (t : ZoneTables) : ZoneTables :=
  (t.writes [.alloc ret true, .count ret count, .owner ret self]).writes
    (if 1 < count then [.alloc (ret + count - 1) true, .count (ret + count - 1) (2 ^ 31 - 1)]
    else [])

variable {t : ZoneTables} {ret count : ℕ} {self : uint32}

theorem take_of_ne {y : ℕ} (hy : y ≠ ret) (hy' : y ≠ ret + count - 1) :
    (t.take ret count self).count y = t.count y ∧ (t.take ret count self).alloc y = t.alloc y ∧
      (t.take ret count self).prev y = t.prev y := by
  unfold take
  split_ifs <;> simp [writes, write, hy, hy']

theorem takenTag_take (hcount : 0 < count)
    (hinner : ∀ y, ret < y → y < ret + count → t.count y = 0 ∧ t.alloc y = false) :
    TakenTag (t.take ret count self) ret count self := by
  have hlast : 1 < count → ret ≠ ret + count - 1 := by omega
  constructor
  · unfold take
    split_ifs with h <;> simp [writes, write, hlast, h]
  · unfold take
    split_ifs with h <;> simp [writes, write, hlast, h]
  · unfold take
    split_ifs <;> simp [writes, write]
  · unfold take
    split_ifs <;> simp [writes, write]
  · unfold take
    split_ifs with h
    · simp [writes, write]
    · have : ret + count - 1 = ret := by omega
      simp [writes, write, this]
  · intro y hy hy'
    obtain ⟨hc, ha, -⟩ := @take_of_ne t ret count self y (by omega) (by omega)
    rw [hc, ha]
    exact hinner y hy (by omega)

theorem freeTag_take {stop x size : ℕ} (h : FreeTag t stop x size) (hsize : 0 < size)
    (hcount : 0 < count) (hret : x + size ≤ ret) : FreeTag (t.take ret count self) stop x size := by
  have hsame : ∀ y < x + size, _ := fun y hy =>
    @take_of_ne t ret count self y (by omega) (by omega)
  constructor
  · rw [(hsame x (by omega)).1, h.count]
  · rw [(hsame x (by omega)).2.1, h.alloc]
  · intro y hy hy'
    rw [(hsame y hy').1, (hsame y hy').2.1]
    exact h.inner y hy hy'
  · intro h1 hstop
    rw [(hsame (x + size - 1) (by omega)).2.2, h.back h1 hstop]

end ZoneTables

theorem Edited.take {t t' : ZoneTables} {F G : ℕ → ℕ → Prop} {lo hi ret count : ℕ}
    (hedit : Edited t G lo hi t' F) (self : uint32) (hnot : ¬ Linked 16 F ret)
    (hcount : 0 < count) (hin : lo ≤ ret ∧ ret + count ≤ hi) :
    Edited t G lo hi (t'.take ret count self) F := by
  apply Edited.writes
  · apply hedit.writes
    simp only [mem_cons, not_mem_nil, or_false, forall_eq_or_imp, forall_eq, Inside]
    exact ⟨by omega, by omega, by omega, hnot⟩
  · split_ifs
    · simp only [mem_cons, not_mem_nil, or_false, forall_eq_or_imp, forall_eq, Inside]
      omega
    · simp

theorem ZoneAct.run_allocSects (conf : ZoneConf) (n sec count : ℕ) (self : uint32) (z : MZone) :
    ∃ z₁ : MZone, z₁.toZoneTables = z.toZoneTables ∧
      ((allocSects n sec count self).run z).toZoneTables =
        ((allocWrite n sec count self).run z₁).toZoneTables := by
  obtain ⟨z₁, h₁, hrun⟩ := run_journaled (Logging.allocLog conf n sec count)
    (.allocWrite n sec count self) z
  refine ⟨z₁, h₁, ?_⟩
  rw [allocSects, hrun, run_logFinish]

namespace Layout

variable {conf : ZoneConf} {t t' : ZoneTables} {k : ℕ} {rows : ℕ → List (Piece Use)}
  {s lo : ℕ} {as mid mid' bs : List (Piece Use)}

section

variable {z : MZone} {count sec : ℕ} {self : uint32} {left : Option ℕ}
  (hrow : rows s = as ++ [⟨left.getD 0 + count, .free⟩] ++ bs)
  (hsec : sec = conf.secStart s + Tilings.total as) (hcount : 0 < count)

include hrow hsec hcount

/-- The end of a free run becomes a block; what is left of it has been put into its list. -/
theorem take_end (h : Layout conf t k rows) (hs : s < k)
    (hedit : Edited t (FreeRun conf k rows) sec (sec + (left.getD 0 + count)) t'
      fun y r => FreeRun conf k rows y r ∧ y ≠ sec ∨ y = sec ∧ left = some r)
    (hleft : ∀ l ∈ left, 0 < l ∧ FreeTag t' (conf.secEnd s) sec l)
    (hinner : ∀ y, sec < y → y < sec + (left.getD 0 + count) → t'.count y = 0 ∧ t'.alloc y = false)
    (v : ℕ) : Layout conf ((t'.take (sec + left.getD 0) count self).write (.used v)) k
      (update rows s (as ++ (gap left ++ [⟨count, .taken self⟩]) ++ bs)) := by
  have hmem := mem_row hrow hsec
  have hfree : FreeRun conf k rows sec (left.getD 0 + count) := ⟨s, hs, hmem⟩
  have h16 := h.sixteen_le hs hmem
  have hapart := h.apart s hs
  rw [hrow, append_assoc, singleton_append, apart_append_cons] at hapart
  have hnot : ¬ Linked 16 (fun y r => FreeRun conf k rows y r ∧ y ≠ sec ∨ y = sec ∧ left = some r)
      (sec + left.getD 0) := by
    rintro (hlt | ⟨r, ⟨hr, hne⟩ | ⟨heq, rfl⟩⟩)
    · omega
    · exact h.not_linked hs hmem ⟨by omega, by dsimp only; omega⟩ (.inl hne) (.inr ⟨r, hr⟩)
    · have hr := (hleft r rfl).1
      simp only [Option.getD_some] at heq
      omega
  have htake := (hedit.take self hnot hcount ⟨by omega, by omega⟩).write (w := .used v) trivial
  apply h.replace_edited hs hrow hsec
  · simp only [total_cons]
    omega
  · simp
  · cases left <;> simp_all [gap]
  · simpa using htake
  · intro x r
    refine or_congr (and_congr_right fun hx => ?_) ?_
    · exact (h.ne_iff hfree hx).trans (by simp [place])
    · cases left <;> simp [gap, place, eq_comm]
  · intro x p hx
    rw [place_append, mem_append, total_gap] at hx
    apply used
    rcases hx with hx | hx
    · obtain ⟨rfl, l, rfl, rfl⟩ : x = sec ∧ ∃ l, left = some l ∧ p = ⟨l, .free⟩ := by
        cases left <;> simp_all [gap, place]
      obtain ⟨hl, htag⟩ := hleft l rfl
      exact ZoneTables.freeTag_take htag hl hcount le_rfl
    · obtain ⟨rfl, rfl⟩ : x = sec + left.getD 0 ∧ p = ⟨count, .taken self⟩ := by
        simpa [place] using hx
      apply ZoneTables.takenTag_take hcount
      intro y hy hy'
      exact hinner y (by omega) (by omega)
  · have hbs : Apart (⟨count, .taken self⟩ :: bs) := by
      apply (@apart_append_cons ⟨count, .taken self⟩ [] bs).2
      exact ⟨isChain_nil, hapart.2.1, by simp⟩
    rw [append_assoc, append_assoc, singleton_append]
    cases left with
    | none => exact apart_append_cons.2 ⟨hapart.1, hapart.2.1, by simp⟩
    | some l => exact apart_append_cons.2 ⟨hapart.1, hbs, fun _ => ⟨(hapart.2.2 rfl).1, by simp⟩⟩

theorem allocSects (h : Layout conf z.toZoneTables k rows) (hs : s < k)
    (hleft : ∀ l ∈ left, 0 < l) :
    Layout conf
      ((allocSects (msectPlistIndex (left.getD 0 + count)) sec count self).run z).toZoneTables k
      (update rows s (as ++ (gap left ++ [⟨count, .taken self⟩]) ++ bs)) := by
  have hmem := mem_row hrow hsec
  have hfree : FreeRun conf k rows sec (left.getD 0 + count) := ⟨s, hs, hmem⟩
  have htag := h.freeTag hs hmem
  obtain ⟨z₁, h₁, hrun⟩ :=
    ZoneAct.run_allocSects conf (msectPlistIndex (left.getD 0 + count)) sec count self z
  rw [← h₁] at h htag
  rw [hrun]
  unfold allocWrite
  rw [run_dep]
  simp only [htag.count, Nat.add_sub_cancel, run_acts_cons, run_ite_set]
  cases left with
  | none =>
    have hremove := (h.edited sec (sec + ((none : Option ℕ).getD 0 + count))).remove hfree
    apply take_end hrow hsec hcount h hs _ nofun
    · exact htag.inner
    · simpa [ZoneAct.msectEntryRemove, ZoneAct.run_tab] using hremove
  | some l =>
    have hl := hleft l rfl
    simp only [Option.getD_some] at hfree htag ⊢
    rw [if_neg hl.ne']
    simp only [run_acts_cons, run_ite_set]
    have hnotLinked : ∀ y, sec < y → y < sec + (l + count) → ¬ Linked 16 (FreeRun conf k rows) y :=
      fun y hy hy' => h.not_linked hs hmem ⟨hy.le, hy'⟩ (.inl hy.ne')
    set t₂ := (z₁.toZoneTables.writes (if 1 < l then [.prev (sec + l - 1) sec] else [])).writes
      [.count sec l] with ht₂
    have hedit : Edited z₁.toZoneTables (FreeRun conf k rows) sec (sec + (l + count)) t₂
        (FreeRun conf k rows) := by
      apply Edited.writes
      · apply (h.edited _ _).writes
        split_ifs with h1
        · simp only [mem_singleton, forall_eq]
          exact ⟨by omega, hnotLinked _ (by omega) (by omega)⟩
        · simp
      · simp only [mem_singleton, forall_eq, Inside]
        omega
    have htags : ∀ y, t₂.count y = (if y = sec then l else z₁.count y) ∧
        t₂.alloc y = z₁.alloc y := by
      intro y
      rw [ht₂]
      split_ifs <;> simp_all [writes, write]
    have hinner : ∀ y, sec < y → y < sec + (l + count) → t₂.count y = 0 ∧ t₂.alloc y = false := by
      intro y hy hy'
      rw [(htags y).1, (htags y).2, if_neg hy.ne']
      exact htag.inner y hy hy'
    set z₃ := (refile (msectPlistIndex (l + count)) (msectPlistIndex l) sec).run
      { z₁ with toZoneTables := t₂ } with hz₃
    have hcount₃ : z₃.count = t₂.count := ZoneAct.count_refile _ _ _ _
    have halloc₃ : z₃.alloc = t₂.alloc := ZoneAct.alloc_refile _ _ _ _
    have hrefile := hedit.refile (z := { z₁ with toZoneTables := t₂ }) hfree ⟨le_rfl, by omega⟩ l
    have htag₃ : FreeTag z₃.toZoneTables (conf.secEnd s) sec l := by
      refine ⟨?_, ?_, ?_, ?_⟩
      · rw [hcount₃, (htags sec).1, if_pos rfl]
      · rw [halloc₃, (htags sec).2, htag.alloc]
      · intro y hy hy'
        rw [hcount₃, halloc₃]
        exact hinner y hy (by omega)
      · intro h1 _
        rw [hz₃, hedit.refile_prev (z := { z₁ with toZoneTables := t₂ }) hfree
          (hnotLinked _ (by omega) (by omega)), ht₂, if_pos h1]
        exact update_self _ _ _
    change Layout conf ((z₃.toZoneTables.take (sec + l) count self).write
      (.used (z₁.used + count))) k _
    apply take_end hrow hsec hcount h hs
    · simpa [eq_comm] using hrefile
    · rintro _ ⟨⟩
      exact ⟨hl, htag₃⟩
    · rw [hcount₃, halloc₃]
      exact hinner

end

section

section

variable (conf : ZoneConf) (n : ℕ) (t : ZoneTables)

theorem writes_clear (lo n : ℕ) :
    ∀ y, lo ≤ y → y < lo + n →
      (t.writes ((List.range n).map fun i => .clear (lo + i))).count y = 0 ∧
      (t.writes ((List.range n).map fun i => .clear (lo + i))).alloc y = false := by
  induction n with
  | zero => omega
  | succ n ih =>
    intro y hle hlt
    rw [range_succ, map_append, writes, foldl_append]
    by_cases hy : y = lo + n
    · subst hy
      exact ⟨update_self _ _ _, update_self _ _ _⟩
    · have hkeep := ih y hle (by omega)
      exact ⟨(update_of_ne hy _ _).trans hkeep.1, (update_of_ne hy _ _).trans hkeep.2⟩

/-- The section table when the sections of segment `n` are cleared. -/
def cleared : ZoneTables :=
  t.writes ((List.range (conf.secEnd n - conf.secStart n)).map fun i =>
    .clear (conf.secStart n + i))

theorem cleared_keeps : (cleared conf n t).valid = t.valid ∧ (cleared conf n t).inuse = t.inuse ∧
      (cleared conf n t).total = t.total ∧ (cleared conf n t).used = t.used := by
  unfold cleared
  induction List.range (conf.secEnd n - conf.secStart n) generalizing t with
  | nil => exact ⟨rfl, rfl, rfl, rfl⟩
  | cons i is ih => exact ih (t.write (.clear (conf.secStart n + i)))

/-- The section table when segment `n` has become one free run. -/
def grown : ZoneTables :=
  let size := conf.secEnd n - conf.secStart n
  let t₂ := (cleared conf n t).writes
    [.count (conf.secStart n) size, .prev (conf.secEnd n) (conf.secStart n)]
  t₂.writes (t₂.msectInsertBefore (msectPlistIndex size) (conf.secStart n))

end

variable {z : MZone} {n : ℕ}

theorem run_growClear (hvalid : z.valid n = false) : (growClear conf n).run z =
      { z with toZoneTables := cleared conf n z.toZoneTables } := by
  unfold growClear run
  simp only [hvalid]
  exact run_set z _

theorem run_growSegm (hvalid : z.valid n = false) : ((ZoneAct.growSegm conf n).run z).toZoneTables =
      { grown conf n z.toZoneTables with
        valid := update z.valid n true
        inuse := update z.inuse n true
        total := z.total + (conf.secEnd n - conf.secStart n)
        used := z.used } := by
  obtain ⟨hv, hi, ht, hu⟩ := cleared_keeps conf n z.toZoneTables
  rw [ZoneAct.growSegm, run_acts_cons, run_growClear hvalid]
  obtain ⟨z₁, h₁, hjournal⟩ := ZoneAct.run_journaled (Logging.growLog conf n) (.growWrite conf n)
    { z with toZoneTables := cleared conf n z.toZoneTables }
  rw [hjournal, ZoneAct.run_logFinish]
  unfold ZoneAct.growWrite
  rw [run_dep]
  simp only [run_acts_cons, run_set, ZoneAct.msectInsertBefore, ZoneAct.run_tab, h₁, grown]
  generalize cleared conf n z.toZoneTables = t₁ at hv hi ht hu
  rw [← hv, ← hi, ← ht, ← hu]
  simp [writes, write, ZoneTables.msectInsertBefore]

theorem not_linked_of_le (h : Layout conf t k rows) {y : ℕ} (hy : conf.secStart k ≤ y) :
    ¬ Linked 16 (FreeRun conf k rows) y := by
  rintro (hlt | ⟨r, n, hn, hr⟩)
  · unfold secStart at hy
    omega
  · have hb := h.mem_bounds hn hr
    have := conf.secEnd_le_secStart hn
    omega

theorem edited_grown (h : Layout conf t k rows) (hk : k < conf.segCount) :
    Edited t (FreeRun conf k rows) (conf.secStart k) (conf.secEnd k + 1) (grown conf k t)
      fun a r => FreeRun conf k rows a r ∨
        a = conf.secStart k ∧ r = conf.secEnd k - conf.secStart k := by
  have hlt := conf.secStart_lt_secEnd hk
  have hnot : ∀ y, conf.secStart k ≤ y → ¬ Linked 16 (FreeRun conf k rows) y :=
    fun y hy => h.not_linked_of_le hy
  apply Edited.insertBefore
  · apply Edited.writes
    · apply (h.edited _ _).writes
      intro w hw
      obtain ⟨i, hi, rfl⟩ := mem_map.1 hw
      rw [mem_range] at hi
      exact ⟨by omega, hnot _ (by omega)⟩
    · simp only [mem_cons, not_mem_nil, or_false, forall_eq_or_imp, forall_eq, Inside]
      exact ⟨by omega, by omega, hnot _ (by omega)⟩
  · exact .inl rfl
  · unfold secStart
    omega
  · omega
  · intro r hr
    exact hnot _ le_rfl (.inr ⟨r, hr⟩)

theorem freeTag_grown (hlt : conf.secStart k < conf.secEnd k) :
    FreeTag (grown conf k t) (conf.secEnd k) (conf.secStart k)
      (conf.secEnd k - conf.secStart k) := by
  have hzero := writes_clear t (conf.secStart k) (conf.secEnd k - conf.secStart k)
  constructor
  · exact update_self _ _ _
  · exact (hzero (conf.secStart k) le_rfl (by omega)).2
  · intro y hy hy'
    exact ⟨(update_of_ne hy.ne' _ _).trans (hzero y hy.le hy').1, (hzero y hy.le hy').2⟩
  · omega

theorem growSegm (h : Layout conf z.toZoneTables k rows) (hk : k < conf.segCount) :
    Layout conf ((ZoneAct.growSegm conf k).run z).toZoneTables (k + 1)
      (update rows k [⟨conf.secEnd k - conf.secStart k, .free⟩]) := by
  have hlt := conf.secStart_lt_secEnd hk
  have hvalid : z.valid k = false := by simpa using h.valid k hk
  have hedit := h.edited_grown hk
  have htag := freeTag_grown (t := z.toZoneTables) hlt
  rw [run_growSegm hvalid]
  have hcases : ∀ n < k + 1, n ≠ k → n < k := by omega
  have hrows : ∀ P : ℕ → List (Piece Use) → Prop, P k [⟨conf.secEnd k - conf.secStart k, .free⟩] →
      (∀ n < k, P n (rows n)) →
        ∀ n < k + 1, P n (update rows k [⟨conf.secEnd k - conf.secStart k, .free⟩] n) := by
    intro P hnew hold n hn
    by_cases he : n = k
    · rw [he, update_self]
      exact hnew
    · rw [update_of_ne he]
      exact hold n (hcases n hn he)
  constructor
  · exact hk
  · intro n hn
    by_cases he : n = k
    · simp [he]
    · simp only [update_of_ne he, h.inuse n hn]
      exact decide_eq_decide.2 (by omega)
  · intro n hn
    by_cases he : n = k
    · simp [he]
    · simp only [update_of_ne he, h.valid n hn]
      exact decide_eq_decide.2 (by omega)
  · exact hrows (fun n row => Tilings.total row = conf.secEnd n - conf.secStart n) (by simp) h.size
  · apply hrows (fun _ row => ∀ p ∈ row, 0 < p.size) _ h.pos
    simpa using hlt
  · apply hrows (fun n row => ∀ x p, (x, p) ∈ place (conf.secStart n) row → Tagged _ _ x p)
    · intro x p hx
      obtain ⟨rfl, rfl⟩ : x = conf.secStart k ∧ p = ⟨conf.secEnd k - conf.secStart k, .free⟩ := by
        simpa [place] using hx
      exact ⟨htag.count, htag.alloc, htag.inner, htag.back⟩
    · intro n hn x p hx
      have hb := h.mem_bounds hn hx
      have hend := conf.secEnd_le_secStart hn
      have hold := h.tagged_same hedit.same hn hx (.inl (by omega))
      obtain ⟨size, kind⟩ := p
      cases kind with
      | free => exact ⟨hold.count, hold.alloc, hold.inner, hold.back⟩
      | taken owner => exact ⟨hold.count, hold.alloc, hold.next, hold.prev, hold.last, hold.inner⟩
  · exact hrows (fun _ row => Apart row) (isChain_singleton _) h.apart
  · apply hedit.filed.iff
    intro x r
    constructor
    · rintro (⟨n, hn, hx⟩ | ⟨rfl, rfl⟩)
      · exact ⟨n, by omega, by rwa [update_of_ne hn.ne]⟩
      · exact ⟨k, by omega, by simp [place]⟩
    · rintro ⟨n, hn, hx⟩
      by_cases he : n = k
      · subst he
        exact .inr (by simpa [place] using hx)
      · rw [update_of_ne he] at hx
        exact .inl ⟨n, hcases n hn he, hx⟩
  · rw [range_succ, map_append, sum_append, ← h.total]
    simp
  · intro l hl
    have h16 : l < conf.secStart k := by
      unfold secStart
      omega
    have htags := hedit.same.tags l (by omega)
    exact ⟨htags.1.trans (h.sentinel l hl).1, htags.2.trans (h.sentinel l hl).2⟩

end

end Layout

namespace ZoneAct

theorem used_allocSects (conf : ZoneConf) (n sec count : ℕ) (self : uint32) (z : MZone) :
    ((allocSects n sec count self).run z).used = z.used + count := by
  obtain ⟨z₁, h₁, hrun⟩ := run_allocSects conf n sec count self z
  rw [hrun, ← h₁]
  unfold allocWrite
  rw [run_dep]
  simp only [run_acts_cons]
  rfl

theorem logValid_allocSects (n sec count : ℕ) (self : uint32) (z : MZone) :
    ((allocSects n sec count self).run z).logValid = false := by
  simp only [allocSects, run_acts_cons]
  rfl

theorem logValid_growSegm (conf : ZoneConf) (n : ℕ) (z : MZone) :
    ((growSegm conf n).run z).logValid = false := by
  simp only [growSegm, run_acts_cons]
  rfl

end ZoneAct

end AdaptivePlatform.Npc
