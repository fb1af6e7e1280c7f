import AdaptivePlatform.Foundations.LinkedRings
import AdaptivePlatform.Foundations.Tilings
import AdaptivePlatform.Npc.Zone

/-!
# The layout of a zone

Each segment in use is a row of runs, free or taken, in which no two free runs stand
side by side. The layout of a zone says that the table of sections has the tags of
these rows and that its lists hold the free runs by their size.
-/
namespace AdaptivePlatform.Npc

open Function Tilings LinkedRings

theorem msectPlistIndex_lt (len : ℕ) : msectPlistIndex len < 16 := by
  unfold msectPlistIndex
  split_ifs <;> omega

namespace ZoneConf

variable (conf : ZoneConf)

theorem sects_le : conf.segCount * conf.secCount ≤ 2 ^ 14 := by
  have hclog : conf.secCount ≤ 2 ^ Nat.clog 2 conf.secCount := Nat.le_pow_clog (by omega) _
  have hsize := conf.size_le
  rw [pow_add, ← mul_assoc, mul_comm conf.segCount, mul_assoc,
    show 2 ^ 32 = 2 ^ 18 * 2 ^ 14 by norm_num] at hsize
  exact le_trans (Nat.mul_le_mul_left _ hclog) (Nat.le_of_mul_le_mul_left hsize (by norm_num))

/-- Every segment has a section: the bound of the table cuts off at most 16. -/
theorem secStart_lt_secEnd {n : ℕ} (hn : n < conf.segCount) : conf.secStart n < conf.secEnd n := by
  have hcount := conf.secCount_pos
  have hseg := conf.segCount_le
  have hsects := conf.sects_le
  have hnext : n * conf.secCount + conf.secCount ≤ conf.segCount * conf.secCount := by
    rw [← Nat.succ_mul]
    exact Nat.mul_le_mul_right _ hn
  have hlt : 16 + n * conf.secCount < 16 * 1024 := by
    rcases le_or_gt conf.secCount 16 with hsmall | hlarge
    · have : n * conf.secCount ≤ 255 * 16 := Nat.mul_le_mul (by omega) hsmall
      omega
    · omega
  unfold secEnd secStart
  omega

theorem secEnd_le_secStart {m n : ℕ} (h : m < n) : conf.secEnd m ≤ conf.secStart n := by
  have : (m + 1) * conf.secCount ≤ n * conf.secCount := Nat.mul_le_mul_right _ h
  rw [Nat.succ_mul] at this
  unfold secEnd secStart
  omega

end ZoneConf

/-- What a run of sections is used for. -/
inductive Use
  | free
  | taken (owner : uint32)
  deriving DecidableEq

/-- The tags of a free run. The back reference of its last section is set unless the run ends the
segment. -/
structure FreeTag (t : ZoneTables) (stop x size : ℕ) : Prop where
  count : t.count x = size
  alloc : t.alloc x = false
  inner : ∀ y, x < y → y < x + size → t.count y = 0 ∧ t.alloc y = false
  back : 1 < size → x + size < stop → t.prev (x + size - 1) = x

/-- The tags of a run that is taken. -/
structure TakenTag (t : ZoneTables) (x size : ℕ) (owner : uint32) : Prop where
  count : t.count x = size
  alloc : t.alloc x = true
  next : t.next x = owner.toNat % 2 ^ 16
  prev : t.prev x = owner.toNat / 2 ^ 16
  last : t.alloc (x + size - 1) = true
  inner : ∀ y, x < y → y + 1 < x + size → t.count y = 0 ∧ t.alloc y = false

def Tagged (t : ZoneTables) (stop x : ℕ) (p : Piece Use) : Prop :=
  match p.kind with
  | .free => FreeTag t stop x p.size
  | .taken owner => TakenTag t x p.size owner

variable {p : Piece Use}

theorem Tagged.used {t : ZoneTables} {stop x value : ℕ} (h : Tagged t stop x p) :
    Tagged (t.write (.used value)) stop x p := by
  obtain ⟨size, kind⟩ := p
  cases kind with
  | free => exact ⟨h.count, h.alloc, h.inner, h.back⟩
  | taken owner => exact ⟨h.count, h.alloc, h.next, h.prev, h.last, h.inner⟩

variable (conf : ZoneConf) (k : ℕ) (rows : ℕ → List (Piece Use))

/-- A run of the first `k` segments. -/
def Run (x : ℕ) (p : Piece Use) : Prop := ∃ n < k, (x, p) ∈ place (conf.secStart n) (rows n)

def FreeRun (x size : ℕ) : Prop := Run conf k rows x ⟨size, .free⟩

/-- No two free runs stand side by side. -/
def Apart (row : List (Piece Use)) : Prop :=
  row.IsChain fun p q => ¬ (p.kind = .free ∧ q.kind = .free)

theorem apart_append_cons {as bs : List (Piece Use)} :
    Apart (as ++ p :: bs) ↔ Apart as ∧ Apart bs ∧ (p.kind = .free →
      (∀ q ∈ as.getLast?, q.kind ≠ .free) ∧ ∀ q ∈ bs.head?, q.kind ≠ .free) := by
  unfold Apart
  rw [List.isChain_append, List.isChain_cons]
  simp only [List.head?_cons, Option.mem_some_iff, forall_eq']
  constructor
  · rintro ⟨has, ⟨hp, hbs⟩, hend⟩
    refine ⟨has, hbs, fun hfree => ⟨fun q hq hq' => ?_, fun q hq hq' => ?_⟩⟩
    · exact hend q hq ⟨hq', hfree⟩
    · exact hp q hq ⟨hfree, hq'⟩
  · rintro ⟨has, hbs, hends⟩
    refine ⟨has, ⟨fun q hq hboth => ?_, hbs⟩, fun q hq hboth => ?_⟩
    · exact (hends hboth.1).2 q hq hboth.2
    · exact (hends hboth.2).1 q hq hboth.1

/-- A free run of this size, or none. -/
def gap (p : Option ℕ) : List (Piece Use) := p.toList.map fun size => ⟨size, .free⟩

@[simp] theorem total_gap (p : Option ℕ) : Tilings.total (gap p) = p.getD 0 := by
  cases p <;> simp [gap]

theorem kind_of_mem_gap {p : Option ℕ} {o : Piece Use} (ho : o ∈ gap p) : o.kind = .free := by
  obtain ⟨size, -, rfl⟩ := List.mem_map.1 ho
  rfl

/-- The first `k` segments are in use and consist of the given rows. -/
structure Layout (conf : ZoneConf) (t : ZoneTables) (k : ℕ) (rows : ℕ → List (Piece Use)) :
    Prop where
  le : k ≤ conf.segCount
  inuse : ∀ n < conf.segCount, t.inuse n = decide (n < k)
  valid : ∀ n < conf.segCount, t.valid n = decide (n < k)
  size : ∀ n < k, Tilings.total (rows n) = conf.secEnd n - conf.secStart n
  pos : ∀ n < k, ∀ p ∈ rows n, 0 < p.size
  tagged : ∀ n < k, ∀ x p, (x, p) ∈ place (conf.secStart n) (rows n) → Tagged t (conf.secEnd n) x p
  apart : ∀ n < k, Apart (rows n)
  filed : Filed t.next t.prev 16 msectPlistIndex (FreeRun conf k rows)
  total : t.total = ((List.range k).map fun n => conf.secEnd n - conf.secStart n).sum
  sentinel : ∀ l < 16, t.count l = 0 ∧ t.alloc l = false

namespace Layout

variable {conf : ZoneConf} {t t' : ZoneTables} {k : ℕ} {rows : ℕ → List (Piece Use)}
  {n x s sec : ℕ} {as bs : List (Piece Use)}

section

variable (h : Layout conf t k rows)

include h

theorem mem_bounds (hn : n < k) (hx : (x, p) ∈ place (conf.secStart n) (rows n)) :
    conf.secStart n ≤ x ∧ 0 < p.size ∧ x + p.size ≤ conf.secEnd n := by
  have hend := end_le_of_mem hx
  have hlt := conf.secStart_lt_secEnd (lt_of_lt_of_le hn h.le)
  rw [h.size n hn] at hend
  exact ⟨le_of_mem hx, h.pos n hn p (mem_of_mem_place hx), by omega⟩

theorem eq_of_overlap {n' x' y : ℕ} {p' : Piece Use} (hn : n < k)
    (hn' : n' < k) (hx : (x, p) ∈ place (conf.secStart n) (rows n))
    (hx' : (x', p') ∈ place (conf.secStart n') (rows n')) (hy : x ≤ y ∧ y < x + p.size)
    (hy' : x' ≤ y ∧ y < x' + p'.size) : x = x' ∧ p = p' := by
  have hb := h.mem_bounds hn hx
  have hb' := h.mem_bounds hn' hx'
  have hseg : n = n' := by
    rcases lt_trichotomy n n' with hlt | heq | hgt
    · have := conf.secEnd_le_secStart hlt
      omega
    · exact heq
    · have := conf.secEnd_le_secStart hgt
      omega
  subst hseg
  exact Tilings.eq_of_overlap hx hx' hy hy'

theorem sixteen_le (hn : n < k) (hx : (x, p) ∈ place (conf.secStart n) (rows n)) : 16 ≤ x := by
  have := (h.mem_bounds hn hx).1
  unfold ZoneConf.secStart at this
  omega

theorem freeTag (hs : s < k) {c : ℕ}
    (hx : (x, ⟨c, .free⟩) ∈ place (conf.secStart s) (rows s)) : FreeTag t (conf.secEnd s) x c :=
  h.tagged s hs x _ hx

end

theorem mem_row (hrow : rows s = as ++ [p] ++ bs)
    (hsec : sec = conf.secStart s + Tilings.total as) :
    (sec, p) ∈ place (conf.secStart s) (rows s) := by
  rw [hrow, hsec, List.append_assoc]
  exact mem_place_append

section

variable (h : Layout conf t k rows)

include h

/-- Only the first section of a free run is linked into a list. -/
theorem not_linked {y : ℕ} (hn : n < k)
    (hx : (x, p) ∈ place (conf.secStart n) (rows n)) (hy : x ≤ y ∧ y < x + p.size)
    (hne : y ≠ x ∨ p.kind ≠ .free) : ¬ Filed.Linked 16 (FreeRun conf k rows) y := by
  have h16 := h.sixteen_le hn hx
  rintro (hlt | ⟨s, n', hn', hs⟩)
  · omega
  · have hb := h.mem_bounds hn' hs
    obtain ⟨rfl, rfl⟩ := h.eq_of_overlap hn hn' hx hs hy ⟨le_rfl, by simpa using hb.2.1⟩
    simp at hne

theorem freeRun_unique {r : ℕ} (hr : FreeRun conf k rows x r)
    (hs : FreeRun conf k rows x s) : r = s := by
  obtain ⟨n, hn, hr⟩ := hr
  obtain ⟨n', hn', hs⟩ := hs
  have hb := h.mem_bounds hn hr
  have hb' := h.mem_bounds hn' hs
  obtain ⟨-, heq⟩ := h.eq_of_overlap hn hn' hr hs ⟨le_rfl, Nat.lt_add_of_pos_right hb.2.1⟩
    ⟨le_rfl, Nat.lt_add_of_pos_right hb'.2.1⟩
  exact congrArg Piece.size heq

theorem ne_iff {x y r p : ℕ} (hx : FreeRun conf k rows x p)
    (hy : FreeRun conf k rows y r) : y ≠ x ↔ ¬ (y = x ∧ r = p) := by
  constructor
  · intro hne heq
    exact hne heq.1
  · rintro hne rfl
    exact hne ⟨rfl, h.freeRun_unique hy hx⟩

theorem sixteen_le_freeRun (hs : FreeRun conf k rows x s) : 16 ≤ x := by
  obtain ⟨n, hn, hs⟩ := hs
  exact h.sixteen_le hn hs

end

/-- The tables differ only in the sections from `lo` to `hi` and in the links of list entries. -/
structure Same (t t' : ZoneTables) (F : ℕ → ℕ → Prop) (lo hi : ℕ) : Prop where
  tags : ∀ y, ¬ (lo ≤ y ∧ y < hi) → t'.count y = t.count y ∧ t'.alloc y = t.alloc y
  links : ∀ y, ¬ (lo ≤ y ∧ y < hi) → ¬ Filed.Linked 16 F y →
    t'.next y = t.next y ∧ t'.prev y = t.prev y

theorem tagged_same (h : Layout conf t k rows) {lo hi : ℕ}
    (hsame : Same t t' (FreeRun conf k rows) lo hi) (hn : n < k)
    (hx : (x, p) ∈ place (conf.secStart n) (rows n)) (hout : x + p.size ≤ lo ∨ hi ≤ x) :
    Tagged t' (conf.secEnd n) x p := by
  have hb := h.mem_bounds hn hx
  have htag := h.tagged n hn x p hx
  have htags : ∀ y, x ≤ y → y < x + p.size → t'.count y = t.count y ∧ t'.alloc y = t.alloc y :=
    fun y hy hy' => hsame.tags y (by omega)
  have hlinks : ∀ y, x ≤ y → y < x + p.size → (y ≠ x ∨ p.kind ≠ .free) →
      t'.next y = t.next y ∧ t'.prev y = t.prev y :=
    fun y hy hy' hne => hsame.links y (by omega) (h.not_linked hn hx ⟨hy, hy'⟩ hne)
  obtain ⟨size, kind⟩ := p
  simp only at hb htags hlinks
  cases kind with
  | free =>
    obtain ⟨hcount, halloc, hinner, hback⟩ := htag
    refine ⟨?_, ?_, fun y hy hy' => ?_, fun hsize hstop => ?_⟩
    · rw [(htags x le_rfl (by omega)).1, hcount]
    · rw [(htags x le_rfl (by omega)).2, halloc]
    · rw [(htags y hy.le hy').1, (htags y hy.le hy').2]
      exact hinner y hy hy'
    · have hsize' : 1 < size := hsize
      rw [(hlinks (x + size - 1) (by omega) (by omega) (.inl (by omega))).2]
      exact hback hsize hstop
  | taken owner =>
    obtain ⟨hcount, halloc, hnext, hprev, hlast, hinner⟩ := htag
    have hx' := hlinks x le_rfl (by omega) (.inr (by simp))
    refine ⟨?_, ?_, ?_, ?_, ?_, fun y hy hy' => ?_⟩
    · rw [(htags x le_rfl (by omega)).1, hcount]
    · rw [(htags x le_rfl (by omega)).2, halloc]
    · rw [hx'.1, hnext]
    · rw [hx'.2, hprev]
    · rw [(htags (x + size - 1) (by omega) (by omega)).2]
      exact hlast
    · have hy'' : y + 1 < x + size := hy'
      rw [(htags y hy.le (by omega)).1, (htags y hy.le (by omega)).2]
      exact hinner y hy hy'

section

variable {s lo : ℕ} {as mid mid' bs : List (Piece Use)} (h : Layout conf t k rows) (hs : s < k)
  (hrow : rows s = as ++ mid ++ bs) (hlo : lo = conf.secStart s + Tilings.total as)

include h hs hrow hlo

theorem stretch_bounds : conf.secStart s ≤ lo ∧ lo + Tilings.total mid ≤ conf.secEnd s := by
  have htot := h.size s hs
  have hlt := conf.secStart_lt_secEnd (lt_of_lt_of_le hs h.le)
  rw [hrow] at htot
  simp only [total_append] at htot
  omega

theorem outside_of_ne (hn : n < k) (hne : n ≠ s) (hx : (x, p) ∈ place (conf.secStart n) (rows n)) :
    x + p.size ≤ lo ∨ lo + Tilings.total mid ≤ x := by
  have hin := h.stretch_bounds hs hrow hlo
  have hb := h.mem_bounds hn hx
  rcases Nat.lt_or_gt_of_ne hne with hlt | hgt
  · have := conf.secEnd_le_secStart hlt
    omega
  · have := conf.secEnd_le_secStart hgt
    omega

theorem outside_of_start (hmid : 0 < Tilings.total mid) (hn : n < k)
    (hx : (x, p) ∈ place (conf.secStart n) (rows n))
    (hnot : ¬ (lo ≤ x ∧ x < lo + Tilings.total mid)) :
    x + p.size ≤ lo ∨ lo + Tilings.total mid ≤ x := by
  by_contra hcross
  have hxlo : x < lo := by omega
  -- `lo` itself would be in this run and in one of the stretch
  have hlo' : lo < lo + Tilings.total mid := by omega
  obtain ⟨x', p', hx', hle, hlt⟩ := exists_mem_of_lt le_rfl hlo'
  have hx'' : (x', p') ∈ place (conf.secStart s) (rows s) := by
    rw [hrow, place_append, place_append, ← hlo]
    exact List.mem_append_left _ (List.mem_append_right _ hx')
  obtain ⟨rfl, -⟩ := h.eq_of_overlap (y := lo) hn hs hx hx'' ⟨hxlo.le, by omega⟩ ⟨hle, hlt⟩
  have := le_of_mem hx'
  omega

theorem freeRun_stretch (x r : ℕ) :
    FreeRun conf k rows x r ∧ (lo ≤ x ∧ x < lo + Tilings.total mid) ↔
      (x, ⟨r, .free⟩) ∈ place lo mid := by
  have hsub : ∀ x p, (x, p) ∈ place lo mid → (x, p) ∈ place (conf.secStart s) (rows s) := by
    intro x p hx
    rw [hrow, place_append, place_append, ← hlo]
    exact List.mem_append_left _ (List.mem_append_right _ hx)
  constructor
  · rintro ⟨⟨n, hn, hx⟩, hle, hlt⟩
    obtain ⟨x', p', hx', hle', hlt'⟩ := exists_mem_of_lt hle hlt
    have hb := h.mem_bounds hn hx
    obtain ⟨rfl, rfl⟩ := h.eq_of_overlap hn hs hx (hsub x' p' hx')
      ⟨le_rfl, Nat.lt_add_of_pos_right hb.2.1⟩ ⟨hle', hlt'⟩
    exact hx'
  · intro hx
    have hb := h.mem_bounds hs (hsub _ _ hx)
    have hend := end_le_of_mem hx
    exact ⟨⟨s, hs, hsub _ _ hx⟩, le_of_mem hx, by simp only at hb hend; omega⟩

theorem run_replace (hsize : Tilings.total mid' = Tilings.total mid) (x : ℕ) (p : Piece Use) :
    Run conf k (update rows s (as ++ mid' ++ bs)) x p ↔
      Run conf k rows x p ∧ ¬ (lo ≤ x ∧ x < lo + Tilings.total mid) ∨ (x, p) ∈ place lo mid' := by
  have hpos : ∀ q ∈ as ++ mid ++ bs, 0 < q.size := by
    intro q hq
    exact h.pos s hs q (hrow ▸ hq)
  have hmem : (x, p) ∈ place (conf.secStart s) (as ++ mid' ++ bs) ↔
      (x, p) ∈ place (conf.secStart s) (rows s) ∧ ¬ (lo ≤ x ∧ x < lo + Tilings.total mid) ∨
        (x, p) ∈ place lo mid' := by
    rw [hrow, hlo]
    exact mem_place_replace hpos hsize
  constructor
  · rintro ⟨n, hn, hx⟩
    by_cases he : n = s
    · subst he
      rw [update_self, hmem] at hx
      exact hx.imp_left fun hx => ⟨⟨n, hn, hx.1⟩, hx.2⟩
    · rw [update_of_ne he] at hx
      have hout := h.outside_of_ne hs hrow hlo hn he hx
      have hb := h.mem_bounds hn hx
      exact .inl ⟨⟨n, hn, hx⟩, by omega⟩
  · rintro (⟨⟨n, hn, hx⟩, hnot⟩ | hx)
    · refine ⟨n, hn, ?_⟩
      by_cases he : n = s
      · subst he
        rw [update_self, hmem]
        exact .inl ⟨hx, hnot⟩
      · rw [update_of_ne he]
        exact hx
    · refine ⟨s, hs, ?_⟩
      rw [update_self, hmem]
      exact .inr hx

/-- A stretch of a row is replaced by other runs. -/
theorem replace (hmid : 0 < Tilings.total mid) (hsize : Tilings.total mid' = Tilings.total mid)
    (hpos : ∀ q ∈ mid', 0 < q.size)
    (hsame : Same t t' (FreeRun conf k rows) lo (lo + Tilings.total mid))
    (htag : ∀ x p, (x, p) ∈ place lo mid' → Tagged t' (conf.secEnd s) x p)
    (hapart : Apart (as ++ mid' ++ bs))
    (hfiled : Filed t'.next t'.prev 16 msectPlistIndex fun x r =>
      FreeRun conf k rows x r ∧ ¬ (lo ≤ x ∧ x < lo + Tilings.total mid) ∨
        (x, ⟨r, .free⟩) ∈ place lo mid') (hinuse : t'.inuse = t.inuse)
    (hvalid : t'.valid = t.valid) (htotal : t'.total = t.total) :
    Layout conf t' k (update rows s (as ++ mid' ++ bs)) := by
  have hrun := h.run_replace hs hrow hlo hsize
  constructor
  · exact h.le
  · rw [hinuse]
    exact h.inuse
  · rw [hvalid]
    exact h.valid
  · intro n hn
    by_cases he : n = s
    · subst he
      rw [update_self, ← h.size n hn, hrow]
      simp [hsize]
    · rw [update_of_ne he, h.size n hn]
  · intro n hn p hp
    by_cases he : n = s
    · subst he
      rw [update_self] at hp
      have hold : ∀ q ∈ as ++ mid ++ bs, 0 < q.size := fun q hq => h.pos n hn q (hrow ▸ hq)
      simp only [List.mem_append] at hp hold
      rcases hp with (hp | hp) | hp
      · exact hold p (.inl (.inl hp))
      · exact hpos p hp
      · exact hold p (.inr hp)
    · rw [update_of_ne he] at hp
      exact h.pos n hn p hp
  · intro n hn x p hx
    by_cases he : n = s
    · subst he
      -- the segment of a run is not said by `run_replace`, so the row is looked at again
      have hold : ∀ q ∈ as ++ mid ++ bs, 0 < q.size := fun q hq => h.pos n hn q (hrow ▸ hq)
      rw [update_self, mem_place_replace hold hsize, ← hrow, ← hlo] at hx
      rcases hx with ⟨hx, hnot⟩ | hx
      · exact h.tagged_same hsame hn hx (h.outside_of_start hn hrow hlo hmid hn hx hnot)
      · exact htag x p hx
    · rw [update_of_ne he] at hx
      exact h.tagged_same hsame hn hx (h.outside_of_ne hs hrow hlo hn he hx)
  · intro n hn
    by_cases he : n = s
    · subst he
      rw [update_self]
      exact hapart
    · rw [update_of_ne he]
      exact h.apart n hn
  · apply hfiled.iff
    intro x r
    exact (hrun x ⟨r, .free⟩).symm
  · rw [htotal]
    exact h.total
  · intro l hl
    have h16 : 16 ≤ lo := by
      have := (h.stretch_bounds hs hrow hlo).1
      unfold ZoneConf.secStart at this
      omega
    rw [(hsame.tags l (by omega)).1, (hsame.tags l (by omega)).2]
    exact h.sentinel l hl

end

end Layout

end AdaptivePlatform.Npc
