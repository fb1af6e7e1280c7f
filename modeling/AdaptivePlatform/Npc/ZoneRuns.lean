import AdaptivePlatform.Npc.ZoneConsistency

/-!
# Runs of a zone

What the users of a zone rely on, and for which runs it holds: the free lists and the
statistics survive as long as no call frees the last block of a segment.
-/
namespace AdaptivePlatform.Npc

open Function Tilings LinkedRings Runs

namespace ZoneConf

variable (conf : ZoneConf)

def segmOf (sec : ℕ) : ℕ := (sec - 16) / conf.secCount

variable {conf}

theorem segmOf_eq {n x : ℕ} (hle : conf.secStart n ≤ x)
    (hlt : x < conf.secStart n + conf.secCount) :
    conf.segmOf x = n := by
  unfold secStart at hle hlt
  apply Nat.div_eq_of_lt_le
  · omega
  · rw [Nat.succ_mul]
    omega

theorem secEnd_le (conf : ZoneConf) (n : ℕ) :
    conf.secEnd n ≤ conf.secStart n + conf.secCount := min_le_left _ _

theorem secEnd_zero : conf.secEnd 0 = 16 + conf.secCount := by
  have := conf.secCount_le
  unfold secEnd secStart
  omega

end ZoneConf

namespace ZoneRun

variable (conf : ZoneConf) (s : ZoneRun)

def Taken (y : ℕ) : Prop := ∃ b ∈ s.blocks, b.start ≤ y ∧ y < b.start + b.count

/-- A free run of a segment in use that cannot be made longer. -/
def MaximalFree (x size : ℕ) : Prop :=
  ∃ n < conf.segCount, s.zone.inuse n = true ∧ 0 < size ∧ conf.secStart n ≤ x ∧
    x + size ≤ conf.secEnd n ∧ (∀ y, x ≤ y → y < x + size → ¬ s.Taken y) ∧
    (x = conf.secStart n ∨ s.Taken (x - 1)) ∧ (x + size = conf.secEnd n ∨ s.Taken (x + size))

/-- The tables of a zone say what its users have allocated. -/
structure Consistent : Prop where
  disjoint : ∀ b ∈ s.blocks, ∀ b' ∈ s.blocks, b ≠ b' →
    b.start + b.count ≤ b'.start ∨ b'.start + b'.count ≤ b.start
  inside : ∀ b ∈ s.blocks, ∃ n < conf.segCount, s.zone.inuse n = true ∧
    conf.secStart n ≤ b.start ∧ 0 < b.count ∧ b.start + b.count ≤ conf.secEnd n
  owned : ∀ b ∈ s.blocks, s.zone.alloc b.start = true ∧ s.zone.count b.start = b.count ∧
    s.zone.owner b.start = b.owner.toNat
  lists : ∃ lists, Rings s.zone.next s.zone.prev 16 lists ∧ ∀ l < 16, ∀ x, x ∈ lists l ↔
    ∃ size, s.MaximalFree conf x size ∧ s.zone.count x = size ∧ msectPlistIndex size = l
  used : s.zone.used = ∑ b ∈ s.blocks, b.count
  total : s.zone.total = ∑ n ∈ (Finset.range conf.segCount).filter fun n => s.zone.inuse n = true,
    (conf.secEnd n - conf.secStart n)

/-- The call frees only whole blocks, and leaves a block in each segment that it frees one of. -/
def Settled : ZoneCall → Prop
  | .alloc _ _ _ => True
  | .free self ref => ∀ target ∈ s.zone.freeTarget conf self ref,
      (∃ b ∈ s.blocks, b.start = target.2) ∧
        ∃ b ∈ s.blocks, b.start ≠ target.2 ∧ conf.segmOf b.start = target.1
  | .clean uid => ∀ b ∈ s.blocks, b.owner = uid →
      ∃ b' ∈ s.blocks, b'.owner ≠ uid ∧ conf.segmOf b'.start = conf.segmOf b.start

instance : (call : ZoneCall) → Decidable (s.Settled conf call)
  | .alloc _ _ _ => inferInstanceAs (Decidable True)
  | .free self ref => inferInstanceAs (Decidable (∀ target ∈ s.zone.freeTarget conf self ref,
      (∃ b ∈ s.blocks, b.start = target.2) ∧
        ∃ b ∈ s.blocks, b.start ≠ target.2 ∧ conf.segmOf b.start = target.1))
  | .clean uid => inferInstanceAs (Decidable (∀ b ∈ s.blocks, b.owner = uid →
      ∃ b' ∈ s.blocks, b'.owner ≠ uid ∧ conf.segmOf b'.start = conf.segmOf b.start))

end ZoneRun

namespace ZoneHolds

variable {conf : ZoneConf} {s : ZoneRun} {k : ℕ} {rows : ℕ → List (Piece Use)}
  (h : ZoneHolds conf s.zone s.blocks k rows)

include h

section

variable {n x y : ℕ} {p : Piece Use} (hn : n < k)

include hn

theorem exists_run (hy : conf.secStart n ≤ y ∧ y < conf.secEnd n) :
    ∃ x p, (x, p) ∈ place (conf.secStart n) (rows n) ∧ x ≤ y ∧ y < x + p.size := by
  apply exists_mem_of_lt hy.1
  rw [h.layout.size n hn]
  omega

variable (hp : (x, p) ∈ place (conf.secStart n) (rows n))

include hp

theorem taken_iff (hy : x ≤ y ∧ y < x + p.size) : s.Taken y ↔ p.kind ≠ .free := by
  constructor
  · rintro ⟨b, hb, hin⟩
    obtain ⟨m, hm, hmem⟩ := (h.taken b).1 hb
    obtain ⟨-, rfl⟩ := h.layout.eq_of_overlap hn hm hp hmem hy hin
    simp
  · intro hkind
    obtain ⟨size, kind⟩ := p
    cases kind with
    | free => exact absurd rfl hkind
    | taken owner => exact ⟨⟨x, size, owner⟩, (h.taken _).2 ⟨n, hn, hp⟩, hy⟩

theorem not_both_free {q : Piece Use}
    (hq : (x + p.size, q) ∈ place (conf.secStart n) (rows n)) :
    ¬ (p.kind = .free ∧ q.kind = .free) :=
  rel_of_adjacent (h.layout.apart n hn) (h.layout.pos n hn) hp hq

theorem exists_next (hlt : x + p.size < conf.secEnd n) :
    ∃ q, (x + p.size, q) ∈ place (conf.secStart n) (rows n) := by
  have hb := h.layout.mem_bounds hn hp
  obtain ⟨x', q, hq, hle, hlt'⟩ := h.exists_run hn (y := x + p.size) ⟨by omega, hlt⟩
  rcases hle.eq_or_lt with rfl | hlt''
  · exact ⟨q, hq⟩
  · obtain ⟨rfl, rfl⟩ := h.layout.eq_of_overlap (y := x + p.size - 1) hn hn hp hq
      ⟨by omega, by omega⟩ ⟨by omega, by omega⟩
    omega

theorem exists_prev (hlt : conf.secStart n < x) :
    ∃ x' q, (x', q) ∈ place (conf.secStart n) (rows n) ∧ x' + q.size = x := by
  have hb := h.layout.mem_bounds hn hp
  obtain ⟨x', q, hq, hle, hlt'⟩ := h.exists_run hn (y := x - 1) ⟨by omega, by omega⟩
  refine ⟨x', q, hq, ?_⟩
  by_contra hne
  obtain ⟨rfl, rfl⟩ := h.layout.eq_of_overlap (y := x) hn hn hp hq ⟨le_rfl, by omega⟩
    ⟨by omega, by omega⟩
  omega

end

/-- The free runs of the layout are the maximal ones. -/
theorem maximalFree_of_freeRun {x size : ℕ} (hx : FreeRun conf k rows x size) :
    s.MaximalFree conf x size := by
  obtain ⟨n, hn, hx⟩ := hx
  have hb := h.layout.mem_bounds hn hx
  have hseg := lt_of_lt_of_le hn h.layout.le
  refine ⟨n, hseg, by simp [h.layout.inuse n hseg, hn], hb.2.1, hb.1, hb.2.2, ?_, ?_, ?_⟩
  · intro y hy hy'
    rw [h.taken_iff hn hx ⟨hy, hy'⟩]
    simp
  · rcases hb.1.eq_or_lt with heq | hlt
    · exact .inl heq.symm
    · obtain ⟨x', q, hq, rfl⟩ := h.exists_prev hn hx hlt
      have hq' := h.layout.mem_bounds hn hq
      refine .inr ((h.taken_iff hn hq ⟨by omega, by omega⟩).2 fun hfree => ?_)
      exact h.not_both_free hn hq hx ⟨hfree, rfl⟩
  · rcases hb.2.2.eq_or_lt with heq | hlt
    · exact .inl heq
    · obtain ⟨q, hq⟩ := h.exists_next hn hx hlt
      have hq' := h.layout.mem_bounds hn hq
      refine .inr ((h.taken_iff hn hq ⟨le_rfl, by omega⟩).2 fun hfree => ?_)
      exact h.not_both_free hn hx hq ⟨rfl, hfree⟩

theorem freeRun_of_maximalFree {x size : ℕ} (hx : s.MaximalFree conf x size) :
    FreeRun conf k rows x size := by
  obtain ⟨n, hseg, hinuse, hsize, hle, hend, hfree, hbefore, hafter⟩ := hx
  have hn : n < k := by simpa [h.layout.inuse n hseg] using hinuse
  obtain ⟨x', p, hp, hxle, hxlt⟩ := h.exists_run hn (y := x) ⟨hle, by omega⟩
  have hb := h.layout.mem_bounds hn hp
  have hkind : p.kind = .free := by
    by_contra hkind
    exact hfree x le_rfl (by omega) ((h.taken_iff hn hp ⟨hxle, hxlt⟩).2 hkind)
  have hx' : x' = x := by
    by_contra hne
    rcases hbefore with heq | htaken
    · omega
    · exact (h.taken_iff hn hp ⟨by omega, by omega⟩).1 htaken hkind
  subst hx'
  have hpsize : p.size = size := by
    rcases lt_trichotomy p.size size with hlt | heq | hgt
    · -- the next run would be free, too
      obtain ⟨q, hq⟩ := h.exists_next hn hp (by omega)
      have hq' := h.layout.mem_bounds hn hq
      have hqkind : q.kind = .free := by
        by_contra hqkind
        exact hfree (x' + p.size) (by omega) (by omega)
          ((h.taken_iff hn hq ⟨le_rfl, by omega⟩).2 hqkind)
      exact absurd ⟨hkind, hqkind⟩ (h.not_both_free hn hp hq)
    · exact heq
    · rcases hafter with heq | htaken
      · omega
      · exact absurd hkind ((h.taken_iff hn hp ⟨by omega, by omega⟩).1 htaken)
  obtain ⟨psize, kind⟩ := p
  subst hkind hpsize
  exact ⟨n, hn, hp⟩

theorem consistent : s.Consistent conf where
  disjoint b hb b' hb' hne := by
    obtain ⟨n, hn, hx⟩ := (h.taken b).1 hb
    obtain ⟨n', hn', hx'⟩ := (h.taken b').1 hb'
    have hbounds := h.layout.mem_bounds hn hx
    have hbounds' := h.layout.mem_bounds hn' hx'
    by_contra hover
    simp only at hbounds hbounds'
    obtain ⟨hstart, -⟩ := h.layout.eq_of_overlap (y := max b.start b'.start) hn hn' hx hx'
      (by simp only; omega) (by simp only; omega)
    exact hne (h.eq_of_start hb hb' hstart)
  inside b hb := by
    obtain ⟨n, hn, hbounds⟩ := h.exists_segm hb
    have hseg := lt_of_lt_of_le hn h.layout.le
    exact ⟨n, hseg, by simp [h.layout.inuse n hseg, hn], hbounds⟩
  owned b hb := by
    obtain ⟨n, hn, hx⟩ := (h.taken b).1 hb
    have htag := h.layout.takenTag hn hx
    exact ⟨htag.alloc, htag.count, owner_eq htag⟩
  lists := by
    obtain ⟨lists, hrings, hmem⟩ := h.layout.filed
    refine ⟨lists, hrings, fun l hl x => ?_⟩
    rw [hmem l hl]
    constructor
    · rintro ⟨size, hfree, hidx⟩
      obtain ⟨n, hn, hx⟩ := id hfree
      exact ⟨size, h.maximalFree_of_freeRun hfree, (h.layout.freeTag hn hx).count, hidx⟩
    · rintro ⟨size, hfree, -, hidx⟩
      exact ⟨size, h.freeRun_of_maximalFree hfree, hidx⟩
  used := h.used
  total := by
    have hle := h.layout.le
    have hrange : ((Finset.range conf.segCount).filter fun n => s.zone.inuse n = true) =
        Finset.range k := by
      ext n
      rw [Finset.mem_filter, Finset.mem_range, Finset.mem_range]
      constructor
      · rintro ⟨hn, hinuse⟩
        simpa [h.layout.inuse n hn] using hinuse
      · intro hn
        have hseg := lt_of_lt_of_le hn hle
        exact ⟨hseg, by simp [h.layout.inuse n hseg, hn]⟩
    rw [hrange, h.layout.total]
    rfl

end ZoneHolds

namespace ZoneRun

variable {conf : ZoneConf} {s : ZoneRun} {k : ℕ} {rows : ℕ → List (Piece Use)}

/-- The rows of a new zone: the first section is taken, the rest is free. -/
def startRows (conf : ZoneConf) (self : uint32) (_ : ℕ) : List (Piece Use) :=
  [⟨1, .taken self⟩, ⟨conf.secCount - 1, .free⟩]

section

variable (hsec : 2 ≤ conf.secCount) (self : uint32)

include hsec

omit self in
theorem startIndex : let l := msectPlistIndex (conf.secCount - 1)
    l < 16 ∧ l ≠ 16 ∧ l ≠ 15 + conf.secCount := by
  have hl := msectPlistIndex_lt (conf.secCount - 1)
  exact ⟨hl, by omega, by omega⟩

theorem tables_start : (start conf self).zone.toZoneTables =
      let l := msectPlistIndex (conf.secCount - 1)
      let next := update (fun i => if i < 16 then i else 0) 16 (self.toNat % 2 ^ 16)
      let prev := update (update (fun i => if i < 16 then i else 0) 16 (self.toNat / 2 ^ 16))
        (16 + conf.secCount - 1) 17
      { total := conf.secCount, used := 1, valid := fun n => n = 0, inuse := fun n => n = 0,
        next := update (update next 17 l) (prev l) 17
        prev := update (update prev 17 (prev l)) l 17
        count := update (update (fun _ => 0) 16 1) 17 (conf.secCount - 1)
        alloc := update (update (fun _ => false) 16 true) 17 false } := by
  obtain ⟨hl, hl16, hllast⟩ := startIndex hsec
  have hstart : conf.secStart 0 = 16 := by simp [ZoneConf.secStart]
  simp [start, MZone.init, hstart, ZoneAct.run_set, ZoneAct.msectInsertAfter, ZoneAct.run_tab,
    ZoneTables.writes, ZoneTables.write, ZoneTables.msectInsertAfter, hl, hl16, hllast]

theorem layout_start : Layout conf (start conf self).zone.toZoneTables 1 (startRows conf self) := by
  have hend := conf.secEnd_zero
  have hstart : conf.secStart 0 = 16 := by simp [ZoneConf.secStart]
  have hplace : place (conf.secStart 0) (startRows conf self 0) =
      [(16, ⟨1, .taken self⟩), (17, ⟨conf.secCount - 1, .free⟩)] := by
    simp [startRows, place, hstart]
  rw [tables_start hsec]
  constructor
  · exact conf.segCount_pos
  · intro n _
    simp
  · intro n _
    simp
  · intro n hn
    obtain rfl : n = 0 := by omega
    simp only [startRows, total_cons, total_nil]
    omega
  · intro n _ p hp
    have hp' : p = ⟨1, .taken self⟩ ∨ p = ⟨conf.secCount - 1, .free⟩ := by
      simpa [startRows] using hp
    rcases hp' with rfl | rfl
    · exact Nat.one_pos
    · change 0 < conf.secCount - 1
      omega
  · intro n hn x p hx
    obtain rfl : n = 0 := by omega
    have hcases : x = 16 ∧ p = ⟨1, .taken self⟩ ∨ x = 17 ∧ p = ⟨conf.secCount - 1, .free⟩ := by
      simpa [hplace] using hx
    obtain ⟨hl, hl16, hllast⟩ := startIndex hsec
    have hlast : 16 ≠ 15 + conf.secCount := by omega
    rcases hcases with ⟨rfl, rfl⟩ | ⟨rfl, rfl⟩
    · constructor
      · simp
      · simp
      · simp [hl, hl16, hl16.symm, hllast]
      · simp [hl16.symm, hlast]
      · simp
      · intro y hy hy'
        simp only at hy'
        omega
    · constructor
      · simp
      · simp
      · intro y hy hy'
        have hne : y ≠ 16 := by omega
        have hne' : y ≠ 17 := by omega
        simp [hne, hne']
      · intro _ hstop
        simp only at hstop
        omega
  · intro n _
    simp [startRows, Apart]
  · have hempty : Filed (update (fun i => if i < 16 then i else 0) 16 (self.toNat % 2 ^ 16))
        (update (update (fun i => if i < 16 then i else 0) 16 (self.toNat / 2 ^ 16))
          (16 + conf.secCount - 1) 17) 16 msectPlistIndex fun _ _ => False := by
      refine ⟨fun _ => [], ⟨?_, by simp, by simp, by simp⟩, by simp⟩
      intro l hl
      have hne : l ≠ 16 := by omega
      have hne' : l ≠ 15 + conf.secCount := by omega
      simp [LinkedRings.Ring, LinkedRings.Joined, hl, hne, hne']
    have hinsert := hempty.insert msectPlistIndex_lt (x := 17) (s := conf.secCount - 1) (.inl rfl)
      (by omega) (by simp)
    apply hinsert.iff
    intro x r
    simp only [FreeRun, Run, Nat.lt_one_iff, exists_eq_left, hplace]
    simp
  · simp [hend, hstart]
  · intro l hl
    have hne : l ≠ 16 := by omega
    have hne' : l ≠ 17 := by omega
    simp [hne, hne']

theorem holds_start :
    ZoneHolds conf (start conf self).zone (start conf self).blocks 1 (startRows conf self) := by
  refine ⟨layout_start hsec self, ?_, ?_, ?_⟩
  · simp [start, MZone.init, ZoneAct.run_set, ZoneAct.msectInsertAfter, ZoneAct.run_tab]
  · intro b
    simp [start, Run, startRows, place, Block.ext_iff]
  · rw [tables_start hsec]
    simp [start]

end

/-- The zone holds the blocks of its users, with some layout. -/
def Holds (conf : ZoneConf) (s : ZoneRun) : Prop := ∃ k rows, ZoneHolds conf s.zone s.blocks k rows

theorem sectsOf_pos (size : ℕ) : 0 < MZone.sectsOf size := by
  unfold MZone.sectsOf
  split_ifs <;> omega

theorem freeTarget_bounds {self : uint32} {ref zone sec : ℕ}
    (h : s.zone.freeTarget conf self ref = some (zone, sec)) :
    conf.secStart zone ≤ sec ∧ sec < conf.secStart zone + conf.secCount := by
  unfold MZone.freeTarget at h
  simp only at h
  split_ifs at h with hcheck
  obtain ⟨rfl, rfl⟩ := h
  simp only [not_or, not_le] at hcheck
  obtain ⟨-, hoff, -⟩ := hcheck
  refine ⟨by omega, ?_⟩
  apply Nat.add_lt_add_left
  apply Nat.div_lt_of_lt_mul
  rw [mul_comm]
  exact hoff

section

variable (h : ZoneHolds conf s.zone s.blocks k rows)

include h

theorem logRestore_eq : s.zone.logRestore = some { s.zone with log := [] } := by
  rw [MZone.logRestore, if_pos h.logValid]

theorem holds_restored : ZoneHolds conf { s.zone with log := [] } s.blocks k rows :=
  ⟨h.layout, h.logValid, h.taken, h.used⟩

theorem step_alloc (grows : ℕ → Bool) (self : uint32) (size : ℕ) :
    ∃ s', s.step conf (.alloc grows self size) = some s' ∧ s'.Holds conf := by
  rw [step]
  by_cases hsize : conf.segSize < size
  · rw [if_pos hsize]
    exact ⟨s, rfl, k, rows, h⟩
  · obtain ⟨ws, ret, k', rows', hloop, -, hholds⟩ := (holds_restored h).allocLoop grows self
      (sectsOf_pos size) (Nat.lt_succ_of_le (Nat.sub_le conf.segCount k))
    rw [if_neg hsize, logRestore_eq h, Option.bind_some, MZone.shmzAlloc, if_neg hsize, hloop]
    exact ⟨_, rfl, k', rows', hholds⟩

theorem segmOf_block {b : Block} (hb : b ∈ s.blocks) :
    conf.segmOf b.start < k ∧ b.InSegm conf (conf.segmOf b.start) := by
  obtain ⟨i, hi, hle, hpos, hend⟩ := h.exists_segm hb
  have := conf.secEnd_le i
  rw [ZoneConf.segmOf_eq hle (by omega)]
  exact ⟨hi, hle, by omega⟩

theorem step_free {self : uint32} {ref : ℕ} (hc : s.Settled conf (.free self ref)) :
    ∃ s', s.step conf (.free self ref) = some s' ∧ s'.Holds conf := by
  simp only [step]
  cases htarget : s.zone.freeTarget conf self ref with
  | none => exact ⟨s, rfl, k, rows, h⟩
  | some target =>
    obtain ⟨zone, sec⟩ := target
    obtain ⟨⟨b, hb, rfl⟩, b', hb', hne, hseg⟩ := hc (zone, sec) htarget
    obtain ⟨hle, hlt⟩ := freeTarget_bounds htarget
    have hin := segmOf_block h hb
    have hin' := segmOf_block h hb'
    rw [ZoneConf.segmOf_eq hle hlt] at hin
    rw [hseg] at hin'
    obtain ⟨as, bs, hrow, hstart⟩ := exists_split_of_mem (h.mem_place_of_block hb hin.2)
    obtain ⟨as', p, q, bs', -, -, hfree⟩ := (holds_restored h).freeSects hin.1 hrow hstart
      (h.exists_other hrow hstart hb' hne hin'.2)
    simp only [logRestore_eq h]
    exact ⟨_, rfl, k, _, hfree⟩

theorem step_clean {uid : uint32} (hc : s.Settled conf (.clean uid)) :
    ∃ s', s.step conf (.clean uid) = some s' ∧ s'.Holds conf := by
  have hshared : ∀ i, Shared conf uid s.blocks i := by
    intro i b hb howner hin
    obtain ⟨b', hb', hne, hseg⟩ := hc b hb howner
    have hin' := segmOf_block h hb'
    have hle := conf.secEnd_le i
    rw [hseg, ZoneConf.segmOf_eq hin.1 (by omega)] at hin'
    exact ⟨b', hb', hne, hin'.2⟩
  obtain ⟨z', rows', hclean, hholds⟩ := h.shmzClean (Nat.zero_add conf.segCount) hshared
  simp only [step, hclean]
  refine ⟨_, rfl, k, rows', ?_⟩
  convert hholds using 1
  apply Finset.filter_congr
  intro b hb
  obtain ⟨i, -, hle, -, -⟩ := h.exists_segm hb
  have hfirst : conf.secStart 0 ≤ b.start := by
    unfold ZoneConf.secStart at hle ⊢
    omega
  simp [hfirst]

end

theorem Holds.step (h : s.Holds conf) {call : ZoneCall} (hc : s.Settled conf call) :
    ∃ s', s.step conf call = some s' ∧ s'.Holds conf := by
  obtain ⟨k, rows, h⟩ := h
  cases call with
  | alloc grows self size => exact step_alloc h grows self size
  | free self ref => exact step_free h hc
  | clean uid => exact step_clean h hc

/-- In a zone whose segments have at least two sections the tables stay consistent, whatever is
allocated, as long as no call frees a reference into a block or the last block of a segment. -/
theorem consistent_of_settled (conf : ZoneConf) (hsec : 2 ≤ conf.secCount) (self : uint32)
    (calls : List ZoneCall)
    (hcalls : Along (step conf) (Settled conf) (start conf self) calls) :
    Always (step conf) (Consistent conf) (start conf self) calls := by
  have hrun : Always (step conf) (Holds conf) (start conf self) calls :=
    always_of_along (fun s call h hc => Holds.step h hc) ⟨1, _, holds_start hsec self⟩ hcalls
  apply hrun.mono
  rintro s ⟨k, rows, h⟩
  exact h.consistent

def oneSegment : ZoneConf := ⟨1, 3, by decide, by decide, by decide, by decide, by decide +kernel⟩

/-- Two users allocate a section each; the first frees it, after the second it is cleaned up. -/
def twoUsers : List ZoneCall :=
  [.alloc (fun _ => true) 7 1, .alloc (fun _ => true) 8 1, .free 7 (2 * 2 ^ 18), .clean 8]

theorem consistent_of_settled_twoUsers :
    Along (step oneSegment) (Settled oneSegment) (start oneSegment 1) twoUsers ∧
      Always (step oneSegment) (Consistent oneSegment) (start oneSegment 1) twoUsers := by
  have hsettled : Along (step oneSegment) (Settled oneSegment) (start oneSegment 1) twoUsers := by
    decide +kernel
  exact ⟨hsettled, consistent_of_settled oneSegment (by decide) 1 twoUsers hsettled⟩

def twoSegments : ZoneConf := ⟨2, 2, by decide, by decide, by decide, by decide, by decide +kernel⟩

/-- A block that fills the second segment is allocated and freed. -/
def wholeSegment : List ZoneCall := [.alloc (fun _ => true) 7 (2 ^ 19), .free 7 (2 ^ 19)]

/-- The segment is released, but the statistics go on to count its sections, and the free section
of the first segment is in no list any more. -/
theorem released_segment_counted :
    ∃ s, exec (step twoSegments) (start twoSegments 1) wholeSegment = some s ∧
      s.zone.next 0 = 0 ∧ ¬ s.Consistent twoSegments := by
  have hrun : (exec (step twoSegments) (start twoSegments 1) wholeSegment).map (fun s =>
      (s.zone.next 0, s.zone.total, s.zone.inuse 0, s.zone.inuse 1)) =
      some (0, 4, true, false) := by decide +kernel
  obtain ⟨s, hs, hfields⟩ := Option.map_eq_some_iff.mp hrun
  simp only [Prod.mk.injEq] at hfields
  refine ⟨s, hs, hfields.1, fun h => ?_⟩
  have htotal := h.total
  have hcount : twoSegments.segCount = 2 := rfl
  rw [hfields.2.1, Finset.sum_filter, hcount, Finset.sum_range_succ, Finset.sum_range_one,
    hfields.2.2.1, hfields.2.2.2] at htotal
  revert htotal
  decide

end ZoneRun

end AdaptivePlatform.Npc
