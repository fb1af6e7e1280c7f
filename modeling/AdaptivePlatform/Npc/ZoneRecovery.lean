import AdaptivePlatform.Npc.ZoneRuns

/-!
# Crash recovery of a zone

A call that is interrupted leaves a prefix of its writes. What the next call restores
from the log is what the records say, as long as it reads the records as they were
written: it leaves a record two bytes before its end, which is harmless only if these
two bytes are zero.
-/
namespace AdaptivePlatform.Npc

open Function Tilings LinkedRings Runs Bytes List Nat ZoneAct
open LogItem (alloc free insertBefore record remove sect segm stat)
open MZone (init sectsOf writes_append)
open Filed (Linked)
open Layout (cleared)
open ZoneRun (oneSegment sectsOf_pos start step)

variable {conf : ZoneConf} {z : MZone} {rest : List uint8} {blocks : Finset Block} {k : ℕ}
  {rows : ℕ → List (Piece Use)}

namespace LogItem

variable (t₀ : ZoneTables)

def undo (t : ZoneTables) : LogItem → ZoneTables
  | stat => { t with total := t₀.total, used := t₀.used }
  | segm n =>
    { t with valid := update t.valid n (t₀.valid n), inuse := update t.inuse n (t₀.inuse n) }
  | sect i =>
    { t with
      next := update t.next i (t₀.next i)
      prev := update t.prev i (t₀.prev i)
      count := update t.count i (t₀.count i)
      alloc := update t.alloc i (t₀.alloc i) }

@[simp]
theorem mem_remove {item : LogItem} {ent : ℕ} :
    item ∈ remove ent t₀ ↔ item = sect (t₀.next ent) ∨ item = sect (t₀.prev ent) := by
  unfold remove
  split_ifs with h <;> simp [h]

@[simp]
theorem mem_insertBefore {item : LogItem} {ent : ℕ} :
    item ∈ insertBefore ent t₀ ↔ item = sect ent ∨ item = sect (t₀.prev ent) := by
  unfold insertBefore
  split_ifs with h
  · simp [← h]
  · simp

/-- The record of the entry is read as it was written. -/
def Readable : LogItem → Prop
  | stat => t₀.total < 2 ^ 32 ∧ t₀.used < 2 ^ 32
  | segm n => n < 2 ^ 16
  | sect i => i < 2 ^ 16 ∧ t₀.next i < 2 ^ 16 ∧ t₀.prev i < 2 ^ 16 ∧ t₀.count i < 2 ^ 16 ∧
      t₀.alloc i = false

end LogItem

namespace MZone

variable {t₀ : ZoneTables} {op : uint8} (fuel : ℕ)

theorem logRestoreLoop_end :
    logRestoreLoop (fuel + 1) z op (0 :: rest) = logRestoreLoop fuel z 0 rest := by
  simp [logRestoreLoop]

theorem logRestoreLoop_stat (h : stat.Readable t₀) :
    logRestoreLoop (fuel + 1) z op (stat.record conf t₀ ++ rest) =
      logRestoreLoop fuel { z with toZoneTables := stat.undo t₀ z.toZoneTables } 1
        rest := by
  simp only [record, append_assoc, cons_append, logRestoreLoop, if_true]
  rw [if_neg (by simp [length_leBytes]; omega), leNat_take_leBytes _ h.1]
  simp (disch := omega) only [Nat.add_comm 1, drop_succ_cons, drop_leBytes_append,
    Nat.reduceSub, drop_zero]
  rw [leNat_take_leBytes _ h.2]
  rfl

/-- The tag of a section: its count and, in the top bit, whether it is allocated. -/
theorem tag_eq {count tag : ℕ} {alloc : Bool} (hcount : count < 2 ^ 31)
    (htag : count + 2 ^ 31 * alloc.toNat = tag) :
    tag % 2 ^ 32 = tag ∧ tag % 2 ^ 31 = count ∧ tag.testBit 31 = alloc := by
  cases alloc with
  | false =>
    obtain rfl : count = tag := by simpa using htag
    exact ⟨by omega, by omega, testBit_lt_two_pow hcount⟩
  | true =>
    obtain rfl : 2 ^ 31 + count = tag := by bv_omega
    refine ⟨by omega, by omega, ?_⟩
    rw [testBit_two_pow_add_eq, testBit_lt_two_pow hcount]
    rfl

/-- A record of a section is left two bytes before its end, at the upper bytes of its tag. -/
theorem logRestoreLoop_sect {i tag : ℕ} (hi : i < 2 ^ 16) (hnext : t₀.next i < 2 ^ 16)
    (hprev : t₀.prev i < 2 ^ 16) (htag : t₀.count i + 2 ^ 31 * (t₀.alloc i).toNat = tag)
    (hcount : t₀.count i < 2 ^ 31) :
    logRestoreLoop (fuel + 1) z op ((sect i).record conf t₀ ++ rest) =
      logRestoreLoop fuel { z with toZoneTables := (sect i).undo t₀ z.toZoneTables } 3
        (leBytes 2 (tag / 2 ^ 16) ++ rest) := by
  obtain ⟨htag32, htagCount, htagAlloc⟩ := tag_eq hcount htag
  simp only [record, htag, append_assoc, cons_append, logRestoreLoop]
  rw [if_neg (by decide), if_neg (by decide), if_pos trivial,
    if_neg (by simp [length_leBytes]; omega)]
  simp (disch := omega) only [Nat.add_comm 1, drop_succ_cons, drop_leBytes_append,
    drop_leBytes_within, leNat_take_leBytes, Nat.reduceSub, drop_zero, htagCount, htagAlloc]
  rfl

theorem testBit_flags (valid inuse : Bool) :
    (valid.toNat + 2 * inuse.toNat).testBit 0 = valid ∧
      (valid.toNat + 2 * inuse.toNat).testBit 1 = inuse := by
  cases valid <;> cases inuse <;> decide

/-- A record of a segment is left at the upper bytes of `sec_end`, which are zero. -/
theorem logRestoreLoop_segm {n : ℕ} (hn : n < 2 ^ 16) :
    logRestoreLoop (fuel + 1) z op ((segm n).record conf t₀ ++ rest) =
      logRestoreLoop fuel { z with toZoneTables := (segm n).undo t₀ z.toZoneTables } 2
        (leBytes 2 0 ++ rest) := by
  obtain ⟨hvalid, hinuse⟩ := testBit_flags (t₀.valid n) (t₀.inuse n)
  have hflags : (t₀.valid n).toNat + 2 * (t₀.inuse n).toNat < 2 ^ 16 := by
    have := (t₀.valid n).toNat_le
    have := (t₀.inuse n).toNat_le
    omega
  have hend : conf.secEnd n / 2 ^ 16 = 0 := by
    have : conf.secEnd n ≤ 16 * 1024 := min_le_right _ _
    omega
  simp only [record, append_assoc, cons_append, logRestoreLoop]
  rw [if_neg (by decide), if_pos trivial, if_neg (by simp [length_leBytes]; omega)]
  simp (disch := omega) only [Nat.add_comm 1, drop_succ_cons, drop_leBytes_append,
    drop_leBytes_within, leNat_take_leBytes, Nat.reduceSub, drop_zero, hvalid, hinuse, hend]
  rfl

theorem logRestoreLoop_zeros :
    logRestoreLoop (fuel + 2) z op (leBytes 2 0 ++ rest) = logRestoreLoop fuel z 0 rest := by
  exact (logRestoreLoop_end (fuel + 1)).trans (logRestoreLoop_end fuel)

/-- A record that is readable is undone, and the loop goes on behind it. -/
theorem logRestoreLoop_record {item : LogItem} (h : item.Readable t₀) :
    ∃ op' fuel', fuel ≤ fuel' ∧
      logRestoreLoop (fuel + (item.record conf t₀).length) z op (item.record conf t₀ ++ rest) =
        logRestoreLoop fuel' { z with toZoneTables := item.undo t₀ z.toZoneTables } op' rest := by
  cases item with
  | stat =>
    have hlen : (stat.record conf t₀).length = 8 + 1 := by simp [record, length_leBytes]
    refine ⟨1, fuel + 8, by omega, ?_⟩
    rw [hlen, ← Nat.add_assoc, logRestoreLoop_stat _ h]
  | segm n =>
    have hlen : ((segm n).record conf t₀).length = 12 + 2 + 1 := by simp [record, length_leBytes]
    refine ⟨0, fuel + 12, by omega, ?_⟩
    rw [hlen, ← Nat.add_assoc, logRestoreLoop_segm _ h]
    exact logRestoreLoop_zeros (fuel + 12)
  | sect i =>
    have hlen : ((sect i).record conf t₀).length = 8 + 2 + 1 := by simp [record, length_leBytes]
    obtain ⟨hi, hnext, hprev, hcount, halloc⟩ := h
    have htag : t₀.count i + 2 ^ 31 * (t₀.alloc i).toNat = t₀.count i := by simp [halloc]
    refine ⟨0, fuel + 8, by omega, ?_⟩
    rw [hlen, ← Nat.add_assoc, logRestoreLoop_sect _ hi hnext hprev htag (by omega),
      div_eq_of_lt hcount]
    exact logRestoreLoop_zeros (fuel + 8)

theorem logRestoreLoop_records {items : List LogItem} (h : ∀ item ∈ items, item.Readable t₀)
    (z : MZone) (op : uint8) {fuel : ℕ}
    (hfuel : (items.map (record conf t₀)).flatten.length + 2 ≤ fuel) :
    logRestoreLoop fuel z op ((items.map (record conf t₀)).flatten ++ [0]) =
      some { z with toZoneTables := items.foldl (LogItem.undo t₀) z.toZoneTables } := by
  induction items generalizing z op fuel with
  | nil =>
    obtain ⟨fuel, rfl⟩ := Nat.exists_eq_add_of_le' hfuel
    rfl
  | cons item items ih =>
    rw [map_cons, flatten_cons, length_append] at hfuel
    obtain ⟨fuel, rfl⟩ : ∃ fuel', fuel = fuel' + (item.record conf t₀).length :=
      ⟨fuel - (item.record conf t₀).length, by omega⟩
    rw [forall_mem_cons] at h
    rw [map_cons, flatten_cons, append_assoc]
    generalize hrest : (items.map (record conf t₀)).flatten ++ [0] = rest at ih ⊢
    obtain ⟨op', fuel', hle, hstep⟩ : ∃ op' fuel', fuel ≤ fuel' ∧
        logRestoreLoop (fuel + (item.record conf t₀).length) z op
          (item.record conf t₀ ++ rest) = _ := logRestoreLoop_record fuel h.1
    rw [hstep, ih h.2 _ _ (by omega)]
    rfl

end MZone

def TableWrite.item : TableWrite → LogItem
  | next sec _ | prev sec _ | owner sec _ | count sec _ | alloc sec _ | clear sec => .sect sec
  | valid seg | inuse seg _ => .segm seg
  | total _ | used _ => .stat

open TableWrite (item)

namespace LogItem

variable {t₀ t : ZoneTables} {items : List LogItem}

def Same (t₀ t : ZoneTables) : LogItem → Prop
  | stat => t.total = t₀.total ∧ t.used = t₀.used
  | segm n => t.valid n = t₀.valid n ∧ t.inuse n = t₀.inuse n
  | sect i => t.next i = t₀.next i ∧ t.prev i = t₀.prev i ∧ t.count i = t₀.count i ∧
      t.alloc i = t₀.alloc i

variable {item : LogItem}

theorem Readable.of_same (h : item.Readable t₀) (hsame : Same t₀ t item) : item.Readable t := by
  cases item with
  | stat => exact ⟨hsame.1 ▸ h.1, hsame.2 ▸ h.2⟩
  | segm n => exact h
  | sect i =>
    obtain ⟨hnext, hprev, hcount, halloc⟩ := hsame
    simp only [Readable, hnext, hprev, hcount, halloc]
    exact h

theorem eq_of_same (h : ∀ item, Same t₀ t item) : t = t₀ := by
  obtain ⟨htotal, hused⟩ := h stat
  obtain ⟨hvalid, hinuse⟩ := forall_and.1 fun n => h (segm n)
  obtain ⟨hnext, hrest⟩ := forall_and.1 fun i => h (sect i)
  obtain ⟨hprev, hrest⟩ := forall_and.1 hrest
  obtain ⟨hcount, halloc⟩ := forall_and.1 hrest
  cases t
  cases t₀
  simp only [ZoneTables.mk.injEq]
  exact ⟨htotal, hused, funext hvalid, funext hinuse, funext hnext, funext hprev, funext hcount,
    funext halloc⟩

theorem undo_of_same (h : Same t₀ t item) : item.undo t₀ t = t := by
  cases item with
  | stat => simp only [undo, ← h.1, ← h.2]
  | segm n => simp only [undo, ← h.1, ← h.2, update_eq_self]
  | sect i => simp [undo, ← h.1, ← h.2.1, ← h.2.2.1, ← h.2.2.2]

theorem same_undo_self (item : LogItem) : Same t₀ (item.undo t₀ t) item := by
  cases item <;> simp [Same, undo]

theorem same_undo_of_ne {item' : LogItem} (hne : item' ≠ item) :
    Same t₀ (item.undo t₀ t) item' ↔ Same t₀ t item' := by
  cases item <;> cases item' <;> simp_all [Same, undo]

theorem same_write_of_ne {w : TableWrite} (hne : item ≠ w.item) : Same t (t.write w) item := by
  cases w <;> cases item <;> simp_all [item, Same, ZoneTables.write]

theorem Same.trans {t₁ t₂ : ZoneTables} (h : Same t₀ t₁ item)
    (h' : Same t₁ t₂ item) : Same t₀ t₂ item := by
  cases item with
  | stat | segm n => exact ⟨h'.1.trans h.1, h'.2.trans h.2⟩
  | sect i => exact ⟨h'.1.trans h.1, h'.2.1.trans h.2.1, h'.2.2.1.trans h.2.2.1,
      h'.2.2.2.trans h.2.2.2⟩

theorem foldl_undo (h : ∀ item, item ∉ items → Same t₀ t item) : items.foldl (undo t₀) t = t₀ := by
  induction items generalizing t with
  | nil => exact eq_of_same fun item => h item not_mem_nil
  | cons item items ih =>
    apply ih
    intro item' hitem'
    by_cases heq : item' = item
    · rw [heq]
      exact same_undo_self item
    · rw [same_undo_of_ne heq]
      exact h item' (by simp [heq, hitem'])

theorem foldl_undo_of_same (h : ∀ item ∈ items, Same t₀ t item) : items.foldl (undo t₀) t = t := by
  induction items with
  | nil => rfl
  | cons item items ih =>
    rw [forall_mem_cons] at h
    rw [foldl_cons, undo_of_same h.1, ih h.2]

theorem same_writes {ws : List TableWrite} (h : ∀ w ∈ ws, w.item ≠ item) :
    Same t (t.writes ws) item := by
  induction ws generalizing t with
  | nil => cases item <;> simp [Same, ZoneTables.writes]
  | cons w ws ih =>
    rw [forall_mem_cons] at h
    exact (same_write_of_ne h.1.symm).trans (ih h.2)

end LogItem

/-- A call that is interrupted after `j` of its writes: the log is restored, and the tables are
as they were before the call or as they are after it. -/
def MZone.Recovers (z : MZone) (ws : List ZoneWrite) (j : ℕ) : Prop :=
  ∃ z', (z.writes (ws.take j)).logRestore = some z' ∧
    (z'.toZoneTables = z.toZoneTables ∨ z'.toZoneTables = (z.writes ws).toZoneTables)

/-- The writes of a journaled act: the records, the end of the log, the tables. -/
def journaled (records : List (List uint8)) (ws : List TableWrite) : List ZoneWrite :=
  (records ++ [[0]]).map .log ++ ZoneWrite.logValid true :: (ws.map .table ++
    [.logValid false, .logClear])

namespace MZone

variable {ws : List TableWrite} {z' : MZone} {t₀ : ZoneTables} {items : List LogItem}

theorem writes_logValid (z : MZone) (ws : List ZoneWrite) :
    z.writes (.logValid true :: ws) = MZone.writes { z with logValid := true } ws := rfl

theorem tables_journaled (z : MZone) (records : List (List uint8)) (ws : List TableWrite) :
    (z.writes (journaled records ws)).toZoneTables = z.toZoneTables.writes ws := by
  rw [journaled, writes_append, writes_map_log, writes_logValid, writes_append, writes_map_table]
  rfl

/-- What an interrupted journaled act leaves. -/
theorem writes_take_journaled (hlog : z.log = []) (hvalid : z.logValid = false)
    (records : List (List uint8)) (ws : List TableWrite) (j : ℕ)
    (hz' : z.writes ((journaled records ws).take j) = z') :
    z'.logValid = false ∧ (z'.toZoneTables = z.toZoneTables ∨
        z'.toZoneTables = (z.writes (journaled records ws)).toZoneTables) ∨
      z'.logValid = true ∧ z'.log = records.flatten ++ [0] ∧
        ∃ m, z'.toZoneTables = z.toZoneTables.writes (ws.take m) := by
  rw [tables_journaled]
  rcases le_or_gt j (records ++ [[0]]).length with hj | hj
  · rw [journaled, take_append_of_le_length (by simpa using hj), ← map_take, writes_map_log] at hz'
    exact .inl ⟨by rw [← hz', hvalid], .inl (by rw [← hz'])⟩
  · obtain ⟨m, rfl⟩ : ∃ m, j = (records ++ [[0]]).length + (m + 1) :=
      ⟨j - (records ++ [[0]]).length - 1, by omega⟩
    rw [journaled, ← length_map ZoneWrite.log, take_length_add_append,
      take_succ_cons, writes_append, writes_map_log, writes_logValid] at hz'
    rcases le_or_gt m ws.length with hm | hm
    · rw [take_append_of_le_length (by simpa using hm), ← map_take, writes_map_table] at hz'
      rw [← hz']
      exact .inr ⟨rfl, by simp [hlog], m, rfl⟩
    · obtain ⟨r, rfl⟩ : ∃ r, m = ws.length + (r + 1) := ⟨m - ws.length - 1, by omega⟩
      rw [← length_map ZoneWrite.table, take_length_add_append, take_succ_cons,
        writes_append, writes_map_table] at hz'
      left
      cases r with
      | zero => exact ⟨by rw [← hz']; rfl, .inr (by rw [← hz']; rfl)⟩
      | succ r =>
        rw [take_succ_cons, take_nil] at hz'
        exact ⟨by rw [← hz']; rfl, .inr (by rw [← hz']; rfl)⟩

theorem logRestore_records (conf : ZoneConf) (hread : ∀ item ∈ items, item.Readable t₀)
    (hvalid : z.logValid = true)
    (hlog : z.log = (items.map (record conf t₀)).flatten ++ [0]) :
    z.logRestore = some
      { toZoneTables := items.foldl (LogItem.undo t₀) z.toZoneTables
        logValid := false
        log := [] } := by
  have hnot : ¬ z.logValid = false := by simp [hvalid]
  rw [logRestore, if_neg hnot, hlog, logRestoreLoop_records hread z 255 (by simp)]
  rfl

/-- Where the log is not valid, the tables are as before or as after. -/
theorem recovers_of_logValid (hlog : z.log = []) (hvalid : z.logValid = false)
    (records : List (List uint8)) (ws : List TableWrite) (j : ℕ)
    (hj : (z.writes ((journaled records ws).take j)).logValid = false) :
    z.Recovers (journaled records ws) j := by
  refine ⟨_, if_pos hj, ?_⟩
  rcases writes_take_journaled hlog hvalid records ws j rfl with ⟨-, htables⟩ | ⟨hvalid', -⟩
  · exact htables
  · rw [hj] at hvalid'
    cases hvalid'

/-- An act recovers wherever it is interrupted, if its records are readable and are about all
the entries that it writes. -/
theorem recovers_journaled (hlog : z.log = []) (hvalid : z.logValid = false)
    (hread : ∀ item ∈ items, item.Readable z.toZoneTables) (hws : ∀ w ∈ ws, w.item ∈ items)
    (j : ℕ) : z.Recovers (journaled (items.map (record conf z.toZoneTables)) ws) j := by
  rcases writes_take_journaled hlog hvalid (items.map (record conf z.toZoneTables)) ws j rfl
    with ⟨hvalid', -⟩ | ⟨hvalid', hlog', m, htables⟩
  · exact recovers_of_logValid hlog hvalid _ ws j hvalid'
  · refine ⟨_, logRestore_records conf hread hvalid' hlog', .inl ?_⟩
    rw [htables]
    apply LogItem.foldl_undo
    intro item hitem
    apply LogItem.same_writes
    intro w hw heq
    exact hitem (heq ▸ hws w (mem_of_mem_take hw))

/-- What is restored from a prefix of the writes is what was before, if it is not what comes
after. -/
theorem eq_of_recovers {as bs : List ZoneWrite} (h : z.Recovers (as ++ bs) as.length)
    (hrestore : (z.writes as).logRestore = some z') (htotal : z'.total = z.total)
    (hafter : (z.writes (as ++ bs)).total ≠ z.total) : z'.toZoneTables = z.toZoneTables := by
  obtain ⟨z'', hz'', htables⟩ := h
  rw [take_left, hrestore] at hz''
  cases hz''
  apply htables.resolve_right
  intro heq
  exact hafter (heq ▸ htotal)

section

variable {i : ℕ} (hi : i < 2 ^ 16) (hnext : t₀.next i < 2 ^ 16) (hprev : t₀.prev i < 2 ^ 16)
  (hcount : t₀.count i < 2 ^ 16) (halloc : t₀.alloc i = true)

include hi hnext hprev hcount halloc

/-- The record of an allocated section is not read as it was written: its last byte is taken for
the kind of a record. -/
theorem logRestoreLoop_allocated {op : uint8} (fuel : ℕ) :
    logRestoreLoop (fuel + 3) z op ((sect i).record conf t₀ ++ rest) = none := by
  have htag : t₀.count i + 2 ^ 31 * (t₀.alloc i).toNat = t₀.count i + 2 ^ 31 := by simp [halloc]
  have hbytes : leBytes 2 ((t₀.count i + 2 ^ 31) / 2 ^ 16) = [0, 0x80] := by
    have : (t₀.count i + 2 ^ 31) / 2 ^ 16 = 2 ^ 15 := by omega
    rw [this]
    decide
  rw [logRestoreLoop_sect _ hi hnext hprev htag (by omega), hbytes, cons_append,
    logRestoreLoop_end, cons_append, logRestoreLoop]
  rfl

theorem logRestore_allocated (hstat : stat.Readable t₀) (hvalid : z.logValid = true)
    (hlog : z.log = stat.record conf t₀ ++ ((sect i).record conf t₀ ++ rest)) :
    z.logRestore = none := by
  have hnot : ¬ z.logValid = false := by simp [hvalid]
  have hlen : 3 ≤ z.log.length := by
    rw [hlog]
    simp [record, length_leBytes]
    omega
  obtain ⟨fuel, hfuel⟩ := Nat.exists_eq_add_of_le' hlen
  rw [logRestore, if_neg hnot, hfuel, hlog, logRestoreLoop_stat _ hstat,
    logRestoreLoop_allocated hi hnext hprev hcount halloc]
  rfl

end

end MZone

/-- The act writes to the tables only, to entries among the items. -/
def Covered (items : Set LogItem) (a : ZoneAct) (z : MZone) : Prop :=
  ∃ ws : List TableWrite, a z = ws.map .table ∧ ∀ w ∈ ws, w.item ∈ items

namespace Covered

variable {items : Set LogItem} {a b : ZoneAct} {as : List ZoneAct}

theorem nop : Covered items .nop z := ⟨[], rfl, by simp⟩

theorem tab {f : ZoneTables → List TableWrite} (h : ∀ w ∈ f z.toZoneTables, w.item ∈ items) :
    Covered items (.tab f) z :=
  ⟨_, rfl, h⟩

theorem set {ws : List TableWrite} (h : ∀ w ∈ ws, w.item ∈ items) : Covered items (.set ws) z :=
  tab h

theorem acts_nil : Covered items (acts []) z := ⟨[], rfl, by simp⟩

theorem acts_cons (ha : Covered items a z) (has : Covered items (acts as) (a.run z)) :
    Covered items (acts (a :: as)) z := by
  obtain ⟨ws, hws, hitem⟩ := ha
  obtain ⟨ws', hws', hitem'⟩ := has
  refine ⟨ws ++ ws', ?_, ?_⟩
  · rw [acts, hws, map_append, ← hws']
    rw [ZoneAct.run, hws]
  · intro w hw
    rcases mem_append.1 hw with hw | hw
    · exact hitem w hw
    · exact hitem' w hw

theorem ite {c : Prop} [Decidable c] (ha : c → Covered items a z) (hb : ¬ c → Covered items b z) :
    Covered items (if c then a else b) z := by
  by_cases hc : c
  · rw [if_pos hc]
    exact ha hc
  · rw [if_neg hc]
    exact hb hc

theorem journaled_eq {conf : ZoneConf} {log write : ZoneAct} {f : ZoneTables → List LogItem}
    (hlog : Logging conf log f)
    (hwrite : ∀ z₁ : MZone, z₁.toZoneTables = z.toZoneTables → Covered items write z₁) :
    ∃ ws, acts [log, .logSubmit, write, .logFinish] z =
        journaled ((f z.toZoneTables).map (record conf z.toZoneTables)) ws ∧
      ∀ w ∈ ws, w.item ∈ items := by
  have htables : (ZoneAct.logSubmit.run (log.run z)).toZoneTables = z.toZoneTables := by
    rw [run_logSubmit, hlog.run]
  obtain ⟨ws, hws, hitem⟩ := hwrite _ htables
  refine ⟨ws, ?_, hitem⟩
  change log z ++ ([.log [0], .logValid true] ++ (write (ZoneAct.logSubmit.run (log.run z)) ++
    ([.logValid false, .logClear] ++ []))) = _
  rw [hws, hlog z, journaled]
  simp

end Covered

open Covered (acts_cons acts_nil ite journaled_eq nop set tab)

section

variable {sec c count : ℕ}

/-- The records of the entries next to one cover its move to another list. -/
theorem Covered.refile {items : Set LogItem} {l : ℕ} {z₁ : MZone}
    (hnext : z₁.next sec = z.next sec) (hprev : z₁.prev sec = z.prev sec)
    (hbefore : z₁.prev l = z.prev l) (hne : l ≠ z.next sec) (hsec : .sect sec ∈ items)
    (hremove : ∀ item ∈ remove sec z.toZoneTables, item ∈ items)
    (hinsert : ∀ item ∈ insertBefore l z.toZoneTables, item ∈ items) :
    Covered items (acts [.msectEntryRemove sec, .msectInsertBefore l sec]) z₁ := by
  simp only [LogItem.mem_remove, LogItem.mem_insertBefore, forall_eq_or_imp, forall_eq]
    at hremove hinsert
  apply acts_cons
  · apply tab
    simp [ZoneTables.msectEntryRemove, item, hnext, hprev, hremove]
  · have hkept : ((ZoneAct.msectEntryRemove sec).run z₁).prev l = z.prev l := by
      rw [ZoneAct.msectEntryRemove, run_tab, ← hbefore]
      exact update_of_ne (hnext ▸ hne) _ _
    apply acts_cons _ acts_nil
    apply tab
    simp [ZoneTables.msectInsertBefore, item, hkept, hsec, hinsert]

theorem Covered.allocWrite (h : Layout conf z.toZoneTables k rows)
    (hsec : FreeRun conf k rows sec c) (hcount : 0 < count) (hle : count ≤ c) (self : uint32) :
    Covered {item | item ∈ alloc (msectPlistIndex c) sec count z.toZoneTables}
      (ZoneAct.allocWrite (msectPlistIndex c) sec count self) z := by
  obtain ⟨s, hs, hmem⟩ := id hsec
  have hc : z.count sec = c := (h.freeTag hs hmem).count
  let items := alloc (msectPlistIndex c) sec count z.toZoneTables
  have hstatItem : .stat ∈ items := by simp [items, alloc]
  have hsecItem : .sect sec ∈ items := by simp [items, alloc]
  have hlastItem : .sect (sec + (z.count sec - count) + count - 1) ∈ items := by
    rw [show sec + (z.count sec - count) + count - 1 = sec + z.count sec - 1 by omega]
    simp [items, alloc]
  have hretItem : .sect (sec + (z.count sec - count)) ∈ items := by
    by_cases hleft : z.count sec - count = 0
    · rwa [hleft]
    · simp [items, alloc, hleft]
  apply acts_cons
  · apply ite
    · intro hleft
      apply tab
      simp [alloc, ZoneTables.msectEntryRemove, item, hleft]
    · intro hleft
      have hinner : 1 < z.count sec - count →
          .sect (sec + (z.count sec - count) - 1) ∈ items := by
        intro hlt
        simp [items, alloc, hleft, hlt]
      apply acts_cons
      · apply ite
        · intro hlt
          apply set
          simpa [item] using hinner hlt
        · exact fun _ => nop
      apply acts_cons
      · apply set
        simpa [item] using hsecItem
      apply acts_cons _ acts_nil
      apply ite _ fun _ => nop
      intro hlist
      have hsixteen := h.sixteen_le_freeRun hsec
      have hl := msectPlistIndex_lt (z.count sec - count)
      apply Covered.refile (z := z) _ _ _ _ hsecItem
      iterate 2
        intro item hitem
        simp only [alloc, if_neg hleft, if_pos hlist, mem_append, Set.mem_ofPred_eq]
        tauto
      · split_ifs <;> rfl
      · split_ifs with hlt
        · exact update_of_ne (by omega) _ _
        · rfl
      · split_ifs with hlt
        · exact update_of_ne (by omega) _ _
        · rfl
      · intro heq
        have hidx := h.filed.next_eq_index msectPlistIndex_lt hsec (heq ▸ hl)
        exact hlist (heq.trans hidx)
  apply acts_cons
  · apply set
    simpa [item] using hretItem
  apply acts_cons
  · apply ite _ fun _ => nop
    intro _
    apply set
    simpa [item] using hlastItem
  apply acts_cons _ acts_nil
  apply set
  simpa [item] using hstatItem

end

/-- What an operation finds when it has restored the log: it is empty, and every field has a value
of its type. -/
structure MZone.Ready (z : MZone) : Prop where
  log : z.log = []
  next : ∀ i, z.next i < 2 ^ 16
  prev : ∀ i, z.prev i < 2 ^ 16
  total : z.total < 2 ^ 32
  used : z.used < 2 ^ 32

theorem ZoneRun.ready_start {conf : ZoneConf} (hsec : 2 ≤ conf.secCount) (self : uint32) :
    (start conf self).zone.Ready := by
  have htables := tables_start hsec self
  have hl := msectPlistIndex_lt (conf.secCount - 1)
  have hmax := conf.secCount_le
  have hlinks : ∀ i, (if i < 16 then i else 0) < 2 ^ 16 := by
    intro i
    split_ifs <;> omega
  have hupdate : ∀ (f : ℕ → ℕ) (a b : ℕ), (∀ i, f i < 2 ^ 16) → b < 2 ^ 16 →
      ∀ i, update f a b i < 2 ^ 16 := by
    intro f a b hf hb i
    by_cases hi : i = a
    · rwa [hi, update_self]
    · rw [update_of_ne hi]
      exact hf i
  have hprev := hupdate _ (16 + conf.secCount - 1) 17
    (hupdate _ 16 (self.toNat / 2 ^ 16) hlinks (by omega)) (by omega)
  constructor
  · simp [start, init, run_set, ZoneAct.msectInsertAfter, run_tab]
  all_goals
    rw [htables]
  · apply hupdate _ _ _ _ (by omega)
    exact hupdate _ _ _ (hupdate _ _ _ hlinks (by omega)) (by omega)
  · apply hupdate _ _ _ _ (by omega)
    exact hupdate _ _ _ hprev (hprev _)
  · dsimp only
    omega
  · dsimp only
    omega

namespace Layout

variable {sec c count : ℕ} (h : Layout conf z.toZoneTables k rows)

include h

theorem readable_of_freeRun (hr : z.Ready) (hsec : FreeRun conf k rows sec c) {y : ℕ}
    (hy : sec ≤ y ∧ y < sec + c) : (sect y).Readable z.toZoneTables := by
  obtain ⟨s, hs, hmem⟩ := hsec
  have htag := h.freeTag hs hmem
  have hbounds := h.mem_bounds hs hmem
  have hend : conf.secEnd s ≤ 16 * 1024 := min_le_right _ _
  simp only at hbounds
  have htags : z.count y < 2 ^ 16 ∧ z.alloc y = false := by
    rcases hy.1.eq_or_lt with rfl | hlt
    · exact ⟨by rw [htag.count]; omega, htag.alloc⟩
    · obtain ⟨hzero, hfree⟩ := htag.inner y hlt hy.2
      exact ⟨by omega, hfree⟩
  exact ⟨by omega, hr.next y, hr.prev y, htags⟩

theorem readable_of_linked (hr : z.Ready) {a : ℕ} (ha : Linked 16 (FreeRun conf k rows) a) :
    (sect a).Readable z.toZoneTables := by
  rcases ha with hlt | ⟨c, hsec⟩
  · obtain ⟨hcount, halloc⟩ := h.sentinel a hlt
    exact ⟨by omega, hr.next a, hr.prev a, by omega, halloc⟩
  · obtain ⟨s, hs, hmem⟩ := id hsec
    have hpos := (h.mem_bounds hs hmem).2.1
    exact h.readable_of_freeRun hr hsec ⟨le_rfl, Nat.lt_add_of_pos_right hpos⟩

theorem linked_insertBefore {l : ℕ} (hl : l < 16) :
    ∀ item ∈ insertBefore l z.toZoneTables,
      ∃ a, item = .sect a ∧ Linked 16 (FreeRun conf k rows) a := by
  have hprev := h.filed.linked_prev msectPlistIndex_lt (.inl hl)
  intro item hitem
  rcases (LogItem.mem_insertBefore _).1 hitem with rfl | rfl
  · exact ⟨l, rfl, .inl hl⟩
  · exact ⟨_, rfl, hprev⟩

theorem linked_remove (hsec : FreeRun conf k rows sec c) :
    ∀ item ∈ remove sec z.toZoneTables,
      ∃ a, item = .sect a ∧ Linked 16 (FreeRun conf k rows) a := by
  have hnext := h.filed.linked_next msectPlistIndex_lt hsec
  have hprev := h.filed.linked_prev msectPlistIndex_lt (.inr ⟨c, hsec⟩)
  intro item hitem
  rcases (LogItem.mem_remove _).1 hitem with rfl | rfl
  · exact ⟨_, rfl, hnext⟩
  · exact ⟨_, rfl, hprev⟩

theorem readable_alloc (hr : z.Ready) (hsec : FreeRun conf k rows sec c) (hcount : 0 < count)
    (hle : count ≤ c) :
    ∀ item ∈ alloc (msectPlistIndex c) sec count z.toZoneTables, item.Readable z.toZoneTables := by
  obtain ⟨s, hs, hmem⟩ := id hsec
  have hc : z.count sec = c := (h.freeTag hs hmem).count
  have hlinked : ∀ item : LogItem, (∃ a, item = .sect a ∧ Linked 16 (FreeRun conf k rows) a) →
      item.Readable z.toZoneTables := by
    rintro item ⟨a, rfl, ha⟩
    exact h.readable_of_linked hr ha
  have hrun : ∀ y, sec ≤ y → y < sec + c → (sect y).Readable z.toZoneTables :=
    fun y hy hy' => h.readable_of_freeRun hr hsec ⟨hy, hy'⟩
  intro item hitem
  rw [alloc, hc, mem_append] at hitem
  rcases hitem with hitem | hitem
  · simp only [mem_cons, not_mem_nil, or_false] at hitem
    rcases hitem with rfl | rfl | rfl
    · exact ⟨hr.total, hr.used⟩
    · exact hrun _ le_rfl (by omega)
    · exact hrun _ (by omega) (by omega)
  · by_cases hleft : c - count = 0
    · rw [if_pos hleft] at hitem
      exact hlinked item (h.linked_remove hsec item hitem)
    · rw [if_neg hleft, mem_append, mem_cons] at hitem
      rcases hitem with (rfl | hitem) | hitem
      · exact hrun _ (by omega) (by omega)
      · split_ifs at hitem
        · obtain rfl := mem_singleton.1 hitem
          exact hrun _ (by omega) (by omega)
        · cases hitem
      · split_ifs at hitem
        · rcases mem_append.1 hitem with hitem | hitem
          · exact hlinked item (h.linked_remove hsec item hitem)
          · exact hlinked item (h.linked_insertBefore (msectPlistIndex_lt _) item hitem)
        · cases hitem

end Layout

namespace ZoneHolds

/-- The writes that take a segment into use, up to the first one to the tables after the log. -/
theorem growSegm_split {t₁ : ZoneTables} (hvalid : z.valid k = false)
    (ht₁ : cleared conf k z.toZoneTables = t₁) :
    ∃ rest, ZoneAct.growSegm conf k z = ZoneAct.growClear conf k z ++
      (((LogItem.grow conf k t₁).map (record conf t₁)).map .log ++
        [.log [0], .logValid true,
          .table (.count (conf.secStart k) (conf.secEnd k - conf.secStart k))]) ++ rest := by
  generalize hz₁ : (ZoneAct.growClear conf k).run z = z₁
  have hlog : ZoneAct.growLog conf k z₁ =
      ((LogItem.grow conf k t₁).map (record conf t₁)).map .log := by
    rw [Logging.growLog conf k z₁, ← hz₁, Layout.run_growClear hvalid, ← ht₁]
  obtain ⟨rest, hwrite⟩ : ∃ rest,
      ZoneAct.growWrite conf k (ZoneAct.logSubmit.run ((ZoneAct.growLog conf k).run z₁)) =
        .table (.count (conf.secStart k) (conf.secEnd k - conf.secStart k)) :: rest := ⟨_, rfl⟩
  refine ⟨rest ++ [.logValid false, .logClear], ?_⟩
  rw [← hlog]
  subst hz₁
  change ZoneAct.growClear conf k z ++
    (ZoneAct.growLog conf k ((ZoneAct.growClear conf k).run z) ++ ([.log [0], .logValid true] ++
      (ZoneAct.growWrite conf k (ZoneAct.logSubmit.run ((ZoneAct.growLog conf k).run
        ((ZoneAct.growClear conf k).run z))) ++ ([.logValid false, .logClear] ++ [])))) = _
  rw [hwrite]
  simp

section

variable {count : ℕ} (h : ZoneHolds conf z blocks k rows)

include h

theorem recovers_allocSects (hr : z.Ready) {sec c : ℕ} (hsec : FreeRun conf k rows sec c)
    (hcount : 0 < count) (hle : count ≤ c) (self : uint32) (j : ℕ) :
    z.Recovers (ZoneAct.allocSects (msectPlistIndex c) sec count self z) j := by
  have hcovered : ∀ z₁ : MZone, z₁.toZoneTables = z.toZoneTables →
      Covered {item | item ∈ alloc (msectPlistIndex c) sec count z.toZoneTables}
        (.allocWrite (msectPlistIndex c) sec count self) z₁ := by
    intro z₁ h₁
    rw [← h₁]
    exact Covered.allocWrite (h₁ ▸ h.layout) hsec hcount hle self
  obtain ⟨ws, hws, hitem⟩ := journaled_eq
    (Logging.allocLog conf (msectPlistIndex c) sec count) hcovered
  rw [ZoneAct.allocSects, hws]
  exact MZone.recovers_journaled hr.log h.logValid (h.layout.readable_alloc hr hsec hcount hle)
    hitem j

/-- The records that are logged before a segment is taken into use are readable, and none of them
is about a section of the segment. -/
theorem readable_grow (hr : z.Ready) (hk : k < conf.segCount) :
    ∀ item ∈ LogItem.grow conf k (cleared conf k z.toZoneTables),
      item.Readable (cleared conf k z.toZoneTables) ∧ item ≠ .sect (conf.secStart k) := by
  have hl := msectPlistIndex_lt (conf.secEnd k - conf.secStart k)
  obtain ⟨-, -, htotal, hused⟩ := Layout.cleared_keeps conf k z.toZoneTables
  have hsame : ∀ a, Linked 16 (FreeRun conf k rows) a →
      LogItem.Same z.toZoneTables (cleared conf k z.toZoneTables) (.sect a) := by
    intro a ha
    apply LogItem.same_writes
    intro w hw heq
    obtain ⟨i, -, rfl⟩ := mem_map.1 hw
    obtain rfl : conf.secStart k + i = a := by simpa [item] using heq
    exact h.layout.not_linked_of_le (by omega) ha
  have hprev := (hsame _ (.inl hl)).2.1
  have hinsert : insertBefore (msectPlistIndex (conf.secEnd k - conf.secStart k))
      (cleared conf k z.toZoneTables) =
      insertBefore (msectPlistIndex (conf.secEnd k - conf.secStart k)) z.toZoneTables := by
    rw [insertBefore, insertBefore, hprev]
  intro item hitem
  rw [LogItem.grow, mem_append, hinsert] at hitem
  rcases hitem with hitem | hitem
  · rcases mem_pair.1 hitem with rfl | rfl
    · exact ⟨⟨htotal ▸ hr.total, hused ▸ hr.used⟩, by simp⟩
    · have := conf.segCount_le
      exact ⟨by change k < 2 ^ 16; omega, by simp⟩
  · obtain ⟨a, rfl, ha⟩ := h.layout.linked_insertBefore hl item hitem
    refine ⟨(h.layout.readable_of_linked hr ha).of_same (hsame a ha), ?_⟩
    rintro heq
    rw [sect.injEq] at heq
    exact h.layout.not_linked_of_le heq.ge ha

/-- The write of the length of the first section of a new segment is not undone, so that a call
that takes a segment into use does not recover everywhere. -/
theorem not_recovers_growSegm (hr : z.Ready) (hk : k < conf.segCount) {ws : List ZoneWrite}
    (hafter : (z.writes (ZoneAct.growSegm conf k z ++ ws)).total ≠ z.total) :
    ¬ ∀ j, z.Recovers (ZoneAct.growSegm conf k z ++ ws) j := by
  intro hall
  have hlt := conf.secStart_lt_secEnd hk
  have hvalid : z.valid k = false := by simpa using h.layout.valid k hk
  obtain ⟨-, -, htotal, -⟩ := Layout.cleared_keeps conf k z.toZoneTables
  have hzero : (cleared conf k z.toZoneTables).count (conf.secStart k) = 0 :=
    (Layout.writes_clear _ _ _ _ le_rfl (by omega)).1
  have hread := h.readable_grow hr hk
  have hclear : z.writes (ZoneAct.growClear conf k z) = _ := Layout.run_growClear hvalid
  obtain ⟨rest, hsplit⟩ : ∃ rest, ZoneAct.growSegm conf k z = _ := growSegm_split hvalid rfl
  generalize cleared conf k z.toZoneTables = t₁ at *
  generalize hlogged : ((LogItem.grow conf k t₁).map (record conf t₁)).map ZoneWrite.log ++
    [.log [0], .logValid true,
      .table (.count (conf.secStart k) (conf.secEnd k - conf.secStart k))] = logged at hsplit
  rw [hsplit] at hall hafter
  -- before the log is written the sections are already cleared
  have hbefore : z.count (conf.secStart k) = 0 := by
    have hrestore : (z.writes (ZoneAct.growClear conf k z)).logRestore =
        some { z with toZoneTables := t₁, log := [] } := by
      rw [hclear, MZone.logRestore, if_pos h.logValid]
    rw [append_assoc, append_assoc] at hall hafter
    rw [← MZone.eq_of_recovers (hall _) hrestore htotal hafter]
    exact hzero
  -- the length that is written after the log is not undone
  have hwritten : z.count (conf.secStart k) = conf.secEnd k - conf.secStart k := by
    have hkept : (LogItem.grow conf k t₁).foldl (LogItem.undo t₁)
        (t₁.write (.count (conf.secStart k) (conf.secEnd k - conf.secStart k))) =
        t₁.write (.count (conf.secStart k) (conf.secEnd k - conf.secStart k)) := by
      apply LogItem.foldl_undo_of_same
      intro item hitem
      exact LogItem.same_write_of_ne (hread item hitem).2
    have hrestore : (z.writes (ZoneAct.growClear conf k z ++ logged)).logRestore =
        some { toZoneTables := t₁.write (.count (conf.secStart k)
                (conf.secEnd k - conf.secStart k)), logValid := false, log := [] } := by
      rw [← hkept, writes_append, hclear, ← hlogged, writes_append, MZone.writes_map_log]
      apply MZone.logRestore_records conf fun item hitem => (hread item hitem).1
      · rfl
      · simp [MZone.writes, MZone.write, hr.log]
    rw [append_assoc] at hall hafter
    rw [← MZone.eq_of_recovers (hall _) hrestore htotal hafter]
    exact update_self _ _ _
  omega

theorem total_lt {z' : MZone} {blocks' : Finset Block} {k' : ℕ}
    {rows' : ℕ → List (Piece Use)} (h' : ZoneHolds conf z' blocks' k' rows') (hlt : k < k') :
    z.total < z'.total := by
  rw [h.layout.total, h'.layout.total]
  have hle := h'.layout.le
  clear h h'
  induction k', hlt using le_induction with
  | base =>
    have := conf.secStart_lt_secEnd hle
    rw [List.range_succ, map_append, List.sum_append, map_singleton, sum_singleton]
    omega
  | succ k' _ ih =>
    rw [List.range_succ (n := k'), map_append, List.sum_append]
    omega

end

end ZoneHolds

theorem Covered.freeWrite (conf : ZoneConf) (zone sec : ℕ) (z : MZone) :
    Covered Set.univ (ZoneAct.freeWrite conf zone sec) z := by
  -- each act of the release is made of writes to the tables
  repeat' first
    | exact acts_nil
    | exact nop
    | exact tab fun _ _ => trivial
    | apply acts_cons
    | refine ite (fun _ => ?_) fun _ => ?_

/-- No free run is long enough for the size, and there is a segment that can be taken into use. -/
def MZone.NeedsSegment (conf : ZoneConf) (grows : ℕ → Bool) (size : ℕ) (z : MZone) : Prop :=
  size ≤ conf.segSize ∧
    z.findList conf (sectsOf size) (16 - msectPlistIndex (sectsOf size))
      (msectPlistIndex (sectsOf size)) = some none ∧
    ∃ n, ((List.range conf.segCount).find? fun n => !(z.valid n && z.inuse n)) = some n ∧
      ¬ (z.valid n = false ∧ grows n = false)

namespace ZoneHolds

/-- The record of the block that is released cannot be read, so that the release recovers only
where its log is not valid. -/
theorem recovers_freeSects (h : ZoneHolds conf z blocks k rows) (hr : z.Ready) {b : Block}
    (hb : b ∈ blocks) (zone j : ℕ) :
    z.Recovers (ZoneAct.freeSects conf zone b.start z) j ↔
      (z.writes ((ZoneAct.freeSects conf zone b.start z).take j)).logValid = false := by
  obtain ⟨n, hn, hmem⟩ := (h.taken b).1 hb
  have htag := h.layout.takenTag hn hmem
  have hbounds := h.layout.mem_bounds hn hmem
  have hend : conf.secEnd n ≤ 16 * 1024 := min_le_right _ _
  simp only at hbounds
  obtain ⟨ws, hws, -⟩ := journaled_eq (Logging.freeLog conf zone b.start)
    (fun z₁ _ => Covered.freeWrite conf zone b.start z₁) (z := z)
  obtain ⟨items, hitems⟩ : ∃ items,
      free conf zone b.start z.toZoneTables = .stat :: .sect b.start :: items := ⟨_, rfl⟩
  rw [ZoneAct.freeSects, hws, hitems]
  constructor
  · rintro ⟨z', hrestore, -⟩
    rw [← Bool.not_eq_true]
    intro hvalid
    rcases MZone.writes_take_journaled hr.log h.logValid _ ws j rfl with
      ⟨hvalid', -⟩ | ⟨-, hlog, -⟩
    · rw [hvalid] at hvalid'
      cases hvalid'
    · rw [map_cons, map_cons, flatten_cons, flatten_cons, append_assoc, append_assoc] at hlog
      have hnone := MZone.logRestore_allocated (by omega) (hr.next b.start) (hr.prev b.start)
        (by rw [htag.count]; omega) htag.alloc ⟨hr.total, hr.used⟩ hvalid hlog
      rw [hnone] at hrestore
      cases hrestore
  · exact MZone.recovers_of_logValid hr.log h.logValid _ ws j

theorem recovers_nil (j : ℕ) (h : ZoneHolds conf z blocks k rows) : z.Recovers [] j := by
  refine ⟨_, if_pos ?_, .inl ?_⟩
  · rw [take_nil]
    exact h.logValid
  · rw [take_nil]
    rfl

theorem shmzAlloc_cases (h : ZoneHolds conf z blocks k rows) (grows : ℕ → Bool) (self : uint32)
    (size : ℕ) : ∃ ws ret, z.shmzAlloc conf grows self size = some (ws, ret) ∧
      (¬ z.NeedsSegment conf grows size ∧ (ws = [] ∨ ∃ sec c, FreeRun conf k rows sec c ∧
          sectsOf size ≤ c ∧
          ws = ZoneAct.allocSects (msectPlistIndex c) sec (sectsOf size) self z) ∨
        z.NeedsSegment conf grows size ∧ k < conf.segCount ∧ ∃ ws',
          ws = ZoneAct.growSegm conf k z ++ ws' ∧ (z.writes ws).total ≠ z.total) := by
  rw [MZone.shmzAlloc]
  by_cases hsize : conf.segSize < size
  · rw [if_pos hsize]
    refine ⟨_, _, rfl, .inl ⟨?_, .inl rfl⟩⟩
    rintro ⟨hle, -⟩
    omega
  rw [if_neg hsize, MZone.allocLoop]
  obtain ⟨r, hr, hfound⟩ := MZone.findList_layout h.layout (sectsOf size)
    (m := 16 - msectPlistIndex (sectsOf size)) (n := msectPlistIndex (sectsOf size))
    (by have := msectPlistIndex_lt (sectsOf size); omega)
  simp only [hr]
  cases r with
  | some found =>
    obtain ⟨list, sec⟩ := found
    obtain ⟨hsec, rfl, hle⟩ := hfound list sec rfl
    refine ⟨_, _, rfl, .inl ⟨?_, .inr ⟨sec, _, hsec, hle, rfl⟩⟩⟩
    rintro ⟨-, hnone, -⟩
    simp [hr] at hnone
  | none =>
    simp only [h.find_segm]
    by_cases hk : k < conf.segCount
    · simp only [if_pos hk]
      by_cases hgrow : z.valid k = false ∧ grows k = false
      · rw [if_pos hgrow]
        refine ⟨_, _, rfl, .inl ⟨?_, .inl rfl⟩⟩
        rintro ⟨-, -, n, hn, hnot⟩
        rw [h.find_segm, if_pos hk] at hn
        cases hn
        exact hnot hgrow
      · rw [if_neg hgrow]
        obtain ⟨ws, ret, k', rows', hloop, hle, hholds⟩ := (h.growSegm hk).allocLoop grows self
          (sectsOf_pos size) (by omega : conf.segCount - (k + 1) < conf.segCount)
        refine ⟨ZoneAct.growSegm conf k z ++ ws, ret, ?_, .inr ⟨⟨by omega, hr, k, ?_, hgrow⟩, hk,
          ws, rfl, ?_⟩⟩
        · change Option.map _ (MZone.allocLoop conf grows self (sectsOf size) conf.segCount
            ((ZoneAct.growSegm conf k).run z)) = _
          rw [hloop]
          rfl
        · rw [h.find_segm, if_pos hk]
        · rw [writes_append]
          exact (h.total_lt hholds (by omega)).ne'
    · simp only [if_neg hk]
      refine ⟨_, _, rfl, .inl ⟨?_, .inl rfl⟩⟩
      rintro ⟨-, -, n, hn, -⟩
      rw [h.find_segm, if_neg hk] at hn
      cases hn

/-- An allocation recovers wherever it is interrupted unless it takes a segment into use, the
release of a block only where it is interrupted before its log is valid or after that. -/
theorem recovers_iff (h : ZoneHolds conf z blocks k rows) (hr : z.Ready) :
    (∀ grows self size, ∃ ws ret, z.shmzAlloc conf grows self size = some (ws, ret) ∧
      ((∀ j, z.Recovers ws j) ↔ ¬ z.NeedsSegment conf grows size)) ∧
    ∀ b ∈ blocks, ∀ j, z.Recovers (ZoneAct.freeSects conf (conf.segmOf b.start) b.start z) j ↔
      (z.writes ((ZoneAct.freeSects conf (conf.segmOf b.start) b.start z).take j)).logValid =
        false := by
  constructor
  · intro grows self size
    obtain ⟨ws, ret, hws, ⟨hneeds, hcases⟩ | ⟨hneeds, hk, ws', rfl, hafter⟩⟩ :=
      h.shmzAlloc_cases grows self size
    · refine ⟨ws, ret, hws, fun _ => hneeds, fun _ j => ?_⟩
      rcases hcases with rfl | ⟨sec, c, hsec, hle, rfl⟩
      · exact recovers_nil j h
      · exact h.recovers_allocSects hr hsec (sectsOf_pos size) hle self j
    · refine ⟨_, ret, hws, fun hall => ?_, fun hnot => absurd hneeds hnot⟩
      exact absurd hall (h.not_recovers_growSegm hr hk hafter)
  · intro b hb j
    exact h.recovers_freeSects hr hb _ j

theorem recovers_iff_start : ∃ ws ret,
    (start oneSegment 1).zone.shmzAlloc oneSegment (fun _ => false) 7 1 =
        some (ws, ret) ∧
      ∀ j, (start oneSegment 1).zone.Recovers ws j := by
  have hholds : ZoneHolds oneSegment _ _ _ _ := ZoneRun.holds_start (by decide) 1
  have hready : (start oneSegment 1).zone.Ready := ZoneRun.ready_start (by decide) 1
  obtain ⟨ws, ret, hws, hiff⟩ := (recovers_iff hholds hready).1 (fun _ => false) 7 1
  refine ⟨ws, ret, hws, hiff.2 ?_⟩
  rintro ⟨-, hnone, -⟩
  revert hnone
  decide +kernel

/-- The release of a block, interrupted when its log has just become valid: the log cannot be
restored. -/
theorem release_not_restored : ∃ s,
    exec (step oneSegment) (start oneSegment 1)
        [.alloc (fun _ => false) 7 1] = some s ∧ ⟨18, 1, 7⟩ ∈ s.blocks ∧
      ¬ s.zone.Recovers (ZoneAct.freeSects oneSegment 0 18 s.zone) 7 := by
  have hrun : (exec (step oneSegment) (start oneSegment 1)
      [.alloc (fun _ => false) 7 1]).map (fun s => (decide (⟨18, 1, 7⟩ ∈ s.blocks),
        (s.zone.writes ((ZoneAct.freeSects oneSegment 0 18 s.zone).take
          7)).logRestore.isNone)) = some (true, true) := by decide +kernel
  obtain ⟨s, hs, hfields⟩ := Option.map_eq_some_iff.mp hrun
  rw [Prod.mk.injEq, decide_eq_true_iff] at hfields
  refine ⟨s, hs, hfields.1, ?_⟩
  rintro ⟨z', hrestore, -⟩
  rw [hrestore] at hfields
  cases hfields.2

end ZoneHolds

end AdaptivePlatform.Npc
