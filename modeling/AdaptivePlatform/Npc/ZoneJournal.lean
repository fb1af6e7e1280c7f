import AdaptivePlatform.Npc.Zone

/-!
# The journal of a zone

An act that logs writes records of the tables as they are and leaves the tables
alone. The writes to the tables do not look at the log.
-/
namespace AdaptivePlatform.Npc

open Function Bytes

namespace MZone

variable (z : MZone)

theorem writes_append (ws ws' : List ZoneWrite) : z.writes (ws ++ ws') = (z.writes ws).writes ws' :=
  List.foldl_append

theorem writes_map_table (ws : List TableWrite) :
    z.writes (ws.map .table) = { z with toZoneTables := z.toZoneTables.writes ws } := by
  induction ws generalizing z with
  | nil => rfl
  | cons w ws ih => exact ih (z.write (.table w))

theorem writes_map_log (records : List (List uint8)) :
    z.writes (records.map .log) = { z with log := z.log ++ records.flatten } := by
  induction records generalizing z with
  | nil => simp [writes]
  | cons record records ih =>
    have hwrite : z.writes ((record :: records).map .log) =
        (z.write (.log record)).writes (records.map .log) := rfl
    rw [hwrite, ih]
    simp [write]

end MZone

namespace ZoneAct

variable {conf : ZoneConf} (z : MZone)

@[simp] theorem run_acts_nil : (acts []).run z = z := rfl

@[simp] theorem run_acts_cons (a : ZoneAct) (as : List ZoneAct) :
    (acts (a :: as)).run z = (acts as).run (a.run z) :=
  z.writes_append (a z) _

@[simp] theorem run_nop : nop.run z = z := rfl

theorem run_tab (f : ZoneTables → List TableWrite) :
    (tab f).run z = { z with toZoneTables := z.toZoneTables.writes (f z.toZoneTables) } :=
  z.writes_map_table _

theorem run_set (ws : List TableWrite) :
    (set ws).run z = { z with toZoneTables := z.toZoneTables.writes ws } :=
  run_tab z _

@[simp] theorem run_logSubmit : (logSubmit.run z).toZoneTables = z.toZoneTables := rfl

@[simp] theorem run_logFinish : (logFinish.run z).toZoneTables = z.toZoneTables := rfl

end ZoneAct

/-- What a record of the log is about. -/
inductive LogItem
  | stat
  | segm (ent : ℕ)
  | sect (ent : ℕ)
  deriving DecidableEq

namespace LogItem

def record (conf : ZoneConf) (t : ZoneTables) : LogItem → List uint8
  | stat => 1 :: leBytes 4 t.total ++ leBytes 4 t.used
  | segm ent => 2 :: leBytes 2 ent ++ (leBytes 2 (0x4D + 2 ^ 8 * 0x53) ++
      leBytes 2 ((t.valid ent).toNat + 2 * (t.inuse ent).toNat) ++
      leBytes 4 (conf.secStart ent) ++ leBytes 4 (conf.secEnd ent))
  | sect ent => 3 :: leBytes 2 ent ++ (leBytes 2 (t.next ent) ++ leBytes 2 (t.prev ent) ++
      leBytes 4 (t.count ent + 2 ^ 31 * (t.alloc ent).toNat))

end LogItem

/-- The act writes the records of these items, and nothing else. -/
def Logging (conf : ZoneConf) (a : ZoneAct) (items : ZoneTables → List LogItem) : Prop :=
  ∀ z : MZone, a z = ((items z.toZoneTables).map (LogItem.record conf z.toZoneTables)).map .log

namespace Logging

variable {conf : ZoneConf} {a : ZoneAct} {as : List ZoneAct} {f g : ZoneTables → List LogItem}

theorem run (h : Logging conf a f) (z : MZone) :
    a.run z = { z with
      log := z.log ++ ((f z.toZoneTables).map (LogItem.record conf z.toZoneTables)).flatten } := by
  rw [ZoneAct.run, h z, MZone.writes_map_log]

theorem nop : Logging conf .nop fun _ => [] := fun _ => rfl

theorem logMstat : Logging conf .logMstat fun _ => [.stat] := fun _ => rfl

theorem logMsegm (conf : ZoneConf) (ent : ℕ) :
    Logging conf (.logMsegm conf ent) fun _ => [.segm ent] :=
  fun _ => rfl

theorem logMsect (ent : ℕ) : Logging conf (.logMsect ent) fun _ => [.sect ent] := fun _ => rfl

theorem acts_nil : Logging conf (acts []) fun _ => [] := fun _ => rfl

theorem acts_cons (ha : Logging conf a f) (has : Logging conf (acts as) g) :
    Logging conf (acts (a :: as)) fun t => f t ++ g t := by
  intro z
  have hrun : z.writes (a z) = _ := ha.run z
  rw [acts, hrun, has, ha z, List.map_append, List.map_append]

theorem ite {b : ZoneAct} (c : Prop) [Decidable c] (ha : c → Logging conf a f)
    (hb : ¬ c → Logging conf b g) :
    Logging conf (if c then a else b) fun t => if c then f t else g t := by
  by_cases hc : c
  · simp only [if_pos hc]
    exact ha hc
  · simp only [if_neg hc]
    exact hb hc

end Logging

namespace LogItem

variable (ent : ℕ) (t : ZoneTables)

def last : List LogItem := if 1 < t.count ent then [.sect (ent + t.count ent - 1)] else []

def remove : List LogItem :=
  if t.next ent = t.prev ent then [.sect (t.next ent)]
  else [.sect (t.next ent), .sect (t.prev ent)]

def insertBefore : List LogItem :=
  if ent = t.prev ent then [.sect ent] else [.sect ent, .sect (t.prev ent)]

def alloc (n sec count : ℕ) (t : ZoneTables) : List LogItem :=
  let left := t.count sec - count
  [stat, sect sec, sect (sec + t.count sec - 1)] ++
    if left = 0 then remove sec t
    else sect (sec + left) :: (if 1 < left then [sect (sec + left - 1)] else []) ++
      if msectPlistIndex left ≠ n then remove sec t ++ insertBefore (msectPlistIndex left) t else []

def grow (conf : ZoneConf) (n : ℕ) (t : ZoneTables) : List LogItem :=
  [stat, segm n] ++ insertBefore (msectPlistIndex (conf.secEnd n - conf.secStart n)) t

def free (conf : ZoneConf) (zone sec : ℕ) (t : ZoneTables) : List LogItem :=
  let p := t.freePlan conf zone sec
  [stat, sect sec] ++ last sec t ++
    (if p.pcon then
      (if p.ncon then sect p.next :: last p.next t ++ remove p.next t else []) ++
        sect p.prev :: last p.prev t
    else if p.ncon then
      sect p.next :: last p.next t ++ insertBefore p.next t ++ remove p.next t
    else []) ++
    if p.whole then segm zone :: remove p.new t
    else if some p.l ≠ p.n then
      (if p.n.isSome then remove p.new t else []) ++ insertBefore p.l t
    else []

end LogItem

open LogItem (alloc free grow insertBefore last remove)

namespace Logging

variable (conf : ZoneConf) (ent : ℕ)

theorem logMsectLast : Logging conf (.logMsectLast ent) (last ent) := by
  intro z
  unfold ZoneAct.logMsectLast last
  split_ifs
  · exact logMsect _ z
  · rfl

theorem logMsectRemove : Logging conf (.logMsectRemove ent) (remove ent) := by
  intro z
  unfold ZoneAct.logMsectRemove remove
  split_ifs
  · exact logMsect _ z
  · exact acts_cons (logMsect _) (acts_cons (logMsect _) acts_nil) z

theorem logMsectInsertBefore : Logging conf (.logMsectInsertBefore ent) (insertBefore ent) := by
  intro z
  unfold ZoneAct.logMsectInsertBefore insertBefore
  split_ifs
  · exact logMsect _ z
  · exact acts_cons (logMsect _) (acts_cons (logMsect _) acts_nil) z

theorem allocLog (n sec count : ℕ) : Logging conf (.allocLog n sec count) (alloc n sec count) := by
  intro z
  have hmove := acts_cons (logMsectRemove conf sec)
    (acts_cons (logMsectInsertBefore conf (msectPlistIndex (z.count sec - count))) acts_nil)
  have hrest := acts_cons (logMsect (sec + (z.count sec - count)))
    (acts_cons (ite (1 < z.count sec - count)
      (fun _ => logMsect (sec + (z.count sec - count) - 1)) fun _ => nop)
      (acts_cons (ite (msectPlistIndex (z.count sec - count) ≠ n) (fun _ => hmove) fun _ => nop)
        acts_nil))
  have hall := acts_cons logMstat (acts_cons (logMsect sec)
    (acts_cons (logMsect (sec + z.count sec - 1))
      (acts_cons (ite (z.count sec - count = 0) (fun _ => logMsectRemove conf sec) fun _ => hrest)
        acts_nil)))
  rw [ZoneAct.allocLog, hall z]
  simp [alloc]

theorem growLog (n : ℕ) : Logging conf (.growLog conf n) (grow conf n) := by
  intro z
  rw [ZoneAct.growLog, acts_cons logMstat (acts_cons (logMsegm conf n)
    (acts_cons (logMsectInsertBefore conf _) acts_nil)) z]
  simp [grow]

theorem freeLog (zone sec : ℕ) : Logging conf (.freeLog conf zone sec) (free conf zone sec) := by
  intro z
  generalize hp : z.freePlan conf zone sec = p
  have hnext := acts_cons (logMsect p.next) (acts_cons (logMsectLast conf p.next)
    (acts_cons (logMsectRemove conf p.next) acts_nil))
  have hboth := acts_cons (ite (p.ncon = true) (fun _ => hnext) fun _ => nop)
    (acts_cons (logMsect p.prev) (acts_cons (logMsectLast conf p.prev) acts_nil))
  have honly := acts_cons (logMsect p.next) (acts_cons (logMsectLast conf p.next)
    (acts_cons (logMsectInsertBefore conf p.next)
      (acts_cons (logMsectRemove conf p.next) acts_nil)))
  have hwhole := acts_cons (logMsegm conf zone) (acts_cons (logMsectRemove conf p.new) acts_nil)
  have hmove := acts_cons
    (ite (p.n.isSome = true) (fun _ => logMsectRemove conf p.new) fun _ => nop)
    (acts_cons (logMsectInsertBefore conf p.l) acts_nil)
  have hall := acts_cons logMstat (acts_cons (logMsect sec) (acts_cons (logMsectLast conf sec)
    (acts_cons (ite (p.pcon = true) (fun _ => hboth) fun _ =>
        ite (p.ncon = true) (fun _ => honly) fun _ => nop)
      (acts_cons (ite (p.whole = true) (fun _ => hwhole) fun _ =>
          ite (some p.l ≠ p.n) (fun _ => hmove) fun _ => nop)
        acts_nil))))
  simp only [ZoneAct.freeLog, free, hp]
  rw [hall z]
  simp

end Logging

namespace ZoneAct

variable {conf : ZoneConf} {log : ZoneAct} {items : ZoneTables → List LogItem}

/-- A journaled act does its writes to the tables as they were. -/
theorem run_journaled (hlog : Logging conf log items) (write : ZoneAct) (z : MZone) :
    ∃ z₁ : MZone, z₁.toZoneTables = z.toZoneTables ∧
      (acts [log, logSubmit, write, logFinish]).run z = logFinish.run (write.run z₁) := by
  refine ⟨logSubmit.run (log.run z), ?_, by simp⟩
  rw [run_logSubmit, hlog.run]

theorem run_dep (L : MZone → List ZoneAct) (z : MZone) :
    ZoneAct.run (fun z => acts (L z) z) z = (acts (L z)).run z :=
  rfl

theorem run_ite_set (c : Prop) [Decidable c] (ws : List TableWrite) (z : MZone) :
    (if c then set ws else nop).run z =
      { z with toZoneTables := z.toZoneTables.writes (if c then ws else []) } := by
  split_ifs
  · exact run_set z ws
  · rfl

end ZoneAct

end AdaptivePlatform.Npc
