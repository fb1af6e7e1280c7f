import Mathlib.Tactic
import AdaptivePlatform.Foundations.Bytes

/-!
# Shared memory zones

A zone is a file of segments, each a row of sections of 256 KiB. The table of
sections is kept as boundary tags: the first section of a run has its length, a
free run is linked into one of 16 lists (the entries 0 to 15 of the table are their
sentinels), an allocated run has its owner in the place of the links. Every
operation writes what it is going to change to an undo log first.

The operations are given as the lists of their writes, in order. The indices and
counts stay below 2^16 and 2^31, so that the widths of the fields matter only for
the owner, which shares the 32 bits of the two links.
-/
namespace AdaptivePlatform.Npc

open Function Bytes

/-- The sizes a zone is created with, as `npc_mzone_verify` accepts them. `secCount` is the number
of sections of a segment. -/
structure ZoneConf where
  segCount : ℕ
  secCount : ℕ
  segCount_pos : 0 < segCount
  segCount_le : segCount ≤ 256
  secCount_pos : 0 < secCount
  secCount_le : secCount ≤ 2048
  size_le : segCount * 2 ^ (18 + Nat.clog 2 secCount) ≤ 2 ^ 32

namespace ZoneConf

variable (conf : ZoneConf)

def segShift : ℕ := 18 + Nat.clog 2 conf.secCount

def segSize : ℕ := conf.secCount * 2 ^ 18

def secStart (n : ℕ) : ℕ := 16 + n * conf.secCount

/-- The section after the last one of a segment, at most `NPC_MSECT_MAX`. -/
def secEnd (n : ℕ) : ℕ := min (conf.secStart n + conf.secCount) (16 * 1024)

end ZoneConf

/-- The statistics and the tables of segments and sections. -/
structure ZoneTables where
  total : ℕ
  used : ℕ
  valid : ℕ → Bool
  inuse : ℕ → Bool
  next : ℕ → ℕ
  prev : ℕ → ℕ
  count : ℕ → ℕ
  alloc : ℕ → Bool

/-- The head of a zone, with the used part of the log. -/
structure MZone extends ZoneTables where
  logValid : Bool := false
  log : List uint8 := []

/-- A write to the statistics or the tables. -/
inductive TableWrite
  | next (sec value : ℕ)
  | prev (sec value : ℕ)
  | owner (sec : ℕ) (uid : uint32)
  | count (sec value : ℕ)
  | alloc (sec : ℕ) (flag : Bool)
  | clear (sec : ℕ)
  | valid (seg : ℕ)
  | inuse (seg : ℕ) (flag : Bool)
  | total (value : ℕ)
  | used (value : ℕ)

inductive ZoneWrite
  | table (write : TableWrite)
  | log (record : List uint8)
  | logValid (flag : Bool)
  | logClear

/-- The list that a free run of this length is kept in. -/
def msectPlistIndex (len : ℕ) : ℕ :=
  if len ≤ 1 then 0
  else if len ≤ (4 - 1) * 4 then (len + 3) / 4 - 1 + 1
  else if len ≤ (4 - 1) * 16 then (len + 15) / 16 - 1 + 4
  else if len ≤ (4 - 1) * 64 then (len + 63) / 64 - 1 + 7
  else if len ≤ (4 - 1) * 256 then (len + 255) / 256 - 1 + 10
  else if len ≤ (3 - 1) * 1024 then (len + 1023) / 1024 - 1 + 13
  else 15

namespace ZoneTables

variable (list ent : ℕ) (t : ZoneTables)

/-- The owner of an allocated run, in the place of the links. -/
def owner (sec : ℕ) : ℕ := t.next sec + 2 ^ 16 * t.prev sec

def write : TableWrite → ZoneTables
  | .next sec value => { t with next := update t.next sec value }
  | .prev sec value => { t with prev := update t.prev sec value }
  | .owner sec uid =>
    { t with
      next := update t.next sec (uid.toNat % 2 ^ 16)
      prev := update t.prev sec (uid.toNat / 2 ^ 16) }
  | .count sec value => { t with count := update t.count sec value }
  | .alloc sec flag => { t with alloc := update t.alloc sec flag }
  | .clear sec =>
    { t with
      next := update t.next sec 0
      prev := update t.prev sec 0
      count := update t.count sec 0
      alloc := update t.alloc sec false }
  | .valid seg => { t with valid := update t.valid seg true }
  | .inuse seg flag => { t with inuse := update t.inuse seg flag }
  | .total value => { t with total := value }
  | .used value => { t with used := value }

def writes (ws : List TableWrite) : ZoneTables := ws.foldl write t

def msectInsertAfter : List TableWrite :=
  let next := t.next list
  [.prev ent list, .next ent next, .next list ent, .prev next ent]

def msectInsertBefore : List TableWrite :=
  let prev := t.prev list
  [.next ent list, .prev ent prev, .prev list ent, .next prev ent]

def msectEntryRemove (ent : ℕ) (t : ZoneTables) : List TableWrite :=
  let next := t.next ent
  let prev := t.prev ent
  [.next prev next, .prev next prev]

end ZoneTables

namespace MZone

def write (z : MZone) : ZoneWrite → MZone
  | .table w => { z with toZoneTables := z.toZoneTables.write w }
  | .log record => { z with log := z.log ++ record }
  | .logValid flag => { z with logValid := flag }
  | .logClear => { z with log := [] }

def writes (z : MZone) (ws : List ZoneWrite) : MZone := ws.foldl write z

end MZone

/-- A part of an operation: what it writes, from the state it finds. -/
abbrev ZoneAct := MZone → List ZoneWrite

/-- One act after the other. -/
def acts : List ZoneAct → ZoneAct
  | [], _ => []
  | a :: as, z => a z ++ acts as (z.writes (a z))

namespace ZoneAct

def run (a : ZoneAct) (z : MZone) : MZone := z.writes (a z)

def nop : ZoneAct := fun _ => []

def tab (f : ZoneTables → List TableWrite) : ZoneAct := fun z => (f z.toZoneTables).map .table

/-- Writes to the tables that do not depend on what is found. -/
def set (ws : List TableWrite) : ZoneAct := tab fun _ => ws

def msectInsertAfter (list ent : ℕ) : ZoneAct := tab (ZoneTables.msectInsertAfter list ent)

def msectInsertBefore (list ent : ℕ) : ZoneAct := tab (ZoneTables.msectInsertBefore list ent)

def msectEntryRemove (ent : ℕ) : ZoneAct := tab (ZoneTables.msectEntryRemove ent)

def logMstat : ZoneAct := fun z => [.log (1 :: leBytes 4 z.total ++ leBytes 4 z.used)]

variable (conf : ZoneConf) (ent : ℕ)

/-- The record of a segment: tag, flags, and the bounds, which never change. -/
def logMsegm : ZoneAct := fun z =>
  [.log (2 :: leBytes 2 ent ++ (leBytes 2 (0x4D + 2 ^ 8 * 0x53) ++
    leBytes 2 ((z.valid ent).toNat + 2 * (z.inuse ent).toNat) ++
    leBytes 4 (conf.secStart ent) ++ leBytes 4 (conf.secEnd ent)))]

def logMsect : ZoneAct := fun z =>
  [.log (3 :: leBytes 2 ent ++ (leBytes 2 (z.next ent) ++ leBytes 2 (z.prev ent) ++
    leBytes 4 (z.count ent + 2 ^ 31 * (z.alloc ent).toNat)))]

def logMsectLast : ZoneAct := fun z =>
  if 1 < z.count ent then logMsect (ent + z.count ent - 1) z else []

def logMsectRemove : ZoneAct := fun z =>
  if z.next ent = z.prev ent then logMsect (z.next ent) z
  else acts [logMsect (z.next ent), logMsect (z.prev ent)] z

def logMsectInsertBefore : ZoneAct := fun z =>
  if ent = z.prev ent then logMsect ent z else acts [logMsect ent, logMsect (z.prev ent)] z

def logSubmit : ZoneAct := fun _ => [.log [0], .logValid true]

def logFinish : ZoneAct := fun _ => [.logValid false, .logClear]

end ZoneAct

namespace MZone

/-- The loop of `npc_mzone_log_restore` over the rest of the log. Each record is left after its
`used` bytes; `op` is the kind of the record before. Bytes past the end of the log count as 0. -/
def logRestoreLoop : ℕ → MZone → uint8 → List uint8 → Option MZone
  | 0, _, _, _ => none
  | _ + 1, z, op, [] => if op = 0 then some z else none
  | fuel + 1, z, _, op :: rest =>
    if op = 1 then
      if (op :: rest).length < 1 + 8 then none
      else logRestoreLoop fuel
        { z with
          total := leNat (rest.take 4)
          used := leNat ((rest.drop 4).take 4) } op ((op :: rest).drop (1 + 8))
    else if op = 2 then
      if (op :: rest).length < 1 + 12 then none
      else
        let ent := leNat (rest.take 2)
        let flags := leNat ((rest.drop 4).take 2)
        logRestoreLoop fuel
          { z with
            valid := update z.valid ent (flags.testBit 0)
            inuse := update z.inuse ent (flags.testBit 1) } op ((op :: rest).drop (1 + 12))
    else if op = 3 then
      if (op :: rest).length < 1 + 8 then none
      else
        let ent := leNat (rest.take 2)
        let tag := leNat ((rest.drop 6).take 4)
        logRestoreLoop fuel
          { z with
            next := update z.next ent (leNat ((rest.drop 2).take 2))
            prev := update z.prev ent (leNat ((rest.drop 4).take 2))
            count := update z.count ent (tag % 2 ^ 31)
            alloc := update z.alloc ent (tag.testBit 31) } op ((op :: rest).drop (1 + 8))
    else if op = 0 then logRestoreLoop fuel z op ((op :: rest).drop 1)
    else none

def logRestore (z : MZone) : Option MZone :=
  if z.logValid = false then some { z with log := [] }
  else (logRestoreLoop (z.log.length + 1) z 255 z.log).map fun z' =>
    { z' with logValid := false, log := [] }

/-- `npc_mzone_init`, in memory that is all zero. -/
def init (conf : ZoneConf) (self : uint32) : MZone :=
  let zero : MZone :=
    { total := conf.secCount, used := 1, valid := fun n => n = 0, inuse := fun n => n = 0,
      next := fun i => if i < 16 then i else 0, prev := fun i => if i < 16 then i else 0,
      count := fun _ => 0, alloc := fun _ => false }
  let m := conf.secStart 0
  (acts [ZoneAct.set [.alloc m true, .count m 1, .owner m self, .alloc (m + 1) false,
      .count (m + 1) (conf.secCount - 1), .prev (m + conf.secCount - 1) (m + 1)],
    ZoneAct.msectInsertAfter (msectPlistIndex (conf.secCount - 1)) (m + 1)]).run zero

/-- The walk through a list for a run of at least `count` sections, from `ent` on. -/
def findFit (z : MZone) (list count : ℕ) : ℕ → ℕ → Option (Option ℕ)
  | 0, _ => none
  | fuel + 1, ent =>
    if ent = list then some none
    else if count ≤ z.count ent then some (some ent)
    else findFit z list count fuel (z.next ent)

/-- The lists from `n` on, with the list and the run that is found. -/
def findList (conf : ZoneConf) (z : MZone) (count : ℕ) : ℕ → ℕ → Option (Option (ℕ × ℕ))
  | 0, _ => some none
  | k + 1, n =>
    match z.findFit n count (17 + conf.segCount * conf.secCount) (z.next n) with
    | none => none
    | some (some sec) => some (some (n, sec))
    | some none => findList conf z count k (n + 1)

end MZone

namespace ZoneAct

variable (n sec count : ℕ) (self : uint32)

/-- The records that are logged before the end of the run `sec` of list `n` is allocated. -/
def allocLog : ZoneAct := fun z =>
  let left := z.count sec - count
  let l := msectPlistIndex left
  acts
    [logMstat, logMsect sec, logMsect (sec + z.count sec - 1),
      if left = 0 then logMsectRemove sec
      else acts
        [logMsect (sec + left), if 1 < left then logMsect (sec + left - 1) else nop,
          if l ≠ n then acts [logMsectRemove sec, logMsectInsertBefore l] else nop]] z

def allocWrite : ZoneAct := fun z =>
  let left := z.count sec - count
  let l := msectPlistIndex left
  let ret := sec + left
  acts
    [if left = 0 then msectEntryRemove sec
      else acts
        [if 1 < left then set [.prev (sec + left - 1) sec] else nop, set [.count sec left],
          if l ≠ n then acts [msectEntryRemove sec, msectInsertBefore l sec] else nop],
      set [.alloc ret true, .count ret count, .owner ret self],
      if 1 < count then set [.alloc (ret + count - 1) true, .count (ret + count - 1) (2 ^ 31 - 1)]
      else nop,
      set [.used (z.used + count)]] z

/-- The end of the run `sec` of list `n` is allocated. -/
def allocSects : ZoneAct :=
  acts [allocLog n sec count, logSubmit, allocWrite n sec count self, logFinish]

variable (conf : ZoneConf) (n : ℕ)

/-- The sections of a segment that is used for the first time are set to zero. -/
def growClear : ZoneAct := fun z =>
  (if z.valid n then nop
    else set ((List.range (conf.secEnd n - conf.secStart n)).map fun i =>
      .clear (conf.secStart n + i))) z

def growLog : ZoneAct :=
  acts [logMstat, logMsegm conf n,
    logMsectInsertBefore (msectPlistIndex (conf.secEnd n - conf.secStart n))]

def growWrite : ZoneAct := fun z =>
  let sec := conf.secStart n
  let send := conf.secEnd n
  acts
    [set [.count sec (send - sec), .prev send sec, .valid n, .inuse n true],
      msectInsertBefore (msectPlistIndex (send - sec)) sec,
      set [.total (z.total + (send - sec))]] z

/-- A segment is taken into use. -/
def growSegm : ZoneAct :=
  acts [growClear conf n, growLog conf n, logSubmit, growWrite conf n, logFinish]

end ZoneAct

/-- What `npc_shmz_free_sects` finds around the block at `sec`: whether the runs after and before
it are free, where the one before begins, and what the free run will be. -/
structure FreePlan where
  count : ℕ
  next : ℕ
  ncon : Bool
  pcon : Bool
  prev : ℕ
  concat : ℕ
  n : Option ℕ
  new : ℕ
  l : ℕ
  whole : Bool

def ZoneTables.freePlan (conf : ZoneConf) (zone sec : ℕ) (t : ZoneTables) : FreePlan :=
  let count := t.count sec
  let next := sec + count
  let ncon : Bool := next < conf.secEnd zone ∧ t.alloc next = false
  let pcon : Bool := conf.secStart zone ≤ sec - 1 ∧ t.alloc (sec - 1) = false
  let prev := if t.count (sec - 1) = 0 then t.prev (sec - 1) else sec - 1
  let concat := count + (if ncon then t.count next else 0) + (if pcon then t.count prev else 0)
  let new := if pcon then prev else sec
  { count, next, ncon, pcon, prev, concat, new
    n := if pcon then some (msectPlistIndex (t.count prev))
      else if ncon then some (msectPlistIndex (t.count next)) else none
    l := msectPlistIndex concat
    whole := new = conf.secStart zone ∧ concat = conf.secEnd zone - conf.secStart zone }

namespace ZoneAct

variable (conf : ZoneConf) (zone sec : ℕ)

def freeLog : ZoneAct := fun z =>
  let p := z.freePlan conf zone sec
  acts
    [logMstat, logMsect sec, logMsectLast sec,
      if p.pcon then acts
        [if p.ncon then acts [logMsect p.next, logMsectLast p.next, logMsectRemove p.next] else nop,
          logMsect p.prev, logMsectLast p.prev]
      else if p.ncon then acts
        [logMsect p.next, logMsectLast p.next, logMsectInsertBefore p.next, logMsectRemove p.next]
      else nop,
      if p.whole then acts [logMsegm conf zone, logMsectRemove p.new]
      else if some p.l ≠ p.n then acts
        [if p.n.isSome then logMsectRemove p.new else nop, logMsectInsertBefore p.l]
      else nop] z

def freeWrite : ZoneAct := fun z =>
  let p := z.freePlan conf zone sec
  let last := sec + p.count - 1
  acts
    [set [.owner sec 0, .alloc sec false],
      if 1 < p.count then set [.alloc last false, .count last 0] else nop,
      if p.pcon then acts
        [if p.ncon then acts
            [msectEntryRemove p.next,
              set [.count sec (p.count + z.count p.next), .count p.next 0]] else nop,
          set [.count p.prev (z.count p.prev + (p.count + if p.ncon then z.count p.next else 0)),
            .prev (p.prev + p.concat - 1) p.prev, .count sec 0]]
      else if p.ncon then acts
        [msectInsertBefore p.next sec, msectEntryRemove p.next,
          set [.count sec (p.count + z.count p.next), .prev (sec + p.concat - 1) sec,
            .count p.next 0]]
      else if 1 < p.concat then set [.prev (sec + p.concat - 1) sec] else nop,
      if p.whole then acts [msectEntryRemove p.new, set [.inuse zone false]]
      else if some p.l ≠ p.n then acts
        [if p.n.isSome then msectEntryRemove p.new else nop, msectInsertBefore p.l p.new]
      else nop,
      set [.used (z.used - p.count)]] z

/-- `npc_shmz_free_sects`, after the log was restored. -/
def freeSects : ZoneAct :=
  acts [freeLog conf zone sec, logSubmit, freeWrite conf zone sec, logFinish]

end ZoneAct

namespace MZone

variable (conf : ZoneConf)

/-- The number of sections for a size in bytes. -/
def sectsOf (size : ℕ) : ℕ := ((if size = 0 then 1 else size) + (2 ^ 18 - 1)) / 2 ^ 18

/-- The loop of `npc_shmz_alloc`: everything that is written, and the section that is returned.
`grows` says for which segments the file can be made longer. -/
def allocLoop (grows : ℕ → Bool) (self : uint32) (count : ℕ) :
    ℕ → MZone → Option (List ZoneWrite × Option ℕ)
  | 0, _ => none
  | fuel + 1, z =>
    let n := msectPlistIndex count
    match z.findList conf count (16 - n) n with
    | none => none
    | some (some (list, sec)) =>
      some (ZoneAct.allocSects list sec count self z, some (sec + (z.count sec - count)))
    | some none =>
      match (List.range conf.segCount).find? fun n => !(z.valid n && z.inuse n) with
      | none => some ([], none)
      | some n =>
        if z.valid n = false ∧ grows n = false then some ([], none)
        else
          let ws := ZoneAct.growSegm conf n z
          (allocLoop grows self count fuel (z.writes ws)).map fun r => (ws ++ r.1, r.2)

/-- `npc_shmz_alloc`: what is written, and the first section of the block, if there is one. -/
def shmzAlloc (grows : ℕ → Bool) (self : uint32) (size : ℕ) (z : MZone) :
    Option (List ZoneWrite × Option ℕ) :=
  if conf.segSize < size then some ([], none)
  else allocLoop conf grows self (sectsOf size) (conf.segCount + 1) z

/-- The checks of `npc_shmz_free`: the segment and the section that a reference is freed for. -/
def freeTarget (self : uint32) (ref : ℕ) (z : MZone) : Option (ℕ × ℕ) :=
  let zone := ref / 2 ^ conf.segShift
  let zoff := ref % 2 ^ conf.segShift
  let sec := conf.secStart zone + zoff / 2 ^ 18
  if conf.segCount ≤ zone ∨ conf.segSize ≤ zoff ∨ zoff % 2 ^ 18 ≠ 0 ∨
    z.valid zone = false ∨ z.inuse zone = false ∨
    z.alloc sec = false ∨ z.owner sec ≠ self.toNat then none
  else some (zone, sec)

/-- The scan of `npc_shmz_clean` through the runs of a segment. -/
def cleanSegm (uid : uint32) (n : ℕ) : ℕ → ℕ → ℕ → MZone → Option MZone
  | 0, _, _, _ => none
  | fuel + 1, pre, sec, z =>
    if conf.secEnd n ≤ sec then some z
    else if z.alloc sec ∧ z.owner sec = uid.toNat then
      z.logRestore.bind fun z =>
        let z' := (ZoneAct.freeSects conf n sec).run z
        let sec' := if z'.count sec = 0 then pre else sec
        cleanSegm uid n fuel sec' (sec' + z'.count sec') z'
    else cleanSegm uid n fuel sec (sec + z.count sec) z

/-- `npc_shmz_clean`: all segments in use, from `n` on. -/
def shmzClean (uid : uint32) : ℕ → ℕ → MZone → Option MZone
  | 0, _, z => some z
  | k + 1, n, z =>
    if z.inuse n then
      (cleanSegm conf uid n (conf.secCount + 1) (conf.secStart n) (conf.secStart n) z).bind
        (shmzClean uid k (n + 1))
    else shmzClean uid k (n + 1) z

end MZone

/-- An allocated block: a run of sections and who allocated it. -/
@[ext]
structure Block where
  start : ℕ
  count : ℕ
  owner : uint32
  deriving DecidableEq

/-- A zone and the blocks that its users have allocated and not freed. -/
structure ZoneRun where
  zone : MZone
  blocks : Finset Block

/-- The blocks after an allocation that returned `ret`. -/
def granted (blocks : Finset Block) (count : ℕ) (self : uint32) : Option ℕ → Finset Block
  | none => blocks
  | some ret => insert ⟨ret, count, self⟩ blocks

/-- The calls of the users of a zone. -/
inductive ZoneCall
  | alloc (grows : ℕ → Bool) (self : uint32) (size : ℕ)
  | free (self : uint32) (ref : ℕ)
  | clean (uid : uint32)

namespace ZoneRun

variable (conf : ZoneConf)

/-- A zone that has been created: its first section, with the head, belongs to the creator. -/
def start (self : uint32) : ZoneRun := ⟨.init conf self, {⟨conf.secStart 0, 1, self⟩}⟩

/-- A call that runs to its end. The log is restored after the size has been checked. -/
def step (s : ZoneRun) : ZoneCall → Option ZoneRun
  | .alloc grows self size =>
    if conf.segSize < size then some s
    else
      s.zone.logRestore.bind fun z =>
        (z.shmzAlloc conf grows self size).map fun r =>
          ⟨z.writes r.1, granted s.blocks (MZone.sectsOf size) self r.2⟩
  | .free self ref =>
    match s.zone.freeTarget conf self ref with
    | none => some s
    | some (zone, sec) =>
      s.zone.logRestore.map fun z =>
        ⟨(ZoneAct.freeSects conf zone sec).run z, s.blocks.filter fun b => b.start ≠ sec⟩
  | .clean uid =>
    (s.zone.shmzClean conf uid conf.segCount 0).map fun z =>
      ⟨z, s.blocks.filter fun b => b.owner ≠ uid⟩

end ZoneRun

end AdaptivePlatform.Npc
