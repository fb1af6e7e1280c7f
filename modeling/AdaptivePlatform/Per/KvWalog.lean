import AdaptivePlatform.Foundations.Bytes
import AdaptivePlatform.Foundations.PagedFiles

/-!
# The write-ahead library of the key-value store

A store lives in the Main file (and its copies, when M-of-N redundancy is
configured) and in the Walog file. Pages that are modified move to the Walog:
`PManagerWalogID` gives them a page number there, and the cache writes them to the
Walog file when their slot is needed or when the store is saved. Saving completes
the Walog with a tail and then copies it to the Main files page by page.

Files are counted in sectors; a page is a whole number of sectors, as the files are
opened for direct access. The CRC of a page is taken to be up to date whenever the
page is modified, `UpdatePageCRC32` is not a step of its own.
-/
namespace AdaptivePlatform.Per

open PagedFiles

/-- The fields of `PPageTailData` that are read back. -/
structure PPageTailData where
  pageSaveCount : ℕ := 0
  optTime : uint64 := 0
  syncModel : uint32 := 0
  deriving DecidableEq, Repr

/-- How sectors and pages are to be read, and the sizes of the configuration. -/
structure KvFormat (σ : Type*) where
  /-- Sectors of a page. -/
  pageLen : ℕ
  pageLen_pos : 0 < pageLen
  maxCacheCount : ℕ
  reddCountM : ℕ
  zero : σ
  /-- The sector begins with the head of a page: its magic word and a page length above 0. -/
  isKvPage : σ → Bool
  /-- The page number in that head. -/
  headPageID : σ → ℕ
  checkPageCRC32 : List σ → Bool
  calculateCrc32 : List σ → uint32
  /-- The sector has the magic word of a tail. -/
  isPhTail : σ → Bool
  /-- What a tail says, if its own CRC is right. -/
  tailData : σ → Option PPageTailData
  ofTail : PPageTailData → σ
  isPhTail_zero : isPhTail zero = false
  checkPageCRC32_zero : checkPageCRC32 (List.replicate pageLen zero) = false
  isPhTail_ofTail : ∀ t, isPhTail (ofTail t) = true
  tailData_ofTail : ∀ t, tailData (ofTail t) = some t

/-- The files of a store. There are as many Main files as the configuration has copies. -/
structure KvDisk (σ : Type*) where
  main : List (List σ)
  walog : List σ

/-- What is written to the files at one time. -/
inductive Write (σ : Type*)
  | walogPage (pageID : ℕ) (page : List σ)
  | walogResize (size : ℕ)
  | walogTail (tail : PPageTailData)
  | mainPage (reddIndex pageID : ℕ) (page : List σ)

namespace KvDisk

variable {σ : Type*} (fmt : KvFormat σ)

/-- `PFileOpt_Page::GetFileSizeByPage`, in sectors. -/
def fileSizeByPage (file : List σ) : ℕ := file.length / fmt.pageLen * fmt.pageLen

variable (d : KvDisk σ) (pageID : ℕ)

def write : Write σ → KvDisk σ
  | .walogPage pageID page => { d with walog := writePage fmt.zero fmt.pageLen d.walog pageID page }
  | .walogResize size => { d with walog := resize fmt.zero d.walog size }
  | .walogTail tail =>
    { d with walog := overwrite d.walog (fileSizeByPage fmt d.walog) [fmt.ofTail tail] }
  | .mainPage reddIndex pageID page =>
    { d with main := d.main.modify reddIndex fun file =>
        writePage fmt.zero fmt.pageLen file pageID page }

def writes (ws : List (Write σ)) : KvDisk σ := ws.foldl (write fmt) d

/-- `_ReadFilePage` of a Main file: `len` sectors from the start of a page. -/
def readMain (reddIndex pageID len : ℕ) : Option (List σ) :=
  match d.main[reddIndex]? with
  | none => none
  | some file =>
    if file.length = 0 then none else some (read fmt.zero file ((pageID - 1) * fmt.pageLen) len)

/-- `PSelectMofN::_SelectGoal`: the first copy that has the hash with the most votes. The hash 0
does not count, and of several hashes with as many votes the smallest wins. -/
def selectGoal (hashes : List uint32) : Option ℕ :=
  let candidates := ((hashes.filter (· ≠ 0)).dedup.map BitVec.toNat).insertionSort (· ≤ ·)
  let best := candidates.foldl (fun (acc : ℕ × Option ℕ) hash =>
    let votes := (hashes.map BitVec.toNat).count hash
    if acc.1 < votes then (votes, some hash) else acc) (0, none)
  if best.1 < fmt.reddCountM then none
  else best.2.bind fun hash => (hashes.map BitVec.toNat).idxOf? hash

def loadReddPage (pageID len : ℕ) : Option (List σ) :=
  if d.main.length = 0 then none
  else if d.main.length < fmt.reddCountM then none
  else
    let hashes := (List.range d.main.length).map fun i =>
      ((readMain fmt d i pageID len).map fmt.calculateCrc32).getD 0
    (selectGoal fmt hashes).bind fun i => readMain fmt d i pageID len

/-- `LoadFilePage` for the Main library. -/
def loadMainPage : Option (List σ) :=
  if 1 < d.main.length then loadReddPage fmt d pageID fmt.pageLen
  else readMain fmt d 0 pageID fmt.pageLen

/-- `_ReadPageLen` finds a page length. -/
def readPageLen : Bool := ((loadReddPage fmt d 1 1).bind List.head?).any fmt.isKvPage

/-- `LoadFilePage` for the Walog library. -/
def loadWalogPage : Option (List σ) :=
  if d.walog.length = 0 then none else some (readPage fmt.zero fmt.pageLen d.walog pageID)

/-- `GetWalogPageTotal`. When a page is one sector the tail is not counted as a page. -/
def walogPageTotal : ℕ :=
  let total := d.walog.length / fmt.pageLen
  if fmt.pageLen = 1 ∧ d.walog.getLast?.any fmt.isPhTail then total - 1 else total

/-- `WalogReadTail`. An empty file counts as a tail of no pages. -/
def walogReadTail : Option PPageTailData :=
  if d.walog.length = 0 then some {}
  else if d.walog.length ≠ fileSizeByPage fmt d.walog + (if fmt.pageLen = 1 then 0 else 1) then none
  else match d.walog.getLast? with
    | none => none
    | some sector => if fmt.isPhTail sector then fmt.tailData sector else none

/-- `WalogWriteTail`: a file of one sector is made longer first. -/
def walogWriteTail (tail : PPageTailData) : List (Write σ) :=
  (if d.walog.length = 1 then [.walogResize (d.walog.length + 1)] else []) ++ [.walogTail tail]

def walogReadAllMainPageID : List ℕ :=
  match walogReadTail fmt d with
  | none => []
  | some tail => (List.range tail.pageSaveCount).map fun i =>
      ((readPage fmt.zero fmt.pageLen d.walog (i + 1)).head?.map fmt.headPageID).getD 0

/-- `SaveMainPage`: the page in every copy. -/
def saveMainPage (page : List σ) : List (Write σ) :=
  (List.range d.main.length).map fun i => .mainPage i pageID page

end KvDisk

namespace ManagerWalogID

variable (ids : List ℕ) (mainID : ℕ)

/-- `FindWalogID`, 0 for a page that is not registered. -/
def findWalogID : ℕ :=
  match ids.idxOf? mainID with
  | none => 0
  | some i => i + 1

def regMainPage : List ℕ := if findWalogID ids mainID = 0 then ids ++ [mainID] else ids

/-- `FindMainID`, 0 for a number that is not in use. -/
def findMainID : ℕ → ℕ
  | 0 => 0
  | i + 1 => ids.getD i 0

end ManagerWalogID

open ManagerWalogID

inductive ECacheSource
  | default
  | main
  | walog
  deriving DecidableEq, Repr

/-- A slot of the cache; one with page number 0 holds no page. -/
structure PMemoryPage (σ : Type*) where
  source : ECacheSource := .default
  mainPageID : ℕ := 0
  walogPageID : ℕ := 0
  isWriteRef : Bool := false
  cache : List σ := []
  deriving DecidableEq

/-- The store as it runs: its files, the page numbers of `PManagerWalogID`, and the cache. -/
structure PKvSystem (σ : Type*) where
  disk : KvDisk σ
  vecMainPageID : List ℕ
  vecCachePage : List (PMemoryPage σ)

namespace PKvSystem

variable {σ : Type*} (fmt : KvFormat σ) (s : PKvSystem σ) (disk : KvDisk σ) (mainPageID : ℕ)

/-- The page that `LoadCachePage` reads when it is not in the cache: from the Walog if it is
registered and the Walog file has it, else from Main. The disk is the one after the slot was
freed, the number of Walog pages was taken before. -/
def loadFilePage : Option (PMemoryPage σ) :=
  let walogPageID := findWalogID s.vecMainPageID mainPageID
  let fromWalog : Option (PMemoryPage σ) :=
    if walogPageID ≠ 0 ∧ walogPageID ≤ s.disk.walogPageTotal fmt then
      (disk.loadWalogPage fmt walogPageID).map fun page =>
        { source := .walog, mainPageID, walogPageID, cache := page }
    else none
  let found := fromWalog.or ((disk.loadMainPage fmt mainPageID).map fun page =>
    { source := .main, mainPageID, walogPageID, cache := page })
  found.filter fun page => fmt.checkPageCRC32 page.cache

/-- The slot that `FindCachePage` finds. -/
def findCachePage : Option ℕ := s.vecCachePage.findIdx? fun page => page.mainPageID = mainPageID

/-- What `LoadCachePage` delivers for a page number. -/
def loadCachePage : Option (List σ) :=
  if mainPageID = 0 then none
  else match s.vecCachePage.find? fun page => page.mainPageID = mainPageID with
    | some page => some page.cache
    | none => (s.loadFilePage fmt s.disk mainPageID).map PMemoryPage.cache

/-- `_TryToSaveColdPage`: what is written before a slot is used for another page. -/
def tryToSaveColdPage (page : PMemoryPage σ) : List (Write σ) :=
  if page.isWriteRef = false ∧ (page.source ≠ .walog ∨
      s.disk.walogPageTotal fmt < page.walogPageID) then []
  else if page.walogPageID = 0 then []
  else [.walogPage page.walogPageID page.cache]

/-- `WalogSaveCachePage(false)`. -/
def walogSaveCachePage : List (Write σ) :=
  (s.vecCachePage.filter fun page => page.walogPageID ≠ 0 ∧
      (page.isWriteRef ∨ page.source = .default)).map
    fun page => .walogPage page.walogPageID page.cache

/-- `_SaveCacheToWalog(0, false)`: the modified pages, and the tail if there were any. -/
def saveCacheToWalog (now : uint64) : List (Write σ) :=
  match s.walogSaveCachePage with
  | [] => []
  | w :: ws =>
    let disk := s.disk.writes fmt (w :: ws)
    (w :: ws) ++ disk.walogWriteTail
      { pageSaveCount := disk.walogPageTotal fmt, optTime := now, syncModel := 0 }

/-- `_SaveWalogPage`, for the page that `LoadWalogFilePage` loads. -/
def saveWalogPage (walogPageID : ℕ) : List (Write σ) :=
  let mainPageID := findMainID s.vecMainPageID walogPageID
  if mainPageID = 0 then []
  else match s.disk.loadWalogPage fmt walogPageID with
    | none => []
    | some page => s.disk.saveMainPage mainPageID page

/-- `_SyncWalogToMain(false)`: the Walog is copied to the Main files and emptied, if it is
complete and not empty. -/
def copyWalogToMain : List (Write σ) :=
  match s.disk.walogReadTail fmt with
  | none => []
  | some tail =>
    if tail.pageSaveCount = 0 ∨ tail.optTime = 0 then []
    else (List.range tail.pageSaveCount).flatMap (fun i => s.saveWalogPage fmt (i + 1)) ++
      [.walogResize 0]

/-- `_SyncWalogToMain(true)`: everything that it writes, in order. -/
def syncWalogToMain (now : uint64) : List (Write σ) :=
  let saved := s.saveCacheToWalog fmt now
  saved ++ ({ s with disk := s.disk.writes fmt saved }).copyWalogToMain fmt

variable (slot mainPageID : ℕ) (page : List σ)

/-- `LoadCachePage`: a page that is not in the cache is read into a slot that is free or is freed
for it. No state is given where the page cannot be read. -/
def loadInto : Option (PKvSystem σ) :=
  if mainPageID = 0 then none
  else match s.findCachePage mainPageID with
    | some _ => some s
    | none => match s.vecCachePage[slot]? with
      | none => none
      | some cold =>
        let disk := s.disk.writes fmt (s.tryToSaveColdPage fmt cold)
        (s.loadFilePage fmt disk mainPageID).map fun page =>
          { s with disk, vecCachePage := s.vecCachePage.set slot page }

/-- `MoveCachePageToWalog`, and the new content of the page. -/
def moveCachePageToWalog : Option (PKvSystem σ) :=
  (s.findCachePage mainPageID).bind fun slot => (s.vecCachePage[slot]?).map fun old =>
    if old.source = .walog then
      { s with
        vecCachePage := s.vecCachePage.set slot { old with isWriteRef := true, cache := page } }
    else
      let ids := regMainPage s.vecMainPageID mainPageID
      { s with
        vecMainPageID := ids
        vecCachePage := s.vecCachePage.set slot
          { source := .walog, mainPageID, walogPageID := findWalogID ids mainPageID,
            isWriteRef := true, cache := page } }

/-- `_newMainPage`: the Walog file grows by a page, and the page gets the next Main number, which
is not in use. -/
def newMainPage : Option (PKvSystem σ) :=
  if mainPageID = 0 ∨ mainPageID ∈ s.vecMainPageID ∨ (s.findCachePage mainPageID).isSome then none
  else (s.vecCachePage[slot]?).map fun cold =>
    let disk := s.disk.writes fmt (s.tryToSaveColdPage fmt cold)
    let ids := regMainPage s.vecMainPageID mainPageID
    { disk := disk.write fmt (.walogResize ((disk.walog.length / fmt.pageLen + 1) * fmt.pageLen))
      vecMainPageID := ids
      vecCachePage := s.vecCachePage.set slot
        { source := .walog, mainPageID, walogPageID := findWalogID ids mainPageID,
          isWriteRef := true, cache := page } }

end PKvSystem

/-- A page as it stands in the cache. When pages are one sector long, its control data exclude
that it has the magic word of a tail. -/
def KvFormat.Fits {σ : Type*} (fmt : KvFormat σ) (page : List σ) : Prop :=
  page.length = fmt.pageLen ∧ (fmt.pageLen = 1 → ∀ sector ∈ page, fmt.isPhTail sector = false)

instance {σ : Type*} (fmt : KvFormat σ) (page : List σ) : Decidable (fmt.Fits page) :=
  inferInstanceAs (Decidable (_ ∧ _))

/-- What happens to pages between two saves. -/
inductive PageStep (σ : Type*)
  | load (slot mainPageID : ℕ)
  | modify (slot mainPageID : ℕ) (page : List σ)
  | new (slot mainPageID : ℕ) (page : List σ)

def PKvSystem.step {σ : Type*} (fmt : KvFormat σ) (s : PKvSystem σ) :
    PageStep σ → Option (PKvSystem σ)
  | .load slot mainPageID => s.loadInto fmt slot mainPageID
  | .modify slot mainPageID page =>
    if fmt.Fits page then
      (s.loadInto fmt slot mainPageID).bind fun t => t.moveCachePageToWalog mainPageID page
    else none
  | .new slot mainPageID page =>
    if fmt.Fits page then s.newMainPage fmt slot mainPageID page else none

/-- `OpenSystem` in a new process. A Walog that was saved on exit (`syncModel` not 0) is kept, an
incomplete one is thrown away, and a complete one is copied to the Main files. -/
def openSystem {σ : Type*} (fmt : KvFormat σ) (d : KvDisk σ) : Option (PKvSystem σ) :=
  let s : PKvSystem σ :=
    { disk := d, vecMainPageID := [], vecCachePage := List.replicate fmt.maxCacheCount {} }
  if d.readPageLen fmt = false then none
  else match d.walogReadTail fmt with
    | none => some { s with disk := d.write fmt (.walogResize 0) }
    | some tail =>
      if tail.syncModel = 0 then some { s with disk := d.writes fmt (s.copyWalogToMain fmt) }
      else some { s with vecMainPageID := (d.walogReadAllMainPageID fmt).foldl regMainPage [] }

end AdaptivePlatform.Per
