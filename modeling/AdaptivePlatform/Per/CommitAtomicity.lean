import AdaptivePlatform.Foundations.Runs
import AdaptivePlatform.Per.KvWalog

/-!
# What a crash during a save leaves behind

`_SyncWalogToMain` writes the modified pages to the Walog, completes it with a tail
and copies it to the Main files. `OpenSystem` is meant to repeat the copying when it
finds a complete Walog. The numbers that the pages have in Main are known to
`PManagerWalogID` only, which is empty in a new process, so nothing is copied and
the store is what the Main files held at the crash.
-/
namespace AdaptivePlatform.Per

open PagedFiles Runs ManagerWalogID
open List hiding modify
open Option hiding max_eq_left max_eq_right
open KvDisk (write writes)
open PKvSystem (copyWalogToMain loadCachePage syncWalogToMain)

variable {σ : Type*} {fmt : KvFormat σ}

namespace KvDisk

/-- The pages of the Main library, as `LoadCachePage` delivers them when no page is registered. -/
def mainContent (fmt : KvFormat σ) (d : KvDisk σ) (pageID : ℕ) : Option (List σ) :=
  if pageID = 0 then none else (d.loadMainPage fmt pageID).filter fmt.checkPageCRC32

/-- What the store holds after `OpenSystem`. -/
def recovered (fmt : KvFormat σ) (d : KvDisk σ) : Option (ℕ → Option (List σ)) :=
  (openSystem fmt d).map fun s => s.loadCachePage fmt

/-- A Walog file before its tail is written: whole pages, none of which looks like a tail. -/
structure NoTail (fmt : KvFormat σ) (walog : List σ) : Prop where
  dvd : fmt.pageLen ∣ walog.length
  plain : fmt.pageLen = 1 → ∀ sector ∈ walog, fmt.isPhTail sector = false

theorem NoTail.nil : NoTail fmt [] := ⟨by simp, by simp⟩

variable {walog : List σ} {d d' : KvDisk σ}

theorem NoTail.resize (h : NoTail fmt walog) {n : ℕ} (hn : fmt.pageLen ∣ n) :
    NoTail fmt (PagedFiles.resize fmt.zero walog n) := by
  refine ⟨by simpa using hn, fun hone sector hs => ?_⟩
  rcases mem_resize hs with rfl | hs
  · exact fmt.isPhTail_zero
  · exact h.plain hone sector hs

theorem NoTail.writePage {page : List σ} (h : NoTail fmt walog) {pageID : ℕ} (hid : pageID ≠ 0)
    (hpage : fmt.Fits page) :
    NoTail fmt (PagedFiles.writePage fmt.zero fmt.pageLen walog pageID page) := by
  constructor
  · rw [length_writePage (Nat.one_le_iff_ne_zero.2 hid) hpage.1]
    rcases le_total walog.length (pageID * fmt.pageLen) with hle | hle
    · rw [max_eq_right hle]
      exact Dvd.intro_left pageID rfl
    · rw [max_eq_left hle]
      exact h.dvd
  · intro hone sector hs
    rcases mem_overwrite hs with hs | hs
    · split_ifs at hs with hlen
      · exact (h.resize (Dvd.intro_left pageID rfl)).plain hone sector hs
      · exact h.plain hone sector hs
    · exact hpage.2 hone sector hs

theorem NoTail.walogReadTail (h : NoTail fmt d.walog) {tail : PPageTailData}
    (ht : d.walogReadTail fmt = some tail) : tail = {} := by
  unfold KvDisk.walogReadTail at ht
  by_cases hempty : d.walog.length = 0
  · rw [if_pos hempty] at ht
    exact (some.inj ht).symm
  rw [if_neg hempty] at ht
  have hsize : fileSizeByPage fmt d.walog = d.walog.length := Nat.div_mul_cancel h.dvd
  by_cases hone : fmt.pageLen = 1
  · rw [hsize, if_pos hone, if_neg (by simp)] at ht
    -- pages are one sector long: the last sector is a page
    cases hlast : d.walog.getLast? with
    | none => simp [hlast] at ht
    | some sector =>
      have hplain := h.plain hone sector (mem_of_getLast? hlast)
      simp [hlast, hplain] at ht
  · rw [hsize, if_neg hone, if_pos (by omega)] at ht
    cases ht

theorem loadMainPage_congr (h : d'.main = d.main) (pageID : ℕ) :
    d'.loadMainPage fmt pageID = d.loadMainPage fmt pageID := by
  simp only [loadMainPage, loadReddPage, readMain, h]

theorem mainContent_congr (h : d'.main = d.main) : d'.mainContent fmt = d.mainContent fmt := by
  funext pageID
  simp [mainContent, loadMainPage_congr h]

theorem readPageLen_congr (h : d'.main = d.main) : d'.readPageLen fmt = d.readPageLen fmt := by
  simp only [readPageLen, loadReddPage, readMain, h]

end KvDisk

namespace PKvSystem

variable {s : PKvSystem σ}

/-- With no page registered, every page that is not in the cache comes from Main. -/
theorem loadFilePage_of_not_mem {disk : KvDisk σ} {pageID : ℕ} (h : pageID ∉ s.vecMainPageID) :
    s.loadFilePage fmt disk pageID = ((disk.loadMainPage fmt pageID).filter fmt.checkPageCRC32).map
      fun page => { source := .main, mainPageID := pageID, cache := page } := by
  have hid : findWalogID s.vecMainPageID pageID = 0 := by simp [findWalogID, idxOf?_eq_none_iff.2 h]
  simp only [loadFilePage, hid]
  cases disk.loadMainPage fmt pageID with
  | none => rfl
  | some page =>
    by_cases hcrc : fmt.checkPageCRC32 page
    all_goals simp [Option.filter]

theorem saveWalogPage_of_nil (h : s.vecMainPageID = []) (walogPageID : ℕ) :
    s.saveWalogPage fmt walogPageID = [] := by
  cases walogPageID with
  | zero => simp [saveWalogPage, findMainID]
  | succ i => simp [saveWalogPage, findMainID, h]

end PKvSystem

namespace KvDisk

/-- `OpenSystem` does not change the Main files, whatever it finds in the Walog. -/
theorem main_of_copyWalogToMain (fmt : KvFormat σ) {s : PKvSystem σ} (h : s.vecMainPageID = []) :
    (s.disk.writes fmt (s.copyWalogToMain fmt)).main = s.disk.main := by
  unfold copyWalogToMain
  cases s.disk.walogReadTail fmt with
  | none => rfl
  | some tail =>
    by_cases hno : tail.pageSaveCount = 0 ∨ tail.optTime = 0
    · simp only [if_pos hno]
      rfl
    · have hnil : (List.range tail.pageSaveCount).flatMap
          (fun i => s.saveWalogPage fmt (i + 1)) = [] := by
        rw [flatMap_eq_nil_iff]
        exact fun i _ => PKvSystem.saveWalogPage_of_nil h (i + 1)
      simp only [if_neg hno, hnil]
      rfl

variable {d d' : KvDisk σ} {w : Write σ} {ws : List (Write σ)} {ids : List ℕ} {pageID : ℕ}

theorem loadCachePage_opened {disk : KvDisk σ} (hmain : disk.main = d.main) :
    loadCachePage fmt ⟨disk, [], List.replicate fmt.maxCacheCount {}⟩ = d.mainContent fmt := by
  funext pageID
  by_cases hid : pageID = 0
  · simp [loadCachePage, mainContent, hid]
  · have hnone : (List.replicate fmt.maxCacheCount ({} : PMemoryPage σ)).find?
        (fun page => page.mainPageID = pageID) = none := by
      rw [find?_eq_none]
      intro page hpage
      rw [eq_of_mem_replicate hpage]
      simpa using fun e => hid e.symm
    simp only [loadCachePage, if_neg hid, hnone, mainContent,
      PKvSystem.loadFilePage_of_not_mem (s := ⟨disk, [], _⟩) not_mem_nil,
      loadMainPage_congr hmain, Option.map_map]
    exact map_id_apply

/-- After `OpenSystem` the store holds what the Main files hold, unless the Walog was saved on
exit. -/
theorem recovered_eq (h : ∀ tail, d.walogReadTail fmt = some tail → tail.syncModel = 0) :
    d.recovered fmt = if d.readPageLen fmt then some (d.mainContent fmt) else none := by
  unfold recovered openSystem
  cases hlen : d.readPageLen fmt with
  | false => simp
  | true =>
    cases ht : d.walogReadTail fmt with
    | none =>
      simp only [Bool.true_eq_false, if_false, map_some, if_true, some.injEq]
      exact loadCachePage_opened rfl
    | some tail =>
      simp only [Bool.true_eq_false, if_false, if_pos (h tail ht), map_some, if_true, some.injEq]
      apply loadCachePage_opened
      exact main_of_copyWalogToMain fmt (s := ⟨d, [], List.replicate fmt.maxCacheCount {}⟩) rfl

/-- A write to the Walog before its tail. -/
def Plain (fmt : KvFormat σ) : Write σ → Prop
  | .walogPage pageID page => pageID ≠ 0 ∧ fmt.Fits page
  | .walogResize size => fmt.pageLen ∣ size
  | .walogTail _ => False
  | .mainPage _ _ _ => False

theorem write_plain (h : NoTail fmt d.walog) (hw : Plain fmt w) :
    NoTail fmt (d.write fmt w).walog ∧ (d.write fmt w).main = d.main := by
  cases w with
  | walogPage pageID page => exact ⟨h.writePage hw.1 hw.2, rfl⟩
  | walogResize size => exact ⟨h.resize hw, rfl⟩
  | walogTail tail | mainPage reddIndex pageID page => exact hw.elim

theorem writes_plain (h : NoTail fmt d.walog) (hws : ∀ w ∈ ws, Plain fmt w) :
    NoTail fmt (d.writes fmt ws).walog ∧ (d.writes fmt ws).main = d.main := by
  induction ws generalizing d with
  | nil => exact ⟨h, rfl⟩
  | cons w ws ih =>
    obtain ⟨hwalog, hmain⟩ := write_plain h (hws w mem_cons_self)
    obtain ⟨hwalog', hmain'⟩ := ih hwalog fun w' hw' => hws w' (mem_cons_of_mem _ hw')
    exact ⟨hwalog', hmain'.trans hmain⟩

theorem write_walogTail (h : NoTail fmt d.walog) (tail : PPageTailData) :
    (d.write fmt (.walogTail tail)).walog = d.walog ++ [fmt.ofTail tail] := by
  have hsize : fileSizeByPage fmt d.walog = d.walog.length := Nat.div_mul_cancel h.dvd
  simp [write, overwrite, hsize]

/-- A file that ends with a tail is read as having this tail, or none. -/
theorem walogReadTail_append {pages : List σ} {tail tail' : PPageTailData}
    (hd : d.walog = pages ++ [fmt.ofTail tail]) (h : d.walogReadTail fmt = some tail') :
    tail' = tail := by
  unfold walogReadTail at h
  rw [hd] at h
  simp only [length_append, length_singleton, getLast?_append, getLast?_singleton, some_or,
    fmt.isPhTail_ofTail, fmt.tailData_ofTail] at h
  by_cases hsize : pages.length + 1 ≠
      fileSizeByPage fmt (pages ++ [fmt.ofTail tail]) + if fmt.pageLen = 1 then 0 else 1
  · rw [if_pos hsize] at h
    exact absurd h (some_ne_none tail').symm
  · rw [if_neg hsize] at h
    exact (some.inj h).symm

/-- A write of the copying: a page of the given numbers to Main, or the end of the Walog. -/
def Copying (fmt : KvFormat σ) (ids : List ℕ) : Write σ → Prop
  | .walogPage _ _ => False
  | .walogResize size => size = 0
  | .walogTail _ => False
  | .mainPage _ pageID page => pageID ≠ 0 ∧ pageID ∈ ids ∧ page.length = fmt.pageLen

/-- What the copying leaves of the files: the Walog is the same or empty, there are as many Main
files, none of them shorter, and the pages with other numbers are the same. -/
structure Copied (fmt : KvFormat σ) (ids : List ℕ) (d d' : KvDisk σ) : Prop where
  walog : d'.walog = d.walog ∨ d'.walog = []
  count : d'.main.length = d.main.length
  file : ∀ (i : ℕ) (f f' : List σ), d.main[i]? = some f → d'.main[i]? = some f' →
    f.length ≤ f'.length ∧ ∀ pageID, pageID ≠ 0 → pageID ∉ ids →
      readPage fmt.zero fmt.pageLen f' pageID = readPage fmt.zero fmt.pageLen f pageID

theorem Copied.refl (ids : List ℕ) (d : KvDisk σ) : Copied fmt ids d d := by
  refine ⟨.inl rfl, rfl, fun i f f' hf hf' => ?_⟩
  rw [hf] at hf'
  cases hf'
  exact ⟨le_rfl, fun _ _ _ => rfl⟩

theorem Copied.write (h : Copied fmt ids d d') (hw : Copying fmt ids w) :
    Copied fmt ids d (d'.write fmt w) := by
  cases w with
  | walogPage pageID page | walogTail tail => exact hw.elim
  | walogResize size =>
    refine ⟨.inr ?_, h.count, h.file⟩
    rw [show size = 0 from hw]
    rfl
  | mainPage reddIndex pageID page =>
    obtain ⟨hid, hmem, hlen⟩ := hw
    refine ⟨h.walog, by simp [write, h.count], fun i f f' hf hf' => ?_⟩
    simp only [write, getElem?_modify] at hf'
    obtain ⟨g, hg, rfl⟩ := map_eq_some_iff.1 hf'
    obtain ⟨hle, hsame⟩ := h.file i f g hf hg
    by_cases hi : reddIndex = i
    · -- the page is written to this copy
      simp only [if_pos hi, length_writePage (Nat.one_le_iff_ne_zero.2 hid) hlen]
      refine ⟨le_max_of_le_left hle, fun pageID' hid' hnot => ?_⟩
      rw [readPage_writePage_of_ne (Nat.one_le_iff_ne_zero.2 hid)
        (Nat.one_le_iff_ne_zero.2 hid') (fun e => hnot (e ▸ hmem)) hlen]
      exact hsame pageID' hid' hnot
    · simp only [if_neg hi]
      exact ⟨hle, hsame⟩

theorem Copied.writes (h : Copied fmt ids d d') (hws : ∀ w ∈ ws, Copying fmt ids w) :
    Copied fmt ids d (d'.writes fmt ws) := by
  induction ws generalizing d' with
  | nil => exact h
  | cons w ws ih =>
    exact ih (h.write (hws w mem_cons_self)) fun w' hw' =>
      hws w' (mem_cons_of_mem _ hw')

theorem readMain_pageLen (d : KvDisk σ) (i pageID : ℕ) :
    d.readMain fmt i pageID fmt.pageLen = (d.main[i]?).bind fun file =>
      if file.length = 0 then none else some (readPage fmt.zero fmt.pageLen file pageID) := by
  simp only [readMain]
  cases d.main[i]? <;> rfl

/-- What is loaded from Main is a page of one of the copies. -/
theorem loadMainPage_eq_some {page : List σ} (h : d.loadMainPage fmt pageID = some page) :
    ∃ (i : ℕ) (file : List σ), d.main[i]? = some file ∧ file.length ≠ 0 ∧
      readPage fmt.zero fmt.pageLen file pageID = page := by
  obtain ⟨i, hi⟩ : ∃ i, d.readMain fmt i pageID fmt.pageLen = some page := by
    unfold loadMainPage at h
    split_ifs at h with hmany
    · unfold loadReddPage at h
      split_ifs at h with h0 hm
      obtain ⟨i, -, hi⟩ := bind_eq_some_iff.1 h
      exact ⟨i, hi⟩
    · exact ⟨0, h⟩
  rw [readMain_pageLen] at hi
  obtain ⟨file, hfile, hread⟩ := bind_eq_some_iff.1 hi
  split_ifs at hread with hlen
  exact ⟨i, file, hfile, hlen, some.inj hread⟩

/-- The Main files were all written to, or none was. -/
def Created (d : KvDisk σ) : Prop := (∀ file ∈ d.main, file = []) ∨ ∀ file ∈ d.main, file ≠ []

/-- The copying does not change what is loaded for the other page numbers. -/
theorem Copied.mainContent (h : Copied fmt ids d d') (hcreated : d.Created) (hnot : pageID ∉ ids) :
    d'.mainContent fmt pageID = d.mainContent fmt pageID := by
  by_cases hid : pageID = 0
  · simp [KvDisk.mainContent, hid]
  simp only [KvDisk.mainContent, if_neg hid]
  rcases hcreated with hempty | hfull
  · -- nothing was written before: no copy has a page that passes the check
    have hnone : d.loadMainPage fmt pageID = none := by
      rw [eq_none_iff_forall_ne_some]
      intro page hpage
      obtain ⟨i, file, hfile, hlen, -⟩ := loadMainPage_eq_some hpage
      exact hlen (hempty file (mem_of_getElem? hfile) ▸ rfl)
    rw [hnone, filter_none, eq_none_iff_forall_ne_some]
    intro page hpage
    obtain ⟨hpage, hcrc⟩ := filter_eq_some_iff.1 hpage
    obtain ⟨i, file, hfile, -, rfl⟩ := loadMainPage_eq_some hpage
    have hlt : i < d.main.length := by
      rw [← h.count]
      exact (List.getElem?_eq_some_iff.1 hfile).1
    have hold : d.main[i]? = some [] := by rw [getElem?_eq_getElem hlt, hempty _ (getElem_mem hlt)]
    rw [(h.file i [] file hold hfile).2 pageID hid hnot, readPage_nil,
      fmt.checkPageCRC32_zero] at hcrc
    cases hcrc
  · have hread : ∀ i,
        d'.readMain fmt i pageID fmt.pageLen = d.readMain fmt i pageID fmt.pageLen := by
      intro i
      rw [readMain_pageLen, readMain_pageLen]
      rcases lt_or_ge i d.main.length with hi | hi
      · have hi' : i < d'.main.length := by rw [h.count]; exact hi
        obtain ⟨hle, hsame⟩ := h.file i _ _ (getElem?_eq_getElem hi) (getElem?_eq_getElem hi')
        have hne := hfull _ (getElem_mem hi)
        rw [← length_pos_iff] at hne
        rw [getElem?_eq_getElem hi, getElem?_eq_getElem hi', bind_some,
          bind_some, if_neg (by omega), if_neg (by omega), hsame pageID hid hnot]
      · rw [getElem?_eq_none hi, getElem?_eq_none (by rw [h.count]; exact hi)]
    simp [loadMainPage, loadReddPage, hread, h.count]

end KvDisk

open KvDisk (Copied Created NoTail Plain mainContent mainContent_congr recovered_eq writes_plain)

variable {ids : List ℕ} {mainID : ℕ}

theorem ManagerWalogID.findWalogID_eq_zero_iff : findWalogID ids mainID = 0 ↔ mainID ∉ ids := by
  unfold findWalogID
  cases h : ids.idxOf? mainID with
  | none => simpa using idxOf?_eq_none_iff.1 h
  | some i =>
    have hmem : mainID ∈ ids := by
      by_contra hnot
      rw [idxOf?_eq_none_iff.2 hnot] at h
      exact absurd h (some_ne_none i).symm
    simpa using hmem

theorem ManagerWalogID.mem_regMainPage {a : ℕ} (ha : a ∈ ids ∨ a = mainID) :
    a ∈ regMainPage ids mainID := by
  unfold regMainPage
  split_ifs with h
  · simpa using ha
  · rw [findWalogID_eq_zero_iff, not_not] at h
    rcases ha with ha | rfl
    · exact ha
    · exact h

namespace PKvSystem

/-- The cached page can be written to the Walog, and is what Main holds if it is not registered. -/
structure PageOk (fmt : KvFormat σ) (disk : KvDisk σ) (ids : List ℕ) (page : PMemoryPage σ) :
    Prop where
  fits : page.walogPageID ≠ 0 → page.isWriteRef = true ∨ page.source ≠ .main → fmt.Fits page.cache
  registered : page.source = .walog → page.mainPageID ∈ ids
  clean : page.mainPageID ≠ 0 → page.mainPageID ∉ ids →
    disk.mainContent fmt page.mainPageID = some page.cache

/-- The store at the start, after `OpenSystem`, `NewSystem` or a save: the Walog is empty, no page
is registered, and the cache has clean pages only. -/
structure Started (fmt : KvFormat σ) (s : PKvSystem σ) : Prop where
  walog : s.disk.walog = []
  ids : s.vecMainPageID = []
  created : s.disk.Created
  cache : ∀ page ∈ s.vecCachePage, page = {} ∨ page.source = .main ∧ page.isWriteRef = false ∧
    (page.mainPageID ≠ 0 → s.disk.mainContent fmt page.mainPageID = some page.cache)

/-- The store between two saves. -/
structure Working (fmt : KvFormat σ) (s : PKvSystem σ) : Prop where
  noTail : NoTail fmt s.disk.walog
  created : s.disk.Created
  cache : ∀ page ∈ s.vecCachePage, PageOk fmt s.disk s.vecMainPageID page

variable {d disk : KvDisk σ} {s t : PKvSystem σ} {slot mainPageID k : ℕ} {page : PMemoryPage σ}
  {now : uint64}

/-- `OpenSystem` starts the store, unless the Walog was saved on exit or its tail says that there
is nothing to copy. -/
theorem started_openSystem (hopen : openSystem fmt d = some s) (hcreated : d.Created)
    (htail : ∀ tail, d.walogReadTail fmt = some tail →
      tail.syncModel = 0 ∧ (d.walog ≠ [] → tail.pageSaveCount ≠ 0 ∧ tail.optTime ≠ 0)) :
    s.Started fmt := by
  have hcache : ∀ page ∈ List.replicate fmt.maxCacheCount ({} : PMemoryPage σ), page = {} :=
    fun page hpage => eq_of_mem_replicate hpage
  unfold openSystem at hopen
  split_ifs at hopen with hlen
  cases ht : d.walogReadTail fmt with
  | none =>
    simp only [ht] at hopen
    cases hopen
    exact ⟨rfl, rfl, hcreated, fun page hpage => .inl (hcache page hpage)⟩
  | some tail =>
    obtain ⟨hmodel, hcopy⟩ := htail tail ht
    simp only [ht, if_pos hmodel] at hopen
    cases hopen
    have hmain := KvDisk.main_of_copyWalogToMain fmt
      (s := ⟨d, [], List.replicate fmt.maxCacheCount {}⟩) rfl
    refine ⟨?_, rfl, ?_, fun page hpage => .inl (hcache page hpage)⟩
    · simp only [copyWalogToMain, ht]
      by_cases hempty : d.walog = []
      · split_ifs with hno
        · exact hempty
        · simp [writes, write, resize]
      · obtain ⟨hcount, htime⟩ := hcopy hempty
        rw [if_neg (not_or.2 ⟨hcount, htime⟩)]
        simp [writes, write, resize]
    · rwa [Created, hmain]

theorem Started.working (h : s.Started fmt) : s.Working fmt := by
  refine ⟨h.walog ▸ KvDisk.NoTail.nil, h.created, fun page hpage => ?_⟩
  rcases h.cache page hpage with rfl | ⟨hsource, href, hclean⟩
  · exact ⟨fun hid => absurd rfl hid, fun hs => by simp at hs, fun hid => absurd rfl hid⟩
  · refine ⟨fun _ hsave => ?_, fun hs => ?_, fun hid _ => hclean hid⟩
    · rw [href, hsource] at hsave
      simp at hsave
    · rw [hsource] at hs
      cases hs

theorem PageOk.congr {disk disk' : KvDisk σ} {ids ids' : List ℕ} {page : PMemoryPage σ}
    (h : PageOk fmt disk ids page) (hmain : disk'.main = disk.main) (hids : ∀ a ∈ ids, a ∈ ids') :
    PageOk fmt disk' ids' page where
  fits := h.fits
  registered hs := hids _ (h.registered hs)
  clean hid hnot := by
    rw [mainContent_congr hmain]
    exact h.clean hid fun hmem => hnot (hids _ hmem)

/-- The state after a step: the Main files are the same, and one slot has a new page. -/
theorem Working.set (h : s.Working fmt) (hmain : disk.main = s.disk.main)
    (hwalog : NoTail fmt disk.walog) (hids : ∀ a ∈ s.vecMainPageID, a ∈ ids)
    (hpage : PageOk fmt disk ids page) : Working fmt ⟨disk, ids, s.vecCachePage.set slot page⟩ := by
  refine ⟨hwalog, ?_, fun page' hmem => ?_⟩
  · have hcreated := h.created
    rwa [Created, ← hmain] at hcreated
  · rcases mem_or_eq_of_mem_set hmem with hmem | rfl
    · exact (h.cache page' hmem).congr hmain hids
    · exact hpage

theorem PageOk.tryToSaveColdPage {cold : PMemoryPage σ} (h : PageOk fmt disk ids cold) :
    ∀ w ∈ s.tryToSaveColdPage fmt cold, Plain fmt w := by
  intro w hw
  unfold PKvSystem.tryToSaveColdPage at hw
  split_ifs at hw with hskip hzero
  · simp at hw
  · simp at hw
  · rw [mem_singleton.1 hw]
    refine ⟨hzero, h.fits hzero ?_⟩
    by_cases href : cold.isWriteRef = true
    · exact .inl href
    · right
      intro hsource
      exact hskip ⟨by simpa using href, .inl (by rw [hsource]; decide)⟩

theorem pageOk_loadFilePage (hid : mainPageID ≠ 0) (hwalog : NoTail fmt disk.walog)
    (h : s.loadFilePage fmt disk mainPageID = some page) :
    PageOk fmt disk s.vecMainPageID page := by
  by_cases hmem : mainPageID ∈ s.vecMainPageID
  · obtain ⟨hfound, -⟩ := filter_eq_some_iff.1 h
    rcases or_eq_some_iff.1 hfound with hfrom | ⟨-, hfrom⟩
    · split_ifs at hfrom with hin
      obtain ⟨cache, hcache, rfl⟩ := map_eq_some_iff.1 hfrom
      unfold KvDisk.loadWalogPage at hcache
      split_ifs at hcache
      refine ⟨fun _ _ => ?_, fun _ => hmem, fun _ hnot => absurd hmem hnot⟩
      rw [← some.inj hcache]
      refine ⟨length_readPage _ _ _, fun hone sector hs => ?_⟩
      rcases mem_read hs with rfl | hs
      · exact fmt.isPhTail_zero
      · exact hwalog.plain hone sector hs
    · obtain ⟨cache, -, rfl⟩ := map_eq_some_iff.1 hfrom
      exact ⟨fun _ hsave => by simp at hsave, fun hs => by simp at hs,
        fun _ hnot => absurd hmem hnot⟩
  · rw [loadFilePage_of_not_mem hmem] at h
    obtain ⟨cache, hcache, rfl⟩ := map_eq_some_iff.1 h
    refine ⟨fun hw => absurd rfl hw, fun hs => by simp at hs, fun _ _ => ?_⟩
    rw [mainContent, if_neg hid, hcache]

section

variable (h : s.Working fmt)

include h

theorem Working.loadInto (ht : s.loadInto fmt slot mainPageID = some t) : t.Working fmt := by
  unfold PKvSystem.loadInto at ht
  split_ifs at ht with hid
  cases hfind : s.findCachePage mainPageID with
  | some j =>
    rw [hfind] at ht
    cases ht
    exact h
  | none =>
    cases hcold : s.vecCachePage[slot]? with
    | none => simp [hfind, hcold] at ht
    | some cold =>
      simp only [hfind, hcold, map_eq_some_iff] at ht
      obtain ⟨page, hpage, rfl⟩ := ht
      have hok := h.cache cold (mem_of_getElem? hcold)
      obtain ⟨hwalog, hmain⟩ := writes_plain h.noTail (hok.tryToSaveColdPage (s := s))
      exact h.set hmain hwalog (fun _ ha => ha) (pageOk_loadFilePage hid hwalog hpage)

theorem Working.moveCachePageToWalog {page : List σ} (hpage : fmt.Fits page)
    (ht : s.moveCachePageToWalog mainPageID page = some t) : t.Working fmt := by
  obtain ⟨slot, hslot, ht⟩ := bind_eq_some_iff.1 ht
  obtain ⟨old, hold, rfl⟩ := map_eq_some_iff.1 ht
  have hok := h.cache old (mem_of_getElem? hold)
  by_cases hsource : old.source = .walog
  · rw [if_pos hsource]
    have hmem := hok.registered hsource
    exact h.set rfl h.noTail (fun _ ha => ha)
      ⟨fun _ _ => hpage, fun _ => hmem, fun _ hnot => absurd hmem hnot⟩
  · rw [if_neg hsource]
    have hmem : mainPageID ∈ regMainPage s.vecMainPageID mainPageID := mem_regMainPage (.inr rfl)
    exact h.set rfl h.noTail (fun a ha => mem_regMainPage (.inl ha))
      ⟨fun _ _ => hpage, fun _ => hmem, fun _ hnot => absurd hmem hnot⟩

theorem Working.newMainPage {page : List σ} (hpage : fmt.Fits page)
    (ht : s.newMainPage fmt slot mainPageID page = some t) : t.Working fmt := by
  unfold PKvSystem.newMainPage at ht
  split_ifs at ht with hused
  obtain ⟨cold, hcold, rfl⟩ := map_eq_some_iff.1 ht
  have hok := h.cache cold (mem_of_getElem? hcold)
  obtain ⟨hwalog, hmain⟩ := writes_plain h.noTail (hok.tryToSaveColdPage (s := s))
  have hmem : mainPageID ∈ regMainPage s.vecMainPageID mainPageID := mem_regMainPage (.inr rfl)
  exact h.set hmain (hwalog.resize (Dvd.intro_left _ rfl))
    (fun a ha => mem_regMainPage (.inl ha))
    ⟨fun _ _ => hpage, fun _ => hmem, fun _ hnot => absurd hmem hnot⟩

theorem Working.step {a : PageStep σ} (ht : s.step fmt a = some t) : t.Working fmt := by
  cases a with
  | load slot mainPageID => exact h.loadInto ht
  | modify slot mainPageID page =>
    simp only [PKvSystem.step] at ht
    split_ifs at ht with hpage
    obtain ⟨u, hu, ht⟩ := bind_eq_some_iff.1 ht
    exact (h.loadInto hu).moveCachePageToWalog hpage ht
  | new slot mainPageID page =>
    simp only [PKvSystem.step] at ht
    split_ifs at ht with hpage
    exact h.newMainPage hpage ht

theorem Working.exec {as : List (PageStep σ)} (ht : Runs.exec (PKvSystem.step fmt) s as = some t) :
    t.Working fmt :=
  invariant_of_along (fun _ _ _ hs _ => hs.step) h (along_true _ _ as) ht

theorem Working.loadCachePage_of_not_mem {pageID : ℕ} (hnot : pageID ∉ s.vecMainPageID) :
    s.loadCachePage fmt pageID = s.disk.mainContent fmt pageID := by
  by_cases hid : pageID = 0
  · simp [loadCachePage, mainContent, hid]
  simp only [loadCachePage, if_neg hid]
  cases hfind : s.vecCachePage.find? fun page => page.mainPageID = pageID with
  | some page =>
    have heq : page.mainPageID = pageID := by simpa using find?_some hfind
    have hclean := (h.cache page (mem_of_find?_eq_some hfind)).clean
    rw [heq] at hclean
    exact (hclean hid hnot).symm
  | none =>
    simp only [loadFilePage_of_not_mem hnot, mainContent, if_neg hid, Option.map_map]
    exact map_id_apply

theorem Working.walogSaveCachePage : ∀ w ∈ s.walogSaveCachePage, Plain fmt w := by
  intro w hw
  obtain ⟨page, hpage, rfl⟩ := List.mem_map.1 hw
  obtain ⟨hmem, hsave⟩ := mem_filter.1 hpage
  obtain ⟨hid, hsave⟩ :
      page.walogPageID ≠ 0 ∧ (page.isWriteRef = true ∨ page.source = .default) := by
    simpa using hsave
  refine ⟨hid, (h.cache page hmem).fits hid ?_⟩
  rcases hsave with href | hsource
  · exact .inl href
  · exact .inr (by rw [hsource]; decide)

/-- Up to the tail the Walog is incomplete and Main is not touched. -/
theorem Working.saveCacheToWalog (now : uint64) (hne : s.saveCacheToWalog fmt now ≠ []) :
    ∃ ws tail, s.saveCacheToWalog fmt now = ws ++ [.walogTail tail] ∧
      (∀ w ∈ ws, Plain fmt w) ∧ tail.syncModel = 0 := by
  have hplain := h.walogSaveCachePage
  unfold PKvSystem.saveCacheToWalog at hne ⊢
  cases hws : s.walogSaveCachePage with
  | nil => simp [hws] at hne
  | cons w ws =>
    rw [hws] at hplain
    have hnoTail := (writes_plain h.noTail hplain).1
    refine ⟨(w :: ws) ++ (if ((s.disk.writes fmt (w :: ws)).walog.length = 1) then
      [.walogResize ((s.disk.writes fmt (w :: ws)).walog.length + 1)] else []),
      { pageSaveCount := (s.disk.writes fmt (w :: ws)).walogPageTotal fmt, optTime := now },
      ?_, ?_, rfl⟩
    · simp [KvDisk.walogWriteTail]
    · intro w' hw'
      rcases mem_append.1 hw' with hw' | hw'
      · exact hplain w' hw'
      · split_ifs at hw' with hone
        · rw [mem_singleton.1 hw']
          -- a file of one sector has pages of one sector
          have hlen : fmt.pageLen ∣ 1 := hone ▸ hnoTail.dvd
          rw [Plain, Nat.dvd_one.1 hlen]
          exact one_dvd _
        · simp at hw'

end

theorem copying_copyWalogToMain (s : PKvSystem σ) :
    ∀ w ∈ s.copyWalogToMain fmt, KvDisk.Copying fmt s.vecMainPageID w := by
  intro w hw
  unfold copyWalogToMain at hw
  cases htail : s.disk.walogReadTail fmt with
  | none => simp [htail] at hw
  | some tail =>
    simp only [htail] at hw
    split_ifs at hw with hno
    · simp at hw
    rcases mem_append.1 hw with hw | hw
    · obtain ⟨i, -, hw⟩ := mem_flatMap.1 hw
      unfold PKvSystem.saveWalogPage at hw
      simp only at hw
      split_ifs at hw with hid
      · simp at hw
      cases hpage : s.disk.loadWalogPage fmt (i + 1) with
      | none => simp [hpage] at hw
      | some page =>
        simp only [hpage] at hw
        obtain ⟨r, -, rfl⟩ := List.mem_map.1 hw
        unfold KvDisk.loadWalogPage at hpage
        split_ifs at hpage with hempty
        refine ⟨hid, ?_, ?_⟩
        · simp only [findMainID] at hid ⊢
          rcases lt_or_ge i s.vecMainPageID.length with hi | hi
          · rw [getD_eq_getElem _ _ hi]
            exact getElem_mem hi
          · exact absurd (getD_eq_default _ _ hi) hid
        · rw [← some.inj hpage, length_readPage]
    · rw [mem_singleton.1 hw]
      rfl

section

variable (fmt : KvFormat σ) (s : PKvSystem σ) (now : uint64) (k : ℕ)

/-- The files when the process stops after `k` writes of a save. -/
def crash : KvDisk σ := s.disk.writes fmt ((s.syncWalogToMain fmt now).take k)

/-- The tail of the Walog is among the first `k` writes. -/
def TailWritten : Prop := s.saveCacheToWalog fmt now ≠ [] ∧ (s.saveCacheToWalog fmt now).length ≤ k

/-- After a crash the store is as before the save or has all modified pages, and it has all of
them once the tail is written. -/
def CommitAtomic : Prop :=
  ((s.crash fmt now k).recovered fmt = s.disk.recovered fmt ∨
    (s.crash fmt now k).recovered fmt = some (s.loadCachePage fmt)) ∧
  (s.TailWritten fmt now k → (s.crash fmt now k).recovered fmt = some (s.loadCachePage fmt))

/-- The Main files can be opened and already hold every modified page. -/
def MainComplete (d : KvDisk σ) : Prop :=
  d.readPageLen fmt = true ∧
    ∀ pageID ∈ s.vecMainPageID, d.mainContent fmt pageID = s.loadCachePage fmt pageID

end

/-- A crash before the tail is written leaves an incomplete Walog and the Main files as they
were. -/
theorem Working.crash_of_not_tailWritten (h : s.Working fmt) (hk : ¬ s.TailWritten fmt now k) :
    NoTail fmt (s.crash fmt now k).walog ∧ (s.crash fmt now k).main = s.disk.main := by
  unfold PKvSystem.crash syncWalogToMain
  by_cases hne : s.saveCacheToWalog fmt now = []
  · -- nothing is saved, and an incomplete Walog is not copied
    have hcopy : s.copyWalogToMain fmt = [] := by
      unfold copyWalogToMain
      cases htail : s.disk.walogReadTail fmt with
      | none => rfl
      | some tail => simp [h.noTail.walogReadTail htail]
    simp only [hne, nil_append]
    have hdisk : s.disk.writes fmt [] = s.disk := rfl
    rw [hdisk, hcopy, take_nil]
    exact ⟨h.noTail, rfl⟩
  · obtain ⟨ws, tail, hsaved, hplain, -⟩ := h.saveCacheToWalog now hne
    have hlt : k < (s.saveCacheToWalog fmt now).length := not_le.1 fun hle => hk ⟨hne, hle⟩
    rw [take_append_of_le_length hlt.le, hsaved]
    rw [hsaved, length_append, length_singleton] at hlt
    rw [take_append_of_le_length (by omega)]
    exact writes_plain h.noTail fun w hw => hplain w (mem_of_mem_take hw)

/-- After the tail only the copying is left: the Walog has the tail or is empty already, and in
Main only modified pages change. -/
theorem Working.crash_of_tailWritten (h : s.Working fmt) (hk : s.TailWritten fmt now k) :
    (∀ tail, (s.crash fmt now k).walogReadTail fmt = some tail → tail.syncModel = 0) ∧
      ∃ d : KvDisk σ, d.main = s.disk.main ∧ Copied fmt s.vecMainPageID d (s.crash fmt now k) := by
  obtain ⟨ws, tail, hsaved, hplain, hmodel⟩ := h.saveCacheToWalog now hk.1
  obtain ⟨hnoTail, hmain⟩ := writes_plain h.noTail hplain
  set d := s.disk.writes fmt (s.saveCacheToWalog fmt now) with hd
  have hd_eq : d = (s.disk.writes fmt ws).write fmt (.walogTail tail) := by
    rw [hd, hsaved, writes, foldl_append]
    rfl
  have hwalog : d.walog = (s.disk.writes fmt ws).walog ++ [fmt.ofTail tail] := by
    rw [hd_eq, KvDisk.write_walogTail hnoTail]
  have hcrash : s.crash fmt now k = d.writes fmt (({ s with disk := d }.copyWalogToMain fmt).take
      (k - (s.saveCacheToWalog fmt now).length)) := by
    unfold PKvSystem.crash syncWalogToMain
    rw [take_append, take_of_length_le hk.2, writes, foldl_append]
    rfl
  have hcopied : Copied fmt s.vecMainPageID d (s.crash fmt now k) := by
    rw [hcrash]
    exact (KvDisk.Copied.refl _ d).writes fun w hw =>
      copying_copyWalogToMain { s with disk := d } w (mem_of_mem_take hw)
  refine ⟨fun tail' htail' => ?_, d, by rw [hd_eq]; exact hmain, hcopied⟩
  rcases hcopied.walog with heq | hempty
  · rw [KvDisk.walogReadTail_append (heq.trans hwalog) htail', hmodel]
  · have hnil : NoTail fmt (s.crash fmt now k).walog := by
      rw [hempty]
      exact KvDisk.NoTail.nil
    rw [hnil.walogReadTail htail']

theorem Working.recovered_disk (h : s.Working fmt) (hwalog : NoTail fmt d.walog)
    (hmain : d.main = s.disk.main) : d.recovered fmt = s.disk.recovered fmt := by
  rw [recovered_eq fun tail ht => by rw [hwalog.walogReadTail ht],
    recovered_eq fun tail ht => by rw [h.noTail.walogReadTail ht],
    KvDisk.readPageLen_congr hmain, mainContent_congr hmain]

/-- Once the tail is written, the store has all modified pages after a crash only if the Main
files have them. -/
theorem Working.recovered_crash_iff (h : s.Working fmt) (hk : s.TailWritten fmt now k) :
    (s.crash fmt now k).recovered fmt = some (s.loadCachePage fmt) ↔
      s.MainComplete fmt (s.crash fmt now k) := by
  obtain ⟨hmodel, d, hmain, hcopied⟩ := h.crash_of_tailWritten hk
  have hcreated : d.Created := by
    have hcreated := h.created
    rwa [Created, ← hmain] at hcreated
  rw [recovered_eq hmodel]
  constructor
  · intro heq
    split_ifs at heq with hlen
    exact ⟨hlen, fun pageID _ => congrFun (some.inj heq) pageID⟩
  · rintro ⟨hlen, hpages⟩
    rw [if_pos hlen]
    congr 1
    funext pageID
    by_cases hmem : pageID ∈ s.vecMainPageID
    · exact hpages pageID hmem
    · rw [hcopied.mainContent hcreated hmem, mainContent_congr hmain,
        h.loadCachePage_of_not_mem hmem]

/-- Sectors that are told apart by what they hold. -/
inductive Sector
  | zero
  | page (pageID content : ℕ)
  | tail (data : PPageTailData)
  deriving DecidableEq

/-- Pages of one sector, a cache of two pages, no redundancy. -/
def sectorFormat : KvFormat Sector where
  pageLen := 1
  pageLen_pos := Nat.one_pos
  maxCacheCount := 2
  reddCountM := 0
  zero := .zero
  isKvPage
    | .page _ _ => true
    | _ => false
  headPageID
    | .page pageID _ => pageID
    | _ => 0
  checkPageCRC32 page := page.any fun
    | .page _ _ => true
    | _ => false
  calculateCrc32 _ := 1
  isPhTail
    | .tail _ => true
    | _ => false
  tailData
    | .tail data => some data
    | _ => none
  ofTail := .tail
  isPhTail_zero := rfl
  checkPageCRC32_zero := rfl
  isPhTail_ofTail _ := rfl
  tailData_ofTail _ := rfl

def twoPages : PKvSystem Sector :=
  { disk := { main := [[.page 1 10, .page 2 20]], walog := [] }
    vecMainPageID := []
    vecCachePage := [{}, {}] }

def bothModified : PKvSystem Sector :=
  { twoPages with
    vecMainPageID := [1, 2]
    vecCachePage :=
      [{ source := .walog, mainPageID := 1, walogPageID := 1, isWriteRef := true,
         cache := [.page 1 11] },
       { source := .walog, mainPageID := 2, walogPageID := 2, isWriteRef := true,
         cache := [.page 2 21] }] }

end PKvSystem

end AdaptivePlatform.Per
