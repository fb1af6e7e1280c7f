import AdaptivePlatform.Npc.ZoneJournal
import AdaptivePlatform.Npc.ZoneLayout

/-!
# Edits of the section table

An operation changes the tags of one stretch of sections and moves runs between the
lists. Each of its writes keeps the lists whole and stays in the stretch, apart from
the links of other entries of the lists.
-/
namespace AdaptivePlatform.Npc

open Function Tilings LinkedRings
open Filed (Linked)

variable {t t' : ZoneTables} {F G : ℕ → ℕ → Prop} {lo hi s : ℕ}

/-- The tables `t'` come from `t`, whose lists hold `G`, by writes to the stretch from `lo` to `hi`
and to the lists, which now hold `F`. -/
structure Edited (t : ZoneTables) (G : ℕ → ℕ → Prop) (lo hi : ℕ) (t' : ZoneTables)
    (F : ℕ → ℕ → Prop) : Prop where
  same : Layout.Same t t' G lo hi
  filed : Filed t'.next t'.prev 16 msectPlistIndex F
  linked : ∀ a, Linked 16 F a → Linked 16 G a ∨ lo ≤ a ∧ a < hi
  unique : ∀ x r s, F x r → F x s → r = s
  sixteen_le : ∀ x s, F x s → 16 ≤ x
  inuse : t'.inuse = t.inuse
  valid : t'.valid = t.valid
  total : t'.total = t.total

/-- A write to the tags of the stretch, or to links of it that are in no list. -/
def TableWrite.Inside (F : ℕ → ℕ → Prop) (lo hi : ℕ) : TableWrite → Prop
  | .count sec _ => lo ≤ sec ∧ sec < hi
  | .alloc sec _ => lo ≤ sec ∧ sec < hi
  | .prev sec _ => (lo ≤ sec ∧ sec < hi) ∧ ¬ Linked 16 F sec
  | .owner sec _ => (lo ≤ sec ∧ sec < hi) ∧ ¬ Linked 16 F sec
  | .clear sec => (lo ≤ sec ∧ sec < hi) ∧ ¬ Linked 16 F sec
  | .used _ => True
  | _ => False

namespace Edited

variable {x y : ℕ}

section

variable (h : Edited t G lo hi t' F)

include h

theorem setLinks {sec : ℕ} (hsec : lo ≤ sec ∧ sec < hi) (hnot : ¬ Linked 16 F sec)
    (next prev : ℕ) :
    Edited t G lo hi { t' with next := update t'.next sec next, prev := update t'.prev sec prev }
      F := by
  constructor
  · constructor
    · exact h.same.tags
    · intro y hy hy'
      have hne : y ≠ sec := by
        rintro rfl
        exact hy hsec
      simp only [update_of_ne hne]
      exact h.same.links y hy hy'
  · apply h.filed.congr
    intro a ha
    have hne : a ≠ sec := by
      rintro rfl
      exact hnot ha
    simp [update_of_ne hne]
  · exact h.linked
  · exact h.unique
  · exact h.sixteen_le
  · exact h.inuse
  · exact h.valid
  · exact h.total

theorem setTags {sec : ℕ} (hsec : lo ≤ sec ∧ sec < hi) (count : ℕ) (alloc : Bool) :
    Edited t G lo hi
      { t' with count := update t'.count sec count, alloc := update t'.alloc sec alloc } F := by
  refine ⟨⟨fun y hy => ?_, h.same.links⟩, h.filed, h.linked, h.unique, h.sixteen_le, h.inuse,
    h.valid, h.total⟩
  have hne : y ≠ sec := by
    rintro rfl
    exact hy hsec
  simp only [update_of_ne hne]
  exact h.same.tags y hy

theorem write {w : TableWrite} (hw : w.Inside F lo hi) : Edited t G lo hi (t'.write w) F := by
  cases w with
  | count sec value =>
    have hset := h.setTags hw value (t'.alloc sec)
    rwa [update_eq_self] at hset
  | alloc sec flag =>
    have hset := h.setTags hw (t'.count sec) flag
    rwa [update_eq_self] at hset
  | prev sec value =>
    have hset := h.setLinks hw.1 hw.2 (t'.next sec) value
    rwa [update_eq_self] at hset
  | owner sec uid => exact h.setLinks hw.1 hw.2 _ _
  | clear sec => exact (h.setLinks hw.1 hw.2 0 0).setTags hw.1 0 false
  | used value =>
    exact ⟨⟨h.same.tags, h.same.links⟩, h.filed, h.linked, h.unique, h.sixteen_le, h.inuse,
      h.valid, h.total⟩
  | next sec value | valid seg | inuse seg flag | total value => exact hw.elim

theorem writes {ws : List TableWrite} (hws : ∀ w ∈ ws, w.Inside F lo hi) :
    Edited t G lo hi (t'.writes ws) F := by
  induction ws generalizing t' with
  | nil => exact h
  | cons w ws ih =>
    apply ih (h.write (hws w List.mem_cons_self))
    intro w' hw'
    exact hws w' (List.mem_cons_of_mem w hw')

theorem remove (hx : F x s) :
    Edited t G lo hi (t'.writes (t'.msectEntryRemove x)) fun y r => F y r ∧ y ≠ x := by
  have hlinked := h.filed.linked_next msectPlistIndex_lt hx
  have hlinked' := h.filed.linked_prev msectPlistIndex_lt (.inr ⟨s, hx⟩)
  constructor
  · constructor
    · exact h.same.tags
    · intro y hy hy'
      have hnot : ¬ Linked 16 F y := fun hl => (h.linked y hl).elim hy' hy
      have hne : y ≠ t'.next x := by
        rintro rfl
        exact hnot hlinked
      have hne' : y ≠ t'.prev x := by
        rintro rfl
        exact hnot hlinked'
      simp only [ZoneTables.writes, ZoneTables.msectEntryRemove, List.foldl, ZoneTables.write,
        update_of_ne hne, update_of_ne hne']
      exact h.same.links y hy hy'
  · exact h.filed.remove msectPlistIndex_lt hx fun r hr => h.unique x r s hr hx
  · rintro a (ha | ⟨r, hr, -⟩)
    · exact h.linked a (.inl ha)
    · exact h.linked a (.inr ⟨r, hr⟩)
  · intro y r s hr hs
    exact h.unique y r s hr.1 hs.1
  · intro y r hr
    exact h.sixteen_le y r hr.1
  · exact h.inuse
  · exact h.valid
  · exact h.total

theorem insertBefore
    (hy : y = msectPlistIndex s ∨ ∃ r, F y r ∧ msectPlistIndex r = msectPlistIndex s)
    (hx : 16 ≤ x) (hin : lo ≤ x ∧ x < hi) (hnew : ∀ r, ¬ F x r) :
    Edited t G lo hi (t'.writes (t'.msectInsertBefore y x)) fun a r => F a r ∨ a = x ∧ r = s := by
  have hlinked : Linked 16 F y := by
    rcases hy with rfl | ⟨r, hr, -⟩
    · exact .inl (msectPlistIndex_lt s)
    · exact .inr ⟨r, hr⟩
  have hlinked' := h.filed.linked_prev msectPlistIndex_lt hlinked
  constructor
  · constructor
    · exact h.same.tags
    · intro a ha ha'
      have hnot : ¬ Linked 16 F a := fun hl => (h.linked a hl).elim ha' ha
      have hne : a ≠ y := by
        rintro rfl
        exact hnot hlinked
      have hne' : a ≠ t'.prev y := by
        rintro rfl
        exact hnot hlinked'
      have hne'' : a ≠ x := by
        rintro rfl
        exact ha hin
      simp only [ZoneTables.writes, ZoneTables.msectInsertBefore, List.foldl, ZoneTables.write,
        update_of_ne hne, update_of_ne hne', update_of_ne hne'']
      exact h.same.links a ha ha'
  · exact h.filed.insert msectPlistIndex_lt hy hx hnew
  · rintro a (ha | ⟨r, hr | ⟨rfl, -⟩⟩)
    · exact h.linked a (.inl ha)
    · exact h.linked a (.inr ⟨r, hr⟩)
    · exact .inr hin
  · rintro a r s' (hr | ⟨rfl, rfl⟩) (hs | ⟨ha, rfl⟩)
    · exact h.unique a r s' hr hs
    · exact (hnew r (ha ▸ hr)).elim
    · exact (hnew s' hs).elim
    · rfl
  · rintro a r (hr | ⟨rfl, -⟩)
    · exact h.sixteen_le a r hr
    · exact hx
  · exact h.inuse
  · exact h.valid
  · exact h.total

theorem remove_prev (hx : F x s) (hy : ¬ Linked 16 F y) :
    (t'.writes (t'.msectEntryRemove x)).prev y = t'.prev y := by
  have hne : y ≠ t'.next x := by
    rintro rfl
    exact hy (h.filed.linked_next msectPlistIndex_lt hx)
  exact update_of_ne hne _ _

end

theorem insertBefore_prev {a : ℕ} (hy : Linked 16 F y) (ha : ¬ Linked 16 F a)
    (hne : a ≠ x) : (t'.writes (t'.msectInsertBefore y x)).prev a = t'.prev a := by
  have hne' : a ≠ y := by
    rintro rfl
    exact ha hy
  simp [ZoneTables.writes, ZoneTables.msectInsertBefore, ZoneTables.write, update_of_ne hne,
    update_of_ne hne']

end Edited

namespace ZoneAct

/-- The run `x` is moved from list `n` to list `l`. -/
def refile (n l x : ℕ) : ZoneAct :=
  if l ≠ n then acts [msectEntryRemove x, msectInsertBefore l x] else nop

variable (n l x : ℕ) (z : MZone)

@[simp] theorem count_refile : ((refile n l x).run z).count = z.count := by
  unfold refile
  split_ifs <;> rfl

@[simp] theorem alloc_refile : ((refile n l x).run z).alloc = z.alloc := by
  unfold refile
  split_ifs <;> rfl

end ZoneAct

namespace Edited

variable {z : MZone}

/-- A run changes its size from `s` to `s'` and is moved to the list for it. -/
theorem refile (h : Edited t G lo hi z.toZoneTables F) {x s : ℕ} (hx : F x s)
    (hin : lo ≤ x ∧ x < hi) (s' : ℕ) :
    Edited t G lo hi
      ((ZoneAct.refile (msectPlistIndex s) (msectPlistIndex s') x).run z).toZoneTables
      fun y r => F y r ∧ y ≠ x ∨ y = x ∧ r = s' := by
  unfold ZoneAct.refile
  split_ifs with hl
  · have hremove := h.remove hx
    exact hremove.insertBefore (.inl rfl) (h.sixteen_le x s hx) hin fun r hr => hr.2 rfl
  · rw [not_not] at hl
    refine ⟨h.same, h.filed.resize hx (fun r hr => h.unique x r s hr hx) hl, ?_, ?_, ?_, h.inuse,
      h.valid, h.total⟩
    · rintro a (ha | ⟨r, ⟨hr, -⟩ | ⟨rfl, -⟩⟩)
      · exact h.linked a (.inl ha)
      · exact h.linked a (.inr ⟨r, hr⟩)
      · exact .inr hin
    · rintro a r r' (hr | ⟨rfl, rfl⟩) (hr' | ⟨ha, rfl⟩)
      · exact h.unique a r r' hr.1 hr'.1
      · exact (hr.2 ha).elim
      · exact (hr'.2 rfl).elim
      · rfl
    · rintro a r (hr | ⟨rfl, -⟩)
      · exact h.sixteen_le a r hr.1
      · exact h.sixteen_le a s hx

theorem refile_prev (h : Edited t G lo hi z.toZoneTables F) {n x y s s' : ℕ} (hx : F x s)
    (hy : ¬ Linked 16 F y) :
    ((ZoneAct.refile n (msectPlistIndex s') x).run z).prev y = z.prev y := by
  unfold ZoneAct.refile
  split_ifs with hl
  · have hne : y ≠ x := by
      rintro rfl
      exact hy (.inr ⟨s, hx⟩)
    have hy' : ¬ Linked 16 (fun a r => F a r ∧ a ≠ x) y := by
      rintro (hlt | ⟨r, hr, -⟩)
      · exact hy (.inl hlt)
      · exact hy (.inr ⟨r, hr⟩)
    simp only [ZoneAct.run_acts_cons, ZoneAct.run_acts_nil, ZoneAct.msectEntryRemove,
      ZoneAct.msectInsertBefore, ZoneAct.run_tab]
    rw [insertBefore_prev (.inl (msectPlistIndex_lt s')) hy' hne, h.remove_prev hx hy]
  · rfl

end Edited

namespace Layout

variable {conf : ZoneConf} {k : ℕ} {rows : ℕ → List (Piece Use)} {as mid mid' bs : List (Piece Use)}

theorem edited (h : Layout conf t k rows) (lo hi : ℕ) :
    Edited t (FreeRun conf k rows) lo hi t (FreeRun conf k rows) where
  same := ⟨fun _ _ => ⟨rfl, rfl⟩, fun _ _ _ => ⟨rfl, rfl⟩⟩
  filed := h.filed
  linked _ ha := .inl ha
  unique _ _ _ := h.freeRun_unique
  sixteen_le _ _ := h.sixteen_le_freeRun
  inuse := rfl
  valid := rfl
  total := rfl

/-- A stretch is replaced by an operation that edits it. -/
theorem replace_edited (h : Layout conf t k rows) (hs : s < k) (hrow : rows s = as ++ mid ++ bs)
    (hlo : lo = conf.secStart s + Tilings.total as) (hmid : 0 < Tilings.total mid)
    (hsize : Tilings.total mid' = Tilings.total mid) (hpos : ∀ q ∈ mid', 0 < q.size)
    {F : ℕ → ℕ → Prop}
    (hedit : Edited t (FreeRun conf k rows) lo (lo + Tilings.total mid) t' F)
    (hF : ∀ x r, F x r ↔ FreeRun conf k rows x r ∧ (x, ⟨r, .free⟩) ∉ place lo mid ∨
      (x, ⟨r, .free⟩) ∈ place lo mid')
    (htag : ∀ x p, (x, p) ∈ place lo mid' → Tagged t' (conf.secEnd s) x p)
    (hapart : Apart (as ++ mid' ++ bs)) :
    Layout conf t' k (update rows s (as ++ mid' ++ bs)) := by
  apply h.replace hs hrow hlo hmid hsize hpos hedit.same htag hapart
  · apply hedit.filed.iff
    intro x r
    rw [hF, ← h.freeRun_stretch hs hrow hlo]
    tauto
  · exact hedit.inuse
  · exact hedit.valid
  · exact hedit.total

end Layout

end AdaptivePlatform.Npc
