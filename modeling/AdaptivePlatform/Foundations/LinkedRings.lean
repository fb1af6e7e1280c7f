import Mathlib.Tactic

/-!
# Doubly linked rings in arrays

The arrays `next` and `prev` hold several rings. A ring belongs to a sentinel and
runs through its entries back to the sentinel. The sentinels are the indices below
a bound, the entries are not.
-/
namespace AdaptivePlatform.LinkedRings

open Function List

/-- `b` follows `a`, in both directions. -/
def Joined (next prev : ℕ → ℕ) (a b : ℕ) : Prop := next a = b ∧ prev b = a

/-- The ring of the sentinel `h` runs through the entries `xs`. -/
def Ring (next prev : ℕ → ℕ) (h : ℕ) (xs : List ℕ) : Prop :=
  List.IsChain (Joined next prev) (h :: xs ++ [h])

variable {next prev next' prev' : ℕ → ℕ} {h x y : ℕ} {as bs l : List ℕ}

/-- A chain depends on the successors of all but its last entry and on the predecessors of all
but its first. -/
theorem chain_congr (h : List.IsChain (Joined next prev) l)
    (hn : ∀ a ∈ l.dropLast, next' a = next a) (hp : ∀ b ∈ l.tail, prev' b = prev b) :
    List.IsChain (Joined next' prev') l := by
  induction l with
  | nil => exact .nil
  | cons a l ih =>
    cases l with
    | nil => exact .singleton a
    | cons b l =>
      rw [isChain_cons_cons] at h ⊢
      obtain ⟨⟨hab, hba⟩, hl⟩ := h
      refine ⟨⟨?_, ?_⟩, ih hl (fun c hc => ?_) (fun c hc => ?_)⟩
      · rw [hn a (by simp), hab]
      · rw [hp b (by simp), hba]
      · apply hn
        simp [hc]
      · apply hp
        exact mem_cons_of_mem b hc

theorem Ring.congr {xs : List ℕ} (hr : Ring next prev h xs) (hn : ∀ a ∈ h :: xs, next' a = next a)
    (hp : ∀ b ∈ h :: xs, prev' b = prev b) : Ring next' prev' h xs := by
  apply chain_congr hr
  · intro a ha
    rw [dropLast_concat] at ha
    exact hn a ha
  · intro b hb
    apply hp
    simpa [or_comm] using hb

/-- The ring cut between two entries, or an entry and the sentinel: what is before, with the
sentinel, ends with the predecessor of `y`, and `y` is what follows. -/
theorem Ring.split_before (hr : Ring next prev h (as ++ bs)) (hy : (bs ++ [h]).head? = some y) :
    ∃ P R, h :: as = P ++ [prev y] ∧ bs ++ [h] = y :: R ∧
      List.IsChain (Joined next prev) (P ++ [prev y]) ∧
      List.IsChain (Joined next prev) (y :: R) := by
  obtain ⟨P, p, hP⟩ : ∃ P p, h :: as = P ++ [p] :=
    ⟨(h :: as).dropLast, (h :: as).getLast (by simp), (dropLast_append_getLast _).symm⟩
  obtain ⟨R, hR⟩ : ∃ R, bs ++ [h] = y :: R := head?_eq_some_iff.1 hy
  have hlist : h :: (as ++ bs) ++ [h] = P ++ p :: y :: R := by
    calc h :: (as ++ bs) ++ [h] = (h :: as) ++ (bs ++ [h]) := by simp
      _ = P ++ p :: y :: R := by rw [hP, hR]; simp
  rw [Ring, hlist, isChain_append_cons_cons] at hr
  obtain ⟨hfront, ⟨-, hprev⟩, hback⟩ := hr
  exact ⟨P, R, by rw [hprev, hP], hR, by rw [hprev]; exact hfront, hback⟩

/-- The ring cut where `x` stands. -/
theorem Ring.split (hr : Ring next prev h (as ++ x :: bs)) :
    ∃ P R, h :: as = P ++ [prev x] ∧ bs ++ [h] = next x :: R ∧
      List.IsChain (Joined next prev) (P ++ [prev x]) ∧
      List.IsChain (Joined next prev) (next x :: R) := by
  obtain ⟨P, R', hP, hR', hfront, hback⟩ := hr.split_before (y := x) rfl
  obtain ⟨n, R, hR⟩ := exists_cons_of_ne_nil (show bs ++ [h] ≠ [] by simp)
  rw [← hR', cons_append, hR, isChain_cons_cons] at hback
  obtain ⟨⟨rfl, -⟩, hback⟩ := hback
  exact ⟨P, R, hP, hR, hfront, hback⟩

/-- Two chains that share no entry but perhaps their ends, joined by a link that is set. -/
theorem chain_join {P R : List ℕ} {p n : ℕ} (hfront : List.IsChain (Joined next prev) (P ++ [p]))
    (hback : List.IsChain (Joined next prev) (n :: R)) (hpn : next' p = n) (hnp : prev' n = p)
    (hn : ∀ a ∈ P ++ (n :: R).dropLast, next' a = next a)
    (hp : ∀ b ∈ (P ++ [p]).tail ++ R, prev' b = prev b) :
    List.IsChain (Joined next' prev') (P ++ p :: n :: R) := by
  rw [isChain_append_cons_cons]
  refine ⟨chain_congr hfront (fun a ha => ?_) fun b hb => ?_, ⟨hpn, hnp⟩,
    chain_congr hback (fun a ha => ?_) fun b hb => ?_⟩
  · rw [dropLast_concat] at ha
    exact hn a (mem_append_left _ ha)
  · exact hp b (mem_append_left _ hb)
  · exact hn a (mem_append_right _ ha)
  · exact hp b (mem_append_right _ hb)

theorem Ring.remove (hr : Ring next prev h (as ++ x :: bs))
    (hnodup : (h :: (as ++ x :: bs)).Nodup) :
    Ring (update next (prev x) (next x)) (update prev (next x) (prev x)) h (as ++ bs) := by
  obtain ⟨P, R, hP, hR, hfront, hback⟩ := hr.split
  have hlist : h :: (as ++ bs) ++ [h] = P ++ prev x :: next x :: R := by
    calc h :: (as ++ bs) ++ [h] = (h :: as) ++ (bs ++ [h]) := by simp
      _ = P ++ prev x :: next x :: R := by rw [hP, hR]; simp
  rw [Ring, hlist]
  apply chain_join hfront hback (by simp) (by simp)
  · intro a ha
    -- only the predecessor of `x` has a new successor
    rw [update_of_ne]
    rintro rfl
    grind
  · intro b hb
    rw [update_of_ne]
    rintro rfl
    cases bs with
    | nil | cons c cs => grind

/-- A new entry is put before `y`, which is an entry of the ring or its sentinel. -/
theorem Ring.insert (hr : Ring next prev h (as ++ bs)) (hnodup : (h :: (as ++ bs)).Nodup)
    (hx : x ∉ h :: (as ++ bs)) (hy : (bs ++ [h]).head? = some y) :
    Ring (update (update next x y) (prev y) x) (update (update prev x (prev y)) y x) h
      (as ++ x :: bs) := by
  obtain ⟨P, R, hP, hR, hfront, hback⟩ := hr.split_before hy
  have htail : as = (P ++ [prev y]).tail := by rw [← hP]; rfl
  have hdrop : bs = (y :: R).dropLast := by rw [← hR, dropLast_concat]
  have hxR : x ∉ y :: R := by
    rw [← hR]
    simp at hx ⊢
    tauto
  have hlist : h :: (as ++ x :: bs) ++ [h] = P ++ prev y :: x :: (y :: R) := by
    calc h :: (as ++ x :: bs) ++ [h] = (h :: as) ++ x :: (bs ++ [h]) := by simp
      _ = P ++ prev y :: x :: (y :: R) := by rw [hP, hR]; simp
  have hpx : prev y ≠ x := by grind
  have hyx : y ≠ x := by grind
  have hne : ∀ b, b ∈ as ∨ b ∈ R → b ≠ y := by
    intro b hb
    cases bs with
    | nil | cons c cs => grind
  rw [Ring, hlist, isChain_append_cons_cons, isChain_cons_cons]
  refine ⟨chain_congr hfront (fun a ha => ?_) fun b hb => ?_, ⟨by simp, ?_⟩, ⟨?_, by simp⟩,
    chain_congr hback (fun a ha => ?_) fun b hb => ?_⟩
  · rw [dropLast_concat] at ha
    rw [update_of_ne (by grind), update_of_ne (by grind)]
  · rw [← htail] at hb
    rw [update_of_ne (hne b (.inl hb)), update_of_ne (by grind)]
  · rw [update_of_ne hyx.symm, update_self]
  · rw [update_of_ne hpx.symm, update_self]
  · rw [← hdrop] at ha
    rw [update_of_ne (by grind), update_of_ne (by grind)]
  · rw [update_of_ne (hne b (.inr hb)), update_of_ne (by grind)]

theorem exists_split_before (hy : y ∈ h :: l) :
    ∃ as bs, l = as ++ bs ∧ (bs ++ [h]).head? = some y := by
  rcases mem_cons.1 hy with rfl | hy
  · exact ⟨l, [], by simp, by simp⟩
  · obtain ⟨as, bs, hlist⟩ := append_of_mem hy
    exact ⟨as, y :: bs, hlist, by simp⟩

/-- The rings of all sentinels below `m`. -/
structure Rings (next prev : ℕ → ℕ) (m : ℕ) (lists : ℕ → List ℕ) : Prop where
  ring : ∀ h < m, Ring next prev h (lists h)
  nodup : ∀ h < m, (lists h).Nodup
  le : ∀ h < m, ∀ x ∈ lists h, m ≤ x
  eq_of_mem : ∀ h < m, ∀ h' < m, ∀ x ∈ lists h, x ∈ lists h' → h = h'

namespace Rings

variable {m : ℕ} {lists : ℕ → List ℕ}

theorem cons_nodup (hr : Rings next prev m lists) (hh : h < m) : (h :: lists h).Nodup := by
  rw [nodup_cons]
  refine ⟨fun hmem => ?_, hr.nodup h hh⟩
  have := hr.le h hh h hmem
  omega

theorem congr (hr : Rings next prev m lists)
    (hsame : ∀ h < m, ∀ a ∈ h :: lists h, next' a = next a ∧ prev' a = prev a) :
    Rings next' prev' m lists where
  ring h hh := (hr.ring h hh).congr (fun a ha => (hsame h hh a ha).1) fun a ha =>
    (hsame h hh a ha).2
  nodup := hr.nodup
  le := hr.le
  eq_of_mem := hr.eq_of_mem

variable (hr : Rings next prev m lists) (hh : h < m)

include hr hh

theorem not_mem_of_ne {h' a : ℕ} (hh' : h' < m) (hne : h' ≠ h) (ha : a ∈ h :: lists h) :
    a ∉ h' :: lists h' := by
  intro ha'
  rcases mem_cons.1 ha with rfl | ha <;> rcases mem_cons.1 ha' with rfl | ha'
  · exact hne rfl
  · exact absurd (hr.le h' hh' a ha') (by omega)
  · exact absurd (hr.le h hh a ha) (by omega)
  · exact hne (hr.eq_of_mem h' hh' h hh a ha' ha)

theorem prev_mem {y : ℕ} (hy : y ∈ h :: lists h) : prev y ∈ h :: lists h := by
  obtain ⟨as, bs, hlist, hhead⟩ := exists_split_before hy
  have hring := hr.ring h hh
  rw [hlist] at hring
  obtain ⟨P, R, hP, -⟩ := hring.split_before hhead
  have : prev y ∈ h :: as := by rw [hP]; simp
  rw [hlist]
  simp at this ⊢
  tauto

theorem next_mem (hx : x ∈ lists h) : next x ∈ h :: lists h := by
  obtain ⟨as, bs, hlist⟩ := append_of_mem hx
  have hring := hr.ring h hh
  rw [hlist] at hring
  obtain ⟨P, R, -, hR, -⟩ := hring.split
  have : next x ∈ bs ++ [h] := by rw [hR]; simp
  rw [hlist]
  simp at this ⊢
  tauto

/-- One ring is changed, with its own links only; it gets entries that are in no other ring. -/
theorem replace {xs : List ℕ} (hring : Ring next' prev' h xs) (hnodup : xs.Nodup)
    (hxs : ∀ a ∈ xs, a ∈ lists h ∨ m ≤ a ∧ ∀ h' < m, a ∉ lists h')
    (hsame : ∀ h' < m, h' ≠ h → ∀ a ∈ h' :: lists h', next' a = next a ∧ prev' a = prev a) :
    Rings next' prev' m (update lists h xs) := by
  have hother : ∀ h' < m, h' ≠ h → ∀ a ∈ xs, a ∉ lists h' := by
    intro h' hh' hne a ha ha'
    rcases hxs a ha with ha | ha
    · exact hne (hr.eq_of_mem h' hh' h hh a ha' ha)
    · exact ha.2 h' hh' ha'
  constructor
  · intro h' hh'
    rcases eq_or_ne h' h with rfl | he
    · rwa [update_self]
    · rw [update_of_ne he]
      exact (hr.ring h' hh').congr (fun a ha => (hsame h' hh' he a ha).1) fun a ha =>
        (hsame h' hh' he a ha).2
  · intro h' hh'
    rcases eq_or_ne h' h with rfl | he
    · rwa [update_self]
    · rw [update_of_ne he]
      exact hr.nodup h' hh'
  · intro h' hh' a ha
    rcases eq_or_ne h' h with rfl | he
    · rw [update_self] at ha
      exact (hxs a ha).elim (hr.le h' hh' a) And.left
    · rw [update_of_ne he] at ha
      exact hr.le h' hh' a ha
  · intro h₁ hh₁ h₂ hh₂ a ha₁ ha₂
    rcases eq_or_ne h₁ h with rfl | he₁ <;> rcases eq_or_ne h₂ h₁ with rfl | he₂
    · rfl
    · rw [update_self] at ha₁
      rw [update_of_ne he₂] at ha₂
      exact absurd ha₂ (hother h₂ hh₂ he₂ a ha₁)
    · rfl
    · rw [update_of_ne he₁] at ha₁
      rcases eq_or_ne h₂ h with rfl | he
      · rw [update_self] at ha₂
        exact absurd ha₁ (hother h₁ hh₁ he₁ a ha₂)
      · rw [update_of_ne he] at ha₂
        exact hr.eq_of_mem h₁ hh₁ h₂ hh₂ a ha₁ ha₂

theorem remove (hlist : lists h = as ++ x :: bs) :
    Rings (update next (prev x) (next x)) (update prev (next x) (prev x)) m
      (update lists h (as ++ bs)) := by
  have hx : x ∈ lists h := by rw [hlist]; simp
  have hring := hr.ring h hh
  have hnodup := hr.cons_nodup hh
  rw [hlist] at hring hnodup
  apply hr.replace hh (hring.remove hnodup) (by grind)
  · intro a ha
    rw [hlist]
    simp at ha ⊢
    tauto
  · intro h' hh' he a ha
    rw [update_of_ne, update_of_ne]
    · exact ⟨rfl, rfl⟩
    · rintro rfl
      exact hr.not_mem_of_ne hh hh' he (hr.next_mem hh hx) ha
    · rintro rfl
      exact hr.not_mem_of_ne hh hh' he (hr.prev_mem hh (mem_cons_of_mem h hx)) ha

theorem insert {y : ℕ} (hlist : lists h = as ++ bs) (hy : (bs ++ [h]).head? = some y) (hx : m ≤ x)
    (hnew : ∀ h' < m, x ∉ lists h') :
    Rings (update (update next x y) (prev y) x) (update (update prev x (prev y)) y x) m
      (update lists h (as ++ x :: bs)) := by
  have hymem : y ∈ h :: lists h := by
    have hymem := mem_of_mem_head? hy
    rw [hlist]
    simp at hymem ⊢
    tauto
  have hne : ∀ h' < m, ∀ a ∈ h' :: lists h', a ≠ x := by
    rintro h' hh' a ha rfl
    rcases mem_cons.1 ha with rfl | ha
    · omega
    · exact hnew h' hh' ha
  have hring := hr.ring h hh
  have hnodup := hr.cons_nodup hh
  have hnot : x ∉ h :: lists h := fun hmem => hne h hh x hmem rfl
  rw [hlist] at hring hnodup hnot
  apply hr.replace hh (hring.insert hnodup hnot hy) (by grind)
  · intro a ha
    rcases eq_or_ne a x with rfl | hax
    · exact .inr ⟨hx, hnew⟩
    · rw [hlist]
      simp [hax] at ha ⊢
      exact .inl ha
  · intro h' hh' he a ha
    rw [update_of_ne, update_of_ne (hne h' hh' a ha), update_of_ne, update_of_ne (hne h' hh' a ha)]
    · exact ⟨rfl, rfl⟩
    · rintro rfl
      exact hr.not_mem_of_ne hh hh' he hymem ha
    · rintro rfl
      exact hr.not_mem_of_ne hh hh' he (hr.prev_mem hh hymem) ha

end Rings

/-- The rings hold the entries of `F`, each in the ring that `index` gives for its size. -/
def Filed (next prev : ℕ → ℕ) (m : ℕ) (index : ℕ → ℕ) (F : ℕ → ℕ → Prop) : Prop :=
  ∃ lists, Rings next prev m lists ∧ ∀ h < m, ∀ x, x ∈ lists h ↔ ∃ s, F x s ∧ index s = h

namespace Filed

variable {m : ℕ} {index : ℕ → ℕ} {F G : ℕ → ℕ → Prop} {lists : ℕ → List ℕ} {a s : ℕ}

theorem iff (hf : Filed next prev m index F) (h : ∀ x s, F x s ↔ G x s) :
    Filed next prev m index G := by
  have hFG : F = G := by
    funext x s
    exact propext (h x s)
  exact hFG ▸ hf

/-- A link is in a ring: it belongs to a sentinel or to an entry. -/
def Linked (m : ℕ) (F : ℕ → ℕ → Prop) (a : ℕ) : Prop := a < m ∨ ∃ s, F a s

theorem linked_of_mem (hmem : ∀ h < m, ∀ x, x ∈ lists h ↔ ∃ s, F x s ∧ index s = h) (hh : h < m)
    (ha : a ∈ h :: lists h) : Linked m F a := by
  rcases mem_cons.1 ha with rfl | ha
  · exact .inl hh
  · obtain ⟨s, hs, -⟩ := (hmem h hh a).1 ha
    exact .inr ⟨s, hs⟩

theorem congr (hf : Filed next prev m index F)
    (hsame : ∀ a, Linked m F a → next' a = next a ∧ prev' a = prev a) :
    Filed next' prev' m index F := by
  obtain ⟨lists, hr, hmem⟩ := hf
  exact ⟨lists, hr.congr fun h hh a ha => hsame a (linked_of_mem hmem hh ha), hmem⟩

theorem exists_ring (hidx : ∀ s, index s < m)
    (hmem : ∀ h < m, ∀ x, x ∈ lists h ↔ ∃ s, F x s ∧ index s = h) (ha : Linked m F a) :
    ∃ h < m, a ∈ h :: lists h := by
  rcases ha with ha | ⟨s, hs⟩
  · exact ⟨a, ha, mem_cons_self⟩
  · exact ⟨index s, hidx s, mem_cons_of_mem _ ((hmem _ (hidx s) a).2 ⟨s, hs, rfl⟩)⟩

section

variable (hf : Filed next prev m index F) (hidx : ∀ s, index s < m)

include hf hidx

theorem linked_prev (ha : Linked m F a) : Linked m F (prev a) := by
  obtain ⟨lists, hr, hmem⟩ := hf
  obtain ⟨h, hh, ha⟩ := exists_ring hidx hmem ha
  exact linked_of_mem hmem hh (hr.prev_mem hh ha)

theorem linked_next (hx : F x s) : Linked m F (next x) := by
  obtain ⟨lists, hr, hmem⟩ := hf
  exact linked_of_mem hmem (hidx s) (hr.next_mem (hidx s) ((hmem _ (hidx s) x).2 ⟨s, hx, rfl⟩))

theorem next_eq_index (hx : F x s) (hlt : next x < m) : next x = index s := by
  obtain ⟨lists, hr, hmem⟩ := hf
  have hnext := hr.next_mem (hidx s) ((hmem _ (hidx s) x).2 ⟨s, hx, rfl⟩)
  rcases mem_cons.1 hnext with heq | hnext
  · exact heq
  · exact absurd (hr.le _ (hidx s) _ hnext) (by omega)

theorem remove (hx : F x s) (huniq : ∀ r, F x r → r = s) :
    Filed (update next (prev x) (next x)) (update prev (next x) (prev x)) m index
      fun y r => F y r ∧ y ≠ x := by
  obtain ⟨lists, hr, hmem⟩ := hf
  have hxmem : x ∈ lists (index s) := (hmem _ (hidx s) x).2 ⟨s, hx, rfl⟩
  obtain ⟨as, bs, hlist⟩ := append_of_mem hxmem
  refine ⟨_, hr.remove (hidx s) hlist, fun h hh y => ?_⟩
  by_cases he : h = index s
  · subst he
    have hnodup := hr.nodup _ hh
    have hmem_y := hmem _ hh y
    grind
  · rw [update_of_ne he, hmem h hh y]
    constructor
    · rintro ⟨r, hy, hr'⟩
      refine ⟨r, ⟨hy, ?_⟩, hr'⟩
      rintro rfl
      exact he (by rw [← hr', huniq r hy])
    · rintro ⟨r, ⟨hy, -⟩, hr'⟩
      exact ⟨r, hy, hr'⟩

/-- A new entry is put before an entry or a sentinel `y` of the ring for its size. -/
theorem insert {y : ℕ} (hy : y = index s ∨ ∃ r, F y r ∧ index r = index s) (hx : m ≤ x)
    (hnew : ∀ r, ¬ F x r) :
    Filed (update (update next x y) (prev y) x) (update (update prev x (prev y)) y x) m index
      fun a r => F a r ∨ a = x ∧ r = s := by
  obtain ⟨lists, hr, hmem⟩ := hf
  have hring : y ∈ index s :: lists (index s) := by
    rcases hy with rfl | hy
    · exact mem_cons_self
    · exact mem_cons_of_mem _ ((hmem _ (hidx s) y).2 hy)
  obtain ⟨as, bs, hlist, hhead⟩ := exists_split_before hring
  have hnot : ∀ h < m, x ∉ lists h := by
    intro h hh hxmem
    obtain ⟨r, hxr, -⟩ := (hmem h hh x).1 hxmem
    exact hnew r hxr
  refine ⟨_, hr.insert (hidx s) hlist hhead hx hnot, fun h hh a => ?_⟩
  by_cases he : h = index s
  · subst he
    have hmem_a := hmem _ hh a
    grind
  · rw [update_of_ne he, hmem h hh a]
    constructor
    · rintro ⟨r, har, hr'⟩
      exact ⟨r, .inl har, hr'⟩
    · rintro ⟨r, har | ⟨-, rfl⟩, hr'⟩
      · exact ⟨r, har, hr'⟩
      · exact absurd hr'.symm he

end

theorem resize (hf : Filed next prev m index F) {s' : ℕ} (hx : F x s) (huniq : ∀ r, F x r → r = s)
    (hs : index s' = index s) :
    Filed next prev m index fun y r => F y r ∧ y ≠ x ∨ y = x ∧ r = s' := by
  obtain ⟨lists, hr, hmem⟩ := hf
  refine ⟨lists, hr, fun h hh y => ?_⟩
  rw [hmem h hh y]
  constructor
  · rintro ⟨r, hy, rfl⟩
    by_cases he : y = x
    · exact ⟨s', .inr ⟨he, rfl⟩, by rw [hs, huniq r (he ▸ hy)]⟩
    · exact ⟨r, .inl ⟨hy, he⟩, rfl⟩
  · rintro ⟨r, ⟨hy, -⟩ | ⟨rfl, rfl⟩, rfl⟩
    · exact ⟨r, hy, rfl⟩
    · exact ⟨s, hx, hs.symm⟩

end Filed

end AdaptivePlatform.LinkedRings
