import AdaptivePlatform.Foundations.RunningMaximum
import AdaptivePlatform.Foundations.Runs
import AdaptivePlatform.Npc.Port

/-!
# What the peers of a port read

With messages numbered in the order they were queued, `head` and `last` are the
slots of the numbers of all messages and of those that were freed. A peer has
released all messages below a number of its own, whose slot it publishes. The
sender computes with distances between slots. The distance of a peer that has
released everything is taken for a whole round: if another peer is still behind,
its messages are freed under it.
-/
namespace AdaptivePlatform.Npc

open RingIndex Runs RunningMaximum List Option Nat Function

variable {M : Type*} {conf : PortConf}

/-- The slot of the oldest message that is held, or the one that is read next -/
def Reader.oldest (r : Reader M) : ℕ := (r.held.argmin Held.number).elim r.next Held.qindex

namespace Port

/-- A slot is freed only after every peer has released it, and each peer reads exactly the
messages that were queued after it was added, each once and in order. What a peer holds is not
changed. -/
structure Kept (p : Port M conf) : Prop where
  room : p.sent.length < p.freed + conf.qcount
  released : ∀ n, p.Attached n → ∀ i, (p.readers n).added ≤ i → i < p.freed →
    i < (p.readers n).added + (p.readers n).got.length ∧ ∀ h ∈ (p.readers n).held, h.number ≠ i
  inOrder : ∀ n, p.Attached n → (p.readers n).got <+: (p.sent.drop (p.readers n).added).map some
  complete : ∀ n, p.Attached n → (p.readers n).next = p.head →
    (p.readers n).got = (p.sent.drop (p.readers n).added).map some
  unchanged : ∀ n, p.Attached n → ∀ h ∈ (p.readers n).held,
    ∃ m, p.sent[h.number]? = some m ∧ h.message = some m ∧ p.zone h.ref = some m

/-- Each peer publishes the slot of the oldest message that it has not released, or the slot that
it reads next. -/
def Published (p : Port M conf) : Prop :=
  ∀ n, p.Attached n → (p.peers n).next.toNat = (p.readers n).oldest

/-- A packet is skipped only by a peer that has a message to release. -/
def SkipsHeld (p : Port M conf) : Step M conf → Prop
  | .read n unpacked => (p.readers n).next ≠ p.head → unpacked ≠ .taken → (p.readers n).held ≠ []
  | _ => True

/-- If a peer has released all messages when the sender counts the slots in use, all have. -/
def Settled (p : Port M conf) : Step M conf → Prop
  | .handleSend _ => ∀ n n', p.Attached n → p.Attached n' →
      (p.peers n).next.toNat = p.head → (p.peers n').next.toNat = p.head
  | _ => True

instance (p : Port M conf) : ∀ input, Decidable (p.Settled input)
  | .handleSend _ => inferInstanceAs (Decidable (∀ _ _, _ → _ → _ → _))
  | .add _ | .send _ _ | .read _ _ | .seen _ _ => isTrue trivial

instance (p : Port M conf) : ∀ input, Decidable (p.SkipsHeld input)
  | .read _ _ => inferInstanceAs (Decidable (_ → _ → _))
  | .add _ | .send _ _ | .seen _ _ | .handleSend _ => isTrue trivial

end Port

/-- The reader has released the messages below number `l`. -/
structure Reader.Tracks (q freed : ℕ) (sent : List M) (mqueue : ℕ → uint32) (next : ℕ)
    (r : Reader M) (l : ℕ) : Prop where
  freed_le : freed ≤ l
  le_read : l ≤ r.added + r.got.length
  read_le : r.added + r.got.length ≤ sent.length
  published : next = l % q
  last_eq : r.last = l % q
  next_eq : r.next = (r.added + r.got.length) % q
  got_eq : r.got = ((sent.drop r.added).take r.got.length).map some
  stat_iff : ∀ i, l ≤ i → i < l + q → (r.stat (i % q) = true ↔ ∃ h ∈ r.held, h.number = i)
  held_ge : ∀ h ∈ r.held, l ≤ h.number
  held_lt : ∀ h ∈ r.held, h.number < r.added + r.got.length
  held_eq : ∀ h ∈ r.held, h.qindex = h.number % q ∧ h.ref = mqueue (h.number % q) ∧
    h.message = sent[h.number]?
  nodup : (r.held.map Held.number).Nodup

abbrev Port.Tracks (p : Port M conf) (n : Fin conf.pcount) : ℕ → Prop :=
  (p.readers n).Tracks conf.qcount p.freed p.sent p.mqueue (p.peers n).next.toNat

/-- What the slots stand for, with all messages numbered. -/
structure Port.Numbered (p : Port M conf) : Prop where
  head_eq : p.head = p.sent.length % conf.qcount
  last_eq : p.last = p.freed % conf.qcount
  freed_le : p.freed ≤ p.sent.length
  room : p.sent.length < p.freed + conf.qcount
  slots : ∀ i, p.freed ≤ i → i < p.sent.length → p.zone (p.mqueue (i % conf.qcount)) = p.sent[i]?
  refs : ∀ i j, p.freed ≤ i → i < p.sent.length → p.freed ≤ j → j < p.sent.length →
    p.mqueue (i % conf.qcount) = p.mqueue (j % conf.qcount) → i = j
  readers : ∀ n, p.Attached n → ∃ l, p.Tracks n l

theorem PortConf.pos (conf : PortConf) : 0 < conf.qcount :=
  lt_of_lt_of_le Nat.zero_lt_two conf.two_le

namespace Reader.Tracks

variable {q freed next l : ℕ} {sent : List M} {mqueue : ℕ → uint32} {r : Reader M} {held : Held M}

theorem mem_eraseIdx_iff (hnodup : (r.held.map Held.number).Nodup) {k : ℕ}
    (hheld : r.held[k]? = some held) {held' : Held M} :
    held' ∈ r.held.eraseIdx k ↔ held' ∈ r.held ∧ held'.number ≠ held.number := by
  rw [mem_eraseIdx_iff_getElem?]
  constructor
  · rintro ⟨i, hne, hi⟩
    refine ⟨mem_of_getElem? hi, fun heq => hne ?_⟩
    have hlt : i < (r.held.map Held.number).length := by
      rw [length_map]
      exact (List.getElem?_eq_some_iff.mp hi).1
    apply (getElem?_inj hlt hnodup).mp
    rw [getElem?_map, getElem?_map, hi, hheld, map_some, map_some, heq]
  · rintro ⟨hmem, hne⟩
    obtain ⟨i, hi⟩ := getElem?_of_mem hmem
    refine ⟨i, ?_, hi⟩
    rintro rfl
    rw [hi] at hheld
    exact hne (congrArg Held.number (some.inj hheld))

theorem seenLoop_spec (hq : 0 < q) (hnext : r.next = (r.added + r.got.length) % q) (rounds : ℕ)
    (hlt : l < r.added + r.got.length) (hle : r.added + r.got.length ≤ l + q)
    (hrounds : r.added + r.got.length - l ≤ rounds) :
    ∃ l', l < l' ∧ l' ≤ r.added + r.got.length ∧ r.seenLoop q rounds (l % q) = l' % q ∧
      (l' = r.added + r.got.length ∨ r.stat (l' % q) = true) ∧
      ∀ i, l < i → i < l' → r.stat (i % q) = false := by
  induction rounds generalizing l with
  | zero => omega
  | succ rounds ih =>
    simp only [Reader.seenLoop]
    rw [succ_mod hq]
    split_ifs with hstop
    · refine ⟨l + 1, lt_succ_self l, hlt, rfl, hstop.imp_left fun heq => ?_, by omega⟩
      rw [hnext] at heq
      exact eq_of_mod_eq (a := l + 1) le_rfl (by omega) hlt (by omega) heq
    · obtain ⟨hmore, hfree⟩ := not_or.mp hstop
      have hne : l + 1 ≠ r.added + r.got.length := by
        intro heq
        rw [hnext, heq] at hmore
        exact hmore rfl
      obtain ⟨l', hgt, hle', heq, hend, hclear⟩ := ih (l := l + 1) (by omega) (by omega) (by omega)
      refine ⟨l', by omega, hle', heq, hend, fun i hi hi' => ?_⟩
      rcases Nat.lt_or_eq_of_le (succ_le_of_lt hi) with hi | rfl
      · exact hclear i hi hi'
      · exact Bool.eq_false_iff.mpr hfree

variable (h : r.Tracks q freed sent mqueue next l)

include h

theorem free {freed' : ℕ} (hle : freed' ≤ l) : r.Tracks q freed' sent mqueue next l :=
  { h with freed_le := hle }

theorem skip (hq : 0 < q) (hlt : r.added + r.got.length < sent.length) :
    (r.skip q sent[r.added + r.got.length]?).Tracks q freed sent mqueue next l := by
  have hlength : (r.got ++ [sent[r.added + r.got.length]?]).length = r.got.length + 1 :=
    length_append
  refine ⟨h.freed_le, ?_, ?_, h.published, h.last_eq, ?_, ?_, h.stat_iff, h.held_ge, ?_,
    h.held_eq, h.nodup⟩
  · exact h.le_read.trans (Nat.add_le_add_left (hlength ▸ le_succ _) _)
  · change r.added + (r.got ++ _).length ≤ sent.length
    rw [hlength]
    exact hlt
  · change succ q r.next = (r.added + (r.got ++ _).length) % q
    rw [hlength, h.next_eq]
    exact succ_mod hq _
  · change r.got ++ _ = ((sent.drop r.added).take (r.got ++ _).length).map some
    rw [hlength, take_add_one, map_append, ← h.got_eq, getElem?_drop, getElem?_eq_getElem hlt]
    rfl
  · intro held hheld
    change held.number < r.added + (r.got ++ _).length
    rw [hlength]
    exact (h.held_lt held hheld).trans (lt_succ_self _)

variable (hroom : sent.length < freed + q)

include hroom

theorem queue (m : M) (ref : uint32) :
    r.Tracks q freed (sent ++ [m]) (update mqueue (sent.length % q) ref) next l where
  freed_le := h.freed_le
  le_read := h.le_read
  read_le := by
    rw [length_append]
    exact h.read_le.trans (Nat.le_add_right _ _)
  published := h.published
  last_eq := h.last_eq
  next_eq := h.next_eq
  got_eq := by
    have hread := h.read_le
    rw [drop_append_of_le_length (by omega), take_append_of_le_length]
    · exact h.got_eq
    · rw [length_drop]
      omega
  stat_iff := h.stat_iff
  held_ge := h.held_ge
  held_lt := h.held_lt
  held_eq := by
    intro held hheld
    obtain ⟨hindex, href, hmessage⟩ := h.held_eq held hheld
    have hfreed := h.freed_le
    have hread := h.read_le
    have hge := h.held_ge held hheld
    have hlt := h.held_lt held hheld
    have hne : held.number % q ≠ sent.length % q := by
      intro heq
      have := eq_of_mod_eq (a := freed) (by omega) (by omega) (by omega) hroom heq
      omega
    refine ⟨hindex, ?_, ?_⟩
    · rw [update_of_ne hne]
      exact href
    · rw [getElem?_append_left (by omega)]
      exact hmessage
  nodup := h.nodup

theorem take (hq : 0 < q) (hlt : r.added + r.got.length < sent.length) :
    (r.take q (mqueue r.next) sent[r.added + r.got.length]?).Tracks q freed sent mqueue next l := by
  have hskip := h.skip hq hlt
  have hfreed := h.freed_le
  have hle := h.le_read
  refine ⟨hskip.freed_le, hskip.le_read, hskip.read_le, hskip.published, hskip.last_eq,
    hskip.next_eq, hskip.got_eq, ?_, ?_, ?_, ?_, ?_⟩
  · intro i hi hilt
    change update r.stat r.next true (i % q) = true ↔
      ∃ held ∈ (⟨r.next, mqueue r.next, _, r.added + r.got.length⟩ : Held M) :: r.held,
        held.number = i
    simp only [mem_cons, exists_eq_or_imp]
    rcases eq_or_ne (i % q) r.next with heq | hne
    · rw [heq, update_self]
      rw [h.next_eq] at heq
      exact iff_of_true rfl (Or.inl (eq_of_mod_eq hle (by omega) hi hilt heq.symm))
    · rw [update_of_ne hne, h.stat_iff i hi hilt]
      refine (or_iff_right ?_).symm
      rintro rfl
      exact hne h.next_eq.symm
  · exact forall_mem_cons.mpr ⟨hle, h.held_ge⟩
  · refine forall_mem_cons.mpr ⟨?_, hskip.held_lt⟩
    change r.added + r.got.length < r.added + (r.got ++ _).length
    rw [length_append]
    exact lt_succ_self _
  · refine forall_mem_cons.mpr ⟨⟨h.next_eq, ?_, rfl⟩, h.held_eq⟩
    rw [h.next_eq]
  · refine nodup_cons.mpr ⟨fun hmem => ?_, h.nodup⟩
    obtain ⟨held, hheld, heq⟩ := List.mem_map.mp hmem
    exact absurd (h.held_lt held hheld) (Nat.not_lt.mpr heq.ge)

theorem unmark {k : ℕ} (hheld : r.held[k]? = some held) :
    (r.unmark k held).Tracks q freed sent mqueue next l := by
  have hmem : held ∈ r.held := mem_of_getElem? hheld
  have hsub : ∀ held' ∈ (r.unmark k held).held, held' ∈ r.held :=
    fun held' hheld' => ((mem_eraseIdx_iff h.nodup hheld).mp hheld').1
  have hfreed := h.freed_le
  have hread := h.read_le
  refine ⟨h.freed_le, h.le_read, h.read_le, h.published, h.last_eq, h.next_eq, h.got_eq, ?_,
    fun held' hheld' => h.held_ge held' (hsub held' hheld'),
    fun held' hheld' => h.held_lt held' (hsub held' hheld'),
    fun held' hheld' => h.held_eq held' (hsub held' hheld'), ?_⟩
  · intro i hi hilt
    change update r.stat held.qindex false (i % q) = true ↔
      ∃ held' ∈ r.held.eraseIdx k, held'.number = i
    have hge := h.held_ge held hmem
    have hlt := h.held_lt held hmem
    rw [(h.held_eq held hmem).1]
    rcases eq_or_ne (i % q) (held.number % q) with heq | hne
    · obtain rfl := eq_of_mod_eq hi hilt hge (by omega) heq
      rw [update_self]
      refine iff_of_false Bool.false_ne_true ?_
      rintro ⟨held', hheld', heq'⟩
      exact ((mem_eraseIdx_iff h.nodup hheld).mp hheld').2 heq'
    · rw [update_of_ne hne, h.stat_iff i hi hilt]
      refine exists_congr fun held' => ?_
      rw [mem_eraseIdx_iff h.nodup hheld, and_assoc]
      refine and_congr_right fun _ => (and_iff_right_of_imp ?_).symm
      rintro rfl heq
      exact hne (by rw [heq])
  · exact h.nodup.sublist ((eraseIdx_sublist _ _).map _)

theorem seen (hq : 0 < q) (hlt : l < r.added + r.got.length)
    (hfirst : r.stat (l % q) = false) :
    ∃ l', (r.seen q).Tracks q freed sent mqueue (l' % q) l' ∧
      (l' = r.added + r.got.length ∨ ∃ held ∈ r.held, held.number = l') := by
  have hfreed := h.freed_le
  have hread := h.read_le
  obtain ⟨l', hgt, hle', heq, hend, hclear⟩ :=
    seenLoop_spec hq h.next_eq q hlt (by omega) (by omega)
  have hclear' : ∀ i, l ≤ i → i < l' → r.stat (i % q) = false := by
    intro i hi hi'
    rcases Nat.eq_or_lt_of_le hi with rfl | hi
    · exact hfirst
    · exact hclear i hi hi'
  refine ⟨l', ⟨hfreed.trans hgt.le, hle', hread, rfl, ?_, h.next_eq, h.got_eq, ?_, ?_, h.held_lt,
    h.held_eq, h.nodup⟩, hend.imp_right (h.stat_iff l' hgt.le (by omega)).mp⟩
  · change r.seenLoop q q r.last = l' % q
    rw [h.last_eq]
    exact heq
  · intro i hi hilt
    change r.stat (i % q) = true ↔ ∃ held ∈ r.held, held.number = i
    by_cases hwindow : i < l + q
    · exact h.stat_iff i (by omega) hwindow
    · -- the slot of a message that was passed
      obtain ⟨j, rfl⟩ := Nat.exists_eq_add_of_le' (by omega : q ≤ i)
      rw [add_mod_right, hclear' j (by omega) (by omega)]
      refine iff_of_false Bool.false_ne_true ?_
      rintro ⟨held, hheld, hnumber⟩
      have hheldlt := h.held_lt held hheld
      omega
  · intro held hheld
    by_contra hbelow
    have hge := h.held_ge held hheld
    have hfree := hclear' held.number hge (Nat.lt_of_not_le hbelow)
    have hmarked := (h.stat_iff held.number hge (by omega)).mpr ⟨held, hheld, rfl⟩
    rw [hfree] at hmarked
    cases hmarked

theorem published_iff :
    next = r.oldest ↔ l = r.added + r.got.length ∨ ∃ held ∈ r.held, held.number = l := by
  have hfreed := h.freed_le
  have hle := h.le_read
  have hread := h.read_le
  rw [h.published]
  cases hmin : r.held.argmin Held.number with
  | none =>
    rw [oldest, hmin, elim_none, h.next_eq, argmin_eq_none.mp hmin]
    simp only [not_mem_nil, false_and, exists_false, or_false]
    exact ⟨eq_of_mod_eq le_rfl (by omega) hle (by omega), congrArg (· % q)⟩
  | some first =>
    have hmem := argmin_mem hmin
    have hge := h.held_ge first hmem
    have hlt := h.held_lt first hmem
    rw [oldest, hmin, elim_some, (h.held_eq first hmem).1]
    constructor
    · intro heq
      exact Or.inr ⟨first, hmem, eq_of_mod_eq hge (by omega) le_rfl (by omega) heq.symm⟩
    · rintro (rfl | ⟨held, hheld, rfl⟩)
      · exact absurd hlt hge.not_gt
      · rw [hge.antisymm (le_of_mem_argmin hheld hmin)]

variable (hpub : next = r.oldest)

include hpub

theorem published_take (hq : 0 < q) (hlt : r.added + r.got.length < sent.length) :
    next = (r.take q (mqueue r.next) sent[r.added + r.got.length]?).oldest := by
  apply ((h.take hroom hq hlt).published_iff hroom).mpr
  rcases (h.published_iff hroom).mp hpub with rfl | ⟨held, hheld, heq⟩
  · exact Or.inr ⟨_, mem_cons_self, rfl⟩
  · exact Or.inr ⟨held, mem_cons_of_mem _ hheld, heq⟩

theorem published_skip (hq : 0 < q) (hlt : r.added + r.got.length < sent.length) :
    next = (r.skip q sent[r.added + r.got.length]?).oldest ↔ r.held ≠ [] := by
  rw [(h.skip hq hlt).published_iff hroom]
  have hle := h.le_read
  constructor
  · rintro (heq | ⟨held, hheld, -⟩)
    · simp only [Reader.skip, length_append, length_singleton] at heq
      omega
    · exact ne_nil_of_mem hheld
  · intro hne
    obtain ⟨held, hheld⟩ := exists_mem_of_ne_nil _ hne
    have hge := h.held_ge held hheld
    have hlt := h.held_lt held hheld
    exact Or.inr (((h.published_iff hroom).mp hpub).resolve_left (by omega))

theorem published_unmark {k : ℕ} (hheld : r.held[k]? = some held) (hne : held.number ≠ l) :
    next = (r.unmark k held).oldest := by
  apply ((h.unmark hroom hheld).published_iff hroom).mpr
  refine ((h.published_iff hroom).mp hpub).imp_right ?_
  rintro ⟨first, hfirst, rfl⟩
  exact ⟨first, (mem_eraseIdx_iff h.nodup hheld).mpr ⟨hfirst, hne.symm⟩, rfl⟩

end Reader.Tracks

namespace Port.Numbered

variable {p : Port M conf}

theorem of_wait (h : p.Numbered) (wait : List M) : { p with wait := wait }.Numbered :=
  ⟨h.head_eq, h.last_eq, h.freed_le, h.room, h.slots, h.refs, h.readers⟩

theorem kept (h : p.Numbered) : p.Kept where
  room := h.room
  released := by
    intro n hn i hadded hfreed
    obtain ⟨l, hl⟩ := h.readers n hn
    have hle := hl.freed_le
    have hread := hl.le_read
    refine ⟨by omega, fun held hheld => ?_⟩
    have hge := hl.held_ge held hheld
    omega
  inOrder := by
    intro n hn
    obtain ⟨l, hl⟩ := h.readers n hn
    rw [hl.got_eq]
    apply List.IsPrefix.map
    exact take_prefix _ _
  complete := by
    intro n hn hnext
    obtain ⟨l, hl⟩ := h.readers n hn
    have hfreed := hl.freed_le
    have hread := hl.le_read
    have hle := hl.read_le
    rw [hl.next_eq, h.head_eq] at hnext
    have hall := eq_of_mod_eq (a := p.freed) (by omega) (by have := h.room; omega) h.freed_le
      h.room hnext
    rw [hl.got_eq, take_of_length_le]
    rw [length_drop]
    omega
  unchanged := by
    intro n hn held hheld
    obtain ⟨l, hl⟩ := h.readers n hn
    obtain ⟨-, href, hmessage⟩ := hl.held_eq held hheld
    have hge := hl.held_ge held hheld
    have hlt := hl.held_lt held hheld
    have hfreed := hl.freed_le
    have hread := hl.read_le
    have hnumber : held.number < p.sent.length := by omega
    refine ⟨p.sent[held.number], getElem?_eq_getElem hnumber, ?_, ?_⟩
    · rw [hmessage, getElem?_eq_getElem hnumber]
    · rw [href, h.slots _ (by omega) hnumber, getElem?_eq_getElem hnumber]

/-! ### The sender -/

variable {ref : Option uint32} {p' : Port M conf}

section

variable (h : p.Numbered)

include h

theorem queue (hroom : p.sent.length + 1 < p.freed + conf.qcount) {m : M}
    (hq : p.queue m ref = some p') :
    p'.Numbered ∧ p'.freed = p.freed ∧ p'.sent.length ≤ p.sent.length + 1 ∧
      (p'.Published ↔ p.Published) := by
  cases ref with
  | none =>
    cases hq
    exact ⟨h, rfl, le_succ _, Iff.rfl⟩
  | some ref =>
    rw [Port.queue] at hq
    split_ifs at hq with hfree
    cases hq
    have hnone : p.zone ref = none := by simpa using hfree
    have hle := h.freed_le
    have hother : ∀ i, p.freed ≤ i → i < p.sent.length →
        i % conf.qcount ≠ p.sent.length % conf.qcount := by
      intro i hi hlt heq
      have := eq_of_mod_eq hi (by omega) hle (by omega) heq
      omega
    have hused : ∀ i, p.freed ≤ i → i < p.sent.length → p.mqueue (i % conf.qcount) ≠ ref := by
      intro i hi hlt heq
      have hslot := h.slots i hi hlt
      rw [heq, hnone, getElem?_eq_getElem hlt] at hslot
      cases hslot
    have hlength : (p.sent ++ [m]).length = p.sent.length + 1 := length_append
    refine ⟨⟨?_, h.last_eq, ?_, ?_, ?_, ?_, ?_⟩, rfl, hlength.le, Iff.rfl⟩
    · rw [hlength, h.head_eq]
      exact succ_mod conf.pos _
    · exact hle.trans (by rw [hlength]; exact le_succ _)
    · rw [hlength]
      exact hroom
    · intro i hi hlt
      rw [hlength] at hlt
      simp only [h.head_eq]
      rcases Nat.lt_succ_iff_lt_or_eq.mp hlt with hlt | rfl
      · rw [update_of_ne (hother i hi hlt), update_of_ne (hused i hi hlt), getElem?_append_left hlt]
        exact h.slots i hi hlt
      · rw [update_self, update_self, getElem?_concat_length]
    · intro i j hi hilt hj hjlt heq
      rw [hlength] at hilt hjlt
      simp only [h.head_eq] at heq
      rcases Nat.lt_succ_iff_lt_or_eq.mp hilt with hilt | rfl <;>
        rcases Nat.lt_succ_iff_lt_or_eq.mp hjlt with hjlt | rfl
      · rw [update_of_ne (hother i hi hilt), update_of_ne (hother j hj hjlt)] at heq
        exact h.refs i j hi hilt hj hjlt heq
      · rw [update_of_ne (hother i hi hilt), update_self] at heq
        exact absurd heq (hused i hi hilt)
      · rw [update_of_ne (hother j hj hjlt), update_self] at heq
        exact absurd heq.symm (hused j hj hjlt)
      · rfl
    · intro n hn
      obtain ⟨l, hl⟩ := h.readers n hn
      refine ⟨l, ?_⟩
      simp only [h.head_eq]
      exact hl.queue h.room m ref

theorem left_eq : p.left = p.freed + conf.qcount - p.sent.length := by
  have hle := h.freed_le
  have hroom := h.room
  have hback := behind_mod (q := conf.qcount) hroom (by omega)
  rw [add_mod_right, ← h.last_eq, ← h.head_eq, behind] at hback
  rw [← hback, left]
  split_ifs <;> omega

theorem sendMessage {m : M} (hs : p.sendMessage m ref = some p') :
    p'.Numbered ∧ (p'.Published ↔ p.Published) := by
  rw [Port.sendMessage, h.left_eq] at hs
  split_ifs at hs with hfull
  · cases hs
    exact ⟨h, Iff.rfl⟩
  · obtain ⟨hnumbered, -, -, hsame⟩ := h.queue (by omega) hs
    exact ⟨hnumbered, hsame⟩

theorem freeSlot (hlt : p.freed < p.sent.length)
    (hreleased : ∀ n, p.Attached n → ∃ l, p.freed < l ∧ p.Tracks n l) : p.freeSlot.Numbered where
  head_eq := h.head_eq
  last_eq := by
    change succ conf.qcount p.last = (p.freed + 1) % conf.qcount
    rw [h.last_eq]
    exact succ_mod conf.pos _
  freed_le := hlt
  room := h.room.trans (Nat.add_lt_add_right (lt_succ_self _) _)
  slots := by
    intro i hi hilt
    change p.freed + 1 ≤ i at hi
    have hne : p.mqueue (i % conf.qcount) ≠ p.mqueue p.last := by
      rw [h.last_eq]
      intro heq
      have := h.refs i p.freed (by omega) hilt le_rfl hlt heq
      omega
    change update p.zone (p.mqueue p.last) none (p.mqueue (i % conf.qcount)) = _
    rw [update_of_ne hne]
    exact h.slots i (by omega) hilt
  refs := by
    intro i j hi hilt hj hjlt heq
    change p.freed + 1 ≤ i at hi
    change p.freed + 1 ≤ j at hj
    exact h.refs i j (by omega) hilt (by omega) hjlt heq
  readers := by
    intro n hn
    obtain ⟨l, hl, htracks⟩ := hreleased n hn
    exact ⟨l, htracks.free hl⟩

/-- All slots below number `t` are freed, which every reader has released. -/
theorem freeUntil (rounds : ℕ) {t : ℕ} (hge : p.freed ≤ t) (hle : t ≤ p.sent.length)
    (hrounds : t - p.freed ≤ rounds)
    (hreleased : ∀ n, p.Attached n → ∃ l, t ≤ l ∧ p.Tracks n l) :
    (Port.freeUntil (t % conf.qcount) rounds p).Numbered ∧
      (Port.freeUntil (t % conf.qcount) rounds p).freed = t ∧
      (Port.freeUntil (t % conf.qcount) rounds p).sent = p.sent ∧
      ((Port.freeUntil (t % conf.qcount) rounds p).Published ↔ p.Published) := by
  induction rounds generalizing p with
  | zero =>
    have heq : p.freed = t := by omega
    exact ⟨h, heq, rfl, Iff.rfl⟩
  | succ rounds ih =>
    rw [Port.freeUntil, h.last_eq]
    split_ifs with hlast
    · have heq := eq_of_mod_eq (a := p.freed) le_rfl
        (Nat.lt_add_of_pos_right conf.pos) hge (hle.trans_lt h.room) hlast
      exact ⟨h, heq, rfl, Iff.rfl⟩
    · have hlt : p.freed < t := by
        refine lt_of_le_of_ne hge fun heq => hlast ?_
        rw [heq]
      have hfree := h.freeSlot (hlt.trans_le hle) fun n hn => by
        obtain ⟨l, hl, htracks⟩ := hreleased n hn
        exact ⟨l, hlt.trans_le hl, htracks⟩
      refine ih hfree hlt hle (by change t - (p.freed + 1) ≤ rounds; omega) fun n hn => ?_
      obtain ⟨l, hl, htracks⟩ := hreleased n hn
      exact ⟨l, hl, htracks.free (hlt.trans_le hl)⟩

/-- Blocked messages are posted into the space that is left. -/
theorem post {left : ℕ} {refs : ℕ → Option uint32}
    (hroom : p.sent.length + left ≤ p.freed + conf.qcount) (hpost : p.post left refs = some p') :
    p'.Numbered ∧ (p'.Published ↔ p.Published) := by
  induction left generalizing p refs with
  | zero =>
    cases hpost
    exact ⟨h, Iff.rfl⟩
  | succ left ih =>
    cases left with
    | zero =>
      cases hpost
      exact ⟨h, Iff.rfl⟩
    | succ left =>
      rw [Port.post] at hpost
      split at hpost
      · cases hpost
        exact ⟨h, Iff.rfl⟩
      · rename_i m wait hwait
        obtain ⟨p₁, hqueue, hrest⟩ := bind_eq_some_iff.mp hpost
        have hspace : p.sent.length + 1 < p.freed + conf.qcount := by omega
        obtain ⟨hnumbered, hfreed, hsent, hsame⟩ := (h.of_wait wait).queue hspace hqueue
        change p₁.freed = p.freed at hfreed
        change p₁.sent.length ≤ p.sent.length + 1 at hsent
        exact (ih hnumbered (by omega) hrest).imp_right fun hrest => hrest.trans hsame

end

end Port.Numbered

namespace Port

variable {p : Port M conf}

theorem inuse_spec (p : Port M conf) :
    (∀ n, p.Attached n → behind conf.qcount p.head (p.peers n).next.toNat ≤ p.inuse) ∧
      (p.inuse = 0 ∨ ∃ n, p.Attached n ∧
        p.inuse = behind conf.qcount p.head (p.peers n).next.toNat) := by
  have hscan : p.inuse = (scan (fun n => behind conf.qcount p.head (p.peers n).next.toNat) 0
      ((finRange conf.pcount).filter p.Attached)).1 := by
    simp [scan_fst, foldl_filter, inuse]
  obtain ⟨-, hle, hreached⟩ := scan_value
    (fun n => behind conf.qcount p.head (p.peers n).next.toNat) 0
    ((finRange conf.pcount).filter p.Attached)
  rw [← hscan] at hle hreached
  refine ⟨fun n hn => hle n (by simpa using hn), hreached.imp_right ?_⟩
  rintro ⟨n, hn, heq⟩
  exact ⟨n, by simpa using hn, heq.symm⟩

namespace Numbered

variable {n : Fin conf.pcount} {refs : ℕ → Option uint32}

section

variable {l : ℕ} (h : p.Numbered) (hl : p.Tracks n l)

include h hl

/-- How far a peer that has not released everything is behind. -/
theorem behind_eq (hlt : l < p.sent.length) :
    behind conf.qcount p.head (p.peers n).next.toNat = p.sent.length - l := by
  have hroom := h.room
  have hfreed := hl.freed_le
  rw [h.head_eq, hl.published]
  exact behind_mod hlt (by omega)

theorem next_eq_head_iff : (p.peers n).next.toNat = p.head ↔ l = p.sent.length := by
  have hroom := h.room
  have hfreed := hl.freed_le
  have hle := hl.le_read.trans hl.read_le
  rw [h.head_eq, hl.published]
  constructor
  · exact eq_of_mod_eq hfreed (by omega) h.freed_le hroom
  · rintro rfl
    rfl

end

/-- If all peers have released everything or none has, the slots below a number that every peer
has released are to be freed. -/
theorem exists_tail (h : p.Numbered) (hsettled : p.Settled (.handleSend refs)) :
    ∃ t, p.freed ≤ t ∧ t ≤ p.sent.length ∧
      back conf.qcount p.head p.inuse = t % conf.qcount ∧
      p.sent.length + (conf.qcount - p.inuse) ≤ t + conf.qcount ∧
      ∀ n, p.Attached n → ∃ l, t ≤ l ∧ p.Tracks n l := by
  have hroom := h.room
  have hhead : p.head < conf.qcount := by
    rw [h.head_eq]
    exact mod_lt _ conf.pos
  obtain ⟨hmax, hreached⟩ := p.inuse_spec
  by_cases hcaught : ∀ n, p.Attached n → (p.peers n).next.toNat = p.head
  · -- everything that was sent is released
    have htail : back conf.qcount p.head p.inuse = p.sent.length % conf.qcount := by
      rw [← h.head_eq]
      rcases hreached with hzero | ⟨n, hn, heq⟩
      · rw [hzero, back, if_pos (Nat.zero_le _), Nat.sub_zero]
      · rw [hcaught n hn, behind_self hhead.le] at heq
        rw [heq, back, if_neg (Nat.not_le.mpr hhead), Nat.sub_self, Nat.add_zero,
          if_neg (Nat.not_le.mpr hhead)]
    refine ⟨p.sent.length, h.freed_le, le_rfl, htail, by omega, fun n hn => ?_⟩
    obtain ⟨l, hl⟩ := h.readers n hn
    exact ⟨l, ((h.next_eq_head_iff hl).mp (hcaught n hn)).ge, hl⟩
  · -- no peer has released everything
    obtain ⟨n₀, hn₀, hne₀⟩ : ∃ n, p.Attached n ∧ (p.peers n).next.toNat ≠ p.head := by
      simpa using hcaught
    have hbehind : ∀ n, p.Attached n → (p.peers n).next.toNat ≠ p.head :=
      fun n hn heq => hne₀ (hsettled n n₀ hn hn₀ heq)
    have hnumber : ∀ n, p.Attached n → ∃ l, l < p.sent.length ∧ p.Tracks n l := by
      intro n hn
      obtain ⟨l, hl⟩ := h.readers n hn
      have hle := hl.le_read.trans hl.read_le
      exact ⟨l, lt_of_le_of_ne hle fun heq => hbehind n hn ((h.next_eq_head_iff hl).mpr heq), hl⟩
    obtain ⟨l₀, hlt₀, hl₀⟩ := hnumber n₀ hn₀
    have hpos := hmax n₀ hn₀
    rw [h.behind_eq hl₀ hlt₀] at hpos
    obtain ⟨n₁, hn₁, heq₁⟩ := hreached.resolve_left (by omega)
    obtain ⟨l₁, hlt₁, hl₁⟩ := hnumber n₁ hn₁
    have hfreed₁ := hl₁.freed_le
    rw [h.behind_eq hl₁ hlt₁] at heq₁
    refine ⟨l₁, hfreed₁, hlt₁.le, ?_, by omega, fun n hn => ?_⟩
    · rw [heq₁, h.head_eq, back_mod conf.pos (by omega) (by omega)]
      congr 1
      omega
    · obtain ⟨l, hlt, hl⟩ := hnumber n hn
      have hle := hmax n hn
      rw [h.behind_eq hl hlt, heq₁] at hle
      exact ⟨l, by omega, hl⟩

variable {p' : Port M conf}

theorem handleSend (h : p.Numbered) (hsettled : p.Settled (.handleSend refs))
    (hs : p.handleSend refs = some p') : p'.Numbered ∧ (p'.Published ↔ p.Published) := by
  obtain ⟨t, hge, hle, htail, hspace, hreleased⟩ := h.exists_tail hsettled
  rw [Port.handleSend] at hs
  simp only [htail] at hs
  split_ifs at hs with hnothing
  · cases hs
    exact ⟨h, Iff.rfl⟩
  · have hroom := h.room
    obtain ⟨hnumbered, hfreed, hsent, hsame⟩ := h.freeUntil conf.qcount hge hle (by omega) hreleased
    exact (hnumbered.post (by rw [hfreed, hsent]; exact hspace) hs).imp_right
      fun hposted => hposted.trans hsame

/-! ### The peers -/

theorem toNat_ofNat_mod (hsize : conf.qcount ≤ 2 ^ 15) (i : ℕ) :
    (BitVec.ofNat 15 (i % conf.qcount)).toNat = i % conf.qcount := by
  exact mod_eq_of_lt ((mod_lt i conf.pos).trans_le hsize)

/-- A change to the reader and the entry of one peer. -/
theorem of_reader (h : p.Numbered) (n : Fin conf.pcount) (u : MPeer) {r : Reader M} {l : ℕ}
    (hr : r.Tracks conf.qcount p.freed p.sent p.mqueue u.next.toNat l) :
    let p' : Port M conf := { p with peers := update p.peers n u, readers := update p.readers n r }
    p'.Numbered ∧ (p.Published → (p'.Published ↔ (u.peer ≠ 0 → u.next.toNat = r.oldest))) := by
  refine ⟨⟨h.head_eq, h.last_eq, h.freed_le, h.room, h.slots, h.refs, fun n' hn' => ?_⟩,
    fun hpub => ⟨fun h => by simpa [Attached] using h n, fun h n' hn' => ?_⟩⟩
  all_goals rcases eq_or_ne n' n with rfl | hne
  · exact ⟨l, by simpa [Port.Tracks] using hr⟩
  · simp only [Attached, Port.Tracks, update_of_ne hne] at hn' ⊢
    exact h.readers n' hn'
  · simpa using h (by simpa [Attached] using hn')
  · simp only [Attached, update_of_ne hne] at hn' ⊢
    exact hpub n' hn'

theorem add (h : p.Numbered) (hsize : conf.qcount ≤ 2 ^ 15) (peer : uint16) :
    (p.add peer).Numbered ∧ (p.Published → (p.add peer).Published) := by
  rw [Port.add]
  split_ifs with hexists
  · exact ⟨h, id⟩
  · split
    · exact ⟨h, id⟩
    · rename_i n hfound
      have hnext : (BitVec.ofNat 15 p.head).toNat = p.sent.length % conf.qcount := by
        rw [h.head_eq]
        exact toNat_ofNat_mod hsize _
      refine (h.of_reader n ⟨_, peer⟩ (l := p.sent.length) ?_).imp_right
        fun hiff hpub => (hiff hpub).mpr fun _ => rfl
      exact {
        freed_le := h.freed_le
        le_read := le_rfl
        read_le := le_rfl
        published := hnext
        last_eq := hnext
        next_eq := hnext
        got_eq := rfl
        stat_iff := by
          intro i _ _
          refine iff_of_false Bool.false_ne_true ?_
          rintro ⟨held, hheld, -⟩
          cases hheld
        held_ge := forall_mem_nil _
        held_lt := forall_mem_nil _
        held_eq := forall_mem_nil _
        nodup := nodup_nil }

theorem read (h : p.Numbered) (hn : p.Attached n) (unpacked : Unpacked) :
    (p.read n unpacked).Numbered ∧
      (p.Published → ((p.read n unpacked).Published ↔ p.SkipsHeld (.read n unpacked))) := by
  by_cases hempty : (p.readers n).next = p.head
  · simp only [Port.read, if_pos hempty]
    exact ⟨h, fun hpub => iff_of_true hpub fun hmore => absurd hempty hmore⟩
  · obtain ⟨l, hl⟩ := h.readers n hn
    have hle := hl.le_read
    have hfreed := hl.freed_le
    have hlt : (p.readers n).added + (p.readers n).got.length < p.sent.length := by
      refine lt_of_le_of_ne hl.read_le fun heq => hempty ?_
      rw [hl.next_eq, h.head_eq, heq]
    have hfound : p.zone (p.mqueue (p.readers n).next) =
        p.sent[(p.readers n).added + (p.readers n).got.length]? := by
      rw [hl.next_eq]
      exact h.slots _ (by omega) hlt
    have hreader := @h.of_reader _ _ _ n (p.peers n)
    rw [update_eq_self] at hreader
    simp only [Port.read, if_neg hempty, hfound, SkipsHeld]
    split_ifs with htaken
    · refine (hreader (hl.take h.room conf.pos hlt)).imp_right fun hiff hpub => ?_
      rw [hiff hpub]
      exact iff_of_true (fun _ => hl.published_take h.room (hpub n hn) conf.pos hlt)
        fun _ hskip => absurd htaken hskip
    · refine (hreader (hl.skip conf.pos hlt)).imp_right fun hiff hpub => ?_
      rw [hiff hpub, hl.published_skip h.room (hpub n hn) conf.pos hlt]
      exact ⟨fun hheld _ _ => hheld hn, fun hheld _ => hheld hempty htaken⟩

theorem handleSeen (h : p.Numbered) (hsize : conf.qcount ≤ 2 ^ 15) (hn : p.Attached n) {k : ℕ}
    (hs : p.handleSeen n k = some p') :
    p'.Numbered ∧ (p.Published → p'.Published) := by
  obtain ⟨held, hheld, rfl⟩ := map_eq_some_iff.mp hs
  obtain ⟨l, hl⟩ := h.readers n hn
  have hmem : held ∈ (p.readers n).held := mem_of_getElem? hheld
  have hge := hl.held_ge held hmem
  have hlt := hl.held_lt held hmem
  have hfreed := hl.freed_le
  have hread := hl.read_le
  have hroom := h.room
  have hindex := (hl.held_eq held hmem).1
  have hmarked : (p.readers n).stat held.qindex = true := by
    rw [hindex]
    exact (hl.stat_iff _ hge (by omega)).mpr ⟨held, hmem, rfl⟩
  have hunmark := hl.unmark hroom hheld
  simp only [hmarked, Bool.true_eq_false, if_false]
  split_ifs with hlast
  · have hfirst : held.number = l := by
      rw [hindex, hl.last_eq] at hlast
      exact eq_of_mod_eq hge (by omega) le_rfl (by omega) hlast
    obtain ⟨l', hseen, hend⟩ := hunmark.seen hroom conf.pos (hfirst ▸ hlt) (by
      rw [← hfirst, ← hindex]
      exact update_self _ _ _)
    have hpublished : (BitVec.ofNat 15 (((p.readers n).unmark k held).seen conf.qcount).last).toNat
        = l' % conf.qcount := by
      rw [hseen.last_eq]
      exact toNat_ofNat_mod hsize l'
    refine (h.of_reader n _ { hseen with published := hpublished }).imp_right fun hiff hpub => ?_
    rw [hiff hpub, hpublished]
    exact fun _ => (hseen.published_iff hroom).mpr hend
  · have hreader := h.of_reader n (p.peers n) hunmark
    rw [update_eq_self] at hreader
    refine hreader.imp_right fun hiff hpub => (hiff hpub).mpr fun _ => ?_
    refine hl.published_unmark hroom (hpub n hn) hheld ?_
    rintro rfl
    exact hlast (hindex.trans hl.last_eq.symm)

/-! ### Whole runs -/

theorem step (h : p.Numbered) (hsize : conf.qcount ≤ 2 ^ 15) {input : Step M conf}
    (hsettled : p.Settled input) (hs : p.step input = some p') :
    p'.Numbered ∧ (p.Published → (p'.Published ↔ p.SkipsHeld input)) := by
  cases input with
  | add peer =>
    cases hs
    exact (h.add hsize peer).imp_right fun hadd hpub => iff_true_intro (hadd hpub)
  | send m ref =>
    exact (h.sendMessage hs).imp_right fun hsame hpub => iff_true_intro (hsame.mpr hpub)
  | read n unpacked =>
    rw [Port.step] at hs
    split_ifs at hs with hn
    cases hs
    exact h.read hn unpacked
  | seen n k =>
    rw [Port.step] at hs
    split_ifs at hs with hn
    exact (h.handleSeen hsize hn hs).imp_right fun hseen hpub => iff_true_intro (hseen hpub)
  | handleSend refs =>
    exact (h.handleSend hsettled hs).imp_right fun hsame hpub => iff_true_intro (hsame.mpr hpub)

theorem start (wait : List M) : ({ wait := wait } : Port M conf).Numbered where
  head_eq := (zero_mod _).symm
  last_eq := (zero_mod _).symm
  freed_le := le_rfl
  room := by
    rw [Nat.zero_add]
    exact conf.pos
  slots := fun i _ hi => nomatch hi
  refs := fun i _ _ hi => nomatch hi
  readers := fun _ hn => absurd rfl hn

end Numbered

/-- Whatever a port goes through, every peer gets its messages as long as the sender counts the
slots in use only when all peers have released everything or none has. -/
theorem kept_of_settled (hsize : conf.qcount ≤ 2 ^ 15) (wait : List M)
    (steps : List (Step M conf)) (p : Port M conf)
    (hrun : exec step { wait := wait } steps = some p)
    (hsettled : Along step Settled { wait := wait } steps) : p.Kept := by
  have hstep : ∀ (p : Port M conf) input p', p.Numbered → p.Settled input →
      p.step input = some p' → p'.Numbered :=
    fun _ _ _ h hc hs => (h.step hsize hc hs).1
  exact (invariant_of_along hstep (Numbered.start wait) hsettled hrun).kept

def twoPeers : PortConf := ⟨2, 4, by decide, by decide⟩

def firstPeer : Fin twoPeers.pcount := ⟨0, by decide⟩

def secondPeer : Fin twoPeers.pcount := ⟨1, by decide⟩

/-- Both peers read a message and release it before its slot is freed. -/
def bothReleased : List (Step ℕ twoPeers) :=
  [.add 1, .add 2, .send 7 (some 9), .read firstPeer .taken, .read secondPeer .taken,
    .seen firstPeer 0, .seen secondPeer 0, .handleSend fun _ => none]

theorem kept_of_settled_bothReleased :
    ∃ p, exec step ({} : Port ℕ twoPeers) bothReleased = some p ∧ p.freed = 1 ∧ p.Kept := by
  have hrun : (exec step ({} : Port ℕ twoPeers) bothReleased).map Port.freed = some 1 := rfl
  obtain ⟨p, hp, hfreed⟩ := map_eq_some_iff.mp hrun
  exact ⟨p, hp, hfreed, kept_of_settled (by decide) [] bothReleased p hp (by decide)⟩

/-- Only the first peer reads the message and releases it before the slot is freed. -/
def firstReleased : List (Step ℕ twoPeers) :=
  [.add 1, .add 2, .send 7 (some 9), .read firstPeer .taken, .seen firstPeer 0,
    .handleSend fun _ => none, .read secondPeer .taken]

/-- The second peer finds that its message has been freed. -/
theorem freed_unread : ∃ p, exec step ({} : Port ℕ twoPeers) firstReleased = some p ∧ ¬ p.Kept := by
  have hrun : (exec step ({} : Port ℕ twoPeers) firstReleased).map (fun p =>
      ((p.readers secondPeer).got, p.sent, (p.readers secondPeer).added,
        (p.peers secondPeer).peer)) = some ([none], [7], 0, 2) := rfl
  obtain ⟨p, hp, heq⟩ := map_eq_some_iff.mp hrun
  refine ⟨p, hp, fun hkept => ?_⟩
  simp only [Prod.mk.injEq] at heq
  obtain ⟨hgot, hsent, hadded, hpeer⟩ := heq
  have hattached : p.Attached secondPeer := by
    rw [Attached, hpeer]
    decide
  have hprefix := hkept.inOrder secondPeer hattached
  rw [hgot, hsent, hadded] at hprefix
  revert hprefix
  decide

/-- Whatever a port goes through, the published pointers are up to date as long as packets are only
skipped while there is a message to release, and a step that skips one otherwise ends that. -/
theorem published_of_skipsHeld (hsize : conf.qcount ≤ 2 ^ 15) (wait : List M)
    (steps : List (Step M conf)) (p : Port M conf)
    (hrun : exec step { wait := wait } steps = some p)
    (hsteps : Along step (fun p input => p.Settled input ∧ p.SkipsHeld input) { wait := wait }
      steps) :
    p.Published ∧ ∀ input p', p.Settled input → p.step input = some p' →
      (p'.Published ↔ p.SkipsHeld input) := by
  have hstep : ∀ (p : Port M conf) input p', p.Numbered ∧ p.Published →
      p.Settled input ∧ p.SkipsHeld input → p.step input = some p' →
      p'.Numbered ∧ p'.Published := by
    rintro p input p' ⟨h, hpub⟩ ⟨hsettled, hskips⟩ hs
    exact (h.step hsize hsettled hs).imp_right fun hiff => (hiff hpub).mpr hskips
  have hstart : ({ wait := wait } : Port M conf).Published := fun _ hn => absurd rfl hn
  obtain ⟨h, hpub⟩ := invariant_of_along hstep ⟨Numbered.start wait, hstart⟩ hsteps hrun
  exact ⟨hpub, fun input p' hsettled hs => (h.step hsize hsettled hs).2 hpub⟩

/-- A packet is skipped while the message before it is held. -/
def skippedHeld : List (Step ℕ twoPeers) :=
  [.add 1, .send 7 (some 9), .send 8 (some 10), .read firstPeer .taken, .read firstPeer .failed,
    .seen firstPeer 0]

theorem published_of_skipsHeld_two :
    ∃ p, exec step ({} : Port ℕ twoPeers) skippedHeld = some p ∧ (p.peers firstPeer).next = 2 ∧
      p.Published := by
  have hrun : (exec step ({} : Port ℕ twoPeers) skippedHeld).map
      (fun p => (p.peers firstPeer).next) = some 2 := rfl
  obtain ⟨p, hp, hnext⟩ := map_eq_some_iff.mp hrun
  exact ⟨p, hp, hnext, (published_of_skipsHeld (by decide) [] skippedHeld p hp (by decide)).1⟩

/-- The first packet is skipped, the second one is read and released. -/
def skippedFirst : List (Step ℕ twoPeers) :=
  [.add 1, .send 7 (some 9), .read firstPeer .failed, .send 8 (some 10), .read firstPeer .taken,
    .seen firstPeer 0]

/-- Nothing is held, but what is published stays at the packet that was skipped. -/
theorem skipped_kept : ∃ p, exec step ({} : Port ℕ twoPeers) skippedFirst = some p ∧
    ¬p.Published := by
  have hrun : (exec step ({} : Port ℕ twoPeers) skippedFirst).map (fun p =>
      ((p.peers firstPeer).peer, (p.peers firstPeer).next.toNat,
        (p.readers firstPeer).oldest)) = some (1, 0, 2) := rfl
  obtain ⟨p, hp, heq⟩ := map_eq_some_iff.mp hrun
  refine ⟨p, hp, fun hpub => ?_⟩
  simp only [Prod.mk.injEq] at heq
  obtain ⟨hpeer, hnext, holdest⟩ := heq
  have hsame := hpub firstPeer (by rw [Attached, hpeer]; decide)
  rw [hnext, holdest] at hsame
  cases hsame

end Port

end AdaptivePlatform.Npc
