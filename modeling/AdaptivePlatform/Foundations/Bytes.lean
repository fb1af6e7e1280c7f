import AdaptivePlatform.Foundations.Cells
import Mathlib.Tactic.Ring

/-!
# Words and buffers of bytes

The unsigned integers of the platform are bit vectors of their width. A word is
laid out in a buffer most significant byte first; `beBytes` and `beWord` are the
shift expressions in which such code writes and reads it, `leBytes` and `leNat` are
for memory in which the least significant byte comes first. `writeBytes` and
`segment` access a run of cells of a buffer and have no result outside it; on a
run inside it a write is a `splice`, and the last group of lemmas says what a
later read finds.
-/
namespace AdaptivePlatform

open List Option BitVec Nat

abbrev uint8 := BitVec 8
abbrev uint16 := BitVec 16
abbrev uint32 := BitVec 32
abbrev uint64 := BitVec 64

namespace Bytes

section

variable {w : ℕ} (n : ℕ) {y : BitVec w}

/-- `(b₀ << 8·(n-1)) + (b₁ << 8·(n-2)) + ⋯` -/
def beWord (w : ℕ) : List uint8 → BitVec w
  | [] => 0
  | b :: bs => (b.setWidth w <<< (8 * bs.length)) + beWord w bs

/-- `[(uint8)(x >> 8·(n-1)), …, (uint8)x]` -/
def beBytes : ℕ → BitVec w → List uint8
  | 0, _ => []
  | n + 1, x => (x >>> (8 * n)).setWidth 8 :: beBytes n x

@[simp] theorem length_beBytes (x : BitVec w) : (beBytes n x).length = n := by
  induction n with
  | zero => rfl
  | succ n ih => simp [beBytes, ih]

theorem toNat_beWord_beBytes {n : ℕ} (h : 8 * n ≤ w) (x : BitVec w) :
    (beWord w (beBytes n x)).toNat = x.toNat % 2 ^ (8 * n) := by
  induction n with
  | zero => simp [beBytes, beWord, mod_one]
  | succ n ih =>
    have hpow : 2 ^ (8 * (n + 1)) = 2 ^ (8 * n) * 256 := by rw [Nat.mul_succ, Nat.pow_add]
    have hw : 2 ^ (8 * (n + 1)) ≤ 2 ^ w := Nat.pow_le_pow_right (by decide) h
    have hbyte : x.toNat / 2 ^ (8 * n) % 256 < 2 ^ w := by
      refine lt_of_lt_of_le (mod_lt _ (by decide)) (le_trans ?_ hw)
      rw [hpow]
      exact Nat.le_mul_of_pos_left _ (Nat.two_pow_pos _)
    have hsplit : x.toNat % 2 ^ (8 * (n + 1)) =
        x.toNat / 2 ^ (8 * n) % 256 * 2 ^ (8 * n) + x.toNat % 2 ^ (8 * n) := by
      rw [hpow, mod_mul]
      ring
    have hlt : x.toNat % 2 ^ (8 * (n + 1)) < 2 ^ w :=
      lt_of_lt_of_le (mod_lt _ (Nat.two_pow_pos _)) hw
    have htop : x.toNat / 2 ^ (8 * n) % 256 * 2 ^ (8 * n) < 2 ^ w := by omega
    rw [beBytes, beWord, length_beBytes, toNat_add, ih (by omega), toNat_shiftLeft,
      toNat_setWidth, toNat_setWidth, toNat_ushiftRight,
      shiftRight_eq_div_pow, Nat.shiftLeft_eq, mod_eq_of_lt hbyte, mod_eq_of_lt htop,
      ← hsplit, mod_eq_of_lt hlt]

theorem beWord_beBytes {n : ℕ} (h : 8 * n = w) (x : BitVec w) : beWord w (beBytes n x) = x := by
  apply eq_of_toNat_eq
  rw [toNat_beWord_beBytes (le_of_eq h), h, mod_eq_of_lt x.isLt]

theorem beWord_singleton (b : uint8) : beWord 8 [b] = b := by simp [beWord]

/-- `x | (1 << n)` for a shorter `x`. -/
theorem toNat_or_twoPow {n : ℕ} {x : BitVec w} (hx : x.toNat < 2 ^ n) (hy : y.toNat = 2 ^ n) :
    (x ||| y).toNat = 2 ^ n + x.toNat := by
  have hor := two_pow_add_eq_or_of_lt hx 1
  rw [Nat.mul_one] at hor
  rw [toNat_or, hy, Nat.or_comm, hor]

/-- `x & ((1 << n) - 1)` -/
theorem toNat_and_mask {n : ℕ} (hy : y.toNat = 2 ^ n - 1) (x : BitVec w) :
    (x &&& y).toNat = x.toNat % 2 ^ n := by
  rw [toNat_and, hy, and_two_pow_sub_one_eq_mod]

def leBytes : ℕ → ℕ → List uint8
  | 0, _ => []
  | n + 1, v => BitVec.ofNat 8 v :: leBytes n (v / 2 ^ 8)

def leNat : List uint8 → ℕ
  | [] => 0
  | b :: bs => b.toNat + 2 ^ 8 * leNat bs

theorem length_leBytes (v : ℕ) : (leBytes n v).length = n := by
  induction n generalizing v with
  | zero => rfl
  | succ n ih => rw [leBytes, length_cons, ih]

theorem leNat_leBytes (v : ℕ) : leNat (leBytes n v) = v % 2 ^ (8 * n) := by
  induction n generalizing v with
  | zero => simp [leBytes, leNat, mod_one]
  | succ n ih =>
    rw [leBytes, leNat, ih, toNat_ofNat, Nat.mul_succ, Nat.add_comm (8 * n), Nat.pow_add, mod_mul]

theorem leBytes_add (m n v : ℕ) :
    leBytes (m + n) v = leBytes m v ++ leBytes n (v / 2 ^ (8 * m)) := by
  induction m generalizing v with
  | zero => simp [leBytes]
  | succ m ih =>
    rw [succ_add, leBytes, ih, leBytes, List.cons_append, Nat.div_div_eq_div_mul,
      Nat.mul_succ, Nat.add_comm (8 * m), Nat.pow_add]

/-! A field at the head of a record is read, passed over, or entered. -/

theorem leNat_take_leBytes {v : ℕ} (hv : v < 2 ^ (8 * n)) (rest : List uint8) :
    leNat ((leBytes n v ++ rest).take n) = v := by
  rw [List.take_left' (length_leBytes n v), leNat_leBytes, mod_eq_of_lt hv]

theorem drop_leBytes_append {m : ℕ} (hm : n ≤ m) (v : ℕ) (rest : List uint8) :
    (leBytes n v ++ rest).drop m = rest.drop (m - n) := by
  rw [List.drop_append, List.drop_of_length_le (by rwa [length_leBytes]), length_leBytes,
    List.nil_append]

theorem drop_leBytes_within {m : ℕ} (hm : m < n) (v : ℕ) (rest : List uint8) :
    (leBytes n v ++ rest).drop m = leBytes (n - m) (v / 2 ^ (8 * m)) ++ rest := by
  obtain ⟨k, rfl⟩ := Nat.exists_eq_add_of_lt hm
  rw [Nat.add_assoc, leBytes_add, List.append_assoc, List.drop_left' (length_leBytes m v),
    Nat.add_sub_cancel_left]

end

section

variable {data bs : List uint8} {pos : ℕ} {data' pre : List uint8} {n : ℕ}

/-- `data[pos] = b₀; data[pos + 1] = b₁; …` -/
def writeBytes : List uint8 → ℕ → List uint8 → Option (List uint8)
  | data, _, [] => some data
  | data, pos, b :: bs => (Cells.write data pos b).bind fun data => writeBytes data (pos + 1) bs

/-- The `n` bytes from `&data[pos]` on. -/
def segment (data : List uint8) (pos n : ℕ) : Option (List uint8) :=
  if pos + n ≤ data.length then some ((data.drop pos).take n) else none

/-- The buffer with `bs` in place of its cells from `pos` on. -/
def splice (data : List uint8) (pos : ℕ) (bs : List uint8) : List uint8 :=
  data.take pos ++ (bs ++ data.drop (pos + bs.length))

theorem length_splice (h : pos + bs.length ≤ data.length) :
    (splice data pos bs).length = data.length := by
  simp only [splice, length_append, length_take, length_drop]
  omega

theorem getElem?_splice (h : pos + bs.length ≤ data.length) (i : ℕ) :
    (splice data pos bs)[i]? =
      if i < pos then data[i]? else if i < pos + bs.length then bs[i - pos]? else data[i]? := by
  have htake : (data.take pos).length = pos := by
    rw [length_take]
    omega
  unfold splice
  rw [getElem?_append, htake, getElem?_append]
  split_ifs with hlow hmid hin hin
  · exact getElem?_take_of_lt hlow
  · rfl
  · omega
  · omega
  · rw [getElem?_drop]
    congr 1
    omega

theorem splice_set (b : uint8) (h : pos + (b :: bs).length ≤ data.length) :
    splice (data.set pos b) (pos + 1) bs = splice data pos (b :: bs) := by
  simp only [length_cons] at h
  apply ext_getElem?
  intro i
  rw [getElem?_splice (by simp only [length_set]; omega),
    getElem?_splice (by simp only [length_cons]; omega), getElem?_set]
  simp only [length_cons]
  by_cases hi : i < pos
  · rw [if_pos (by omega), if_neg (by omega), if_pos hi]
  · by_cases heq : i = pos
    · subst heq
      rw [if_pos (by omega), if_pos rfl, if_pos (by omega), if_neg (by omega), if_pos (by omega),
        Nat.sub_self, getElem?_cons_zero]
    · obtain ⟨j, rfl⟩ : ∃ j, i = pos + 1 + j := ⟨i - (pos + 1), by omega⟩
      have hsub : pos + 1 + j - pos = j + 1 := by omega
      have hlow : ¬ pos + 1 + j < pos + 1 := by omega
      have hlen : pos + (bs.length + 1) = pos + 1 + bs.length := by omega
      simp only [if_neg hi, if_neg hlow, if_neg (Ne.symm heq), hsub, getElem?_cons_succ,
        Nat.add_sub_cancel_left, hlen]

theorem writeBytes_eq (h : pos + bs.length ≤ data.length) :
    writeBytes data pos bs = some (splice data pos bs) := by
  induction bs generalizing data pos with
  | nil => simp [writeBytes, splice]
  | cons b bs ih =>
    have hlen : pos + 1 + bs.length ≤ (data.set pos b).length := by
      simp only [length_cons, length_set] at h ⊢
      omega
    have hpos : pos < data.length := by
      simp only [length_cons] at h
      omega
    rw [writeBytes, Cells.write_eq hpos, bind_some, ih hlen, splice_set b h]

theorem writeBytes_behind {pre post : List uint8} (hpos : pos = pre.length)
    (h : bs.length ≤ post.length) :
    writeBytes (pre ++ post) pos bs = some (pre ++ (bs ++ post.drop bs.length)) := by
  subst hpos
  rw [writeBytes_eq (by rw [length_append]; omega), splice, take_left, drop_length_add_append]

theorem writeBytes_over {pre old post : List uint8} (hpos : pos = pre.length)
    (h : bs.length = old.length) :
    writeBytes (pre ++ (old ++ post)) pos bs = some (pre ++ (bs ++ post)) := by
  rw [writeBytes_behind hpos (by rw [length_append]; omega), drop_left' h.symm]

theorem writeBytes_whole (h : bs.length = data.length) : writeBytes data 0 bs = some bs := by
  simpa using @writeBytes_over bs 0 [] data [] rfl h

theorem writeBytes_eq_none (hne : bs ≠ []) (h : data.length < pos + bs.length) :
    writeBytes data pos bs = none := by
  induction bs generalizing data pos with
  | nil => exact absurd rfl hne
  | cons b bs ih =>
    rw [length_cons] at h
    rcases Nat.lt_or_ge pos data.length with hpos | hpos
    · have hrest : bs ≠ [] := by
        rintro rfl
        rw [length_nil] at h
        omega
      rw [writeBytes, Cells.write_eq hpos, bind_some, ih hrest (by rw [length_set]; omega)]
    · rw [writeBytes, Cells.write_eq_none hpos, bind_none]

theorem length_of_writeBytes (h : writeBytes data pos bs = some data') :
    data'.length = data.length := by
  induction bs generalizing data pos with
  | nil => rw [← some.inj h]
  | cons b bs ih =>
    obtain ⟨next, hwrite, hrest⟩ := bind_eq_some_iff.mp h
    rcases Nat.lt_or_ge pos data.length with hpos | hpos
    · rw [Cells.write_eq hpos] at hwrite
      rw [ih hrest, ← some.inj hwrite, length_set]
    · rw [Cells.write_eq_none hpos] at hwrite
      cases hwrite

theorem segment_eq (h : pos + n ≤ data.length) :
    segment data pos n = some ((data.drop pos).take n) := if_pos h

theorem segment_append (hpre : pre.length = pos) (hbs : bs.length = n) (post : List uint8) :
    segment (pre ++ (bs ++ post)) pos n = some bs := by
  rw [segment_eq, drop_left' hpre, take_left' hbs]
  rw [length_append, length_append, hpre, hbs]
  omega

variable {k : ℕ} {ranges : List (ℕ × ℕ)}

theorem segment_append_append {skip : List uint8} (hpre : pre.length = pos)
    (hskip : skip.length = k) (hbs : bs.length = n) (post : List uint8) :
    segment (pre ++ (skip ++ (bs ++ post))) (pos + k) n = some bs := by
  rw [← List.append_assoc]
  exact segment_append (by rw [length_append, hpre, hskip]) hbs post

theorem segment_take (h : segment data pos n = some bs) (hk : k ≤ n) :
    segment data pos k = some (bs.take k) := by
  unfold segment at h
  split_ifs at h with hin
  cases h
  rw [segment_eq (by omega), take_take, Nat.min_eq_left hk]

theorem getElem?_of_segment {i : ℕ} (h : segment data pos n = some bs) (hi : i < n) :
    data[pos + i]? = bs[i]? := by
  unfold segment at h
  split_ifs at h
  cases h
  rw [getElem?_take_of_lt hi, getElem?_drop]

theorem segment_congr (hlen : data'.length = data.length)
    (h : ∀ i, pos ≤ i → i < pos + n → data'[i]? = data[i]?) :
    segment data' pos n = segment data pos n := by
  unfold segment
  rw [hlen]
  split_ifs
  · congr 1
    apply ext_getElem?
    intro i
    rw [getElem?_take, getElem?_take]
    split_ifs with hi
    · rw [getElem?_drop, getElem?_drop]
      exact h _ (by omega) (by omega)
    · rfl
  · rfl

theorem segment_splice_self (h : pos + bs.length ≤ data.length) :
    segment (splice data pos bs) pos bs.length = some bs := by
  rw [segment_eq (by rw [length_splice h]; exact h)]
  have htake : (data.take pos).length = pos := by
    rw [length_take]
    omega
  unfold splice
  rw [drop_left' htake, take_left' rfl]

def segments (data : List uint8) (ranges : List (ℕ × ℕ)) : Option (List (List uint8)) :=
  ranges.mapM fun r => segment data r.1 r.2

theorem exists_segments (h : ∀ r ∈ ranges, r.1 + r.2 ≤ data.length) :
    ∃ parts, segments data ranges = some parts := by
  unfold segments
  induction ranges with
  | nil => exact ⟨[], rfl⟩
  | cons r ranges ih =>
    obtain ⟨parts, hparts⟩ := ih fun r hr => h r (mem_cons_of_mem _ hr)
    rw [mapM_cons, segment_eq (h r mem_cons_self), hparts]
    exact ⟨_, rfl⟩

theorem segments_congr (h : ∀ r ∈ ranges, segment data' r.1 r.2 = segment data r.1 r.2) :
    segments data' ranges = segments data ranges := by
  unfold segments
  induction ranges with
  | nil => rfl
  | cons r ranges ih =>
    rw [forall_mem_cons] at h
    rw [mapM_cons, mapM_cons, h.1, ih h.2]

theorem exists_segment_of_segments {parts : List (List uint8)}
    (h : segments data ranges = some parts) (h' : segments data' ranges = some parts) :
    ∀ r ∈ ranges, ∃ bs, segment data r.1 r.2 = some bs ∧ segment data' r.1 r.2 = some bs := by
  unfold segments at h h'
  induction ranges generalizing parts with
  | nil => exact forall_mem_nil _
  | cons r ranges ih =>
    simp only [mapM_cons, bind_eq_bind, bind_eq_some_iff] at h h'
    obtain ⟨bs, hbs, rest, hrest, hparts⟩ := h
    obtain ⟨bs', hbs', rest', hrest', hparts'⟩ := h'
    obtain ⟨rfl, rfl⟩ := List.cons.inj (some.inj (hparts.trans hparts'.symm))
    exact forall_mem_cons.mpr ⟨⟨bs, hbs, hbs'⟩, ih hrest hrest'⟩

def readWord (w : ℕ) (data : List uint8) (pos n : ℕ) : Option (BitVec w) :=
  (segment data pos n).map (beWord w)

end

section

/-- A run of bytes and the position where it is written. -/
abbrev Field := ℕ × List uint8

def Field.stop (f : Field) : ℕ := f.1 + f.2.length

/-- `f` shares no cell with the `n` cells from `a` on. -/
def Field.Avoids (f : Field) (a n : ℕ) : Prop := a + n ≤ f.1 ∨ f.stop ≤ a

def writeFields : List uint8 → List Field → Option (List uint8)
  | data, [] => some data
  | data, f :: fields => (writeBytes data f.1 f.2).bind fun data => writeFields data fields

/-- `data'` is `data` with the fields written into it. -/
structure Written (data : List uint8) (fields : List Field) (data' : List uint8) : Prop where
  length_eq : data'.length = data.length
  cells_eq : ∀ i, (∀ f ∈ fields, i < f.1 ∨ f.stop ≤ i) → data'[i]? = data[i]?
  field_eq : ∀ f ∈ fields, segment data' f.1 f.2.length = some f.2

variable {data data' : List uint8} {fields : List Field}

section

variable (h : Written data fields data')

include h

theorem Written.segment_eq {a n : ℕ}
    (havoid : ∀ f ∈ fields, f.Avoids a n) : segment data' a n = segment data a n := by
  apply segment_congr h.length_eq
  intro i hlo hhi
  apply h.cells_eq
  intro f hf
  have := havoid f hf
  unfold Field.Avoids at this
  omega

theorem Written.segments_eq {ranges : List (ℕ × ℕ)}
    (havoid : ∀ r ∈ ranges, ∀ f ∈ fields, f.Avoids r.1 r.2) :
    segments data' ranges = segments data ranges :=
  segments_congr fun r hr => h.segment_eq (havoid r hr)

theorem Written.readWord_eq {w pos n : ℕ} {x : BitVec w}
    (hf : (pos, beBytes n x) ∈ fields) (hw : 8 * n = w) :
    readWord w data' pos n = some x := by
  have hfield := h.field_eq _ hf
  rw [length_beBytes] at hfield
  rw [readWord, hfield, map_some, beWord_beBytes hw]

theorem Written.cell_eq {pos : ℕ} {b : uint8} (hf : (pos, [b]) ∈ fields) : data'[pos]? = some b :=
  getElem?_of_segment (i := 0) (h.field_eq _ hf) Nat.one_pos

end

theorem Written.append {data'' : List uint8} {more : List Field} (h : Written data fields data')
    (hmore : Written data' more data'')
    (havoid : ∀ f ∈ fields, ∀ g ∈ more, g.Avoids f.1 f.2.length) :
    Written data (fields ++ more) data'' where
  length_eq := hmore.length_eq.trans h.length_eq
  cells_eq i hi := by
    rw [hmore.cells_eq i fun f hf => hi f (mem_append_right _ hf),
      h.cells_eq i fun f hf => hi f (mem_append_left _ hf)]
  field_eq f hf := by
    rcases mem_append.mp hf with hf | hf
    · rw [hmore.segment_eq (havoid f hf), h.field_eq f hf]
    · exact hmore.field_eq f hf

theorem written_splice {f : Field} (h : f.stop ≤ data.length) :
    Written data [f] (splice data f.1 f.2) where
  length_eq := length_splice h
  cells_eq i hi := by
    have := hi f mem_cons_self
    unfold Field.stop at this
    rw [getElem?_splice h]
    split_ifs
    · rfl
    · omega
    · rfl
  field_eq g hg := by
    obtain rfl := mem_singleton.mp hg
    exact segment_splice_self h

/-- Disjoint fields inside the buffer can be written one after the other. -/
theorem exists_writeFields (hin : ∀ f ∈ fields, f.stop ≤ data.length)
    (hdisj : fields.Pairwise fun f g => g.Avoids f.1 f.2.length) :
    ∃ data', writeFields data fields = some data' ∧ Written data fields data' := by
  induction fields generalizing data with
  | nil => exact ⟨data, rfl, rfl, fun _ _ => rfl, by simp⟩
  | cons f fields ih =>
    rw [pairwise_cons] at hdisj
    have hf := hin f mem_cons_self
    have hone := written_splice hf
    have hrest : ∀ g ∈ fields, g.stop ≤ (splice data f.1 f.2).length := by
      intro g hg
      rw [hone.length_eq]
      exact hin g (mem_cons_of_mem _ hg)
    obtain ⟨data', hwrite, hwritten⟩ := ih hrest hdisj.2
    refine ⟨data', ?_, hone.append hwritten ?_⟩
    · rw [writeFields, writeBytes_eq hf, bind_some, hwrite]
    · intro g hg
      obtain rfl := mem_singleton.mp hg
      exact hdisj.1

/-- Two buffers of one length that differ in the cells `lo … hi - 1` at most. -/
structure AgreeOutside (lo hi : ℕ) (data data' : List uint8) : Prop where
  length_eq : data'.length = data.length
  cells_eq : ∀ i, i < lo ∨ hi ≤ i → data'[i]? = data[i]?

theorem Written.agreeOutside (h : Written data fields data') {lo hi : ℕ}
    (hin : ∀ f ∈ fields, lo ≤ f.1 ∧ f.stop ≤ hi) : AgreeOutside lo hi data data' where
  length_eq := h.length_eq
  cells_eq i hi := by
    apply h.cells_eq
    intro f hf
    have := hin f hf
    omega

end

end Bytes

end AdaptivePlatform
