import AdaptivePlatform.Foundations.Bytes

/-!
# Receive buffers that are shared with views

Bytes are received into a piece of memory, and parts of it are handed out
without copying them: a view refers to bytes of the memory until it is released.
The buffer goes on behind the bytes that were handed out, or moves its content
to the start of a piece of memory to which no view refers. The content is then
the same, and so is what each view shows.
-/
namespace AdaptivePlatform

open List Function

/-- Bytes in a piece of memory. -/
structure View where
  obj : ℕ
  off : ℕ
  len : ℕ
  deriving DecidableEq, Repr

/-- `size` bytes from `start` on in the piece of memory `obj`. All pieces have the same capacity,
and no view shows bytes of this one from `start` on. -/
structure SharedBuffer (capacity : ℕ) where
  mem : ℕ → List uint8
  obj : ℕ
  start : ℕ
  size : ℕ
  views : List View
  length_mem : ∀ o, (mem o).length = capacity
  fits : start + size ≤ capacity
  below : ∀ v ∈ views, v.obj = obj → v.off + v.len ≤ start

namespace Bytes

variable {data bs : List uint8} {pos : ℕ}

theorem take_drop_splice_of_le (h : pos + bs.length ≤ data.length) {off n : ℕ}
    (hbelow : off + n ≤ pos) : ((splice data pos bs).drop off).take n = (data.drop off).take n := by
  rw [take_drop, take_drop, splice, take_append_of_le_length, take_take, Nat.min_eq_left hbelow]
  rw [length_take]
  omega

theorem take_drop_splice_append (h : pos + bs.length ≤ data.length) {off n : ℕ}
    (hpos : off + n = pos) :
    ((splice data pos bs).drop off).take (n + bs.length) = (data.drop off).take n ++ bs := by
  have hdrop : (splice data pos bs).drop (off + n) = bs ++ data.drop (pos + bs.length) := by
    have hlen : (data.take pos).length = off + n := by
      rw [length_take]
      omega
    rw [splice, drop_left' hlen]
  rw [take_add, take_drop_splice_of_le h hpos.le, drop_drop, hdrop, take_left' rfl]

end Bytes

namespace SharedBuffer

variable {capacity : ℕ} (b : SharedBuffer capacity)

def content : List uint8 := ((b.mem b.obj).drop b.start).take b.size

/-- The bytes that the view shows. -/
def bytes (v : View) : List uint8 := ((b.mem v.obj).drop v.off).take v.len

def total : ℕ := capacity - b.start

def empty (capacity : ℕ) : SharedBuffer capacity where
  mem _ := List.replicate capacity 0
  obj := 0
  start := 0
  size := 0
  views := []
  length_mem _ := List.length_replicate
  fits := Nat.zero_le capacity
  below _ h := absurd h List.not_mem_nil

/-- The bytes are put behind the content, as far as there is room. -/
def receive (data : List uint8) : SharedBuffer capacity where
  mem := Function.update b.mem b.obj
    (Bytes.splice (b.mem b.obj) (b.start + b.size) (data.take (b.total - b.size)))
  obj := b.obj
  start := b.start
  size := b.size + (data.take (b.total - b.size)).length
  views := b.views
  length_mem o := by
    have hfits := b.fits
    by_cases ho : o = b.obj
    · rw [ho, Function.update_self, Bytes.length_splice, b.length_mem]
      rw [b.length_mem, List.length_take, total]
      omega
    · rw [Function.update_of_ne ho, b.length_mem]
  fits := by
    have hfits := b.fits
    rw [List.length_take, total]
    omega
  below := b.below

def consume (n : ℕ) : SharedBuffer capacity where
  mem := b.mem
  obj := b.obj
  start := b.start + min n b.size
  size := b.size - n
  views := b.views
  length_mem := b.length_mem
  fits := by
    have := b.fits
    omega
  below v hv ho := (b.below v hv ho).trans (Nat.le_add_right _ _)

/-- A view of the first bytes of the content. -/
def front (n : ℕ) : View := ⟨b.obj, b.start, min n b.size⟩

/-- The first bytes of the content are handed out. -/
def share (n : ℕ) : SharedBuffer capacity :=
  { b.consume n with
    views := b.front n :: b.views
    below := by
      intro v hv ho
      rcases List.mem_cons.mp hv with rfl | hv
      · exact le_rfl
      · exact (b.consume n).below v hv ho }

def release (keep : View → Bool) : SharedBuffer capacity :=
  { b with
    views := b.views.filter keep
    below := fun v hv => b.below v (List.mem_filter.mp hv).1 }

/-- The content is moved to the start of memory without views. -/
def moveTo (o : ℕ) (h : ∀ v ∈ b.views, v.obj ≠ o) : SharedBuffer capacity where
  mem := Function.update b.mem o (Bytes.splice (b.mem o) 0 b.content)
  obj := o
  start := 0
  size := b.size
  views := b.views
  length_mem o' := by
    have hfits := b.fits
    by_cases ho : o' = o
    · rw [ho, Function.update_self, Bytes.length_splice, b.length_mem]
      rw [b.length_mem, content, List.length_take, List.length_drop]
      omega
    · rw [Function.update_of_ne ho, b.length_mem]
  fits := by
    have := b.fits
    omega
  below v hv ho := absurd ho (h v hv)

variable {b}

@[simp] theorem length_content : b.content.length = b.size := by
  have := b.fits
  rw [content, length_take, length_drop, b.length_mem]
  omega

theorem content_empty : (empty capacity).content = [] := by simp [content, empty]

section

variable {data : List uint8} (h : data.length ≤ b.total - b.size)

include h

theorem content_receive : (b.receive data).content = b.content ++ data := by
  have htake : data.take (b.total - b.size) = data := take_of_length_le h
  have hfits := b.fits
  simp only [content, receive, htake, update_self]
  refine Bytes.take_drop_splice_append ?_ rfl
  rw [b.length_mem]
  rw [total] at h
  omega

theorem bytes_receive {v : View} (hv : v ∈ b.views) : (b.receive data).bytes v = b.bytes v := by
  have htake : data.take (b.total - b.size) = data := take_of_length_le h
  have hfits := b.fits
  by_cases ho : v.obj = b.obj
  · simp only [bytes, receive, htake, ho, update_self]
    refine Bytes.take_drop_splice_of_le ?_ ((b.below v hv ho).trans (Nat.le_add_right _ _))
    rw [b.length_mem]
    rw [total] at h
    omega
  · simp [bytes, receive, update_of_ne ho]

end

theorem content_consume (n : ℕ) : (b.consume n).content = b.content.drop n := by
  simp only [content, consume]
  rw [drop_take, drop_drop]
  rcases Nat.le_total n b.size with h | h
  · rw [Nat.min_eq_left h]
  · rw [Nat.sub_eq_zero_of_le h, take_zero, take_zero]

theorem content_share (n : ℕ) : (b.share n).content = b.content.drop n := content_consume n

theorem bytes_front (n : ℕ) : (b.share n).bytes (b.front n) = b.content.take n := by
  simp only [bytes, share, front, consume, content]
  rw [take_take]

theorem total_share_size (h : b.total ≤ b.size) : (b.share b.size).total = 0 := by
  have htotal : b.total = capacity - b.start := rfl
  change capacity - (b.start + min b.size b.size) = 0
  omega

section

variable {o : ℕ} (h : ∀ v ∈ b.views, v.obj ≠ o)

theorem content_moveTo : (b.moveTo o h).content = b.content := by
  have hfits := b.fits
  have hsplice : 0 + b.content.length ≤ (b.mem o).length := by
    rw [length_content, b.length_mem]
    omega
  have happend : ((Bytes.splice (b.mem o) 0 b.content).drop 0).take (0 + b.content.length) = _ :=
    Bytes.take_drop_splice_append hsplice rfl
  rw [take_zero, nil_append, Nat.zero_add, length_content] at happend
  simp only [content, moveTo, update_self]
  exact happend

theorem bytes_moveTo {v : View} (hv : v ∈ b.views) : (b.moveTo o h).bytes v = b.bytes v := by
  simp [bytes, moveTo, update_of_ne (h v hv)]

end

end SharedBuffer

end AdaptivePlatform
