import AdaptivePlatform.Foundations.Bytes

/-!
# Code that reads a buffer

A checked read outside the buffer throws, an unchecked one is undefined. `Reads`
runs such code on a buffer and keeps, beside its result, how far into the buffer
it has reached. The reach tells an undefined run from the others (`Sound`), so
statements about positions follow from statements about results.
-/
namespace AdaptivePlatform

open Bytes

/-- How a run can end without a result. -/
inductive Failure
  /-- A checked read has thrown. -/
  | outOfRange
  /-- Something was thrown in a function that must not throw. -/
  | terminate
  /-- An unchecked read outside the buffer. -/
  | undefined
  deriving DecidableEq, Repr

/-- What becomes of a failure in a function that must not throw. -/
def Failure.inNoexcept : Failure → Failure
  | .outOfRange => .terminate
  | .terminate => .terminate
  | .undefined => .undefined

/-- Code on a buffer: its result, and a bound that every position it reads lies below. -/
def Reads (α : Type) := List uint8 → Except Failure α × ℕ

namespace Reads

variable {α β : Type} {c : Reads α} {f : α → Reads β} {m : List uint8}

def result (c : Reads α) (m : List uint8) : Except Failure α := (c m).1

def reach (c : Reads α) (m : List uint8) : ℕ := (c m).2

instance instMonad : Monad Reads where
  pure a := fun _ => (.ok a, 0)
  bind c f := fun m =>
    match c m with
    | (.ok a, n) => ((f a m).1, max n (f a m).2)
    | (.error e, n) => (.error e, n)

/-- `m.at(i)` -/
def checked (i : ℕ) : Reads uint8 := fun m =>
  match m[i]? with
  | some b => (.ok b, i + 1)
  | none => (.error .outOfRange, 0)

/-- The `n` bytes from `m.data() + pos` on. -/
def unchecked (pos n : ℕ) : Reads (List uint8) := fun m =>
  match Bytes.segment m pos n with
  | some bs => (.ok bs, pos + n)
  | none => (.error .undefined, pos + n)

/-- The word of the `n` bytes from `m.data() + pos` on. -/
def word (w pos n : ℕ) : Reads (BitVec w) := do
  let bs ← unchecked pos n
  return beWord w bs

/-- The body of a function that must not throw. -/
def noexcept (c : Reads α) : Reads α := fun m =>
  ((c m).1.mapError Failure.inNoexcept, (c m).2)

section

@[simp] theorem result_pure (a : α) (m : List uint8) : (pure a : Reads α).result m = .ok a := rfl

theorem result_bind (c : Reads α) (f : α → Reads β) (m : List uint8) :
    (c >>= f).result m = (c.result m).bind fun a => (f a).result m := by
  simp only [result, bind]
  rcases c m with ⟨e | a, n⟩
  · rfl
  · rfl

theorem result_bind_ok {a : α} (h : c.result m = .ok a) (f : α → Reads β) :
    (c >>= f).result m = (f a).result m := by
  rw [result_bind, h]
  rfl

theorem result_bind_error {e : Failure} (h : c.result m = .error e) (f : α → Reads β) :
    (c >>= f).result m = .error e := by
  rw [result_bind, h]
  rfl

theorem result_checked {i : ℕ} {b : uint8} (h : m[i]? = some b) : (checked i).result m = .ok b := by
  simp [result, checked, h]

theorem result_checked_of_le {i : ℕ} (h : m.length ≤ i) :
    (checked i).result m = .error .outOfRange := by
  simp [result, checked, h]

variable {pos n : ℕ} {bs : List uint8}

theorem result_unchecked (h : Bytes.segment m pos n = some bs) :
    (unchecked pos n).result m = .ok bs := by
  simp [result, unchecked, h]

theorem result_unchecked_of_lt (h : m.length < pos + n) :
    (unchecked pos n).result m = .error .undefined := by
  have hout : Bytes.segment m pos n = none := if_neg (by omega)
  simp [result, unchecked, hout]

theorem result_word {w : ℕ} (h : Bytes.segment m pos n = some bs) :
    (word w pos n).result m = .ok (beWord w bs) := by
  rw [word, result_bind_ok (result_unchecked h), result_pure]

theorem result_noexcept (c : Reads α) (m : List uint8) :
    (noexcept c).result m = (c.result m).mapError Failure.inNoexcept := rfl

end

section

/-- The code needs the first `e` bytes: with them it has a result of which `P`
holds, without them it is undefined. -/
structure Needs (c : Reads α) (m : List uint8) (e : ℕ) (P : α → Prop) : Prop where
  of_le : e ≤ m.length → ∃ a, P a ∧ c.result m = .ok a
  of_lt : m.length < e → c.result m = .error .undefined

variable {e e' pos n w : ℕ} {P : α → Prop} {Q : β → Prop}

theorem needs_pure {a : α} (he : e ≤ m.length) (h : P a) : (pure a : Reads α).Needs m e P :=
  ⟨fun _ => ⟨a, h, rfl⟩, fun hlt => absurd he (Nat.not_le.mpr hlt)⟩

theorem needs_unchecked : (unchecked pos n).Needs m (pos + n) (· = (m.drop pos).take n) :=
  ⟨fun hle => ⟨_, rfl, result_unchecked (segment_eq hle)⟩, result_unchecked_of_lt⟩

theorem Needs.of_result {a : α} (hc : c.result m = .ok a) (hf : (f a).Needs m e Q) :
    (c >>= f).Needs m e Q :=
  ⟨fun hle => result_bind_ok hc f ▸ hf.of_le hle, fun hlt => result_bind_ok hc f ▸ hf.of_lt hlt⟩

theorem Needs.bind (hc : c.Needs m e P) (hle : e ≤ e')
    (hf : ∀ a, P a → e ≤ m.length → (f a).Needs m e' Q) : (c >>= f).Needs m e' Q := by
  by_cases hin : e ≤ m.length
  · obtain ⟨a, ha, hresult⟩ := hc.of_le hin
    exact .of_result hresult (hf a ha hin)
  · have hlt := Nat.not_le.mp hin
    exact ⟨fun hall => absurd (hle.trans hall) hin, fun _ => result_bind_error (hc.of_lt hlt) f⟩

theorem needs_word : (word w pos n).Needs m (pos + n) (· = beWord w ((m.drop pos).take n)) :=
  needs_unchecked.bind le_rfl fun _ hbs hle => needs_pure hle (congrArg (beWord w) hbs)

end

/-- The code is undefined exactly on the buffers that it reaches out of. -/
def Sound (c : Reads α) : Prop := ∀ m, c.result m = .error .undefined ↔ m.length < c.reach m

theorem sound_pure {a : α} : Sound (pure a : Reads α) := by
  intro m
  simp [result, reach, pure]

theorem sound_checked {i : ℕ} : Sound (checked i) := by
  intro m
  unfold result reach checked
  split
  · rename_i heq
    obtain ⟨hlt, _⟩ := List.getElem?_eq_some_iff.mp heq
    simp only [reduceCtorEq, false_iff]
    omega
  · simp

theorem sound_unchecked {pos n : ℕ} : Sound (unchecked pos n) := by
  intro m
  unfold result reach unchecked Bytes.segment
  split_ifs with hin
  · simp only [false_iff]
    omega
  · simp only [true_iff]
    omega

theorem sound_noexcept (h : Sound c) : Sound (noexcept c) := by
  intro m
  have hundefined : (c.result m).mapError Failure.inNoexcept = .error .undefined ↔
      c.result m = .error .undefined := by
    rcases c.result m with e | a
    · cases e <;> simp [Except.mapError, Failure.inNoexcept]
    · simp [Except.mapError]
  rw [result_noexcept, hundefined]
  exact h m

/-- What follows a result is undefined exactly if it reaches out of the buffer. -/
theorem sound_bind (h : Sound c) (hf : ∀ a, Sound (f a)) : Sound (c >>= f) := by
  intro m
  have hm := h m
  unfold result reach at hm ⊢
  simp only [bind]
  rcases hc : c m with ⟨e | a, n⟩
  · rw [hc] at hm
    simpa using hm
  · have hafter := hf a m
    unfold result reach at hafter
    rw [hc] at hm
    simp only [reduceCtorEq, false_iff] at hm
    simp only
    rw [hafter]
    omega

theorem sound_word {w pos n : ℕ} : Sound (word w pos n) :=
  sound_bind sound_unchecked fun _ => sound_pure

theorem Sound.reach_le (h : Sound c) (hm : c.result m ≠ .error .undefined) : c.reach m ≤ m.length :=
  Nat.not_lt.mp fun hlt => hm ((h m).mpr hlt)

theorem reach_checked {i : ℕ} (h : i < m.length) : (checked i).reach m = i + 1 := by
  simp [reach, checked, h]

theorem reach_le_reach_bind (c : Reads α) (f : α → Reads β) (m : List uint8) :
    c.reach m ≤ (c >>= f).reach m := by
  simp only [reach, bind]
  rcases c m with ⟨e | a, n⟩
  · exact le_refl n
  · exact Nat.le_max_left _ _

end Reads

end AdaptivePlatform
