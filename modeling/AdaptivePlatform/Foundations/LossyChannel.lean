import Mathlib.Tactic

/-!
# Numbered messages over a lossy channel

A sender numbers its messages consecutively modulo `2^n`; the channel loses some
of them and delivers the others in order; the receiver compares the number of a
message with the last number it saw. `Numbered` says what one `protect` and one
`check` have to do, and `Numbered.transmit_eq` follows for every transmission:
from the second delivered message on, the verdicts depend on the loss pattern
only.
-/
namespace AdaptivePlatform.LossyChannel

variable {S R M W V : Type*}

/-- The two ends: one call of the sender, and one of the receiver with its verdict. -/
structure Link (S R M W V : Type*) where
  protect : S → M → Option (S × W)
  check : R → W → Option (R × V)

/-- The verdicts on the delivered messages. A message is marked `true` where it
is delivered. -/
def transmit (link : Link S R M W V) : S → R → List (M × Bool) → Option (List V)
  | _, _, [] => some []
  | s, r, (m, delivered) :: rest =>
    (link.protect s m).bind fun (s, wire) =>
      if delivered then
        (link.check r wire).bind fun (r, verdict) =>
          (transmit link s r rest).map (verdict :: ·)
      else transmit link s r rest

/-- Fewer than `max` messages are lost in a row before each delivered one. -/
def GapsBelow (max : ℕ) : ℕ → List Bool → Prop
  | _, [] => True
  | gap, true :: rest => gap < max ∧ GapsBelow max 0 rest
  | gap, false :: rest => GapsBelow max (gap + 1) rest

def afterFirst : List Bool → List Bool
  | [] => []
  | true :: rest => rest
  | false :: rest => afterFirst rest

/-- `ok` for a message with no loss right before it, `lost` for the others. -/
def verdicts (ok lost : V) : ℕ → List Bool → List V
  | _, [] => []
  | gap, true :: rest => (if gap = 0 then ok else lost) :: verdicts ok lost 0 rest
  | gap, false :: rest => verdicts ok lost (gap + 1) rest

theorem length_verdicts (ok lost : V) (gap : ℕ) (pattern : List Bool) :
    (verdicts ok lost gap pattern).length = pattern.count true := by
  induction pattern generalizing gap with
  | nil => rfl
  | cons delivered rest ih => cases delivered <;> simp [verdicts, ih]

/-- What the two ends do with the numbers: `next` is the number of the sender's
next message, `last` the number that a `ready` receiver saw last. -/
structure Numbered (link : Link S R M W V) (n max : ℕ) (admitted : M → Prop) (ok lost : V) where
  next : S → BitVec n
  last : R → BitVec n
  carries : W → BitVec n → Prop
  ready : R → Prop
  max_lt : max < 2 ^ n
  protect_spec : ∀ s m, admitted m →
    ∃ s' wire, link.protect s m = some (s', wire) ∧ carries wire (next s) ∧ next s' = next s + 1#n
  check_spec : ∀ r wire c, ready r → carries wire c →
    ∃ r' verdict, link.check r wire = some (r', verdict) ∧ ready r' ∧ last r' = c ∧
      ∀ gap < max, (c - last r).toNat = gap + 1 → verdict = if gap = 0 then ok else lost

namespace Numbered

variable {link : Link S R M W V} {n max : ℕ} {admitted : M → Prop} {ok lost : V}
  (num : Numbered link n max admitted ok lost)
include num

variable {r : R} {ms : List (M × Bool)}

/-- After the first delivered message: `gap` messages have been lost since. -/
theorem transmit_of_next {s : S} {gap : ℕ} (hr : num.ready r) (hms : ∀ m ∈ ms, admitted m.1)
    (hgap : GapsBelow max gap (ms.map Prod.snd))
    (hnext : num.next s = num.last r + BitVec.ofNat n (gap + 1)) :
    transmit link s r ms = some (verdicts ok lost gap (ms.map Prod.snd)) := by
  induction ms generalizing s r gap with
  | nil => rfl
  | cons head rest ih =>
    obtain ⟨m, delivered⟩ := head
    have hrest : ∀ m ∈ rest, admitted m.1 := fun m hm => hms m (List.mem_cons_of_mem _ hm)
    obtain ⟨s', wire, hprotect, hcarries, hs'⟩ := num.protect_spec s m (hms _ List.mem_cons_self)
    cases delivered with
    | false =>
      have hnext' : num.next s' = num.last r + BitVec.ofNat n (gap + 1 + 1) := by
        rw [hs', hnext, BitVec.ofNat_add (gap + 1), BitVec.add_assoc]
      simpa [transmit, hprotect, verdicts] using ih hr hrest hgap hnext'
    | true =>
      obtain ⟨hlt, hgap⟩ := hgap
      obtain ⟨r', verdict, hcheck, hr', hlast, hverdict⟩ := num.check_spec r wire _ hr hcarries
      have hdelta : (num.next s - num.last r).toNat = gap + 1 := by
        have hmax := num.max_lt
        rw [hnext, BitVec.add_comm, BitVec.add_sub_cancel, BitVec.toNat_ofNat,
          Nat.mod_eq_of_lt (by omega)]
      have hnext' : num.next s' = num.last r' + BitVec.ofNat n (0 + 1) := by
        rw [hs', hlast, Nat.zero_add]
      have htail := ih hr' hrest hgap hnext'
      simp [transmit, hprotect, hcheck, htail, verdicts, hverdict gap hlt hdelta]

/-- From any states of the two ends, all verdicts but the first are determined
by the loss pattern. How many messages are lost before the first one is free. -/
theorem transmit_eq (s : S) (hr : num.ready r)
    (hms : ∀ m ∈ ms, admitted m.1) (hgap : GapsBelow max 0 (afterFirst (ms.map Prod.snd))) :
    ∃ vs, transmit link s r ms = some vs ∧ vs.length = (ms.map Prod.snd).count true ∧
      vs.tail = verdicts ok lost 0 (afterFirst (ms.map Prod.snd)) := by
  induction ms generalizing s with
  | nil => exact ⟨[], rfl, rfl, rfl⟩
  | cons head rest ih =>
    obtain ⟨m, delivered⟩ := head
    have hrest : ∀ m ∈ rest, admitted m.1 := fun m hm => hms m (List.mem_cons_of_mem _ hm)
    obtain ⟨s', wire, hprotect, hcarries, hs'⟩ := num.protect_spec s m (hms _ List.mem_cons_self)
    cases delivered with
    | false =>
      obtain ⟨vs, hvs, hlen, htail⟩ := ih s' hrest hgap
      exact ⟨vs, by simpa [transmit, hprotect] using hvs, by simpa using hlen, htail⟩
    | true =>
      obtain ⟨r', verdict, hcheck, hr', hlast, -⟩ := num.check_spec r wire _ hr hcarries
      have hnext : num.next s' = num.last r' + BitVec.ofNat n (0 + 1) := by
        rw [hs', hlast, Nat.zero_add]
      have htail := num.transmit_of_next hr' hrest hgap hnext
      refine ⟨verdict :: verdicts ok lost 0 (rest.map Prod.snd), ?_, ?_, rfl⟩
      · simp [transmit, hprotect, hcheck, htail]
      · simp [length_verdicts]

end Numbered

end AdaptivePlatform.LossyChannel
