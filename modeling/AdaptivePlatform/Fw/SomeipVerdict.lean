import AdaptivePlatform.Fw.FilterLoops

/-!
# The verdict on SOME/IP messages

What the rules ask for is a matter of the messages alone: a message, or an entry of
a service discovery message, is to be blocked by the action if it agrees with the
parameters, and by the default action otherwise. The filter never gets to that
question: the length it hands on with a message is 8 bytes more than the length that
the message has, and a message of the wrong length is let through.
-/
namespace AdaptivePlatform.Fw

open Bytes Loops BitVec
open BitVec (ofNat)

/-- What the rules say about a message or an entry that agrees with the parameters, or not. -/
def Rules.Blocks (r : Rules) (agrees : Bool) : Prop :=
  agrees = true ∧ r.action = 0 ∨ agrees = false ∧ r.defaultAction = 0

instance (r : Rules) (agrees : Bool) : Decidable (r.Blocks agrees) :=
  inferInstanceAs (Decidable (_ ∨ _))

/-- The entries of a service discovery message start behind its flags and their length. -/
def entryCount (m : List uint8) : ℕ := (be32 (load m) 20).toNat / 16

def Blocked (r : Rules) (inOutFlag : Bool) (m : List uint8) : Prop :=
  isSd (load m) 0 = true ∧
    (∃ i < entryCount m, r.Blocks (r.agrees inOutFlag (entryFields (load m) (24 + 16 * i)))) ∨
  isSd (load m) 0 = false ∧ r.Blocks (r.agrees inOutFlag (someipFields (load m) 0))

instance (r : Rules) (inOutFlag : Bool) (m : List uint8) : Decidable (Blocked r inOutFlag m) :=
  inferInstanceAs (Decidable (_ ∨ _))

/-- The entries and the options fill the message. -/
structure SdWellFormed (m : List uint8) : Prop where
  entries : (be32 (load m) 20).toNat % 16 = 0
  options : 28 + (be32 (load m) 20).toNat +
    (be32 (load m) (24 + (be32 (load m) 20).toNat)).toNat = m.length

structure WellFormed (m : List uint8) : Prop where
  length : lengthAt (load m) 0 + 8 = m.length
  body : 8 ≤ lengthAt (load m) 0
  header : validateSomeipHeader (load m) 0 = true
  sd : isSd (load m) 0 = true → SdWellFormed m

theorem someipBody_ne_false {r : Rules} {dataLen : s32} {inOutFlag : Bool} (s : Memory × s32) :
    someipBody r dataLen inOutFlag s ≠ .inl false := by
  rw [someipBody_eq]
  split_ifs <;> simp

theorem someipFilter_ne_false (fuel : ℕ) (r : Rules) (mem : Memory) (dataLen : s32)
    (inOutFlag : Bool) : someipFilter fuel r mem dataLen inOutFlag ≠ some false := by
  rw [someipFilter]
  split_ifs
  · simp
  · intro hrun
    obtain ⟨t, hleaves⟩ := Returns.exists_inl ⟨fuel, hrun⟩
    exact someipBody_ne_false t hleaves

/-- What is read inside a message of a payload is read of the message. -/
theorem place_message {mem : Memory} {payload before m after : List uint8} {k : ℤ}
    (hpayload : payload = before ++ (m ++ after)) (hk : 0 ≤ k) (hlt : k < m.length) :
    place mem payload (before.length + k) = load m k := by
  have hindex : ((before.length : ℤ) + k).toNat = before.length + k.toNat := by omega
  have hlt : k.toNat < m.length := by omega
  simp only [place, load, hindex, hpayload, List.getD]
  rw [if_neg (by omega), if_neg (by omega), List.getElem?_append_right (Nat.le_add_right _ _),
    Nat.add_sub_cancel_left, List.getElem?_append_left hlt, List.getElem?_eq_getElem hlt]
  rfl

theorem be32_place {mem : Memory} {payload before m after : List uint8} {k : ℤ}
    (hpayload : payload = before ++ (m ++ after)) (hk : 0 ≤ k) (hlt : k + 4 ≤ m.length) :
    be32 (place mem payload) (before.length + k) = be32 (load m) k := by
  simp only [be32, add_assoc]
  rw [place_message hpayload hk (by omega), place_message hpayload (by omega) (by omega),
    place_message hpayload (by omega) (by omega), place_message hpayload (by omega) (by omega)]

/-- The word with the versions of a message, which the loop takes for the length of the next. -/
theorem WellFormed.versions {m : List uint8} (h : WellFormed m) :
    2 ^ 24 ≤ (be32 (load m) 12).toNat ∧ (be32 (load m) 12).toNat < 2 ^ 25 := by
  have hone : load m 12 = 0x01#8 := by
    have hheader := h.header
    simp only [validateSomeipHeader, Bool.and_eq_true, decide_eq_true_eq] at hheader
    exact hheader.1.1
  have hsecond := (load m (12 + 1)).isLt
  have hthird := (load m (12 + 2)).isLt
  have hfourth := (load m (12 + 3)).isLt
  simp only [be32, hone, beWord, List.length, toNat_add, toNat_shiftLeft, toNat_setWidth,
    Nat.shiftLeft_eq, ofNat_eq_ofNat, toNat_ofNat]
  omega

section

variable {r : Rules} {inOutFlag : Bool} {mem : Memory}

/-- The pass that starts 8 bytes inside the second message is the last. -/
theorem someipBody_inside_second {m : List uint8} {rest : List (List uint8)}
    (hlen : (m :: rest).flatten.length ≤ 65535) (hwell : ∀ n ∈ m :: rest, WellFormed n)
    (hnext : m.length + 8 ≤ (m :: rest).flatten.length) :
    someipBody r (ofNat 32 (m :: rest).flatten.length) inOutFlag
      (place mem (m :: rest).flatten, ofNat 32 (m.length + 8)) = .inl true := by
  by_cases hin : m.length + 8 + 16 ≤ (m :: rest).flatten.length
  · cases rest with
    | nil => simp at hnext
    | cons next rest =>
      have hsecond := hwell next (by simp)
      obtain ⟨hlow, hhigh⟩ := hsecond.versions
      have hlength := hsecond.length
      have hbody := hsecond.body
      have hread : lengthAt (place mem (m :: next :: rest).flatten) (m.length + 8) =
          (be32 (load next) 12).toNat := by
        have hword := @be32_place mem _ m next rest.flatten 12 rfl (by decide) (by omega)
        rw [lengthAt, Nat.cast_add, add_assoc]
        exact congrArg BitVec.toNat hword
      rw [someipBody_of_step hlen hin (.inl (by omega)), if_neg (by omega)]
  · rw [someipBody_at hlen hnext, if_neg hin]

theorem someipFilter_of_wellFormed {messages : List (List uint8)}
    (hlen : messages.flatten.length ≤ 65535) (hwell : ∀ m ∈ messages, WellFormed m) :
    ∃ fuel, someipFilter fuel r (place mem messages.flatten)
      (ofNat 32 messages.flatten.length) inOutFlag = some true := by
  cases messages with
  | nil => exact ⟨0, rfl⟩
  | cons m rest =>
    have hm := hwell m List.mem_cons_self
    have hlength := hm.length
    have hbody := hm.body
    have hsum : (m :: rest).flatten.length = m.length + rest.flatten.length := by simp
    have hfirst : lengthAt (place mem (m :: rest).flatten) 0 = lengthAt (load m) 0 := by
      have hread := @be32_place mem _ [] m rest.flatten 4 rfl (by decide) (by omega)
      exact congrArg BitVec.toNat hread
    have hpass := @someipBody_of_step r (place mem (m :: rest).flatten) inOutFlag _ 0 hlen
      (by omega) (.inl (by omega))
    have hmod : (16 + lengthAt (load m) 0) % 2 ^ 32 = m.length + 8 := by omega
    rw [hfirst, hmod, Nat.zero_add] at hpass
    obtain ⟨fuel, hrun⟩ : Returns (someipBody r (ofNat 32 (m :: rest).flatten.length) inOutFlag)
        (place mem (m :: rest).flatten, 0) true := by
      split_ifs at hpass with hnext
      · exact (returns_iff_of_inr hpass).mpr
          (returns_of_inl (someipBody_inside_second hlen hwell hnext))
      · exact returns_of_inl hpass
    exact ⟨fuel, (if_neg (not_or.mpr (@length_in_range _ 16 hlen (by omega)).symm)).trans hrun⟩

end

/-- The verdict on a payload made of messages is the one that the rules ask for if they ask for
no message to be blocked, and only then: a payload of well-formed messages passes. -/
theorem someip_verdict_iff (r : Rules) (inOutFlag : Bool) (messages : List (List uint8))
    (mem : Memory) :
    (((∃ fuel, someipFilter fuel r (place mem messages.flatten)
        (ofNat 32 messages.flatten.length) inOutFlag = some false) ↔
      ∃ m ∈ messages, Blocked r inOutFlag m) ↔
    ¬ ∃ m ∈ messages, Blocked r inOutFlag m) ∧
    (messages.flatten.length ≤ 65535 → (∀ m ∈ messages, WellFormed m) →
      ∃ fuel, someipFilter fuel r (place mem messages.flatten)
        (ofNat 32 messages.flatten.length) inOutFlag = some true) := by
  constructor
  · have hnever : ¬ ∃ fuel, someipFilter fuel r (place mem messages.flatten)
        (ofNat 32 messages.flatten.length) inOutFlag = some false := by
      rintro ⟨fuel, hrun⟩
      exact someipFilter_ne_false _ _ _ _ _ hrun
    rw [iff_false_left hnever]
  · exact someipFilter_of_wellFormed

def blockAll : Rules := ⟨0, 0, fun _ => -1, fun _ => -1⟩

/-- A service discovery message with one offer. -/
def plainOffer : List uint8 :=
  [0xff, 0xff, 0x81, 0x00, 0, 0, 0, 36, 0, 0, 0, 1, 1, 1, 2, 0, 0xc0, 0, 0, 0, 0, 0, 0, 16,
    1, 0, 0, 0, 0x12, 0x34, 0, 1, 1, 0, 0, 3, 0, 0, 0, 0, 0, 0, 0, 0]

/-- A request and an offer pass rules that block every message. -/
theorem someip_verdict_let_through :
    (WellFormed plainRequest ∧ Blocked blockAll true plainRequest) ∧
    (WellFormed plainOffer ∧ Blocked blockAll true plainOffer) ∧
    someipFilter 2 blockAll (load plainRequest) 16 true = some true ∧
    someipFilter 2 blockAll (load plainOffer) 44 true = some true := by
  refine ⟨⟨?_, by decide⟩, ⟨?_, by decide⟩, by decide, by decide⟩
  · exact ⟨by decide, by decide, by decide, fun h => absurd h (by decide)⟩
  · exact ⟨by decide, by decide, by decide, fun _ => ⟨by decide, by decide⟩⟩

end AdaptivePlatform.Fw
