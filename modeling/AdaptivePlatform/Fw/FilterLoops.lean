import Mathlib.Tactic
import AdaptivePlatform.Fw.KernelFilter

/-!
# The message loops of the kernel module's filters

Both loops go from message to message by the length field that each message carries.
`SomeipHeaderAt` and `DoipHeaderAt` say at which offsets of a payload a message is
taken to start; a loop makes progress as long as no length field at these offsets is
one of those for which the 32-bit arithmetic of the step gives a step that is not
positive.
-/
namespace AdaptivePlatform.Fw

open Bytes Loops BitVec
open BitVec (ofNat sle slt)

variable {r : Rules} {mem : Memory} {inOutFlag : Bool} {len p : ℕ}

theorem toInt_ofNat {p : ℕ} (h : p < 2 ^ 31) : (ofNat 32 p).toInt = p := by
  rw [toInt_eq_toNat_cond, toNat_ofNat, Nat.mod_eq_of_lt (by omega), if_pos (by omega)]

/-- The filters look at payloads of a message to 65535 bytes. -/
theorem length_in_range {least : ℕ} (hlen : len ≤ 65535) (hleast : least ≤ len) :
    ¬ (ofNat 32 len).slt (ofNat 32 least) ∧ ¬ BitVec.slt 65535#32 (ofNat 32 len) := by
  simp only [slt, decide_eq_true_eq]
  rw [toInt_ofNat (by omega), toInt_ofNat (by omega), toInt_ofNat (by decide)]
  omega

/-- The length field of the message that starts at an offset; it is in the same place for both
protocols. -/
def lengthAt (mem : Memory) (p : ℕ) : ℕ := (be32 mem (p + 4)).toNat

theorem lengthAt_lt (mem : Memory) (p : ℕ) : lengthAt mem p < 2 ^ 32 := isLt _

theorem be32_eq_ofNat (mem : Memory) (p : ℕ) :
    be32 mem ((p : ℤ) + 4) = ofNat 32 (lengthAt mem p) := by
  rw [lengthAt, ofNat_toNat, setWidth_eq]

section

/-- The length of a message is never the length that the check expects, so every message passes
unseen. -/
theorem someIpSinglePacketFilter_eq (r : Rules) (mem : Memory) (hdr data : ℤ) (inOutFlag : Bool) :
    someIpSinglePacketFilter r mem hdr data (16#32 + be32 mem (hdr + 4)) inOutFlag = (1, mem) := by
  have hne : be32 mem (hdr + 4) + 8 ≠ 16#32 + be32 mem (hdr + 4) := by bv_omega
  exact if_pos hne

theorem someipBody_eq (mem : Memory) (dataLen offset : s32) :
    someipBody r dataLen inOutFlag (mem, offset) =
      if (offset + 16#32).sle dataLen then
        if dataLen.slt (16#32 + be32 mem (offset.toInt + 4) + offset) then .inl true
        else .inr (mem, offset + (16#32 + be32 mem (offset.toInt + 4)))
      else .inl true := by
  simp only [someipBody, ofNat_eq_ofNat, someIpSinglePacketFilter_eq]
  rw [if_neg (show ¬ (1 : ℤ) = -1 by decide)]

/-- The offsets at which `Someip_Filter` takes a message to start. -/
inductive SomeipHeaderAt (mem : Memory) (len : ℕ) : ℕ → Prop
  | first : SomeipHeaderAt mem len 0
  | next {p : ℕ} (h : SomeipHeaderAt mem len p) (hin : p + 16 ≤ len)
      (hstep : p + (16 + lengthAt mem p) % 2 ^ 32 ≤ len) :
      SomeipHeaderAt mem len (p + (16 + lengthAt mem p) % 2 ^ 32)

/-- The step from a message is a positive `int`, also where the sum wraps around. -/
def SomeipStep (mem : Memory) (p : ℕ) : Prop :=
  lengthAt mem p + 16 + p < 2 ^ 31 ∨ 2 ^ 32 < lengthAt mem p + 16

instance : Decidable (SomeipStep mem p) := inferInstanceAs (Decidable (_ ∨ _))

theorem SomeipHeaderAt.le (h : SomeipHeaderAt mem len p) : p ≤ len := by
  cases h with
  | first => exact Nat.zero_le _
  | next _ _ hstep => exact hstep

variable (hlen : len ≤ 65535)

include hlen

/-- The pass at an offset, with the sums of the pass as sums of numbers. -/
theorem someipBody_at (hp : p ≤ len) :
    someipBody r (ofNat 32 len) inOutFlag (mem, ofNat 32 p) =
      if p + 16 ≤ len then
        if (len : ℤ) < (ofNat 32 (p + (16 + lengthAt mem p))).toInt then .inl true
        else .inr (mem, ofNat 32 (p + (16 + lengthAt mem p)))
      else .inl true := by
  have hpos : (ofNat 32 p).toInt = p := toInt_ofNat (by omega)
  have hsum : 16#32 + be32 mem ((p : ℤ) + 4) + ofNat 32 p =
      ofNat 32 (p + (16 + lengthAt mem p)) := by
    rw [be32_eq_ofNat, ← ofNat_add, ← ofNat_add, Nat.add_comm]
  have hnext : ofNat 32 p + (16#32 + be32 mem ((p : ℤ) + 4)) =
      ofNat 32 (p + (16 + lengthAt mem p)) := by rw [← hsum, BitVec.add_comm]
  rw [someipBody_eq, hpos, hsum, hnext, ← ofNat_add]
  simp only [sle, slt, decide_eq_true_eq]
  rw [toInt_ofNat (by omega), toInt_ofNat (by omega)]
  simp only [← Nat.cast_le (α := ℤ)]

theorem someipBody_of_step (hin : p + 16 ≤ len) (hstep : SomeipStep mem p) :
    someipBody r (ofNat 32 len) inOutFlag (mem, ofNat 32 p) =
      if p + (16 + lengthAt mem p) % 2 ^ 32 ≤ len then
        .inr (mem, ofNat 32 (p + (16 + lengthAt mem p) % 2 ^ 32))
      else .inl true := by
  have hlt := lengthAt_lt mem p
  have hwrap : ofNat 32 (p + (16 + lengthAt mem p)) =
      ofNat 32 (p + (16 + lengthAt mem p) % 2 ^ 32) := by
    apply eq_of_toNat_eq
    simp
  have hsmall : p + (16 + lengthAt mem p) % 2 ^ 32 < 2 ^ 31 := by rcases hstep with h | h <;> omega
  rw [someipBody_at hlen (by omega), if_pos hin, hwrap, toInt_ofNat hsmall]
  by_cases hle : p + (16 + lengthAt mem p) % 2 ^ 32 ≤ len
  · rw [if_neg (by omega), if_pos hle]
  · rw [if_pos (by omega), if_neg hle]

theorem someipBody_of_not_step (hin : p + 16 ≤ len) (hstep : ¬ SomeipStep mem p) :
    ∃ offset : s32, offset.toInt ≤ p ∧
      someipBody r (ofNat 32 len) inOutFlag (mem, ofNat 32 p) = .inr (mem, offset) := by
  have hback : (ofNat 32 (p + (16 + lengthAt mem p))).toInt ≤ p := by
    rw [SomeipStep] at hstep
    rw [toInt_eq_toNat_cond, toNat_ofNat]
    split_ifs <;> omega
  refine ⟨_, hback, ?_⟩
  rw [someipBody_at hlen (by omega), if_pos hin, if_neg (by omega)]

section

variable (hadv : Advances (someipBody r (ofNat 32 len) inOutFlag) (fun s => s.2.toInt) len (mem, 0))

include hadv

theorem someipStep_of_advances (hvisits : Visits (someipBody r (ofNat 32 len) inOutFlag) (mem, 0)
      (mem, ofNat 32 p)) (hin : p + 16 ≤ len) : SomeipStep mem p := by
  by_contra hstep
  obtain ⟨offset, hback, hbody⟩ := someipBody_of_not_step hlen hin hstep
  have hforward : (ofNat 32 p).toInt < offset.toInt := (hadv.2 _ _ hvisits hbody).1
  rw [toInt_ofNat (by omega)] at hforward
  omega

theorem SomeipHeaderAt.visits (h : SomeipHeaderAt mem len p) :
    Visits (someipBody r (ofNat 32 len) inOutFlag) (mem, 0) (mem, ofNat 32 p) := by
  induction h with
  | first => exact .refl
  | next _ hin hstep ih =>
    apply ih.tail
    rw [someipBody_of_step hlen hin (someipStep_of_advances hlen hadv ih hin), if_pos hstep]

end

theorem exists_headerAt_of_visits {s : Memory × s32}
    (hsteps : ∀ q, SomeipHeaderAt mem len q → q + 16 ≤ len → SomeipStep mem q)
    (h : Visits (someipBody r (ofNat 32 len) inOutFlag) (mem, 0) s) :
    ∃ q, SomeipHeaderAt mem len q ∧ s = (mem, ofNat 32 q) := by
  induction h with
  | refl => exact ⟨0, .first, rfl⟩
  | tail _ hbody ih =>
    obtain ⟨q, hq, rfl⟩ := ih
    by_cases hin : q + 16 ≤ len
    · rw [someipBody_of_step hlen hin (hsteps q hq hin)] at hbody
      split_ifs at hbody with hstep
      exact ⟨_, .next hq hin hstep, (Sum.inr.inj hbody).symm⟩
    · rw [someipBody_at hlen hq.le, if_neg hin] at hbody
      cases hbody

theorem someip_advances_iff :
    Advances (someipBody r (ofNat 32 len) inOutFlag) (fun s => s.2.toInt) len (mem, 0) ↔
      ∀ p, SomeipHeaderAt mem len p → p + 16 ≤ len → SomeipStep mem p := by
  constructor
  · intro hadv p hp hin
    exact someipStep_of_advances hlen hadv (hp.visits hlen hadv) hin
  · intro hsteps
    apply advances_of_visits
    intro t u ht hu
    obtain ⟨q, hq, rfl⟩ := exists_headerAt_of_visits hlen hsteps ht
    obtain ⟨q', hq', rfl⟩ := exists_headerAt_of_visits hlen hsteps (ht.tail hu)
    by_cases hin : q + 16 ≤ len
    · have hstep := hsteps q hq hin
      have hlt := lengthAt_lt mem q
      rw [someipBody_of_step hlen hin hstep] at hu
      split_ifs at hu with hnext
      have heq : ofNat 32 (q + (16 + lengthAt mem q) % 2 ^ 32) = ofNat 32 q' :=
        congrArg Prod.snd (Sum.inr.inj hu)
      simp only [← heq]
      rw [toInt_ofNat (by omega), toInt_ofNat (by omega)]
      rcases hstep with h | h <;> omega
    · rw [someipBody_at hlen hq.le, if_neg hin] at hu
      cases hu

end

/-- The length that the loop hands on with a message, header included. -/
def doipLength (mem : Memory) (p : ℕ) : ℕ := (8 + lengthAt mem p) % 2 ^ 32

/-- The rules drop the message that starts at an offset. -/
def Drops (r : Rules) (mem : Memory) (inOutFlag : Bool) (p : ℕ) : Prop :=
  doipSingleFilter r mem p (be32 mem (p + 4) + 8) inOutFlag = -1

instance : Decidable (Drops r mem inOutFlag p) := inferInstanceAs (Decidable (_ = _))

/-- The offsets at which `Doip_Filter` takes a message to start. -/
inductive DoipHeaderAt (r : Rules) (mem : Memory) (inOutFlag : Bool) (len : ℕ) : ℕ → Prop
  | first : DoipHeaderAt r mem inOutFlag len 0
  | next {p : ℕ} (h : DoipHeaderAt r mem inOutFlag len p) (hin : p + 8 < len)
      (hpass : ¬ Drops r mem inOutFlag p) (hstep : p + doipLength mem p ≤ len) :
      DoipHeaderAt r mem inOutFlag len (p + doipLength mem p)

theorem DoipHeaderAt.le (h : DoipHeaderAt r mem inOutFlag len p) : p ≤ len := by
  cases h with
  | first => exact Nat.zero_le _
  | next _ _ _ hstep => exact hstep

theorem toNat_doipLength (mem : Memory) (p : ℕ) :
    (be32 mem ((p : ℤ) + 4) + 8#32).toNat = doipLength mem p := by
  rw [toNat_add, toNat_ofNat, doipLength, lengthAt, Nat.add_comm]

/-- The pass at an offset, with the sums of the pass as sums of numbers. -/
theorem doipBody_eq (hlen : len ≤ 65535) (hp : p ≤ len) (ruleCheck : ℤ) :
    doipBody r mem (ofNat 32 len) inOutFlag (ofNat 32 p, ruleCheck) =
      if p + 8 < len then
        if len < doipLength mem p then .inl (ruleCheck ≠ -1)
        else if Drops r mem inOutFlag p then .inl false
        else if p + doipLength mem p ≤ len then .inr (ofNat 32 (p + doipLength mem p),
          doipSingleFilter r mem p (be32 mem (p + 4) + 8#32) inOutFlag)
        else .inl true
      else .inl (ruleCheck ≠ -1) := by
  have hpos : (ofNat 32 p).toInt = p := toInt_ofNat (by omega)
  have hlenNat : (ofNat 32 len).toNat = len := by rw [toNat_ofNat, Nat.mod_eq_of_lt (by omega)]
  have hhead : (ofNat 32 p + 8#32).slt (ofNat 32 len) = true ↔ p + 8 < len := by
    rw [← ofNat_add, slt, decide_eq_true_eq, toInt_ofNat (by omega), toInt_ofNat (by omega)]
    omega
  have hpass : doipSingleFilter r mem p (be32 mem ((p : ℤ) + 4) + 8#32) inOutFlag = -1 ↔
      Drops r mem inOutFlag p := Iff.rfl
  have hlong : ofNat 32 len < be32 mem ((p : ℤ) + 4) + 8#32 ↔ len < doipLength mem p := by
    rw [lt_def, toNat_doipLength, hlenNat]
  have hnext : ofNat 32 p + (8#32 + be32 mem ((p : ℤ) + 4)) = ofNat 32 (p + doipLength mem p) := by
    rw [BitVec.add_comm 8#32, ← toNat_doipLength, ofNat_add, ofNat_toNat, setWidth_eq]
  simp only [doipBody, ofNat_eq_ofNat, hpos, hhead, hlong, hpass, BitVec.add_comm _ (ofNat 32 p),
    hnext]
  split_ifs with hin hfits hdrops hbeyond hle hle
  all_goals try rfl
  all_goals
    rw [lt_def, hlenNat, toNat_ofNat, Nat.mod_eq_of_lt (by omega)] at hbeyond
    first | omega | simp [hpass, hdrops]

theorem doipBody_at (hlen : len ≤ 65535) (hp : p ≤ len) (ruleCheck : ℤ) {s : s32 × ℤ} :
    doipBody r mem (ofNat 32 len) inOutFlag (ofNat 32 p, ruleCheck) = .inr s ↔
      p + 8 < len ∧ ¬ Drops r mem inOutFlag p ∧ p + doipLength mem p ≤ len ∧
        s = (ofNat 32 (p + doipLength mem p),
          doipSingleFilter r mem p (be32 mem (p + 4) + 8#32) inOutFlag) := by
  rw [doipBody_eq hlen hp]
  split_ifs with hin hfits hdrops hle
  · simp only [false_iff]
    omega
  · simp [hdrops]
  · simp [hin, hdrops, hle, eq_comm]
  · simp [hle]
  · simp [hin]

theorem doipLength_of_advances (hlen : len ≤ 65535) {ruleCheck : ℤ}
    (hadv : Advances (doipBody r mem (ofNat 32 len) inOutFlag) (fun s => s.1.toInt) len (0, 1))
    (hvisits : Visits (doipBody r mem (ofNat 32 len) inOutFlag) (0, 1) (ofNat 32 p, ruleCheck))
    (hin : p + 8 < len) (hpass : ¬ Drops r mem inOutFlag p) : doipLength mem p ≠ 0 := by
  intro hzero
  have hbody := (doipBody_at hlen (by omega) ruleCheck).2 ⟨hin, hpass, by omega, rfl⟩
  have hforward : (ofNat 32 p).toInt < (ofNat 32 (p + doipLength mem p)).toInt :=
    (hadv.2 _ _ hvisits hbody).1
  rw [hzero] at hforward
  exact lt_irrefl _ hforward

theorem DoipHeaderAt.visits (hlen : len ≤ 65535) (h : DoipHeaderAt r mem inOutFlag len p) :
    ∃ ruleCheck, Visits (doipBody r mem (ofNat 32 len) inOutFlag) (0, 1)
      (ofNat 32 p, ruleCheck) := by
  induction h with
  | first => exact ⟨1, .refl⟩
  | next h hin hpass hstep ih =>
    obtain ⟨ruleCheck, hvisits⟩ := ih
    exact ⟨_, hvisits.tail ((doipBody_at hlen h.le ruleCheck).2 ⟨hin, hpass, hstep, rfl⟩)⟩

theorem exists_doipHeaderAt_of_visits {s : s32 × ℤ} (hlen : len ≤ 65535)
    (h : Visits (doipBody r mem (ofNat 32 len) inOutFlag) (0, 1) s) :
    ∃ q, DoipHeaderAt r mem inOutFlag len q ∧ s.1 = ofNat 32 q := by
  induction h with
  | refl => exact ⟨0, .first, rfl⟩
  | @tail t u _ hbody ih =>
    obtain ⟨q, hq, hpos⟩ := ih
    obtain ⟨offset, ruleCheck⟩ := t
    obtain rfl : offset = ofNat 32 q := hpos
    obtain ⟨hin, hpass, hstep, rfl⟩ := (doipBody_at hlen hq.le ruleCheck).1 hbody
    exact ⟨_, .next hq hin hpass hstep, rfl⟩

theorem doip_advances_iff (hlen : len ≤ 65535) :
    Advances (doipBody r mem (ofNat 32 len) inOutFlag) (fun s => s.1.toInt) len (0, 1) ↔
      ∀ p, DoipHeaderAt r mem inOutFlag len p → p + 8 < len → lengthAt mem p = 2 ^ 32 - 8 →
        Drops r mem inOutFlag p := by
  have hzero : ∀ p, lengthAt mem p = 2 ^ 32 - 8 ↔ doipLength mem p = 0 := by
    intro p
    have hlt := lengthAt_lt mem p
    rw [doipLength]
    omega
  constructor
  · intro hadv p hp hin hlength
    by_contra hpass
    obtain ⟨ruleCheck, hvisits⟩ := hp.visits hlen
    exact doipLength_of_advances hlen hadv hvisits hin hpass ((hzero p).1 hlength)
  · intro hlengths
    apply advances_of_visits
    rintro ⟨offset, ruleCheck⟩ u ht hu
    obtain ⟨q, hq, hpos⟩ := exists_doipHeaderAt_of_visits hlen ht
    obtain rfl : offset = ofNat 32 q := hpos
    have hle := hq.le
    obtain ⟨hin, hpass, hstep, rfl⟩ := (doipBody_at hlen hle ruleCheck).1 hu
    have hpositive : doipLength mem q ≠ 0 := by
      intro h
      exact hpass (hlengths q hq hin ((hzero q).2 h))
    rw [toInt_ofNat (by omega), toInt_ofNat (by omega)]
    omega

/-- The two loops end, moving forward within the payload, for exactly the payloads in which no
message that a loop comes to has a length field whose step is not positive. -/
theorem message_loops_advance_iff (r : Rules) (mem : Memory) (inOutFlag : Bool) (len : ℕ)
    (hlen : len ≤ 65535) :
    (Advances (someipBody r (ofNat 32 len) inOutFlag) (fun s => s.2.toInt) len (mem, 0) ↔
      ∀ p, SomeipHeaderAt mem len p → p + 16 ≤ len →
        lengthAt mem p + 16 + p < 2 ^ 31 ∨ 2 ^ 32 < lengthAt mem p + 16) ∧
    (Advances (doipBody r mem (ofNat 32 len) inOutFlag) (fun s => s.1.toInt) len (0, 1) ↔
      ∀ p, DoipHeaderAt r mem inOutFlag len p → p + 8 < len → lengthAt mem p = 2 ^ 32 - 8 →
        Drops r mem inOutFlag p) :=
  ⟨someip_advances_iff hlen, doip_advances_iff hlen⟩

/-- No parameter is set. -/
def silent : Rules := ⟨-1, -1, fun _ => -1, fun _ => -1⟩

/-- A request without a payload. -/
def plainRequest : List uint8 := [0x12, 0x34, 0x00, 0x01, 0, 0, 0, 8, 0, 1, 0, 1, 1, 1, 0, 0]

/-- A vehicle identification request and an announcement of one byte. -/
def plainDoip : List uint8 :=
  [0x02, 0xfd, 0x00, 0x01, 0, 0, 0, 0, 0x02, 0xfd, 0x00, 0x04, 0, 0, 0, 1, 0]

/-- Both loops go on behind the first message of two and end then. -/
theorem message_loops_advance_plainMessages :
    Advances (someipBody silent (ofNat 32 32) true) (fun s => s.2.toInt) (32 : ℕ)
      (load (plainRequest ++ plainRequest), 0) ∧
    Advances (doipBody silent (load plainDoip) (ofNat 32 17) true) (fun s => s.1.toInt) (17 : ℕ)
      (0, 1) := by
  have hsomeip : ∀ p, SomeipHeaderAt (load (plainRequest ++ plainRequest)) 32 p →
      p = 0 ∨ p = 24 := by
    intro p hp
    induction hp with
    | first => exact .inl rfl
    | next _ hin _ ih =>
      rcases ih with rfl | rfl
      · exact .inr (by decide)
      · omega
  have hdoip : ∀ p, DoipHeaderAt silent (load plainDoip) true 17 p → p = 0 ∨ p = 8 ∨ p = 17 := by
    intro p hp
    induction hp with
    | first => exact .inl rfl
    | next _ hin _ _ ih =>
      rcases ih with rfl | rfl | rfl
      · exact .inr (.inl (by decide))
      · exact .inr (.inr (by decide))
      · omega
  constructor
  · apply (message_loops_advance_iff silent _ true 32 (by decide)).1.2
    intro p hp hin
    rcases hsomeip p hp with rfl | rfl
    · decide
    · omega
  · apply (message_loops_advance_iff silent _ true 17 (by decide)).2.2
    intro p hp hin hlength
    rcases hdoip p hp with rfl | rfl | rfl
    · exact absurd hlength (by decide)
    · exact absurd hlength (by decide)
    · omega

/-- The same header, with a length field that makes the message empty. -/
def emptySomeip : List uint8 :=
  [0x12, 0x34, 0x00, 0x01, 0xff, 0xff, 0xff, 0xf0, 0, 1, 0, 1, 1, 1, 0, 0]

/-- A vehicle identification request, then a header whose length field makes the message empty. -/
def emptyDoip : List uint8 :=
  [0x02, 0xfd, 0x00, 0x01, 0, 0, 0, 0, 0x02, 0xfd, 0x00, 0x01, 0xff, 0xff, 0xff, 0xf8, 0]

/-- Both payloads pass the check of the first header, and keep the kernel in the loop. -/
theorem message_loops_stuck :
    isSomeipPacket (load emptySomeip) 16 = true ∧
    ¬ Ends (someipBody silent 16 true) (load emptySomeip, 0) ∧
    validateDoipHeader (load emptyDoip) 17 = true ∧
    ¬ Ends (doipBody silent (load emptyDoip) 17 true) (0, 1) := by
  refine ⟨by decide, ?_, by decide, ?_⟩
  · apply not_ends_of_fixed
    have hstep : 0 + (16#32 + be32 (load emptySomeip) ((0 : s32).toInt + 4)) = 0 := by decide
    rw [someipBody_eq, if_pos (by decide), if_neg (by decide), hstep]
  · have hfirst : Visits (doipBody silent (load emptyDoip) 17 true) (0, 1) (8, 1) :=
      .single (by decide)
    rw [hfirst.ends_iff]
    exact not_ends_of_fixed (by decide)

end AdaptivePlatform.Fw
