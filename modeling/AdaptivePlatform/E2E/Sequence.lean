import AdaptivePlatform.Foundations.Bytes
import Mathlib.Tactic

/-!
# The counter checks of the profiles

Every profile compares the received counter with the counter of the last message
in signed arithmetic: the difference is converted to the signed type of the
counter's width, and so is `MaxDeltaCounter`. A signed value is the bit vector
with its two's complement reading, and arithmetic on it wraps.
-/
namespace AdaptivePlatform.E2E

/-- The values of `Std_ReturnType` the library returns. -/
inductive ReturnType
  | ok
  | inputErrNull
  | inputErrWrong
  | intErr
  | wrongState
  deriving DecidableEq, Repr

/-- `E2E_PxxCheckStatusType`, the same in all profiles. -/
inductive CheckStatus
  | ok
  | noNewData
  | error
  | repeated
  | okSomeLost
  | wrongSequence
  deriving DecidableEq, Repr

/-- `E2E_PxxCheckStateType` for a counter of `w` bits. -/
@[ext]
structure CheckState (w : ℕ) where
  status : CheckStatus
  counter : BitVec w

/-- `E2E_PxxProtectStateType` for a counter of `w` bits. -/
structure ProtectState (w : ℕ) where
  counter : BitVec w

section

variable {w : ℕ}

/-- The verdict on a signed `DeltaCounter`. -/
def deltaStatus (deltaCounter maxDeltaCounter : BitVec w) : CheckStatus :=
  if deltaCounter.sle maxDeltaCounter ∧ (0#w).sle deltaCounter then
    if (0#w).slt deltaCounter then
      if deltaCounter = 1#w then .ok else .okSomeLost
    else .repeated
  else .wrongSequence

/-- `E2E_P04Check_Seqence`, and the same test in the profiles 4m, 5, 6 and 44. -/
def checkSequence (maxDeltaCounter : BitVec w) (state : CheckState w)
    (receivedCounter : BitVec w) : CheckState w where
  status := deltaStatus (receivedCounter - state.counter) maxDeltaCounter
  counter := receivedCounter

variable (maxDeltaCounter : uint32) (state : CheckState 32) (receivedCounter : uint32)

/-- `E2E_P07Check_Seqence` and `E2E_P08Check_Seqence` -/
def checkSequence32 : CheckState 32 :=
  let deltaCounter : uint32 :=
    if state.counter ≤ receivedCounter then receivedCounter - state.counter
    else 0xffffffff + receivedCounter - state.counter + 1
  { status := deltaStatus deltaCounter maxDeltaCounter
    counter := receivedCounter }

/-- What is left of a word in a `sint16`. -/
def narrowed (x : uint32) : ℤ := (x.setWidth 16).toInt

/-- `E2E_P07mCheck_Seqence`: the counters are narrowed before they are subtracted. -/
def checkSequence07m : CheckState 32 :=
  let deltaCounter := narrowed receivedCounter - narrowed state.counter
  { status :=
      if deltaCounter ≤ narrowed maxDeltaCounter ∧ 0 ≤ deltaCounter then
        if 0 < deltaCounter then
          if deltaCounter = 1 then .ok else .okSomeLost
        else .repeated
      else .wrongSequence
    counter := receivedCounter }

/-- The counter check of `E2E_P22Check`, unsigned and modulo 16. -/
def checkSequence22 (maxDeltaCounter : uint8) (state : CheckState 8)
    (receivedCounter : uint8) : CheckState 8 :=
  let deltaCounter : uint8 :=
    if state.counter ≤ receivedCounter then receivedCounter - state.counter
    else 0xF + receivedCounter - state.counter + 1
  { status :=
      if deltaCounter ≤ maxDeltaCounter then
        if deltaCounter = 0 then .repeated
        else if deltaCounter = 1 then .ok else .okSomeLost
      else .wrongSequence
    counter := receivedCounter }

theorem sle_iff (a b : BitVec w) : a.sle b = true ↔ a.toInt ≤ b.toInt := BitVec.sle_iff_toInt_le

/-- The verdict in terms of unsigned values: a `MaxDeltaCounter` in the upper
half of its range is negative and admits nothing. -/
theorem deltaStatus_eq (hw : 2 ≤ w) (d m : BitVec w) :
    deltaStatus d m =
      if 2 * m.toNat < 2 ^ w ∧ d.toNat ≤ m.toNat then
        if d.toNat = 0 then .repeated else if d.toNat = 1 then .ok else .okSomeLost
      else .wrongSequence := by
  have hpow : 4 ≤ 2 ^ w := by
    calc 4 = 2 ^ 2 := by norm_num
      _ ≤ 2 ^ w := Nat.pow_le_pow_right (by decide) hw
  have hone : d = 1#w ↔ d.toNat = 1 := by
    rw [← BitVec.toNat_inj, BitVec.toNat_ofNat, Nat.mod_eq_of_lt (by omega)]
  have hwithin : d.sle m = true ∧ (0#w).sle d = true ↔ 2 * m.toNat < 2 ^ w ∧ d.toNat ≤ m.toNat := by
    rw [sle_iff, sle_iff, BitVec.toInt_eq_toNat_cond, BitVec.toInt_eq_toNat_cond, BitVec.toInt_zero]
    split_ifs <;> omega
  have hpos : 2 * d.toNat < 2 ^ w → ((0#w).slt d = true ↔ 0 < d.toNat) := by
    intro hlow
    rw [BitVec.slt_iff_toInt_lt, BitVec.toInt_zero, BitVec.toInt_eq_toNat_cond, if_pos hlow]
    omega
  unfold deltaStatus
  simp only [hwithin, hone]
  by_cases h : 2 * m.toNat < 2 ^ w ∧ d.toNat ≤ m.toNat
  · rw [if_pos h, if_pos h]
    simp only [hpos (by omega)]
    split_ifs <;> first | rfl | omega
  · rw [if_neg h, if_neg h]

/-- The claim of the profile documents on the verdict for the distance
`(r - c) mod 2^w`. -/
structure SequenceVerdict (maxDelta c r : BitVec w) (after : CheckState w) : Prop where
  repeated : after.status = .repeated ↔ (r - c).toNat = 0
  ok : after.status = .ok ↔ (r - c).toNat = 1 ∧ 1 ≤ maxDelta.toNat
  okSomeLost : after.status = .okSomeLost ↔ 2 ≤ (r - c).toNat ∧ (r - c).toNat ≤ maxDelta.toNat
  wrongSequence : after.status = .wrongSequence ↔ maxDelta.toNat < (r - c).toNat
  counter : after.counter = r

/-- Where the signed test gives that verdict. -/
def MaxDeltaFits (maxDelta c r : BitVec w) : Prop :=
  2 * maxDelta.toNat < 2 ^ w ∨ maxDelta.toNat < (r - c).toNat

theorem sequenceVerdict_iff (hw : 2 ≤ w) (maxDelta c r : BitVec w) :
    SequenceVerdict maxDelta c r ⟨deltaStatus (r - c) maxDelta, r⟩ ↔ MaxDeltaFits maxDelta c r := by
  rw [deltaStatus_eq hw]
  constructor
  · intro h
    by_contra hno
    have hwrong := h.wrongSequence
    rw [MaxDeltaFits, not_or] at hno
    rw [if_neg (by omega)] at hwrong
    exact hno.2 (hwrong.mp rfl)
  · intro h
    rw [MaxDeltaFits] at h
    refine ⟨?_, ?_, ?_, ?_, rfl⟩ <;>
      · generalize (r - c).toNat = d at h ⊢
        split_ifs <;> simp only [false_iff, true_iff] <;> omega

theorem checkSequence_verdict_iff (hw : 2 ≤ w) (maxDelta : BitVec w) (state : CheckState w)
    (r : BitVec w) :
    SequenceVerdict maxDelta state.counter r (checkSequence maxDelta state r) ↔
      MaxDeltaFits maxDelta state.counter r :=
  sequenceVerdict_iff hw maxDelta state.counter r

variable (maxDelta : uint32) (state : CheckState 32) (r : uint32)

theorem checkSequence32_eq : checkSequence32 maxDelta state r = checkSequence maxDelta state r := by
  have hwrap : 0xffffffff + r - state.counter + 1 = r - state.counter := by bv_omega
  unfold checkSequence32 checkSequence
  simp only [hwrap, ite_self]

/-- The low half of a distance `d` is within that of `MaxDeltaCounter`, and does not take the low
half of the counter from `0x7FFF` to `0x8000`. -/
abbrev HalvesWithin (maxDelta last d : ℕ) : Prop :=
  maxDelta % 2 ^ 16 < 2 ^ 15 ∧ d % 2 ^ 16 ≤ maxDelta % 2 ^ 16 ∧
    (last + 2 ^ 15) % 2 ^ 16 + d % 2 ^ 16 < 2 ^ 16

/-- The verdict of profile 7m in terms of unsigned values: the low halves decide. -/
theorem checkSequence07m_status : (checkSequence07m maxDelta state r).status =
    if HalvesWithin maxDelta.toNat state.counter.toNat (r - state.counter).toNat then
      if (r - state.counter).toNat % 2 ^ 16 = 0 then .repeated
      else if (r - state.counter).toNat % 2 ^ 16 = 1 then .ok else .okSomeLost
    else .wrongSequence := by
  have hread : ∀ x : uint32, narrowed x =
      if 2 * (x.toNat % 2 ^ 16) < 2 ^ 16 then ((x.toNat % 2 ^ 16 : ℕ) : ℤ)
      else ((x.toNat % 2 ^ 16 : ℕ) : ℤ) - (2 ^ 16 : ℕ) := by
    intro x
    rw [narrowed, BitVec.toInt_eq_toNat_cond, BitVec.toNat_setWidth]
  have hr := r.isLt
  have hc := state.counter.isLt
  have hsub := BitVec.toNat_sub r state.counter
  have hwithin : narrowed r - narrowed state.counter ≤ narrowed maxDelta ∧
      0 ≤ narrowed r - narrowed state.counter ↔
        HalvesWithin maxDelta.toNat state.counter.toNat (r - state.counter).toNat := by
    rw [hread, hread, hread]
    split_ifs <;> omega
  have hdelta : 0 ≤ narrowed r - narrowed state.counter →
      narrowed r - narrowed state.counter = ((r - state.counter).toNat % 2 ^ 16 : ℕ) := by
    rw [hread, hread]
    split_ifs <;> omega
  simp only [checkSequence07m, hwithin]
  apply ite_congr rfl _ (fun _ => rfl)
  intro hin
  rw [hdelta (hwithin.mpr hin).2]
  split_ifs <;> first | rfl | omega

/-- Where profile 7m judges as profile 7 does, for a counter at the distance `d` from the last
one. -/
inductive HalvesJudgeAlike (maxDelta last d : ℕ) : Prop
  /-- The distance is within `MaxDeltaCounter`, and so are the low halves. That of the counter does
  not go from `0x7FFF` to `0x8000`, and that of the distance is 0 or 1 for these distances only. -/
  | within (hmax : maxDelta < 2 ^ 31) (hd : d ≤ maxDelta) (hlow : maxDelta % 2 ^ 16 < 2 ^ 15)
      (hle : d % 2 ^ 16 ≤ maxDelta % 2 ^ 16) (hrise : (last + 2 ^ 15) % 2 ^ 16 + d % 2 ^ 16 < 2 ^ 16)
      (hown : d < 2 ^ 16 ∨ 2 ≤ d % 2 ^ 16)
  /-- It is beyond, and so are the low halves or that of the counter goes from `0x7FFF` to
  `0x8000`. -/
  | beyond (hfar : 2 ^ 31 ≤ maxDelta ∨ maxDelta < d)
      (hlow : 2 ^ 15 ≤ maxDelta % 2 ^ 16 ∨ maxDelta % 2 ^ 16 < d % 2 ^ 16 ∨
        2 ^ 16 ≤ (last + 2 ^ 15) % 2 ^ 16 + d % 2 ^ 16)

theorem checkSequence07m_eq_iff :
    checkSequence07m maxDelta state r = checkSequence32 maxDelta state r ↔
      HalvesJudgeAlike maxDelta.toNat state.counter.toNat (r - state.counter).toNat := by
  have hcounter : (checkSequence07m maxDelta state r).counter =
      (checkSequence32 maxDelta state r).counter := rfl
  have hstatus : (checkSequence32 maxDelta state r).status =
      deltaStatus (r - state.counter) maxDelta := by
    rw [checkSequence32_eq, checkSequence]
  rw [CheckState.ext_iff, and_iff_left hcounter, hstatus, checkSequence07m_status,
    deltaStatus_eq (by decide)]
  generalize (r - state.counter).toNat = d
  constructor
  · intro h
    split_ifs at h
    all_goals first
      | exact .within (by omega) (by omega) (by omega) (by omega) (by omega) (by omega)
      | exact .beyond (by omega) (by omega)
  · rintro (_ | _) <;> split_ifs <;> first | rfl | omega

/-- Profile 7m agrees with profile 7 on a message, and takes the next counter for the
next one, exactly if the low halves judge alike and the next counter does not meet a
`MaxDeltaCounter` that is negative as a `sint32`. -/
theorem checkSequence07m_agrees_iff (maxDelta : uint32) (state : CheckState 32) (r : uint32) :
    checkSequence07m maxDelta state r = checkSequence32 maxDelta state r ∧
      (r = state.counter + 1 → 1 ≤ maxDelta.toNat →
        (checkSequence07m maxDelta state r).status = .ok) ↔
      HalvesJudgeAlike maxDelta.toNat state.counter.toNat (r - state.counter).toNat ∧
        (r = state.counter + 1 → maxDelta.toNat < 2 ^ 31) := by
  rw [checkSequence07m_eq_iff]
  apply and_congr_right
  intro halike
  rw [(checkSequence07m_eq_iff _ _ _).mpr halike, checkSequence32_eq, checkSequence,
    deltaStatus_eq (by decide)]
  apply forall_congr'
  intro hnext
  have hone : (r - state.counter).toNat = 1 := by bv_omega
  rw [hone]
  by_cases hmax : maxDelta.toNat < 2 ^ 31
  · simp only [hmax, iff_true]
    intro hpos
    rw [if_pos ⟨by omega, hpos⟩, if_neg (by decide), if_pos trivial]
  · rw [if_neg (by omega)]
    simp only [hmax, iff_false, not_forall, reduceCtorEq, not_false_iff, exists_prop, and_true]
    omega

/-- The next message after number `0x7FFF`. -/
theorem checkSequence07m_refuses_next :
    (checkSequence07m 1 ⟨.ok, 0x7FFF⟩ 0x8000).status = .wrongSequence ∧
      (checkSequence32 1 ⟨.ok, 0x7FFF⟩ 0x8000).status = .ok := by
  decide

theorem checkSequence_status {maxDelta : BitVec w} (hw : 2 ≤ w)
    (hmax : 2 * maxDelta.toNat < 2 ^ w) (state : CheckState w) (r : BitVec w) {lost : ℕ}
    (hlost : lost < maxDelta.toNat) (hdelta : (r - state.counter).toNat = lost + 1) :
    (checkSequence maxDelta state r).status = if lost = 0 then .ok else .okSomeLost := by
  rw [checkSequence, deltaStatus_eq hw, if_pos ⟨hmax, by omega⟩, hdelta, if_neg (by omega)]
  simp

theorem checkSequence22_status {maxDelta : uint8} {state : CheckState 8}
    (hstate : state.counter < 16) (r : BitVec 4) {lost : ℕ} (hlost : lost < maxDelta.toNat)
    (hdelta : (r - state.counter.setWidth 4).toNat = lost + 1) :
    (checkSequence22 maxDelta state (r.setWidth 8)).status =
      if lost = 0 then .ok else .okSomeLost := by
  have hdistance : (if state.counter ≤ r.setWidth 8 then r.setWidth 8 - state.counter
      else 0xF + r.setWidth 8 - state.counter + 1 : uint8).toNat = lost + 1 := by
    split_ifs <;> bv_omega
  simp only [checkSequence22]
  generalize (if state.counter ≤ r.setWidth 8 then r.setWidth 8 - state.counter
    else 0xF + r.setWidth 8 - state.counter + 1 : uint8) = distance at hdistance
  split_ifs <;> first | rfl | bv_omega

end

end AdaptivePlatform.E2E
