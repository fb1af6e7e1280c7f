import AdaptivePlatform.E2E.Framing

/-!
# Profile 2, and the receiver that it shares with profile 1

The receiver of both profiles counts the messages that are missing or repeated, and after
too many of them it asks for some messages in sequence before it trusts the counter again.
-/
namespace AdaptivePlatform.E2E

open Bytes

/-- `E2E_P01CheckStatusType` and `E2E_P02CheckStatusType` -/
inductive SyncStatus
  | ok
  | noNewData
  | wrongCrc
  | sync
  | initial
  | repeated
  | okSomeLost
  | wrongSequence
  deriving DecidableEq, Repr

/-- `E2E_P01CheckStateType` and `E2E_P02CheckStateType` -/
structure SyncState where
  lastValidCounter : uint8
  maxDeltaCounter : uint8
  waitForFirstData : Bool
  newDataAvailable : Bool
  lostData : uint8
  status : SyncStatus
  syncCounter : uint8
  noNewOrRepeatedDataCounter : uint8
  deriving DecidableEq, Repr

/-- The part of the configuration that the receiver uses. -/
structure SyncConfig where
  maxDeltaCounterInit : uint8
  maxNoNewOrRepeatedData : uint8
  syncCounterInit : uint8

namespace SyncState

variable (config : SyncConfig) (max : uint8) (state : SyncState)

/-- The ranges that the check functions test, for counters up to `max`. -/
structure InRange : Prop where
  lastValidCounter : state.lastValidCounter ≤ max
  maxDeltaCounter : state.maxDeltaCounter ≤ max
  syncCounter : state.syncCounter ≤ config.syncCounterInit
  noNewOrRepeatedDataCounter : state.noNewOrRepeatedDataCounter ≤ max

instance decidableInRange : Decidable (state.InRange config max) :=
  decidable_of_iff (state.lastValidCounter ≤ max ∧ state.maxDeltaCounter ≤ max ∧
      state.syncCounter ≤ config.syncCounterInit ∧ state.noNewOrRepeatedDataCounter ≤ max)
    ⟨fun ⟨h₁, h₂, h₃, h₄⟩ => ⟨h₁, h₂, h₃, h₄⟩, fun ⟨h₁, h₂, h₃, h₄⟩ => ⟨h₁, h₂, h₃, h₄⟩⟩

/-- `E2E_P01CheckInit` and `E2E_P02CheckInit` -/
def checkInit : SyncState where
  lastValidCounter := 0
  maxDeltaCounter := 0
  waitForFirstData := true
  newDataAvailable := true
  lostData := 0
  status := .noNewData
  syncCounter := 0
  noNewOrRepeatedDataCounter := 0

def widen : SyncState :=
  { state with maxDeltaCounter :=
      if state.maxDeltaCounter < max then state.maxDeltaCounter + 1 else state.maxDeltaCounter }

@[simp] theorem newDataAvailable_widen :
    (state.widen max).newDataAvailable = state.newDataAvailable := rfl

@[simp] theorem waitForFirstData_widen :
    (state.widen max).waitForFirstData = state.waitForFirstData := rfl

@[simp] theorem lastValidCounter_widen :
    (state.widen max).lastValidCounter = state.lastValidCounter := rfl

/-- A message that is missing or repeated. -/
def countRepeated (status : SyncStatus) : SyncState :=
  { state with
    noNewOrRepeatedDataCounter :=
      if state.noNewOrRepeatedDataCounter < max then state.noNewOrRepeatedDataCounter + 1
      else state.noNewOrRepeatedDataCounter
    status := status }

/-- The first message with a correct CRC. -/
def receiveFirst (receivedCounter : uint8) : SyncState :=
  { state with
    waitForFirstData := false
    maxDeltaCounter := config.maxDeltaCounterInit
    lastValidCounter := receivedCounter
    status := .initial }

/-- A counter that is next in sequence or not too far ahead; `synced` is what is said of
it outside a resynchronisation. -/
def accept (receivedCounter lostData : uint8) (synced : SyncStatus) : SyncState :=
  let state := { state with
    maxDeltaCounter := config.maxDeltaCounterInit
    lastValidCounter := receivedCounter
    lostData := lostData }
  if state.noNewOrRepeatedDataCounter ≤ config.maxNoNewOrRepeatedData then
    let state := { state with noNewOrRepeatedDataCounter := 0 }
    if 0 < state.syncCounter then
      { state with syncCounter := state.syncCounter - 1, status := .sync }
    else { state with status := synced }
  else
    { state with
      noNewOrRepeatedDataCounter := 0
      syncCounter := config.syncCounterInit
      status := .sync }

end SyncState

/-- `E2E_P02ConfigType`, with the 16 entries of `DataIDList` that a counter can select. -/
structure P02Config extends SyncConfig where
  dataLength : uint16
  dataIDList : Vector uint8 16

section

variable (config : P02Config) (deltaCounter : uint8) (state : SyncState)

/-- The counter is a `sint8`. A jump that is too large sets the status only if there is
something to resynchronise. -/
def analysisDeltaCounter (receivedCounter : uint8) :
    SyncState :=
  if 0 = deltaCounter then state.countRepeated 15 .repeated
  else if 1 = deltaCounter then state.accept config.toSyncConfig receivedCounter 0 .ok
  else if (1#8).slt deltaCounter ∧ deltaCounter ≤ state.maxDeltaCounter then
    state.accept config.toSyncConfig receivedCounter (deltaCounter - 1) .okSomeLost
  else
    let state := { state with
      noNewOrRepeatedDataCounter := 0
      syncCounter := config.syncCounterInit }
    if 0 < state.syncCounter then
      { state with
        maxDeltaCounter := config.maxDeltaCounterInit
        lastValidCounter := receivedCounter
        status := .wrongSequence }
    else state

def p02CheckVerifyInputs : Option (List uint8) → ReturnType
  | none => .inputErrNull
  | some _ => if state.InRange config.toSyncConfig 15 then .ok else .inputErrWrong

variable (counter : uint8) (data : List uint8)

/-- The CRC of everything behind the CRC byte, and of the identifier that the counter
selects. -/
def p02CRC : Option uint8 := do
  let dataID ← config.dataIDList[counter.toNat]?
  crcOver crcCalculateCRC8H2F 0xFF data
    [(1, ((config.dataLength / 8).setWidth 32 - 1#32).toNat)] [[dataID]]

/-- The two differences of counters below 16 are those of `sint8`. -/
def p02DeltaCounter (receivedCounter lastValidCounter : uint8) : uint8 :=
  let deltaCounter := receivedCounter - lastValidCounter
  if deltaCounter.slt 0 then deltaCounter + 16 else deltaCounter

/-- The part of `E2E_P02Check` that reads new data. -/
def p02Receive : Option SyncState := do
  let counterByte ← data[1]?
  let receivedCounter := counterByte &&& 0xF#8
  let calculatedCRC ← p02CRC config receivedCounter data
  let receivedCRC ← data[0]?
  if calculatedCRC = receivedCRC then
    if state.waitForFirstData then
      return state.receiveFirst config.toSyncConfig receivedCounter
    else
      return analysisDeltaCounter config
        (p02DeltaCounter receivedCounter state.lastValidCounter) state receivedCounter
  else return { state with status := .wrongCrc }

def p02Check (data : Option (List uint8)) : Option (ReturnType × SyncState) :=
  match p02CheckVerifyInputs config state data, data with
  | .ok, some data =>
    let state := state.widen 15
    if state.newDataAvailable then (p02Receive config state data).map fun after => (.ok, after)
    else some (.ok, state.countRepeated 15 .noNewData)
  | ret, _ => some (ret, state)

/-- The CRC of the message is right for its counter. -/
def P02Correct (counter : uint8) : Prop :=
  ∃ counterByte crc, data[1]? = some counterByte ∧ counterByte &&& 0xF#8 = counter ∧
    data[0]? = some crc ∧ p02CRC config counter data = some crc

end

namespace SyncState

/-- How far the counter is ahead of the last one, modulo 16. -/
def distance (state : SyncState) (counter : uint8) : ℕ :=
  (counter.toNat + 16 - state.lastValidCounter.toNat) % 16

/-- What is to be said of a counter, for the `MaxDeltaCounter` that the call has widened. -/
structure Verdict (state : SyncState) (counter : uint8) (status : SyncStatus) : Prop where
  repeated : state.distance counter = 0 → status = .repeated
  ok : state.distance counter = 1 → status = .ok ∨ status = .sync
  okSomeLost : 2 ≤ state.distance counter →
    state.distance counter ≤ (state.widen 15).maxDeltaCounter.toNat →
      status = .okSomeLost ∨ status = .sync
  wrongSequence : (state.widen 15).maxDeltaCounter.toNat < state.distance counter →
    status = .wrongSequence

variable {config : SyncConfig} {state : SyncState}

theorem status_accept (receivedCounter lostData : uint8) (synced : SyncStatus) :
    (state.accept config receivedCounter lostData synced).status = synced ∨
      (state.accept config receivedCounter lostData synced).status = .sync := by
  unfold accept
  dsimp only
  split_ifs
  · exact .inr rfl
  · exact .inl rfl
  · exact .inr rfl

theorem one_le_widen (h : state.maxDeltaCounter ≤ 15) :
    1 ≤ (state.widen 15).maxDeltaCounter.toNat ∧ (state.widen 15).maxDeltaCounter.toNat ≤ 15 := by
  unfold widen
  split_ifs <;> bv_omega

end SyncState

section

theorem and_mask_le (x : uint8) : x &&& 0xF#8 ≤ 15 := by
  have hmask := toNat_and_mask (n := 4) (y := 0xF#8) rfl x
  bv_omega

variable {config : P02Config} {state : SyncState} {data : List uint8} {counter : uint8} {d : uint8}

theorem toNat_p02DeltaCounter (hlast : state.lastValidCounter ≤ 15) (hcounter : counter ≤ 15) :
    (p02DeltaCounter counter state.lastValidCounter).toNat = state.distance counter := by
  have hsigned : (counter - state.lastValidCounter).slt 0 = true ↔
      counter < state.lastValidCounter := by
    have hzero : BitVec.toInt (0 : uint8) = 0 := rfl
    rw [BitVec.slt_iff_toInt_lt, BitVec.toInt_eq_toNat_cond, hzero]
    split_ifs <;> bv_omega
  unfold p02DeltaCounter SyncState.distance
  simp only [hsigned]
  split_ifs <;> bv_omega

theorem p02Check_correct (hrange : state.InRange config.toSyncConfig 15)
    (hnew : state.newDataAvailable = true) (hwait : state.waitForFirstData = false)
    (hcorrect : P02Correct config data counter) :
    p02Check config state (some data) = some (.ok, analysisDeltaCounter config
      (p02DeltaCounter counter state.lastValidCounter) (state.widen 15) counter) := by
  obtain ⟨counterByte, crc, hbyte, rfl, hread, hcrc⟩ := hcorrect
  have hverify : p02CheckVerifyInputs config state (some data) = .ok := if_pos hrange
  simp [p02Check, hverify, hnew, p02Receive, hbyte, hread, hcrc, hwait]

/-- The jump is too large. -/
theorem status_analysisDeltaCounter_of_lt (hd : 2 ≤ d.toNat)
    (hmax : state.maxDeltaCounter.toNat < d.toNat) :
    (analysisDeltaCounter config d state counter).status =
      if 0 < config.syncCounterInit then .wrongSequence else state.status := by
  unfold analysisDeltaCounter
  rw [if_neg (by bv_omega), if_neg (by bv_omega), if_neg (by bv_omega)]
  dsimp only
  split_ifs <;> rfl

theorem one_slt (hd : 2 ≤ d.toNat) (hd' : d.toNat ≤ 15) : (1#8).slt d = true := by
  have hone : BitVec.toInt 1#8 = 1 := rfl
  rw [BitVec.slt_iff_toInt_lt, hone, BitVec.toInt_eq_toNat_cond]
  split_ifs <;> omega

theorem analysisDeltaCounter_of_le (hd : 2 ≤ d.toNat) (hd' : d.toNat ≤ 15)
    (hmax : d.toNat ≤ state.maxDeltaCounter.toNat) :
    analysisDeltaCounter config d state counter =
      state.accept config.toSyncConfig counter (d - 1) .okSomeLost := by
  unfold analysisDeltaCounter
  rw [if_neg (by bv_omega), if_neg (by bv_omega), if_pos ⟨one_slt hd hd', by bv_omega⟩]

theorem status_analysisDeltaCounter_congr (hd : d.toNat ≤ 15)
    (h : 0 < config.syncCounterInit ∨ d.toNat ≤ state.maxDeltaCounter.toNat) (status : SyncStatus) :
    (analysisDeltaCounter config d { state with status := status } counter).status =
      (analysisDeltaCounter config d state counter).status := by
  unfold analysisDeltaCounter
  dsimp only
  split_ifs with hzero hone hwithin hsync
  · rfl
  · rfl
  · rfl
  · rfl
  · exact absurd ⟨one_slt (by bv_omega) hd, by bv_omega⟩ hwithin

/-- What is said of a message does not depend on the status before, and is what the
distance of its counter asks for, exactly if the distance is not too large or there is
something to resynchronise. -/
theorem p02Check_verdict_iff (hrange : state.InRange config.toSyncConfig 15)
    (hnew : state.newDataAvailable = true) (hwait : state.waitForFirstData = false)
    (hcorrect : P02Correct config data counter) :
    (∃ verdict, state.Verdict counter verdict ∧ ∀ status, ∃ after,
      p02Check config { state with status := status } (some data) = some (.ok, after) ∧
        after.status = verdict) ↔
      0 < config.syncCounterInit ∨
        state.distance counter ≤ (state.widen 15).maxDeltaCounter.toNat := by
  have hcounter : counter ≤ 15 := by
    obtain ⟨counterByte, -, -, rfl, -⟩ := hcorrect
    exact and_mask_le counterByte
  have hdelta := toNat_p02DeltaCounter hrange.lastValidCounter hcounter
  have hwidened := SyncState.one_le_widen hrange.maxDeltaCounter
  have hlt : state.distance counter < 16 := Nat.mod_lt _ (by decide)
  have hcheck : ∀ status, p02Check config { state with status := status } (some data) =
      some (.ok, analysisDeltaCounter config (p02DeltaCounter counter state.lastValidCounter)
        { state.widen 15 with status := status } counter) := by
    intro status
    exact p02Check_correct ⟨hrange.1, hrange.2, hrange.3, hrange.4⟩ hnew hwait hcorrect
  generalize p02DeltaCounter counter state.lastValidCounter = d at *
  constructor
  · rintro ⟨verdict, -, hverdict⟩
    by_contra! hno
    -- Two statuses before the message give two after it.
    have hkept : ∀ status, status = verdict := by
      intro status
      obtain ⟨after, hafter, rfl⟩ := hverdict status
      rw [hcheck] at hafter
      obtain rfl := (Prod.mk.inj (Option.some.inj hafter)).2
      rw [status_analysisDeltaCounter_of_lt (by omega) (by dsimp only; omega), if_neg hno.1]
    cases (hkept .ok).trans (hkept .sync).symm
  · intro h
    rw [← hdelta] at h
    refine ⟨(analysisDeltaCounter config d (state.widen 15) counter).status,
      ⟨?_, ?_, ?_, ?_⟩, ?_⟩
    · intro hzero
      obtain rfl : d = 0 := by bv_omega
      rfl
    · intro hone
      obtain rfl : d = 1 := by bv_omega
      exact SyncState.status_accept _ _ _
    · intro htwo hle
      rw [analysisDeltaCounter_of_le (by omega) (by omega) (by omega)]
      exact SyncState.status_accept _ _ _
    · intro hgt
      rw [status_analysisDeltaCounter_of_lt (by omega) (by omega),
        if_pos (h.resolve_right (by omega))]
    · intro status
      exact ⟨_, hcheck status, status_analysisDeltaCounter_congr (by omega) h status⟩

/-- Two bytes of data under identifiers that are all zero, and no resynchronisation. -/
def shortMessages : P02Config where
  maxDeltaCounterInit := 1
  maxNoNewOrRepeatedData := 2
  syncCounterInit := 0
  dataLength := 16
  dataIDList := Vector.replicate 16 0

/-- A receiver that has seen counter 0. -/
def afterCounterZero : SyncState :=
  { SyncState.checkInit with waitForFirstData := false, maxDeltaCounter := 1, status := .ok }

theorem p02Check_verdict_iff_counterOne :
    ∃ verdict, afterCounterZero.Verdict 1 verdict ∧ ∀ status, ∃ after,
      p02Check shortMessages { afterCounterZero with status := status } (some [174, 1]) =
        some (.ok, after) ∧ after.status = verdict := by
  have hrange : afterCounterZero.InRange shortMessages.toSyncConfig 15 := by decide
  have hcorrect : P02Correct shortMessages [174, 1] 1 :=
    ⟨1, 174, rfl, by decide, rfl, by decide +kernel⟩
  exact (p02Check_verdict_iff hrange rfl rfl hcorrect).mpr (.inr (by decide))

/-- The jump to counter 5 leaves the status of the message before. -/
theorem jump_keeps_status :
    p02Check shortMessages afterCounterZero (some [123, 5]) =
        some (.ok, { afterCounterZero with maxDeltaCounter := 2 }) ∧
      afterCounterZero.status = .ok ∧ afterCounterZero.distance 5 = 5 := by
  decide +kernel

end

section

namespace SyncState

variable {config : SyncConfig} {max : uint8} {state : SyncState}

theorem inRange_checkInit : checkInit.InRange config max := by constructor <;> exact Nat.zero_le _

theorem InRange.widen (h : state.InRange config max) : (state.widen max).InRange config max := by
  obtain ⟨h₁, h₂, h₃, h₄⟩ := h
  refine ⟨h₁, ?_, h₃, h₄⟩
  unfold SyncState.widen
  split_ifs <;> bv_omega

theorem InRange.countRepeated (h : state.InRange config max) (status : SyncStatus) :
    (state.countRepeated max status).InRange config max := by
  obtain ⟨h₁, h₂, h₃, h₄⟩ := h
  refine ⟨h₁, h₂, h₃, ?_⟩
  unfold SyncState.countRepeated
  split_ifs <;> bv_omega

variable (hinit : config.maxDeltaCounterInit ≤ max) {counter : uint8} (hcounter : counter ≤ max)

include hinit hcounter

theorem InRange.receiveFirst (h : state.InRange config max) :
    (state.receiveFirst config counter).InRange config max :=
  ⟨hcounter, hinit, h.syncCounter, h.noNewOrRepeatedDataCounter⟩

theorem InRange.accept (h : state.InRange config max) (lostData : uint8) (synced : SyncStatus) :
    (state.accept config counter lostData synced).InRange config max := by
  have hsync := h.syncCounter
  unfold SyncState.accept
  dsimp only
  split_ifs
  · exact ⟨hcounter, hinit, by dsimp only; bv_omega, Nat.zero_le _⟩
  · exact ⟨hcounter, hinit, hsync, Nat.zero_le _⟩
  · exact ⟨hcounter, hinit, Nat.le_refl _, Nat.zero_le _⟩

end SyncState

variable {config : P02Config} {state after : SyncState}

section

variable (hinit : config.maxDeltaCounterInit ≤ 15)

include hinit

theorem inRange_analysisDeltaCounter {d counter : uint8}
    (hcounter : counter ≤ 15) (h : state.InRange config.toSyncConfig 15) :
    (analysisDeltaCounter config d state counter).InRange config.toSyncConfig 15 := by
  unfold analysisDeltaCounter
  dsimp only
  split_ifs
  · exact h.countRepeated _
  · exact h.accept hinit hcounter _ _
  · exact h.accept hinit hcounter _ _
  · exact ⟨hcounter, hinit, Nat.le_refl _, Nat.zero_le _⟩
  · exact ⟨h.lastValidCounter, h.maxDeltaCounter, Nat.le_refl _, Nat.zero_le _⟩

theorem inRange_p02Receive (h : state.InRange config.toSyncConfig 15) {data : List uint8}
    (hreceive : p02Receive config state data = some after) :
    after.InRange config.toSyncConfig 15 := by
  simp only [p02Receive, Option.bind_eq_bind, Option.bind_eq_some_iff] at hreceive
  obtain ⟨counterByte, -, crc, -, received, -, hreceive⟩ := hreceive
  split_ifs at hreceive <;> cases hreceive
  · exact h.receiveFirst hinit (and_mask_le _)
  · exact inRange_analysisDeltaCounter hinit (and_mask_le _) h
  · exact ⟨h.1, h.2, h.3, h.4⟩

theorem inRange_p02Check
    (h : state.InRange config.toSyncConfig 15) {data : Option (List uint8)} {ret : ReturnType}
    (hcheck : p02Check config state data = some (ret, after)) :
    after.InRange config.toSyncConfig 15 := by
  cases data with
  | none =>
    cases hcheck
    exact h
  | some data =>
    have hverify : p02CheckVerifyInputs config state (some data) = .ok := if_pos h
    simp only [p02Check, hverify] at hcheck
    split_ifs at hcheck
    · obtain ⟨after, hreceive, heq⟩ := Option.map_eq_some_iff.mp hcheck
      cases heq
      exact inRange_p02Receive hinit h.widen hreceive
    · cases hcheck
      exact h.widen.countRepeated _

end

end

end AdaptivePlatform.E2E
