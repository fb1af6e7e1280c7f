import AdaptivePlatform.E2E.Profile02
import AdaptivePlatform.Foundations.Runs

/-!
# Profile 1

The CRC is a byte, the counter a half byte anywhere else in the data. Depending on the
mode the CRC covers the data identifier in full or in part; in the mode `NIBBLE` four of
its bits are sent in a half byte of their own.
-/
namespace AdaptivePlatform.E2E

open Bytes Runs

/-- `E2E_P01DataIDMode` -/
inductive P01DataIDMode
  | both
  | alt
  | low
  | nibble
  | noUsed
  deriving DecidableEq, Repr

/-- `E2E_P01ConfigType` -/
structure P01Config extends SyncConfig where
  counterOffset : uint16
  crcOffset : uint16
  dataID : uint16
  dataIDNibbleOffset : uint16
  dataIDMode : P01DataIDMode
  dataLength : uint16

def readHalf (data : List uint8) (offset : uint16) : Option uint8 :=
  data[(offset / 8).toNat]?.map fun b => if offset % 8 = 0 then b &&& 0x0F else b >>> 4

section

variable (config : P01Config)

/-- The half of the high byte of the identifier that the mode `NIBBLE` sends. -/
def P01Config.idNibble : uint8 := (config.dataID >>> 8).setWidth 8 &&& 0x0F

variable (counter : uint8) (data : List uint8)

/-- The bytes that enter the CRC before the data. -/
def P01Config.idBytes : List uint8 :=
  let dataIDHbyte := (config.dataID >>> 8).setWidth 8
  let dataIDLbyte := config.dataID.setWidth 8
  match config.dataIDMode with
  | .both => [dataIDLbyte, dataIDHbyte]
  | .low => [dataIDLbyte]
  | .alt => if counter % 2 = 0 then [dataIDLbyte] else [dataIDHbyte]
  | .nibble => [dataIDLbyte, 0]
  | .noUsed => []

/-- `E2E_P01CalculateCRC8`. Without an identifier, and for an offset inside the first byte,
the calculation starts again before the data. -/
def p01CalculateCRC8 : Option uint8 := do
  let crc := (config.idBytes counter).foldl (fun crc b => crcCalculateCRC8 [b] crc false) 0xFF
  let offset := (config.crcOffset / 8).toNat
  let length := (config.dataLength / 8).setWidth 32
  let before ← segment data 0 offset
  let crc :=
    if 8 ≤ config.crcOffset ∧ config.dataIDMode ≠ .noUsed then crcCalculateCRC8 before crc false
    else if config.crcOffset = 0 ∧ config.dataIDMode ≠ .noUsed then crc
    else crcCalculateCRC8 before 0xFF false
  let crc ←
    if offset < (length - 1#32).toNat then
      (segment data (offset + 1) (length - BitVec.ofNat 32 offset - 1#32).toNat).map
        (crcCalculateCRC8 · crc false)
    else some crc
  return crc ^^^ 0xFF

variable (state : SyncState) (receivedCounter : uint8)

def p01CheckSeqence : SyncState :=
  let deltaCounter :=
    if state.lastValidCounter ≤ receivedCounter then receivedCounter - state.lastValidCounter
    else 15 + receivedCounter - state.lastValidCounter
  if deltaCounter = 0 then state.countRepeated 14 .repeated
  else if deltaCounter = 1 then state.accept config.toSyncConfig receivedCounter 0 .ok
  else if deltaCounter ≤ state.maxDeltaCounter then
    state.accept config.toSyncConfig receivedCounter (deltaCounter - 1) .okSomeLost
  else
    let state := { state with
      noNewOrRepeatedDataCounter := 0
      syncCounter := config.syncCounterInit
      status := .wrongSequence }
    if 0 < state.syncCounter then
      { state with
        maxDeltaCounter := config.maxDeltaCounterInit
        lastValidCounter := receivedCounter }
    else state

def p01CheckVerifyInputs : Option (List uint8) → ReturnType
  | none => .inputErrNull
  | some _ =>
    if state.InRange config.toSyncConfig 14 ∧ config.dataIDMode ≠ .noUsed then .ok
    else .inputErrWrong

/-- In the other modes `ReceivedDataIDNibble` is not set, nor used. -/
def readDataIDNibble : Option uint8 :=
  if config.dataIDMode = .nibble then readHalf data config.dataIDNibbleOffset else some 0

/-- The part of `E2E_P01Check` behind the test of the counter. -/
def p01Receive (data : List uint8) : Option SyncState := do
  let receivedCRC ← data[(config.crcOffset / 8).toNat]?
  let receivedDataIDNibble ← readDataIDNibble config data
  let calculatedCRC ← p01CalculateCRC8 config receivedCounter data
  if receivedCRC = calculatedCRC then
    if config.dataIDMode = .nibble ∧ receivedDataIDNibble ≠ config.idNibble then
      return { state with status := .wrongCrc }
    else if state.waitForFirstData then
      return state.receiveFirst config.toSyncConfig receivedCounter
    else return p01CheckSeqence config state receivedCounter
  else return { state with status := .wrongCrc }

def p01Check (data : Option (List uint8)) : Option (ReturnType × SyncState) :=
  match p01CheckVerifyInputs config state data, data with
  | .ok, some data =>
    let state := state.widen 14
    if state.newDataAvailable then do
      let receivedCounter ← readHalf data config.counterOffset
      if 15 ≤ receivedCounter then return (.inputErrWrong, state)
      let after ← p01Receive config state receivedCounter data
      return (.ok, after)
    else some (.ok, state.countRepeated 14 .noNewData)
  | ret, _ => some (ret, state)

end

section

variable {config : P01Config} {state after : SyncState}

section

variable (hinit : config.maxDeltaCounterInit ≤ 14)

include hinit

theorem inRange_p01CheckSeqence {counter : uint8}
    (hcounter : counter ≤ 14) (h : state.InRange config.toSyncConfig 14) :
    (p01CheckSeqence config state counter).InRange config.toSyncConfig 14 := by
  unfold p01CheckSeqence
  dsimp only
  generalize (if state.lastValidCounter ≤ counter then counter - state.lastValidCounter
    else 15 + counter - state.lastValidCounter) = deltaCounter
  split_ifs
  · exact h.countRepeated _
  · exact h.accept hinit hcounter _ _
  · exact h.accept hinit hcounter _ _
  · exact ⟨hcounter, hinit, Nat.le_refl _, Nat.zero_le _⟩
  · exact ⟨h.lastValidCounter, h.maxDeltaCounter, Nat.le_refl _, Nat.zero_le _⟩

theorem inRange_p01Receive
    (h : state.InRange config.toSyncConfig 14) {counter : uint8} (hcounter : counter ≤ 14)
    {data : List uint8} (hreceive : p01Receive config state counter data = some after) :
    after.InRange config.toSyncConfig 14 := by
  simp only [p01Receive, Option.bind_eq_bind, Option.bind_eq_some_iff] at hreceive
  obtain ⟨receivedCRC, -, nibble, -, crc, -, hreceive⟩ := hreceive
  split_ifs at hreceive <;> cases hreceive
  · exact ⟨h.1, h.2, h.3, h.4⟩
  · exact h.receiveFirst hinit hcounter
  · exact inRange_p01CheckSeqence hinit hcounter h
  · exact ⟨h.1, h.2, h.3, h.4⟩

theorem inRange_p01Check
    (h : state.InRange config.toSyncConfig 14) {data : Option (List uint8)} {ret : ReturnType}
    (hcheck : p01Check config state data = some (ret, after)) :
    after.InRange config.toSyncConfig 14 := by
  cases data with
  | none =>
    cases hcheck
    exact h
  | some data =>
    by_cases hmode : config.dataIDMode = .noUsed
    · have hverify : p01CheckVerifyInputs config state (some data) = .inputErrWrong :=
        if_neg fun hno => hno.2 hmode
      simp only [p01Check, hverify] at hcheck
      cases hcheck
      exact h
    · have hverify : p01CheckVerifyInputs config state (some data) = .ok := if_pos ⟨h, hmode⟩
      simp only [p01Check, hverify] at hcheck
      split_ifs at hcheck
      · obtain ⟨counter, -, hcheck⟩ := Option.bind_eq_some_iff.mp hcheck
        split_ifs at hcheck with hlarge
        · cases hcheck
          exact h.widen
        · obtain ⟨after, hreceive, heq⟩ := Option.bind_eq_some_iff.mp hcheck
          cases heq
          exact inRange_p01Receive hinit h.widen (by bv_omega) hreceive
      · cases hcheck
        exact h.widen.countRepeated _

end

/-- The caller says whether there is new data, and `E2E_P01Check` is called. -/
def p01Step (config : P01Config) (state : SyncState) (input : Bool × Option (List uint8)) :
    Option SyncState :=
  (p01Check config { state with newDataAvailable := input.1 } input.2).map Prod.snd

def p02Step (config : P02Config) (state : SyncState) (input : Bool × Option (List uint8)) :
    Option SyncState :=
  (p02Check config { state with newDataAvailable := input.1 } input.2).map Prod.snd

/-- No sequence of calls leads to a state that the check functions refuse. -/
theorem check_accepts_own_state :
    (∀ config : P01Config, config.maxDeltaCounterInit ≤ 14 → ∀ inputs state,
      exec (p01Step config) SyncState.checkInit inputs = some state →
        state.InRange config.toSyncConfig 14 ∧
        (config.dataIDMode ≠ .noUsed →
          ∀ data, p01CheckVerifyInputs config state (some data) = .ok)) ∧
    (∀ config : P02Config, config.maxDeltaCounterInit ≤ 15 → ∀ inputs state,
      exec (p02Step config) SyncState.checkInit inputs = some state →
        state.InRange config.toSyncConfig 15 ∧
        ∀ data, p02CheckVerifyInputs config state (some data) = .ok) := by
  constructor
  · intro config hinit inputs state hrun
    have hrange : state.InRange config.toSyncConfig 14 := by
      refine invariant_of_along ?_ SyncState.inRange_checkInit (along_true _ _ inputs) hrun
      intro s input s' hs _ hstep
      obtain ⟨⟨ret, after⟩, hcheck, rfl⟩ := Option.map_eq_some_iff.mp hstep
      have hs' : SyncState.InRange config.toSyncConfig 14 { s with newDataAvailable := input.1 } :=
        ⟨hs.1, hs.2, hs.3, hs.4⟩
      exact inRange_p01Check hinit hs' hcheck
    exact ⟨hrange, fun hmode data => if_pos ⟨hrange, hmode⟩⟩
  · intro config hinit inputs state hrun
    have hrange : state.InRange config.toSyncConfig 15 := by
      refine invariant_of_along ?_ SyncState.inRange_checkInit (along_true _ _ inputs) hrun
      intro s input s' hs _ hstep
      obtain ⟨⟨ret, after⟩, hcheck, rfl⟩ := Option.map_eq_some_iff.mp hstep
      have hs' : SyncState.InRange config.toSyncConfig 15 { s with newDataAvailable := input.1 } :=
        ⟨hs.1, hs.2, hs.3, hs.4⟩
      exact inRange_p02Check hinit hs' hcheck
    exact ⟨hrange, fun data => if_pos hrange⟩

end

end AdaptivePlatform.E2E
