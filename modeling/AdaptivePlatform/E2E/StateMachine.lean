import AdaptivePlatform.Foundations.Runs
import AdaptivePlatform.E2E.Sequence

/-!
# The E2E communication state machine

`E2E_SMCheckInit` and `E2E_SMCheck` of `E2E.c` with their static helpers. The
window `ProfileStatusWindow` is the list of its cells; an access outside it has
no result (`none`), and so has the division by a zero `WindowSizeInit` and the
loop of `E2E_SMClearRemainingStatus` whose bound `0u - 1u` no `uint8` index
reaches. The configuration and state pointers are references, never null.
-/
namespace AdaptivePlatform.E2E

/-- `E2E_P_OK`, and the further values of `E2E_PCheckStatusType` the state machine tells apart. -/
def pOk : uint8 := 0x00
def pRepeated : uint8 := 0x01
def pError : uint8 := 0x03
def pNotAvailable : uint8 := 0x04
def pNoNewData : uint8 := 0x05

/-- `E2E_SMStateType`. Values above `E2E_SM_INVALID` are `other`. -/
inductive SMState
  | valid
  | deinit
  | nodata
  | init
  | invalid
  | other (code : uint8)
  deriving DecidableEq, Repr

structure SMConfig where
  windowSizeValid : uint8
  minOkStateInit : uint8
  maxErrorStateInit : uint8
  minOkStateValid : uint8
  maxErrorStateValid : uint8
  minOkStateInvalid : uint8
  maxErrorStateInvalid : uint8
  windowSizeInit : uint8
  windowSizeInvalid : uint8
  clearToInvalid : Bool
  transitToInvalidExtended : Bool

structure SMCheckState where
  profileStatusWindow : List uint8
  windowTopIndex : uint8
  okCount : uint8
  errorCount : uint8
  smState : SMState

variable (profileStatus : uint8) (config : SMConfig) (state : SMCheckState)

/-- The selection of `CurrentWindowSize`, repeated in every helper. -/
def SMConfig.windowSize : SMState → uint8
  | .valid => config.windowSizeValid
  | .init => config.windowSizeInit
  | _ => config.windowSizeInvalid

/-- The position after `top` in a window of `size` cells. -/
def nextTopIndex (size top : uint8) : uint8 := if top.toNat + 1 = size.toNat then 0 else top + 1

def smAddStatus : Option SMCheckState := do
  let window ← Cells.write state.profileStatusWindow state.windowTopIndex.toNat profileStatus
  let currentWindowSize := config.windowSize state.smState
  let okCount ← Cells.countUpTo pOk window currentWindowSize.toNat
  let errorCount ← Cells.countUpTo pError window currentWindowSize.toNat
  return { state with
    profileStatusWindow := window
    okCount := BitVec.ofNat 8 okCount
    errorCount := BitVec.ofNat 8 errorCount
    windowTopIndex := nextTopIndex currentWindowSize state.windowTopIndex }

def smClearStatus (config : SMConfig) : Option SMCheckState := do
  let window ← Cells.fill pNotAvailable (config.windowSize state.smState).toNat
    state.profileStatusWindow
  return { state with
    profileStatusWindow := window
    okCount := 0
    errorCount := 0
    windowTopIndex := 0 }

/-- `E2E_SMClearRemainingStatus`. The loop runs over the indices below
`CurrentWindowSize - 1u`. -/
def smClearRemainingStatus (config : SMConfig) (nextState : SMState) : Option SMCheckState :=
  let currentWindowSize := config.windowSize state.smState
  let nextWindowSize : uint8 :=
    match nextState with
    | .valid => config.windowSizeValid
    | .invalid => config.windowSizeInvalid
    | _ => 0
  if currentWindowSize < nextWindowSize then
    if currentWindowSize = 0 then none
    else
      (Cells.fill pNotAvailable (currentWindowSize.toNat - 1) state.profileStatusWindow).map
        fun window => { state with profileStatusWindow := window }
  else some state

def smCheckInit (config : SMConfig) : Option SMCheckState := do
  let window ← Cells.fill pNotAvailable (config.windowSize state.smState).toNat
    state.profileStatusWindow
  return {
    profileStatusWindow := window
    windowTopIndex := 0
    okCount := 0
    errorCount := 0
    smState := .nodata }

def SMCheckState.enter (next : SMState) : SMCheckState := { state with smState := next }

/-- The branch into `E2E_SM_INVALID` shared by several transitions. -/
def smToInvalid (config : SMConfig) : Option SMCheckState :=
  (if config.clearToInvalid then smClearStatus state config
    else smClearRemainingStatus state config .invalid).map (·.enter .invalid)

/-- The case `E2E_SM_VALID` of both variants of the check. -/
def smCheckValid : Option SMCheckState := do
  let state ← smAddStatus profileStatus config state
  if state.errorCount ≤ config.maxErrorStateValid ∧ config.minOkStateValid ≤ state.okCount then
    return state
  else
    let state ← if config.clearToInvalid then smClearStatus state config else some state
    return state.enter .invalid

def smCheckBeforeR2011 : Option (ReturnType × SMCheckState) :=
  match state.smState with
  | .deinit => some (.wrongState, state)
  | .nodata =>
    if profileStatus ≠ pError ∧ profileStatus ≠ pNoNewData then
      some (.ok, state.enter .init)
    else some (.ok, state)
  | .init => do
    let state ← smAddStatus profileStatus config state
    if state.errorCount ≤ config.maxErrorStateInit ∧ config.minOkStateInit ≤ state.okCount then
      let state ← smClearRemainingStatus state config .valid
      return (.ok, state.enter .valid)
    else if config.maxErrorStateInit < state.errorCount then
      let state ← smToInvalid state config
      return (.ok, state)
    else return (.ok, state)
  | .valid => (smCheckValid profileStatus config state).map fun state => (.ok, state)
  | .invalid => do
    let state ← smAddStatus profileStatus config state
    if state.errorCount ≤ config.maxErrorStateInvalid ∧
        config.minOkStateInvalid ≤ state.okCount then
      let state ← smClearRemainingStatus state config .valid
      return (.ok, state.enter .valid)
    else return (.ok, state)
  | .other _ => some (.wrongState, state)

/-- The second operand of the `INIT` to `INVALID` test of the R20-11 variant,
in `int` arithmetic: `%` truncates towards zero. -/
def tooFewOkLeft : Bool :=
  let size : ℤ := config.windowSizeInit.toNat
  size - config.minOkStateInit.toNat <
    ((state.windowTopIndex.toNat : ℤ) - 1).tmod size + 1 - state.okCount.toNat

def smCheckR2011 : Option (ReturnType × SMCheckState) :=
  match state.smState with
  | .deinit => some (.wrongState, state)
  | .nodata => do
    let state ← smAddStatus profileStatus config state
    if state.windowTopIndex = 0 ∨ config.windowSizeInit ≤ state.windowTopIndex then
      let state ← smToInvalid state config
      return (.ok, state)
    else if profileStatus ≠ pError ∧ profileStatus ≠ pNoNewData then
      let state ← smClearStatus state config
      return (.ok, state.enter .init)
    else return (.ok, state)
  | .init => do
    let state ← smAddStatus profileStatus config state
    if state.errorCount ≤ config.maxErrorStateInit ∧ config.minOkStateInit ≤ state.okCount then
      let state ← smClearRemainingStatus state config .valid
      return (.ok, state.enter .valid)
    else if config.maxErrorStateInit < state.errorCount then
      let state ← smToInvalid state config
      return (.ok, state)
    else if config.windowSizeInit = 0 then none
    else if tooFewOkLeft config state then
      let state ← smToInvalid state config
      return (.ok, state)
    else return (.ok, state)
  | .valid => (smCheckValid profileStatus config state).map fun state => (.ok, state)
  | .invalid => do
    let state ← smAddStatus profileStatus config state
    if state.errorCount ≤ config.maxErrorStateInvalid ∧
        config.minOkStateInvalid ≤ state.okCount then
      let state ← smClearRemainingStatus state config .valid
      return (.ok, state.enter .valid)
    else if profileStatus = pError then
      let state ← smClearStatus state config
      return (.ok, state)
    else return (.ok, state)
  | .other _ => some (.wrongState, state)

def smCheck : Option (ReturnType × SMCheckState) :=
  if 0x05#8 < profileStatus then some (.inputErrWrong, state)
  else if config.transitToInvalidExtended then smCheckR2011 profileStatus config state
  else smCheckBeforeR2011 profileStatus config state

def smStep (profileStatus : uint8) : Option SMCheckState :=
  (smCheck profileStatus config state).map Prod.snd

end AdaptivePlatform.E2E
