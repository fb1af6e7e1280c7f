import AdaptivePlatform.Foundations.Bytes
import Mathlib.Data.List.Sort

/-!
# The state machine of an Ethernet channel

`NMEtherStateMachine` of the network management daemon: requests and releases of the network,
received NM messages, wakeups, node detection, and the six one-shot timers that drive it. The
calls of its observers are collected in the order in which they are made. Times are
milliseconds; the interface that forces a state is not modelled.
-/
namespace AdaptivePlatform.Nm

open Bytes

inductive NetworkStateType where
  | kNoCom
  | kFullCom
  | kBusSleep
  | kPrepareBusSleep
  | kRepeatMessageState
  | kNormalOperation
  | kReadySleep
  deriving DecidableEq, Repr

inductive ESMModeType where
  | kModeBusSleep
  | kModePrepareBusSleep
  | kModeNetwork
  deriving DecidableEq, Repr

inductive EthernetStateMachineStateType where
  | kStateBusSleep
  | kStatePrepareBusSleep
  | kStateReadySleep
  | kStateNormalOperation
  | kStateRepeatMessage
  deriving DecidableEq, Repr

inductive MessageCtrlType where
  | kEnableAll
  | kEnableReceive
  | kEnableSend
  | kDisableAll
  deriving DecidableEq, Repr

inductive NmOperCode where
  | kNmOperError
  | kNmOperOK
  deriving DecidableEq, Repr

/-- A timer behind a pointer: none, one that has expired, or one that is running. -/
inductive Timer where
  | absent
  | idle
  | pending
  deriving DecidableEq, Repr

/-- `UpdateTime` starts an existing timer again; without one there is nothing to call. -/
def Timer.updateTime : Timer → Option Timer
  | absent => none
  | _ => some pending

inductive TimerName where
  | networkTimer
  | nmMsgCycleOffsetTimer
  | msgCycleTimer
  | repeateMessageTimer
  | immediateNmTransmissionsTimer
  | waitBusSleepTimer
  deriving DecidableEq, Repr

/-- The configuration of a channel, as far as the functions below read it. -/
structure EtherConfig where
  nmRepeatMessageTime : ℕ
  nmWaitBusSleepTime : ℕ
  nmMsgCycleOffset : ℕ
  nmImmediateNmTransmissions : ℕ
  nmSendImmediateInRepeatMessage : Bool
  nmPnHandleMultipleNetworkRequests : Bool
  dropMsgInBusSleepMode : Bool
  nmNidPosition : ℤ
  nmstateBusSleep2Repeat : uint8
  nmstatePrepare2Repeat : uint8
  nmstateReadySlep2Repeat : uint8
  nmstateNormal2Repeat : uint8
  nmstateReadySlep2Normal : uint8
  nmstateRepeat2Normal : uint8
  configPnGroup : List uint16

/-- Bursts of three messages, only for nodes that request the network. -/
def burstConfig : EtherConfig where
  nmRepeatMessageTime := 300
  nmWaitBusSleepTime := 500
  nmMsgCycleOffset := 0
  nmImmediateNmTransmissions := 3
  nmSendImmediateInRepeatMessage := false
  nmPnHandleMultipleNetworkRequests := false
  dropMsgInBusSleepMode := false
  nmNidPosition := 0
  nmstateBusSleep2Repeat := 1
  nmstatePrepare2Repeat := 2
  nmstateReadySlep2Repeat := 3
  nmstateNormal2Repeat := 4
  nmstateReadySlep2Normal := 5
  nmstateRepeat2Normal := 6
  configPnGroup := []

/-- The communication state that goes with a mode. -/
def comOf (modeType : ESMModeType) : NetworkStateType :=
  if modeType = .kModeNetwork then .kFullCom else .kNoCom

/-- The calls a channel makes of its observers and its socket. -/
inductive Output where
  | comState (state : NetworkStateType)
  | stateType (state : EthernetStateMachineStateType)
  | pnActive (pnIds : List uint16)
  | sent (detectNode : Bool) (pnIds : List uint16) (userDataNMState : uint8) (activeWakeUp : Bool)
  | nodes (nodeIds : List uint8)

structure Channel where
  modeType : ESMModeType := .kModeBusSleep
  stateType : EthernetStateMachineStateType := .kStateBusSleep
  comState : NetworkStateType := .kNoCom
  nmImmediateNmTransmissionsLeft : ℕ := 0
  requestPnGroup : List uint16 := []
  requestEtherCount : uint32 := 0
  initConfig : Bool := false
  timers : TimerName → Timer := fun _ => .absent
  detectNode : Bool := false
  nodeList : List uint8 := []
  activeWakeUpNet : Bool := false
  userDataNMState : uint8 := 0
  ctrType : MessageCtrlType := .kEnableAll
  emitted : List Output := []

namespace Channel

variable (cfg : EtherConfig) (sent : Bool) (name : TimerName) (ch : Channel)

def setTimer (timer : Timer) (ch : Channel) : Channel :=
  { ch with timers := Function.update ch.timers name timer }

def checkActiveRequested : Bool := decide (0 < ch.requestEtherCount) || !ch.requestPnGroup.isEmpty

def updatePnMsg (validPns : List uint16) (ch : Channel) : Channel :=
  { ch with emitted := ch.emitted ++ [.pnActive validPns] }

def setMode (modeType : ESMModeType) (ch : Channel) : Channel :=
  if modeType ≠ ch.modeType then
    if comOf modeType ≠ ch.comState then
      { ch with
        modeType := modeType
        comState := comOf modeType
        emitted := ch.emitted ++ [.comState (comOf modeType)] }
    else { ch with modeType := modeType }
  else ch

def setuserDataNMState (destType : EthernetStateMachineStateType) (ch : Channel) : Channel :=
  match destType, ch.stateType with
  | .kStateRepeatMessage, .kStateBusSleep =>
    { ch with userDataNMState := cfg.nmstateBusSleep2Repeat }
  | .kStateRepeatMessage, .kStatePrepareBusSleep =>
    { ch with userDataNMState := cfg.nmstatePrepare2Repeat }
  | .kStateRepeatMessage, .kStateReadySleep =>
    { ch with userDataNMState := cfg.nmstateReadySlep2Repeat }
  | .kStateRepeatMessage, .kStateNormalOperation =>
    { ch with userDataNMState := cfg.nmstateNormal2Repeat }
  | .kStateNormalOperation, .kStateReadySleep =>
    { ch with userDataNMState := cfg.nmstateReadySlep2Normal }
  | .kStateNormalOperation, .kStateRepeatMessage =>
    { ch with userDataNMState := cfg.nmstateRepeat2Normal }
  | _, _ => ch

def setNetworkStateType (stateType : EthernetStateMachineStateType) (ch : Channel) : Channel :=
  if stateType ≠ ch.stateType then
    let ch := setuserDataNMState cfg stateType ch
    { ch with stateType := stateType, emitted := ch.emitted ++ [.stateType stateType] }
  else ch

/-- The mode and the state are always set together. -/
def moveTo (desMode : ESMModeType) (desStateType : EthernetStateMachineStateType)
    (ch : Channel) : Channel :=
  setNetworkStateType cfg desStateType (setMode desMode ch)

/-! ## Timers whose time is never zero -/

def makeNetworkTimer : Channel := ch.setTimer .networkTimer .pending

def makeMsgCycleTimer : Channel := ch.setTimer .msgCycleTimer .pending

def makeMsgCycleOffsetTimer : Channel := ch.setTimer .nmMsgCycleOffsetTimer .pending

def makeImmediateNmTransmissionsTimer : Channel :=
  ch.setTimer .immediateNmTransmissionsTimer .pending

/-- `sent` says whether the socket took the whole message. -/
def sendNmMessage : NmOperCode × Channel :=
  if ch.ctrType ≠ .kEnableAll ∧ ch.ctrType ≠ .kEnableSend then (.kNmOperError, ch)
  else if ch.initConfig then
    let ch := { ch with
      emitted := ch.emitted ++
        [.sent ch.detectNode ch.requestPnGroup ch.userDataNMState ch.activeWakeUpNet] }
    if sent then (.kNmOperOK, makeNetworkTimer (updatePnMsg ch.requestPnGroup ch))
    else (.kNmOperError, ch)
  else (.kNmOperError, ch)

/-! ## The repeat message timer -/

def notifyDetectNodeList : Channel :=
  if ch.detectNode then
    { ch with detectNode := false, nodeList := [], emitted := ch.emitted ++ [.nodes ch.nodeList] }
  else ch

def repeateMessageTimerCalled : Channel :=
  let ch :=
    if ch.modeType = .kModeNetwork ∧ ch.stateType = .kStateRepeatMessage then
      if ch.checkActiveRequested then moveTo cfg .kModeNetwork .kStateNormalOperation ch
      else moveTo cfg .kModeNetwork .kStateReadySleep ch
    else ch
  (notifyDetectNodeList ch).setTimer .repeateMessageTimer .absent

/-- A time of zero calls the handler at once. -/
def makeRepeateMessageTimer : Channel :=
  if 0 < cfg.nmRepeatMessageTime then ch.setTimer .repeateMessageTimer .pending
  else repeateMessageTimerCalled cfg (ch.setTimer .repeateMessageTimer .absent)

/-! ## Entering Repeat Message -/

/-- How sending starts: with a burst, after an offset, or at once. -/
def startSending (sent fast : Bool) (ch : Channel) : Channel :=
  if fast ∧ 0 < cfg.nmImmediateNmTransmissions then
    let ch := (sendNmMessage sent ch).2
    let ch := { ch with nmImmediateNmTransmissionsLeft := cfg.nmImmediateNmTransmissions - 1 }
    if 0 < ch.nmImmediateNmTransmissionsLeft then
      makeImmediateNmTransmissionsTimer (ch.setTimer .msgCycleTimer .absent)
    else makeMsgCycleTimer ch
  else if 1 ≤ cfg.nmMsgCycleOffset then
    makeMsgCycleOffsetTimer (ch.setTimer .msgCycleTimer .absent)
  else makeMsgCycleTimer (sendNmMessage sent ch).2

/-- The shared body of the transitions into Repeat Message. -/
def enterRepeatMessage (sent fast : Bool) (ch : Channel) : Channel :=
  let ch := moveTo cfg .kModeNetwork .kStateRepeatMessage ch
  let ch := startSending cfg sent fast ch
  makeNetworkTimer (makeRepeateMessageTimer cfg ch)

def busSleepToRepeateMessage : Channel :=
  enterRepeatMessage cfg sent (ch.checkActiveRequested || cfg.nmSendImmediateInRepeatMessage) ch

def prepareBusSleepToRepeateMessage : Channel :=
  enterRepeatMessage cfg sent
    (ch.checkActiveRequested || cfg.nmSendImmediateInRepeatMessage)
    (ch.setTimer .waitBusSleepTimer .absent)

def wakeupCallToRepeateMessage : Channel :=
  enterRepeatMessage cfg sent (ch.checkActiveRequested || cfg.nmSendImmediateInRepeatMessage) ch

def reptMSgReqToRepeateMessage : Channel :=
  enterRepeatMessage cfg sent cfg.nmSendImmediateInRepeatMessage ch

/-- Unlike the others, nothing is started without an active request. -/
def multipleNetworkRequestsForceToRepeateMessage : Channel :=
  let ch := moveTo cfg .kModeNetwork .kStateRepeatMessage ch
  let ch := if ch.checkActiveRequested then startSending cfg sent true ch else ch
  makeNetworkTimer (makeRepeateMessageTimer cfg ch)

/-! ## The other transitions -/

def readySleepToNormalOperation : Channel :=
  let ch := moveTo cfg .kModeNetwork .kStateNormalOperation ch
  makeNetworkTimer (makeMsgCycleTimer (sendNmMessage sent ch).2)

def normalOperationToReadySleep : Channel :=
  (moveTo cfg .kModeNetwork .kStateReadySleep ch).setTimer .msgCycleTimer .absent

def prepareBusSleepToBusSleep : Channel := moveTo cfg .kModeBusSleep .kStateBusSleep ch

def waitBusSleepTimerCalled : Channel :=
  let ch := if ch.modeType = .kModePrepareBusSleep then prepareBusSleepToBusSleep cfg ch else ch
  ch.setTimer .waitBusSleepTimer .absent

def makeWaitBusSleepTimer : Channel :=
  if 0 < cfg.nmWaitBusSleepTime then ch.setTimer .waitBusSleepTimer .pending
  else waitBusSleepTimerCalled cfg (ch.setTimer .waitBusSleepTimer .absent)

def readySleepToPrepareBusSleep : Channel :=
  let ch := moveTo cfg .kModePrepareBusSleep .kStatePrepareBusSleep ch
  makeWaitBusSleepTimer cfg
    { ch with requestPnGroup := [], requestEtherCount := 0, activeWakeUpNet := false }

/-! ## The interface -/

/-- The socket is opened at the first call that finds the network card. -/
def checkCardAndInitSocket (card : Bool) (ch : Channel) : Option Channel :=
  if ch.initConfig then some ch
  else if card then some { ch with initConfig := true }
  else none

variable (requestEther : Bool) (pnRequestInex : uint16) (ch : Channel)

/-- A partial network that is configured for the channel and has no request yet. -/
def NewPn : Prop :=
  0 < pnRequestInex ∧ pnRequestInex ∈ cfg.configPnGroup ∧ pnRequestInex ∉ ch.requestPnGroup

instance (pnRequestInex : uint16) (ch : Channel) : Decidable (NewPn cfg pnRequestInex ch) :=
  inferInstanceAs (Decidable (_ ∧ _ ∧ _))

/-- What a request adds to the books; `none` if it is not valid. -/
def addRequest : Option Channel :=
  let counted := if requestEther then { ch with requestEtherCount := ch.requestEtherCount + 1 }
    else ch
  if NewPn cfg pnRequestInex ch then
    some { counted with requestPnGroup := counted.requestPnGroup ++ [pnRequestInex] }
  else if requestEther then some counted
  else none

/-- What a valid request does to the state machine. -/
def reactToRequest : Channel :=
  match ch.modeType with
  | .kModeBusSleep => busSleepToRepeateMessage cfg sent { ch with activeWakeUpNet := true }
  | .kModePrepareBusSleep =>
    prepareBusSleepToRepeateMessage cfg sent { ch with activeWakeUpNet := true }
  | .kModeNetwork =>
    if cfg.nmPnHandleMultipleNetworkRequests then
      multipleNetworkRequestsForceToRepeateMessage cfg sent ch
    else if ch.stateType = .kStateReadySleep then readySleepToNormalOperation cfg sent ch
    else ch

def requestNetwork (card sent requestEther : Bool) (pnRequestInex : uint16) (ch : Channel) :
    NmOperCode × Channel :=
  match checkCardAndInitSocket card ch with
  | none => (.kNmOperError, ch)
  | some ch =>
    match addRequest cfg requestEther pnRequestInex ch with
    | none => (.kNmOperError, ch)
    | some ch => (.kNmOperOK, reactToRequest cfg sent ch)

/-- What a release takes from the books, whoever made the requests. -/
def dropRequest : Channel :=
  { ch with
    requestEtherCount :=
      if requestEther ∧ 0 < ch.requestEtherCount then ch.requestEtherCount - 1
      else ch.requestEtherCount
    requestPnGroup :=
      if 0 < pnRequestInex then ch.requestPnGroup.erase pnRequestInex else ch.requestPnGroup }

def releaseNetwork : NmOperCode × Channel :=
  if requestEther = false ∧ pnRequestInex = 0 then (.kNmOperError, ch)
  else
    let ch := dropRequest requestEther pnRequestInex ch
    if ch.checkActiveRequested = false ∧ ch.modeType = .kModeNetwork ∧
        ch.stateType = .kStateNormalOperation then
      (.kNmOperOK, normalOperationToReadySleep cfg ch)
    else (.kNmOperOK, ch)

/-- The reaction of the state machine to a received message; `none` if it is discarded. The
outer `none` is a missing network timer. -/
def reactToMessage (sent repeatMessageBitIndication : Bool) (ch : Channel) :
    Option (Option Channel) :=
  if repeatMessageBitIndication then
    if ch.stateType = .kStateNormalOperation ∨ ch.stateType = .kStateReadySleep then
      some (some (reptMSgReqToRepeateMessage cfg sent ch))
    else some (some ch)
  else
    match ch.modeType with
    | .kModeBusSleep =>
      if cfg.dropMsgInBusSleepMode then some none
      else some (some (busSleepToRepeateMessage cfg sent ch))
    | .kModePrepareBusSleep => some (some (prepareBusSleepToRepeateMessage cfg sent ch))
    | .kModeNetwork =>
      (ch.timers .networkTimer).updateTime.map fun timer => some (ch.setTimer .networkTimer timer)

/-- The senders heard during a node detection. -/
def noteNode (nodeId : uint8) (ch : Channel) : Channel :=
  if ch.detectNode ∧ 0 ≤ cfg.nmNidPosition ∧ nodeId ∉ ch.nodeList then
    { ch with nodeList := ch.nodeList.orderedInsert (· ≤ ·) nodeId }
  else ch

def recvNmMessage (nodeId : uint8) (repeatMessageBitIndication : Bool)
    (passiveValidPnGroup : List uint16) (ch : Channel) : Option Channel :=
  if ch.initConfig = false then some ch
  else if ch.ctrType ≠ .kEnableAll ∧ ch.ctrType ≠ .kEnableReceive then some ch
  else
    let ch := noteNode cfg nodeId ch
    (reactToMessage cfg sent repeatMessageBitIndication ch).map fun reaction =>
      match reaction with
      | none => ch
      | some ch => updatePnMsg passiveValidPnGroup ch

def requestDetectNode : Channel :=
  if ch.detectNode then ch
  else if ch.modeType = .kModeNetwork then
    busSleepToRepeateMessage cfg sent { ch with nodeList := [], detectNode := true }
  else { ch with nodeList := [] }

/-- All timers but the network timer are given up. -/
def clearTimers : Channel :=
  { ch with
    timers := fun name => if name = .networkTimer then ch.timers .networkTimer else .absent }

def notifyWakeup (card sent : Bool) (ch : Channel) : Channel :=
  match checkCardAndInitSocket card ch with
  | none => ch
  | some ch => wakeupCallToRepeateMessage cfg sent ch.clearTimers

/-! ## The timers that start themselves again -/

def updateTime : Option Channel :=
  (ch.timers name).updateTime.map fun timer => ch.setTimer name timer

/-- A message that was sent restarts the network timer once more. -/
def sendImmediate : Option Channel :=
  if (sendNmMessage sent ch).1 = .kNmOperOK then
    (sendNmMessage sent ch).2.updateTime .networkTimer
  else some (sendNmMessage sent ch).2

def immediateNmTransmissionsTimerCalled : Option Channel :=
  if (ch.checkActiveRequested || cfg.nmSendImmediateInRepeatMessage) ∧
      ch.stateType = .kStateRepeatMessage ∧ 0 < ch.nmImmediateNmTransmissionsLeft then do
    let ch ← sendImmediate sent ch
    let ch := { ch with nmImmediateNmTransmissionsLeft := ch.nmImmediateNmTransmissionsLeft - 1 }
    if 0 < ch.nmImmediateNmTransmissionsLeft then ch.updateTime .immediateNmTransmissionsTimer
    else some (makeMsgCycleTimer ch)
  else some ch

def msgCycleOffsetTimerCalled : Channel :=
  if ch.stateType = .kStateRepeatMessage then makeMsgCycleTimer (sendNmMessage sent ch).2 else ch

def msgCycleTimerCalled : Option Channel :=
  if ch.stateType = .kStateNormalOperation ∨ ch.stateType = .kStateRepeatMessage then
    (sendNmMessage sent ch).2.updateTime .msgCycleTimer
  else some ch

def networkTimerCalled : Option Channel :=
  if ch.modeType = .kModeNetwork then
    match ch.stateType with
    | .kStateRepeatMessage => ch.updateTime .networkTimer
    | .kStateNormalOperation =>
      if ch.checkActiveRequested then ch.updateTime .networkTimer
      else some (readySleepToPrepareBusSleep cfg ch)
    | .kStateReadySleep => some (readySleepToPrepareBusSleep cfg ch)
    | _ => some ch
  else some ch

def timerCalled : TimerName → Channel → Option Channel
  | .networkTimer, ch => networkTimerCalled cfg ch
  | .nmMsgCycleOffsetTimer, ch => some (msgCycleOffsetTimerCalled sent ch)
  | .msgCycleTimer, ch => msgCycleTimerCalled sent ch
  | .repeateMessageTimer, ch => some (repeateMessageTimerCalled cfg ch)
  | .immediateNmTransmissionsTimer, ch => immediateNmTransmissionsTimerCalled cfg sent ch
  | .waitBusSleepTimer, ch => some (waitBusSleepTimerCalled cfg ch)

/-- Only a running timer expires. -/
def expire : Option Channel :=
  if ch.timers name = .pending then timerCalled cfg sent name (ch.setTimer name .idle)
  else some ch

end Channel

end AdaptivePlatform.Nm
