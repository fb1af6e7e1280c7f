import AdaptivePlatform.Nm.Channel

/-!
# What the transitions of a channel do

Each transition is summed up by the fields it may change. The mode always is the one of the
state, the communication state is that of the mode, and in Network mode the socket is open and
there is a network timer, so the handlers never call a missing one.
-/
namespace AdaptivePlatform.Nm

open Bytes
open Or (inl inr)

def modeOf : EthernetStateMachineStateType → ESMModeType
  | .kStateBusSleep => .kModeBusSleep
  | .kStatePrepareBusSleep => .kModePrepareBusSleep
  | _ => .kModeNetwork

theorem Timer.updateTime_of_ne_absent {timer : Timer} (h : timer ≠ .absent) :
    timer.updateTime = some .pending := by
  cases timer with
  | absent => exact absurd rfl h
  | idle | pending => rfl

namespace Channel

variable (cfg : EtherConfig) {ch : Channel}

@[simp] theorem setTimer_timers_self (name : TimerName) (timer : Timer) (ch : Channel) :
    (ch.setTimer name timer).timers name = timer := by
  simp [setTimer]

theorem setTimer_timers_of_ne {name other : TimerName} (h : other ≠ name) (timer : Timer)
    (ch : Channel) : (ch.setTimer name timer).timers other = ch.timers other := by
  simp [setTimer, h]

/-- The parts of a channel that only requests and releases write. -/
structure SameBooks (ch ch' : Channel) : Prop where
  count : ch'.requestEtherCount = ch.requestEtherCount
  group : ch'.requestPnGroup = ch.requestPnGroup
  init : ch'.initConfig = ch.initConfig
  ctrl : ch'.ctrType = ch.ctrType

theorem SameBooks.trans {ch₁ ch₂ ch₃ : Channel} (h : SameBooks ch₁ ch₂) (h' : SameBooks ch₂ ch₃) :
    SameBooks ch₁ ch₃ :=
  ⟨h'.count.trans h.count, h'.group.trans h.group, h'.init.trans h.init, h'.ctrl.trans h.ctrl⟩

theorem SameBooks.active {ch' : Channel} (h : SameBooks ch ch') :
    ch'.checkActiveRequested = ch.checkActiveRequested := by
  rw [checkActiveRequested, checkActiveRequested, h.count, h.group]

/-! ## Moves -/

theorem setMode_eq (hcom : ch.comState = comOf ch.modeType) (modeType : ESMModeType) : ∃ out,
    setMode modeType ch =
      { ch with modeType := modeType, comState := comOf modeType, emitted := out } := by
  unfold setMode
  split_ifs with hmode hstate
  · exact ⟨_, rfl⟩
  · rw [not_not.mp hstate]
    exact ⟨ch.emitted, rfl⟩
  · rw [not_not.mp hmode, ← hcom]
    exact ⟨ch.emitted, rfl⟩

theorem setuserDataNMState_eq (destType : EthernetStateMachineStateType) (ch : Channel) :
    ∃ data, setuserDataNMState cfg destType ch = { ch with userDataNMState := data } := by
  unfold setuserDataNMState
  split
  all_goals exact ⟨_, rfl⟩

theorem setNetworkStateType_eq (stateType : EthernetStateMachineStateType) (ch : Channel) :
    ∃ data out, setNetworkStateType cfg stateType ch =
      { ch with stateType := stateType, userDataNMState := data, emitted := out } := by
  unfold setNetworkStateType
  obtain ⟨data, hdata⟩ := setuserDataNMState_eq cfg stateType ch
  split_ifs with hstate
  · rw [hdata]
    exact ⟨_, _, rfl⟩
  · rw [ne_eq, not_not] at hstate
    subst hstate
    exact ⟨ch.userDataNMState, ch.emitted, rfl⟩

/-- The channel in another state. -/
def moved (desMode : ESMModeType) (desStateType : EthernetStateMachineStateType) (data : uint8)
    (out : List Output) (ch : Channel) : Channel :=
  { ch with
    modeType := desMode
    stateType := desStateType
    comState := comOf desMode
    userDataNMState := data
    emitted := out }

theorem moveTo_eq (hcom : ch.comState = comOf ch.modeType) (desMode : ESMModeType)
    (desStateType : EthernetStateMachineStateType) : ∃ data out,
      moveTo cfg desMode desStateType ch = moved desMode desStateType data out ch := by
  obtain ⟨out, hmode⟩ := setMode_eq hcom desMode
  unfold moveTo
  rw [hmode]
  obtain ⟨data, out', hstate⟩ := setNetworkStateType_eq cfg desStateType
    { ch with modeType := desMode, comState := comOf desMode, emitted := out }
  exact ⟨data, out', hstate⟩

/-! ## Sending -/

variable (sent : Bool)

theorem sendNmMessage_eq (ch : Channel) : ∃ out timer,
    (sendNmMessage sent ch).2 =
      { ch with emitted := out, timers := Function.update ch.timers .networkTimer timer } ∧
    (timer = .pending ∨ timer = ch.timers .networkTimer) := by
  unfold sendNmMessage
  split_ifs
  · exact ⟨ch.emitted, ch.timers .networkTimer, by rw [Function.update_eq_self], inr rfl⟩
  · exact ⟨_, .pending, rfl, inl rfl⟩
  · exact ⟨_, ch.timers .networkTimer, by rw [Function.update_eq_self], inr rfl⟩
  · exact ⟨ch.emitted, ch.timers .networkTimer, by rw [Function.update_eq_self], inr rfl⟩

theorem sendNmMessage_ok (h : (sendNmMessage sent ch).1 = .kNmOperOK) :
    (sendNmMessage sent ch).2.timers .networkTimer = .pending := by
  unfold sendNmMessage at h ⊢
  split_ifs at h ⊢
  · rfl

theorem sent_mem_sendNmMessage (hctrl : ch.ctrType = .kEnableAll) (hinit : ch.initConfig = true) :
    Output.sent ch.detectNode ch.requestPnGroup ch.userDataNMState ch.activeWakeUpNet ∈
      (sendNmMessage sent ch).2.emitted := by
  unfold sendNmMessage
  rw [if_neg (by simp [hctrl]), if_pos hinit]
  cases sent with
  | false => simp
  | true => simp [makeNetworkTimer, updatePnMsg, setTimer]

/-! ## Into Repeat Message and out of it -/

/-- Where the repeat message timer leads. -/
def afterRepeat (ch : Channel) : EthernetStateMachineStateType :=
  if ch.stateType = .kStateRepeatMessage then
    if ch.checkActiveRequested then .kStateNormalOperation else .kStateReadySleep
  else ch.stateType

theorem notifyDetectNodeList_eq (ch : Channel) : ∃ detect nodes out, notifyDetectNodeList ch =
    { ch with detectNode := detect, nodeList := nodes, emitted := out } := by
  unfold notifyDetectNodeList
  split_ifs
  · exact ⟨_, _, _, rfl⟩
  · exact ⟨ch.detectNode, ch.nodeList, ch.emitted, rfl⟩

theorem repeateMessageTimerCalled_eq (hmode : ch.modeType = modeOf ch.stateType)
    (hcom : ch.comState = comOf ch.modeType) : ∃ data detect nodes out,
      repeateMessageTimerCalled cfg ch =
        { ch with
          stateType := ch.afterRepeat
          userDataNMState := data
          detectNode := detect
          nodeList := nodes
          emitted := out
          timers := Function.update ch.timers .repeateMessageTimer .absent } := by
  obtain ⟨data, out, hmoved⟩ : ∃ data out,
      (if ch.modeType = .kModeNetwork ∧ ch.stateType = .kStateRepeatMessage then
        if ch.checkActiveRequested then moveTo cfg .kModeNetwork .kStateNormalOperation ch
        else moveTo cfg .kModeNetwork .kStateReadySleep ch
      else ch) =
        { ch with stateType := ch.afterRepeat, userDataNMState := data, emitted := out } := by
    unfold afterRepeat
    by_cases hstate : ch.stateType = .kStateRepeatMessage
    · have hnetwork : ch.modeType = .kModeNetwork := by rw [hmode, hstate]; rfl
      have hmove : ∀ st, ∃ data out, moveTo cfg .kModeNetwork st ch =
          { ch with stateType := st, userDataNMState := data, emitted := out } := by
        intro st
        obtain ⟨data, out, hmove⟩ := moveTo_eq cfg hcom .kModeNetwork st
        rw [hmove, moved, ← hnetwork, ← hcom]
        exact ⟨data, out, rfl⟩
      rw [if_pos ⟨hnetwork, hstate⟩, if_pos hstate]
      split_ifs <;> exact hmove _
    · rw [if_neg (fun h => hstate h.2), if_neg hstate]
      exact ⟨ch.userDataNMState, ch.emitted, rfl⟩
  unfold repeateMessageTimerCalled
  dsimp only
  rw [hmoved]
  obtain ⟨detect, nodes, out', hnotify⟩ := notifyDetectNodeList_eq
    { ch with stateType := ch.afterRepeat, userDataNMState := data, emitted := out }
  rw [hnotify]
  exact ⟨data, detect, nodes, out', rfl⟩

variable (fast : Bool)

theorem startSending_eq (ch : Channel) : ∃ left out timers,
    startSending cfg sent fast ch =
      { ch with nmImmediateNmTransmissionsLeft := left, emitted := out, timers := timers } := by
  obtain ⟨out, timer, hsend, -⟩ := sendNmMessage_eq sent ch
  unfold startSending
  dsimp only
  rw [hsend]
  split_ifs <;> exact ⟨_, _, _, rfl⟩

/-- The channel between two calls. -/
structure WellFormed (ch : Channel) : Prop where
  mode : ch.modeType = modeOf ch.stateType
  com : ch.comState = comOf ch.modeType
  init : ch.modeType = .kModeNetwork → ch.initConfig = true
  network : ch.modeType = .kModeNetwork → ch.timers .networkTimer ≠ .absent

/-- What a transition into Network mode leaves: the repeat message time may be zero, and then
the channel is already one state further. -/
structure Entered (ch ch' : Channel) : Prop where
  books : SameBooks ch ch'
  wellFormed : ch'.WellFormed
  state : ch'.stateType = .kStateRepeatMessage ∨
    ch'.stateType = if ch.checkActiveRequested then .kStateNormalOperation else .kStateReadySleep

theorem Entered.of_same {ready ch' : Channel} (h : Entered ready ch') (hbooks : SameBooks ch ready) :
    Entered ch ch' := by
  refine ⟨hbooks.trans h.books, h.wellFormed, ?_⟩
  rw [← hbooks.active]
  exact h.state

theorem makeRepeateMessageTimer_eq (hstate : ch.stateType = .kStateRepeatMessage)
    (hmode : ch.modeType = modeOf ch.stateType) (hcom : ch.comState = comOf ch.modeType) :
    ∃ st data detect nodes out timer,
      makeRepeateMessageTimer cfg ch =
        { ch with
          stateType := st
          userDataNMState := data
          detectNode := detect
          nodeList := nodes
          emitted := out
          timers := Function.update ch.timers .repeateMessageTimer timer } ∧
      (st = .kStateRepeatMessage ∨
        st = if ch.checkActiveRequested then .kStateNormalOperation else .kStateReadySleep) ∧
      (st = .kStateRepeatMessage ↔ 0 < cfg.nmRepeatMessageTime) := by
  unfold makeRepeateMessageTimer
  by_cases htime : 0 < cfg.nmRepeatMessageTime
  · rw [if_pos htime]
    exact ⟨ch.stateType, ch.userDataNMState, ch.detectNode, ch.nodeList, ch.emitted, .pending, rfl,
      inl hstate, iff_of_true hstate htime⟩
  · rw [if_neg htime]
    obtain ⟨data, detect, nodes, out, hcalled⟩ := repeateMessageTimerCalled_eq cfg
      (show (ch.setTimer .repeateMessageTimer .absent).modeType =
        modeOf (ch.setTimer .repeateMessageTimer .absent).stateType from hmode) hcom
    have hafter : (ch.setTimer .repeateMessageTimer .absent).afterRepeat =
        if ch.checkActiveRequested then .kStateNormalOperation else .kStateReadySleep :=
      if_pos hstate
    refine ⟨(ch.setTimer .repeateMessageTimer .absent).afterRepeat, data, detect, nodes, out,
      .absent, ?_, inr hafter, iff_of_false ?_ htime⟩
    · rw [hcalled]
      simp [setTimer]
    · rw [hafter]
      split_ifs <;> simp

/-- Every way into Repeat Message ends alike, however sending was started. The channel stays there
if it is configured with a repeat message time. -/
theorem entered_of_started (hcom : ch.comState = comOf ch.modeType) (hinit : ch.initConfig = true)
    (start : Channel → Channel)
    (hstart : ∀ ch, ∃ left out timers, start ch =
      { ch with nmImmediateNmTransmissionsLeft := left, emitted := out, timers := timers }) :
    let ch' := makeNetworkTimer (makeRepeateMessageTimer cfg
      (start (moveTo cfg .kModeNetwork .kStateRepeatMessage ch)))
    Entered ch ch' ∧ (ch'.stateType = .kStateRepeatMessage ↔ 0 < cfg.nmRepeatMessageTime) := by
  dsimp only
  obtain ⟨data, out, hmove⟩ := moveTo_eq cfg hcom .kModeNetwork .kStateRepeatMessage
  rw [hmove]
  obtain ⟨left, out', timers, hstarted⟩ := hstart
    (moved .kModeNetwork .kStateRepeatMessage data out ch)
  rw [hstarted]
  obtain ⟨st, data', detect, nodes, out'', timer, hmake, hst, hrepeat⟩ := makeRepeateMessageTimer_eq cfg
    (show Channel.stateType
      { moved .kModeNetwork .kStateRepeatMessage data out ch with
        nmImmediateNmTransmissionsLeft := left
        emitted := out'
        timers := timers } = .kStateRepeatMessage from rfl) rfl rfl
  rw [hmake]
  have hnetwork : modeOf st = .kModeNetwork := by
    rcases hst with rfl | rfl
    · rfl
    · split_ifs <;> rfl
  refine ⟨⟨⟨rfl, rfl, rfl, rfl⟩, ⟨hnetwork.symm, rfl, fun _ => hinit, fun _ => ?_⟩, hst⟩, hrepeat⟩
  simp [makeNetworkTimer]

section

variable (hcom : ch.comState = comOf ch.modeType) (hinit : ch.initConfig = true)

include hcom hinit

theorem enterRepeatMessage_entered : Entered ch (enterRepeatMessage cfg sent fast ch) :=
  (entered_of_started cfg hcom hinit _ (startSending_eq cfg sent fast)).1

theorem stateType_enterRepeatMessage :
    (enterRepeatMessage cfg sent fast ch).stateType = .kStateRepeatMessage ↔
      0 < cfg.nmRepeatMessageTime :=
  (entered_of_started cfg hcom hinit _ (startSending_eq cfg sent fast)).2

theorem busSleepToRepeateMessage_entered : Entered ch (busSleepToRepeateMessage cfg sent ch) :=
  enterRepeatMessage_entered cfg sent _ hcom hinit

theorem prepareBusSleepToRepeateMessage_entered :
    Entered ch (prepareBusSleepToRepeateMessage cfg sent ch) := by
  have hentered := enterRepeatMessage_entered cfg sent
    (ch.checkActiveRequested || cfg.nmSendImmediateInRepeatMessage)
    (show (ch.setTimer .waitBusSleepTimer .absent).comState = _ from hcom) hinit
  exact hentered.of_same ⟨rfl, rfl, rfl, rfl⟩

theorem multipleNetworkRequests_entered :
    Entered ch (multipleNetworkRequestsForceToRepeateMessage cfg sent ch) := by
  refine (entered_of_started cfg hcom hinit
    (fun ch => if ch.checkActiveRequested then startSending cfg sent true ch else ch) ?_).1
  intro ch
  split_ifs
  · exact startSending_eq cfg sent true ch
  · exact ⟨ch.nmImmediateNmTransmissionsLeft, ch.emitted, ch.timers, rfl⟩

theorem readySleepToNormalOperation_spec :
    SameBooks ch (readySleepToNormalOperation cfg sent ch) ∧
      (readySleepToNormalOperation cfg sent ch).WellFormed ∧
      (readySleepToNormalOperation cfg sent ch).stateType = .kStateNormalOperation := by
  obtain ⟨data, out, hmove⟩ := moveTo_eq cfg hcom .kModeNetwork .kStateNormalOperation
  unfold readySleepToNormalOperation
  dsimp only
  rw [hmove]
  obtain ⟨out', timer, hsend, -⟩ := sendNmMessage_eq sent
    (moved .kModeNetwork .kStateNormalOperation data out ch)
  rw [hsend]
  refine ⟨⟨rfl, rfl, rfl, rfl⟩, ⟨rfl, rfl, fun _ => hinit, fun _ => ?_⟩, rfl⟩
  simp [makeNetworkTimer]

end

theorem waitBusSleepTimerCalled_spec (h : ch.WellFormed) (hmode : ch.modeType ≠ .kModeNetwork) :
    SameBooks ch (waitBusSleepTimerCalled cfg ch) ∧
      (waitBusSleepTimerCalled cfg ch).WellFormed ∧
      (waitBusSleepTimerCalled cfg ch).modeType ≠ .kModeNetwork := by
  unfold waitBusSleepTimerCalled prepareBusSleepToBusSleep
  obtain ⟨data, out, hmove⟩ := moveTo_eq cfg h.com .kModeBusSleep .kStateBusSleep
  rw [hmove]
  split_ifs
  · refine ⟨⟨rfl, rfl, rfl, rfl⟩, ⟨rfl, rfl, ?_, ?_⟩, by simp [setTimer, moved]⟩
    all_goals
      intro habsurd
      cases habsurd
  · exact ⟨⟨rfl, rfl, rfl, rfl⟩, ⟨h.mode, h.com, fun hnet => absurd hnet hmode,
      fun hnet => absurd hnet hmode⟩, hmode⟩

theorem readySleepToPrepareBusSleep_spec (h : ch.WellFormed) :
    (readySleepToPrepareBusSleep cfg ch).requestEtherCount = 0 ∧
      (readySleepToPrepareBusSleep cfg ch).requestPnGroup = [] ∧
      (readySleepToPrepareBusSleep cfg ch).WellFormed := by
  obtain ⟨data, out, hmove⟩ := moveTo_eq cfg h.com .kModePrepareBusSleep .kStatePrepareBusSleep
  unfold readySleepToPrepareBusSleep makeWaitBusSleepTimer
  rw [hmove]
  have hwf : ∀ timer, (Channel.setTimer .waitBusSleepTimer timer
      { moved .kModePrepareBusSleep .kStatePrepareBusSleep data out ch with
        requestPnGroup := []
        requestEtherCount := 0
        activeWakeUpNet := false }).WellFormed := by
    intro timer
    refine ⟨rfl, rfl, ?_, ?_⟩
    all_goals
      intro habsurd
      cases habsurd
  split_ifs
  · exact ⟨rfl, rfl, hwf _⟩
  · obtain ⟨hbooks, hwf', -⟩ := waitBusSleepTimerCalled_spec cfg (hwf .absent)
      (by simp [setTimer, moved])
    exact ⟨hbooks.count, hbooks.group, hwf'⟩

end Channel

end AdaptivePlatform.Nm
