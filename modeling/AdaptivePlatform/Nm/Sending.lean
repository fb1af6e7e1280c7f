import AdaptivePlatform.Foundations.Runs
import AdaptivePlatform.Nm.Awake

/-!
# Who sends the next message

In Repeat Message the next NM message comes from the message cycle timer, the offset timer or
the timer of a burst, in Normal Operation from the message cycle timer alone. `Sending` is the
invariant that one of them is running. Two steps break it: a release in the middle of a burst,
whose timer then does nothing, and the end of Repeat Message before the cycle timer was
started, which Normal Operation never does.
-/
namespace AdaptivePlatform.Nm

open Bytes Runs Option
open Or (inl inr)
open Channel (setTimer)

/-- The calls of a channel and the timers that may expire. -/
inductive ChannelInput where
  | requestNetwork (card sent requestEther : Bool) (pnRequestInex : uint16)
  | releaseNetwork (requestEther : Bool) (pnRequestInex : uint16)
  | recvNmMessage (sent : Bool) (nodeId : uint8) (repeatMessageBitIndication : Bool)
      (passiveValidPnGroup : List uint16)
  | notifyWakeup (card sent : Bool)
  | requestDetectNode (sent : Bool)
  | expire (sent : Bool) (name : TimerName)
  deriving DecidableEq, Repr

namespace Channel

variable (cfg : EtherConfig) {ch : Channel}

/-- One call; the outputs are those of this call. -/
def step (ch : Channel) (input : ChannelInput) : Option Channel :=
  let ch := { ch with emitted := [] }
  match input with
  | .requestNetwork card sent requestEther pn =>
    some (requestNetwork cfg card sent requestEther pn ch).2
  | .releaseNetwork requestEther pn => some (releaseNetwork cfg requestEther pn ch).2
  | .recvNmMessage sent nodeId repeatBit pns => recvNmMessage cfg sent nodeId repeatBit pns ch
  | .notifyWakeup card sent => some (notifyWakeup cfg card sent ch)
  | .requestDetectNode sent => some (requestDetectNode cfg sent ch)
  | .expire sent name => expire cfg sent name ch

/-- The expiry of the timer sends an NM message. -/
def Sends (name : TimerName) (ch : Channel) : Prop :=
  ∀ sent, ∃ ch', step cfg ch (.expire sent name) = some ch' ∧
    ∃ detectNode pnIds userData wakeUp, Output.sent detectNode pnIds userData wakeUp ∈ ch'.emitted

/-- In Repeat Message, and in Normal Operation with a request, a timer that sends is running. -/
def KeepsSending (ch : Channel) : Prop :=
  (ch.stateType = .kStateRepeatMessage ∨
    ch.stateType = .kStateNormalOperation ∧ ch.checkActiveRequested = true) →
  ∃ name, ch.timers name = .pending ∧ Sends cfg name ch

/-- The timers that send in Repeat Message. -/
def HasSender (ch : Channel) : Prop :=
  ch.timers .msgCycleTimer = .pending ∨ ch.timers .nmMsgCycleOffsetTimer = .pending ∨
    ch.timers .immediateNmTransmissionsTimer = .pending ∧
      (ch.checkActiveRequested || cfg.nmSendImmediateInRepeatMessage) = true

/-- A burst that is running has messages left. -/
def BurstLeft (ch : Channel) : Prop :=
  ch.timers .immediateNmTransmissionsTimer = .pending →
    0 < ch.nmImmediateNmTransmissionsLeft ∧ 1 < cfg.nmImmediateNmTransmissions

/-- What a channel needs to enter a state in which it sends. -/
structure Fit (ch : Channel) : Prop where
  com : ch.comState = comOf ch.modeType
  init : ch.initConfig = true
  ctrl : ch.ctrType = .kEnableAll
  burst : BurstLeft cfg ch

structure Sending (ch : Channel) : Prop extends Awake ch where
  ctrl : ch.ctrType = .kEnableAll
  burst : BurstLeft cfg ch
  normal : ch.stateType = .kStateNormalOperation → ch.timers .msgCycleTimer = .pending
  sender : ch.stateType = .kStateRepeatMessage → HasSender cfg ch

variable {ch' : Channel}

section

variable {cfg}

theorem Sending.fit (h : Sending cfg ch) (hinit : ch.initConfig = true) : Fit cfg ch :=
  ⟨h.com, hinit, h.ctrl, h.burst⟩

theorem BurstLeft.congr (h : BurstLeft cfg ch)
    (htimer : ch'.timers .immediateNmTransmissionsTimer = ch.timers .immediateNmTransmissionsTimer)
    (hleft : ch'.nmImmediateNmTransmissionsLeft = ch.nmImmediateNmTransmissionsLeft) :
    BurstLeft cfg ch' := by
  unfold BurstLeft
  rw [htimer, hleft]
  exact h

theorem BurstLeft.setTimer (h : BurstLeft cfg ch) {name : TimerName} {timer : Timer}
    (hname : TimerName.immediateNmTransmissionsTimer ≠ name := by decide) :
    BurstLeft cfg (ch.setTimer name timer) :=
  h.congr (setTimer_timers_of_ne hname timer ch) rfl

theorem BurstLeft.sendNmMessage (h : BurstLeft cfg ch) (sent : Bool) :
    BurstLeft cfg (sendNmMessage sent ch).2 := by
  obtain ⟨out, timer, hsend, -⟩ := sendNmMessage_eq sent ch
  apply h.congr (sendNmMessage_timers_of_ne sent (by decide) ch)
  rw [hsend]

end

/-! ## Entering Repeat Message -/

variable (sent : Bool)

theorem startSending_spec (fast : Bool) (hburst : BurstLeft cfg ch) :
    BurstLeft cfg (startSending cfg sent fast ch) ∧
      ((startSending cfg sent fast ch).timers .msgCycleTimer = .pending ∨
        (startSending cfg sent fast ch).timers .nmMsgCycleOffsetTimer = .pending ∨
        fast = true ∧
          (startSending cfg sent fast ch).timers .immediateNmTransmissionsTimer = .pending) := by
  unfold startSending
  dsimp only
  split_ifs with hfast hmore hoffset
  · refine ⟨fun _ => ⟨hmore, ?_⟩, inr (inr ⟨hfast.1, setTimer_timers_self _ _ _⟩)⟩
    omega
  · refine ⟨fun hpending => ?_, inl (setTimer_timers_self _ _ _)⟩
    -- a burst of one message never starts its timer
    rw [makeMsgCycleTimer, setTimer_timers_of_ne (by decide)] at hpending
    have hmany := (hburst.sendNmMessage sent hpending).2
    omega
  · exact ⟨hburst.setTimer.setTimer, inr (inl (setTimer_timers_self _ _ _))⟩
  · exact ⟨(hburst.sendNmMessage sent).setTimer, inl (setTimer_timers_self _ _ _)⟩

theorem enterRepeatMessage_eq (hrepeat : 0 < cfg.nmRepeatMessageTime) (sent fast : Bool)
    (ch : Channel) : enterRepeatMessage cfg sent fast ch =
      ((startSending cfg sent fast (moveTo cfg .kModeNetwork .kStateRepeatMessage ch)).setTimer
        .repeateMessageTimer .pending).setTimer .networkTimer .pending := by
  unfold enterRepeatMessage makeRepeateMessageTimer makeNetworkTimer
  dsimp only
  rw [if_pos hrepeat]

theorem Fit.moveTo (h : Fit cfg ch) (mode : ESMModeType)
    (state : EthernetStateMachineStateType) :
    BurstLeft cfg (moveTo cfg mode state ch) := by
  obtain ⟨data, out, hmove⟩ := moveTo_eq cfg h.com mode state
  rw [hmove]
  exact h.burst

theorem enterRepeatMessage_sending (hrepeat : 0 < cfg.nmRepeatMessageTime) (sent fast : Bool)
    (h : Fit cfg ch)
    (hfast : fast = true → (ch.checkActiveRequested || cfg.nmSendImmediateInRepeatMessage) = true) :
    Sending cfg (enterRepeatMessage cfg sent fast ch) := by
  have hentered := enterRepeatMessage_entered cfg sent fast h.com h.init
  obtain ⟨data, out, hmove⟩ := moveTo_eq cfg h.com .kModeNetwork .kStateRepeatMessage
  obtain ⟨hstarted, hsender⟩ := startSending_spec cfg sent fast (h.moveTo cfg _ _)
  obtain ⟨left, out', timers, hstart⟩ := startSending_eq cfg sent fast
    (moveTo cfg .kModeNetwork .kStateRepeatMessage ch)
  have hactive := hentered.books.active
  refine ⟨hentered.awake, hentered.books.ctrl.trans h.ctrl, ?_, ?_, fun _ => ?_⟩
  all_goals rw [enterRepeatMessage_eq cfg hrepeat] at hactive ⊢
  · exact hstarted.setTimer.setTimer
  · rw [hstart, hmove]
    intro hnormal
    cases hnormal
  · unfold HasSender
    rw [hactive]
    exact hsender.imp_right fun h => h.imp_right fun ⟨hf, himmediate⟩ => ⟨himmediate, hfast hf⟩

theorem multipleNetworkRequests_eq_of_active (hcom : ch.comState = comOf ch.modeType)
    (hactive : ch.checkActiveRequested = true) :
    multipleNetworkRequestsForceToRepeateMessage cfg sent ch =
      enterRepeatMessage cfg sent true ch := by
  have hbooks : SameBooks ch (moveTo cfg .kModeNetwork .kStateRepeatMessage ch) := by
    obtain ⟨data, out, hmove⟩ := moveTo_eq cfg hcom .kModeNetwork .kStateRepeatMessage
    rw [hmove]
    exact ⟨rfl, rfl, rfl, rfl⟩
  unfold multipleNetworkRequestsForceToRepeateMessage enterRepeatMessage
  dsimp only
  rw [if_pos (hbooks.active.trans hactive)]

/-! ## Steps that start and stop nothing -/

variable {cfg}

/-- The timers whose handlers send. -/
def sendTimers : List TimerName :=
  [.msgCycleTimer, .nmMsgCycleOffsetTimer, .immediateNmTransmissionsTimer]

/-- Changes that concern no timer that sends. -/
structure Still (ch ch' : Channel) : Prop extends Unmoved ch ch' where
  timers : ∀ name ∈ sendTimers, ch'.timers name = ch.timers name
  left : ch'.nmImmediateNmTransmissionsLeft = ch.nmImmediateNmTransmissionsLeft

theorem Sending.of_still (h : Sending cfg ch) (hstill : Still ch ch') : Sending cfg ch' := by
  have hactive := hstill.active
  refine ⟨h.toAwake.of_unmoved hstill.toUnmoved, hstill.ctrl.trans h.ctrl,
    h.burst.congr (hstill.timers _ (by decide)) hstill.left, ?_, ?_⟩
  · rw [hstill.state, hstill.timers _ (by decide)]
    exact h.normal
  · unfold HasSender
    rw [hstill.state, hstill.timers _ (by decide), hstill.timers _ (by decide),
      hstill.timers _ (by decide), hactive]
    exact h.sender

theorem still_sendNmMessage (ch : Channel) : Still ch (sendNmMessage sent ch).2 := by
  refine ⟨unmoved_sendNmMessage sent ch, fun name hname => ?_, ?_⟩
  · apply sendNmMessage_timers_of_ne
    rintro rfl
    revert hname
    decide
  · obtain ⟨out, timer, hsend, -⟩ := sendNmMessage_eq sent ch
    rw [hsend]

theorem still_setTimer {name : TimerName} {timer : Timer} (ch : Channel)
    (hname : name ∉ sendTimers := by decide)
    (htimer : name ≠ .networkTimer ∨ timer ≠ .absent := by decide) :
    Still ch (ch.setTimer name timer) := by
  refine ⟨unmoved_setTimer _ _ ch htimer, fun other hother => ?_, rfl⟩
  apply setTimer_timers_of_ne
  rintro rfl
  exact hname hother

theorem still_noteNode (nodeId : uint8) (ch : Channel) : Still ch (noteNode cfg nodeId ch) := by
  refine ⟨unmoved_noteNode cfg nodeId ch, ?_, ?_⟩
  all_goals
    unfold noteNode
    split_ifs
  · exact fun _ _ => rfl
  · exact fun _ _ => rfl
  · rfl
  · rfl

/-- The books may change without harm where nothing depends on a running burst. -/
theorem Sending.of_books (h : Sending cfg ch) (hwf : ch'.Awake)
    (hstate : ch'.stateType = ch.stateType) (hctrl : ch'.ctrType = ch.ctrType)
    (htimers : ch'.timers = ch.timers)
    (hleft : ch'.nmImmediateNmTransmissionsLeft = ch.nmImmediateNmTransmissionsLeft)
    (hburst : ch.stateType = .kStateRepeatMessage → HasSender cfg ch → HasSender cfg ch') :
    Sending cfg ch' := by
  refine ⟨hwf, hctrl.trans h.ctrl, h.burst.congr (by rw [htimers]) hleft, ?_, ?_⟩
  · rw [hstate, htimers]
    exact h.normal
  · intro hrepeat
    rw [hstate] at hrepeat
    exact hburst hrepeat (h.sender hrepeat)

theorem sending_of_quiet (h : ch.Awake) (hctrl : ch.ctrType = .kEnableAll)
    (hburst : BurstLeft cfg ch)
    (hnormal : ch.stateType ≠ .kStateNormalOperation := by simp [setTimer, moved])
    (hrepeat : ch.stateType ≠ .kStateRepeatMessage := by simp [setTimer, moved]) :
    Sending cfg ch :=
  ⟨h, hctrl, hburst, fun hstate => absurd hstate hnormal, fun hstate => absurd hstate hrepeat⟩

/-! ## Requests and releases -/

variable {requestEther : Bool} {pn : uint16}

theorem readySleepToNormalOperation_sending (h : Fit cfg ch) :
    Sending cfg (readySleepToNormalOperation cfg sent ch) := by
  obtain ⟨hbooks, hwf, hstate⟩ := readySleepToNormalOperation_spec cfg sent h.com h.init
  refine ⟨⟨hwf, fun _ => inr hstate⟩, hbooks.ctrl.trans h.ctrl,
    ((h.moveTo cfg _ _).sendNmMessage sent).setTimer.setTimer, fun _ => ?_, ?_⟩
  · unfold readySleepToNormalOperation makeNetworkTimer makeMsgCycleTimer
    rw [setTimer_timers_of_ne (by decide), setTimer_timers_self]
  · intro hrepeat
    rw [hstate] at hrepeat
    cases hrepeat

theorem Booked.active (h : Booked cfg requestEther pn ch ch')
    (hcount : requestEther = true → ch.requestEtherCount ≠ 0xFFFFFFFF#32) :
    ch'.checkActiveRequested = true := by
  by_contra hinactive
  obtain ⟨hzero, hempty⟩ := active_eq_false_iff.mp (Bool.eq_false_of_not_eq_true hinactive)
  rcases h.valid with hether | hnew
  · have hnext := h.count
    rw [if_pos hether, hzero] at hnext
    apply hcount hether
    bv_omega
  · have hnext := h.group
    rw [if_pos hnew, hempty] at hnext
    simp at hnext

theorem checkCardAndInitSocket_sending {card : Bool} (h : Sending cfg ch)
    (hcard : checkCardAndInitSocket card ch = some ch') : Sending cfg ch' := by
  have hawake := (checkCardAndInitSocket_spec h.toAwake hcard).1
  unfold checkCardAndInitSocket at hcard
  split_ifs at hcard
  · exact some.inj hcard ▸ h
  · cases hcard
    exact ⟨hawake, h.ctrl, h.burst, h.normal, h.sender⟩

theorem reactToRequest_sending (hrepeat : 0 < cfg.nmRepeatMessageTime) (sent : Bool)
    (hwf : ch.WellFormed) (h : Fit cfg ch) (hactive : ch.checkActiveRequested = true)
    (hnormal : ch.stateType = .kStateNormalOperation → ch.timers .msgCycleTimer = .pending)
    (hsender : ch.stateType = .kStateRepeatMessage → HasSender cfg ch) :
    Sending cfg (reactToRequest cfg sent ch) := by
  have hawake := (reactToRequest_spec cfg sent hwf h.init).awake
  have hfast : (ch.checkActiveRequested || cfg.nmSendImmediateInRepeatMessage) = true := by
    rw [hactive, Bool.true_or]
  unfold reactToRequest at hawake ⊢
  split at hawake
  · exact enterRepeatMessage_sending cfg hrepeat sent _ ⟨h.com, h.init, h.ctrl, h.burst⟩ fun _ => hfast
  · exact enterRepeatMessage_sending cfg hrepeat sent _ ⟨h.com, h.init, h.ctrl, h.burst⟩ fun _ => hfast
  · split_ifs at hawake ⊢ with hmultiple hready
    · rw [multipleNetworkRequests_eq_of_active cfg sent hwf.com hactive]
      exact enterRepeatMessage_sending cfg hrepeat sent true h fun _ => hfast
    · exact readySleepToNormalOperation_sending sent h
    · exact ⟨hawake, h.ctrl, h.burst, hnormal, hsender⟩

theorem requestNetwork_sending (hrepeat : 0 < cfg.nmRepeatMessageTime) (h : Sending cfg ch)
    (card sent requestEther : Bool) (pn : uint16)
    (hcount : requestEther = true → ch.requestEtherCount ≠ 0xFFFFFFFF#32) :
    Sending cfg (requestNetwork cfg card sent requestEther pn ch).2 := by
  unfold requestNetwork
  cases hcard : checkCardAndInitSocket card ch with
  | none => exact h
  | some ready =>
    obtain ⟨hready, hinit, hsame, hgroup⟩ := checkCardAndInitSocket_spec h.toAwake hcard
    have hsending := checkCardAndInitSocket_sending h hcard
    dsimp only
    cases hadd : addRequest cfg requestEther pn ready with
    | none => exact hsending
    | some added =>
      obtain ⟨hbooked, count, group, rfl⟩ := addRequest_spec cfg hadd
      have hactive := hbooked.active (fun hether => hsame ▸ hcount hether)
      have hwf : WellFormed { ready with requestEtherCount := count, requestPnGroup := group } :=
        ⟨hready.mode, hready.com, hready.init, hready.network⟩
      apply reactToRequest_sending hrepeat sent hwf
        ⟨hready.com, hinit, hsending.ctrl, hsending.burst⟩ hactive hsending.normal
      intro hstate
      -- the new request can only help a burst that is running
      apply (hsending.sender hstate).imp_right
      apply Or.imp_right
      intro hburst
      refine ⟨hburst.1, ?_⟩
      rw [hactive, Bool.true_or]

/-- The release takes the only entry there is. -/
def LastRequest (requestEther : Bool) (pn : uint16) (ch : Channel) : Prop :=
  (ch.requestEtherCount = 0 ∨ requestEther = true ∧ ch.requestEtherCount = 1) ∧
    (ch.requestPnGroup = [] ∨ pn ≠ 0 ∧ ch.requestPnGroup = [pn])

theorem lastRequest_of_inactive
    (h : (dropRequest requestEther pn ch).checkActiveRequested = false) :
    LastRequest requestEther pn ch := by
  obtain ⟨hcount, hgroup⟩ := active_eq_false_iff.mp h
  dsimp only [dropRequest] at hcount hgroup
  constructor
  · split_ifs at hcount with hether
    · exact inr ⟨hether.1, by bv_omega⟩
    · exact inl hcount
  · split_ifs at hgroup with hpn
    · rcases List.erase_eq_nil_iff.mp hgroup with hnil | hone
      · exact inl hnil
      · exact inr ⟨by bv_omega, hone⟩
    · exact inl hgroup

variable (cfg) in
/-- A release that stops the burst which is the only sender. -/
def StopsBurst (requestEther : Bool) (pn : uint16) (ch : Channel) : Prop :=
  ch.stateType = .kStateRepeatMessage ∧ cfg.nmSendImmediateInRepeatMessage = false ∧
    ch.timers .msgCycleTimer ≠ .pending ∧ ch.timers .nmMsgCycleOffsetTimer ≠ .pending ∧
    LastRequest requestEther pn ch

theorem hasSender_of_release (hsafe : ¬ StopsBurst cfg requestEther pn ch)
    (hstate : ch.stateType = .kStateRepeatMessage) (h : HasSender cfg ch) :
    HasSender cfg (dropRequest requestEther pn ch) := by
  by_cases hcycle : ch.timers .msgCycleTimer = .pending
  · exact inl hcycle
  by_cases hoffset : ch.timers .nmMsgCycleOffsetTimer = .pending
  · exact inr (inl hoffset)
  have hburst := (h.resolve_left hcycle).resolve_left hoffset
  refine inr (inr ⟨hburst.1, ?_⟩)
  by_contra hnone
  obtain ⟨hinactive, himmediate⟩ := Bool.or_eq_false_iff.mp (Bool.eq_false_of_not_eq_true hnone)
  exact hsafe ⟨hstate, himmediate, hcycle, hoffset, lastRequest_of_inactive hinactive⟩

theorem releaseNetwork_sending (h : Sending cfg ch) (requestEther : Bool) (pn : uint16)
    (hsafe : ¬ StopsBurst cfg requestEther pn ch) :
    Sending cfg (releaseNetwork cfg requestEther pn ch).2 := by
  have hawake := (releaseNetwork_spec cfg h.toAwake requestEther pn (Prod.mk.eta (p := _)).symm).1
  unfold releaseNetwork at hawake ⊢
  dsimp only at hawake ⊢
  split_ifs at hawake ⊢ with hnothing hlast
  · exact h
  · obtain ⟨data, out, hmove⟩ := moveTo_eq cfg
      (show (dropRequest requestEther pn ch).comState = _ from h.com)
      .kModeNetwork .kStateReadySleep
    unfold normalOperationToReadySleep at hawake ⊢
    rw [hmove] at hawake ⊢
    exact sending_of_quiet hawake h.ctrl h.burst.setTimer
  · exact h.of_books hawake rfl rfl rfl rfl (hasSender_of_release hsafe)

/-! ## Messages, wakeups and node detection -/

section

variable (hrepeat : 0 < cfg.nmRepeatMessageTime) (h : Sending cfg ch)

include hrepeat h

theorem reactToMessage_sending (hinit : ch.initConfig = true) (sent repeatBit : Bool)
    (hreact : reactToMessage cfg sent repeatBit ch = some (some ch')) : Sending cfg ch' := by
  unfold reactToMessage at hreact
  split at hreact
  · split_ifs at hreact
    · cases some.inj hreact
      refine enterRepeatMessage_sending cfg hrepeat sent _ (h.fit hinit) fun hfast => ?_
      rw [hfast, Bool.or_true]
    · exact some.inj (some.inj hreact) ▸ h
  · split at hreact
    · split_ifs at hreact
      · cases hreact
      · cases some.inj hreact
        exact enterRepeatMessage_sending cfg hrepeat sent _ (h.fit hinit) id
    · cases some.inj hreact
      exact enterRepeatMessage_sending cfg hrepeat sent _ ⟨h.com, hinit, h.ctrl, h.burst⟩ id
    · next hmode =>
      rw [Timer.updateTime_of_ne_absent (h.network hmode), map_some] at hreact
      cases some.inj hreact
      exact h.of_still (still_setTimer ch)

theorem recvNmMessage_sending (sent : Bool) (nodeId : uint8) (repeatBit : Bool)
    (pns : List uint16) (hrecv : recvNmMessage cfg sent nodeId repeatBit pns ch = some ch') :
    Sending cfg ch' := by
  have hnoted : Still ch (noteNode cfg nodeId ch) := still_noteNode nodeId ch
  unfold recvNmMessage at hrecv
  split_ifs at hrecv with hinit hctrl
  · exact some.inj hrecv ▸ h
  · exact some.inj hrecv ▸ h
  · have hsame := hnoted.init.trans (Bool.not_eq_false _ ▸ hinit)
    obtain ⟨reaction, hreact, rfl⟩ := map_eq_some_iff.mp hrecv
    cases reaction with
    | none => exact h.of_still hnoted
    | some reacted =>
      have hsending := reactToMessage_sending hrepeat (h.of_still hnoted) hsame sent
        repeatBit hreact
      exact hsending.of_still ⟨unmoved_updatePnMsg pns reacted, fun _ _ => rfl, rfl⟩

theorem requestDetectNode_sending (sent : Bool) : Sending cfg (requestDetectNode cfg sent ch) := by
  unfold requestDetectNode
  split_ifs with hdetect hmode
  · exact h
  · exact enterRepeatMessage_sending cfg hrepeat sent _ ⟨h.com, h.init hmode, h.ctrl, h.burst⟩ id
  · exact h.of_still ⟨⟨⟨rfl, rfl, rfl, rfl⟩, rfl, rfl, rfl, inr rfl⟩, fun _ _ => rfl, rfl⟩

theorem notifyWakeup_sending (card sent : Bool) : Sending cfg (notifyWakeup cfg card sent ch) := by
  unfold notifyWakeup
  cases hcard : checkCardAndInitSocket card ch with
  | none => exact h
  | some ready =>
    obtain ⟨hready, hinit, -, -⟩ := checkCardAndInitSocket_spec h.toAwake hcard
    -- the timer of a burst was given up
    exact enterRepeatMessage_sending cfg hrepeat sent _
      ⟨hready.com, hinit, (checkCardAndInitSocket_sending h hcard).ctrl, nofun⟩ id

end

/-! ## Timers -/

theorem sending_of_cycle (h : ch.Awake) (hctrl : ch.ctrType = .kEnableAll)
    (hburst : BurstLeft cfg ch) (hcycle : ch.timers .msgCycleTimer = .pending) :
    Sending cfg ch :=
  ⟨h, hctrl, hburst, fun _ => hcycle, fun _ => inl hcycle⟩

theorem waitBusSleepTimerCalled_sending (h : Sending cfg ch) :
    Sending cfg (waitBusSleepTimerCalled cfg ch) := by
  have hawake := (waitBusSleepTimerCalled_handled cfg h.toAwake).awake
  unfold waitBusSleepTimerCalled prepareBusSleepToBusSleep at hawake ⊢
  obtain ⟨data, out, hmove⟩ := moveTo_eq cfg h.com .kModeBusSleep .kStateBusSleep
  rw [hmove] at hawake ⊢
  split_ifs at hawake ⊢
  · exact sending_of_quiet hawake h.ctrl h.burst.setTimer
  · exact h.of_still (still_setTimer ch)

theorem readySleepToPrepareBusSleep_sending (h : Sending cfg ch) :
    Sending cfg (readySleepToPrepareBusSleep cfg ch) := by
  obtain ⟨data, out, hmove⟩ := moveTo_eq cfg h.com .kModePrepareBusSleep .kStatePrepareBusSleep
  unfold readySleepToPrepareBusSleep makeWaitBusSleepTimer
  rw [hmove]
  have hasleep : ∀ timer, Sending cfg (setTimer .waitBusSleepTimer timer
      { moved .kModePrepareBusSleep .kStatePrepareBusSleep data out ch with
        requestPnGroup := []
        requestEtherCount := 0
        activeWakeUpNet := false }) := by
    intro timer
    refine sending_of_quiet ?_ h.ctrl h.burst.setTimer
    apply awake_of_inactive
    · refine ⟨rfl, rfl, fun hmode => ?_, fun hmode => ?_⟩ <;> cases hmode
    · exact active_eq_false_iff.mpr ⟨rfl, rfl⟩
  split_ifs
  · exact hasleep .pending
  · exact waitBusSleepTimerCalled_sending (hasleep .absent)

theorem networkTimerCalled_sending (h : Sending cfg ch) (hidle : ch.timers .networkTimer = .idle)
    (hcalled : networkTimerCalled cfg ch = some ch') : Sending cfg ch' := by
  have hagain : ch.updateTime .networkTimer = some ch' → Sending cfg ch' := by
    intro hupdate
    rw [updateTime_eq (by rw [hidle]; decide)] at hupdate
    cases hupdate
    exact h.of_still (still_setTimer ch)
  unfold networkTimerCalled at hcalled
  split at hcalled
  · split at hcalled
    · exact hagain hcalled
    · split_ifs at hcalled
      · exact hagain hcalled
      · exact some.inj hcalled ▸ readySleepToPrepareBusSleep_sending h
    · exact some.inj hcalled ▸ readySleepToPrepareBusSleep_sending h
    · exact some.inj hcalled ▸ h
  · exact some.inj hcalled ▸ h

theorem sending_of_sent (h : ch.Awake) (hctrl : ch.ctrType = .kEnableAll)
    (hburst : BurstLeft cfg ch) (sent : Bool) :
    Sending cfg ((sendNmMessage sent ch).2.setTimer .msgCycleTimer .pending) := by
  have hstill := still_sendNmMessage sent ch
  exact sending_of_cycle
    (h.of_unmoved (hstill.toUnmoved.trans (unmoved_setTimer _ _ _)))
    (hstill.ctrl.trans hctrl) (hburst.sendNmMessage sent).setTimer
    (setTimer_timers_self _ _ _)

/-- The end of Repeat Message before the cycle timer was started. -/
def EndsEarly (ch : Channel) : Prop :=
  ch.stateType = .kStateRepeatMessage ∧ ch.checkActiveRequested = true ∧
    ch.timers .repeateMessageTimer = .pending ∧ ch.timers .msgCycleTimer ≠ .pending

instance (ch : Channel) : Decidable (EndsEarly ch) := inferInstanceAs (Decidable (_ ∧ _ ∧ _ ∧ _))

theorem repeateMessageTimerCalled_sending (h : Sending cfg ch)
    (hcycle : ch.stateType = .kStateRepeatMessage → ch.checkActiveRequested = true →
      ch.timers .msgCycleTimer = .pending) : Sending cfg (repeateMessageTimerCalled cfg ch) := by
  have hawake := (repeateMessageTimerCalled_spec cfg h.toAwake).awake
  obtain ⟨data, detect, nodes, out, hcalled⟩ := repeateMessageTimerCalled_eq cfg h.mode h.com
  rw [hcalled] at hawake ⊢
  refine ⟨hawake, h.ctrl, h.burst, ?_, ?_⟩
  · intro hnormal
    unfold afterRepeat at hnormal
    split_ifs at hnormal with hstate hactive
    · exact hcycle hstate hactive
    · exact h.normal hnormal
  · intro hrepeat
    unfold afterRepeat at hrepeat
    split_ifs at hrepeat with hstate
    exact absurd hrepeat hstate

theorem immediateNmTransmissionsTimerCalled_sending (h : Sending cfg ch) (sent : Bool)
    (hpending : ch.timers .immediateNmTransmissionsTimer = .pending)
    (hcalled : immediateNmTransmissionsTimerCalled cfg sent
      (ch.setTimer .immediateNmTransmissionsTimer .idle) = some ch') : Sending cfg ch' := by
  let fired := ch.setTimer .immediateNmTransmissionsTimer .idle
  obtain ⟨hleft, hmany⟩ := h.burst hpending
  have hfired : fired.Awake := h.toAwake.of_unmoved (unmoved_setTimer _ _ ch)
  have hidle : fired.timers .immediateNmTransmissionsTimer = .idle := setTimer_timers_self _ _ ch
  have hburst : BurstLeft cfg fired := nofun
  obtain ⟨reacted, hsend, hunmoved, htimers⟩ := sendImmediate_spec sent fired
  have hcounted := hunmoved.left (reacted.nmImmediateNmTransmissionsLeft - 1)
  have hthere : reacted.timers .immediateNmTransmissionsTimer = .idle :=
    (htimers _ (by decide)).trans hidle
  unfold immediateNmTransmissionsTimerCalled at hcalled
  by_cases hcondition : (fired.checkActiveRequested || cfg.nmSendImmediateInRepeatMessage) ∧
      fired.stateType = .kStateRepeatMessage ∧ 0 < fired.nmImmediateNmTransmissionsLeft
  · rw [if_pos hcondition, hsend, bind_eq_bind, bind_some] at hcalled
    dsimp only at hcalled
    split_ifs at hcalled with hmore
    · rw [updateTime_eq (by rw [hthere]; decide)] at hcalled
      cases hcalled
      have hset := hcounted.trans (unmoved_setTimer .immediateNmTransmissionsTimer .pending _)
      refine ⟨hfired.of_unmoved hset, hset.ctrl.trans h.ctrl, fun _ => ⟨hmore, hmany⟩, ?_, ?_⟩
      · intro hnormal
        rw [hset.state, hcondition.2.1] at hnormal
        cases hnormal
      · intro _
        refine inr (inr ⟨setTimer_timers_self _ _ _, ?_⟩)
        rw [hset.active]
        exact hcondition.1
    · cases hcalled
      have hset := hcounted.trans (unmoved_setTimer .msgCycleTimer .pending _)
      refine sending_of_cycle (hfired.of_unmoved hset) (hset.ctrl.trans h.ctrl) ?_
        (setTimer_timers_self _ _ _)
      intro habsurd
      cases hthere.symm.trans habsurd
  · rw [if_neg hcondition] at hcalled
    cases hcalled
    refine ⟨hfired, h.ctrl, hburst, ?_, ?_⟩
    · intro hnormal
      exact h.normal hnormal
    · intro hrepeat
      rcases h.sender hrepeat with hcycle | hoffset | hburst
      · exact inl ((setTimer_timers_of_ne (by decide) _ ch).trans hcycle)
      · exact inr (inl ((setTimer_timers_of_ne (by decide) _ ch).trans hoffset))
      · exact absurd ⟨hburst.2, hrepeat, hleft⟩ hcondition

/-- A timer expires: all but the two cases above keep a sender. -/
theorem expire_sending (h : Sending cfg ch) (sent : Bool) (name : TimerName)
    (hsafe : name = .repeateMessageTimer → ¬ EndsEarly ch)
    (hexpire : expire cfg sent name ch = some ch') : Sending cfg ch' := by
  unfold expire at hexpire
  split_ifs at hexpire with hpending
  swap
  · exact some.inj hexpire ▸ h
  have hfired : (ch.setTimer name .idle).Awake :=
    h.toAwake.of_unmoved (unmoved_setTimer _ _ ch (inr (by decide)))
  cases name with
  | networkTimer =>
    exact networkTimerCalled_sending
      (h.of_still (still_setTimer ch))
      (setTimer_timers_self _ _ ch) hexpire
  | nmMsgCycleOffsetTimer =>
    cases hexpire
    unfold msgCycleOffsetTimerCalled
    split_ifs with hrepeat
    · exact sending_of_sent hfired h.ctrl h.burst.setTimer sent
    · exact ⟨hfired, h.ctrl, h.burst.setTimer, h.normal, fun hstate => absurd hstate hrepeat⟩
  | msgCycleTimer =>
    change msgCycleTimerCalled sent _ = _ at hexpire
    unfold msgCycleTimerCalled at hexpire
    split_ifs at hexpire with hstate
    · rw [updateTime_sendNmMessage sent (by decide) (setTimer_timers_self _ _ ch)] at hexpire
      exact some.inj hexpire ▸ sending_of_sent hfired h.ctrl h.burst.setTimer sent
    · cases hexpire
      exact sending_of_quiet hfired h.ctrl h.burst.setTimer
        (fun hnormal => hstate (inl hnormal))
        (fun hrepeat => hstate (inr hrepeat))
  | repeateMessageTimer =>
    cases hexpire
    apply repeateMessageTimerCalled_sending (h.of_still (still_setTimer ch))
    intro hstate hactive
    by_contra hcycle
    exact hsafe rfl ⟨hstate, hactive, hpending, hcycle⟩
  | immediateNmTransmissionsTimer =>
    exact immediateNmTransmissionsTimerCalled_sending h sent hpending hexpire
  | waitBusSleepTimer =>
    cases hexpire
    exact waitBusSleepTimerCalled_sending (h.of_still (still_setTimer ch))

/-! ## Runs -/

variable (cfg) in
/-- The steps that leave a sender: the request counter is not at its end, a release does not
stop the burst that is the only sender, and Repeat Message does not end before the cycle timer
runs. -/
def Safe (ch : Channel) : ChannelInput → Prop
  | .requestNetwork _ _ requestEther _ => requestEther = true → ch.requestEtherCount ≠ 0xFFFFFFFF#32
  | .releaseNetwork requestEther pn => ¬ StopsBurst cfg requestEther pn ch
  | .expire _ name => name = .repeateMessageTimer → ¬ EndsEarly ch
  | _ => True

theorem step_sending (hrepeat : 0 < cfg.nmRepeatMessageTime) (h : Sending cfg ch)
    (input : ChannelInput) (hsafe : Safe cfg ch input) :
    ∃ ch', step cfg ch input = some ch' ∧ Sending cfg ch' := by
  have hcleared : Sending cfg { ch with emitted := [] } :=
    h.of_still ⟨⟨⟨rfl, rfl, rfl, rfl⟩, rfl, rfl, rfl, inr rfl⟩, fun _ _ => rfl, rfl⟩
  cases input with
  | requestNetwork card sent requestEther pn =>
    exact ⟨_, rfl, requestNetwork_sending hrepeat hcleared card sent requestEther pn hsafe⟩
  | releaseNetwork requestEther pn =>
    exact ⟨_, rfl, releaseNetwork_sending hcleared requestEther pn hsafe⟩
  | recvNmMessage sent nodeId repeatBit pns =>
    obtain ⟨ch', hrecv, -⟩ := recvNmMessage_spec cfg hcleared.toAwake sent nodeId repeatBit pns
    exact ⟨ch', hrecv, recvNmMessage_sending hrepeat hcleared sent nodeId repeatBit pns hrecv⟩
  | notifyWakeup card sent => exact ⟨_, rfl, notifyWakeup_sending hrepeat hcleared card sent⟩
  | requestDetectNode sent => exact ⟨_, rfl, requestDetectNode_sending hrepeat hcleared sent⟩
  | expire sent name =>
    obtain ⟨ch', hexpire, -⟩ := expire_spec cfg hcleared.toAwake sent name
    exact ⟨ch', hexpire, expire_sending hcleared sent name hsafe hexpire⟩

theorem sending_initial (initConfig : Bool) : Sending cfg { initConfig := initConfig } := by
  apply sending_of_quiet
  · apply awake_of_inactive
    · exact ⟨rfl, rfl, nofun, nofun⟩
    · rfl
  · rfl
  all_goals nofun

theorem sent_mem_sendImmediate (hctrl : ch.ctrType = .kEnableAll) (hinit : ch.initConfig = true)
    (hsend : sendImmediate sent ch = some ch') :
    Output.sent ch.detectNode ch.requestPnGroup ch.userDataNMState ch.activeWakeUpNet ∈
      ch'.emitted := by
  have hmem := sent_mem_sendNmMessage sent hctrl hinit
  unfold sendImmediate at hsend
  split_ifs at hsend
  · obtain ⟨timer, -, rfl⟩ := map_eq_some_iff.mp hsend
    exact hmem
  · exact some.inj hsend ▸ hmem

section

variable (h : Sending cfg ch)
  (hstate : ch.stateType = .kStateNormalOperation ∨ ch.stateType = .kStateRepeatMessage)

include h hstate

theorem Sending.initConfig_of_state : ch.initConfig = true := by
  apply h.init
  rcases hstate with hs | hs
  · rw [h.mode, hs]
    rfl
  · rw [h.mode, hs]
    rfl

theorem Sending.cycle_sends
    (hpending : ch.timers .msgCycleTimer = .pending) : Sends cfg .msgCycleTimer ch := by
  intro sent
  let fired := setTimer .msgCycleTimer .idle { ch with emitted := [] }
  refine ⟨(sendNmMessage sent fired).2.setTimer .msgCycleTimer .pending, ?_, _, _, _, _,
    sent_mem_sendNmMessage sent h.ctrl (h.initConfig_of_state hstate)⟩
  have hcalled : step cfg ch (.expire sent .msgCycleTimer) = msgCycleTimerCalled sent fired :=
    if_pos hpending
  rw [hcalled, msgCycleTimerCalled,
    if_pos (show fired.stateType = _ ∨ fired.stateType = _ from hstate),
    updateTime_sendNmMessage sent (by decide) (setTimer_timers_self _ _ _)]

end

theorem Sending.offset_sends (h : Sending cfg ch) (hstate : ch.stateType = .kStateRepeatMessage)
    (hpending : ch.timers .nmMsgCycleOffsetTimer = .pending) :
    Sends cfg .nmMsgCycleOffsetTimer ch := by
  intro sent
  let fired := setTimer .nmMsgCycleOffsetTimer .idle { ch with emitted := [] }
  refine ⟨makeMsgCycleTimer (sendNmMessage sent fired).2, ?_, _, _, _, _,
    sent_mem_sendNmMessage sent h.ctrl (h.initConfig_of_state (inr hstate))⟩
  have hcalled : step cfg ch (.expire sent .nmMsgCycleOffsetTimer) =
      some (msgCycleOffsetTimerCalled sent fired) := if_pos hpending
  rw [hcalled, msgCycleOffsetTimerCalled, if_pos (show fired.stateType = _ from hstate)]

theorem Sending.immediate_sends (h : Sending cfg ch)
    (hstate : ch.stateType = .kStateRepeatMessage)
    (hpending : ch.timers .immediateNmTransmissionsTimer = .pending)
    (hactive : (ch.checkActiveRequested || cfg.nmSendImmediateInRepeatMessage) = true) :
    Sends cfg .immediateNmTransmissionsTimer ch := by
  intro sent
  let fired := setTimer .immediateNmTransmissionsTimer .idle { ch with emitted := [] }
  obtain ⟨reacted, hsend, -, htimers⟩ := sendImmediate_spec sent fired
  have hthere : reacted.timers .immediateNmTransmissionsTimer ≠ .absent := by
    rw [htimers _ (by decide), setTimer_timers_self]
    decide
  have hmem := sent_mem_sendImmediate sent (show fired.ctrType = _ from h.ctrl)
    (h.initConfig_of_state (inr hstate)) hsend
  have hcalled : step cfg ch (.expire sent .immediateNmTransmissionsTimer) =
      immediateNmTransmissionsTimerCalled cfg sent fired := if_pos hpending
  have hcondition : (fired.checkActiveRequested || cfg.nmSendImmediateInRepeatMessage) = true ∧
      fired.stateType = .kStateRepeatMessage ∧ 0 < fired.nmImmediateNmTransmissionsLeft :=
    ⟨hactive, hstate, (h.burst hpending).1⟩
  rw [hcalled, immediateNmTransmissionsTimerCalled, if_pos hcondition, hsend,
    bind_eq_bind, bind_some]
  dsimp only
  split_ifs
  · exact ⟨_, updateTime_eq hthere, _, _, _, _, hmem⟩
  · exact ⟨_, rfl, _, _, _, _, hmem⟩

theorem Sending.keepsSending (h : Sending cfg ch) : KeepsSending cfg ch := by
  intro hstate
  rcases hstate with hrepeat | ⟨hnormal, -⟩
  · rcases h.sender hrepeat with hcycle | hoffset | ⟨hburst, hactive⟩
    · exact ⟨_, hcycle, h.cycle_sends (inr hrepeat) hcycle⟩
    · exact ⟨_, hoffset, h.offset_sends hrepeat hoffset⟩
    · exact ⟨_, hburst, h.immediate_sends hrepeat hburst hactive⟩
  · exact ⟨_, h.normal hnormal, h.cycle_sends (inl hnormal) (h.normal hnormal)⟩

end Channel

open Channel (KeepsSending Safe step)

/-- In every run of safe steps a timer that sends is running wherever a message is due. -/
theorem keeps_sending (cfg : EtherConfig) (hrepeat : 0 < cfg.nmRepeatMessageTime)
    (initConfig : Bool) (inputs : List ChannelInput)
    (hsafe : Along (step cfg) (Safe cfg) { initConfig := initConfig } inputs) :
    Always (step cfg) (KeepsSending cfg) { initConfig := initConfig } inputs := by
  have hsending : Always (step cfg) (Channel.Sending cfg) { initConfig := initConfig }
      inputs := by
    apply always_of_along _ (Channel.sending_initial initConfig) hsafe
    intro ch input h hinput
    exact Channel.step_sending hrepeat h input hinput
  exact hsending.mono fun _ h => h.keepsSending

/-- A request whose burst is over before Repeat Message ends. -/
theorem keeps_sending_burst : Always (step burstConfig) (KeepsSending burstConfig)
    { initConfig := true }
    [.requestNetwork true true true 0, .expire true .immediateNmTransmissionsTimer,
      .expire true .immediateNmTransmissionsTimer, .expire true .repeateMessageTimer] := by
  apply keeps_sending burstConfig (by decide) true
  refine ⟨fun _ => by decide, ?_⟩
  rintro _ ⟨⟩
  refine ⟨fun h => (by cases h), ?_⟩
  rintro _ ⟨⟩
  refine ⟨fun h => (by cases h), ?_⟩
  rintro _ ⟨⟩
  exact ⟨fun _ => by decide +kernel, fun _ _ => trivial⟩

/-- A request that is withdrawn and made again during the burst. -/
def withdrawn : List ChannelInput :=
  [.requestNetwork true true true 0, .releaseNetwork true 0,
    .expire true .immediateNmTransmissionsTimer, .requestNetwork true true true 0,
    .expire true .repeateMessageTimer]

def silenced : Channel := (exec (step burstConfig) { initConfig := true } withdrawn).getD {}

/-- Normal Operation with a request, where only the network timer runs, which sends nothing. -/
theorem withdrawn_silences :
    exec (step burstConfig) { initConfig := true } withdrawn = some silenced ∧
      silenced.stateType = .kStateNormalOperation ∧ silenced.checkActiveRequested = true ∧
      ¬ KeepsSending burstConfig silenced := by
  refine ⟨rfl, rfl, rfl, fun hkeeps => ?_⟩
  obtain ⟨name, hpending, hsends⟩ := hkeeps (inr ⟨rfl, rfl⟩)
  cases name with
  | networkTimer =>
    obtain ⟨ch, hstep, _, _, _, _, hmem⟩ := hsends true
    have hquiet : (step burstConfig silenced (.expire true .networkTimer)).map
        Channel.emitted = some [] := rfl
    rw [hstep, map_some, some.injEq] at hquiet
    rw [hquiet] at hmem
    cases hmem
  | _ => cases hpending

end AdaptivePlatform.Nm
