import AdaptivePlatform.Nm.ChannelSteps

/-!
# A channel with a request is awake

`Awake` says that a channel with an active request is in Repeat Message or Normal Operation.
Every call and every timer keeps it, and only requests and releases change the books: when a
channel goes to sleep they are already empty.
-/
namespace AdaptivePlatform.Nm.Channel

open Bytes Option Bool
open Or (inl inr)

variable (cfg : EtherConfig) {ch : Channel} {ch' : Channel}

/-- The channel between two calls, awake if it has a request. -/
structure Awake (ch : Channel) : Prop extends WellFormed ch where
  awake : ch.checkActiveRequested = true →
    ch.stateType = .kStateRepeatMessage ∨ ch.stateType = .kStateNormalOperation

theorem Entered.awake (h : Entered ch ch') : ch'.Awake := by
  refine ⟨h.wellFormed, fun hactive => ?_⟩
  rw [h.books.active] at hactive
  have hstate := h.state
  rw [if_pos hactive] at hstate
  exact hstate

/-- What is kept without requests and releases: the entries of the books, and that the channel
is awake. -/
structure Handled (ch ch' : Channel) : Prop where
  count : ch'.requestEtherCount = ch.requestEtherCount
  group : ch'.requestPnGroup = ch.requestPnGroup
  awake : ch'.Awake

theorem Entered.handled (h : Entered ch ch') : Handled ch ch' :=
  ⟨h.books.count, h.books.group, h.awake⟩

theorem Awake.handled (h : ch.Awake) : Handled ch ch := ⟨rfl, rfl, h⟩

variable {ch'' : Channel} {name : TimerName}

theorem Handled.trans (h : Handled ch ch') (h' : Handled ch' ch'') : Handled ch ch'' :=
  ⟨h'.count.trans h.count, h'.group.trans h.group, h'.awake⟩

theorem awake_of_inactive (h : ch.WellFormed) (hinactive : ch.checkActiveRequested = false) :
    ch.Awake :=
  ⟨h, fun hactive => absurd hactive (by rw [hinactive]; decide)⟩

theorem active_eq_false_iff :
    ch.checkActiveRequested = false ↔ ch.requestEtherCount = 0 ∧ ch.requestPnGroup = [] := by
  simp [checkActiveRequested]

theorem Awake.inactive (h : ch.Awake) (hrepeat : ch.stateType ≠ .kStateRepeatMessage)
    (hnormal : ch.stateType ≠ .kStateNormalOperation) : ch.checkActiveRequested = false := by
  by_contra hactive
  rcases h.awake (not_eq_false _ ▸ hactive) with hstate | hstate
  · exact hrepeat hstate
  · exact hnormal hstate

/-- Changes that concern neither the state, nor the books, nor take the network timer away. -/
structure Unmoved (ch ch' : Channel) : Prop extends SameBooks ch ch' where
  mode : ch'.modeType = ch.modeType
  state : ch'.stateType = ch.stateType
  com : ch'.comState = ch.comState
  network : ch'.timers .networkTimer ≠ .absent ∨ ch'.timers .networkTimer = ch.timers .networkTimer

theorem Awake.of_unmoved (h : ch.Awake) (hsame : Unmoved ch ch') : ch'.Awake := by
  refine ⟨⟨?_, ?_, ?_, ?_⟩, ?_⟩
  · rw [hsame.mode, hsame.state, h.mode]
  · rw [hsame.com, hsame.mode, h.com]
  · rw [hsame.mode, hsame.init]
    exact h.init
  · intro hnet
    rcases hsame.network with hne | heq
    · exact hne
    · rw [heq]
      exact h.network (hsame.mode ▸ hnet)
  · rw [hsame.active, hsame.state]
    exact h.awake

theorem Awake.handled_of_unmoved (h : ch.Awake) (hunmoved : Unmoved ch ch') : Handled ch ch' :=
  ⟨hunmoved.count, hunmoved.group, h.of_unmoved hunmoved⟩

theorem unmoved_setTimer (name : TimerName) (timer : Timer) (ch : Channel)
    (htimer : name ≠ .networkTimer ∨ timer ≠ .absent := by decide) :
    Unmoved ch (ch.setTimer name timer) := by
  refine ⟨⟨rfl, rfl, rfl, rfl⟩, rfl, rfl, rfl, ?_⟩
  by_cases hname : name = .networkTimer
  · subst hname
    left
    exact htimer.resolve_left (fun hne => hne rfl)
  · right
    exact setTimer_timers_of_ne (Ne.symm hname) timer ch

theorem unmoved_sendNmMessage (sent : Bool) (ch : Channel) :
    Unmoved ch (sendNmMessage sent ch).2 := by
  obtain ⟨out, timer, hsend, htimer⟩ := sendNmMessage_eq sent ch
  rw [hsend]
  refine ⟨⟨rfl, rfl, rfl, rfl⟩, rfl, rfl, rfl, ?_⟩
  dsimp only
  rw [Function.update_self]
  rcases htimer with rfl | htimer
  · left
    decide
  · right
    exact htimer

theorem Unmoved.trans {ch₁ ch₂ ch₃ : Channel} (h : Unmoved ch₁ ch₂) (h' : Unmoved ch₂ ch₃) :
    Unmoved ch₁ ch₃ := by
  refine ⟨h.toSameBooks.trans h'.toSameBooks, h'.mode.trans h.mode, h'.state.trans h.state,
    h'.com.trans h.com, ?_⟩
  rcases h'.network with hne | heq
  · exact inl hne
  · rw [heq]
    exact h.network

theorem Unmoved.left (h : Unmoved ch ch') (left : ℕ) :
    Unmoved ch { ch' with nmImmediateNmTransmissionsLeft := left } :=
  ⟨⟨h.count, h.group, h.init, h.ctrl⟩, h.mode, h.state, h.com, h.network⟩

theorem updateTime_eq (htimer : ch.timers name ≠ .absent) :
    ch.updateTime name = some (ch.setTimer name .pending) := by
  rw [updateTime, Timer.updateTime_of_ne_absent htimer, map_some]

/-! ## Requests and releases -/

variable {requestEther : Bool} {pn : uint16} {code : NmOperCode}

theorem checkCardAndInitSocket_spec {card : Bool} (h : ch.Awake)
    (hcard : checkCardAndInitSocket card ch = some ch') :
    ch'.Awake ∧ ch'.initConfig = true ∧ ch'.requestEtherCount = ch.requestEtherCount ∧
      ch'.requestPnGroup = ch.requestPnGroup := by
  unfold checkCardAndInitSocket at hcard
  split_ifs at hcard with hinit hthere
  · cases hcard
    exact ⟨h, hinit, rfl, rfl⟩
  · cases hcard
    exact ⟨⟨⟨h.mode, h.com, fun _ => rfl, h.network⟩, h.awake⟩, rfl, rfl, rfl⟩

/-- The books after a request that is valid. -/
structure Booked (requestEther : Bool) (pn : uint16) (ch ch' : Channel) : Prop where
  valid : requestEther = true ∨ NewPn cfg pn ch
  count : ch'.requestEtherCount =
    if requestEther then ch.requestEtherCount + 1 else ch.requestEtherCount
  group : ch'.requestPnGroup =
    if NewPn cfg pn ch then ch.requestPnGroup ++ [pn] else ch.requestPnGroup

theorem addRequest_spec (hadd : addRequest cfg requestEther pn ch = some ch') :
    Booked cfg requestEther pn ch ch' ∧
      ∃ count group, ch' = { ch with requestEtherCount := count, requestPnGroup := group } := by
  unfold addRequest at hadd
  by_cases hpn : NewPn cfg pn ch
  · rw [if_pos hpn] at hadd
    cases hadd
    refine ⟨⟨inr hpn, ?_, ?_⟩, ?_⟩
    · cases requestEther <;> rfl
    · rw [if_pos hpn]
      cases requestEther <;> rfl
    · cases requestEther <;> exact ⟨_, _, rfl⟩
  · rw [if_neg hpn] at hadd
    split_ifs at hadd with hether
    cases hadd
    refine ⟨⟨inl hether, ?_, ?_⟩, _, _, rfl⟩
    · rw [if_pos hether]
    · rw [if_neg hpn]

/-- The books are the same whether the socket was opened before. -/
theorem Booked.of_same {ready : Channel} (h : Booked cfg requestEther pn ready ch')
    (hcount : ready.requestEtherCount = ch.requestEtherCount)
    (hgroup : ready.requestPnGroup = ch.requestPnGroup)
    (hcount' : ch''.requestEtherCount = ch'.requestEtherCount)
    (hgroup' : ch''.requestPnGroup = ch'.requestPnGroup) : Booked cfg requestEther pn ch ch'' := by
  have hnew : NewPn cfg pn ready ↔ NewPn cfg pn ch := by
    unfold NewPn
    rw [hgroup]
  refine ⟨h.valid.imp_right hnew.mp, ?_, ?_⟩
  · rw [hcount', h.count, hcount]
  · rw [hgroup', h.group, hgroup]
    by_cases hpn : NewPn cfg pn ch
    · rw [if_pos hpn, if_pos (hnew.mpr hpn)]
    · rw [if_neg hpn, if_neg (fun hready => hpn (hnew.mp hready))]

theorem reactToRequest_spec (sent : Bool) (h : ch.WellFormed) (hinit : ch.initConfig = true) :
    Handled ch (reactToRequest cfg sent ch) := by
  have hcom : Channel.comState { ch with activeWakeUpNet := true } = comOf ch.modeType := h.com
  have hsame : SameBooks ch { ch with activeWakeUpNet := true } := ⟨rfl, rfl, rfl, rfl⟩
  unfold reactToRequest
  split
  · exact ((busSleepToRepeateMessage_entered cfg sent hcom hinit).of_same hsame).handled
  · exact ((prepareBusSleepToRepeateMessage_entered cfg sent hcom hinit).of_same hsame).handled
  · next hmode =>
    split_ifs with hmultiple hready
    · exact (multipleNetworkRequests_entered cfg sent h.com hinit).handled
    · obtain ⟨hbooks, hwf, hstate⟩ := readySleepToNormalOperation_spec cfg sent h.com hinit
      exact ⟨hbooks.count, hbooks.group, hwf, fun _ => inr hstate⟩
    · refine ⟨rfl, rfl, h, fun _ => ?_⟩
      have hof := h.mode
      rw [hmode] at hof
      cases hstate : ch.stateType with
      | kStateRepeatMessage => exact inl rfl
      | kStateNormalOperation => exact inr rfl
      | kStateReadySleep => exact absurd hstate hready
      | kStateBusSleep | kStatePrepareBusSleep =>
        rw [hstate] at hof
        cases hof

/-- What a request leaves: the books as they were if it fails, else its entry in them. -/
theorem requestNetwork_spec (h : ch.Awake) (card sent requestEther : Bool) (pn : uint16)
    (hrequest : requestNetwork cfg card sent requestEther pn ch = (code, ch')) :
    ch'.Awake ∧
      (code = .kNmOperError ∧ ch'.requestEtherCount = ch.requestEtherCount ∧
          ch'.requestPnGroup = ch.requestPnGroup ∨
        code = .kNmOperOK ∧ Booked cfg requestEther pn ch ch') := by
  unfold requestNetwork at hrequest
  cases hcard : checkCardAndInitSocket card ch with
  | none =>
    rw [hcard] at hrequest
    cases hrequest
    exact ⟨h, inl ⟨rfl, rfl, rfl⟩⟩
  | some ready =>
    obtain ⟨hready, hinit, hcount, hgroup⟩ := checkCardAndInitSocket_spec h hcard
    rw [hcard] at hrequest
    dsimp only at hrequest
    cases hadd : addRequest cfg requestEther pn ready with
    | none =>
      rw [hadd] at hrequest
      cases hrequest
      exact ⟨hready, inl ⟨rfl, hcount, hgroup⟩⟩
    | some added =>
      obtain ⟨hbooked, count, group, rfl⟩ := addRequest_spec cfg hadd
      rw [hadd] at hrequest
      cases hrequest
      have hreact := reactToRequest_spec cfg sent
        (show WellFormed { ready with requestEtherCount := count, requestPnGroup := group } from
          ⟨hready.mode, hready.com, hready.init, hready.network⟩) hinit
      exact ⟨hreact.awake, inr ⟨rfl, hbooked.of_same cfg hcount hgroup hreact.count hreact.group⟩⟩

theorem active_of_dropRequest (h : (dropRequest requestEther pn ch).checkActiveRequested = true) :
    ch.checkActiveRequested = true := by
  by_contra hinactive
  obtain ⟨hcount, hgroup⟩ := active_eq_false_iff.mp (eq_false_of_not_eq_true hinactive)
  have hnone : (dropRequest requestEther pn ch).checkActiveRequested = false := by
    rw [active_eq_false_iff]
    simp [dropRequest, hcount, hgroup]
  rw [hnone] at h
  cases h

theorem normalOperationToReadySleep_spec (h : ch.WellFormed) (hinit : ch.initConfig = true)
    (hnetwork : ch.modeType = .kModeNetwork) :
    SameBooks ch (normalOperationToReadySleep cfg ch) ∧
      (normalOperationToReadySleep cfg ch).WellFormed := by
  obtain ⟨data, out, hmove⟩ := moveTo_eq cfg h.com .kModeNetwork .kStateReadySleep
  unfold normalOperationToReadySleep
  rw [hmove]
  refine ⟨⟨rfl, rfl, rfl, rfl⟩, rfl, rfl, fun _ => hinit, fun _ => ?_⟩
  exact h.network hnetwork

theorem releaseNetwork_spec (h : ch.Awake) (requestEther : Bool) (pn : uint16)
    (hrelease : releaseNetwork cfg requestEther pn ch = (code, ch')) :
    ch'.Awake ∧
      ch'.requestEtherCount = (dropRequest requestEther pn ch).requestEtherCount ∧
      ch'.requestPnGroup = (dropRequest requestEther pn ch).requestPnGroup := by
  have hwf : (dropRequest requestEther pn ch).WellFormed := ⟨h.mode, h.com, h.init, h.network⟩
  unfold releaseNetwork at hrelease
  dsimp only at hrelease
  split_ifs at hrelease with hnothing hlast
  · cases hrelease
    obtain ⟨rfl, rfl⟩ := hnothing
    exact ⟨h, by simp [dropRequest], by simp [dropRequest]⟩
  · cases hrelease
    obtain ⟨hinactive, hmode, -⟩ := hlast
    obtain ⟨hbooks, hwf'⟩ := normalOperationToReadySleep_spec cfg hwf (h.init hmode) hmode
    exact ⟨awake_of_inactive hwf' (hbooks.active.trans hinactive), hbooks.count, hbooks.group⟩
  · cases hrelease
    exact ⟨⟨hwf, fun hactive => h.awake (active_of_dropRequest hactive)⟩, rfl, rfl⟩

/-! ## Messages, wakeups and node detection -/

theorem reactToMessage_spec (h : ch.Awake) (hinit : ch.initConfig = true)
    (sent repeatBit : Bool) : reactToMessage cfg sent repeatBit ch = some none ∨
      ∃ ch', reactToMessage cfg sent repeatBit ch = some (some ch') ∧ Handled ch ch' := by
  unfold reactToMessage
  by_cases hbit : repeatBit = true
  · right
    rw [if_pos hbit]
    split_ifs
    · exact ⟨_, rfl, (enterRepeatMessage_entered cfg sent _ h.com hinit).handled⟩
    · exact ⟨ch, rfl, h.handled⟩
  · rw [if_neg hbit]
    split
    · split_ifs
      · exact inl rfl
      · exact inr ⟨_, rfl, (busSleepToRepeateMessage_entered cfg sent h.com hinit).handled⟩
    · exact inr ⟨_, rfl, (prepareBusSleepToRepeateMessage_entered cfg sent h.com hinit).handled⟩
    · next hmode =>
      rw [Timer.updateTime_of_ne_absent (h.network hmode)]
      exact inr ⟨_, rfl, h.handled_of_unmoved (unmoved_setTimer _ _ ch)⟩

theorem noteNode_eq (nodeId : uint8) (ch : Channel) :
    ∃ nodes, noteNode cfg nodeId ch = { ch with nodeList := nodes } := by
  unfold noteNode
  split_ifs
  · exact ⟨_, rfl⟩
  · exact ⟨ch.nodeList, rfl⟩

theorem unmoved_noteNode (nodeId : uint8) (ch : Channel) : Unmoved ch (noteNode cfg nodeId ch) := by
  obtain ⟨nodes, hnoted⟩ := noteNode_eq cfg nodeId ch
  rw [hnoted]
  exact ⟨⟨rfl, rfl, rfl, rfl⟩, rfl, rfl, rfl, inr rfl⟩

theorem unmoved_updatePnMsg (pns : List uint16) (ch : Channel) : Unmoved ch (updatePnMsg pns ch) :=
  ⟨⟨rfl, rfl, rfl, rfl⟩, rfl, rfl, rfl, inr rfl⟩

theorem recvNmMessage_spec (h : ch.Awake) (sent : Bool) (nodeId : uint8) (repeatBit : Bool)
    (pns : List uint16) :
    ∃ ch', recvNmMessage cfg sent nodeId repeatBit pns ch = some ch' ∧ Handled ch ch' := by
  unfold recvNmMessage
  split_ifs with hinit hctrl
  · exact ⟨ch, rfl, h.handled⟩
  · exact ⟨ch, rfl, h.handled⟩
  · have hunmoved := unmoved_noteNode cfg nodeId ch
    have hinit' := hunmoved.init.trans (not_eq_false _ ▸ hinit)
    have hnoted := h.handled_of_unmoved hunmoved
    dsimp only
    rcases reactToMessage_spec cfg hnoted.awake hinit' sent repeatBit with
      hreact | ⟨ch', hreact, hhandled⟩
    · rw [hreact]
      exact ⟨_, rfl, hnoted⟩
    · rw [hreact]
      exact ⟨_, rfl, hnoted.trans (hhandled.trans
        (hhandled.awake.handled_of_unmoved (unmoved_updatePnMsg pns ch')))⟩

/-! ### Passive wake-up -/

/-- What a message from the bus is to do. -/
structure Woken (repeatBit : Bool) (ch ch' : Channel) : Prop where
  mode : ch'.modeType = .kModeNetwork
  timer : ch'.timers .networkTimer = .pending
  repeats : ch.modeType ≠ .kModeNetwork ∨ repeatBit = true → ch'.stateType = .kStateRepeatMessage
  keeps : ch.modeType = .kModeNetwork ∧ repeatBit = false → ch'.stateType = ch.stateType
  count : ch'.requestEtherCount = ch.requestEtherCount
  group : ch'.requestPnGroup = ch.requestPnGroup

/-- The message wakes the channel whatever its network timer did before: only then the timer
that runs afterwards has been started by the message. -/
def PassiveWakeup (sent : Bool) (nodeId : uint8) (repeatBit : Bool) (pns : List uint16)
    (ch : Channel) : Prop :=
  ∀ timer, (ch.modeType = .kModeNetwork → timer ≠ .absent) → ∃ ch',
    recvNmMessage cfg sent nodeId repeatBit pns (ch.setTimer .networkTimer timer) = some ch' ∧
      Woken repeatBit ch ch'

section

variable {repeatBit : Bool} {ready : Channel}

theorem woken_updatePnMsg {pns : List uint16} :
    Woken repeatBit ch (updatePnMsg pns ch') ↔ Woken repeatBit ch ch' :=
  ⟨fun h => ⟨h.mode, h.timer, h.repeats, h.keeps, h.count, h.group⟩,
    fun h => ⟨h.mode, h.timer, h.repeats, h.keeps, h.count, h.group⟩⟩

/-- Entering Repeat Message is the wake-up if the repeat message time keeps the channel there. -/
theorem woken_enterRepeatMessage (hcom : ready.comState = comOf ready.modeType)
    (hinit : ready.initConfig = true) (hbooks : SameBooks ch ready) (sent fast : Bool)
    (hrepeats : ch.modeType ≠ .kModeNetwork ∨ repeatBit = true) :
    Woken repeatBit ch (enterRepeatMessage cfg sent fast ready) ↔ 0 < cfg.nmRepeatMessageTime := by
  have hentered := (enterRepeatMessage_entered cfg sent fast hcom hinit).of_same hbooks
  rw [← stateType_enterRepeatMessage cfg sent fast hcom hinit]
  constructor
  · intro h
    exact h.repeats hrepeats
  · intro hstate
    refine ⟨?_, ?_, fun _ => hstate, fun hkeeps => ?_, hentered.books.count, hentered.books.group⟩
    · rw [hentered.wellFormed.mode, hstate]
      rfl
    · simp [enterRepeatMessage, makeNetworkTimer]
    · rcases hrepeats with hmode | hbit
      · exact absurd hkeeps.1 hmode
      · rw [hbit] at hkeeps
        simp at hkeeps

/-- Where the message wakes the channel: with the repeat bit only from Normal Operation and Ready
Sleep, and a channel that has to enter Repeat Message needs a repeat message time. -/
def Wakes (repeatBit : Bool) (ch : Channel) : Prop :=
  if repeatBit then
    (ch.stateType = .kStateNormalOperation ∨ ch.stateType = .kStateReadySleep) ∧
      0 < cfg.nmRepeatMessageTime
  else ch.modeType = .kModeNetwork ∨ 0 < cfg.nmRepeatMessageTime

/-- The reaction of `ready`, which is `ch` but for its network timer. In Repeat Message the repeat
bit leaves that timer as it was. -/
theorem reactToMessage_woken (h : ready.WellFormed) (hinit : ready.initConfig = true)
    (hdrop : ready.modeType = .kModeBusSleep → cfg.dropMsgInBusSleepMode = false)
    (hbooks : SameBooks ch ready) (hstate : ready.stateType = ch.stateType)
    (hmode : ready.modeType = ch.modeType) (sent repeatBit : Bool) :
    ∃ ch', reactToMessage cfg sent repeatBit ready = some (some ch') ∧
      (Woken repeatBit ch ch' ↔ Wakes cfg repeatBit ch ∨
        repeatBit = true ∧ ch.stateType = .kStateRepeatMessage ∧
          ready.timers .networkTimer = .pending) := by
  unfold reactToMessage Wakes
  cases repeatBit with
  | true =>
    rw [if_pos rfl, if_pos rfl, hstate]
    split_ifs with hs
    · refine ⟨_, rfl, (woken_enterRepeatMessage cfg h.com hinit hbooks sent _ (inr rfl)).trans ?_⟩
      rcases hs with hs | hs <;> simp [hs]
    · refine ⟨ready, rfl, fun hwoken => ?_, ?_⟩
      · exact inr ⟨rfl, hstate ▸ hwoken.repeats (inr rfl), hwoken.timer⟩
      · rintro (⟨hs', -⟩ | ⟨-, hrepeat, htimer⟩)
        · exact absurd hs' hs
        · refine ⟨?_, htimer, fun _ => hstate.trans hrepeat, by simp, hbooks.count, hbooks.group⟩
          rw [h.mode, hstate, hrepeat]
          rfl
  | false =>
    rw [if_neg Bool.false_ne_true, if_neg Bool.false_ne_true]
    split
    · next hsleep =>
      rw [hdrop hsleep, if_neg Bool.false_ne_true]
      rw [hmode] at hsleep
      refine ⟨_, rfl, (woken_enterRepeatMessage cfg h.com hinit hbooks sent _ ?_).trans ?_⟩
      all_goals simp [hsleep]
    · next hsleep =>
      rw [hmode] at hsleep
      have hcom : (ready.setTimer .waitBusSleepTimer .absent).comState = _ := h.com
      refine ⟨_, rfl, (woken_enterRepeatMessage cfg hcom hinit
        ⟨hbooks.count, hbooks.group, hbooks.init, hbooks.ctrl⟩ sent _ ?_).trans ?_⟩
      all_goals simp [hsleep]
    · next hnetwork =>
      rw [Timer.updateTime_of_ne_absent (h.network hnetwork)]
      refine ⟨_, rfl, iff_of_true ⟨hnetwork, by simp, ?_, fun _ => hstate, hbooks.count,
        hbooks.group⟩ (inl (inl (hmode ▸ hnetwork)))⟩
      simp [← hmode, hnetwork]

/-- A message that is not discarded is a passive wake-up exactly where `Wakes` says so. -/
theorem passiveWakeup_iff (h : ch.WellFormed) (hinit : ch.initConfig = true)
    (hctrl : ch.ctrType = .kEnableAll ∨ ch.ctrType = .kEnableReceive)
    (hdrop : ch.modeType = .kModeBusSleep → cfg.dropMsgInBusSleepMode = false)
    (sent : Bool) (nodeId : uint8) (repeatBit : Bool) (pns : List uint16) :
    PassiveWakeup cfg sent nodeId repeatBit pns ch ↔ Wakes cfg repeatBit ch := by
  have hrecv : ∀ timer, (ch.modeType = .kModeNetwork → timer ≠ .absent) → ∃ ch',
      recvNmMessage cfg sent nodeId repeatBit pns (ch.setTimer .networkTimer timer) = some ch' ∧
        (Woken repeatBit ch ch' ↔ Wakes cfg repeatBit ch ∨
          repeatBit = true ∧ ch.stateType = .kStateRepeatMessage ∧ timer = .pending) := by
    intro timer htimer
    obtain ⟨nodes, hnoted⟩ := noteNode_eq cfg nodeId (ch.setTimer .networkTimer timer)
    have hwf : Channel.WellFormed { ch.setTimer .networkTimer timer with nodeList := nodes } :=
      ⟨h.mode, h.com, h.init, fun hmode => by simpa using htimer hmode⟩
    obtain ⟨ch', hreact, hwoken⟩ := reactToMessage_woken cfg hwf hinit hdrop
      (show SameBooks ch _ from ⟨rfl, rfl, rfl, rfl⟩) rfl rfl sent repeatBit
    refine ⟨updatePnMsg pns ch', ?_, woken_updatePnMsg.trans ?_⟩
    · unfold recvNmMessage
      rw [if_neg (by simp [setTimer, hinit]), if_neg (by simpa [setTimer] using hctrl.resolve_left),
        hnoted]
      dsimp only
      rw [hreact]
      rfl
    · simpa using hwoken
  constructor
  · intro hwakeup
    obtain ⟨ch', hch', hiff⟩ := hrecv .idle (fun _ => by simp)
    obtain ⟨_, hch, hwoken⟩ := hwakeup .idle (fun _ => by simp)
    cases hch'.symm.trans hch
    simpa using hiff.mp hwoken
  · intro hwakes timer htimer
    obtain ⟨ch', hch', hiff⟩ := hrecv timer htimer
    exact ⟨ch', hch', hiff.mpr (inl hwakes)⟩

/-- Ready Sleep, with a network timer that has run out, hears the repeat bit. -/
theorem passiveWakeup_readySleep : PassiveWakeup burstConfig true 1 true []
    { modeType := .kModeNetwork, stateType := .kStateReadySleep, comState := .kFullCom,
      initConfig := true, timers := fun _ => .idle } :=
  (passiveWakeup_iff burstConfig ⟨rfl, rfl, fun _ => rfl, by simp⟩ rfl (inl rfl) (by simp) true 1
    true []).mpr ⟨inr rfl, by decide⟩

/-- A sleeping channel hears the repeat bit and sleeps on. -/
theorem not_passiveWakeup_busSleep : ¬ PassiveWakeup burstConfig true 1 true []
    { initConfig := true } := by
  intro h
  obtain ⟨ch', hrecv, hwoken⟩ := h .absent (by simp)
  cases hrecv
  exact absurd hwoken.mode (by decide)

end

theorem requestDetectNode_spec (h : ch.Awake) (sent : Bool) :
    Handled ch (requestDetectNode cfg sent ch) := by
  unfold requestDetectNode
  split_ifs with hdetect hmode
  · exact h.handled
  · have hcom : Channel.comState { ch with nodeList := [], detectNode := true } =
        comOf ch.modeType := h.com
    exact ((busSleepToRepeateMessage_entered cfg sent hcom (h.init hmode)).of_same
      (show SameBooks ch _ from ⟨rfl, rfl, rfl, rfl⟩)).handled
  · exact h.handled_of_unmoved ⟨⟨rfl, rfl, rfl, rfl⟩, rfl, rfl, rfl, inr rfl⟩

theorem notifyWakeup_spec (h : ch.Awake) (card sent : Bool) :
    Handled ch (notifyWakeup cfg card sent ch) := by
  unfold notifyWakeup
  cases hcard : checkCardAndInitSocket card ch with
  | none => exact h.handled
  | some ready =>
    obtain ⟨hready, hinit, hcount, hgroup⟩ := checkCardAndInitSocket_spec h hcard
    have hentered : Entered ready (wakeupCallToRepeateMessage cfg sent ready.clearTimers) :=
      (enterRepeatMessage_entered cfg sent _
        (show ready.clearTimers.comState = _ from hready.com) hinit).of_same ⟨rfl, rfl, rfl, rfl⟩
    exact Handled.trans ⟨hcount, hgroup, hready⟩ hentered.handled

/-! ## Timers -/

variable (sent : Bool)

theorem Awake.mode_ne (h : ch.Awake) (hmode : ch.modeType ≠ .kModeNetwork) :
    ch.checkActiveRequested = false := by
  apply h.inactive
  all_goals
    intro hstate
    exact hmode (by rw [h.mode, hstate]; rfl)

/-- A channel that goes to sleep had no entries to lose. -/
theorem readySleepToPrepareBusSleep_handled (h : ch.Awake)
    (hinactive : ch.checkActiveRequested = false) :
    Handled ch (readySleepToPrepareBusSleep cfg ch) := by
  obtain ⟨hcount, hgroup, hwf⟩ := readySleepToPrepareBusSleep_spec cfg h.toWellFormed
  obtain ⟨hzero, hempty⟩ := active_eq_false_iff.mp hinactive
  exact ⟨hcount.trans hzero.symm, hgroup.trans hempty.symm,
    awake_of_inactive hwf (active_eq_false_iff.mpr ⟨hcount, hgroup⟩)⟩

theorem networkTimerCalled_spec (h : ch.Awake) (hidle : ch.timers .networkTimer = .idle) :
    ∃ ch', networkTimerCalled cfg ch = some ch' ∧ Handled ch ch' := by
  have hagain : ∃ ch', ch.updateTime .networkTimer = some ch' ∧ Handled ch ch' :=
    ⟨_, updateTime_eq (by rw [hidle]; decide), h.handled_of_unmoved (unmoved_setTimer _ _ ch)⟩
  unfold networkTimerCalled
  by_cases hmode : ch.modeType = .kModeNetwork
  · rw [if_pos hmode]
    cases hstate : ch.stateType with
    | kStateRepeatMessage => exact hagain
    | kStateNormalOperation =>
      by_cases hactive : ch.checkActiveRequested = true
      · dsimp only
        rw [if_pos hactive]
        exact hagain
      · dsimp only
        rw [if_neg hactive]
        exact ⟨_, rfl, readySleepToPrepareBusSleep_handled cfg h (eq_false_of_not_eq_true hactive)⟩
    | kStateReadySleep =>
      have hinactive : ch.checkActiveRequested = false := by
        apply h.inactive
        all_goals
          rw [hstate]
          decide
      exact ⟨_, rfl, readySleepToPrepareBusSleep_handled cfg h hinactive⟩
    | kStateBusSleep => exact ⟨ch, rfl, h.handled⟩
    | kStatePrepareBusSleep => exact ⟨ch, rfl, h.handled⟩
  · rw [if_neg hmode]
    exact ⟨ch, rfl, h.handled⟩

theorem repeateMessageTimerCalled_spec (h : ch.Awake) :
    Handled ch (repeateMessageTimerCalled cfg ch) := by
  obtain ⟨data, detect, nodes, out, hcalled⟩ := repeateMessageTimerCalled_eq cfg h.mode h.com
  rw [hcalled]
  have hmode : ch.modeType = modeOf ch.afterRepeat := by
    unfold afterRepeat
    split_ifs with hstate hactive
    · rw [h.mode, hstate]
      rfl
    · rw [h.mode, hstate]
      rfl
    · exact h.mode
  refine ⟨rfl, rfl, ⟨⟨hmode, h.com, h.init, h.network⟩, ?_⟩⟩
  intro hactive
  have hbefore : ch.checkActiveRequested = true := hactive
  unfold afterRepeat
  split_ifs with hstate
  · exact inr rfl
  · exact inr ((h.awake hbefore).resolve_left hstate)

theorem waitBusSleepTimerCalled_handled (h : ch.Awake) :
    Handled ch (waitBusSleepTimerCalled cfg ch) := by
  by_cases hmode : ch.modeType = .kModeNetwork
  · unfold waitBusSleepTimerCalled
    rw [if_neg (by rw [hmode]; decide)]
    exact h.handled_of_unmoved (unmoved_setTimer _ _ ch)
  · obtain ⟨hbooks, hwf, -⟩ := waitBusSleepTimerCalled_spec cfg h.toWellFormed hmode
    exact ⟨hbooks.count, hbooks.group,
      awake_of_inactive hwf (hbooks.active.trans (h.mode_ne hmode))⟩

theorem sendNmMessage_timers_of_ne (h : name ≠ .networkTimer) (ch : Channel) :
    (sendNmMessage sent ch).2.timers name = ch.timers name := by
  obtain ⟨out, timer, hsend, -⟩ := sendNmMessage_eq sent ch
  rw [hsend]
  exact Function.update_of_ne h timer ch.timers

theorem updateTime_sendNmMessage (hname : name ≠ .networkTimer)
    (hidle : ch.timers name = .idle) : (sendNmMessage sent ch).2.updateTime name =
      some ((sendNmMessage sent ch).2.setTimer name .pending) := by
  apply updateTime_eq
  rw [sendNmMessage_timers_of_ne sent hname, hidle]
  decide

theorem sendImmediate_spec (ch : Channel) :
    ∃ ch', sendImmediate sent ch = some ch' ∧ Unmoved ch ch' ∧
      ∀ name, name ≠ .networkTimer → ch'.timers name = ch.timers name := by
  have hsent := unmoved_sendNmMessage sent ch
  unfold sendImmediate
  split_ifs with hcode
  · refine ⟨_, updateTime_eq ?_, hsent.trans (unmoved_setTimer _ _ _), ?_⟩
    · rw [sendNmMessage_ok sent hcode]
      decide
    · intro name hname
      rw [setTimer_timers_of_ne hname, sendNmMessage_timers_of_ne sent hname]
  · exact ⟨_, rfl, hsent, fun name hname => sendNmMessage_timers_of_ne sent hname ch⟩

theorem immediateNmTransmissionsTimerCalled_spec (h : ch.Awake) (sent : Bool)
    (hidle : ch.timers .immediateNmTransmissionsTimer = .idle) :
    ∃ ch', immediateNmTransmissionsTimerCalled cfg sent ch = some ch' ∧ Handled ch ch' := by
  obtain ⟨ch', hsend, hunmoved, htimers⟩ := sendImmediate_spec sent ch
  have hcounted := hunmoved.left (ch'.nmImmediateNmTransmissionsLeft - 1)
  have hthere : ch'.timers .immediateNmTransmissionsTimer ≠ .absent := by
    rw [htimers _ (by decide), hidle]
    decide
  unfold immediateNmTransmissionsTimerCalled
  split_ifs with hcondition
  · rw [hsend, bind_eq_bind, bind_some]
    dsimp only
    split_ifs
    · exact ⟨_, updateTime_eq hthere,
        h.handled_of_unmoved (hcounted.trans (unmoved_setTimer _ _ _))⟩
    · exact ⟨_, rfl, h.handled_of_unmoved (hcounted.trans (unmoved_setTimer _ _ _))⟩
  · exact ⟨ch, rfl, h.handled⟩

theorem timerCalled_spec (h : ch.Awake) (sent : Bool) (name : TimerName)
    (hidle : ch.timers name = .idle) :
    ∃ ch', timerCalled cfg sent name ch = some ch' ∧ Handled ch ch' := by
  cases name with
  | networkTimer => exact networkTimerCalled_spec cfg h hidle
  | nmMsgCycleOffsetTimer =>
    refine ⟨_, rfl, ?_⟩
    unfold msgCycleOffsetTimerCalled
    split_ifs
    · exact h.handled_of_unmoved ((unmoved_sendNmMessage sent ch).trans (unmoved_setTimer _ _ _))
    · exact h.handled
  | msgCycleTimer =>
    change ∃ ch', msgCycleTimerCalled sent ch = some ch' ∧ _
    unfold msgCycleTimerCalled
    split_ifs
    · exact ⟨_, updateTime_sendNmMessage sent (by decide) hidle, h.handled_of_unmoved
        ((unmoved_sendNmMessage sent ch).trans (unmoved_setTimer _ _ _))⟩
    · exact ⟨ch, rfl, h.handled⟩
  | repeateMessageTimer => exact ⟨_, rfl, repeateMessageTimerCalled_spec cfg h⟩
  | immediateNmTransmissionsTimer => exact immediateNmTransmissionsTimerCalled_spec cfg h sent hidle
  | waitBusSleepTimer => exact ⟨_, rfl, waitBusSleepTimerCalled_handled cfg h⟩

theorem expire_spec (h : ch.Awake) (sent : Bool) (name : TimerName) :
    ∃ ch', expire cfg sent name ch = some ch' ∧ Handled ch ch' := by
  unfold expire
  split_ifs
  · have hfired := h.handled_of_unmoved (unmoved_setTimer name .idle ch (inr (by decide)))
    obtain ⟨ch', hcalled, hhandled⟩ :=
      timerCalled_spec cfg hfired.awake sent name (setTimer_timers_self name .idle ch)
    exact ⟨ch', hcalled, hfired.trans hhandled⟩
  · exact ⟨ch, rfl, h.handled⟩

end AdaptivePlatform.Nm.Channel
