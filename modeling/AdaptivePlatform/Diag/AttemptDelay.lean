import Mathlib.Data.BitVec
import AdaptivePlatform.Foundations.Runs
import AdaptivePlatform.Diag.SecurityAccess

/-!
# The delay after failed attempts

Too many wrong keys for a security level must be answered with a delay during
which its requests are refused, also once an earlier delay has passed and after
a restart of the server. An observer counts the wrong keys that are compared
for one instance; the module determines in which runs the delays keep up with
this count.
-/
namespace AdaptivePlatform.Diag.ServiceX27

open Runs
open SecurityAccessConfig (find_of_mem)

inductive Input
  | request (req : SecurityAccessRequest) (t : Transmission)
  | delayExpired (requestSeedId : uint8)
  | sharedDelayExpired
  | restart
  | sessionChange (oldSession newSession : uint8)

def next (cfg : SecurityAccessConfig) (s : ServiceX27) : Input → ServiceX27
  | .request req t => s.exchange cfg req t
  | .delayExpired requestSeedId => s.handleDelayTimer requestSeedId
  | .sharedDelayExpired => s.handleSharedDelayTimer
  | .restart => start cfg s.storage
  | .sessionChange oldSession newSession => s.sessionChange oldSession newSession

/-- What is observed of an instance: the wrong keys since the last right one, those of them since
the last complete delay, and whether the attempts are used up and no complete delay has passed
since the last wrong key. -/
structure Watch where
  failures : Nat := 0
  sinceDelay : Nat := 0
  owed : Bool := false

section

variable (cfg : SecurityAccessConfig) (info : SecurityLevelInfo) (s : ServiceX27) (w : Watch)

/-- What `CompareKey` of the instance says, if the request leads to it. -/
def verdict (req : SecurityAccessRequest) : Option KeyCompareResultType :=
  if getRealSubfunction req.subfunction = info.requestSeedId then
    (s.process cfg req).2.comparedKey
  else none

/-- The timer runs for the whole delay of the instance. -/
def isComplete (timer : Option uint32) : Bool := timer.any (info.securityDelayTime ≤ ·)

def delayed : Bool :=
  isComplete info s.delayTimer ||
    (!cfg.sharedTimer && isComplete info (s.delayTimers info.requestSeedId))

def Watch.delayPassed : Watch := { w with sinceDelay := 0, owed := false }

def Watch.keyCompared : Option KeyCompareResultType → Watch
  | none => w
  | some .keyValid => {}
  | some .keyInvalid =>
    { failures := w.failures + 1
      sinceDelay := w.sinceDelay + 1
      owed := info.numFailedSecurityAccess.toNat ≤ w.failures + 1 }

def observe : Input → Watch
  | .request req _ => w.keyCompared info (verdict cfg info s req)
  | .delayExpired requestSeedId =>
    if requestSeedId = info.requestSeedId ∧ isComplete info (s.delayTimers requestSeedId) then
      w.delayPassed
    else w
  | .sharedDelayExpired => if isComplete info s.delayTimer then w.delayPassed else w
  | .restart => w
  | .sessionChange _ _ => w

variable (state : ServiceX27 × Watch)

def watchedStep (input : Input) : Option (ServiceX27 × Watch) :=
  some (state.1.next cfg input, observe cfg info state.1 state.2 input)

/-- All requests for the instance get a negative response and change nothing. -/
def RefusesRequests : Prop :=
  ∀ req : SecurityAccessRequest, getRealSubfunction req.subfunction = info.requestSeedId →
    ∃ nrc, s.process cfg req = (s, .reject nrc)

/-- At most the configured number of wrong keys is compared without a complete delay, and once
so many have been, the last of them is followed by a delay in which requests are refused. -/
def AttemptsLimited : Prop :=
  state.2.sinceDelay ≤ info.numFailedSecurityAccess.toNat ∧
    (state.2.owed = true → state.1.delayed cfg info = true ∧ RefusesRequests cfg info state.1)

/-- The attempts that start a delay, and the restarts that keep one up: at a wrong key that uses
up the attempts the counter of the instance comes to the configured number exactly, and the
response is sent; at a restart during a delay the stored failures use up the attempts, or the
delay on boot is as long. -/
def DelayKept : Input → Prop
  | .request req t =>
    verdict cfg info state.1 req = some .keyInvalid →
      info.numFailedSecurityAccess.toNat ≤ state.2.failures + 1 →
        t.sendsNegative = true ∧
          state.1.failedCounter info.requestSeedId + 1 = info.numFailedSecurityAccess
  | .restart =>
    state.2.owed = true →
      info.securityDelayTime ≤ cfg.securityDelayTimeOnBoot ∨
        ∃ info' ∈ cfg.instances, (cfg.sharedTimer = true ∨ info' = info) ∧
          exhausted state.1.storage info' = true
  | _ => True

end

/-! ### Timers -/

section

variable {cfg : SecurityAccessConfig} {info : SecurityLevelInfo} {s : ServiceX27}
  {info' : SecurityLevelInfo}

@[simp] theorem isComplete_some (duration : uint32) :
    isComplete info (some duration) = true ↔ info.securityDelayTime ≤ duration := by
  simp [isComplete]

@[simp] theorem isComplete_none : isComplete info none = false := rfl

theorem activeDelayTimer_of_delayed (h : s.delayed cfg info = true) :
    s.activeDelayTimer cfg info = true := by
  unfold activeDelayTimer
  rcases Bool.or_eq_true_iff.mp h with hshared | hown
  · rw [Option.isSome_of_any hshared, Bool.true_or]
  · obtain ⟨hmode, hown⟩ := Bool.and_eq_true_iff.mp hown
    rw [hmode, Option.isSome_of_any hown, Bool.true_and, Bool.or_true]

structure SameTimers (s s' : ServiceX27) : Prop where
  shared : s'.delayTimer = s.delayTimer
  own : s'.delayTimers = s.delayTimers

/-- A confirmation starts the timer of an instance, or it leaves the timers alone. -/
theorem timers_confirm (cfg : SecurityAccessConfig) (s : ServiceX27) (subfunction : uint8)
    (status : ResponseStatusType) :
    SameTimers s (s.confirm cfg subfunction status) ∨
      ∃ info, cfg.find (getRealSubfunction subfunction) = some info ∧
        SameTimers (s.startDelayTimer cfg info) (s.confirm cfg subfunction status) := by
  cases status with
  | resPosOk =>
    refine .inl ?_
    unfold confirm
    cases s.securityLevelState with
    | unlockNoActiveSeed =>
      by_cases h : s.unlockSecurityLevelId = subfunction <;> constructor <;> simp [h]
    | _ => exact ⟨rfl, rfl⟩
  | resNegOk =>
    unfold confirm
    cases hfound : cfg.find (getRealSubfunction subfunction) with
    | none => exact .inl ⟨rfl, rfl⟩
    | some info =>
      by_cases hcount : s.failedCounter info.requestSeedId = info.numFailedSecurityAccess
      · refine .inr ⟨info, rfl, ?_⟩
        unfold startDelayTimer
        by_cases hmode : cfg.sharedTimer = true <;> constructor <;> simp [hcount, hmode]
      · exact .inl (by constructor <;> simp [hcount])
  | _ => exact .inl ⟨rfl, rfl⟩

theorem timers_afterRespond (s : ServiceX27) (subfunction : uint8) (afterwards : Afterwards) :
    SameTimers s (s.afterRespond subfunction afterwards) := by
  cases afterwards <;> exact ⟨rfl, rfl⟩

theorem SameTimers.delayed_eq {s' : ServiceX27} (h : SameTimers s s') :
    s'.delayed cfg info = s.delayed cfg info := by
  unfold delayed
  rw [h.shared, h.own]

theorem delayed_startDelayTimer (hinfo : info ∈ cfg.instances) (hinfo' : info' ∈ cfg.instances)
    (h : s.delayed cfg info = true) : (s.startDelayTimer cfg info').delayed cfg info = true := by
  unfold startDelayTimer
  by_cases hmode : cfg.sharedTimer = true
  · simp [delayed, hmode, cfg.sharedDelay hmode info hinfo info' hinfo']
  · rw [if_neg hmode]
    by_cases hid : info.requestSeedId = info'.requestSeedId
    · obtain rfl := List.inj_on_of_nodup_map cfg.distinct hinfo hinfo' hid
      simp [delayed, hmode]
    · simpa [delayed, Function.update_of_ne hid] using h

theorem delayed_startDelayTimer_self (s : ServiceX27) :
    (s.startDelayTimer cfg info).delayed cfg info = true := by
  unfold startDelayTimer
  by_cases hmode : cfg.sharedTimer = true <;> simp [delayed, hmode]

/-- The own timer of the instance only ever runs for the whole delay. -/
def OwnTimerComplete (info : SecurityLevelInfo) (s : ServiceX27) : Prop :=
  ∀ duration ∈ s.delayTimers info.requestSeedId, info.securityDelayTime ≤ duration

theorem ownTimerComplete_startDelayTimer (hinfo : info ∈ cfg.instances)
    (hinfo' : info' ∈ cfg.instances) (h : OwnTimerComplete info s) :
    OwnTimerComplete info (s.startDelayTimer cfg info') := by
  unfold startDelayTimer
  by_cases hmode : cfg.sharedTimer = true
  · rw [if_pos hmode]
    exact h
  · rw [if_neg hmode]
    by_cases hid : info.requestSeedId = info'.requestSeedId
    · obtain rfl := List.inj_on_of_nodup_map cfg.distinct hinfo hinfo' hid
      simp [OwnTimerComplete]
    · simpa [OwnTimerComplete, Function.update_of_ne hid] using h

end

/-! ### Requests -/

section

variable {cfg : SecurityAccessConfig} {info : SecurityLevelInfo} {s : ServiceX27}
  {req : SecurityAccessRequest} {t : Transmission} {result : KeyCompareResultType}

section

variable (cfg : SecurityAccessConfig) (s : ServiceX27) (req : SecurityAccessRequest)

theorem timers_process : SameTimers s (s.process cfg req).1 := by
  obtain ⟨state, failedCounter, hprocess, -⟩ := process_frame cfg s req
  rw [hprocess]
  exact ⟨rfl, rfl⟩

theorem timers_exchange (t : Transmission) :
    SameTimers s (s.exchange cfg req t) ∨
      ∃ info ∈ cfg.instances, SameTimers (s.startDelayTimer cfg info) (s.exchange cfg req t) := by
  obtain ⟨hshared, hown⟩ := timers_process cfg s req
  obtain ⟨h, h'⟩ := timers_afterRespond ((s.process cfg req).1.confirm cfg req.subfunction
    ((s.process cfg req).2.status req t)) req.subfunction (s.process cfg req).2.afterwards
  obtain ⟨hc, hc'⟩ | ⟨info, hfound, hc, hc'⟩ := timers_confirm cfg (s.process cfg req).1
    req.subfunction ((s.process cfg req).2.status req t)
  · exact .inl ⟨(h.trans hc).trans hshared, (h'.trans hc').trans hown⟩
  · refine .inr ⟨info, cfg.mem_of_find hfound, h.trans (hc.trans ?_), h'.trans (hc'.trans ?_)⟩ <;>
    · unfold startDelayTimer
      by_cases hmode : cfg.sharedTimer = true <;> simp [hmode, hshared, hown]

end

variable (hinfo : info ∈ cfg.instances)

include hinfo

theorem delayed_exchange (h : s.delayed cfg info = true) :
    (s.exchange cfg req t).delayed cfg info = true := by
  obtain hsame | ⟨info', hinfo', hsame⟩ := timers_exchange cfg s req t
  · rw [hsame.delayed_eq, h]
  · rw [hsame.delayed_eq]
    exact delayed_startDelayTimer hinfo hinfo' h

theorem ownTimerComplete_exchange (h : OwnTimerComplete info s) :
    OwnTimerComplete info (s.exchange cfg req t) := by
  unfold OwnTimerComplete
  obtain ⟨-, hown⟩ | ⟨info', hinfo', -, hown⟩ := timers_exchange cfg s req t
  · rw [hown]
    exact h
  · rw [hown]
    exact ownTimerComplete_startDelayTimer hinfo hinfo' h

theorem keyCompared_of_verdict (h : verdict cfg info s req = some result) :
    KeyCompared cfg s req info ∧ (s.compareKey info req).2.comparedKey = some result := by
  unfold verdict at h
  split_ifs at h with hid
  obtain ⟨info', hcompared⟩ := exists_keyCompared h
  have hfound := hcompared.found
  rw [hid, find_of_mem hinfo] at hfound
  cases hfound
  rw [hcompared.process_eq] at h
  exact ⟨hcompared, h⟩

theorem not_delayed_of_verdict (h : verdict cfg info s req = some result) :
    s.delayed cfg info = false := by
  have hactive := (keyCompared_of_verdict hinfo h).1.noDelay
  by_contra hdelayed
  rw [activeDelayTimer_of_delayed (eq_true_of_ne_false hdelayed)] at hactive
  cases hactive.symm

theorem refusesRequests_of_delayed (h : s.delayed cfg info = true) :
    RefusesRequests cfg info s := by
  intro req hid
  unfold process
  split_ifs with hlength
  · exact ⟨_, rfl⟩
  · rw [hid, find_of_mem hinfo]
    cases req.refusal with
    | some nrc => exact ⟨nrc, rfl⟩
    | none =>
      simp only [activeDelayTimer_of_delayed h]
      exact ⟨_, rfl⟩

/-- A wrong key is followed by a delay if it brings the counter to the configured number exactly
and the response is sent. -/
theorem delayed_exchange_iff (h : verdict cfg info s req = some .keyInvalid) :
    (s.exchange cfg req t).delayed cfg info = true ↔
      t.sendsNegative = true ∧
        s.failedCounter info.requestSeedId + 1 = info.numFailedSecurityAccess := by
  obtain ⟨hcompared, hresult⟩ := keyCompared_of_verdict hinfo h
  obtain ⟨hfailed, nrc, hresponse⟩ := compareKey_of_keyInvalid hresult
  have hnone := not_delayed_of_verdict hinfo h
  have hcount : (s.countFailure info).failedCounter info.requestSeedId =
      s.failedCounter info.requestSeedId + 1 := Function.update_self ..
  have hexchange : (s.exchange cfg req t).delayed cfg info =
      ((s.countFailure info).confirm cfg req.subfunction
        (t.respond 0x27 req.subfunctionByte (.negative nrc))).delayed cfg info := by
    simp only [exchange, finish, Reply.status, hcompared.process_eq, hfailed, hresponse]
    exact (timers_afterRespond ..).delayed_eq
  rw [hexchange, ← Transmission.respond_negative_eq_resNegOk t 0x27 req.subfunctionByte nrc]
  have hsame : (s.countFailure info).delayed cfg info = false := hnone
  cases hstatus : t.respond 0x27 req.subfunctionByte (.negative nrc) with
  | resNegOk =>
    unfold confirm
    rw [hcompared.found]
    by_cases hexact : s.failedCounter info.requestSeedId + 1 = info.numFailedSecurityAccess
    · have hequal : (s.countFailure info).failedCounter info.requestSeedId =
          info.numFailedSecurityAccess := hcount.trans hexact
      exact iff_of_true (by simp [hequal, delayed_startDelayTimer_self]) ⟨rfl, hexact⟩
    · have hdiffer : (s.countFailure info).failedCounter info.requestSeedId ≠
          info.numFailedSecurityAccess := hcount ▸ hexact
      refine iff_of_false ?_ fun h => hexact h.2
      simp only [if_neg hdiffer]
      exact Bool.not_eq_true _ ▸ hsame
  | resPosOk => exact absurd hstatus (t.respond_negative_ne_resPosOk 0x27 _ nrc)
  | _ => simp [confirm, hsame]

end

/-! ### Restarts -/

section

variable {cfg : SecurityAccessConfig} {info : SecurityLevelInfo} {storage : uint8 → uint32}
  (delay : uint32)

theorem le_longerDelay_iff (duration securityDelayTime : uint32) :
    delay ≤ longerDelay duration securityDelayTime ↔
      delay ≤ duration ∨ delay ≤ securityDelayTime := by
  unfold longerDelay
  split_ifs with h <;> grind

theorem le_foldl_longerDelay_iff (raises : SecurityLevelInfo → Bool)
    (instances : List SecurityLevelInfo) (duration : uint32) :
    delay ≤ instances.foldl (fun duration info =>
        if raises info then longerDelay duration info.securityDelayTime else duration) duration ↔
      delay ≤ duration ∨
        ∃ info ∈ instances, raises info = true ∧ delay ≤ info.securityDelayTime := by
  induction instances generalizing duration with
  | nil => simp
  | cons info instances ih =>
    rw [List.foldl_cons, ih]
    by_cases hraises : raises info = true
    · simp [hraises, le_longerDelay_iff, or_assoc]
    · simp [hraises]

theorem isComplete_bootingDelay_iff :
    isComplete info (start cfg storage).delayTimer = true ↔
      info.securityDelayTime ≤ cfg.securityDelayTimeOnBoot ∨
        ∃ info' ∈ cfg.instances, (exhausted storage info' && cfg.sharedTimer) = true ∧
          info.securityDelayTime ≤ info'.securityDelayTime :=
  (isComplete_some _).trans (le_foldl_longerDelay_iff info.securityDelayTime
    (fun info' => exhausted storage info' && cfg.sharedTimer) cfg.instances
    cfg.securityDelayTimeOnBoot)

theorem isComplete_start_iff (hinfo : info ∈ cfg.instances) (hmode : cfg.sharedTimer = false) :
    isComplete info ((start cfg storage).delayTimers info.requestSeedId) = true ↔
      exhausted storage info = true := by
  simp only [start, find_of_mem hinfo, Option.bind_some, hmode, Bool.not_false, Bool.and_true]
  split_ifs with hexhausted
  · simp [le_longerDelay_iff, hexhausted]
  · simp [hexhausted]

theorem delayed_start_iff (hinfo : info ∈ cfg.instances) :
    (start cfg storage).delayed cfg info = true ↔
      info.securityDelayTime ≤ cfg.securityDelayTimeOnBoot ∨
        ∃ info' ∈ cfg.instances, (cfg.sharedTimer = true ∨ info' = info) ∧
          exhausted storage info' = true := by
  unfold delayed
  rw [Bool.or_eq_true_iff, isComplete_bootingDelay_iff, Bool.and_eq_true_iff]
  cases hmode : cfg.sharedTimer with
  | true =>
    have hdelay : ∀ info' ∈ cfg.instances, info.securityDelayTime ≤ info'.securityDelayTime :=
      fun info' hinfo' => BitVec.le_of_eq (cfg.sharedDelay hmode info hinfo info' hinfo')
    simp only [Bool.and_true, Bool.not_true, Bool.false_eq_true, false_and, or_false, true_or,
      true_and]
    refine or_congr_right (exists_congr fun info' => ?_)
    exact and_congr_right fun hinfo' => and_iff_left (hdelay info' hinfo')
  | false =>
    rw [isComplete_start_iff hinfo hmode]
    simp only [Bool.and_false, Bool.false_eq_true, false_and, and_false, exists_false, or_false,
      Bool.not_false, true_and, false_or]
    refine or_congr_right ⟨fun h => ⟨info, hinfo, rfl, h⟩, ?_⟩
    rintro ⟨info', -, rfl, h⟩
    exact h

theorem ownTimerComplete_start (hinfo : info ∈ cfg.instances) :
    OwnTimerComplete info (start cfg storage) := by
  intro duration hduration
  simp only [start, find_of_mem hinfo, Option.bind_some] at hduration
  split_ifs at hduration
  · cases hduration
    exact (le_longerDelay_iff ..).mpr (.inr (BitVec.le_refl _))
  · cases hduration

end

/-! ### Runs -/

section

variable {cfg : SecurityAccessConfig} {info : SecurityLevelInfo}

/-- The invariant behind `AttemptsLimited`. -/
structure Limited (cfg : SecurityAccessConfig) (info : SecurityLevelInfo) (s : ServiceX27)
    (w : Watch) : Prop where
  ownTimer : OwnTimerComplete info s
  since_le_failures : w.sinceDelay ≤ w.failures
  since_le_attempts : w.sinceDelay ≤ info.numFailedSecurityAccess.toNat
  owed_of_since : info.numFailedSecurityAccess.toNat ≤ w.sinceDelay → w.owed = true
  delayed_of_owed : w.owed = true → s.delayed cfg info = true

namespace Limited

variable {s s' : ServiceX27} {w : Watch}

theorem of_delayed (h : Limited cfg info s w) (hown : OwnTimerComplete info s')
    (hdelayed : w.owed = true → s.delayed cfg info = true → s'.delayed cfg info = true) :
    Limited cfg info s' w where
  ownTimer := hown
  since_le_failures := h.since_le_failures
  since_le_attempts := h.since_le_attempts
  owed_of_since := h.owed_of_since
  delayed_of_owed howed := hdelayed howed (h.delayed_of_owed howed)

variable (hattempts : 0 < info.numFailedSecurityAccess.toNat)

include hattempts

/-- A right key or a complete delay lets the count begin again. -/
theorem fresh (hown : OwnTimerComplete info s) (hsince : w.sinceDelay = 0) (howed : w.owed = false) :
    Limited cfg info s w where
  ownTimer := hown
  since_le_failures := hsince ▸ Nat.zero_le _
  since_le_attempts := hsince ▸ Nat.zero_le _
  owed_of_since h := absurd (hsince ▸ h) (Nat.not_le.mpr hattempts)
  delayed_of_owed h := absurd (howed.symm.trans h) Bool.false_ne_true

theorem request {req : SecurityAccessRequest} {t : Transmission} (h : Limited cfg info s w)
    (hinfo : info ∈ cfg.instances) (hkept : DelayKept cfg info (s, w) (.request req t)) :
    Limited cfg info (s.exchange cfg req t) (w.keyCompared info (verdict cfg info s req)) := by
  have hown : OwnTimerComplete info (s.exchange cfg req t) :=
    ownTimerComplete_exchange hinfo h.ownTimer
  cases hverdict : verdict cfg info s req with
  | none => exact h.of_delayed hown fun _ hdelayed => delayed_exchange hinfo hdelayed
  | some result =>
    cases result with
    | keyValid => exact fresh hattempts hown rfl rfl
    | keyInvalid =>
      -- a key is compared only without a delay, so the attempts were not used up
      have howed : w.owed = false := by
        by_contra howed
        have hdelayed := h.delayed_of_owed (eq_true_of_ne_false howed)
        rw [not_delayed_of_verdict hinfo hverdict] at hdelayed
        cases hdelayed
      have hroom : w.sinceDelay < info.numFailedSecurityAccess.toNat := by
        by_contra hfull
        rw [h.owed_of_since (Nat.not_lt.mp hfull)] at howed
        cases howed.symm
      have hcounts := Nat.succ_le_succ h.since_le_failures
      refine ⟨hown, hcounts, hroom, fun hsince => ?_, fun howed => ?_⟩
      · exact decide_eq_true (Nat.le_trans hsince hcounts)
      · exact (delayed_exchange_iff hinfo hverdict).mpr (hkept hverdict (of_decide_eq_true howed))

theorem delayExpired (h : Limited cfg info s w) (requestSeedId : uint8) :
    Limited cfg info (s.handleDelayTimer requestSeedId)
      (observe cfg info s w (.delayExpired requestSeedId)) := by
  by_cases hid : requestSeedId = info.requestSeedId
  · subst hid
    have hidle : (s.handleDelayTimer info.requestSeedId).delayTimers info.requestSeedId = none :=
      Function.update_self ..
    have hown : OwnTimerComplete info (s.handleDelayTimer info.requestSeedId) := by
      intro duration hduration
      rw [hidle] at hduration
      cases hduration
    by_cases hpassed : isComplete info (s.delayTimers info.requestSeedId) = true
    · simp only [observe, hpassed]
      exact fresh hattempts hown rfl rfl
    · simp only [observe, hpassed]
      refine h.of_delayed hown fun _ hdelayed => ?_
      -- the delay that runs is that of the shared timer
      simp only [delayed, hpassed, Bool.and_false] at hdelayed
      simp [delayed, handleDelayTimer, hdelayed]
  · have hother : (s.handleDelayTimer requestSeedId).delayTimers info.requestSeedId =
        s.delayTimers info.requestSeedId := Function.update_of_ne (Ne.symm hid) ..
    simp only [observe, hid]
    refine h.of_delayed (fun duration hduration => ?_) fun _ hdelayed => ?_
    · exact h.ownTimer duration (hother ▸ hduration)
    · unfold delayed at hdelayed ⊢
      rw [hother]
      exact hdelayed

theorem sharedDelayExpired (h : Limited cfg info s w) :
    Limited cfg info s.handleSharedDelayTimer (observe cfg info s w .sharedDelayExpired) := by
  by_cases hpassed : isComplete info s.delayTimer = true
  · simp only [observe, hpassed]
    exact fresh hattempts h.ownTimer rfl rfl
  · simp only [observe, hpassed]
    refine h.of_delayed h.ownTimer fun _ hdelayed => ?_
    simpa [delayed, handleSharedDelayTimer, hpassed] using hdelayed

theorem next (h : Limited cfg info s w) (hinfo : info ∈ cfg.instances) {input : Input}
    (hkept : DelayKept cfg info (s, w) input) :
    Limited cfg info (s.next cfg input) (observe cfg info s w input) := by
  cases input with
  | request req t => exact h.request hattempts hinfo hkept
  | delayExpired requestSeedId => exact h.delayExpired hattempts requestSeedId
  | sharedDelayExpired => exact h.sharedDelayExpired hattempts
  | restart =>
    exact h.of_delayed (ownTimerComplete_start hinfo) fun howed _ =>
      (delayed_start_iff hinfo).mpr (hkept howed)
  | sessionChange oldSession newSession => exact h.of_delayed h.ownTimer fun _ hdelayed => hdelayed

end Limited

theorem delayKept_of_attemptsLimited (hinfo : info ∈ cfg.instances) {s : ServiceX27} {w : Watch}
    {input : Input}
    (h : AttemptsLimited cfg info (s.next cfg input, observe cfg info s w input)) :
    DelayKept cfg info (s, w) input := by
  obtain ⟨-, howed⟩ := h
  cases input with
  | request req t =>
    intro hverdict hfailures
    refine (delayed_exchange_iff hinfo hverdict).mp (howed ?_).1
    simp [observe, hverdict, Watch.keyCompared, hfailures]
  | restart => exact fun h => (delayed_start_iff hinfo).mp (howed h).1
  | delayExpired requestSeedId | sharedDelayExpired | sessionChange oldSession newSession => trivial

/-- From the first start of the server on, the wrong keys for an instance are limited in a run
precisely if each step keeps up the delay. -/
theorem attemptsLimited_iff (hinfo : info ∈ cfg.instances)
    (hattempts : 0 < info.numFailedSecurityAccess) (storage : uint8 → uint32)
    (inputs : List Input) :
    Always (watchedStep cfg info) (AttemptsLimited cfg info) (start cfg storage, {}) inputs ↔
      Along (watchedStep cfg info) (DelayKept cfg info) (start cfg storage, {}) inputs := by
  refine always_iff_along_of_strengthening
    (I := fun state : ServiceX27 × Watch => Limited cfg info state.1 state.2)
    (fun state h => ⟨h.since_le_attempts, fun howed =>
      ⟨h.delayed_of_owed howed, refusesRequests_of_delayed hinfo (h.delayed_of_owed howed)⟩⟩)
    (fun state input h hkept => ⟨_, rfl, h.next hattempts hinfo hkept⟩) ?_
    (Limited.fresh hattempts (ownTimerComplete_start hinfo) rfl rfl)
  intro state input state' _ hstep hlimited
  cases hstep
  exact delayKept_of_attemptsLimited hinfo hlimited

end

/-- One instance with two attempts, a delay of ten seconds and none on boot. -/
def twoAttempts : SecurityAccessConfig where
  instances := [⟨1, 1, 0, 1, 2, 10⟩]
  securityDelayTimeOnBoot := 0
  sharedTimer := false
  distinct := by decide
  sharedDelay h := absurd h Bool.false_ne_true

def wrongAttempt : List Input :=
  [.request { body := [0x27, 1] } {}, .request { body := [0x27, 2, 0] } {}]

theorem attemptsLimited_iff_wrongAttempts :
    (⟨1, 1, 0, 1, 2, 10⟩ ∈ twoAttempts.instances ∧ (0 : uint64) < 2) ∧
      (Always (watchedStep twoAttempts ⟨1, 1, 0, 1, 2, 10⟩)
          (AttemptsLimited twoAttempts ⟨1, 1, 0, 1, 2, 10⟩)
          (start twoAttempts fun _ => 0, {})
          (.sharedDelayExpired :: (wrongAttempt ++ wrongAttempt)) ↔
        Along (watchedStep twoAttempts ⟨1, 1, 0, 1, 2, 10⟩)
          (DelayKept twoAttempts ⟨1, 1, 0, 1, 2, 10⟩)
          (start twoAttempts fun _ => 0, {})
          (.sharedDelayExpired :: (wrongAttempt ++ wrongAttempt))) :=
  ⟨⟨by decide, by decide⟩, attemptsLimited_iff (by decide) (by decide) _ _⟩

/-- After the first delay, and after a restart, wrong keys are compared without a delay. -/
theorem wrong_keys_without_delay :
    ((exec (watchedStep twoAttempts ⟨1, 1, 0, 1, 2, 10⟩) (start twoAttempts fun _ => 0, {})
        (.sharedDelayExpired :: (wrongAttempt ++ wrongAttempt ++ [.delayExpired 1] ++
          wrongAttempt ++ wrongAttempt ++ wrongAttempt))).map fun state =>
      (state.2, state.1.activeDelayTimer twoAttempts ⟨1, 1, 0, 1, 2, 10⟩)) =
        some (⟨5, 3, true⟩, false) ∧
      ((exec (watchedStep twoAttempts ⟨1, 1, 0, 1, 2, 10⟩) (start twoAttempts fun _ => 0, {})
          (.sharedDelayExpired :: (wrongAttempt ++ wrongAttempt ++ [.restart] ++
            [.sharedDelayExpired] ++ wrongAttempt))).map fun state =>
        (state.2, state.1.activeDelayTimer twoAttempts ⟨1, 1, 0, 1, 2, 10⟩)) =
          some (⟨3, 3, true⟩, false) := by
  constructor
  · rfl
  · rfl

end AdaptivePlatform.Diag.ServiceX27
