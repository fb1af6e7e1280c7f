import AdaptivePlatform.Foundations.Runs
import AdaptivePlatform.Diag.SecurityAccess

/-!
# The unlocked security level

A security level may be current only if its key was accepted, directly after a
seed of the same instance, since the last session change; and service 0x27 is
locked precisely if no level is current. Requests of several testers are
handled side by side, so between a request and the confirmation of its response
other requests, confirmations and session changes may come.
-/
namespace AdaptivePlatform.Diag.ServiceX27

open Runs
open SecurityLevelState (isLocked isLocked_dropSeed waitsForKey)
open List.Subset (refl)
open Option (some)

/-- The service with the current session and the responses that wait for their confirmation. What
is observed beside it: the subfunction of the last request, and the levels whose key was accepted
directly after their seed since the last session change. -/
structure Conversation where
  service : ServiceX27
  session : uint8 := 1
  inFlight : List (SecurityAccessRequest × Reply) := []
  previous : Option uint8 := none
  earned : List uint8 := []

namespace Conversation

inductive Input
  | request (req : SecurityAccessRequest)
  | confirmation (index : Nat) (t : Transmission)
  | sessionChange (newSession : uint8)
  | delayExpired (requestSeedId : uint8)
  | sharedDelayExpired

variable (cfg : SecurityAccessConfig) (c : Conversation)

/-- The level that a request earns: its key is accepted, and the request before it asked for the
seed of the same instance. -/
def earns (req : SecurityAccessRequest) : Option uint8 :=
  if (c.service.process cfg req).2.comparedKey = some .keyValid ∧
      c.previous = some (getRealSubfunction req.subfunction) then
    (cfg.find (getRealSubfunction req.subfunction)).map (·.id)
  else none

def next : Input → Conversation
  | .request req =>
    { c with
      service := (c.service.process cfg req).1
      inFlight := c.inFlight ++ [(req, (c.service.process cfg req).2)]
      previous := some req.subfunction
      earned := (c.earns cfg req).toList ++ c.earned }
  | .confirmation index t =>
    match c.inFlight[index]? with
    | none => c
    | some (req, reply) =>
      { c with
        service := c.service.finish cfg req reply t
        inFlight := c.inFlight.eraseIdx index }
  | .sessionChange newSession =>
    { c with
      service := c.service.sessionChange c.session newSession
      session := newSession
      previous := none
      earned := [] }
  | .delayExpired requestSeedId => { c with service := c.service.handleDelayTimer requestSeedId }
  | .sharedDelayExpired => { c with service := c.service.handleSharedDelayTimer }

def step (input : Input) : Option Conversation := some (c.next cfg input)

/-- A level that is current was earned, and the state is locked precisely if none is current. -/
def LevelEarned : Prop :=
  (c.service.currentSecurityLevel ≠ 0 → c.service.currentSecurityLevel ∈ c.earned) ∧
    (c.service.securityLevelState.isLocked = true ↔ c.service.currentSecurityLevel = 0)

/-- A positive response that is sent while the service waits for a key is the answer to a key
whose seed identifier is a level that was earned; and a session that is current is not entered
again while a level is unlocked, the default session apart. -/
def UnlocksEarned : Input → Prop
  | .confirmation index t =>
    ∀ req reply, c.inFlight[index]? = some (req, reply) →
      reply.status req t = .resPosOk →
        c.service.securityLevelState.waitsForKey = true →
          getRealSubfunction req.subfunction ∈ c.earned
  | .sessionChange newSession =>
    c.session = newSession → newSession ≠ 1 → c.service.currentSecurityLevel = 0
  | _ => True

end Conversation

/-! ### Confirmations -/

theorem getRealSubfunction_ne_zero (subfunction : uint8) :
    getRealSubfunction subfunction ≠ 0#8 := by
  unfold getRealSubfunction
  split_ifs <;> bv_omega

section

variable (s : ServiceX27) (subfunction : uint8) (afterwards : Afterwards)

@[simp] theorem securityLevelState_afterRespond :
    (s.afterRespond subfunction afterwards).securityLevelState = s.securityLevelState := by
  cases afterwards <;> rfl

@[simp] theorem currentSecurityLevel_afterRespond :
    (s.afterRespond subfunction afterwards).currentSecurityLevel = s.currentSecurityLevel := by
  cases afterwards <;> rfl

end

variable (cfg : SecurityAccessConfig)

@[simp] theorem securityLevelState_startDelayTimer (s : ServiceX27) (info : SecurityLevelInfo) :
    (s.startDelayTimer cfg info).securityLevelState = s.securityLevelState := by
  unfold startDelayTimer
  split_ifs <;> rfl

@[simp] theorem currentSecurityLevel_startDelayTimer (s : ServiceX27) (info : SecurityLevelInfo) :
    (s.startDelayTimer cfg info).currentSecurityLevel = s.currentSecurityLevel := by
  unfold startDelayTimer
  split_ifs <;> rfl

section

variable (cfg : SecurityAccessConfig) (s : ServiceX27) (subfunction : uint8)

/-- A positive response that is sent while the service waits for a key unlocks the level with the
number of the seed. -/
theorem confirm_unlocks (hwait : s.securityLevelState.waitsForKey = true) :
    (s.confirm cfg subfunction .resPosOk).securityLevelState = .unlockNoActiveSeed ∧
      (s.confirm cfg subfunction .resPosOk).currentSecurityLevel =
        getRealSubfunction subfunction := by
  unfold confirm
  cases hstate : s.securityLevelState with
  | lockActiveSeedWaitKey | unlockActiveSeedWaitKey => exact ⟨rfl, rfl⟩
  | lockNoActiveSeed | unlockNoActiveSeed => simp [hstate, waitsForKey] at hwait

theorem confirm_resNegOk :
    (s.confirm cfg subfunction .resNegOk).securityLevelState = s.securityLevelState.dropSeed ∧
      (s.confirm cfg subfunction .resNegOk).currentSecurityLevel = s.currentSecurityLevel := by
  unfold confirm
  cases cfg.find (getRealSubfunction subfunction) with
  | none => exact ⟨rfl, rfl⟩
  | some info =>
    by_cases hcount : s.failedCounter info.requestSeedId = info.numFailedSecurityAccess <;>
      simp [hcount]

/-- Any other confirmation leaves the level as it is, and the state locked or unlocked. -/
theorem confirm_keeps (status : ResponseStatusType)
    (h : status = .resPosOk → s.securityLevelState.waitsForKey = false) :
    (s.confirm cfg subfunction status).securityLevelState.isLocked =
        s.securityLevelState.isLocked ∧
      (s.confirm cfg subfunction status).currentSecurityLevel = s.currentSecurityLevel := by
  cases status with
  | resPosOk =>
    have hidle := h rfl
    unfold confirm
    cases hstate : s.securityLevelState with
    | lockNoActiveSeed => exact ⟨rfl, rfl⟩
    | unlockNoActiveSeed =>
      by_cases hsame : s.unlockSecurityLevelId = subfunction <;>
        simp [hsame, hstate, isLocked]
    | lockActiveSeedWaitKey => simp [hstate, waitsForKey] at hidle
    | unlockActiveSeedWaitKey => simp [hstate, waitsForKey] at hidle
  | resNegOk =>
    obtain ⟨hstate, hlevel⟩ := confirm_resNegOk cfg s subfunction
    exact ⟨by rw [hstate, isLocked_dropSeed], hlevel⟩
  | _ => exact ⟨rfl, rfl⟩

end

/-! ### Runs -/

namespace Conversation

variable {cfg : SecurityAccessConfig} {c : Conversation}

theorem LevelEarned.congr {c' : Conversation} (h : LevelEarned c)
    (hlevel : c'.service.currentSecurityLevel = c.service.currentSecurityLevel)
    (hlocked : c'.service.securityLevelState.isLocked = c.service.securityLevelState.isLocked)
    (hearned : c.earned ⊆ c'.earned) : LevelEarned c' := by
  obtain ⟨hmem, hiff⟩ := h
  refine ⟨fun hne => ?_, ?_⟩
  · rw [hlevel] at hne ⊢
    exact hearned (hmem hne)
  · rw [hlevel, hlocked]
    exact hiff

theorem levelEarned_finish_iff (h : LevelEarned c) (req : SecurityAccessRequest) (reply : Reply)
    (t : Transmission) (inFlight : List (SecurityAccessRequest × Reply)) :
    LevelEarned { c with service := c.service.finish cfg req reply t, inFlight := inFlight } ↔
      (reply.status req t = .resPosOk → c.service.securityLevelState.waitsForKey = true →
        getRealSubfunction req.subfunction ∈ c.earned) := by
  by_cases hunlock : reply.status req t = .resPosOk ∧
      c.service.securityLevelState.waitsForKey = true
  · obtain ⟨hstatus, hwait⟩ := hunlock
    obtain ⟨hstate, hlevel⟩ := confirm_unlocks cfg c.service req.subfunction hwait
    have hne := getRealSubfunction_ne_zero req.subfunction
    simp [LevelEarned, finish, hstatus, hwait, hstate, hlevel, hne, isLocked]
  · obtain ⟨hlocked, hlevel⟩ := confirm_keeps cfg c.service req.subfunction (reply.status req t)
      fun hstatus => eq_false_of_ne_true fun hwait => hunlock ⟨hstatus, hwait⟩
    refine iff_of_true (h.congr ?_ ?_ (refl _)) fun hstatus hwait => ?_
    · simp [finish, hlevel]
    · simp [finish, hlocked]
    · exact absurd ⟨hstatus, hwait⟩ hunlock

theorem levelEarned_confirmation_iff (h : LevelEarned c) (index : Nat) (t : Transmission) :
    LevelEarned (c.next cfg (.confirmation index t)) ↔ UnlocksEarned c (.confirmation index t) := by
  unfold UnlocksEarned
  cases hreply : c.inFlight[index]? with
  | none => simpa [next, hreply] using h
  | some pair =>
    obtain ⟨req, reply⟩ := pair
    have hnext : c.next cfg (.confirmation index t) =
        { c with service := c.service.finish cfg req reply t
                 inFlight := c.inFlight.eraseIdx index } := by simp [next, hreply]
    rw [hnext, levelEarned_finish_iff h]
    refine ⟨fun h req' reply' hpair => ?_, fun h => h req reply hreply⟩
    cases (hreply.symm.trans hpair)
    exact h

theorem levelEarned_sessionChange_iff (newSession : uint8) :
    LevelEarned (c.next cfg (.sessionChange newSession)) ↔
      UnlocksEarned c (.sessionChange newSession) := by
  unfold LevelEarned UnlocksEarned
  simp only [next, sessionChange, isLocked, true_iff]
  by_cases hchange : c.session ≠ newSession ∨ newSession = 1
  · have hfree : c.session = newSession → newSession ≠ 1 → c.service.currentSecurityLevel = 0 := by
      intro hsame hother
      rcases hchange with h | h
      · exact absurd hsame h
      · exact absurd h hother
    simp only [hchange, if_true, ne_eq, not_true, false_imp_iff, and_self, true_iff]
    exact hfree
  · obtain ⟨hsame, hother⟩ := not_or.mp hchange
    simp only [hchange]
    constructor
    · rintro ⟨-, hzero⟩ - -
      exact hzero
    · intro hfree
      have hzero := hfree (not_not.mp hsame) hother
      exact ⟨fun hne => absurd hzero hne, hzero⟩

theorem levelEarned_request (h : LevelEarned c) (req : SecurityAccessRequest) :
    LevelEarned (c.next cfg (.request req)) := by
  obtain ⟨state, failedCounter, hprocess, hlocked⟩ := process_frame cfg c.service req
  refine h.congr ?_ ?_ (List.subset_append_right _ _)
  · simp [next, hprocess]
  · simp [next, hprocess, hlocked]

theorem levelEarned_next_iff (h : LevelEarned c) (input : Input) :
    LevelEarned (c.next cfg input) ↔ UnlocksEarned c input := by
  cases input with
  | request req => exact iff_of_true (levelEarned_request h req) trivial
  | confirmation index t => exact levelEarned_confirmation_iff h index t
  | sessionChange newSession => exact levelEarned_sessionChange_iff newSession
  | delayExpired requestSeedId | sharedDelayExpired =>
    exact iff_of_true (h.congr rfl rfl (refl _)) trivial

/-- From the start of the server on, the level is an earned one and agrees with the state in a
run precisely if every confirmation and session change allows it. -/
theorem levelEarned_iff (cfg : SecurityAccessConfig) (storage : uint8 → uint32)
    (inputs : List Input) :
    Always (step cfg) LevelEarned { service := start cfg storage } inputs ↔
      Along (step cfg) UnlocksEarned { service := start cfg storage } inputs := by
  refine always_iff_along (J := fun _ => True) (fun _ _ _ _ _ _ => trivial)
    (fun c input _ h => ?_) trivial ⟨fun h => absurd rfl h, iff_of_true rfl rfl⟩
  simpa [step] using levelEarned_next_iff h input

def twoLevels : SecurityAccessConfig where
  instances := [⟨1, 1, 0, 1, 3, 10⟩, ⟨3, 2, 0, 1, 3, 10⟩]
  securityDelayTimeOnBoot := 0
  sharedTimer := false
  distinct := by decide
  sharedDelay h := absurd h Bool.false_ne_true

def outcome (inputs : List Input) : Option (SecurityLevelState × uint8 × List uint8) :=
  (exec (step twoLevels) { service := start twoLevels fun _ => 0 }
    (.sharedDelayExpired :: inputs)).map fun c =>
      (c.service.securityLevelState, c.service.currentSecurityLevel, c.earned)

def askSeed (requestSeedId : uint8) : Input := .request { body := [0x27, requestSeedId] }

def sendRightKey (subfunction : uint8) : Input :=
  .request { body := [0x27, subfunction, 0], compareKey := .ok .keyValid }

/-- The key of level 2 unlocks level 3; a level outlives the entry into its own session, though
the state is locked; and the seeds of two testers unlock a level without a key. -/
theorem unearned_levels :
    outcome [askSeed 3, .confirmation 0 {}, sendRightKey 4, .confirmation 0 {}] =
        some (.unlockNoActiveSeed, 3, [2]) ∧
      outcome [.sessionChange 3, askSeed 1, .confirmation 0 {}, sendRightKey 2,
        .confirmation 0 {}, .sessionChange 3] = some (.lockNoActiveSeed, 1, []) ∧
      outcome [askSeed 1, askSeed 3, .confirmation 0 {}, .confirmation 0 {}] =
        some (.unlockNoActiveSeed, 3, []) := by
  refine ⟨?_, ?_, ?_⟩
  · rfl
  · rfl
  · rfl

/-! ### One tester -/

/-- A response is negative, or it is the seed of zeros of the level that is unlocked, a seed, or
the answer to the right key. -/
inductive Answer (req : SecurityAccessRequest) (s : ServiceX27) (reply : Reply) : Prop
  | negative {nrc} (h : reply.response = .negative nrc)
  | zeroSeed (h : s.isUnlocked req.subfunction = true)
      (hreply : reply = ServiceX27.zeroSeed req.subfunction)
  | seed (hidle : s.securityLevelState.waitsForKey = false)
      (hseed : isRequestSeed req.subfunction = true) (hafter : reply.afterwards = .seedSent)
  | key {body} (hwait : s.securityLevelState.waitsForKey = true)
      (hresponse : reply.response = .positive body) (h : reply.comparedKey = some .keyValid)

section

variable {s : ServiceX27} {info : SecurityLevelInfo} {req : SecurityAccessRequest} {reply : Reply}

theorem answer_handlerRequestSeed (hidle : s.securityLevelState.waitsForKey = false) :
    Answer req s (s.handlerRequestSeed info req) := by
  unfold handlerRequestSeed
  split_ifs with hunlocked hseed hlength
  · exact .zeroSeed hunlocked rfl
  · exact .negative rfl
  · exact .negative rfl
  · cases req.getSeed with
    | error nrc => exact .negative rfl
    | ok seed => exact .seed hidle (by simpa using hseed) rfl

theorem answer_compareKey (hwait : s.securityLevelState.waitsForKey = true) :
    Answer req (s.compareKey info req).1 (s.compareKey info req).2 := by
  unfold compareKey
  split
  · exact .key hwait rfl rfl
  · exact .negative rfl
  · split_ifs <;> exact .negative rfl

theorem answer_process (cfg : SecurityAccessConfig) (s : ServiceX27)
    (req : SecurityAccessRequest) : Answer req (s.process cfg req).1 (s.process cfg req).2 := by
  unfold process
  split_ifs
  · exact .negative rfl
  split
  · exact .negative rfl
  · exact .negative rfl
  · unfold handlerState handlerSeedKey
    split_ifs with _ hwait hunlocked
    · exact .negative rfl
    · exact .zeroSeed hunlocked rfl
    · exact answer_handlerRequestSeed (SecurityLevelState.waitsForKey_dropSeed _)
    · exact .negative rfl
    · exact .negative rfl
    · exact answer_compareKey hwait
    · exact answer_handlerRequestSeed (eq_false_of_ne_true hwait)

theorem status_of_negative {nrc : NrcErrc} (h : reply.response = .negative nrc) :
    reply.status req {} = .resNegOk := by
  simp [Reply.status, Transmission.respond, h]

theorem status_of_positive {body : List uint8} (h : reply.response = .positive body) :
    reply.status req {} = .resPosOk := by
  simp [Reply.status, Transmission.respond, h, Transmission.suppressPositive,
    Transmission.supportSubfunctionSidTable]

theorem Answer.keyValid (h : Answer req s reply) (hstatus : reply.status req {} = .resPosOk)
    (hwait : s.securityLevelState.waitsForKey = true) : reply.comparedKey = some .keyValid := by
  cases h with
  | negative h => cases (status_of_negative h).symm.trans hstatus
  | zeroSeed h => simp_all [isUnlocked, waitsForKey]
  | seed hidle => cases hidle.symm.trans hwait
  | key _ _ h => exact h

/-- The service waits for a key only after a seed. -/
theorem Answer.finish (h : Answer req s reply)
    (hwait : (s.finish cfg req reply {}).securityLevelState.waitsForKey = true) :
    (s.finish cfg req reply {}).lastSubfunction = req.subfunction ∧
      isRequestSeed req.subfunction = true := by
  simp only [ServiceX27.finish, securityLevelState_afterRespond] at hwait
  cases h with
  | negative h =>
    simp [status_of_negative h, (confirm_resNegOk cfg s req.subfunction).1] at hwait
  | zeroSeed h hreply =>
    rw [hreply, status_of_positive rfl] at hwait
    simp_all [isUnlocked, confirm, waitsForKey]
  | seed hidle hseed hafter =>
    rw [ServiceX27.finish, hafter]
    exact ⟨rfl, hseed⟩
  | key hkey hresponse =>
    rw [status_of_positive hresponse, (confirm_unlocks cfg s req.subfunction hkey).1] at hwait
    cases hwait

end

def SeedIsLast (c : Conversation) : Prop :=
  c.service.securityLevelState.waitsForKey = true →
    c.previous = some c.service.lastSubfunction ∧ isRequestSeed c.service.lastSubfunction = true

/-- Each request is answered before anything else happens, and the current session is not entered
again while a level is unlocked. -/
def OneTester (c : Conversation) : Input → Prop
  | .confirmation index t => index = 0 ∧ t = {}
  | .sessionChange newSession => c.inFlight = [] ∧ UnlocksEarned c (.sessionChange newSession)
  | _ => c.inFlight = []

/-- Nothing is in flight, or the answer to the last request. -/
inductive Orderly (c : Conversation) : Prop
  | idle (hnone : c.inFlight = []) (hlast : SeedIsLast c)
  | answering {req reply} (hflight : c.inFlight = [(req, reply)])
      (hprevious : c.previous = some req.subfunction) (hanswer : Answer req c.service reply)
      (hearned : reply.comparedKey = some .keyValid →
        getRealSubfunction req.subfunction ∈ c.earned)

theorem Orderly.seedIsLast (h : Orderly c) (hnone : c.inFlight = []) : SeedIsLast c := by
  cases h with
  | idle _ hlast => exact hlast
  | answering hflight => cases hflight.symm.trans hnone

theorem Orderly.unlocksEarned (h : Orderly c) {input : Input} (hone : OneTester c input) :
    UnlocksEarned c input := by
  cases input with
  | confirmation index t =>
    obtain ⟨rfl, rfl⟩ := hone
    intro req' reply' hreply hstatus hwait
    cases h with
    | idle hnone => simp [hnone] at hreply
    | answering hflight _ hanswer hearned =>
      cases hflight ▸ hreply
      exact hearned (hanswer.keyValid hstatus hwait)
  | sessionChange newSession => exact hone.2
  | _ => trivial

section

variable (hids : ∀ info ∈ cfg.instances, info.id = info.requestSeedId)

include hids

theorem earns_of_keyValid (hlast : SeedIsLast c) {req : SecurityAccessRequest}
    (h : (c.service.process cfg req).2.comparedKey = some .keyValid) :
    c.earns cfg req = some (getRealSubfunction req.subfunction) := by
  obtain ⟨info, hcompared⟩ := exists_keyCompared h
  obtain ⟨hprevious, hseed⟩ := hlast hcompared.waiting
  have hfollows := hcompared.follows
  have hkey := hcompared.isKey
  have hreal : getRealSubfunction req.subfunction = c.service.lastSubfunction := by
    simp only [isRequestSeed, bne_iff_ne] at hseed hkey
    unfold getRealSubfunction
    rw [if_neg (by omega)]
    bv_omega
  have hid : info.id = getRealSubfunction req.subfunction :=
    (hids info (cfg.mem_of_find hcompared.found)).trans (cfg.requestSeedId_of_find hcompared.found)
  unfold earns
  rw [if_pos ⟨h, hreal ▸ hprevious⟩, hcompared.found, Option.map_some, hid]

theorem Orderly.kept (h : Orderly c) {input : Input} (hone : OneTester c input) :
    Orderly (c.next cfg input) := by
  cases input with
  | request req =>
    refine .answering (by rw [next, hone]; rfl) rfl (answer_process cfg c.service req)
      fun hkey => ?_
    simp [next, earns_of_keyValid hids (h.seedIsLast hone) hkey]
  | confirmation index t =>
    obtain ⟨rfl, rfl⟩ := hone
    cases h with
    | idle hnone hlast =>
      simpa [next, hnone] using Orderly.idle hnone hlast
    | @answering req reply hflight hprevious hanswer _ =>
      have hnext : c.next cfg (.confirmation 0 {}) =
          { c with service := c.service.finish cfg req reply {}, inFlight := [] } := by
        simp [next, hflight]
      rw [hnext]
      refine .idle rfl fun hwait => ?_
      obtain ⟨hlast, hseed⟩ := hanswer.finish hwait
      exact ⟨by rw [hlast, hprevious], by rw [hlast, hseed]⟩
  | sessionChange newSession => exact .idle hone.1 fun hwait => nomatch hwait
  | delayExpired requestSeedId | sharedDelayExpired => exact .idle hone (h.seedIsLast hone)

theorem unlocksEarned_of_turns {inputs : List Input} (h : Orderly c)
    (hone : Along (step cfg) OneTester c inputs) :
    Along (step cfg) UnlocksEarned c inputs := by
  induction inputs generalizing c with
  | nil => trivial
  | cons input inputs ih =>
    refine ⟨h.unlocksEarned hone.1, ?_⟩
    rintro _ ⟨⟩
    exact ih (h.kept hids hone.1) (hone.2 _ rfl)

end

/-- With a single tester, and with levels numbered by their seed identifiers, a level is only
unlocked by its key. -/
theorem levelEarned_of_oneTester (cfg : SecurityAccessConfig) (storage : uint8 → uint32)
    (hids : ∀ info ∈ cfg.instances, info.id = info.requestSeedId) (inputs : List Input)
    (h : Along (step cfg) OneTester { service := start cfg storage } inputs) :
    Always (step cfg) LevelEarned { service := start cfg storage } inputs := by
  have hstart : Orderly { service := start cfg storage } :=
    .idle rfl fun hwait => absurd hwait Bool.false_ne_true
  refine always_of_along (fun c input hlevel hunlocks => ?_)
    ⟨fun h => absurd rfl h, iff_of_true rfl rfl⟩ (unlocksEarned_of_turns hids hstart h)
  exact ⟨_, rfl, (levelEarned_next_iff hlevel input).mpr hunlocks⟩

def oneLevel : SecurityAccessConfig :=
  { twoLevels with
    instances := [⟨1, 1, 0, 1, 3, 10⟩]
    distinct := by decide
    sharedDelay := fun h => absurd h Bool.false_ne_true }

theorem levelEarned_of_oneTester_unlock :
    Always (step oneLevel) LevelEarned { service := start oneLevel fun _ => 0 }
      [.sharedDelayExpired, askSeed 1, .confirmation 0 {}, sendRightKey 2, .confirmation 0 {},
        .sessionChange 3] :=
  levelEarned_of_oneTester _ _ (by decide) _
    (by simp [Along, step, OneTester, next, askSeed, sendRightKey, UnlocksEarned])

end Conversation

end AdaptivePlatform.Diag.ServiceX27
