import Mathlib.Tactic
import AdaptivePlatform.Foundations.Bytes

/-!
# Detecting that a peer has restarted

A peer numbers its multicast and its unicast service discovery messages with
counters of their own, which skip 0 at the wrap-around and clear the reboot flag
there. The receiver keeps the last session and flag of each channel. A message
with the reboot flag gives the peer away if the session has not grown, or if the
flag had been cleared before. Both channels are then set back, so that the other
one does not report the same restart again.
-/
namespace AdaptivePlatform.Nsomeip

open Function

inductive SdChannel
  | multicast
  | unicast
  deriving DecidableEq, Repr

/-- The session and the reboot flag of a message, or of the last one that was sent. -/
structure SdSession where
  session : uint16 := 0
  reboot : Bool := true

/-- How `nsi_discovery_send` numbers the next message of a channel. -/
def SdSession.next (k : SdSession) : SdSession :=
  if k.session + 1 = 0 then ⟨1, false⟩ else ⟨k.session + 1, k.reboot⟩

/-- What the receiver keeps of a client: bit `n` of `reboot_recv` is `rebootRecv` of its channel. -/
structure SdPeer where
  sinternal : uint16 := 0
  srecv : SdChannel → uint16 := fun _ => 0
  rebootRecv : SdChannel → Bool := fun _ => true

namespace SdPeer

variable (c : SdPeer) (ch : SdChannel) (head : SdSession)

/-- The test of `nsi_discovery_handle_reboot`. -/
def isReboot : Bool := head.reboot && (!c.rebootRecv ch || decide (head.session ≤ c.srecv ch))

/-- The client is rebooted, reset stat. -/
def resetStat : SdPeer := { c with srecv := fun _ => 0, rebootRecv := fun _ => true }

def nextInternal (sinternal : uint16) : uint16 := if sinternal + 1 = 0 then 1 else sinternal + 1

/-- The statements behind `_ok`. -/
def store : SdPeer where
  sinternal := nextInternal c.sinternal
  srecv := Function.update c.srecv ch head.session
  rebootRecv := Function.update c.rebootRecv ch head.reboot

/-- `nsi_discovery_handle_reboot`: whether a reboot is reported. -/
def handleReboot : Bool × SdPeer :=
  if c.isReboot ch head then (true, c.resetStat.store ch head) else (false, c.store ch head)

def handleReboots : SdPeer → List (SdChannel × SdSession) → List Bool × SdPeer
  | c, [] => ([], c)
  | c, m :: ms =>
    let first := c.handleReboot m.1 m.2
    let rest := first.2.handleReboots ms
    (first.1 :: rest.1, rest.2)

end SdPeer

/-! ### Runs of a peer -/

/-- A message that a peer sends to us, which may be lost. -/
structure SdSent where
  channel : SdChannel
  received : Bool

/-- The messages that are received, from the counters `k` of the peer on. -/
def receivedFrom : (SdChannel → SdSession) → List SdSent → List (SdChannel × SdSession)
  | _, [] => []
  | k, s :: rest =>
    let head := (k s.channel).next
    let later := receivedFrom (Function.update k s.channel head) rest
    if s.received then (s.channel, head) :: later else later

/-- What is received of a run: the counters begin anew. -/
def receivedOf (run : List SdSent) : List (SdChannel × SdSession) := receivedFrom (fun _ => {}) run

/-- The client after some runs of its peer, one restart after another. -/
def SdPeer.afterRuns (runs : List (List SdSent)) : SdPeer :=
  runs.foldl (fun c run => (c.handleReboots (receivedOf run)).2) {}

/-! ### What is to be reported -/

/-- The last message of each channel since the last reboot that was reported. -/
abbrev SdSeen := SdChannel → Option SdSession

namespace SdSeen

variable (seen : SdSeen) (m : SdChannel × SdSession)

/-- The session is not above the last one of its channel, or the flag was cleared there. -/
def notAbove : Bool :=
  (seen m.1).any fun last => !last.reboot || decide (m.2.session ≤ last.session)

/-- The same for a message that has the reboot flag. -/
def restarted : Bool := m.2.reboot && seen.notAbove m

def receive : SdSeen := Function.update seen m.1 (some m.2)

/-- Of the messages of a run, the first one that is found by `test` is reported and no other. -/
def firstReported (test : SdSeen → SdChannel × SdSession → Bool) :
    SdSeen → List (SdChannel × SdSession) → List Bool
  | _, [] => []
  | seen, m :: ms =>
    if test seen m then true :: ms.map fun _ => false
    else false :: firstReported test (seen.receive m) ms

/-- What has been seen after the messages of a run. -/
def afterRun : SdSeen → List (SdChannel × SdSession) → SdSeen
  | seen, [] => seen
  | seen, m :: ms =>
    if seen.restarted m then ms.foldl receive (receive (fun _ => none) m)
    else (seen.receive m).afterRun ms

def afterRuns (runs : List (List SdSent)) : SdSeen :=
  runs.foldl (fun seen run => seen.afterRun (receivedOf run)) fun _ => none

end SdSeen

/-! ### The numbers of a channel -/

namespace SdSession

def number (n : ℕ) : SdSession := next^[n] {}

theorem number_succ (n : ℕ) : number (n + 1) = (number n).next := iterate_succ_apply' next n {}

theorem number_spec (n : ℕ) :
    (number (n + 1)).session.toNat = n % 65535 + 1 ∧
      (number (n + 1)).reboot = decide (n + 1 ≤ 65535) := by
  induction n with
  | zero => decide
  | succ n ih =>
    obtain ⟨hsession, hreboot⟩ := ih
    rw [number_succ (n + 1), next]
    split_ifs with hwrap
    · have hmax : (number (n + 1)).session.toNat = 65535 := by bv_omega
      refine ⟨?_, ?_⟩
      · have hone : (1 : uint16).toNat = 1 := rfl
        rw [hone]
        omega
      · have hlarge : ¬ n + 1 + 1 ≤ 65535 := by omega
        exact (decide_eq_false hlarge).symm
    · have hgrown : ((number (n + 1)).session + 1).toNat = n % 65535 + 2 := by bv_omega
      refine ⟨?_, ?_⟩
      · rw [hgrown]
        omega
      · rw [hreboot, decide_eq_decide]
        omega

theorem session_number_ne_zero (n : ℕ) : (number (n + 1)).session ≠ 0 := by
  intro hzero
  have hsession := (number_spec n).1
  rw [hzero] at hsession
  exact absurd hsession.symm (Nat.succ_ne_zero _)

theorem reboot_number {n : ℕ} : (number n).reboot = true ↔ n ≤ 65535 := by
  cases n with
  | zero => decide
  | succ n => rw [(number_spec n).2, decide_eq_true_iff]

theorem session_number {n : ℕ} (h : n ≤ 65535) : (number n).session.toNat = n := by
  cases n with
  | zero => rfl
  | succ n =>
    rw [(number_spec n).1]
    omega

end SdSession

open SdSession

theorem receivedFrom_number_cons (n : SdChannel → ℕ) (s : SdSent) (rest : List SdSent) :
    receivedFrom (fun ch => number (n ch)) (s :: rest) =
      let later := receivedFrom
        (fun ch => number (update n s.channel (n s.channel + 1) ch)) rest
      if s.received then (s.channel, number (n s.channel + 1)) :: later else later := by
  have hcounters : update (fun ch => number (n ch)) s.channel
      (number (n s.channel + 1)) = fun ch => number (update n s.channel (n s.channel + 1) ch) :=
    (comp_update number n s.channel _).symm
  rw [receivedFrom, ← number_succ, hcounters]

namespace SdSeen

variable {seen : SdSeen} {n : SdChannel → ℕ}

/-- What has been seen is from the current run, of which `n` messages were sent. -/
def Current (seen : SdSeen) (n : SdChannel → ℕ) : Prop :=
  ∀ ch last, seen ch = some last → ∃ i ≤ n ch, last = number i

theorem current_none (n : SdChannel → ℕ) : Current (fun _ => none) n := by
  intro ch last h
  cases h

section

variable (h : seen.Current n) (ch : SdChannel)

include h

theorem Current.sent : seen.Current (update n ch (n ch + 1)) := by
  intro ch' last hlast
  obtain ⟨i, hi, rfl⟩ := h ch' last hlast
  refine ⟨i, hi.trans ?_, rfl⟩
  rcases eq_or_ne ch' ch with rfl | hne
  · rw [update_self]
    exact Nat.le_succ _
  · rw [update_of_ne hne]

theorem Current.receive :
    (seen.receive (ch, number (n ch + 1))).Current (update n ch (n ch + 1)) := by
  intro ch' last hlast
  rcases eq_or_ne ch' ch with rfl | hne
  · rw [SdSeen.receive, update_self] at hlast
    refine ⟨n ch' + 1, ?_, (Option.some.inj hlast).symm⟩
    rw [update_self]
  · rw [SdSeen.receive, update_of_ne hne] at hlast
    exact h.sent ch ch' last hlast

/-- Inside a run nothing looks like a restart. -/
theorem Current.not_restarted : seen.restarted (ch, number (n ch + 1)) = false := by
  rw [Bool.eq_false_iff]
  intro hrestarted
  obtain ⟨hflag, hfound⟩ := Bool.and_eq_true_iff.mp hrestarted
  obtain ⟨last, hlast, htest⟩ := Option.any_eq_true _ _ |>.mp hfound
  obtain ⟨i, hi, rfl⟩ := h ch last hlast
  have hlate : n ch + 1 ≤ 65535 := reboot_number.mp hflag
  have hearly : i ≤ 65535 := by omega
  rcases Bool.or_eq_true_iff.mp htest with hcleared | hsession
  · rw [reboot_number.mpr hearly] at hcleared
    cases hcleared
  · have hle : (number (n ch + 1)).session.toNat ≤ (number i).session.toNat :=
      of_decide_eq_true hsession
    rw [session_number hlate, session_number hearly] at hle
    omega

end

end SdSeen

/-! ### The client knows what has been seen -/

namespace SdPeer

/-- The client keeps the last message of each channel. -/
structure Agrees (c : SdPeer) (seen : SdSeen) : Prop where
  srecv : ∀ ch, c.srecv ch = (seen ch).elim 0 SdSession.session
  rebootRecv : ∀ ch, c.rebootRecv ch = (seen ch).elim true SdSession.reboot

variable {c : SdPeer} {seen : SdSeen}

theorem agrees_start : Agrees {} fun _ => none := ⟨fun _ => rfl, fun _ => rfl⟩

theorem agrees_resetStat (c : SdPeer) : Agrees c.resetStat fun _ => none :=
  ⟨fun _ => rfl, fun _ => rfl⟩

theorem Agrees.store (h : c.Agrees seen) (m : SdChannel × SdSession) :
    (c.store m.1 m.2).Agrees (seen.receive m) := by
  constructor <;> intro ch
  · rcases eq_or_ne ch m.1 with rfl | hne
    · simp [SdPeer.store, SdSeen.receive]
    · simp [SdPeer.store, SdSeen.receive, hne, h.srecv]
  · rcases eq_or_ne ch m.1 with rfl | hne
    · simp [SdPeer.store, SdSeen.receive]
    · simp [SdPeer.store, SdSeen.receive, hne, h.rebootRecv]

theorem Agrees.isReboot (h : c.Agrees seen) (ch : SdChannel) {head : SdSession}
    (hpos : head.session ≠ 0) : c.isReboot ch head = seen.restarted (ch, head) := by
  rw [SdPeer.isReboot, SdSeen.restarted, SdSeen.notAbove, h.srecv, h.rebootRecv]
  cases hseen : seen ch with
  | none =>
    -- a channel that has not been seen holds session 0, which no message has
    have hgt : ¬ head.session ≤ 0 := by bv_omega
    change (head.reboot && (false || decide (head.session ≤ 0))) = (head.reboot && false)
    rw [decide_eq_false hgt]
    rfl
  | some last => rfl

theorem Agrees.handleReboots_of_current {n : SdChannel → ℕ} (sent : List SdSent)
    (h : c.Agrees seen) (hcurrent : seen.Current n) :
    let ms := receivedFrom (fun ch => number (n ch)) sent
    (c.handleReboots ms).1 = (ms.map fun _ => false) ∧
      (c.handleReboots ms).2.Agrees (ms.foldl SdSeen.receive seen) := by
  induction sent generalizing c seen n with
  | nil => exact ⟨rfl, h⟩
  | cons s rest ih =>
    rw [receivedFrom_number_cons]
    split_ifs with hreceived
    · have hquiet := h.isReboot s.channel (session_number_ne_zero (n s.channel))
      rw [hcurrent.not_restarted] at hquiet
      obtain ⟨hreports, hagrees⟩ := ih (h.store (s.channel, _)) (hcurrent.receive s.channel)
      refine ⟨?_, ?_⟩
      · simp [SdPeer.handleReboots, handleReboot, hquiet, hreports]
      · simpa [SdPeer.handleReboots, handleReboot, hquiet] using hagrees
    · exact ih h (hcurrent.sent s.channel)

theorem Agrees.handleReboots {n : SdChannel → ℕ} (sent : List SdSent) (h : c.Agrees seen) :
    let ms := receivedFrom (fun ch => number (n ch)) sent
    (c.handleReboots ms).1 = SdSeen.firstReported SdSeen.restarted seen ms ∧
      (c.handleReboots ms).2.Agrees (seen.afterRun ms) := by
  induction sent generalizing c seen n with
  | nil => exact ⟨rfl, h⟩
  | cons s rest ih =>
    rw [receivedFrom_number_cons]
    split_ifs with hreceived
    · have htest := h.isReboot s.channel (session_number_ne_zero (n s.channel))
      -- after a report only messages of this run are kept
      have hcurrent := (SdSeen.current_none n).receive s.channel
      have hreset :=
        ((agrees_resetStat c).store (s.channel, _)).handleReboots_of_current rest hcurrent
      have hkept := ih (n := update n s.channel (n s.channel + 1))
        (h.store (s.channel, number (n s.channel + 1)))
      simp only [SdPeer.handleReboots, handleReboot, SdSeen.firstReported, SdSeen.afterRun, htest]
      cases hreport : seen.restarted (s.channel, number (n s.channel + 1)) with
      | true => simpa using hreset
      | false => simpa using hkept
    · exact ih h

theorem agrees_afterRuns (runs : List (List SdSent)) :
    (afterRuns runs).Agrees (SdSeen.afterRuns runs) := by
  induction runs using List.reverseRecOn with
  | nil => exact agrees_start
  | append_singleton runs run ih =>
    rw [afterRuns, SdSeen.afterRuns, List.foldl_concat, List.foldl_concat]
    exact (ih.handleReboots (n := fun _ => 0) run).2

/-- In the first run nothing is reported. In a run after a restart the first message is that has
the reboot flag and whose session is not above the last one of its channel or whose channel had
the flag cleared, and no other. -/
theorem handleReboots_reports_restarts (earlier : List (List SdSent)) (run : List SdSent) :
    (({} : SdPeer).handleReboots (receivedOf run)).1 = ((receivedOf run).map fun _ => false) ∧
      ((afterRuns earlier).handleReboots (receivedOf run)).1 =
        SdSeen.firstReported SdSeen.restarted (SdSeen.afterRuns earlier) (receivedOf run) := by
  refine ⟨?_, ?_⟩
  · exact (agrees_start.handleReboots_of_current run (SdSeen.current_none fun _ => 0)).1
  · exact ((agrees_afterRuns earlier).handleReboots (n := fun _ => 0) run).1

end SdPeer

/-- All messages of the new run that have the reboot flag are lost. -/
theorem receivedFrom_lost (k : SdChannel → SdSession) (ch : SdChannel) (n : ℕ)
    (rest : List SdSent) :
    receivedFrom k (List.replicate n ⟨ch, false⟩ ++ rest) =
      receivedFrom (update k ch (SdSession.next^[n] (k ch))) rest := by
  induction n generalizing k with
  | zero => simp
  | succ n ih => simp [List.replicate_succ, receivedFrom, ih]

/-- A run whose first 65535 messages are lost gives no message with the reboot flag: session 1 is
received a second time and not reported. -/
theorem SdPeer.restart_unreported :
    ((afterRuns [[⟨.multicast, true⟩]]).handleReboots
        (receivedOf (List.replicate 65535 ⟨.multicast, false⟩ ++ [⟨.multicast, true⟩]))).1 ≠
      SdSeen.firstReported SdSeen.notAbove (SdSeen.afterRuns [[⟨.multicast, true⟩]])
        (receivedOf (List.replicate 65535 ⟨.multicast, false⟩ ++ [⟨.multicast, true⟩])) := by
  have hnumber : number 65536 = ⟨1, false⟩ := by
    obtain ⟨hsession, hreboot⟩ := number_spec 65535
    have hone : (number 65536).session = 1 := BitVec.eq_of_toNat_eq hsession
    cases h : number 65536
    rw [h] at hone hreboot
    simp only at hone hreboot
    rw [hone, hreboot]
    rfl
  have hreceived : receivedOf (List.replicate 65535 ⟨.multicast, false⟩ ++ [⟨.multicast, true⟩]) =
      [(.multicast, ⟨1, false⟩)] := by
    rw [receivedOf, receivedFrom_lost]
    simp only [receivedFrom, update_self]
    rw [← hnumber, number_succ]
    rfl
  rw [hreceived]
  decide

end AdaptivePlatform.Nsomeip
