import AdaptivePlatform.Nm.PartialNetwork
import AdaptivePlatform.Nm.Sending
import Mathlib.Data.Finset.Sum

/-!
# A channel shared by logical and partial networks

The requests of several logical networks and their partial networks for one channel, mixed with
everything else that happens to it. The channel counts the logical networks and lists the
partial ones. `Fair` says that its books cover every requester whose last request was granted
and not released since. A logical network whose request failed takes the entry of another when
it releases the channel: only then is the channel let down.
-/
namespace AdaptivePlatform.Nm

open Bytes Runs Channel
open Function (update)
open Finset hiding card ext

/-- A logical network, seen from the channel: whether it has the channel itself, and its partial
networks that have it. -/
structure LogicNetwork where
  ether : Bool
  pns : List uint16

/-- Who asks for the channel: a logical network or a partial one. -/
abbrev Requester (Λ : Type*) := Λ ⊕ uint16

/-- The arguments of `RequestNetwork` and `ReleaseNetwork`. -/
def Requester.ether {Λ : Type*} : Requester Λ → Bool
  | .inl _ => true
  | .inr _ => false

def Requester.pn {Λ : Type*} : Requester Λ → uint16
  | .inl _ => 0
  | .inr pn => pn

/-- The calls a channel gets from others than its requesters. -/
def ChannelInput.external : ChannelInput → Bool
  | .requestNetwork _ _ _ _ => false
  | .releaseNetwork _ _ => false
  | _ => true

/-- `answer` says for each request whether the network card is there and whether the socket
takes the message. -/
inductive SharedInput (Λ : Type*) where
  | setLogicNetworkRequestedState (ln : Λ) (requestState : NetworkStateType)
      (answer : Requester Λ → Bool × Bool)
  | channel (input : ChannelInput) (hexternal : input.external = true)

/-- The channel with its requesters. What the partial networks hear from the channel is left
out, since no request depends on it. `granted` are the requesters whose last request returned
OK and was not released. -/
structure Shared (Λ : Type*) where
  ch : Channel := {}
  pns : uint16 → Pn := fun _ => {}
  logicNetworkRequestedState : Λ → NetworkStateType := fun _ => .kNoCom
  granted : Finset (Requester Λ) := ∅

namespace Shared

variable {Λ : Type*} [DecidableEq Λ] (cfg : EtherConfig) (size : uint16 → ℕ)
  (lns : Λ → LogicNetwork) (ln : Λ) (requestState : NetworkStateType)
  (answer : Requester Λ → Bool × Bool) (s : Shared Λ) (u : Finset (Requester Λ)) (r : Requester Λ)

def request (s : Shared Λ) : Shared Λ :=
  let asked := s.ch.requestNetwork cfg (answer r).1 (answer r).2 r.ether r.pn
  { s with
    ch := asked.2
    granted := if asked.1 = .kNmOperOK then insert r s.granted else s.granted.erase r }

def release (s : Shared Λ) : Shared Λ :=
  { s with
    ch := (s.ch.releaseNetwork cfg r.ether r.pn).2
    granted := s.granted.erase r }

def setPartial (pn : uint16) : Option (Shared Λ) :=
  setPartialNetworkRequestedState (size pn) (fun s => s.pns pn)
    (fun p s => { s with pns := update s.pns pn p })
    (fun s => some (s.request cfg answer (.inr pn))) (fun s => some (s.release cfg (.inr pn)))
    requestState s

def setLogicNetworkRequestedState : Option (Shared Λ) :=
  if requestState ≠ s.logicNetworkRequestedState ln then do
    let s := { s with
      logicNetworkRequestedState := update s.logicNetworkRequestedState ln requestState }
    let s ← (lns ln).pns.foldlM (setPartial cfg size requestState answer) s
    if (lns ln).ether then
      if requestState = .kFullCom then some (s.request cfg answer (.inl ln))
      else some (s.release cfg (.inl ln))
    else some s
  else some s

def step (s : Shared Λ) : SharedInput Λ → Option (Shared Λ)
  | .setLogicNetworkRequestedState ln requestState answer =>
    s.setLogicNetworkRequestedState cfg size lns ln requestState answer
  | .channel input _ => (s.ch.step cfg input).map fun ch => { s with ch := ch }

/-- While a requester is granted, the channel has a request and does not sleep. -/
def KeptAwake : Prop :=
  s.granted.Nonempty → s.ch.checkActiveRequested = true ∧ s.ch.modeType = .kModeNetwork ∧
    (s.ch.stateType = .kStateRepeatMessage ∨ s.ch.stateType = .kStateNormalOperation)

/-- A logical network releases the channel only if its own request was granted, and the counter
of requests is not at its end. -/
def Safe : SharedInput Λ → Prop
  | .setLogicNetworkRequestedState ln requestState _ =>
    requestState ≠ s.logicNetworkRequestedState ln → (lns ln).ether = true →
      if requestState = .kFullCom then s.ch.requestEtherCount ≠ 0xFFFFFFFF#32
      else .inl ln ∈ s.granted ∨ s.ch.requestEtherCount = 0
  | .channel _ _ => True

structure Fair (s : Shared Λ) : Prop where
  awake : s.ch.Awake
  counted : s.granted.toLeft.card ≤ s.ch.requestEtherCount.toNat
  listed : ∀ pn, .inr pn ∈ s.granted → pn ∈ s.ch.requestPnGroup

variable {s s' : Shared Λ}

omit [DecidableEq Λ] in
theorem Fair.keptAwake (h : s.Fair) : s.KeptAwake := by
  rintro ⟨r, hr⟩
  have hactive : s.ch.checkActiveRequested = true := by
    by_contra hinactive
    obtain ⟨hcount, hgroup⟩ := active_eq_false_iff.mp (Bool.eq_false_of_not_eq_true hinactive)
    cases r with
    | inl ln =>
      have hsome : 0 < s.granted.toLeft.card := card_pos.mpr ⟨ln, mem_toLeft.mpr hr⟩
      have hcounted := h.counted
      rw [hcount] at hcounted
      exact absurd hcounted (Nat.not_le.mpr hsome)
    | inr pn =>
      have hlisted := h.listed pn hr
      rw [hgroup] at hlisted
      cases hlisted
  have hstate := h.awake.awake hactive
  refine ⟨hactive, ?_, hstate⟩
  rw [h.awake.mode]
  rcases hstate with hstate | hstate
  all_goals
    rw [hstate]
    rfl

/-! ## Partial networks -/

/-- What the requests of the partial networks leave alone. -/
structure SameLogical (s s' : Shared Λ) : Prop where
  count : s'.ch.requestEtherCount = s.ch.requestEtherCount
  granted : s'.granted.toLeft = s.granted.toLeft

theorem toLeft_erase : (u.erase r).toLeft ⊆ u.toLeft := by
  intro ln hln
  rw [mem_toLeft] at hln ⊢
  exact mem_of_mem_erase hln

theorem toLeft_erase_inr (pn : uint16) : (u.erase (.inr pn)).toLeft = u.toLeft := by
  ext ln
  simp

theorem request_partial (h : s.Fair) (answer : Requester Λ → Bool × Bool) (pn : uint16) :
    (s.request cfg answer (.inr pn)).Fair ∧ SameLogical s (s.request cfg answer (.inr pn)) := by
  unfold request
  obtain ⟨hawake, hcases⟩ := requestNetwork_spec cfg h.awake (answer (.inr pn)).1
    (answer (.inr pn)).2 false pn (Prod.mk.eta (p := _)).symm
  dsimp only [Requester.ether, Requester.pn]
  rcases hcases with ⟨hcode, hcount, hgroup⟩ | ⟨hcode, hbooked⟩
  · have hleft := toLeft_erase_inr s.granted pn
    rw [hcode, if_neg (by decide)]
    refine ⟨⟨hawake, ?_, fun other hother => ?_⟩, hcount, hleft⟩
    · dsimp only
      rw [hleft, hcount]
      exact h.counted
    · exact hgroup ▸ h.listed other (mem_of_mem_erase hother)
  · have hleft : (insert (.inr pn) s.granted).toLeft = s.granted.toLeft := toLeft_insert_inr
    have hcount := hbooked.count
    have hgroup := hbooked.group
    rw [if_pos (hbooked.valid.resolve_left Bool.false_ne_true)] at hgroup
    rw [if_pos hcode]
    refine ⟨⟨hawake, ?_, fun other hother => ?_⟩, hcount, hleft⟩
    · dsimp only
      rw [hleft, hcount]
      exact h.counted
    · dsimp only
      rw [hgroup, List.mem_append, List.mem_singleton]
      rcases mem_insert.mp hother with hnew | hold
      · exact Or.inr (Sum.inr.inj hnew)
      · exact Or.inl (h.listed other hold)

theorem release_partial (h : s.Fair) (pn : uint16) :
    (s.release cfg (.inr pn)).Fair ∧ SameLogical s (s.release cfg (.inr pn)) := by
  obtain ⟨hawake, hcount, hgroup⟩ :=
    releaseNetwork_spec cfg h.awake false pn (Prod.mk.eta (p := _)).symm
  have hleft := toLeft_erase_inr s.granted pn
  have hsame : (s.ch.dropRequest false pn).requestEtherCount = s.ch.requestEtherCount := by
    simp [Channel.dropRequest]
  refine ⟨⟨hawake, ?_, fun other hother => ?_⟩, hcount.trans hsame, hleft⟩
  · dsimp only [release]
    rw [hleft]
    exact (hcount.trans hsame) ▸ h.counted
  · obtain ⟨hne, hold⟩ := mem_erase.mp hother
    have hmem := h.listed other hold
    change other ∈ (s.ch.releaseNetwork cfg false pn).2.requestPnGroup
    rw [hgroup]
    dsimp only [Channel.dropRequest]
    split_ifs
    · exact (List.mem_erase_of_ne fun heq => hne (congrArg _ heq)).mpr hmem
    · exact hmem

omit [DecidableEq Λ] in
theorem SameLogical.trans {s₁ s₂ s₃ : Shared Λ} (h : SameLogical s₁ s₂) (h' : SameLogical s₂ s₃) :
    SameLogical s₁ s₃ :=
  ⟨h'.count.trans h.count, h'.granted.trans h.granted⟩

section

variable (h : s.Fair) (requestState : NetworkStateType) (answer : Requester Λ → Bool × Bool)

include h

theorem setPartial_spec (pn : uint16) :
    ∃ s', setPartial cfg size requestState answer s pn = some s' ∧ s'.Fair ∧ SameLogical s s' := by
  -- the books do not depend on what the partial network notes of itself
  have hput : ∀ t : Shared Λ, t.Fair → SameLogical s t → ∀ p : Pn,
      Fair { t with pns := update t.pns pn p } ∧
        SameLogical s { t with pns := update t.pns pn p } :=
    fun t ht hsame p => ⟨⟨ht.awake, ht.counted, ht.listed⟩, hsame.count, hsame.granted⟩
  have hstart := hput s h ⟨rfl, rfl⟩
  have hasked := fun p => request_partial cfg (hstart p).1 answer pn
  have hreleased := fun p => release_partial cfg (hstart p).1 pn
  unfold setPartial setPartialNetworkRequestedState
  split
  · dsimp only
    split_ifs with hfirst
    · refine ⟨_, rfl, ?_⟩
      dsimp only
      split_ifs
      · exact hput _ (hasked _).1 ((hstart _).2.trans (hasked _).2) _
      · exact ⟨(hasked _).1, (hstart _).2.trans (hasked _).2⟩
    · exact ⟨_, rfl, hstart _⟩
  · split_ifs
    · dsimp only
      split_ifs
      · exact ⟨_, rfl, (hreleased _).1, (hstart _).2.trans (hreleased _).2⟩
      · exact ⟨_, rfl, hstart _⟩
    · exact ⟨s, rfl, h, rfl, rfl⟩
  · exact ⟨s, rfl, h, rfl, rfl⟩

theorem setPartials_spec (pns : List uint16) :
    ∃ s', pns.foldlM (setPartial cfg size requestState answer) s = some s' ∧ s'.Fair ∧
      SameLogical s s' := by
  induction pns generalizing s with
  | nil => exact ⟨s, rfl, h, rfl, rfl⟩
  | cons pn pns ih =>
    obtain ⟨t, ht, hfair, hsame⟩ := setPartial_spec cfg size h requestState answer pn
    obtain ⟨s', hs', hfair', hsame'⟩ := ih hfair
    refine ⟨s', ?_, hfair', hsame.trans hsame'⟩
    rw [List.foldlM_cons, ht]
    exact hs'

end

/-! ## Logical networks -/

theorem request_logical (h : s.Fair) (answer : Requester Λ → Bool × Bool) (ln : Λ)
    (hcount : s.ch.requestEtherCount ≠ 0xFFFFFFFF#32) : (s.request cfg answer (.inl ln)).Fair := by
  unfold request
  obtain ⟨hawake, hcases⟩ := requestNetwork_spec cfg h.awake (answer (.inl ln)).1
    (answer (.inl ln)).2 true 0 (Prod.mk.eta (p := _)).symm
  dsimp only [Requester.ether, Requester.pn]
  rcases hcases with ⟨hcode, hsame, hgroup⟩ | ⟨hcode, hbooked⟩
  · rw [hcode, if_neg (by decide)]
    refine ⟨hawake, ?_, fun pn hpn => ?_⟩
    · dsimp only
      rw [hsame]
      exact (card_le_card (toLeft_erase _ _)).trans h.counted
    · exact hgroup ▸ h.listed pn (mem_of_mem_erase hpn)
  · have hnext := hbooked.count
    have hgroup := hbooked.group
    rw [if_pos rfl] at hnext
    rw [if_pos hcode]
    refine ⟨hawake, ?_, fun pn hpn => ?_⟩
    · dsimp only
      rw [toLeft_insert_inl, hnext]
      have hle := card_insert_le ln s.granted.toLeft
      have hcounted := h.counted
      bv_omega
    · dsimp only
      rw [hgroup]
      exact h.listed pn ((mem_insert.mp hpn).resolve_left (by simp))

theorem release_logical (h : s.Fair) (ln : Λ)
    (hown : .inl ln ∈ s.granted ∨ s.ch.requestEtherCount = 0) :
    (s.release cfg (.inl ln)).Fair := by
  obtain ⟨hawake, hcount, hgroup⟩ :=
    releaseNetwork_spec cfg h.awake true 0 (Prod.mk.eta (p := _)).symm
  have hcounted := h.counted
  refine ⟨hawake, ?_, fun pn hpn => ?_⟩
  · change _ ≤ (s.ch.releaseNetwork cfg true 0).2.requestEtherCount.toNat
    rw [hcount]
    dsimp only [Channel.dropRequest, release]
    by_cases hzero : s.ch.requestEtherCount = 0
    · rw [if_neg (by rw [hzero]; decide)]
      exact (card_le_card (toLeft_erase _ _)).trans hcounted
    · have hmem := mem_toLeft.mpr (hown.resolve_right hzero)
      have herase : (s.granted.erase (.inl ln)).toLeft = s.granted.toLeft.erase ln := by
        ext other
        simp
      have hpos : 0 < s.ch.requestEtherCount := by bv_omega
      rw [herase, card_erase_of_mem hmem, if_pos ⟨rfl, hpos⟩]
      bv_omega
  · change pn ∈ (s.ch.releaseNetwork cfg true 0).2.requestPnGroup
    rw [hgroup]
    exact h.listed pn (mem_of_mem_erase hpn)

theorem setLogic_spec (h : s.Fair) (ln : Λ) (requestState : NetworkStateType)
    (answer : Requester Λ → Bool × Bool)
    (hsafe : Safe lns s (.setLogicNetworkRequestedState ln requestState answer)) :
    ∃ s', s.setLogicNetworkRequestedState cfg size lns ln requestState answer = some s' ∧
      s'.Fair := by
  unfold setLogicNetworkRequestedState
  by_cases hnew : requestState ≠ s.logicNetworkRequestedState ln
  swap
  · rw [if_neg hnew]
    exact ⟨s, rfl, h⟩
  have hstart : Fair { s with
      logicNetworkRequestedState := update s.logicNetworkRequestedState ln requestState } :=
    ⟨h.awake, h.counted, h.listed⟩
  obtain ⟨t, hfold, hfair, hsame⟩ :=
    setPartials_spec cfg size hstart requestState answer (lns ln).pns
  dsimp only
  rw [hfold, Option.bind_eq_bind, Option.bind_some]
  split_ifs with hether hfull
  · have hcount := hsafe hnew hether
    rw [if_pos hfull] at hcount
    exact ⟨_, rfl, request_logical cfg hfair answer ln (hsame.count ▸ hcount)⟩
  · have hown := hsafe hnew hether
    rw [if_neg hfull, ← mem_toLeft] at hown
    refine ⟨_, rfl, release_logical cfg hfair ln ?_⟩
    rw [← mem_toLeft, hsame.granted, hsame.count]
    exact hown
  · exact ⟨t, rfl, hfair⟩

omit [DecidableEq Λ] in
theorem channel_spec (h : s.Fair) (input : ChannelInput) (hexternal : input.external = true) :
    ∃ ch, s.ch.step cfg input = some ch ∧ Fair { s with ch := ch } := by
  have hcleared : Channel.Awake { s.ch with emitted := [] } :=
    h.awake.of_unmoved ⟨⟨rfl, rfl, rfl, rfl⟩, rfl, rfl, rfl, Or.inr rfl⟩
  have hkeep : ∀ ch, Handled { s.ch with emitted := [] } ch → Fair { s with ch := ch } := by
    intro ch hhandled
    refine ⟨hhandled.awake, ?_, fun pn hpn => ?_⟩
    · dsimp only
      rw [hhandled.count]
      exact h.counted
    · dsimp only
      rw [hhandled.group]
      exact h.listed pn hpn
  cases input with
  | requestNetwork card sent requestEther pn | releaseNetwork requestEther pn => cases hexternal
  | recvNmMessage sent nodeId repeatBit pns =>
    obtain ⟨ch, hrecv, hhandled⟩ := recvNmMessage_spec cfg hcleared sent nodeId repeatBit pns
    exact ⟨ch, hrecv, hkeep ch hhandled⟩
  | notifyWakeup card sent => exact ⟨_, rfl, hkeep _ (notifyWakeup_spec cfg hcleared card sent)⟩
  | requestDetectNode sent => exact ⟨_, rfl, hkeep _ (requestDetectNode_spec cfg hcleared sent)⟩
  | expire sent name =>
    obtain ⟨ch, hexpire, hhandled⟩ := expire_spec cfg hcleared sent name
    exact ⟨ch, hexpire, hkeep ch hhandled⟩

theorem step_fair (h : s.Fair) (input : SharedInput Λ) (hsafe : Safe lns s input) :
    ∃ s', step cfg size lns s input = some s' ∧ s'.Fair := by
  cases input with
  | setLogicNetworkRequestedState ln requestState answer =>
    exact setLogic_spec cfg size lns h ln requestState answer hsafe
  | channel input hexternal =>
    obtain ⟨ch, hstep, hfair⟩ := channel_spec cfg h input hexternal
    refine ⟨_, ?_, hfair⟩
    rw [step, hstep, Option.map_some]

end Shared

open Shared

/-- In every run of safe steps the channel is kept awake for its requesters. -/
theorem channel_kept_awake {Λ : Type*} [DecidableEq Λ] (cfg : EtherConfig) (size : uint16 → ℕ)
    (lns : Λ → LogicNetwork) (initConfig : Bool) (inputs : List (SharedInput Λ))
    (hsafe : Along (step cfg size lns) (Safe lns)
      { ch := { initConfig := initConfig } } inputs) :
    Always (step cfg size lns) KeptAwake { ch := { initConfig := initConfig } } inputs := by
  have hinitial : Fair ({ ch := { initConfig := initConfig } } : Shared Λ) := by
    refine ⟨(@sending_initial cfg initConfig).toAwake, Nat.zero_le _, fun pn hpn => ?_⟩
    cases hpn
  have hfair : Always (step cfg size lns) Fair
      ({ ch := { initConfig := initConfig } } : Shared Λ) inputs := by
    apply always_of_along _ hinitial hsafe
    intro s input h hinput
    exact step_fair cfg size lns h input hinput
  exact hfair.mono fun _ h => h.keptAwake

/-- Two logical networks with the channel and no partial networks. -/
def pair : Bool → LogicNetwork := fun _ => { ether := true, pns := [] }

/-- A request or release of one of the two while the network card is there, or is not. -/
def setState (ln : Bool) (requestState : NetworkStateType) (card : Bool) : SharedInput Bool :=
  .setLogicNetworkRequestedState ln requestState fun _ => (card, true)

/-- Both ask, one releases. -/
theorem channel_kept_awake_pair :
    Always (step burstConfig (fun _ => 1) pair) KeptAwake { ch := { initConfig := false } }
      [setState false .kFullCom true, setState true .kFullCom true,
        setState false .kNoCom true] := by
  apply channel_kept_awake
  refine ⟨fun _ _ => by decide, ?_⟩
  rintro _ ⟨⟩
  refine ⟨fun _ _ => by decide, ?_⟩
  rintro _ ⟨⟩
  exact ⟨fun _ _ => Or.inl (by decide +kernel), fun _ _ => trivial⟩

/-- The first network asks without a network card, the second with one; in Normal Operation the
first releases. -/
def letDown : List (SharedInput Bool) :=
  [setState false .kFullCom false, setState true .kFullCom true,
    .channel (.expire true .repeateMessageTimer) rfl, setState false .kNoCom true,
    .channel (.expire true .networkTimer) rfl]

def afterLetDown : Shared Bool :=
  (exec (step burstConfig (fun _ => 1) pair) { ch := { initConfig := false } } letDown).getD {}

/-- The channel goes to sleep under the second network. -/
theorem failed_request_lets_down :
    exec (step burstConfig (fun _ => 1) pair) { ch := { initConfig := false } } letDown =
        some afterLetDown ∧
      .inl true ∈ afterLetDown.granted ∧ afterLetDown.ch.checkActiveRequested = false ∧
      afterLetDown.ch.modeType = .kModePrepareBusSleep := by
  refine ⟨rfl, ?_, rfl, rfl⟩
  decide +kernel

end AdaptivePlatform.Nm
