import AdaptivePlatform.E2E.Profile04
import AdaptivePlatform.E2E.Profile05
import AdaptivePlatform.E2E.Profile07
import AdaptivePlatform.E2E.Profile22
import AdaptivePlatform.Foundations.LossyChannel

/-!
# Protect and check over a lossy channel

A sender protects one message after the other, some of them are lost, and the
receiver checks the others in order. A profile is a numbered link in the sense
of `LossyChannel`: what `Protect` writes is a correct message with the next
counter, and `Check` compares the counter of a correct message with the last.
-/
namespace AdaptivePlatform.E2E

open Bytes LossyChannel

/-- The functions of a profile under one configuration, for a counter kept in
`w` bits and a `Length` of `lw` bits, with the place of the header in the data. -/
structure Profile (w lw : ℕ) where
  protect : ProtectState w → Option (List uint8) → BitVec lw →
    Option (ReturnType × ProtectState w × Option (List uint8))
  check : CheckState w → Option (List uint8) → BitVec lw → Option (ReturnType × CheckState w)
  protectInit : ProtectState w
  checkInit : CheckState w
  offset : ℕ
  header : ℕ
  Admits : BitVec lw → Prop
  maxDelta : ℕ

namespace Profile

variable {w lw : ℕ} {p : Profile w lw} {data : List uint8}

def lengthOf (lw : ℕ) (data : List uint8) : BitVec lw := BitVec.ofNat lw data.length

/-- A payload of an admitted length with room for the header. -/
structure Fits (p : Profile w lw) (data : List uint8) : Prop where
  length_lt : data.length < 2 ^ lw
  header_le : p.offset + p.header ≤ data.length
  admits : p.Admits (lengthOf lw data)

theorem Fits.length_eq (h : p.Fits data) : data.length = (lengthOf lw data).toNat := by
  rw [lengthOf, BitVec.toNat_ofNat, Nat.mod_eq_of_lt h.length_lt]

theorem Fits.room (h : p.Fits data) : p.offset + p.header ≤ (lengthOf lw data).toNat :=
  h.length_eq ▸ h.header_le

/-- The sender needs a `Protect` that returns `E2E_E_OK`; the verdict of the
receiver is the return value of `Check` and the status it leaves. -/
def link (p : Profile w lw) :
    Link (ProtectState w) (CheckState w) (List uint8) (List uint8) (ReturnType × CheckStatus) where
  protect state data :=
    match p.protect state (some data) (lengthOf lw data) with
    | some (.ok, after, some wire) => some (after, wire)
    | _ => none
  check state wire :=
    (p.check state (some wire) (lengthOf lw wire)).map fun (ret, after) =>
      (after, ret, after.status)

/-- With fewer than `MaxDeltaCounter` messages lost in a row, each delivered
message after the first delivered one is accepted: `OK` with no loss before it,
`OKSOMELOST` with some. -/
def DeliversInOrder (p : Profile w lw) : Prop :=
  ∀ messages : List (List uint8 × Bool), (∀ m ∈ messages, p.Fits m.1) →
    GapsBelow p.maxDelta 0 (afterFirst (messages.map Prod.snd)) →
    ∃ vs, transmit p.link p.protectInit p.checkInit messages = some vs ∧
      vs.length = (messages.map Prod.snd).count true ∧
      vs.tail = verdicts (.ok, .ok) (.ok, .okSomeLost) 0 (afterFirst (messages.map Prod.snd))

/-- `Protect` changes the header bytes only. -/
def ProtectsInHeader (p : Profile w lw) : Prop :=
  ∀ state data, p.Fits data → ∃ after wire,
    p.protect state (some data) (lengthOf lw data) = some (.ok, after, some wire) ∧
      AgreeOutside p.offset (p.offset + p.header) data wire

/-- A `Protect` that makes `Correct` messages with the counter `sent` and leaves
the counter `after` behind. -/
def Protects (p : Profile w lw) (sent after : ProtectState w → BitVec w)
    (Correct : List uint8 → BitVec lw → BitVec w → Prop) : Prop :=
  ∀ state data, p.Fits data → ∃ wire,
    p.protect state (some data) (lengthOf lw data) =
        some (.ok, { counter := after state }, some wire) ∧
      Correct wire (lengthOf lw data) (sent state) ∧
      AgreeOutside p.offset (p.offset + p.header) data wire

theorem Protects.inHeader {sent after : ProtectState w → BitVec w}
    {Correct : List uint8 → BitVec lw → BitVec w → Prop} (h : p.Protects sent after Correct) :
    p.ProtectsInHeader := by
  intro state data hfits
  obtain ⟨wire, hprotect, -, hagree⟩ := h state data hfits
  exact ⟨_, wire, hprotect, hagree⟩

/-- What one call at each end does with counters of `n` bits: `Correct` messages
carry a counter, `Protect` sends the `next` one, and a `ready` receiver compares
it with the `last` one. -/
structure Numbering (p : Profile w lw) (n : ℕ) where
  next : ProtectState w → BitVec n
  last : CheckState w → BitVec n
  Correct : List uint8 → BitVec lw → BitVec n → Prop
  ready : CheckState w → Prop
  max_lt : p.maxDelta < 2 ^ n
  protect_spec : ∀ state data, p.Fits data → ∃ after wire,
    p.protect state (some data) (lengthOf lw data) = some (.ok, after, some wire) ∧
      wire.length = data.length ∧ next after = next state + 1#n ∧
      Correct wire (lengthOf lw data) (next state)
  check_spec : ∀ state wire length c, ready state → Correct wire length c → ∃ after,
    p.check state (some wire) length = some (.ok, after) ∧ ready after ∧ last after = c ∧
      ∀ gap < p.maxDelta, (c - last state).toNat = gap + 1 →
        after.status = if gap = 0 then .ok else .okSomeLost

namespace Numbering

variable {p : Profile w lw} {n : ℕ} (num : p.Numbering n)

def numbered : Numbered p.link n p.maxDelta p.Fits (.ok, .ok) (.ok, .okSomeLost) where
  next := num.next
  last := num.last
  carries wire := num.Correct wire (lengthOf lw wire)
  ready := num.ready
  max_lt := num.max_lt
  protect_spec state data hfits := by
    obtain ⟨after, wire, hprotect, hlen, hnext, hcorrect⟩ := num.protect_spec state data hfits
    have hlength : lengthOf lw wire = lengthOf lw data := by rw [lengthOf, hlen, lengthOf]
    refine ⟨after, wire, ?_, ?_, hnext⟩
    · simp [link, hprotect]
    · rw [hlength]
      exact hcorrect
  check_spec state wire c hready hcorrect := by
    obtain ⟨after, hcheck, hready', hlast, hstatus⟩ := num.check_spec state wire _ c hready hcorrect
    refine ⟨after, (.ok, after.status), ?_, hready', hlast, ?_⟩
    · simp [link, hcheck]
    · intro gap hgap hdelta
      rw [hstatus gap hgap hdelta]
      split_ifs <;> rfl

theorem deliversInOrder (hinit : num.ready p.checkInit) : p.DeliversInOrder := by
  intro messages hfits hgaps
  exact num.numbered.transmit_eq p.protectInit hinit hfits hgaps

end Numbering

/-- A profile that sends its counter, increments it and checks it with
`checkSequence`. -/
theorem Protects.deliversInOrder {maxDelta : BitVec w}
    {Correct : List uint8 → BitVec lw → BitVec w → Prop}
    (hprotect : p.Protects (·.counter) (·.counter + 1) Correct)
    (hcheck : ∀ {wire length c}, Correct wire length c → ∀ state,
      p.check state (some wire) length = some (.ok, checkSequence maxDelta state c))
    (hw : 2 ≤ w) (hmaxDelta : p.maxDelta = maxDelta.toNat) :
    (2 * maxDelta.toNat < 2 ^ w → p.DeliversInOrder) ∧ p.ProtectsInHeader := by
  refine ⟨fun hmax => ?_, hprotect.inHeader⟩
  let num : p.Numbering w := {
    next := ProtectState.counter
    last := CheckState.counter
    Correct := Correct
    ready := fun _ => True
    max_lt := by omega
    protect_spec := by
      intro state data hfits
      obtain ⟨wire, hprotect, hcorrect, hagree⟩ := hprotect state data hfits
      exact ⟨_, wire, hprotect, hagree.length_eq, rfl, hcorrect⟩
    check_spec := by
      intro state wire length c _ hcorrect
      refine ⟨_, hcheck hcorrect state, trivial, rfl, ?_⟩
      intro gap hgap hdelta
      rw [hmaxDelta] at hgap
      exact checkSequence_status hw hmax state c hgap hdelta }
  exact num.deliversInOrder trivial

end Profile

def P04Config.profile (config : P04Config) : Profile 16 16 where
  protect := p04Protect config
  check := p04Check config
  protectInit := p04ProtectInit
  checkInit := p04CheckInit
  offset := config.layout.offset
  header := 12
  Admits := config.layout.Admits
  maxDelta := config.maxDeltaCounter.toNat

def P44Config.profile (config : P44Config) : Profile 16 16 where
  protect := p44Protect config
  check := p44Check config
  protectInit := p04ProtectInit
  checkInit := p04CheckInit
  offset := config.layout.offset
  header := 12
  Admits := config.layout.Admits
  maxDelta := config.maxDeltaCounter.toNat

def P05Config.profile (config : P05Config) : Profile 8 16 where
  protect := p05Protect config
  check := p05Check config
  protectInit := p05ProtectInit
  checkInit := p05CheckInit
  offset := config.byteOffset
  header := 3
  Admits := config.Admits
  maxDelta := config.maxDeltaCounter.toNat

def P06Config.profile (config : P06Config) : Profile 8 16 where
  protect := p06Protect config
  check := p06Check config
  protectInit := p05ProtectInit
  checkInit := p05CheckInit
  offset := config.byteOffset
  header := 5
  Admits := config.Admits
  maxDelta := config.maxDeltaCounter.toNat

def P07Config.profile (config : P07Config) : Profile 32 32 where
  protect := p07Protect config
  check := p07Check config
  protectInit := p07ProtectInit
  checkInit := p07CheckInit
  offset := config.byteOffset
  header := 20
  Admits := config.Admits
  maxDelta := config.maxDeltaCounter.toNat

/-- Profile 8, whose configuration is of the type of profile 7. -/
def P08Config.profile (config : P08Config) : Profile 32 32 where
  protect := p08Protect config
  check := p08Check config
  protectInit := p07ProtectInit
  checkInit := p07CheckInit
  offset := config.byteOffset
  header := 16
  Admits := config.Admits
  maxDelta := config.maxDeltaCounter.toNat

def P22Config.profile (config : P22Config) : Profile 8 16 where
  protect := p22Protect config
  check := p22Check config
  protectInit := p22ProtectInit
  checkInit := p22CheckInit
  offset := config.byteOffset
  header := 2
  Admits := config.Admits
  maxDelta := config.maxDeltaCounter.toNat

section

open Profile

theorem P04Config.protects (config : P04Config) :
    config.profile.Protects (·.counter) (·.counter + 1) (Profile4Correct config.layout) := by
  intro state data hfits
  obtain ⟨wire, hprotect, hcorrect, hagree⟩ :=
    profile4Protect_correct hfits.length_eq.ge hfits.admits hfits.header_le state
  exact ⟨wire, hprotect, hcorrect (ne_zero_of_room hfits.room), hagree⟩

theorem P44Config.protects (config : P44Config) :
    config.profile.Protects (·.counter) (·.counter + 1) (Profile4Correct config.layout) := by
  intro state data hfits
  obtain ⟨wire, hprotect, hcorrect, hagree⟩ :=
    profile4Protect_correct hfits.length_eq.ge hfits.admits hfits.header_le state
  exact ⟨wire, hprotect, hcorrect (ne_zero_of_room hfits.room), hagree⟩

theorem P05Config.protects (config : P05Config) :
    config.profile.Protects (·.counter) (·.counter + 1) (P05Correct config) := by
  intro state data hfits
  have hstop := crcStop16_le (le_trans (Nat.le_succ _) hfits.room) hfits.length_eq
  obtain ⟨wire, hprotect, hcorrect, hagree⟩ :=
    p05Protect_correct hfits.header_le hstop hfits.admits state
  exact ⟨wire, hprotect, hcorrect (ne_zero_of_room hfits.room), hagree⟩

theorem P06Config.protects (config : P06Config) :
    config.profile.Protects (·.counter) (·.counter + 1) (P06Correct config) := by
  intro state data hfits
  have hstop := crcStop16_le (le_trans (Nat.le_add_right _ 3) hfits.room) hfits.length_eq
  obtain ⟨wire, hprotect, hcorrect, hagree⟩ :=
    p06Protect_correct hfits.header_le hstop hfits.admits state
  exact ⟨wire, hprotect, hcorrect (ne_zero_of_room hfits.room), hagree⟩

theorem P07Config.protects (config : P07Config) :
    config.profile.Protects (·.counter) (·.counter + 1)
      (Profile7Correct 8 (p07CRC config) config) := by
  intro state data hfits
  have hranges := p07Ranges_around
    (le_trans (Nat.add_le_add_left (Nat.le_add_right 8 12) _) hfits.room)
  exact profile7Protect_correct rfl hranges rfl hfits.length_eq hfits.admits hfits.room state

theorem P08Config.protects (config : P08Config) :
    (P08Config.profile config).Protects (·.counter) (·.counter + 1)
      (Profile7Correct 4 (p08CRC config) config) := by
  intro state data hfits
  have hranges := p08Ranges_around
    (le_trans (Nat.add_le_add_left (Nat.le_add_right 4 12) _) hfits.room)
  exact profile7Protect_correct rfl hranges rfl hfits.length_eq hfits.admits hfits.room state

theorem P22Config.protects (config : P22Config) :
    config.profile.Protects (fun state => (state.counter + 1#8) % 16#8)
      (fun state => (state.counter + 1#8) % 16#8) (P22Correct config) :=
  fun state _ hfits => p22Protect_correct hfits.length_eq.ge hfits.admits state

end

theorem P22Config.deliversInOrder (config : P22Config)
    (hmax : 2 * config.maxDeltaCounter.toNat < 2 ^ 4) : config.profile.DeliversInOrder := by
  let num : config.profile.Numbering 4 := {
    next := fun state => (state.counter + 1#8).setWidth 4
    last := fun state => state.counter.setWidth 4
    Correct := fun wire length c => P22Correct config wire length (c.setWidth 8)
    ready := fun state => state.counter < 16
    max_lt := by
      change config.maxDeltaCounter.toNat < 2 ^ 4
      omega
    protect_spec := by
      intro state data hfits
      have hsent : ((state.counter + 1#8).setWidth 4).setWidth 8 =
          (state.counter + 1#8) % 16#8 := by
        apply BitVec.eq_of_toNat_eq
        simp only [BitVec.toNat_setWidth, BitVec.toNat_umod, BitVec.toNat_ofNat, Nat.reducePow,
          Nat.reduceMod]
        omega
      obtain ⟨wire, hprotect, hcorrect, hagree⟩ := config.protects state data hfits
      refine ⟨_, wire, hprotect, hagree.length_eq, ?_, hsent ▸ hcorrect⟩
      bv_omega
    check_spec := by
      intro state wire length c hready hcorrect
      refine ⟨_, p22Check_correct hcorrect state, ?_, ?_, ?_⟩
      · change c.setWidth 8 < 16
        bv_omega
      · change (c.setWidth 8).setWidth 4 = c
        bv_omega
      · intro gap hgap hdelta
        exact checkSequence22_status hready c hgap hdelta }
  have hinit : p22CheckInit.counter < 16 := by decide
  exact num.deliversInOrder hinit

/-- Every profile delivers in order over a lossy channel, across the wrap of its
counter, and protects by changing the header only. -/
theorem profiles_deliver_in_order :
    (∀ config : P04Config,
      (2 * config.maxDeltaCounter.toNat < 2 ^ 16 → config.profile.DeliversInOrder) ∧
      config.profile.ProtectsInHeader) ∧
    (∀ config : P05Config,
      (2 * config.maxDeltaCounter.toNat < 2 ^ 8 → config.profile.DeliversInOrder) ∧
      config.profile.ProtectsInHeader) ∧
    (∀ config : P06Config,
      (2 * config.maxDeltaCounter.toNat < 2 ^ 8 → config.profile.DeliversInOrder) ∧
      config.profile.ProtectsInHeader) ∧
    (∀ config : P07Config,
      (2 * config.maxDeltaCounter.toNat < 2 ^ 32 → config.profile.DeliversInOrder) ∧
      config.profile.ProtectsInHeader) ∧
    (∀ config : P08Config,
      (2 * config.maxDeltaCounter.toNat < 2 ^ 32 → (P08Config.profile config).DeliversInOrder) ∧
      (P08Config.profile config).ProtectsInHeader) ∧
    (∀ config : P22Config,
      (2 * config.maxDeltaCounter.toNat < 2 ^ 4 → config.profile.DeliversInOrder) ∧
      config.profile.ProtectsInHeader) ∧
    (∀ config : P44Config,
      (2 * config.maxDeltaCounter.toNat < 2 ^ 16 → config.profile.DeliversInOrder) ∧
      config.profile.ProtectsInHeader) := by
  refine ⟨?_, ?_, ?_, ?_, ?_, ?_, ?_⟩ <;> intro config
  · exact config.protects.deliversInOrder profile4Check_correct (by decide) rfl
  · exact config.protects.deliversInOrder p05Check_correct (by decide) rfl
  · exact config.protects.deliversInOrder p06Check_correct (by decide) rfl
  · exact config.protects.deliversInOrder profile7Check_correct (by decide) rfl
  · exact (P08Config.protects config).deliversInOrder profile7Check_correct (by decide) rfl
  · exact ⟨config.deliversInOrder, config.protects.inHeader⟩
  · exact config.protects.deliversInOrder profile4Check_correct (by decide) rfl

def shortGaps : P04Config where
  dataID := 0x0A0B0C0D
  offset := 0
  minDataLength := 96
  maxDataLength := 32768
  maxDeltaCounter := 2

def thirdLost : List (List uint8 × Bool) :=
  [true, true, false, true].map fun delivered => (List.replicate 12 0, delivered)

theorem thirdLost_fits : ∀ m ∈ thirdLost, shortGaps.profile.Fits m.1 := by
  have hadmits : shortGaps.layout.Admits 12 := by decide
  have hfits : shortGaps.profile.Fits (List.replicate 12 0) := ⟨by decide, by decide, hadmits⟩
  intro m hm
  obtain ⟨delivered, -, rfl⟩ := List.mem_map.mp hm
  exact hfits

theorem profiles_deliver_in_order_thirdLost :
    ∃ first, transmit shortGaps.profile.link p04ProtectInit p04CheckInit thirdLost =
      some [first, (.ok, .ok), (.ok, .okSomeLost)] := by
  obtain ⟨vs, htransmit, hlength, htail⟩ :=
    (profiles_deliver_in_order.1 shortGaps).1 (by decide) thirdLost thirdLost_fits
      ⟨by decide, by decide, trivial⟩
  obtain ⟨first, rest, rfl⟩ : ∃ first rest, vs = first :: rest := by
    cases vs with
    | nil => cases hlength
    | cons first rest => exact ⟨first, rest, rfl⟩
  refine ⟨first, ?_⟩
  rw [show rest = _ from htail] at htransmit
  exact htransmit

/-! ### Profile 4m -/

section

variable (config : P04mConfig) (sourceID : uint32) (messageType messageResult : uint8) (sink : Bool)

/-- Profile 4m for messages of one kind from one source, checked by a sink or by a source -/
def p04mProfile : Profile 16 16 :=
  { P04Config.profile config with
    protect := fun state => p04mProtect config state sourceID messageType messageResult
    check := fun state data length =>
      if sink then
        (p04mSinkCheck config state sourceID messageType messageResult data length).map
          fun checked => (checked.1, checked.2.1)
      else p04mSourceCheck config state sourceID messageType messageResult data length
    header := 16 }

/-- The messages of a source are delivered in order, to sinks and to sources. -/
theorem p04m_delivers_in_order (hid : sourceID ≤ 0xFFFFFFF)
    (hkind : MessageKindValid messageType messageResult)
    (hmax : 2 * config.maxDeltaCounter.toNat < 2 ^ 16) :
    let p := p04mProfile config sourceID messageType messageResult sink
    p.DeliversInOrder ∧ p.ProtectsInHeader := by
  intro p
  have hprotects : p.Protects (·.counter) (·.counter + 1) fun wire length counter =>
      P04mCorrect config wire length counter sourceID messageType messageResult := by
    intro state data hfits
    exact p04mProtect_correct hfits.length_eq hfits.admits hfits.room hid hkind state
  refine (hprotects.deliversInOrder ?_ (by decide)
    (show _ = config.maxDeltaCounter.toNat from rfl)).imp_left (· hmax)
  intro wire length c hcorrect state
  cases sink with
  | false => simp [p, p04mProfile, p04mSourceCheck_correct hcorrect hid hkind, P04Config.layout]
  | true => simp [p, p04mProfile, p04mSinkCheck_correct hcorrect hkind, P04Config.layout]

end

theorem p04m_delivers_in_order_shortGaps :
    let p := p04mProfile shortGaps 0x123 1 0 true
    p.DeliversInOrder ∧ p.ProtectsInHeader :=
  p04m_delivers_in_order shortGaps _ _ _ true (by decide) (by decide) (by decide)

end AdaptivePlatform.E2E
