import AdaptivePlatform.E2E.Channel

/-!
# What the CRC covers

`Protector` and `Checker` pass the size of a buffer as a `Length` of 16 bits, and the CRC ends
where `Length` says. Of a buffer that is longer only the first part is protected.
-/
namespace AdaptivePlatform.E2E

open Bytes Option

/-- A change of any byte outside the CRC field changes what the CRC is computed of. -/
def Covers (ranges : List (ℕ × ℕ)) (pos size : ℕ) (data : List uint8) : Prop :=
  ∀ i < data.length, i < pos ∨ pos + size ≤ i → ∀ b, data[i]? ≠ some b →
    segments (data.set i b) ranges ≠ segments data ranges

/-- The ranges are what lies before the CRC field, and behind it up to `stop`. -/
def RangesUpTo (pos size stop : ℕ) (ranges : List (ℕ × ℕ)) : Prop :=
  ∀ i, (∃ r ∈ ranges, r.1 ≤ i ∧ i < r.1 + r.2) ↔ i < pos ∨ pos + size ≤ i ∧ i < stop

variable {ranges : List (ℕ × ℕ)} {pos size stop : ℕ} {data wire : List uint8}

theorem covers_iff {parts : List (List uint8)} (hranges : RangesUpTo pos size stop ranges)
    (hparts : segments data ranges = some parts) :
    Covers ranges pos size data ↔ data.length ≤ stop ∨ data.length ≤ pos + size := by
  constructor
  · intro h
    by_contra! hlt
    obtain ⟨b, hb⟩ : ∃ b : uint8, data[data.length - 1]? ≠ some b := by
      by_contra! hall
      cases (hall 0).symm.trans (hall 1)
    apply h (data.length - 1) (by omega) (.inr (by omega)) b hb
    apply segments_congr
    intro r hr
    apply segment_congr List.length_set
    intro i hlo hhi
    have := (hranges i).1 ⟨r, hr, hlo, hhi⟩
    exact List.getElem?_set_ne (by omega)
  · intro hle i hi hfield b hb heq
    obtain ⟨r, hr, hlo, hhi⟩ := (hranges i).2 (by omega)
    obtain ⟨bs, hbs, hbs'⟩ := exists_segment_of_segments hparts (heq.trans hparts) r hr
    obtain ⟨j, rfl⟩ := Nat.exists_eq_add_of_le hlo
    have hcell := getElem?_of_segment hbs (i := j) (by omega)
    have hcell' := getElem?_of_segment hbs' (i := j) (by omega)
    rw [List.getElem?_set_self hi] at hcell'
    exact hb (hcell.trans hcell'.symm)

theorem crcRanges_upTo {configOffset offset : ℕ} {length : uint32}
    (hzero : configOffset = 0 → offset = 0) :
    RangesUpTo offset size (crcStop offset size length)
      (crcRanges configOffset offset size length) := by
  intro i
  unfold crcRanges crcStop
  split_ifs
  · simp
  · obtain rfl := hzero (by omega)
    simp

theorem profile4Ranges_upTo (offset : ℕ) (length : uint16) :
    RangesUpTo (offset + 8) 4 length.toNat (profile4Ranges offset length) := by
  intro i
  unfold profile4Ranges
  split_ifs <;> simp <;> omega

variable {fields : List Field} {c w : ℕ} {admitted : Prop}

theorem length_of_writeFields (h : writeFields data fields = some wire) :
    wire.length = data.length := by
  induction fields generalizing data with
  | nil => rw [← some.inj h]
  | cons f fields ih =>
    obtain ⟨mid, hmid, hrest⟩ := bind_eq_some_iff.mp h
    rw [ih hrest, length_of_writeBytes hmid]

theorem segments_of_crcOver {calculate : List uint8 → BitVec c → Bool → BitVec c}
    {start crc : BitVec c} {suffix : List (List uint8)}
    (h : crcOver calculate start data ranges suffix = some crc) :
    ∃ parts, segments data ranges = some parts := by
  obtain ⟨parts, hparts, -⟩ := map_eq_some_iff.mp h
  exact ⟨parts, hparts⟩

theorem segments_of_sealMessage
    {computeCRC : List uint8 → Option (BitVec c)} {encode : BitVec c → List uint8}
    (hcompute : ∀ data crc, computeCRC data = some crc → ∃ parts, segments data ranges = some parts)
    (h : sealMessage fields computeCRC pos encode data = some wire) :
    wire.length = data.length ∧ ∃ parts, segments wire ranges = some parts := by
  simp only [sealMessage, bind_eq_bind, bind_eq_some_iff] at h
  obtain ⟨filled, hfilled, crc, hcrc, hwire⟩ := h
  obtain ⟨parts, hparts⟩ := hcompute filled crc hcrc
  have hlen := length_of_writeFields hwire
  refine ⟨hlen.trans (length_of_writeFields hfilled), exists_segments fun r hr => ?_⟩
  obtain ⟨bs, hbs, -⟩ := exists_segment_of_segments hparts hparts r hr
  unfold Bytes.segment at hbs
  split_ifs at hbs with hin
  exact hlen ▸ hin

theorem of_protectMessage_ok [Decidable admitted]
    {state next after : ProtectState w} {write : List uint8 → Option (List uint8)}
    (h : protectMessage admitted state next (some data) write = some (.ok, after, some wire)) :
    admitted ∧ write data = some wire := by
  unfold protectMessage at h
  split_ifs at h with hadmitted
  · obtain ⟨_, hwrite, heq⟩ := map_eq_some_iff.mp h
    cases heq
    exact ⟨hadmitted, hwrite⟩
  · cases h

theorem of_checkMessage_ok {lw : ℕ} [Decidable admitted]
    {state after : CheckState w} {length : BitVec lw} {check : List uint8 → Option (CheckState w)}
    (h : checkMessage admitted state (some data) length check = some (.ok, after)) :
    admitted ∧ check data = some after := by
  simp only [checkMessage] at h
  split_ifs at h with hadmitted
  · obtain ⟨_, hcheck, heq⟩ := map_eq_some_iff.mp h
    cases heq
    exact ⟨hadmitted.2, hcheck⟩
  · cases h

namespace Profile

variable {w : ℕ} {p : Profile w 16} {crcRanges : uint16 → List (ℕ × ℕ)}

/-- What `Protect` and `Check` let pass is covered. -/
def CoversBuffer (p : Profile w 16) (crcRanges : uint16 → List (ℕ × ℕ)) (pos size : ℕ)
    (data : List uint8) : Prop :=
  (∀ state after wire,
    p.protect state (some data) (lengthOf 16 data) = some (.ok, after, some wire) →
      Covers (crcRanges (lengthOf 16 data)) pos size wire) ∧
  ∀ state after, p.check state (some data) (lengthOf 16 data) = some (.ok, after) →
    Covers (crcRanges (lengthOf 16 data)) pos size data

/-- The size does not fit into `Length`, and what is left of it is admitted. -/
def CutOff (p : Profile w 16) (data : List uint8) : Prop :=
  2 ^ 16 ≤ data.length ∧ p.Admits (lengthOf 16 data)

/-- A success needs an admitted `Length` and a CRC. -/
structure ComputesCRC (p : Profile w 16) (crcRanges : uint16 → List (ℕ × ℕ)) : Prop where
  protect_ok : ∀ {state data n after wire},
    p.protect state (some data) n = some (.ok, after, some wire) →
      p.Admits n ∧ wire.length = data.length ∧ ∃ parts, segments wire (crcRanges n) = some parts
  check_ok : ∀ {state data n after}, p.check state (some data) n = some (.ok, after) →
    p.Admits n ∧ ∃ parts, segments data (crcRanges n) = some parts

theorem ComputesCRC.covers_iff_stop (h : p.ComputesCRC crcRanges)
    (hranges : RangesUpTo pos size stop (crcRanges (lengthOf 16 data)))
    (hshort : data.length < 2 ^ 16 → data.length ≤ stop ∨ data.length ≤ pos + size)
    (hprotect : p.CutOff data → stop < data.length → pos + size < data.length →
      ∃ state after wire,
        p.protect state (some data) (lengthOf 16 data) = some (.ok, after, some wire)) :
    p.CoversBuffer crcRanges pos size data ↔
      (p.CutOff data → data.length ≤ stop ∨ data.length ≤ pos + size) := by
  constructor
  · intro hcovers hcut
    by_contra! hlt
    obtain ⟨state, after, wire, hok⟩ := hprotect hcut hlt.1 hlt.2
    obtain ⟨-, hlen, parts, hparts⟩ := h.protect_ok hok
    have := (covers_iff hranges hparts).1 (hcovers.1 state after wire hok)
    omega
  · intro hle
    have hadmitted : p.Admits (lengthOf 16 data) →
        data.length ≤ stop ∨ data.length ≤ pos + size := by
      intro hadmits
      rcases lt_or_ge data.length (2 ^ 16) with hlt | hge
      · exact hshort hlt
      · exact hle ⟨hge, hadmits⟩
    constructor
    · intro state after wire hok
      obtain ⟨hadmits, hlen, parts, hparts⟩ := h.protect_ok hok
      exact (covers_iff hranges hparts).2 (hlen ▸ hadmitted hadmits)
    · intro state after hok
      obtain ⟨hadmits, parts, hparts⟩ := h.check_ok hok
      exact (covers_iff hranges hparts).2 (hadmitted hadmits)

end Profile

open Profile

theorem toNat_lengthOf (data : List uint8) : (lengthOf 16 data).toNat = data.length % 2 ^ 16 :=
  BitVec.toNat_ofNat _ _

theorem profile4_coversBuffer_iff {p : Profile 16 16} {layout : Layout4}
    (hprotect : p.protect = profile4Protect layout) (hcheck : p.check = profile4Check layout)
    (hadmits : p.Admits = layout.Admits) (data : List uint8) :
    p.CoversBuffer (profile4Ranges layout.offset) (layout.offset + 8) 4 data ↔
      (p.CutOff data → data.length ≤ layout.offset + 12) := by
  have hcomputes : p.ComputesCRC (profile4Ranges layout.offset) := by
    constructor
    · intro state data n after wire h
      rw [hprotect] at h
      obtain ⟨hadmitted, hseal⟩ := of_protectMessage_ok h
      exact ⟨hadmits ▸ hadmitted, segments_of_sealMessage (fun _ _ => segments_of_crcOver) hseal⟩
    · intro state data n after h
      rw [hcheck] at h
      obtain ⟨hadmitted, h⟩ := of_checkMessage_ok h
      simp only [bind_eq_bind, bind_eq_some_iff] at h
      obtain ⟨-, -, -, -, -, -, -, -, crc, hcrc, -⟩ := h
      exact ⟨hadmits ▸ hadmitted, segments_of_crcOver hcrc⟩
  have hlength := toNat_lengthOf data
  rw [hcomputes.covers_iff_stop (profile4Ranges_upTo _ _) (by omega)]
  · refine imp_congr_right fun hcut => ?_
    have := hcut.1
    omega
  · intro hcut hstop hoff
    obtain ⟨wire, hok, -⟩ := profile4Protect_correct hstop.le (hadmits ▸ hcut.2) hoff.le ⟨0⟩
    rw [hprotect]
    exact ⟨_, _, wire, hok⟩

theorem crcRanges_coversBuffer_iff {w configOffset offset : ℕ} {p : Profile w 16}
    (hzero : configOffset = 0 → offset = 0) (hoffset : offset + size < 2 ^ 16)
    (hcomputes : p.ComputesCRC fun n => crcRanges configOffset offset size (n.setWidth 32))
    (hprotect : p.Admits (lengthOf 16 data) →
      crcStop offset size ((lengthOf 16 data).setWidth 32) ≤ data.length →
      offset + size + 3 ≤ data.length → ∃ state after wire,
        p.protect state (some data) (lengthOf 16 data) = some (.ok, after, some wire)) :
    p.CoversBuffer (fun n => crcRanges configOffset offset size (n.setWidth 32)) offset size
        data ↔
      (p.CutOff data → (lengthOf 16 data).toNat < offset + size ∧
        data.length ≤ 2 ^ 32 + (lengthOf 16 data).toNat) := by
  have hlength := toNat_lengthOf data
  have hstop : crcStop offset size ((lengthOf 16 data).setWidth 32) =
      if (lengthOf 16 data).toNat < offset + size then 2 ^ 32 + (lengthOf 16 data).toNat
      else (lengthOf 16 data).toNat := by
    unfold crcStop
    split_ifs <;> bv_omega
  rw [hcomputes.covers_iff_stop (crcRanges_upTo hzero)]
  · refine imp_congr_right fun hcut => ?_
    have := hcut.1
    rw [hstop]
    split_ifs <;> omega
  · rw [hstop]
    split_ifs <;> omega
  · intro hcut hlt hoff
    apply hprotect hcut.2 hlt.le
    rw [hstop] at hlt
    split_ifs at hlt <;> omega

theorem computesCRC_p05_p06 :
    (∀ config : P05Config, config.profile.ComputesCRC fun n =>
      crcRanges config.offset.toNat config.byteOffset 2 (n.setWidth 32)) ∧
    ∀ config : P06Config, config.profile.ComputesCRC fun n =>
      crcRanges config.offset.toNat config.byteOffset 2 (n.setWidth 32) := by
  constructor <;> intro config <;> constructor
  case left.protect_ok | right.protect_ok =>
    intro state data n after wire h
    obtain ⟨hadmitted, hseal⟩ := of_protectMessage_ok h
    exact ⟨hadmitted, segments_of_sealMessage (fun _ _ => segments_of_crcOver) hseal⟩
  all_goals
    intro state data n after h
    simp only [P05Config.profile, P06Config.profile, p05Check, p06Check] at h
    obtain ⟨hadmitted, h⟩ := of_checkMessage_ok h
    simp only [bind_eq_bind, bind_eq_some_iff] at h
    obtain ⟨-, -, -, -, -, -, crc, hcrc, -⟩ := h
    exact ⟨hadmitted, segments_of_crcOver hcrc⟩

theorem P22Config.computesCRC (config : P22Config) :
    config.profile.ComputesCRC (p22Ranges config) := by
  have hcompute : ∀ {n counter data crc}, p22CRC config n counter data = some crc →
      ∃ parts, segments data (p22Ranges config n) = some parts := by
    intro n counter data crc h
    obtain ⟨dataID, -, hcrc⟩ := bind_eq_some_iff.mp h
    exact segments_of_crcOver hcrc
  constructor
  · intro state data n after wire h
    change p22Protect config state (some data) n = _ at h
    unfold p22Protect at h
    obtain ⟨hadmitted, h⟩ := of_protectMessage_ok h
    obtain ⟨old, -, hseal⟩ := bind_eq_some_iff.mp h
    exact ⟨hadmitted, segments_of_sealMessage (fun _ _ => hcompute) hseal⟩
  · intro state data n after h
    change p22Check config state (some data) n = _ at h
    obtain ⟨hadmitted, h⟩ := of_checkMessage_ok h
    obtain ⟨_, -, h⟩ := bind_eq_some_iff.mp h
    obtain ⟨_, -, h⟩ := bind_eq_some_iff.mp h
    obtain ⟨crc, hcrc, -⟩ := bind_eq_some_iff.mp h
    exact ⟨hadmitted, hcompute hcrc⟩

theorem byteOffset_lt (offset : uint16) : (offset / 8).toNat + 2 < 2 ^ 16 := by
  rw [BitVec.toNat_udiv, show (8 : uint16).toNat = 8 from rfl]
  omega

/-- What the profiles with a 16-bit `Length` let pass is covered by the CRC unless its size is
cut off. Then it is covered only if it ends with the header in profiles 4 and 44; and in
profiles 5 and 6 if the rest does not reach behind the CRC field, since the CRC then goes on to
where 32 bits wrap around. -/
theorem coversBuffer_iff (data : List uint8) :
    (∀ config : P04Config,
      config.profile.CoversBuffer (profile4Ranges config.layout.offset) (config.layout.offset + 8)
          4 data ↔
        (config.profile.CutOff data → data.length ≤ config.layout.offset + 12)) ∧
    (∀ config : P44Config,
      config.profile.CoversBuffer (profile4Ranges config.layout.offset) (config.layout.offset + 8)
          4 data ↔
        (config.profile.CutOff data → data.length ≤ config.layout.offset + 12)) ∧
    (∀ config : P05Config,
      config.profile.CoversBuffer
          (fun n => crcRanges config.offset.toNat config.byteOffset 2 (n.setWidth 32))
          config.byteOffset 2 data ↔
        (config.profile.CutOff data → (lengthOf 16 data).toNat < config.byteOffset + 2 ∧
          data.length ≤ 2 ^ 32 + (lengthOf 16 data).toNat)) ∧
    (∀ config : P06Config,
      config.profile.CoversBuffer
          (fun n => crcRanges config.offset.toNat config.byteOffset 2 (n.setWidth 32))
          config.byteOffset 2 data ↔
        (config.profile.CutOff data → (lengthOf 16 data).toNat < config.byteOffset + 2 ∧
          data.length ≤ 2 ^ 32 + (lengthOf 16 data).toNat)) ∧
    ∀ config : P22Config,
      config.profile.CoversBuffer (p22Ranges config) config.byteOffset 1 data ↔
        ¬ config.profile.CutOff data := by
  refine ⟨fun config => profile4_coversBuffer_iff rfl rfl rfl data,
    fun config => profile4_coversBuffer_iff rfl rfl rfl data, ?_, ?_, ?_⟩
  · intro config
    apply crcRanges_coversBuffer_iff byteOffset_eq_zero (byteOffset_lt _)
      (computesCRC_p05_p06.1 config)
    intro hadmitted hstop hroom
    have hroom : config.byteOffset + 2 + 3 ≤ data.length := hroom
    obtain ⟨wire, hok, -⟩ := p05Protect_correct (by omega) hstop hadmitted ⟨0⟩
    exact ⟨_, _, wire, hok⟩
  · intro config
    apply crcRanges_coversBuffer_iff byteOffset_eq_zero (byteOffset_lt _)
      (computesCRC_p05_p06.2 config)
    intro hadmitted hstop hroom
    obtain ⟨wire, hok, -⟩ := p06Protect_correct hroom hstop hadmitted ⟨0⟩
    exact ⟨_, _, wire, hok⟩
  · intro config
    have hcomputes := config.computesCRC
    rw [p22Ranges_eq] at hcomputes ⊢
    rw [crcRanges_coversBuffer_iff config.byteOffset_eq_zero (Nat.lt_of_succ_lt (byteOffset_lt _))
      hcomputes]
    · refine imp_congr_right fun hcut => iff_false_intro ?_
      have := hcut.2.2
      omega
    · intro hadmitted hstop hroom
      have hlen : (lengthOf 16 data).toNat ≤ data.length := by exact Nat.mod_le _ _
      obtain ⟨wire, hok, -⟩ := p22Protect_correct hlen hadmitted ⟨0⟩
      exact ⟨_, _, wire, hok⟩

/-- 65556 bytes: `Length` is 20, and so is the length of what the CRC covers. -/
theorem not_coversBuffer_long :
    ¬ (P04Config.mk 1 0 0 1000 1).profile.CoversBuffer (profile4Ranges 0) 8 4
      (List.replicate 65556 0) := by
  intro h
  have hiff := profile4_coversBuffer_iff (p := (P04Config.mk 1 0 0 1000 1).profile)
    (show _ = profile4Protect (P04Config.mk 1 0 0 1000 1).layout from rfl) rfl rfl
    (List.replicate 65556 0)
  have hlength : lengthOf 16 (List.replicate 65556 (0 : uint8)) = 20 := by
    rw [lengthOf, List.length_replicate]
    rfl
  rw [CutOff, hlength, List.length_replicate] at hiff
  have hadmits : (P04Config.mk 1 0 0 1000 1).layout.Admits 20 := by decide
  exact absurd (hiff.1 h ⟨by decide, hadmits⟩) (by decide)

end AdaptivePlatform.E2E
