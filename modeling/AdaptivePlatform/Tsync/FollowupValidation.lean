import Mathlib.Tactic
import AdaptivePlatform.Tsync.Followup

/-!
# What the validation of a follow-up message says about its sub-TLVs

A message carries a list of sub-TLVs. `Fault` is what a mode has against a sub-TLV
on its own: a wrong checksum, the wrong security, or an offset of a second and more.
`validate` does not look at every sub-TLV: it goes as far as the low byte of the
declared length, takes the first sub-TLV of each kind, skips the kinds behind one
that is not secured in the optional mode, and reads nanoseconds as a signed number.
-/
namespace AdaptivePlatform.Tsync

open Bytes List

structure SubTlv where
  type : uint8
  value : List uint8

def SubTlv.encode (s : SubTlv) : List uint8 := [s.type, BitVec.ofNat 8 s.value.length] ++ s.value

open SubTlv (encode)

/-- The message has an AUTOSAR TLV with these sub-TLVs, and declares their length. -/
structure Carries (mesg : Message) (subs : List SubTlv) : Prop where
  organization : isOrganizationAutosar mesg = true
  length : (beWord 16 [mesg 78, mesg 79]).toNat = 6 + (subs.flatMap encode).length
  value : ∀ s ∈ subs, s.value.length < 256
  content : mesg.bytes subTlvBuffer (subs.flatMap encode).length = subs.flatMap encode

def starts (p : ℕ) : List SubTlv → List ℕ
  | [] => []
  | s :: subs => p :: starts (p + s.value.length + 2) subs

section

variable (mesg : Message) (dataId : uint8) (mode : GlobalTimeCrcValidation) (subs : List SubTlv)
  (p : ℕ)

def nanoSeconds : ℕ := (getNanoSecond mesg p).toNat

variable (kind : Kind)

def HasKind : Prop := (kindOf (mesg p)).any (fun k => k.1 = kind) = true

/-- What a mode has against the security of a sub-TLV of a kind. -/
def SecurityFault : Prop :=
  match mode with
  | .crcIgnord => False
  | .crcNotValidated => isSecured mesg p = true
  | .crcOptional => isSecured mesg p = true ∧ crcCheckOf mesg dataId p kind = false
  | .crcValidated => isSecured mesg p = false ∨ crcCheckOf mesg dataId p kind = false

def RangeFault : Prop := 999999999 < nanoSeconds mesg p

def Fault : Prop :=
  (∃ kind, HasKind mesg p kind ∧ SecurityFault mesg dataId mode p kind) ∨
    HasKind mesg p .ofs ∧ RangeFault mesg p

/-- The sub-TLVs that start inside of the low byte of the declared length. -/
def walked : List ℕ :=
  (starts subTlvBuffer subs).takeWhile fun p =>
    decide (p + 6 < subTlvBuffer + (6 + (subs.flatMap encode).length) % 256)

/-- The first sub-TLV of a kind among them. -/
def First (p : ℕ) : Prop :=
  (walked subs).find? (fun p => (kindOf (mesg p)).any fun k => k.1 = kind) = some p

/-- In the optional mode a kind is looked at if the first sub-TLVs of the kinds before it are
secured. -/
def LookedAt : Prop :=
  mode = .crcOptional → ∀ before ∈ kinds.takeWhile (· ≠ kind), ∀ p, First mesg subs before p →
    isSecured mesg p = true

/-- A fault that the validation comes to see. -/
def SeenFault : Prop :=
  (∃ kind, First mesg subs kind p ∧ LookedAt mesg mode subs kind ∧
    SecurityFault mesg dataId mode p kind) ∨
  First mesg subs .ofs p ∧ RangeFault mesg p ∧ nanoSeconds mesg p < 2 ^ 31

instance (p : ℕ) (kind : Kind) : Decidable (HasKind mesg p kind) :=
  inferInstanceAs (Decidable (_ = _))

instance (mode : GlobalTimeCrcValidation) (p : ℕ) (kind : Kind) :
    Decidable (SecurityFault mesg dataId mode p kind) :=
  match mode with
  | .crcIgnord => inferInstanceAs (Decidable False)
  | .crcNotValidated => inferInstanceAs (Decidable (_ = _))
  | .crcOptional => inferInstanceAs (Decidable (_ ∧ _))
  | .crcValidated => inferInstanceAs (Decidable (_ ∨ _))

instance (p : ℕ) : Decidable (RangeFault mesg p) := inferInstanceAs (Decidable (_ < _))

instance (subs : List SubTlv) (kind : Kind) (p : ℕ) : Decidable (First mesg subs kind p) :=
  inferInstanceAs (Decidable (_ = _))

end

section

variable {mesg : Message} {subs : List SubTlv} {p tail fuel : ℕ}

theorem Message.bytes_add (mesg : Message) (p m n : ℕ) :
    mesg.bytes p (m + n) = mesg.bytes p m ++ mesg.bytes (p + m) n := by
  simp [Message.bytes, range_add, Nat.add_assoc]

@[simp] theorem Message.length_bytes (mesg : Message) (p n : ℕ) : (mesg.bytes p n).length = n := by
  simp [Message.bytes]

theorem Message.getElem?_bytes (mesg : Message) (p : ℕ) {i n : ℕ} (h : i < n) :
    (mesg.bytes p n)[i]? = some (mesg (p + i)) := by
  simp [Message.bytes, h]

/-- The walk finds the sub-TLVs one after the other, up to the tail. -/
theorem unAssemble_eq (hvalue : ∀ s ∈ subs, s.value.length < 256)
    (hcontent : mesg.bytes p (subs.flatMap encode).length = subs.flatMap encode)
    (htail : tail ≤ p + (subs.flatMap encode).length) (hfuel : tail < p + fuel) :
    unAssemble mesg tail fuel p = (starts p subs).takeWhile fun q => decide (q < tail) := by
  induction subs generalizing p fuel with
  | nil =>
    cases fuel with
    | zero => rfl
    | succ fuel =>
      rw [unAssemble, if_neg (by simpa using htail)]
      rfl
  | cons s subs ih =>
    cases fuel with
    | zero =>
      have hnot : ¬ p < tail := by omega
      simp [unAssemble, starts, hnot]
    | succ fuel =>
      have hlen : s.encode.length = s.value.length + 2 := by simp [encode]
      rw [flatMap_cons, length_append, Message.bytes_add] at hcontent
      obtain ⟨hhere, hrest⟩ := append_inj hcontent (by simp)
      have hbyte : (mesg (p + 1)).toNat = s.value.length := by
        have hget : (mesg.bytes p s.encode.length)[1]? = some (BitVec.ofNat 8 s.value.length) := by
          rw [hhere]
          rfl
        rw [Message.getElem?_bytes mesg p (by omega)] at hget
        rw [Option.some.inj hget, BitVec.toNat_ofNat, Nat.mod_eq_of_lt (hvalue s (by simp))]
      rw [flatMap_cons, length_append] at htail
      have ih : unAssemble mesg tail fuel (p + s.encode.length) = _ :=
        ih (fun t ht => hvalue t (by simp [ht])) hrest (by omega) (by omega)
      rw [hlen, ← Nat.add_assoc] at ih
      rw [unAssemble, hbyte, ih, starts]
      by_cases hp : p < tail
      · simp [hp]
      · simp [hp]

theorem Carries.unAssembleTlv_eq (h : Carries mesg subs) : unAssembleTlv mesg = walked subs := by
  have hbyte : (getLength mesg).toNat = (6 + (subs.flatMap encode).length) % 256 := by
    rw [getLength, BitVec.toNat_setWidth, h.length]
  rw [unAssembleTlv, h.organization, hbyte, walked]
  by_cases hsome : 6 < (6 + (subs.flatMap encode).length) % 256
  · rw [if_pos (by simp only [hsome, decide_true, Bool.and_true]),
      unAssemble_eq h.value h.content (by omega) (by omega)]
    congr 1
    funext q
    rw [decide_eq_decide]
    omega
  · rw [if_neg (by simp only [hsome, decide_false, Bool.and_false, Bool.false_eq_true,
      not_false_eq_true])]
    cases subs with
    | nil => rfl
    | cons s subs =>
      symm
      apply takeWhile_cons_of_neg
      simp only [decide_eq_true_eq]
      omega

theorem Carries.first_iff (h : Carries mesg subs) (kind : Kind) :
    First mesg subs kind p ↔ getSubTlv mesg kind = some p := by
  rw [First, getSubTlv, h.unAssembleTlv_eq]

end

section

variable {mesg : Message} {dataId : uint8} {subs : List SubTlv}

/-- No kind of a list fails the check of the optional mode. -/
def OptionalPass (mesg : Message) (dataId : uint8) (ks : List Kind) : Prop :=
  ∀ kind ∈ ks, ∀ p, getSubTlv mesg kind = some p →
    (∀ before ∈ ks.takeWhile (· ≠ kind), ∀ q, getSubTlv mesg before = some q →
      isSecured mesg q = true) →
    ¬ (isSecured mesg p = true ∧ crcCheckOf mesg dataId p kind = false)

theorem optionalPass_cons {k : Kind} {ks : List Kind}
    (h : ∀ q, getSubTlv mesg k = some q →
      isSecured mesg q = true ∧ crcCheckOf mesg dataId q k = true) :
    OptionalPass mesg dataId (k :: ks) ↔ OptionalPass mesg dataId ks := by
  constructor
  · intro hpass kind hkind p hp hbefore
    by_cases hk : kind = k
    · subst hk
      simp [h p hp]
    · apply hpass kind (mem_cons_of_mem _ hkind) p hp
      rw [takeWhile_cons_of_pos (by simpa using Ne.symm hk)]
      intro before hmem q hq
      rcases mem_cons.1 hmem with rfl | hmem
      · exact (h q hq).1
      · exact hbefore before hmem q hq
  · intro hpass kind hkind p hp hbefore
    by_cases hk : kind = k
    · subst hk
      simp [h p hp]
    · apply hpass kind (mem_of_ne_of_mem hk hkind) p hp
      rw [takeWhile_cons_of_pos (by simpa using Ne.symm hk)] at hbefore
      intro before hmem
      exact hbefore before (mem_cons_of_mem _ hmem)

theorem optionalCheck_iff (ks : List Kind) :
    optionalCheck mesg dataId ks = true ↔ OptionalPass mesg dataId ks := by
  induction ks with
  | nil => simp [optionalCheck, OptionalPass]
  | cons k ks ih =>
    rw [optionalCheck]
    rcases hk : getSubTlv mesg k with _ | p
    · rw [optionalPass_cons (by simp [hk])]
      exact ih
    · by_cases hsec : isSecured mesg p = true
      · by_cases hcrc : crcCheckOf mesg dataId p k = true
        · have hgood : ∀ q, getSubTlv mesg k = some q →
              isSecured mesg q = true ∧ crcCheckOf mesg dataId q k = true := by
            intro q hq
            obtain rfl : p = q := Option.some.inj (hk.symm.trans hq)
            exact ⟨hsec, hcrc⟩
          rw [optionalPass_cons hgood, ← ih]
          simp [hsec, hcrc]
        · simp only [hsec, hcrc, Bool.not_true, Bool.false_eq_true, if_false, Bool.not_false,
            if_true, false_iff]
          intro hpass
          exact hpass k (by simp) p hk (by simp) ⟨hsec, by simpa using hcrc⟩
      · simp only [hsec, Bool.not_false, if_true, true_iff]
        intro kind _ q hq hbefore
        by_cases hkind : kind = k
        · subst hkind
          obtain rfl : p = q := Option.some.inj (hk.symm.trans hq)
          exact fun h => hsec h.1
        · rw [takeWhile_cons_of_pos (by simpa using Ne.symm hkind)] at hbefore
          exact absurd (hbefore k (by simp) p hk) hsec

theorem mem_kinds (kind : Kind) : kind ∈ kinds := by cases kind <;> decide

/-- A word that is at most the bound as a signed number is so as a number, or has its top bit. -/
theorem slt_nanoSeconds_iff (mesg : Message) (p : ℕ) :
    BitVec.slt 999999999 (getNanoSecond mesg p) = true ↔
      RangeFault mesg p ∧ nanoSeconds mesg p < 2 ^ 31 := by
  have hbound : (999999999 : BitVec 32).toInt = 999999999 := by decide
  rw [BitVec.slt, decide_eq_true_eq, RangeFault, nanoSeconds, hbound, BitVec.toInt_eq_toNat_cond]
  split_ifs <;> omega

theorem not_seenFault_iff (mode : GlobalTimeCrcValidation) :
    (¬ ∃ p, SeenFault mesg dataId mode subs p) ↔
      (∀ kind p, First mesg subs kind p → LookedAt mesg mode subs kind →
        ¬ SecurityFault mesg dataId mode p kind) ∧
      ∀ p, First mesg subs .ofs p → ¬ (RangeFault mesg p ∧ nanoSeconds mesg p < 2 ^ 31) := by
  constructor
  · intro hnone
    constructor
    · intro kind p hfirst hlooked hfault
      exact hnone ⟨p, .inl ⟨kind, hfirst, hlooked, hfault⟩⟩
    · intro p hfirst hfault
      exact hnone ⟨p, .inr ⟨hfirst, hfault⟩⟩
  · rintro ⟨hsecurity, hrange⟩ ⟨p, ⟨kind, hfirst, hlooked, hfault⟩ | ⟨hfirst, hfault⟩⟩
    · exact hsecurity kind p hfirst hlooked hfault
    · exact hrange p hfirst hfault

variable {mode : GlobalTimeCrcValidation}

theorem Carries.all_kinds_iff (h : Carries mesg subs)
    (hmode : mode ≠ .crcOptional) {check : ℕ → Kind → Bool}
    (hcheck : ∀ p kind, check p kind = true ↔ ¬ SecurityFault mesg dataId mode p kind) :
    kinds.all (fun kind => (getSubTlv mesg kind).all fun p => check p kind) = true ↔
      ∀ kind p, First mesg subs kind p → LookedAt mesg mode subs kind →
        ¬ SecurityFault mesg dataId mode p kind := by
  have hlooked : ∀ kind, LookedAt mesg mode subs kind := fun _ heq => absurd heq hmode
  have hkind : ∀ kind, ((getSubTlv mesg kind).all fun p => check p kind) = true ↔
      ∀ p, First mesg subs kind p → ¬ SecurityFault mesg dataId mode p kind := by
    intro kind
    simp only [h.first_iff, ← hcheck]
    cases getSubTlv mesg kind with
    | none | some p => simp
  simp only [all_eq_true, mem_kinds, forall_const, hkind, hlooked]

/-- The message passes if the validation sees no fault. -/
theorem Carries.validate_iff (h : Carries mesg subs) (mode : GlobalTimeCrcValidation) :
    validate false mode dataId mesg = true ↔ ¬ ∃ p, SeenFault mesg dataId mode subs p := by
  have hrange : ((getSubTlv mesg .ofs).all fun p =>
      !BitVec.slt 999999999 (getNanoSecond mesg p)) = true ↔
      ∀ p, First mesg subs .ofs p → ¬ (RangeFault mesg p ∧ nanoSeconds mesg p < 2 ^ 31) := by
    simp only [h.first_iff, ← slt_nanoSeconds_iff]
    cases getSubTlv mesg .ofs with
    | none | some p => simp
  rw [not_seenFault_iff, ← hrange]
  simp only [validate, Bool.false_eq_true, if_false, Bool.and_eq_true]
  apply and_congr_left
  intro _
  cases mode with
  | crcIgnord => simp [SecurityFault]
  | crcNotValidated =>
    have hcheck : ∀ p kind, (!isSecured mesg p) = true ↔
        ¬ SecurityFault mesg dataId .crcNotValidated p kind := by simp [SecurityFault]
    exact h.all_kinds_iff (by decide) hcheck
  | crcValidated =>
    have hcheck : ∀ p kind, (isSecured mesg p && crcCheckOf mesg dataId p kind) = true ↔
        ¬ SecurityFault mesg dataId .crcValidated p kind := by simp [SecurityFault]
    exact h.all_kinds_iff (by decide) hcheck
  | crcOptional =>
    rw [optionalCheck_iff]
    simp only [OptionalPass, mem_kinds, forall_const, LookedAt, h.first_iff, SecurityFault]

theorem SeenFault.fault {p : ℕ} (h : SeenFault mesg dataId mode subs p) :
    p ∈ starts subTlvBuffer subs ∧ Fault mesg dataId mode p := by
  have hmem : ∀ {kind}, First mesg subs kind p →
      p ∈ starts subTlvBuffer subs ∧ HasKind mesg p kind := by
    intro kind hfirst
    have hkind := find?_some hfirst
    exact ⟨takeWhile_subset _ (mem_of_find?_eq_some hfirst), hkind⟩
  rcases h with ⟨kind, hfirst, -, hfault⟩ | ⟨hfirst, hfault, -⟩
  · exact ⟨(hmem hfirst).1, .inl ⟨kind, (hmem hfirst).2, hfault⟩⟩
  · exact ⟨(hmem hfirst).1, .inr ⟨(hmem hfirst).2, hfault⟩⟩

end

/-- In each mode the validation says what the sub-TLVs are if they have no fault, or if one of
their faults is seen: it is in the first sub-TLV of its kind within the low byte of the declared
length, a wrong checksum is not behind a kind that is not secured in the optional mode, and the
nanoseconds are less than 2³¹. -/
theorem validate_says_iff (mesg : Message) (dataId : uint8) (subs : List SubTlv)
    (mode : GlobalTimeCrcValidation) (h : Carries mesg subs) :
    (validate false mode dataId mesg = true ↔
      ∀ p ∈ starts subTlvBuffer subs, ¬ Fault mesg dataId mode p) ↔
    ((∃ p ∈ starts subTlvBuffer subs, Fault mesg dataId mode p) →
      ∃ p, SeenFault mesg dataId mode subs p) := by
  rw [h.validate_iff]
  constructor
  · rintro hsays ⟨p, hp, hfault⟩
    by_contra hunseen
    exact hsays.1 hunseen p hp hfault
  · intro hseen
    constructor
    · intro hunseen p hp hfault
      exact hunseen (hseen ⟨p, hp, hfault⟩)
    · rintro hnone ⟨p, hp⟩
      exact hnone p hp.fault.1 hp.fault.2

def sample (subs : List SubTlv) : Message := fun i =>
  (List.replicate 76 0 ++ [0, 3] ++
    beBytes 2 (BitVec.ofNat 16 (6 + (subs.flatMap encode).length)) ++
    [0x1A, 0x75, 0xFB, 0x60, 0x56, 0x76] ++ subs.flatMap encode).getD i 0

/-- A status with a wrong checksum; it is the only sub-TLV, so it is seen. -/
def wrongStatus : List SubTlv := [⟨0x50, [0, 0]⟩]

theorem validate_says_wrongStatus :
    ¬ (validate false .crcOptional 0 (sample wrongStatus) = true) := by
  have hcarries : Carries (sample wrongStatus) wrongStatus :=
    ⟨by decide, by decide, by decide, by decide⟩
  have hlooked : LookedAt (sample wrongStatus) .crcOptional wrongStatus .status := by
    intro _ before hbefore p hfirst
    obtain rfl : before = .time := by simpa [kinds] using hbefore
    cases hfirst
  have hseen : SeenFault (sample wrongStatus) 0 .crcOptional wrongStatus 86 :=
    .inl ⟨.status, by decide, hlooked, by decide +kernel⟩
  rw [(validate_says_iff (sample wrongStatus) 0 wrongStatus .crcOptional hcarries).2
    fun _ => ⟨86, hseen⟩]
  exact fun hnone => hnone 86 hseen.fault.1 hseen.fault.2

/-- A status that is not secured, then user data with a wrong checksum. -/
def hiddenUserData : List SubTlv := [⟨0x51, [0, 0]⟩, ⟨0x60, [1, 0, 0, 0, 0]⟩]

/-- An offset of 2³¹ nanoseconds. -/
def hugeOffset : List SubTlv := [⟨0x34, [16, 0, 0, 0, 0, 0, 0, 0x80, 0, 0, 0, 0, 1, 0, 0, 0, 0]⟩]

/-- Two status sub-TLVs, the second one with a wrong checksum. -/
def secondStatus : List SubTlv := [⟨0x50, [0, 0x61]⟩, ⟨0x50, [0, 0]⟩]

theorem validate_overlooks :
    (Carries (sample hiddenUserData) hiddenUserData ∧
      validate false .crcOptional 0 (sample hiddenUserData) = true ∧
      Fault (sample hiddenUserData) 0 .crcOptional 90) ∧
    (Carries (sample hugeOffset) hugeOffset ∧
      validate false .crcNotValidated 0 (sample hugeOffset) = true ∧
      Fault (sample hugeOffset) 0 .crcNotValidated 86) ∧
    (Carries (sample secondStatus) secondStatus ∧
      validate false .crcValidated 0 (sample secondStatus) = true ∧
      Fault (sample secondStatus) 0 .crcValidated 90) := by
  refine ⟨⟨?_, by decide, ?_⟩, ⟨?_, by decide, ?_⟩, ?_, by decide +kernel, ?_⟩
  · exact ⟨by decide, by decide, by decide, by decide⟩
  · exact .inl ⟨.userData, by decide, by decide +kernel⟩
  · exact ⟨by decide, by decide, by decide, by decide⟩
  · exact .inr ⟨by decide, by decide⟩
  · exact ⟨by decide, by decide, by decide, by decide⟩
  · exact .inl ⟨.status, by decide, by decide +kernel⟩

end AdaptivePlatform.Tsync
