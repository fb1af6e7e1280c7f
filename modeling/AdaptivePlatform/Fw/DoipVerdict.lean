import AdaptivePlatform.Fw.SomeipVerdict

/-!
# The verdict on DoIP messages

The rules ask for a message to be blocked by its header and, for a diagnostic message,
by the service as well. The filter compares other bytes: of a diagnostic message it
looks at the service only, which it takes to be 64 bytes behind the header, and a last
message that is a header alone is not looked at.
-/
namespace AdaptivePlatform.Fw

open Bytes Loops BitVec
open BitVec (ofNat)

variable {r : Rules} {mem : Memory} {inOutFlag : Bool} {m before after : List uint8}

/-- The service of a diagnostic message, behind its two addresses. -/
def serviceFields (m : List uint8) : List (Parameter × s32) :=
  if be16 (load m) 2 = 0x8001#16 ∧ 12 < m.length then [(.udsService, (load m 12).setWidth 32)]
  else []

/-- The length field says how many bytes follow the header. -/
def Complete (m : List uint8) : Prop := lengthAt (load m) 0 + 8 = m.length

/-- The rules ask for the message to be blocked. -/
def DoipBlocked (r : Rules) (inOutFlag : Bool) (m : List uint8) : Prop :=
  r.Blocks (r.agrees inOutFlag (doipFields (load m) 0 ++ serviceFields m))

/-- What the filter compares of a message that starts at `p`. -/
def comparedFields (mem : Memory) (p : ℕ) (m : List uint8) : List (Parameter × s32) :=
  if be16 (load m) 2 = 0x8001#16 then
    if m.length < 13 then [] else [(.udsService, (mem (p + 68)).setWidth 32)]
  else doipFields (load m) 0

/-- Where the filter judges a message as the rules ask, given its position in the memory and whether
it is the last one of the payload. -/
inductive JudgedRight (r : Rules) (inOutFlag : Bool) (mem : Memory) (p : ℕ) (last : Prop)
    (m : List uint8) : Prop
  /-- Of a message that is not diagnostic the header is compared. -/
  | plain (hseen : last → 8 < m.length) (htype : be16 (load m) 2 ≠ 0x8001#16)
  /-- A header at the end of the payload is let through. -/
  | bareHeader (hlast : last) (hlength : m.length = 8) (hpasses : ¬ DoipBlocked r inOutFlag m)
  /-- Whatever is compared, the action is the same. -/
  | sameAction (hseen : last → 8 < m.length) (hsame : r.action = 0 ↔ r.defaultAction = 0)
  /-- A diagnostic message without a service is taken to agree. -/
  | noService (hseen : last → 8 < m.length) (htype : be16 (load m) 2 = 0x8001#16)
      (hlength : m.length < 13) (hheader : r.agrees inOutFlag (doipFields (load m) 0) = true)
  /-- The header and the service agree, and so does the byte 68 behind the start. -/
  | agrees (htype : be16 (load m) 2 = 0x8001#16) (hlength : 13 ≤ m.length)
      (hheader : r.agrees inOutFlag (doipFields (load m) 0) = true)
      (hservice : r.agrees inOutFlag [(.udsService, (load m 12).setWidth 32)] = true)
      (hread : r.agrees inOutFlag [(.udsService, (mem (p + 68)).setWidth 32)] = true)
  /-- The header or the service differs, and so does the byte 68 behind the start. -/
  | differs (htype : be16 (load m) 2 = 0x8001#16) (hlength : 13 ≤ m.length)
      (hmessage : r.agrees inOutFlag (doipFields (load m) 0) = false ∨
        r.agrees inOutFlag [(.udsService, (load m 12).setWidth 32)] = false)
      (hread : r.agrees inOutFlag [(.udsService, (mem (p + 68)).setWidth 32)] = false)

/-- The same for all messages of a payload, from the position `p` on. -/
def AllJudgedRight (r : Rules) (inOutFlag : Bool) (mem : Memory) : ℕ → List (List uint8) → Prop
  | _, [] => True
  | p, m :: rest => JudgedRight r inOutFlag mem p (rest = []) m ∧
      AllJudgedRight r inOutFlag mem (p + m.length) rest

instance (m : List uint8) : Decidable (DoipBlocked r inOutFlag m) :=
  inferInstanceAs (Decidable (r.Blocks _))

theorem agrees_append (r : Rules) (inOutFlag : Bool) (fields fields' : List (Parameter × s32)) :
    r.agrees inOutFlag (fields ++ fields') =
      (r.agrees inOutFlag fields && r.agrees inOutFlag fields') :=
  List.all_append

theorem JudgedRight.blocks_iff {p : ℕ} {last : Prop} (h : JudgedRight r inOutFlag mem p last m) :
    (last → 8 < m.length) ∧ r.Blocks (r.agrees inOutFlag (comparedFields mem p m)) ↔
      DoipBlocked r inOutFlag m := by
  cases h with
  | plain hseen htype =>
    rw [and_iff_right hseen, DoipBlocked, comparedFields, serviceFields, if_neg htype,
      if_neg (fun h => htype h.1), List.append_nil]
  | bareHeader hlast hlength hpasses =>
    exact iff_of_false (fun h => absurd (h.1 hlast) (by omega)) hpasses
  | sameAction hseen hsame =>
    have hall : ∀ agrees, r.Blocks agrees ↔ r.action = 0 := by
      intro agrees
      cases agrees with
      | false => simpa [Rules.Blocks] using hsame.symm
      | true => simp [Rules.Blocks]
    rw [and_iff_right hseen, DoipBlocked, hall, hall]
  | noService hseen htype hlength hheader =>
    rw [and_iff_right hseen, DoipBlocked, comparedFields, serviceFields, if_pos htype,
      if_pos hlength, if_neg (by omega), List.append_nil, hheader]
    rfl
  | agrees htype hlength hheader hservice hread =>
    rw [and_iff_right (fun _ => by omega), DoipBlocked, comparedFields, serviceFields,
      if_pos htype, if_neg (by omega), if_pos ⟨htype, hlength⟩, agrees_append, hheader, hservice,
      hread]
    rfl
  | differs htype hlength hmessage hread =>
    rw [and_iff_right (fun _ => by omega), DoipBlocked, comparedFields, serviceFields,
      if_pos htype, if_neg (by omega), if_pos ⟨htype, hlength⟩, agrees_append, hread,
      Bool.and_eq_false_iff.mpr hmessage]

section

variable {payload : List uint8} (hpayload : payload = before ++ (m ++ after))

variable (hm : Complete m)

include hpayload hm

/-- The fields of a message of a payload are those of the message alone. -/
theorem place_fields :
    be16 (place mem payload) (before.length + 2) = be16 (load m) 2 ∧
      be32 (place mem payload) (before.length + 4) = be32 (load m) 4 ∧
      doipFields (place mem payload) before.length = doipFields (load m) 0 := by
  rw [Complete] at hm
  have hread : ∀ k : ℤ, 0 ≤ k → k < 8 → place mem payload (before.length + k) = load m k :=
    fun k hk hk' => place_message hpayload hk (by omega)
  have hfirst := hread 0 le_rfl (by decide)
  rw [add_zero] at hfirst
  simp [be16, be32, doipFields, add_assoc, hread, hfirst]

variable (hlen : payload.length ≤ 65535)

include hlen

theorem doipLength_place :
    doipLength (place mem payload) before.length = m.length ∧ m.length ≤ 65535 := by
  have hshort : m.length ≤ 65535 := by
    rw [hpayload] at hlen
    simp only [List.length_append] at hlen
    omega
  refine ⟨?_, hshort⟩
  rw [doipLength, lengthAt, (place_fields hpayload hm).2.1, Nat.add_comm]
  exact (congrArg (· % 2 ^ 32) hm).trans (Nat.mod_eq_of_lt (by omega))

variable (hdefault : r.defaultAction = 0 ∨ r.defaultAction = 1)

include hdefault

/-- The filter drops a message by what it compares. -/
theorem drops_iff : Drops r (place mem payload) inOutFlag before.length ↔
    r.Blocks (r.agrees inOutFlag (comparedFields (place mem payload) before.length m)) := by
  obtain ⟨htype, hlength, hfields⟩ := @place_fields mem _ _ _ _ hpayload hm
  have hact : ∀ agrees : Bool, r.act (if agrees then 1 else -1) = -1 ↔ r.Blocks agrees := by
    intro agrees
    rcases hdefault with h | h <;> cases agrees <;> simp [Rules.act, Rules.Blocks, h]
  have hsize : ((be32 (load m) 4 + 8#32).signExtend 64).toNat = m.length := by
    have hshort := (@doipLength_place mem _ _ _ _ hpayload hm hlen).2
    have hword : be32 (load m) 4 + 8#32 = ofNat 32 m.length := by
      rw [← hm, ofNat_add, lengthAt, ofNat_toNat, setWidth_eq]
      rfl
    rw [hword, signExtend_eq_setWidth_of_msb_false]
    · simp
      omega
    · simp [msb_eq_decide]
      omega
  rw [← hact, Drops, doipSingleFilter, comparedFields, doIpDiagFilter, ofNat_eq_ofNat, htype,
    hlength, hfields, hsize]
  split_ifs <;> simp_all [add_assoc, Rules.agrees]

end

theorem exists_returns {messages : List (List uint8)} {payload : List uint8} {ruleCheck : ℤ}
    (hdefault : r.defaultAction = 0 ∨ r.defaultAction = 1) (hlen : payload.length ≤ 65535)
    (hcomplete : ∀ m ∈ messages, Complete m) (hpayload : payload = before ++ messages.flatten)
    (hjudged : AllJudgedRight r inOutFlag (place mem payload) before.length messages)
    (hcheck : ruleCheck ≠ -1) :
    ∃ b, Returns (doipBody r (place mem payload) (ofNat 32 payload.length) inOutFlag)
        (ofNat 32 before.length, ruleCheck) b ∧
      (b = false ↔ ∃ m ∈ messages, DoipBlocked r inOutFlag m) := by
  induction messages generalizing before ruleCheck with
  | nil =>
    obtain rfl : payload = before := by simpa using hpayload
    have hbody := @doipBody_eq r (place mem payload) inOutFlag _ _ hlen le_rfl ruleCheck
    rw [if_neg (by omega)] at hbody
    exact ⟨_, returns_of_inl hbody, by simp [hcheck]⟩
  | cons m rest ih =>
    obtain ⟨hm, hrest⟩ := List.forall_mem_cons.mp hcomplete
    have hsum : payload.length = before.length + (m.length + rest.flatten.length) := by
      simp [hpayload]
    obtain ⟨hlength, -⟩ := @doipLength_place mem _ _ _ _ hpayload hm hlen
    have hseen : before.length + 8 < payload.length ↔ (rest = [] → 8 < m.length) := by
      rw [Complete] at hm
      cases rest with
      | nil => simp [hsum]
      | cons next rest =>
        have hnext : lengthAt (load next) 0 + 8 = next.length := hrest next List.mem_cons_self
        simp only [List.flatten_cons, List.length_append] at hsum
        exact iff_of_true (by omega) (by simp)
    have hbody := @doipBody_eq r (place mem payload) inOutFlag _ before.length hlen (by omega)
      ruleCheck
    simp only [hlength, if_neg (by omega : ¬ payload.length < m.length),
      if_pos (by omega : before.length + m.length ≤ payload.length), hseen] at hbody
    have hblocked := hjudged.1.blocks_iff
    rw [← drops_iff hpayload hm hlen hdefault] at hblocked
    by_cases hlook : rest = [] → 8 < m.length
    · rw [if_pos hlook] at hbody
      by_cases hdrop : Drops r (place mem payload) inOutFlag before.length
      · rw [if_pos hdrop] at hbody
        have hthis := hblocked.mp ⟨hlook, hdrop⟩
        exact ⟨false, returns_of_inl hbody, by simp [hthis]⟩
      · rw [if_neg hdrop] at hbody
        obtain ⟨b, hreturns, hb⟩ := @ih (before ++ m) _ hrest (by simp [hpayload])
          (by simpa using hjudged.2) hdrop
        rw [List.length_append] at hreturns
        have hpasses : ¬ DoipBlocked r inOutFlag m := fun h => hdrop (hblocked.mpr h).2
        exact ⟨b, (returns_iff_of_inr hbody).mpr hreturns, by simp [hb, hpasses]⟩
    · rw [if_neg hlook] at hbody
      obtain rfl : rest = [] := by
        by_contra hne
        exact hlook fun h => absurd h hne
      have hpasses : ¬ DoipBlocked r inOutFlag m := fun h => hlook (hblocked.mpr h).1
      exact ⟨_, returns_of_inl hbody, by simp [hcheck, hpasses]⟩

/-- What agrees with one parameter is blocked, everything else passes. -/
def blockOne (parameter : Parameter) (value : s32) : Rules :=
  ⟨0, 1, fun p => if p = parameter then value else -1, fun _ => -1⟩

/-- A header alone, and a diagnostic message with the service `0x22`. -/
def identification : List uint8 := [0x02, 0xfd, 0x00, 0x01, 0, 0, 0, 0]

def readData : List uint8 := [0x02, 0xfd, 0x80, 0x01, 0, 0, 0, 5, 0x0e, 0x80, 0x10, 0x01, 0x22]

def announcement : List uint8 := [0x02, 0xfd, 0x00, 0x04, 0, 0, 0, 1, 0x00]

end AdaptivePlatform.Fw
