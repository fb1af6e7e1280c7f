import AdaptivePlatform.Idsm.Stream

/-!
# Inner lengths

The frame of a message announces its parts, and two of the parts state their own
length. The decoder does not compare any of this with the size of the message.
It stays inside the messages of a stream exactly if the parts fit into them; the
one case that it notices is a timestamp announced by a message that ends with
its event frame, where a checked read throws.
-/
namespace AdaptivePlatform.Idsm

open Bytes Reads LengthPrefixed
open ProtoFlag (contextData signature timestamp)

section

def wordAt (w pos n : ℕ) (body : List uint8) : BitVec w := beWord w ((body.drop pos).take n)

section

variable (crypto : Option Verify) (header : uint8) (pos : ℕ) (body : List uint8)

def flagsOf : uint8 := wordAt 8 0 1 body &&& 0x0F#8

def timestampEnd : ℕ := if Announces header timestamp then pos + 8 else pos

def contextEnd : ℕ :=
  if ¬ Announces header contextData then pos
  else if wordAt 8 pos 1 body < 128#8 then pos + 1 + (wordAt 8 pos 1 body).toNat
  else pos + 4 + (wordAt 32 pos 4 body &&& 0x7fffffff#32).toNat

def signatureEnd : ℕ :=
  if ¬ Announces header signature then pos
  else pos + 2 + (wordAt 16 pos 2 body).toNat

/-- Without verification the decoder does not look at the signature. -/
def readEnd : ℕ := crypto.elim pos fun _ => signatureEnd header pos body

/-- Where the announced parts of a body end. -/
def partsEnd : ℕ :=
  signatureEnd (flagsOf body) (contextEnd (flagsOf body) (timestampEnd (flagsOf body) 8) body) body

end

/-- Header, event frame and announced parts fit into the size of the message. -/
def Fits (m : Message uint8) : Prop := 8 + partsEnd m.body ≤ (sizeField m.head).toNat

/-- A timestamp is announced, but the message ends with its event frame. -/
def EndsAtTimestamp (m : Message uint8) : Prop :=
  (sizeField m.head).toNat = 16 ∧ Announces (flagsOf m.body) timestamp

instance decidableEndsAtTimestamp : DecidablePred EndsAtTimestamp :=
  fun _ => inferInstanceAs (Decidable (_ ∧ _))

variable {header : uint8} {pos : ℕ} {body : List uint8} {crypto : Option Verify}

theorem le_timestampEnd : pos ≤ timestampEnd header pos := by
  unfold timestampEnd
  split_ifs <;> omega

theorem le_contextEnd : pos ≤ contextEnd header pos body := by
  unfold contextEnd
  split_ifs <;> omega

theorem le_signatureEnd : pos ≤ signatureEnd header pos body := by
  unfold signatureEnd
  split_ifs <;> omega

theorem le_readEnd : pos ≤ readEnd crypto header pos body := by
  cases crypto with
  | none => exact le_rfl
  | some _ => exact le_signatureEnd

theorem readEnd_le (crypto : Option Verify) :
    readEnd crypto header pos body ≤ signatureEnd header pos body := by
  cases crypto with
  | none => exact le_signatureEnd
  | some _ => exact le_rfl

end

section

variable {w : ℕ} {header : uint8} {pos n : ℕ} (event : Event) {m : List uint8}
  (crypto : Option Verify)

theorem decodeEventFrame_of_le (h : 8 ≤ m.length) :
    ∃ frame event, frame.protoHeader = flagsOf m ∧
      (decodeEventFrame 0 {}).result m = .ok (frame, 8, event) := by
  match m, h with
  | b₀ :: b₁ :: b₂ :: b₃ :: b₄ :: b₅ :: b₆ :: b₇ :: rest, _ =>
    refine ⟨_, _, ?_, decodeEventFrame_eq b₀ b₁ b₂ b₃ b₄ b₅ b₆ b₇ rest {}⟩
    exact congrArg (· &&& 0x0F#8) (beWord_singleton b₀).symm

theorem decodeEventFrame_of_lt (h : m.length < 8) :
    (decodeEventFrame 0 {}).result m = .error .terminate ∨
      (decodeEventFrame 0 {}).result m = .error .undefined := by
  match m, h with
  | [], _ | [_], _ | [_, _], _ => exact .inl rfl
  | [_, _, _], _ | [_, _, _, _], _ | [_, _, _, _, _], _ | [_, _, _, _, _, _], _
  | [_, _, _, _, _, _, _], _ => exact .inr rfl

theorem decodeTimestamp_needs (hle : pos ≤ m.length)
    (hpos : Announces header timestamp → pos < m.length) :
    (decodeTimestamp header pos event).Needs m (timestampEnd header pos)
      (·.1 = timestampEnd header pos) := by
  unfold timestampEnd decodeTimestamp
  by_cases hflag : Announces header timestamp
  · obtain ⟨first, hfirst⟩ : ∃ first, m[pos]? = some first :=
      ⟨_, List.getElem?_eq_getElem (hpos hflag)⟩
    rw [if_pos hflag, if_neg (not_not.mpr hflag)]
    apply Needs.of_result (result_checked hfirst)
    split_ifs
    · exact needs_word.bind le_rfl fun _ _ h => needs_pure h rfl
    · exact needs_word.bind (by omega) fun _ _ _ =>
        needs_word.bind le_rfl fun _ _ h => needs_pure h rfl
  · rw [if_neg hflag, if_pos hflag]
    exact needs_pure hle rfl

theorem decodeTimestamp_at_end (hflag : Announces header timestamp)
    (h : m.length ≤ pos) :
    (decodeTimestamp header pos event).result m = .error .outOfRange := by
  rw [decodeTimestamp, if_neg (not_not.mpr hflag)]
  exact result_bind_error (result_checked_of_le h) _

theorem decodeContextData_needs (hle : pos ≤ m.length) :
    (decodeContextData header pos event).Needs m (contextEnd header pos m)
      (·.1 = contextEnd header pos m) := by
  unfold contextEnd decodeContextData
  by_cases hflag : Announces header contextData
  · rw [if_neg (not_not.mpr hflag), if_neg (not_not.mpr hflag)]
    refine needs_word.bind (by split_ifs <;> omega) ?_
    rintro _ rfl _
    rw [← wordAt]
    split_ifs
    · exact needs_unchecked.bind le_rfl fun _ _ h => needs_pure h rfl
    · refine needs_word.bind (by omega) ?_
      rintro _ rfl _
      exact needs_unchecked.bind le_rfl fun _ _ h => needs_pure h rfl
  · rw [if_pos hflag, if_pos hflag]
    exact needs_pure hle rfl

/-- A signature that does not fit goes unnoticed where it is not looked at. -/
theorem decodeSignature_needs (hle : pos ≤ m.length) :
    (decodeSignature crypto header pos event).Needs m (readEnd crypto header pos m)
      fun after => readEnd crypto header pos m < signatureEnd header pos m → after.2.isSome := by
  cases crypto with
  | none => exact needs_pure hle fun _ => rfl
  | some verify =>
    simp only [readEnd, Option.elim]
    unfold signatureEnd decodeSignature
    by_cases hflag : Announces header signature
    · simp only [if_neg (not_not.mpr hflag)]
      refine needs_word.bind (by omega) ?_
      rintro _ rfl _
      exact needs_unchecked.bind le_rfl fun _ _ _ => needs_unchecked.bind (by omega) fun _ _ _ =>
        needs_pure ‹_› fun h => absurd h (lt_irrefl _)
    · simp only [if_pos hflag]
      exact needs_pure hle fun _ => rfl

end

section

variable {crypto : Option Verify} {m : List uint8}

theorem decodeMessage_at_end (hflag : Announces (flagsOf m) timestamp)
    (h : m.length = 8) : (decodeMessage crypto).result m = .error .outOfRange := by
  obtain ⟨frame, event₀, hheader, hframe⟩ := decodeEventFrame_of_le (le_of_eq h.symm)
  have hresult := decodeTimestamp_at_end event₀ hflag (le_of_eq h)
  rw [← hheader] at hresult
  rw [decodeMessage, result_bind_ok hframe]
  exact result_bind_error hresult _

theorem decodeMessage_needs (crypto : Option Verify) (hframe : 8 ≤ m.length)
    (hend : ¬ (m.length = 8 ∧ Announces (flagsOf m) timestamp)) :
    ∃ e ≤ partsEnd m, (decodeMessage crypto).Needs m e
      fun after => e < partsEnd m → after.2.isSome := by
  obtain ⟨frame, event₀, hheader, hresult⟩ := decodeEventFrame_of_le hframe
  have hpos : Announces frame.protoHeader timestamp → 8 < m.length := fun hflag =>
    lt_of_le_of_ne hframe fun heq => hend ⟨heq.symm, hheader ▸ hflag⟩
  unfold partsEnd
  rw [← hheader]
  refine ⟨_, readEnd_le crypto, .of_result hresult ?_⟩
  refine (decodeTimestamp_needs event₀ hframe hpos).bind (le_contextEnd.trans le_readEnd) ?_
  rintro ⟨_, event₁⟩ rfl htimestamp
  refine (decodeContextData_needs event₁ htimestamp).bind le_readEnd ?_
  rintro ⟨_, event₂⟩ rfl hcontext
  refine (decodeSignature_needs event₂ crypto hcontext).bind le_rfl ?_
  rintro ⟨_, event₃⟩ hsome hsignature
  exact needs_pure hsignature hsome

theorem decodeMessage_of_le (crypto : Option Verify) (h : partsEnd m ≤ m.length) :
    ∃ after, (decodeMessage crypto).result m = .ok after := by
  have htimestamp := (le_contextEnd.trans le_signatureEnd).trans h
  have hend : ¬ (m.length = 8 ∧ Announces (flagsOf m) timestamp) := by
    rintro ⟨heq, hflag⟩
    rw [timestampEnd, if_pos hflag, heq] at htimestamp
    omega
  obtain ⟨e, he, hneeds⟩ := decodeMessage_needs crypto (le_timestampEnd.trans htimestamp) hend
  obtain ⟨after, -, hresult⟩ := hneeds.of_le (he.trans h)
  exact ⟨after, hresult⟩

/-- Otherwise parts that do not fit are never reported: the process ends, the
decoder reads outside the message, or it returns an event. -/
theorem decodeMessage_of_lt (crypto : Option Verify) (h : m.length < partsEnd m)
    (hend : ¬ (m.length = 8 ∧ Announces (flagsOf m) timestamp)) :
    (decodeMessage crypto).result m = .error .terminate ∨
      (decodeMessage crypto).result m = .error .undefined ∨
      ∃ frame event, (decodeMessage crypto).result m = .ok (frame, some event) := by
  by_cases hframe : 8 ≤ m.length
  · right
    obtain ⟨e, he, hneeds⟩ := decodeMessage_needs crypto hframe hend
    by_cases hin : e ≤ m.length
    · obtain ⟨⟨frame, event⟩, hsome, hresult⟩ := hneeds.of_le hin
      obtain ⟨event, rfl⟩ := Option.isSome_iff_exists.mp (hsome (hin.trans_lt h))
      exact .inr ⟨frame, event, hresult⟩
    · exact .inl (hneeds.of_lt (Nat.not_le.mp hin))
  · rcases decodeEventFrame_of_lt (Nat.not_le.mp hframe) with hresult | hresult
    · exact .inl (result_bind_error hresult _)
    · exact .inr (.inl (result_bind_error hresult _))

section

variable {header : uint8} {pos : ℕ} {event : Event}

theorem sound_decodeEventFrame : Sound (decodeEventFrame pos event) :=
  sound_noexcept <| sound_bind sound_checked fun _ => sound_bind sound_checked fun _ =>
    sound_bind sound_checked fun _ => sound_bind sound_word fun _ =>
    sound_bind sound_word fun _ => sound_bind sound_word fun _ => sound_pure

theorem sound_decodeTimestamp : Sound (decodeTimestamp header pos event) := by
  unfold decodeTimestamp
  split_ifs
  · refine sound_bind sound_checked fun first => ?_
    split_ifs
    · exact sound_bind sound_word fun _ => sound_pure
    · exact sound_bind sound_word fun _ => sound_bind sound_word fun _ => sound_pure
  · exact sound_pure

theorem sound_decodeContextData : Sound (decodeContextData header pos event) := by
  unfold decodeContextData
  split_ifs
  · refine sound_bind sound_word fun netSize => ?_
    split_ifs
    · exact sound_bind sound_unchecked fun _ => sound_pure
    · exact sound_bind sound_word fun _ => sound_bind sound_unchecked fun _ => sound_pure
  · exact sound_pure

theorem sound_decodeSignature : Sound (decodeSignature crypto header pos event) := by
  unfold decodeSignature
  cases crypto with
  | none => exact sound_pure
  | some verify =>
    split_ifs
    · exact sound_bind sound_word fun _ => sound_bind sound_unchecked fun _ =>
        sound_bind sound_unchecked fun _ => sound_pure
    · exact sound_pure

theorem sound_decodeMessage (crypto : Option Verify) : Sound (decodeMessage crypto) :=
  sound_bind sound_decodeEventFrame fun _ => sound_bind sound_decodeTimestamp fun _ =>
    sound_bind sound_decodeContextData fun _ => sound_bind sound_decodeSignature fun _ =>
    sound_pure

end

theorem reach_decodeMessage_pos (crypto : Option Verify) (h : 0 < m.length) :
    0 < (decodeMessage crypto).reach m := by
  have hfirst : 0 < (checked 0).reach m := by
    rw [reach_checked h]
    exact Nat.one_pos
  exact lt_of_lt_of_le hfirst
    (le_trans (reach_le_reach_bind (checked 0) _ m)
      (reach_le_reach_bind (decodeEventFrame 0 {}) _ m))

end

section

/-- The message is reported as an error: an exception is thrown or, after an
entry in the log, no event is returned. -/
def Reported (crypto : Option Verify) (m : Message uint8) : Prop :=
  (decodeMessage crypto).result m.body = .error .outOfRange ∨
    ∃ frame, (decodeMessage crypto).result m.body = .ok (frame, none)

/-- What a receiver of foreign bytes owes: it reads no position outside the
message that the size field delimits, and reports parts that do not fit. -/
structure Safe (crypto : Option Verify) (m : Message uint8) : Prop where
  inside : (decodeMessage crypto).reach m.body ≤ (sizeField m.head).toNat - 8
  reported : ¬ Fits m → Reported crypto m

variable {crypto : Option Verify} {m : Message uint8}

section

variable (hmsg : idsFormat.IsMessage m.head m.body)

include hmsg

theorem length_body (h : 8 ≤ (sizeField m.head).toNat) :
    m.body.length = (sizeField m.head).toNat - 8 := by
  rw [hmsg.length_body]
  simp only [idsFormat]
  bv_omega

theorem length_body_pos (h : (sizeField m.head).toNat < 8) : 0 < m.body.length := by
  rw [hmsg.length_body]
  simp only [idsFormat]
  bv_omega

theorem inside_of_result (hsize : 8 ≤ (sizeField m.head).toNat)
    (h : (decodeMessage crypto).result m.body ≠ .error .undefined) :
    (decodeMessage crypto).reach m.body ≤ (sizeField m.head).toNat - 8 := by
  rw [← length_body hmsg hsize]
  exact (sound_decodeMessage crypto).reach_le h

theorem Fits.partsEnd_le (h : Fits m) :
    8 ≤ (sizeField m.head).toNat ∧ partsEnd m.body ≤ m.body.length := by
  unfold Fits at h
  have hsize : 8 ≤ (sizeField m.head).toNat := by omega
  rw [length_body hmsg hsize]
  omega

theorem Fits.decodes (h : Fits m) : Decodes crypto m := by
  obtain ⟨after, hresult⟩ := decodeMessage_of_le crypto (h.partsEnd_le hmsg).2
  rw [Decodes, hresult]
  rfl

end

section

variable (hmsg : idsFormat.IsMessage m.head m.body)

include hmsg

theorem Fits.safe (h : Fits m) : Safe crypto m where
  inside := by
    obtain ⟨after, hresult⟩ := decodeMessage_of_le crypto (h.partsEnd_le hmsg).2
    apply inside_of_result hmsg (h.partsEnd_le hmsg).1
    rw [hresult]
    exact nofun
  reported hnot := absurd h hnot

theorem EndsAtTimestamp.result_eq
    (h : EndsAtTimestamp m) : (decodeMessage crypto).result m.body = .error .outOfRange := by
  obtain ⟨hsize, hflag⟩ := h
  apply decodeMessage_at_end hflag
  rw [length_body hmsg (by omega), hsize]

theorem EndsAtTimestamp.safe (h : EndsAtTimestamp m) :
    Safe crypto m where
  inside := by
    apply inside_of_result hmsg (by have := h.1; omega)
    rw [h.result_eq hmsg]
    exact nofun
  reported _ := .inl (h.result_eq hmsg)

/-- A message that the decoder handles safely fits, or is the one kind whose
fault it notices. -/
theorem Safe.fits (h : Safe crypto m) (hend : ¬ EndsAtTimestamp m) : Fits m := by
  by_contra hnot
  by_cases hsize : 8 ≤ (sizeField m.head).toNat
  · have hlen := length_body hmsg hsize
    have hlt : m.body.length < partsEnd m.body := by
      unfold Fits at hnot
      omega
    have hend' : ¬ (m.body.length = 8 ∧ Announces (flagsOf m.body) timestamp) :=
      fun ⟨heq, hflag⟩ => hend ⟨by omega, hflag⟩
    rcases decodeMessage_of_lt crypto hlt hend' with hresult | hresult | ⟨frame, event, hresult⟩
    · rcases h.reported hnot with hreported | ⟨_, hreported⟩ <;> simp [hresult] at hreported
    · have houtside := (sound_decodeMessage crypto m.body).mp hresult
      have := h.inside
      omega
    · rcases h.reported hnot with hreported | ⟨_, hreported⟩ <;> simp [hresult] at hreported
  · -- the size field delimits no byte of the body, but there is one and it is read
    have hpos := reach_decodeMessage_pos crypto (length_body_pos hmsg (Nat.not_le.mp hsize))
    have := h.inside
    omega

end

/-- The decoder handles safely every message that it begins to decode. -/
def SafeOn (crypto : Option Verify) (chunks : List (List uint8)) : Prop :=
  ∀ call ∈ (decodeChunks crypto {} chunks).2, ∀ m ∈ call.decoded, Safe crypto m

theorem tried_safe_iff (crypto : Option Verify) (s : List uint8) :
    (∀ m ∈ idsFormat.tried (Decodes crypto) s, Safe crypto m) ↔
      ∀ m ∈ (idsFormat.split (fun m => ¬ EndsAtTimestamp m) s).1, Fits m := by
  induction s using idsFormat.split_induction with
  | incomplete s hnot => simp [tried_of_not_complete hnot, split_of_not_complete hnot]
  | message head body rest hmsg ih =>
    rw [hmsg.tried_eq, hmsg.split_eq, List.forall_mem_cons]
    by_cases hend : EndsAtTimestamp ⟨head, body⟩
    · have hfails : ¬ Decodes crypto ⟨head, body⟩ := by
        rw [Decodes, hend.result_eq hmsg]
        exact Bool.false_ne_true
      rw [if_neg hfails, if_neg (not_not.mpr hend)]
      exact ⟨fun _ => List.forall_mem_nil _, fun _ => ⟨hend.safe hmsg, List.forall_mem_nil _⟩⟩
    · rw [if_pos hend, List.forall_mem_cons]
      constructor
      · rintro ⟨hsafe, hlater⟩
        have hfits := hsafe.fits hmsg hend
        rw [if_pos (hfits.decodes hmsg)] at hlater
        exact ⟨hfits, ih.mp hlater⟩
      · rintro ⟨hfits, hlater⟩
        rw [if_pos (hfits.decodes hmsg)]
        exact ⟨hfits.safe hmsg, ih.mpr hlater⟩

/-- On a stream of foreign bytes the decoder stays inside the messages and
reports what does not fit exactly if every message fits that comes before the
first one that ends where its timestamp should begin. -/
theorem idsProto_safe_iff (crypto : Option Verify) (chunks : List (List uint8)) :
    SafeOn crypto chunks ↔
      ∀ m ∈ (idsFormat.split (fun m => ¬ EndsAtTimestamp m) chunks.flatten).1, Fits m := by
  have hfresh : idsFormat.tried (Decodes crypto) [] = [] := tried_of_not_complete not_complete_nil
  have hrun := IdsmDeserialize.decodeChunks_tries crypto (IdsmDeserialize.valid_fresh {})
    (Safe crypto) chunks
  simp only [IdsmDeserialize.pending, List.append_nil, hfresh, List.not_mem_nil, false_implies,
    implies_true, and_true] at hrun
  exact hrun.trans (tried_safe_iff crypto chunks.flatten)

/-- A message of 17 bytes that ends with the length of its context data, 5. -/
def overlongContext : List uint8 := [0, 0, 0, 0, 0, 0, 0, 17, 0x11, 0, 0, 0, 1, 0, 0, 0, 5]

theorem overlongContext_reads_outside :
    (decodeChunks none {} [overlongContext]).2.map (·.res) = [.error .undefined] ∧
      ¬ SafeOn none [overlongContext] := by
  have hcollect : collect {} overlongContext =
      ({ headBuf := [0, 0, 0, 0, 0, 0, 0, 17], msgSize := 9
         message := [0x11, 0, 0, 0, 1, 0, 0, 0, 5] }, some []) := by decide
  have hresult : (decodeMessage none).result [0x11, 0, 0, 0, 1, 0, 0, 0, 5] =
      .error .undefined := rfl
  have hcall := @IdsmDeserialize.decode_eq none {} overlongContext (by decide)
  simp only [hcollect, hresult] at hcall
  simp only [SafeOn, decodeChunks, hcall]
  refine ⟨rfl, fun hsafe => ?_⟩
  have hinside := (hsafe _ List.mem_cons_self _ List.mem_cons_self).inside
  exact absurd hinside (by decide)

end

end AdaptivePlatform.Idsm
