import AdaptivePlatform.Idsm.Stream

/-!
# Decoding what was encoded

An unsigned message decodes to the event it was made from. Only the source of
the timestamp is not carried over: the decoder knows synchronised time from
application time, and takes an absent timestamp for synchronised time.
-/
namespace AdaptivePlatform.Idsm

open Bytes Reads LengthPrefixed List
open Bytes (segment)
open BitVec (ofNat)
open BitVec hiding not_not not_or
open ProtoFlag (contextData signature)

variable {ser : IdsmSerialize} {event : Event} {header : uint8} {pos : ℕ} {m pre : List uint8}

/-- The event as the receiver sees it. -/
def Event.received (e : Event) : Event :=
  { e with
    timeSource := if e.timestamp = 0#64 ∨ e.timeSource = .araTsync then .araTsync else .appOem }

/-- What the fields of the protocol have room for. -/
structure Carries (ser : IdsmSerialize) (e : Event) : Prop where
  idsmId_lt : ser.idsmId.toNat < 1024
  sensorId_lt : e.sensorId.toNat < 64
  contextData_lt : e.contextData.length < 2 ^ 31
  seconds_lt : e.timeSource = .araTsync → e.timestamp.toNat / 1000000000 < 2 ^ 32
  timestamp_lt : e.timeSource ≠ .araTsync → e.timestamp.toNat < 2 ^ 62

section

variable (e : Event)

theorem announces_timestamp :
    Announces (protoHeader false e) ProtoFlag.timestamp ↔ e.timestamp ≠ 0#64 := by
  unfold protoHeader Announces
  split_ifs <;> simp_all [contextData, ProtoFlag.timestamp]

theorem announces_contextData :
    Announces (protoHeader false e) contextData ↔ e.contextData ≠ [] := by
  unfold protoHeader Announces
  split_ifs <;> simp_all [contextData, ProtoFlag.timestamp]

theorem not_announces_signature : ¬ Announces (protoHeader false e) signature := by
  unfold protoHeader Announces
  split_ifs <;> simp_all [contextData, ProtoFlag.timestamp, signature]

theorem protoHeader_nibble (version : uint8) :
    (version <<< 4 ||| protoHeader false e) &&& 0x0F#8 = protoHeader false e := by
  have hversion : version <<< 4 &&& 0x0F#8 = 0#8 := by
    revert version
    decide +kernel
  have hflags : protoHeader false e &&& 0x0F#8 = protoHeader false e := by
    unfold protoHeader
    split_ifs <;> simp_all [contextData, ProtoFlag.timestamp]
  rw [and_or_distrib_right, hversion, hflags, zero_or]

end

section

variable {idsmId word : uint16} {sensorId : uint8}

theorem toNat_idsmWord (hid : idsmId.toNat < 1024) (hsensor : sensorId.toNat < 64) :
    (idsmId <<< 6 ||| sensorId.setWidth 16).toNat = 64 * idsmId.toNat + sensorId.toNat := by
  have hor := Nat.two_pow_add_eq_or_of_lt (i := 6) hsensor idsmId.toNat
  rw [toNat_or, toNat_shiftLeft, toNat_setWidth, Nat.shiftLeft_eq]
  rw [Nat.mod_eq_of_lt (by omega), Nat.mod_eq_of_lt (by omega), Nat.mul_comm, ← hor]

section

variable (hword : word.toNat = 64 * idsmId.toNat + sensorId.toNat) (hsensor : sensorId.toNat < 64)

include hword hsensor

theorem idsmId_of_word : (((word >>> 8).setWidth 8).setWidth 16 <<< 2) |||
      (((word.setWidth 8) &&& 0xC0#8) >>> 6).setWidth 16 = idsmId := by
  have hlow : ∀ b : uint8, (b &&& 0xC0#8) >>> 6 = b >>> 6 := by decide +kernel
  have hor := Nat.two_pow_add_eq_or_of_lt (i := 2) (b := word.toNat % 256 / 64) (by omega)
    (word.toNat / 256)
  apply eq_of_toNat_eq
  rw [hlow, toNat_or, toNat_shiftLeft, toNat_setWidth, toNat_setWidth,
    toNat_setWidth, toNat_ushiftRight, toNat_ushiftRight,
    toNat_setWidth, Nat.shiftLeft_eq, Nat.shiftRight_eq_div_pow, Nat.shiftRight_eq_div_pow]
  have hhigh : word.toNat / 2 ^ 8 % 2 ^ 8 % 2 ^ 16 * 2 ^ 2 % 2 ^ 16 =
      2 ^ 2 * (word.toNat / 256) := by omega
  have hmod : word.toNat % 2 ^ 8 / 2 ^ 6 % 2 ^ 16 = word.toNat % 256 / 64 := by omega
  rw [hhigh, hmod, ← hor]
  omega

theorem sensorId_of_word : word.setWidth 8 &&& 0x3F#8 = sensorId := by
  apply eq_of_toNat_eq
  rw [toNat_and_mask (n := 6) rfl, toNat_setWidth]
  omega

end

variable {e : Event}

theorem decodeEventFrame_encode (h : Carries ser e) (rest : List uint8) :
    ∃ frame : EventFrame, frame.idsmId = ser.idsmId ∧ frame.protoHeader = protoHeader false e ∧
      (decodeEventFrame 0 {}).result
          (encodeEventFrame ser (protoHeader false e) e ++ rest) =
        .ok (frame, 8, { sensorId := e.sensorId, eventId := e.eventId, counter := e.counter }) := by
  have hword := toNat_idsmWord h.idsmId_lt h.sensorId_lt
  have heventId : beWord 16 (beBytes 2 e.eventId) = e.eventId := beWord_beBytes (n := 2) rfl _
  have hcounter : beWord 16 (beBytes 2 e.counter) = e.counter := beWord_beBytes (n := 2) rfl _
  have hresult : (decodeEventFrame 0 {}).result
        (encodeEventFrame ser (protoHeader false e) e ++ rest) =
      .ok (_, 8,
        { sensorId := (ser.idsmId <<< 6 ||| e.sensorId.setWidth 16).setWidth 8 &&& 0x3F#8
          eventId := beWord 16 (beBytes 2 e.eventId)
          counter := beWord 16 (beBytes 2 e.counter) }) :=
    decodeEventFrame_eq _ _ _ _ _ _ _ _ rest {}
  rw [sensorId_of_word hword h.sensorId_lt, heventId, hcounter] at hresult
  exact ⟨_, idsmId_of_word hword h.sensorId_lt, protoHeader_nibble e _, hresult⟩

end

section

variable {e : Event} {timestamp : uint64}

theorem topBit_eq_zero : ∀ b : uint8, b &&& 0x80#8 = 0#8 ↔ b < 128#8 := by decide +kernel

theorem decodeTimestamp_tsync (hflag : Announces header ProtoFlag.timestamp)
    {nanoSec sec : uint32} (hnanoSec : segment m pos 4 = some (beBytes 4 nanoSec))
    (hsec : segment m (pos + 4) 4 = some (beBytes 4 sec)) (hlow : nanoSec.toNat < 2 ^ 31) :
    (decodeTimestamp header pos event).result m =
      .ok (pos + 8,
        { event with
          timeSource := .araTsync
          timestamp := sec.setWidth 64 * nanosPerSecond + nanoSec.setWidth 64 }) := by
  have hbyte : m[pos]? = some ((nanoSec >>> (8 * 3)).setWidth 8) :=
    getElem?_of_segment (i := 0) hnanoSec (by decide)
  have hformat : ¬ (nanoSec >>> (8 * 3)).setWidth 8 &&& 0x80#8 ≠ 0#8 := by
    rw [not_not, topBit_eq_zero]
    bv_omega
  rw [decodeTimestamp, if_neg (not_not.mpr hflag), result_bind_ok (result_checked hbyte),
    if_neg hformat, result_bind_ok (result_word hnanoSec), result_bind_ok (result_word hsec),
    result_pure, beWord_beBytes (n := 4) rfl, beWord_beBytes (n := 4) rfl]

theorem decodeTimestamp_app (hflag : Announces header ProtoFlag.timestamp)
    (htimestamp : segment m pos 8 = some (beBytes 8 timestamp))
    (htop : 2 ^ 63 ≤ timestamp.toNat) :
    (decodeTimestamp header pos event).result m =
      .ok (pos + 8,
        { event with
          timeSource := .appOem
          timestamp := timestamp &&& 0x7FFFFFFFFFFFFFFF#64 }) := by
  have hbyte : m[pos]? = some ((timestamp >>> (8 * 7)).setWidth 8) :=
    getElem?_of_segment (i := 0) htimestamp (by decide)
  have hformat : (timestamp >>> (8 * 7)).setWidth 8 &&& 0x80#8 ≠ 0#8 := by
    rw [ne_eq, topBit_eq_zero]
    bv_omega
  rw [decodeTimestamp, if_neg (not_not.mpr hflag), result_bind_ok (result_checked hbyte),
    if_pos hformat, result_bind_ok (result_word htimestamp), result_pure,
    beWord_beBytes (n := 8) rfl]

theorem tsync_eq (h : timestamp.toNat / 1000000000 < 2 ^ 32) :
    ((timestamp / nanosPerSecond).setWidth 32).setWidth 64 * nanosPerSecond +
      ((timestamp % nanosPerSecond).setWidth 32 &&& 0x7fffffff#32).setWidth 64 = timestamp := by
  have hnanos : nanosPerSecond.toNat = 1000000000 := rfl
  apply eq_of_toNat_eq
  rw [toNat_add, toNat_mul, toNat_setWidth, toNat_setWidth,
    toNat_udiv, toNat_setWidth, toNat_and_mask (n := 31) rfl, toNat_setWidth,
    toNat_umod, hnanos]
  have hsec : timestamp.toNat / 1000000000 % 2 ^ 32 % 2 ^ 64 = timestamp.toNat / 1000000000 := by
    omega
  omega

theorem appTimestamp_eq (h : timestamp.toNat < 2 ^ 62) :
    (timestamp ||| 0x8000000000000000#64) &&& 0x7FFFFFFFFFFFFFFF#64 = timestamp := by
  apply eq_of_toNat_eq
  rw [toNat_and_mask (n := 63) rfl, toNat_or_twoPow (n := 63) (by omega) rfl]
  omega

theorem decodeTimestamp_encode (h : Carries ser e) (hpre : pre.length = pos) (post : List uint8)
    (hsource : event.timeSource = .araTsync) (htimestamp : event.timestamp = 0#64) :
    (decodeTimestamp (protoHeader false e) pos event).result
        (pre ++ (encodeTimeStamp (protoHeader false e) e ++ post)) =
      .ok (pos + (encodeTimeStamp (protoHeader false e) e).length,
        { event with timeSource := e.received.timeSource, timestamp := e.timestamp }) := by
  unfold encodeTimeStamp Event.received
  by_cases hzero : e.timestamp = 0#64
  · have hflag : ¬ Announces (protoHeader false e) ProtoFlag.timestamp := by
      rw [announces_timestamp]
      exact not_not.mpr hzero
    rw [decodeTimestamp, if_pos hflag, if_pos hflag, if_pos (.inl hzero), result_pure, hzero,
      ← hsource, ← htimestamp]
    rfl
  · have hflag := (announces_timestamp e).mpr hzero
    rw [if_neg (not_not.mpr hflag)]
    by_cases hsync : e.timeSource = .araTsync
    · have hlow : ((e.timestamp % nanosPerSecond).setWidth 32 &&& 0x7fffffff#32).toNat <
          2 ^ 31 := by
        rw [toNat_and_mask (n := 31) rfl]
        exact Nat.mod_lt _ (by decide)
      rw [if_pos hsync, if_pos (.inr hsync), List.append_assoc]
      rw [decodeTimestamp_tsync hflag (segment_append hpre (length_beBytes 4 _) _)
        (segment_append_append hpre (length_beBytes 4 _) (length_beBytes 4 _) post) hlow,
        tsync_eq (h.seconds_lt hsync)]
      rfl
    · have htop : 2 ^ 63 ≤ (e.timestamp ||| 0x8000000000000000#64).toNat := by
        have := h.timestamp_lt hsync
        rw [toNat_or_twoPow (n := 63) (by omega) rfl]
        omega
      rw [if_neg hsync, if_neg (not_or.mpr ⟨hzero, hsync⟩),
        decodeTimestamp_app hflag (segment_append hpre (length_beBytes 8 _) post) htop,
        appTimestamp_eq (h.timestamp_lt hsync)]
      rfl

end

section

variable {e : Event} {bs : List uint8}

theorem decodeContextData_short (hflag : Announces header contextData) {size : uint8}
    (hsize : segment m pos 1 = some [size]) (hlow : size < 128#8)
    (hdata : segment m (pos + 1) size.toNat = some bs) :
    (decodeContextData header pos event).result m =
      .ok (pos + 1 + size.toNat, { event with contextData := bs }) := by
  rw [decodeContextData, if_neg (not_not.mpr hflag), result_bind_ok (result_word hsize),
    beWord_singleton, if_pos hlow, result_bind_ok (result_unchecked hdata), result_pure]

theorem decodeContextData_long (hflag : Announces header contextData) {size : uint32}
    (hsize : segment m pos 4 = some (beBytes 4 size)) (htop : 2 ^ 31 ≤ size.toNat)
    (hdata : segment m (pos + 4) (size &&& 0x7fffffff#32).toNat = some bs) :
    (decodeContextData header pos event).result m =
      .ok (pos + 4 + (size &&& 0x7fffffff#32).toNat, { event with contextData := bs }) := by
  have hbyte : segment m pos 1 = some [(size >>> (8 * 3)).setWidth 8] :=
    segment_take hsize (by decide)
  have hformat : ¬ (size >>> (8 * 3)).setWidth 8 < 128#8 := by bv_omega
  rw [decodeContextData, if_neg (not_not.mpr hflag), result_bind_ok (result_word hbyte),
    beWord_singleton, if_neg hformat, result_bind_ok (result_word hsize),
    beWord_beBytes (n := 4) rfl, result_bind_ok (result_unchecked hdata), result_pure]

theorem decodeContextData_encode (h : Carries ser e) (hpre : pre.length = pos) (post : List uint8)
    (hempty : event.contextData = []) :
    (decodeContextData (protoHeader false e) pos event).result
        (pre ++ (encodeContextData (protoHeader false e) e.contextData ++ post)) =
      .ok (pos + (encodeContextData (protoHeader false e) e.contextData).length,
        { event with contextData := e.contextData }) := by
  unfold encodeContextData
  by_cases hnil : e.contextData = []
  · have hflag : ¬ Announces (protoHeader false e) contextData := by
      rw [announces_contextData]
      exact not_not.mpr hnil
    rw [decodeContextData, if_pos hflag, if_pos hflag, result_pure, length_nil, Nat.add_zero,
      hnil, ← hempty]
  · have hflag := (announces_contextData e).mpr hnil
    have hlt := h.contextData_lt
    rw [if_neg (not_not.mpr hflag)]
    by_cases hshort : e.contextData.length < 128
    · have hsize : (ofNat 8 e.contextData.length).toNat = e.contextData.length := by bv_omega
      have hlow : ofNat 8 e.contextData.length < 128#8 := by bv_omega
      rw [if_pos hshort, List.append_assoc,
        decodeContextData_short hflag (segment_append hpre rfl _) hlow
          (segment_append_append hpre rfl hsize.symm post), hsize, length_append,
        length_singleton, Nat.add_assoc]
    · have hsize : (ofNat 32 e.contextData.length).toNat = e.contextData.length := by bv_omega
      have hmarked : (ofNat 32 e.contextData.length ||| 0x80000000#32).toNat =
          2 ^ 31 + e.contextData.length := by
        rw [toNat_or_twoPow (n := 31) (by omega) rfl, hsize]
      have hmasked : ((ofNat 32 e.contextData.length ||| 0x80000000#32) &&&
          0x7fffffff#32).toNat = e.contextData.length := by
        rw [toNat_and_mask (n := 31) rfl, hmarked]
        omega
      rw [if_neg hshort, List.append_assoc,
        decodeContextData_long hflag (segment_append hpre (length_beBytes 4 _) _) (by omega)
          (segment_append_append hpre (length_beBytes 4 _) hmasked.symm post), hmasked,
        length_append, length_beBytes, Nat.add_assoc]

end

section

variable {e : Event}

def encodeBody (ser : IdsmSerialize) (e : Event) : List uint8 :=
  encodeEventFrame ser (protoHeader false e) e ++
    (encodeTimeStamp (protoHeader false e) e ++
      encodeContextData (protoHeader false e) e.contextData)

theorem decodeSignature_of_not_announces {header : uint8}
    (h : ¬ Announces header signature) (crypto : Option Verify) (pos : ℕ) (event : Event)
    (m : List uint8) :
    (decodeSignature crypto header pos event).result m = .ok (pos, some event) := by
  cases crypto with
  | none => rfl
  | some verify =>
    rw [decodeSignature, if_pos h]
    rfl

theorem decodeMessage_encode (crypto : Option Verify) (h : Carries ser e) :
    ∃ frame : EventFrame, frame.idsmId = ser.idsmId ∧
      (∀ old, frameAfter old (encodeBody ser e) = frame) ∧
      (decodeMessage crypto).result (encodeBody ser e) = .ok (frame, some e.received) := by
  obtain ⟨frame, hid, hheader, hframe⟩ := decodeEventFrame_encode h
    (encodeTimeStamp (protoHeader false e) e ++
      encodeContextData (protoHeader false e) e.contextData)
  have hafter : ∀ old, frameAfter old (encodeBody ser e) = frame := by
    intro old
    rw [frameAfter, encodeBody, hframe]
  have hlen : (encodeEventFrame ser (protoHeader false e) e).length = 8 := rfl
  have hlen' : (encodeEventFrame ser (protoHeader false e) e ++
      encodeTimeStamp (protoHeader false e) e).length =
      8 + (encodeTimeStamp (protoHeader false e) e).length := length_append
  refine ⟨frame, hid, hafter, ?_⟩
  rw [decodeMessage, encodeBody, result_bind_ok hframe]
  simp only [hheader]
  rw [result_bind_ok (decodeTimestamp_encode h hlen _ rfl rfl)]
  have hcontext {event : Event} (hempty : event.contextData = []) :=
    decodeContextData_encode h hlen' [] hempty
  simp only [append_nil, List.append_assoc] at hcontext
  rw [result_bind_ok (hcontext rfl)]
  rw [result_bind_ok (decodeSignature_of_not_announces (not_announces_signature e) ..), result_pure]
  rfl

def encodeMessage (ser : IdsmSerialize) (e : Event) : Message uint8 where
  head := List.replicate 4 0#8 ++ beBytes 4 (ofNat 32 (8 + (encodeBody ser e).length))
  body := encodeBody ser e

theorem length_encodeBody (h : Carries ser e) :
    8 ≤ (encodeBody ser e).length ∧ (encodeBody ser e).length < 2 ^ 31 + 20 := by
  have hframe : (encodeEventFrame ser (protoHeader false e) e).length = 8 := rfl
  have htimestamp : (encodeTimeStamp (protoHeader false e) e).length ≤ 8 := by
    unfold encodeTimeStamp
    split_ifs <;> simp
  have hcontext : (encodeContextData (protoHeader false e) e.contextData).length ≤
      4 + e.contextData.length := by
    unfold encodeContextData
    split_ifs
    · rw [length_append, length_singleton]
      omega
    · rw [length_append, length_beBytes]
    · exact Nat.zero_le _
  have := h.contextData_lt
  rw [encodeBody, length_append, length_append, hframe]
  omega

theorem encode_eq (h : Carries ser e) :
    encode ser none e = some ((encodeMessage ser e).head ++ (encodeMessage ser e).body) := by
  have hlen := length_encodeBody h
  have hcontext : ¬ (e.contextData ≠ [] ∧ 0x80000000 ≤ e.contextData.length) := by
    have := h.contextData_lt
    omega
  have hunsigned : List.replicate 8 0#8 ++ encodeEventFrame ser (protoHeader false e) e ++
      encodeTimeStamp (protoHeader false e) e ++
        encodeContextData (protoHeader false e) e.contextData =
      List.replicate 8 0#8 ++ encodeBody ser e := by
    simp [encodeBody]
  have hsplice : ∀ size : uint32, splice (List.replicate 8 0#8 ++ encodeBody ser e) 4
      (beBytes 4 size) = List.replicate 4 0#8 ++ beBytes 4 size ++ encodeBody ser e := by
    intro size
    rfl
  have hsize : ¬ (8 + (encodeBody ser e).length < 16 ∨
      2147549207 < 8 + (encodeBody ser e).length) := by
    omega
  simp only [encode, if_neg hcontext, Option.isSome_none, encodeSignature, hunsigned, hsplice,
    append_nil, length_append, length_replicate, length_beBytes, if_neg hsize, encodeMessage]

theorem isMessage_encodeMessage (h : Carries ser e) :
    idsFormat.IsMessage (encodeMessage ser e).head (encodeMessage ser e).body := by
  have hlen := length_encodeBody h
  refine ⟨rfl, ?_⟩
  have hsize : sizeField (encodeMessage ser e).head =
      ofNat 32 (8 + (encodeBody ser e).length) := beWord_beBytes (n := 4) rfl _
  have hbody : (encodeMessage ser e).body = encodeBody ser e := rfl
  simp only [idsFormat, hsize, hbody]
  bv_omega

end

section

variable {crypto : Option Verify} {e : Event} {sent : List (IdsmSerialize × Event)}

theorem decodes_encodeMessage (h : Carries ser e) : Decodes crypto (encodeMessage ser e) := by
  obtain ⟨frame, _, _, hresult⟩ := decodeMessage_encode crypto h
  rw [Decodes, encodeMessage, hresult]
  rfl

theorem eventsOf_encodeMessage (h : Carries ser e) :
    eventsOf crypto (encodeMessage ser e) = [e.received] := by
  obtain ⟨frame, _, _, hresult⟩ := decodeMessage_encode crypto h
  rw [eventsOf, encodeMessage, hresult]
  rfl

theorem frameAfter_encodeMessage (h : Carries ser e) (old : EventFrame) :
    (frameAfter old (encodeMessage ser e).body).idsmId = ser.idsmId := by
  obtain ⟨frame, hid, hafter, _⟩ := decodeMessage_encode none h
  rw [encodeMessage, hafter, hid]

def wire (sent : List (IdsmSerialize × Event)) : List (List uint8) :=
  sent.map fun s => (encodeMessage s.1 s.2).head ++ (encodeMessage s.1 s.2).body

section

variable (hsent : ∀ s ∈ sent, Carries s.1 s.2)

include hsent

theorem encode_wire : sent.map (fun s => encode s.1 none s.2) = (wire sent).map some := by
  rw [wire, map_map]
  exact map_congr_left fun s hs => encode_eq (hsent s hs)

theorem split_wire :
    idsFormat.split (Decodes crypto) (wire sent).flatten =
      (sent.map fun s => encodeMessage s.1 s.2, []) := by
  induction sent with
  | nil => exact split_of_not_complete not_complete_nil
  | cons s sent ih =>
    rw [forall_mem_cons] at hsent
    rw [wire, map_cons, flatten_cons, List.append_assoc,
      (isMessage_encodeMessage hsent.1).split_eq, if_pos (decodes_encodeMessage hsent.1)]
    rw [wire] at ih
    rw [ih hsent.2]
    rfl

theorem events_wire : (sent.map fun s => encodeMessage s.1 s.2).flatMap (eventsOf crypto) =
      sent.map fun s => s.2.received := by
  induction sent with
  | nil => rfl
  | cons s sent ih =>
    rw [forall_mem_cons] at hsent
    rw [map_cons, flatMap_cons, eventsOf_encodeMessage hsent.1, ih hsent.2]
    rfl

end

/-- The encodings of a list of events, in whatever chunks they arrive, are
decoded to these events in order. Afterwards the decoder knows the instance of
the IdsM that sent the last one. -/
theorem idsProto_roundTrip (crypto : Option Verify) (sent : List (IdsmSerialize × Event))
    (hsent : ∀ s ∈ sent, Carries s.1 s.2) :
    ∃ encodings : List (List uint8),
      sent.map (fun s => encode s.1 none s.2) = encodings.map some ∧
      ∀ chunks : List (List uint8), chunks.flatten = encodings.flatten →
        (∃ returns : List (List Event),
          (decodeChunks crypto {} chunks).2.map (·.res) = returns.map .ok ∧
            returns.flatten = sent.map fun s => s.2.received) ∧
        ∀ last ∈ sent.getLast?, (decodeChunks crypto {} chunks).1.frame.idsmId = last.1.idsmId := by
  refine ⟨wire sent, encode_wire hsent, fun chunks hchunks => ?_⟩
  have hfresh : idsFormat.split (Decodes crypto) [] = ([], []) :=
    split_of_not_complete not_complete_nil
  have hsplit : idsFormat.split (Decodes crypto) chunks.flatten = _ := hchunks ▸ split_wire hsent
  have hrest : ¬ idsFormat.Complete (idsFormat.split (Decodes crypto) chunks.flatten).2 := by
    rw [hsplit]
    exact not_complete_nil
  obtain ⟨⟨returns, hreturns, hflatten⟩, hframe⟩ :=
    IdsmDeserialize.decodeChunks_returns (IdsmDeserialize.valid_fresh {})
      (congrArg Prod.fst hfresh) chunks hrest
  rw [IdsmDeserialize.pending, append_nil, nil_append, hsplit] at hflatten hframe
  refine ⟨⟨returns, hreturns, hflatten.trans (events_wire hsent)⟩, fun last hlast => ?_⟩
  obtain ⟨earlier, rfl⟩ := getLast?_eq_some_iff.mp hlast
  rw [hframe, map_append, foldl_append, map_singleton, foldl_cons, foldl_nil]
  exact frameAfter_encodeMessage (hsent last (mem_append_right _ mem_cons_self)) _

/-- Synchronised time and a context too long for a length of one byte, then
application time without context. -/
def twoReports : List (IdsmSerialize × Event) :=
  [({ idsmId := 1023 },
      { sensorId := 63
        counter := 7
        timestamp := 1500000000000000001
        contextData := List.replicate 130 0xAB }),
    ({ idsmId := 5 }, { timeSource := .appReport, timestamp := 42 })]

theorem twoReports_carries : ∀ s ∈ twoReports, Carries s.1 s.2 := by
  rw [twoReports, forall_mem_cons, forall_mem_singleton]
  exact ⟨⟨by decide, by decide, by simp, by decide, by decide⟩,
    ⟨by decide, by decide, by decide, by decide, by decide⟩⟩

theorem idsProto_roundTrip_twoReports :
    (∀ s ∈ twoReports, Carries s.1 s.2) ∧ ∃ encodings : List (List uint8),
      twoReports.map (fun s => encode s.1 none s.2) = encodings.map some ∧
      ∀ chunks : List (List uint8), chunks.flatten = encodings.flatten →
        (∃ returns : List (List Event),
          (decodeChunks none {} chunks).2.map (·.res) = returns.map .ok ∧
            returns.flatten = twoReports.map fun s => s.2.received) ∧
        ∀ last ∈ twoReports.getLast?,
          (decodeChunks none {} chunks).1.frame.idsmId = last.1.idsmId :=
  ⟨twoReports_carries, idsProto_roundTrip none twoReports twoReports_carries⟩

end

end AdaptivePlatform.Idsm
