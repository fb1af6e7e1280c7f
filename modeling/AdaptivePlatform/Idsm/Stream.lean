import AdaptivePlatform.Idsm.IdsProto

/-!
# The decoder on a stream

Between two calls the decoder holds the bytes of an unfinished message, or of
one that it failed to decode. However the stream is cut into chunks, it decodes
the messages that the headers of the whole stream delimit, in order, up to the
first failure.
-/
namespace AdaptivePlatform.Idsm

open Bytes Reads LengthPrefixed List

/-- The messages of the protocol as the decoder delimits them: the size field
counts the header, and subtracting that wraps around. -/
def idsFormat : LengthPrefixed uint8 where
  headSize := 8
  bodySize head := (sizeField head - 8#32).toNat
  headSize_pos := by decide

variable (crypto : Option Verify) (m : Message uint8)

/-- The decoding of the message does not fail. -/
def Decodes : Prop := ((decodeMessage crypto).result m.body).isOk = true

instance decidableDecodes (crypto : Option Verify) : DecidablePred (Decodes crypto) :=
  fun m => inferInstanceAs (Decidable (((decodeMessage crypto).result m.body).isOk = true))

/-- The events that the message yields. -/
def eventsOf : List Event :=
  match (decodeMessage crypto).result m.body with
  | .ok (_, event) => event.toList
  | .error _ => []

namespace IdsmDeserialize

variable {crypto : Option Verify} {st st' : IdsmDeserialize} {data rest : List uint8}

/-- The bytes of the stream that the decoder holds. -/
def pending (st : IdsmDeserialize) : List uint8 := st.headBuf ++ st.message

/-- What the members keep between them. -/
structure Valid (st : IdsmDeserialize) : Prop where
  headBuf_le : st.headBuf.length ≤ 8
  message_nil : st.headBuf.length < 8 → st.message = []
  msgSize_eq : st.headBuf.length = 8 → st.msgSize = sizeField st.headBuf - 8#32
  message_le : st.headBuf.length = 8 → st.message.length ≤ st.msgSize.toNat

theorem valid_fresh (frame : EventFrame) : Valid { frame := frame } where
  headBuf_le := Nat.zero_le 8
  message_nil _ := rfl
  msgSize_eq h := by cases h
  message_le h := by cases h

theorem processProtoHead_spec (hst : st.Valid) (h : processProtoHead st data = (st', rest)) :
    st'.Valid ∧ st'.frame = st.frame ∧ st'.pending ++ rest = st.pending ++ data ∧
      (st'.headBuf.length < 8 → rest = []) := by
  by_cases hfull : 8 ≤ st.headBuf.length
  · rw [processProtoHead, if_pos hfull] at h
    cases h
    exact ⟨hst, rfl, rfl, fun hshort => absurd hfull (Nat.not_le.mpr hshort)⟩
  · have hnil := hst.message_nil (Nat.not_le.mp hfull)
    have hlen : (st.headBuf ++ data.take (min data.length (8 - st.headBuf.length))).length =
        min (st.headBuf.length + data.length) 8 := by
      rw [length_append, length_take]
      omega
    simp only [processProtoHead] at h
    split_ifs at h with hcomplete
    · cases h
      refine ⟨⟨?_, fun _ => hnil, fun _ => rfl, fun _ => ?_⟩, rfl, ?_, ?_⟩
      · simp only [hlen]
        omega
      · simp [hnil]
      · simp [pending, hnil]
      · simp only [hlen]
        omega
    · cases h
      refine ⟨⟨?_, fun _ => hnil, ?_, fun _ => ?_⟩, rfl, ?_, fun _ => ?_⟩
      · simp only [hlen]
        omega
      · simp only [hlen]
        omega
      · simp [hnil]
      · simp [pending, hnil]
      · apply drop_eq_nil_of_le
        omega

theorem missing_eq (hst : st.Valid) (hfull : st.headBuf.length = 8) :
    (st.msgSize.setWidth 64 - BitVec.ofNat 64 st.message.length).toNat =
      st.msgSize.toNat - st.message.length := by
  have hle := hst.message_le hfull
  bv_omega

/-- What an iteration can find: an unfinished message, which it keeps, or a
whole message with the data behind it. -/
inductive Collected (st : IdsmDeserialize) (data : List uint8) :
    IdsmDeserialize × Option (List uint8) → Prop
  | unfinished {st' : IdsmDeserialize} (hvalid : st'.Valid) (hframe : st'.frame = st.frame)
    (hpending : st'.pending = st.pending ++ data) (hnot : ¬ idsFormat.Complete st'.pending) :
    Collected st data (st', none)
  | finished {st' : IdsmDeserialize} {rest : List uint8} (hvalid : st'.Valid)
    (hframe : st'.frame = st.frame) (hmsg : idsFormat.IsMessage st'.headBuf st'.message)
    (hpending : st.pending ++ data = st'.headBuf ++ (st'.message ++ rest)) :
    Collected st data (st', some rest)

theorem collectMessage_spec (hst : st.Valid) (hfull : st.headBuf.length = 8)
    (data : List uint8) : Collected st data (collectMessage st data) := by
  have hsize : st.msgSize.toNat = idsFormat.bodySize st.headBuf := by
    rw [hst.msgSize_eq hfull]
    rfl
  have hle := hst.message_le hfull
  simp only [collectMessage, missing_eq hst hfull]
  obtain ⟨copySize, hcopy⟩ : ∃ n, (if st.msgSize.toNat - st.message.length < data.length
      then st.msgSize.toNat - st.message.length else data.length) = n := ⟨_, rfl⟩
  have hmin : copySize = min (st.msgSize.toNat - st.message.length) data.length := by
    rw [← hcopy]
    split_ifs <;> omega
  have hlen : (st.message ++ data.take copySize).length = st.message.length + copySize := by
    rw [length_append, length_take]
    omega
  have hvalid : Valid { st with message := st.message ++ data.take copySize } := by
    refine ⟨hst.headBuf_le, fun h => ?_, hst.msgSize_eq, fun _ => ?_⟩
    · exact absurd hfull (Nat.ne_of_lt h)
    · simp only [hlen]
      omega
  rw [hcopy]
  by_cases hshort : (st.message ++ data.take copySize).length < st.msgSize.toNat
  · have hall : data.take copySize = data := by
      apply take_of_length_le
      omega
    rw [if_pos hshort]
    refine .unfinished hvalid rfl ?_ fun hcomplete => ?_
    · simp [pending, hall]
    · have hcount : 8 + idsFormat.bodySize
          ((st.headBuf ++ (st.message ++ data.take copySize)).take 8) ≤
          (st.headBuf ++ (st.message ++ data.take copySize)).length := hcomplete.2
      rw [take_left' hfull, ← hsize, length_append, hfull] at hcount
      omega
  · rw [if_neg hshort]
    refine .finished hvalid rfl ⟨hfull, ?_⟩ ?_
    · simp only [← hsize] at hshort ⊢
      omega
    · simp [pending]

theorem collect_spec (hst : st.Valid) (data : List uint8) :
    Collected st data (collect st data) := by
  obtain ⟨st₁, data₁, hhead⟩ : ∃ st₁ data₁, processProtoHead st data = (st₁, data₁) := ⟨_, _, rfl⟩
  obtain ⟨hvalid, hframe, hpending, hused⟩ := processProtoHead_spec hst hhead
  simp only [collect, hhead]
  by_cases hshort : st₁.headBuf.length < 8
  · rw [if_pos hshort]
    rw [hused hshort, append_nil] at hpending
    refine .unfinished hvalid hframe hpending fun hcomplete => ?_
    have hlen : 8 ≤ st₁.pending.length := hcomplete.1
    rw [pending, hvalid.message_nil hshort, append_nil] at hlen
    exact absurd hlen (Nat.not_le.mpr hshort)
  · have hfull := le_antisymm hvalid.headBuf_le (Nat.not_lt.mp hshort)
    have hcollected := collectMessage_spec hvalid hfull data₁
    rw [if_neg hshort]
    generalize collectMessage st₁ data₁ = r at hcollected
    cases hcollected with
    | unfinished hvalid' hframe' hpending' hnot =>
      exact .unfinished hvalid' (hframe'.trans hframe) (hpending'.trans hpending) hnot
    | finished hvalid' hframe' hmsg hpending' =>
      exact .finished hvalid' (hframe'.trans hframe) hmsg (hpending.symm.trans hpending')

theorem decode_nil (crypto : Option Verify) (st : IdsmDeserialize) :
    decode crypto st [] = (st, ⟨[], .ok []⟩) := by
  rw [decode, dif_pos rfl]

theorem decode_eq (hdata : data ≠ []) :
    decode crypto st data =
      match collect st data with
      | (st, none) => (st, ⟨[], .ok []⟩)
      | (st, some rest) =>
        let st' := { st with frame := frameAfter st.frame st.message }
        let next := decode crypto { frame := frameAfter st.frame st.message } rest
        match (decodeMessage crypto).result st.message with
        | .error e => (st', ⟨[⟨st.headBuf, st.message⟩], .error e⟩)
        | .ok (_, event) =>
          (next.1, ⟨⟨st.headBuf, st.message⟩ :: next.2.decoded,
            next.2.res.map (event.toList ++ ·)⟩) := by
  rw [decode, dif_neg hdata]
  split
  all_goals
    rename_i hcollect
    exact hcollect ▸ rfl

variable {e : Failure} {frame : EventFrame} {event : Option Event}

/-- What a call leaves behind, for the stream `s` of the bytes held and received.
After a failure the rest of the data is lost, but the message that failed stays
and is tried again whatever follows. -/
structure DecodesTo (crypto : Option Verify) (st : IdsmDeserialize) (s : List uint8)
    (after : IdsmDeserialize × Call) : Prop where
  valid : after.1.Valid
  resume : ∀ t, idsFormat.tried (Decodes crypto) (after.1.pending ++ t) =
    idsFormat.tried (Decodes crypto) ((idsFormat.split (Decodes crypto) s).2 ++ t)
  decoded_eq : after.2.decoded = idsFormat.tried (Decodes crypto) s
  frame_eq : after.1.frame =
    (idsFormat.tried (Decodes crypto) s).foldl (fun frame m => frameAfter frame m.body) st.frame
  of_not_complete : ¬ idsFormat.Complete (idsFormat.split (Decodes crypto) s).2 →
    after.1.pending = (idsFormat.split (Decodes crypto) s).2 ∧
      after.2.res = .ok ((idsFormat.split (Decodes crypto) s).1.flatMap (eventsOf crypto))

theorem decodesTo_of_not_complete {s : List uint8} (hvalid : st'.Valid)
    (hframe : st'.frame = st.frame) (hpending : st'.pending = s) (h : ¬ idsFormat.Complete s) :
    DecodesTo crypto st s (st', ⟨[], .ok []⟩) := by
  have htried : idsFormat.tried (Decodes crypto) s = [] := tried_of_not_complete h
  have hsplit : idsFormat.split (Decodes crypto) s = ([], s) := split_of_not_complete h
  refine ⟨hvalid, fun t => ?_, htried.symm, ?_, fun _ => ⟨?_, ?_⟩⟩
  · rw [hsplit, hpending]
  · rw [htried, hframe]
    rfl
  · rw [hsplit, hpending]
  · rw [hsplit]
    rfl

theorem decodesTo_error (hvalid : st'.Valid) (hframe : st'.frame = st.frame)
    (hmsg : idsFormat.IsMessage st'.headBuf st'.message)
    (he : (decodeMessage crypto).result st'.message = .error e) :
    DecodesTo crypto st (st'.headBuf ++ (st'.message ++ rest))
      ({ st' with frame := frameAfter st'.frame st'.message },
        ⟨[⟨st'.headBuf, st'.message⟩], .error e⟩) := by
  have hnot : ¬ Decodes crypto ⟨st'.headBuf, st'.message⟩ := by simp [Decodes, he, Except.toBool]
  have hsplit : idsFormat.split (Decodes crypto) (st'.headBuf ++ (st'.message ++ rest)) = _ :=
    hmsg.split_eq rest
  have htried : ∀ t, idsFormat.tried (Decodes crypto) (st'.headBuf ++ (st'.message ++ t)) = _ :=
    hmsg.tried_eq
  simp only [if_neg hnot] at hsplit htried
  refine ⟨⟨hvalid.headBuf_le, hvalid.message_nil, hvalid.msgSize_eq, hvalid.message_le⟩,
    fun t => ?_, (htried rest).symm, ?_, fun hrest => ?_⟩
  · rw [hsplit, pending, append_assoc, append_assoc, append_assoc, htried, htried]
  · rw [htried, ← hframe]
    rfl
  · rw [hsplit] at hrest
    exact absurd (hmsg.complete rest) hrest

theorem DecodesTo.ok {after : IdsmDeserialize × Call} {m : Message uint8}
    (h : DecodesTo crypto { frame := frameAfter st.frame m.body } rest after)
    (hmsg : idsFormat.IsMessage m.head m.body)
    (hok : (decodeMessage crypto).result m.body = .ok (frame, event)) :
    DecodesTo crypto st (m.head ++ (m.body ++ rest))
      (after.1, ⟨m :: after.2.decoded, after.2.res.map (event.toList ++ ·)⟩) := by
  have hdecodes : Decodes crypto m := by simp [Decodes, hok, Except.toBool]
  have hsplit : idsFormat.split (Decodes crypto) (m.head ++ (m.body ++ rest)) = _ :=
    hmsg.split_eq rest
  have htried : idsFormat.tried (Decodes crypto) (m.head ++ (m.body ++ rest)) = _ :=
    hmsg.tried_eq rest
  simp only [if_pos hdecodes] at hsplit htried
  have hevents : eventsOf crypto m = event.toList := by simp [eventsOf, hok]
  refine ⟨h.valid, ?_, ?_, ?_, ?_⟩
  · rw [hsplit]
    exact h.resume
  · rw [htried, ← h.decoded_eq]
  · rw [htried, h.frame_eq]
    rfl
  · rw [hsplit]
    intro hrest
    obtain ⟨hpending, hres⟩ := h.of_not_complete hrest
    refine ⟨hpending, ?_⟩
    simp [hres, Except.map, hevents]

/-- A call decodes the messages of the bytes held and received. A chunk without
data is no occasion to try again. -/
theorem decode_spec (hst : st.Valid) (hdata : data ≠ [] ∨ st.pending = []) :
    DecodesTo crypto st (st.pending ++ data) (decode crypto st data) := by
  obtain ⟨s, hs⟩ : ∃ s, st.pending ++ data = s := ⟨_, rfl⟩
  induction s using idsFormat.split_induction generalizing st data with
  | incomplete s hnot =>
    have hcollected := collect_spec hst data
    rw [hs]
    by_cases hnil : data = []
    · subst hnil
      rw [decode_nil]
      exact decodesTo_of_not_complete hst rfl (by rw [← hs, append_nil]) hnot
    · rcases hcollect : collect st data with ⟨st', _ | rest⟩
      · rw [hcollect] at hcollected
        cases hcollected with
        | unfinished hvalid hframe hpending _ =>
          rw [decode_eq hnil, hcollect]
          exact decodesTo_of_not_complete hvalid hframe (hpending.trans hs) hnot
      · rw [hcollect] at hcollected
        cases hcollected with
        | finished _ _ hmsg hpending =>
          rw [← hs, hpending] at hnot
          exact absurd (hmsg.complete rest) hnot
  | message head body rest hmsg ih =>
    have hcollected := collect_spec hst data
    have hnil : data ≠ [] := by
      rintro rfl
      have hlen : 8 ≤ (head ++ (body ++ rest)).length := (hmsg.complete rest).1
      rw [← hs, hdata.resolve_left (absurd rfl)] at hlen
      cases hlen
    rcases hcollect : collect st data with ⟨st', _ | rest'⟩
    · rw [hcollect] at hcollected
      cases hcollected with
      | unfinished _ _ hpending hnot =>
        rw [hpending, hs] at hnot
        exact absurd (hmsg.complete rest) hnot
    · rw [hcollect] at hcollected
      cases hcollected with
      | finished hvalid hframe hmsg' hpending =>
        obtain ⟨rfl, rfl, rfl⟩ := hmsg.unique hmsg' (hs.symm.trans hpending)
        rw [hs, decode_eq hnil, hcollect]
        rcases hresult : (decodeMessage crypto).result st'.message with e | ⟨frame, event⟩
        · simp only [hresult]
          exact decodesTo_error hvalid hframe hmsg' hresult
        · simp only [hresult]
          have hnext := ih (valid_fresh (frameAfter st'.frame st'.message)) (.inr rfl) rfl
          rw [hframe] at hnext ⊢
          exact DecodesTo.ok (m := ⟨st'.headBuf, st'.message⟩) hnext hmsg' hresult

/-- The messages that a run tries, in terms of the whole stream. The message at
which it failed, if it did, is tried again at every later chunk. -/
theorem decodeChunks_tries (crypto : Option Verify) (hst : st.Valid)
    (P : Message uint8 → Prop) (chunks : List (List uint8)) :
    ((∀ call ∈ (decodeChunks crypto st chunks).2, ∀ m ∈ call.decoded, P m) ∧
        ∀ m ∈ idsFormat.tried (Decodes crypto) st.pending, P m) ↔
      ∀ m ∈ idsFormat.tried (Decodes crypto) (st.pending ++ chunks.flatten), P m := by
  induction chunks generalizing st with
  | nil => simp [decodeChunks]
  | cons chunk chunks ih =>
    rw [decodeChunks, flatten_cons]
    simp only [forall_mem_cons]
    by_cases hchunk : chunk = []
    · subst hchunk
      simp only [decode_nil, not_mem_nil, false_implies, implies_true, true_and]
      exact ih hst
    · have hcall : DecodesTo crypto st _ _ := decode_spec hst (.inl hchunk)
      have hafter := ih hcall.valid
      have hheld := hcall.resume []
      simp only [append_nil] at hheld
      rw [hcall.resume, hheld] at hafter
      rw [← append_assoc, tried_append, forall_mem_append, ← hafter, hcall.decoded_eq]
      constructor
      · rintro ⟨⟨hcalled, hlater⟩, _⟩
        rw [tried_eq, forall_mem_append] at hcalled
        exact ⟨hcalled.1, hlater, hcalled.2⟩
      · rintro ⟨hsplit, hlater, hrest⟩
        have hcalled : ∀ m ∈ idsFormat.tried (Decodes crypto) (st.pending ++ chunk), P m := by
          rw [tried_eq, forall_mem_append]
          exact ⟨hsplit, hrest⟩
        exact ⟨⟨hcalled, hlater⟩, fun m hm => hcalled m (mem_tried_append hm chunk)⟩

/-- A run through a stream without failures: what the calls return makes up the
events of the messages, and the members are those of the last one. -/
theorem decodeChunks_returns (hst : st.Valid)
    (hheld : (idsFormat.split (Decodes crypto) st.pending).1 = []) (chunks : List (List uint8))
    (hrest : ¬ idsFormat.Complete
      (idsFormat.split (Decodes crypto) (st.pending ++ chunks.flatten)).2) :
    let messages := (idsFormat.split (Decodes crypto) (st.pending ++ chunks.flatten)).1
    (∃ returns : List (List Event),
        (decodeChunks crypto st chunks).2.map (·.res) = returns.map .ok ∧
          returns.flatten = messages.flatMap (eventsOf crypto)) ∧
      (decodeChunks crypto st chunks).1.frame =
        messages.foldl (fun frame m => frameAfter frame m.body) st.frame := by
  induction chunks generalizing st with
  | nil =>
    rw [flatten_nil, append_nil, hheld]
    exact ⟨⟨[], rfl, rfl⟩, rfl⟩
  | cons chunk chunks ih =>
    rw [flatten_cons] at hrest ⊢
    rw [decodeChunks]
    by_cases hchunk : chunk = []
    · subst hchunk
      obtain ⟨⟨returns, hreturns, hflatten⟩, hframe⟩ := ih hst hheld hrest
      simp only [decode_nil]
      refine ⟨⟨[] :: returns, ?_, ?_⟩, hframe⟩
      · rw [map_cons, map_cons, hreturns]
      · rw [flatten_cons, hflatten]
        rfl
    · have hcall : DecodesTo crypto st _ _ := decode_spec hst (.inl hchunk)
      rw [← append_assoc] at hrest ⊢
      have hnot := not_complete_of_append hrest
      obtain ⟨hpending, hres⟩ := hcall.of_not_complete hnot
      have hframe := hcall.frame_eq
      rw [tried_eq_split hnot] at hframe
      rw [split_append, ← hpending] at hrest ⊢
      have hsettled :
          (idsFormat.split (Decodes crypto) (decode crypto st chunk).1.pending).1 = [] := by
        rw [hpending, split_rest]
      obtain ⟨⟨returns, hreturns, hflatten⟩, hlater⟩ := ih hcall.valid hsettled hrest
      obtain ⟨events, hevents⟩ : ∃ events, (idsFormat.split (Decodes crypto)
          (st.pending ++ chunk)).1.flatMap (eventsOf crypto) = events := ⟨_, rfl⟩
      rw [hevents] at hres
      refine ⟨⟨events :: returns, ?_, ?_⟩, ?_⟩
      · rw [map_cons, map_cons, hreturns, hres]
      · rw [flatten_cons, hflatten, flatMap_append, hevents]
      · rw [foldl_append, ← hframe]
        exact hlater

end IdsmDeserialize

end AdaptivePlatform.Idsm
