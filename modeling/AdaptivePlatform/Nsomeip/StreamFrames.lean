import AdaptivePlatform.Foundations.LengthPrefixed
import AdaptivePlatform.Nsomeip.StreamCut

/-!
# The messages of a stream

A stream is to be cut behind 8 bytes and as many more as the length field says.
The reader does this as long as each message that is not a signal has a length
of 8 or more. It does not report one that is shorter, but takes the bytes behind
its header for a payload of almost `2 ^ 64` bytes. Two other ways to fail need
an unusual configuration or header: a signal so long that its length overflows,
and the identifiers with which the cache of lookups starts.
-/
namespace AdaptivePlatform.Nsomeip

open LengthPrefixed List NsiStream
open NsiStream (recv fresh)

/-- The length field counts what follows it. -/
def streamFormat : LengthPrefixed uint8 where
  headSize := msghdrSize
  bodySize head := (lenField head).toNat
  headSize_pos := by decide

namespace StreamConf

variable (conf : StreamConf)

/-- The header is that of a signal. -/
def signal (h : List uint8) : Bool := conf.endpointIsSignal (servField h) (methodField h)

/-- The length is neither above the limit nor too short for the rest of the header. -/
def Acceptable (h : List uint8) : Prop :=
  lenField h ≤ conf.msgLimit ∧ (conf.signal h = true ∨ msgextSize ≤ (lenField h).toNat)

instance (h : List uint8) : Decidable (conf.Acceptable h) := inferInstanceAs (Decidable (_ ∧ _))

/-- The message that is to be handed over. -/
def delivered (m : Message uint8) : StreamMessage :=
  if conf.signal m.head then ⟨signalHdr m.head, m.body⟩
  else ⟨normalHdr (m.head ++ m.body), m.body.drop msgextSize⟩

/-- The complete messages of a stream up to the first one that is not acceptable, and the rest. -/
def frames (stream : List uint8) : List (Message uint8) × List uint8 :=
  streamFormat.split (fun m => conf.Acceptable m.head) stream

/-- The complete messages, and whether a header that is not acceptable follows. -/
def expected (stream : List uint8) : Cut StreamMessage where
  items := (conf.frames stream).1.map conf.delivered
  failed := decide (msghdrSize ≤ (conf.frames stream).2.length ∧
    ¬ conf.Acceptable (conf.frames stream).2)

/-- The cache does not have a wrong result for the header. -/
def KnowsAt (evt : EventCache) (h : List uint8) : Prop :=
  conf.isLocal = false → evt.serv = servField h → evt.method = methodField h →
    evt.sig = conf.isSignal (servField h) (methodField h)

/-- What the reader relies on: the length of a signal does not overflow, a message that is not a
signal is not too short, and the cache does not have a wrong result for the first one. -/
structure Regular (evt : EventCache) (stream : List uint8) : Prop where
  signal_lt : ∀ m ∈ (conf.frames stream).1, conf.signal m.head = true →
    (lenField m.head).toNat + msgextSize < 2 ^ 32
  not_short : msghdrSize ≤ (conf.frames stream).2.length →
    lenField (conf.frames stream).2 ≤ conf.msgLimit →
      conf.signal (conf.frames stream).2 = true ∨
        msgextSize ≤ (lenField (conf.frames stream).2).toNat
  knows : ∀ m ∈ (conf.frames stream).1.head?, conf.KnowsAt evt m.head

variable {conf} {evt : EventCache} {l h : List uint8}

theorem Acceptable.long (haccept : conf.Acceptable h) (hsig : conf.signal h = false) :
    msgextSize ≤ (lenField h).toNat :=
  haccept.2.resolve_left (by rw [hsig]; exact Bool.false_ne_true)

/-! ### Lookups -/

theorem lookup_ids (evt : EventCache) (serv method : uint16) :
    (conf.lookup evt serv method).serv = serv ∧ (conf.lookup evt serv method).method = method := by
  unfold lookup
  split_ifs with hids
  · exact ⟨rfl, rfl⟩
  · obtain ⟨hserv, hmethod⟩ := not_or.mp hids
    exact ⟨not_ne_iff.mp hserv, not_ne_iff.mp hmethod⟩

theorem knowsAt_iff : conf.KnowsAt evt h ↔ (conf.classify evt h).1 = conf.signal h := by
  unfold KnowsAt classify signal endpointIsSignal
  cases hlocal : conf.isLocal with
  | true => simp
  | false =>
    simp only [forall_const, Bool.false_eq_true, if_false, lookup]
    split_ifs with hids
    · simp only [endpointIsSignal, hlocal, Bool.not_false, Bool.true_and, iff_true]
      intro hserv hmethod
      exact absurd hids (not_or.mpr ⟨not_not.mpr hserv, not_not.mpr hmethod⟩)
    · obtain ⟨hserv, hmethod⟩ := not_or.mp hids
      simp [not_not.mp hserv, not_not.mp hmethod]

theorem KnowsAt.next (hknows : conf.KnowsAt evt h) (h' : List uint8) :
    conf.KnowsAt (conf.classify evt h).2 h' := by
  intro hlocal hserv' hmethod'
  have hsig := knowsAt_iff.mp hknows
  obtain ⟨hserv, hmethod⟩ := conf.lookup_ids evt (servField h) (methodField h)
  simp only [classify, hlocal, Bool.false_eq_true, if_false] at hserv' hmethod' hsig ⊢
  rw [hsig, signal, endpointIsSignal, hlocal, Bool.not_false, Bool.true_and,
    hserv.symm.trans hserv', hmethod.symm.trans hmethod']

/-! ### Lengths -/

theorem toNat_payloadLen (hdr : MsgHdr) :
    hdr.payloadLen.toNat =
      if msgextSize ≤ hdr.len.toNat then hdr.len.toNat - msgextSize
      else hdr.len.toNat + 2 ^ 64 - msgextSize := by
  have h8 : (BitVec.ofNat 64 (msgextSize - sigextSize)).toNat = 8 := rfl
  have hlen : (hdr.len.setWidth 64).toNat = hdr.len.toNat := by bv_omega
  rw [MsgHdr.payloadLen, BitVec.toNat_sub, hlen, h8, msgextSize]
  split_ifs <;> omega

theorem toNat_payloadLen_normalHdr :
    (normalHdr h).payloadLen.toNat =
      if msgextSize ≤ (lenField h).toNat then (lenField h).toNat - msgextSize
      else (lenField h).toNat + 2 ^ 64 - msgextSize := toNat_payloadLen _

theorem toNat_payloadLen_signalHdr :
    (signalHdr h).payloadLen.toNat =
      if (lenField h).toNat + msgextSize < 2 ^ 32 then (lenField h).toNat
      else (lenField h).toNat + 2 ^ 64 - 2 ^ 32 := by
  have hlen : (signalHdr h).len.toNat = ((lenField h).toNat + 8) % 2 ^ 32 := by rfl
  rw [toNat_payloadLen, hlen, msgextSize]
  split_ifs <;> omega

/-! ### The first message -/

theorem find_of_short (hlen : l.length < msghdrSize) : conf.find evt l = .more := by
  simp [find, readHead, if_pos hlen]

section

variable (hlen : msghdrSize ≤ l.length)

include hlen

theorem find_of_limit_lt (hlimit : conf.msgLimit < lenField l) : conf.find evt l = .fail := by
  simp [find, readHead, if_neg (Nat.not_lt_of_le hlen), if_pos hlimit]

variable (hlimit : lenField l ≤ conf.msgLimit)

include hlimit

theorem find_of_signal (hsig : (conf.classify evt l).1 = true) :
    conf.find evt l =
      if l.length - msghdrSize < (signalHdr l).payloadLen.toNat then .more
      else .item ⟨signalHdr l, (l.drop msghdrSize).take (signalHdr l).payloadLen.toNat⟩
        (msghdrSize + (signalHdr l).payloadLen.toNat) (conf.classify evt l).2 := by
  apply find_of_header
  rw [readHead, if_neg (Nat.not_lt_of_le hlen), if_neg (BitVec.not_lt.mpr hlimit), if_pos hsig]

theorem find_of_normal (hsig : (conf.classify evt l).1 = false) :
    conf.find evt l =
      if l.length < sizeofMsghdr ∨ l.length - sizeofMsghdr < (normalHdr l).payloadLen.toNat then
        .more
      else .item ⟨normalHdr l, (l.drop sizeofMsghdr).take (normalHdr l).payloadLen.toNat⟩
        (sizeofMsghdr + (normalHdr l).payloadLen.toNat) (conf.classify evt l).2 := by
  have hhead : conf.readHead evt l =
      if l.length < sizeofMsghdr then .more (conf.classify evt l).2
      else .header (conf.classify evt l).2 sizeofMsghdr (normalHdr l) := by
    rw [readHead, if_neg (Nat.not_lt_of_le hlen), if_neg (BitVec.not_lt.mpr hlimit), hsig,
      if_neg Bool.false_ne_true]
  by_cases h16 : l.length < sizeofMsghdr
  · rw [if_pos h16] at hhead
    rw [if_pos (Or.inl h16)]
    simp [find, hhead]
  · rw [if_neg h16] at hhead
    rw [find_of_header hhead]
    simp [h16]

theorem find_of_incomplete (hmore : l.length < msghdrSize + (lenField l).toNat) :
    conf.find evt l = .more := by
  rw [msghdrSize] at hlen hmore
  cases hsig : (conf.classify evt l).1 with
  | true =>
    rw [find_of_signal hlen hlimit hsig, if_pos]
    rw [toNat_payloadLen_signalHdr, msghdrSize]
    split_ifs <;> omega
  | false =>
    rw [find_of_normal hlen hlimit hsig, if_pos]
    rw [toNat_payloadLen_normalHdr, sizeofMsghdr, msgextSize]
    split_ifs <;> omega

theorem cut_ne_failed : conf.cutter.cut evt l ≠ { failed := true } := by
  have hfail : ∀ found : Found EventCache StreamMessage, conf.find evt l = found →
      found ≠ .fail → conf.cutter.cut evt l ≠ { failed := true } := by
    intro found hfound hne heq
    cases found with
    | more =>
      rw [Cutter.cut_of_more hfound] at heq
      cases congrArg Cut.failed heq
    | fail => exact hne rfl
    | item m n evt' =>
      have hcut := Cutter.cut_of_item (c := conf.cutter) hfound
      rw [hcut] at heq
      exact absurd (congrArg Cut.items heq) (cons_ne_nil _ _)
  refine hfail _ rfl ?_
  cases hsig : (conf.classify evt l).1 with
  | true =>
    rw [find_of_signal hlen hlimit hsig]
    split_ifs <;> simp
  | false =>
    rw [find_of_normal hlen hlimit hsig]
    split_ifs <;> simp

theorem length_payload_of_item {m : StreamMessage} {n : ℕ} {evt' : EventCache}
    (h : conf.find evt l = .item m n evt') :
    m.payload.length = if (conf.classify evt l).1 then (signalHdr l).payloadLen.toNat
      else (normalHdr l).payloadLen.toNat := by
  cases hsig : (conf.classify evt l).1 with
  | true =>
    rw [find_of_signal hlen hlimit hsig] at h
    split_ifs at h with hmore
    obtain ⟨rfl, -⟩ := Found.item.inj h
    rw [if_pos rfl, length_take, length_drop]
    omega
  | false =>
    rw [find_of_normal hlen hlimit hsig] at h
    split_ifs at h with hmore
    obtain ⟨rfl, -⟩ := Found.item.inj h
    rw [if_neg Bool.false_ne_true, length_take, length_drop]
    omega

end

section

variable {head body : List uint8} (hmsg : streamFormat.IsMessage head body) (rest : List uint8)
  (haccept : conf.Acceptable head)

include hmsg in
theorem msghdrSize_le_length : msghdrSize ≤ (head ++ (body ++ rest)).length := by
  have hhead : head.length = msghdrSize := hmsg.length_head
  rw [length_append]
  omega

include hmsg haccept

theorem lenField_le_msgLimit : lenField (head ++ (body ++ rest)) ≤ conf.msgLimit := by
  rw [lenField_append hmsg.length_head.ge]
  exact haccept.1

theorem find_message (hknows : conf.KnowsAt evt head)
    (hlt : conf.signal head = true → (lenField head).toNat + msgextSize < 2 ^ 32) :
    conf.find evt (head ++ (body ++ rest)) =
      .item (conf.delivered ⟨head, body⟩) (msghdrSize + body.length)
        (conf.classify evt head).2 := by
  have h8 : msghdrSize ≤ head.length := hmsg.length_head.ge
  have hhead : head.length = msghdrSize := hmsg.length_head
  have hbody : body.length = (lenField head).toNat := hmsg.length_body
  have hlen := msghdrSize_le_length hmsg rest
  have hlimit := lenField_le_msgLimit hmsg rest haccept
  have hdrop : (head ++ (body ++ rest)).drop msghdrSize = body ++ rest := drop_left' hhead
  have hclassify := classify_append h8 (body ++ rest) conf evt
  have hkind : (conf.classify evt (head ++ (body ++ rest))).1 = conf.signal head := by
    rw [hclassify, knowsAt_iff.mp hknows]
  cases hsig : conf.signal head with
  | true =>
    have hpayload : (signalHdr head).payloadLen.toNat = body.length := by
      rw [toNat_payloadLen_signalHdr, if_pos (hlt hsig), hbody]
    rw [find_of_signal hlen hlimit (hkind.trans hsig), signalHdr_append h8, hpayload, if_neg, hdrop,
      take_left' rfl, hclassify, delivered, if_pos hsig]
    rw [length_append, length_append]
    omega
  | false =>
    have hlong := haccept.long hsig
    have hlong8 : 8 ≤ (lenField head).toNat := hlong
    rw [msghdrSize] at hhead
    have hnormal : normalHdr (head ++ (body ++ rest)) = normalHdr (head ++ body) := by
      rw [← append_assoc]
      apply normalHdr_append
      rw [length_append, sizeofMsghdr]
      omega
    have hpayload : (normalHdr (head ++ body)).payloadLen.toNat = body.length - msgextSize := by
      rw [toNat_payloadLen_normalHdr, lenField_append h8, if_pos hlong, hbody]
    have hdrop16 : (head ++ (body ++ rest)).drop sizeofMsghdr = body.drop msgextSize ++ rest := by
      have hsum : sizeofMsghdr = msghdrSize + msgextSize := rfl
      rw [hsum, ← drop_drop, hdrop, drop_append_of_le_length]
      omega
    have hdelivered : conf.delivered ⟨head, body⟩ =
        ⟨normalHdr (head ++ body), body.drop msgextSize⟩ := by
      rw [delivered, hsig, if_neg Bool.false_ne_true]
    have hn : sizeofMsghdr + (body.length - msgextSize) = msghdrSize + body.length := by
      rw [sizeofMsghdr, msgextSize, msghdrSize]
      omega
    rw [find_of_normal hlen hlimit (hkind.trans hsig), hnormal, hpayload, if_neg, hdrop16,
      take_left' (by rw [length_drop]), hclassify, hdelivered, hn]
    rw [length_append, length_append, sizeofMsghdr, msgextSize]
    omega

/-- A message that is taken for another one, or whose length overflows, is not handed over. -/
theorem cut_items_ne (h : ¬ (conf.KnowsAt evt head ∧
      (conf.signal head = true → (lenField head).toNat + msgextSize < 2 ^ 32)))
    (later : List StreamMessage) :
    (conf.cutter.cut evt (head ++ (body ++ rest))).items ≠
      conf.delivered ⟨head, body⟩ :: later := by
  have h8 : msghdrSize ≤ head.length := hmsg.length_head.ge
  have hbody : body.length = (lenField head).toNat := hmsg.length_body
  have hlen := msghdrSize_le_length hmsg rest
  have hlimit := lenField_le_msgLimit hmsg rest haccept
  have hdelivered : (conf.delivered ⟨head, body⟩).payload.length =
      if conf.signal head then (lenField head).toNat else (lenField head).toNat - msgextSize := by
    rw [delivered]
    split_ifs
    · exact hbody
    · rw [length_drop, hbody]
  intro heq
  cases hfound : conf.find evt (head ++ (body ++ rest)) with
  | more =>
    rw [Cutter.cut_of_more hfound] at heq
    cases heq
  | fail =>
    rw [Cutter.cut_of_fail hfound] at heq
    cases heq
  | item m n evt' =>
    have hcut := Cutter.cut_of_item (c := conf.cutter) hfound
    have hlength := length_payload_of_item hlen hlimit hfound
    rw [hcut] at heq
    obtain ⟨rfl, -⟩ := cons.inj heq
    rw [hdelivered, classify_append h8, toNat_payloadLen_signalHdr, toNat_payloadLen_normalHdr,
      lenField_append h8, msgextSize] at hlength
    rw [knowsAt_iff, msgextSize] at h
    cases hsig : conf.signal head with
    | true =>
      cases hclass : (conf.classify evt head).1 with
      | true =>
        -- the length overflows
        have hover : ¬ (lenField head).toNat + 8 < 2 ^ 32 := by
          intro hlt
          exact h ⟨hclass.trans hsig.symm, fun _ => hlt⟩
        rw [hsig, hclass, if_pos rfl, if_pos rfl, if_neg hover] at hlength
        omega
      | false =>
        rw [hsig, hclass, if_pos rfl, if_neg Bool.false_ne_true] at hlength
        split_ifs at hlength <;> omega
    | false =>
      have hlong : 8 ≤ (lenField head).toNat := haccept.long hsig
      cases hclass : (conf.classify evt head).1 with
      | true =>
        rw [hsig, hclass, if_neg Bool.false_ne_true, if_pos rfl] at hlength
        split_ifs at hlength <;> omega
      | false =>
        exact h ⟨hclass.trans hsig.symm, fun htrue => absurd (hsig.symm.trans htrue) (by simp)⟩

end

/-! ### The whole stream -/

theorem cut_eq_expected_iff_of_stuck (hframes : conf.frames l = ([], l))
    (hmore : msghdrSize ≤ l.length → conf.Acceptable l → conf.find evt l = .more) :
    conf.cutter.cut evt l = conf.expected l ↔ conf.Regular evt l := by
  have hexpected : conf.expected l =
      { failed := decide (msghdrSize ≤ l.length ∧ ¬ conf.Acceptable l) } := by
    rw [expected, hframes]
    rfl
  have hregular : conf.Regular evt l ↔ (msghdrSize ≤ l.length → lenField l ≤ conf.msgLimit →
      conf.signal l = true ∨ msgextSize ≤ (lenField l).toNat) := by
    constructor
    · intro h
      have hshort := h.not_short
      rwa [hframes] at hshort
    · intro h
      refine ⟨?_, ?_, ?_⟩ <;> rw [hframes]
      · exact forall_mem_nil _
      · exact h
      · intro m hm
        cases hm
  rw [hexpected, hregular]
  by_cases hlen : msghdrSize ≤ l.length
  · by_cases hlimit : lenField l ≤ conf.msgLimit
    · by_cases haccept : conf.Acceptable l
      · rw [Cutter.cut_of_more (hmore hlen haccept), decide_eq_false (fun h => h.2 haccept)]
        exact iff_of_true rfl fun _ _ => haccept.2
      · rw [decide_eq_true ⟨hlen, haccept⟩]
        refine iff_of_false (cut_ne_failed hlen hlimit) fun h => ?_
        exact haccept ⟨hlimit, h hlen hlimit⟩
    · have haccept : ¬ conf.Acceptable l := fun h => hlimit h.1
      rw [Cutter.cut_of_fail (find_of_limit_lt hlen (BitVec.not_le.mp hlimit)),
        decide_eq_true ⟨hlen, haccept⟩]
      exact iff_of_true rfl fun _ h => absurd h hlimit
  · rw [Cutter.cut_of_more (find_of_short (Nat.lt_of_not_le hlen)),
      decide_eq_false (fun h => hlen h.1)]
    exact iff_of_true rfl fun h => absurd h hlen

variable {head body : List uint8}

theorem frames_message (hmsg : streamFormat.IsMessage head body) (rest : List uint8) :
    conf.frames (head ++ (body ++ rest)) =
      if conf.Acceptable head then (⟨head, body⟩ :: (conf.frames rest).1, (conf.frames rest).2)
      else ([], head ++ (body ++ rest)) := hmsg.split_eq rest

theorem regular_iff_of_message {rest : List uint8}
    (hframes : conf.frames (head ++ (body ++ rest)) =
      (⟨head, body⟩ :: (conf.frames rest).1, (conf.frames rest).2)) :
    conf.Regular evt (head ++ (body ++ rest)) ↔
      (conf.KnowsAt evt head ∧
        (conf.signal head = true → (lenField head).toNat + msgextSize < 2 ^ 32)) ∧
      conf.Regular (conf.classify evt head).2 rest := by
  constructor
  · rintro ⟨hlt, hshort, hknows⟩
    rw [hframes] at hlt hshort hknows
    obtain ⟨hfirst, hlater⟩ := forall_mem_cons.mp hlt
    have hknows : conf.KnowsAt evt head := hknows _ rfl
    exact ⟨⟨hknows, hfirst⟩, hlater, hshort, fun m _ => hknows.next m.head⟩
  · rintro ⟨⟨hknows, hfirst⟩, hlater, hshort, -⟩
    refine ⟨?_, ?_, ?_⟩ <;> rw [hframes]
    · exact forall_mem_cons.mpr ⟨hfirst, hlater⟩
    · exact hshort
    · rintro m ⟨⟩
      exact hknows

/-- The reader cuts the stream where it should exactly if the stream is regular. -/
theorem cut_eq_expected_iff (conf : StreamConf) (evt : EventCache) (stream : List uint8) :
    conf.cutter.cut evt stream = conf.expected stream ↔ conf.Regular evt stream := by
  induction stream using streamFormat.split_induction generalizing evt with
  | incomplete s h =>
    refine cut_eq_expected_iff_of_stuck (split_of_not_complete h) fun hlen haccept => ?_
    have hfield : lenField (s.take msghdrSize) = lenField s := by
      rw [← lenField_append (by rw [length_take]; omega) (s.drop msghdrSize), take_append_drop]
    refine find_of_incomplete hlen haccept.1 (Nat.lt_of_not_le fun hle => h ⟨hlen, ?_⟩)
    change msghdrSize + (lenField (s.take msghdrSize)).toNat ≤ s.length
    rw [hfield]
    exact hle
  | message head body rest hmsg ih =>
    have h8 : msghdrSize ≤ head.length := hmsg.length_head.ge
    have hsplit := conf.frames_message hmsg rest
    by_cases haccept : conf.Acceptable head
    · rw [if_pos haccept] at hsplit
      have hexpected : conf.expected (head ++ (body ++ rest)) =
          (conf.expected rest).after [conf.delivered ⟨head, body⟩] := by
        rw [expected, hsplit]
        rfl
      rw [regular_iff_of_message hsplit, hexpected]
      by_cases hfirst : conf.KnowsAt evt head ∧
          (conf.signal head = true → (lenField head).toNat + msgextSize < 2 ^ 32)
      · have hcut := Cutter.cut_of_item (c := conf.cutter)
          (find_message hmsg rest haccept hfirst.1 hfirst.2)
        have hdrop : (head ++ (body ++ rest)).drop (msghdrSize + body.length) = rest := by
          rw [← append_assoc]
          apply drop_left'
          rw [length_append, hmsg.length_head]
          rfl
        rw [hcut, hdrop, Cut.after_inj, ih, and_iff_right hfirst]
      · refine iff_of_false (fun heq => ?_) fun h => hfirst h.1
        exact cut_items_ne hmsg rest haccept hfirst _ (congrArg Cut.items heq)
    · rw [if_neg haccept] at hsplit
      refine cut_eq_expected_iff_of_stuck hsplit fun _ h => absurd ?_ haccept
      rwa [Acceptable, lenField_append h8, signal, servField_append h8, methodField_append h8] at h

end StreamConf

/-- Whatever the reads were in which the stream arrived, its complete messages have been handed
over, an error is reported exactly if a header behind them is not acceptable, and otherwise there is
space to read on. -/
def ReadsMessages (conf : StreamConf) (sig : Bool) (stream : List uint8) : Prop :=
  ∀ reads : List NsiStream.Arrival, reads.flatMap (·.data) = stream →
    ∀ c, Runs.exec recv (fresh conf sig) reads = some c →
      c.handed = (conf.expected stream).items ∧ c.error.isSome = (conf.expected stream).failed ∧
        (c.error = none → c.buf.size < c.buf.total)

theorem outcome_fresh (conf : StreamConf) (sig : Bool) (t : List uint8) :
    (fresh conf sig).outcome t = conf.cutter.cut ⟨0xffff, 0, sig⟩ t := by
  rfl

variable {conf : StreamConf} {sig : Bool}

theorem exec_fresh_spec {reads : List NsiStream.Arrival} {c : NsiStream conf}
    (h : Runs.exec recv (fresh conf sig) reads = some c) :
    c.Waiting ∧ (⟨c.handed, c.error.isSome⟩ : Cut StreamMessage) =
      conf.cutter.cut ⟨0xffff, 0, sig⟩ (reads.flatMap (·.data)) := by
  obtain ⟨hwaiting, hsame⟩ := exec_recv_spec (waiting_fresh conf sig) h
  refine ⟨hwaiting, ?_⟩
  rw [← hwaiting.settled, hsame, append_nil, outcome_fresh]

theorem readsMessages_iff_cut {stream : List uint8} :
    ReadsMessages conf sig stream ↔
      conf.cutter.cut ⟨0xffff, 0, sig⟩ stream = conf.expected stream := by
  constructor
  · intro h
    have hdata : (stream.map NsiStream.Arrival.single).flatMap (·.data) = stream := by
      rw [flatMap_map]
      exact flatMap_singleton' stream
    obtain ⟨c, hc⟩ := exists_exec_recv (waiting_fresh conf sig) stream
    obtain ⟨hitems, hfailed, -⟩ := h _ hdata c hc
    rw [← hdata, ← (exec_fresh_spec hc).2, hdata]
    exact Cut.ext hitems hfailed
  · rintro h reads rfl c hc
    obtain ⟨hwaiting, hcut⟩ := exec_fresh_spec hc
    rw [h] at hcut
    exact ⟨congrArg Cut.items hcut, congrArg Cut.failed hcut, hwaiting.room⟩

/-- The messages of the stream are read, however it is split into reads, exactly if no signal has a
length of `2 ^ 32 - 8` or more, no other message has a length below 8, and the first lookup is
right. -/
theorem readsMessages_iff (conf : StreamConf) (sig : Bool) (stream : List uint8) :
    ReadsMessages conf sig stream ↔ conf.Regular ⟨0xffff, 0, sig⟩ stream := by
  rw [readsMessages_iff_cut, conf.cut_eq_expected_iff]

def plainConf : StreamConf where
  isLocal := false
  msgLimit := 32 * 1024 * 1024
  isSignal _ _ := false
  bsize := 64 * 1024 - 64
  bsize_ge := le_rfl

/-- The length of the first header is 0. It is not reported, and the message behind it is not
handed over. -/
theorem not_readsMessages :
    ¬ ReadsMessages plainConf false
      ([0x12, 0x34, 0, 1, 0, 0, 0, 0] ++ ([] ++ ([0, 1, 0, 1, 1, 1, 0, 0] ++
        [0x12, 0x34, 0, 1, 0, 0, 0, 8, 0, 1, 0, 2, 1, 1, 0, 0]))) := by
  have hmsg : streamFormat.IsMessage [0x12, 0x34, 0, 1, 0, 0, 0, 0] [] := ⟨rfl, by decide⟩
  have hframes := plainConf.frames_message hmsg
    ([0, 1, 0, 1, 1, 1, 0, 0] ++ [0x12, 0x34, 0, 1, 0, 0, 0, 8, 0, 1, 0, 2, 1, 1, 0, 0])
  rw [if_neg (by decide)] at hframes
  rw [readsMessages_iff_cut, StreamConf.cut_eq_expected_iff]
  intro h
  have hshort := h.not_short
  rw [hframes] at hshort
  exact absurd (hshort (by decide) (by decide)) (by decide)

/-- What is handed over and whether an error is reported does not depend on the reads in which the
stream arrived: it is the same as byte by byte. -/
theorem handed_eq_bytewise {reads : List Arrival} {c : NsiStream conf}
    (h : Runs.exec recv (fresh conf sig) reads = some c) :
    ∃ c', Runs.exec recv (fresh conf sig) ((reads.flatMap (·.data)).map .single) = some c' ∧
      c'.handed = c.handed ∧ c'.error.isSome = c.error.isSome := by
  obtain ⟨c', hc'⟩ := exists_exec_recv (waiting_fresh conf sig) (reads.flatMap (·.data))
  have hcut := (exec_fresh_spec hc').2
  simp only [flatMap_map, Arrival.single, flatMap_singleton', ← (exec_fresh_spec h).2] at hcut
  exact ⟨c', hc', Cut.mk.inj hcut⟩

/-- A request with the payload 7, 9, and the first byte of what follows it. -/
def requestAndMore : Arrival :=
  { Arrival.single 0 with
    data := [0x12, 0x34, 0, 1, 0, 0, 0, 10, 0, 1, 0, 2, 1, 1, 0, 0, 7, 9, 0x12] }

theorem handed_eq_bytewise_request : ∃ c c',
    Runs.exec recv (fresh plainConf false) [requestAndMore] = some c ∧
      c.handed.map (·.payload) = [[7, 9]] ∧
      Runs.exec recv (fresh plainConf false) (requestAndMore.data.map .single) = some c' ∧
      c'.handed = c.handed ∧ c'.error.isSome = c.error.isSome := by
  have hread : (Runs.exec recv (fresh plainConf false) [requestAndMore]).isSome := by
    simp only [Runs.exec, recv]
    rw [if_neg (by decide), if_neg (by decide)]
    split_ifs <;> rfl
  obtain ⟨c, hc⟩ := Option.isSome_iff_exists.mp hread
  have hhanded : c.handed.map (·.payload) = [[7, 9]] := by
    have hcut := (exec_fresh_spec hc).2
    rw [Cutter.cut_of_item rfl, Cutter.cut_of_more rfl] at hcut
    rw [(Cut.mk.inj hcut).1]
    decide
  obtain ⟨c', h⟩ := handed_eq_bytewise hc
  exact ⟨c, c', hc, hhanded, h⟩

end AdaptivePlatform.Nsomeip
