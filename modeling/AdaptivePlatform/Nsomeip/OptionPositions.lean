import AdaptivePlatform.Nsomeip.SdOptions

/-!
# Where the options of a message are read

An option that is not understood is marked, but only its first four bytes are
taken off the message. The option behind it is then read from the middle of it,
unless these four bytes were all. Short options have more problems: there is
space for one option in eight bytes only, and the loop ends when at most four
bytes are left. Otherwise each option is read where it begins.
-/
namespace AdaptivePlatform.Nsomeip

open Bytes List Option Nat
open BitVec (ofNat)
open BitVec hiding not_not not_or
open MessageIo (getU4Be getU4Be_append getU4Be_beBytes readLeast_append readStart readStart_append)

variable {body t : List uint8} {room : ℕ}

/-- An option on the wire. The length field counts what follows the type: a byte with the discard
flag, and what the type is about. -/
structure WireOption where
  type : uint8
  data : List uint8
  length_lt : data.length < 2 ^ 16

namespace WireOption

variable (o : WireOption)

def bytes : List uint8 := beBytes 2 (ofNat 16 o.data.length) ++ o.type :: o.data

def size : ℕ := o.data.length + 3

/-- The type is known, and the length is right for it. -/
def WellSized : Prop :=
  match optKind o.type with
  | some .load => o.data.length = 5
  | some .in4 => o.data.length = 9
  | some .in6 => o.data.length = 21
  | some .raw => 1 ≤ o.data.length
  | none => False

/-- The protocol of an address option. -/
def protoByte : Option uint8 :=
  match optKind o.type with
  | some .in4 => o.data[6]?
  | some .in6 => o.data[18]?
  | _ => none

/-- An address is one for TCP or for UDP. -/
def ProtoKnown : Prop := ∀ b ∈ o.protoByte, b = protoTcp ∨ b = protoUdp

/-- What the option says. -/
def ownData (scopeId : uint32) : Option SdData :=
  match optKind o.type with
  | some .load => some (.load (beWord 32 (o.data.drop 1)))
  | some .in4 => some (.in4 ((o.data.drop 1).take 4) (o.data.drop 7))
  | some .in6 => some (.in6 ((o.data.drop 1).take 16) (o.data.drop 19) scopeId)
  | some .raw => some (.raw (o.data.drop 1))
  | none => none

instance : Decidable o.WellSized := by
  unfold WellSized
  split <;> infer_instance

/-- The option is marked as erroneous exactly if its type is not known or its length is not right.
Otherwise, and if the protocol is known, it has its own protocol and address. -/
structure ReadAs (scopeId : uint32) (opt : SdOption) : Prop where
  type_eq : opt.type = o.type
  error_iff : opt.error = true ↔ ¬ o.WellSized
  own : o.WellSized → o.ProtoKnown →
    opt.proto = some (decide (o.protoByte = some protoTcp)) ∧ opt.data = o.ownData scopeId

variable {o} (flags : uint8) {scopeId : uint32}

theorem length_bytes : o.bytes.length = o.size := by
  rw [bytes, length_append, length_beBytes, length_cons, size]
  omega

/-- The first word at an option; its last byte does not belong to an option of length 0. -/
def headerWord (o : WireOption) (flags : uint8) : uint32 :=
  beWord 32 (beBytes 2 (ofNat 16 o.data.length) ++ [o.type, flags])

theorem toNat_headerWord :
    (o.headerWord flags).toNat = o.data.length * 65536 + o.type.toNat * 256 + flags.toNat := by
  have hlen := o.length_lt
  have hzero : (0 : BitVec 32).toNat = 0 := rfl
  simp only [headerWord, beBytes, beWord, List.cons_append, nil_append, length_cons, length_nil,
    toNat_add, toNat_shiftLeft, toNat_setWidth, toNat_ushiftRight, toNat_ofNat]
  omega

theorem len_headerWord : (o.headerWord flags >>> 16).toNat = o.data.length := by
  rw [toNat_ushiftRight, toNat_headerWord, shiftRight_eq_div_pow]
  omega

theorem type_headerWord : (o.headerWord flags >>> 8).setWidth 8 = o.type := by
  apply eq_of_toNat_eq
  rw [toNat_setWidth, toNat_ushiftRight, toNat_headerWord, shiftRight_eq_div_pow]
  omega

/-- The members that are set before the switch. -/
def marked (o : WireOption) (flags : uint8) : SdOption :=
  { type := o.type, discardable := (o.headerWord flags).getLsbD 0 }

theorem optHeader_headerWord :
    optHeader (o.headerWord flags) = (o.data.length, o.marked flags) := by
  rw [optHeader, len_headerWord, type_headerWord, marked]

/-- What is read at an option, if it is followed by `flags :: body`. -/
theorem readOption_eq {flags : uint8} (h : o.data ++ t = flags :: body) (scopeId : uint32)
    (pos : ℕ) :
    readOption scopeId ⟨pos, o.bytes ++ t⟩ =
      (readBody scopeId o.data.length (o.marked flags) ⟨pos + 4, body⟩).map fun read =>
        (read.1, read.2, o.size) := by
  have hbytes : o.bytes ++ t = (beBytes 2 (ofNat 16 o.data.length) ++ [o.type, flags]) ++ body := by
    rw [bytes, List.append_assoc, List.append_assoc, List.cons_append, h]
    rfl
  have hlen : (beBytes 2 (ofNat 16 o.data.length) ++ [o.type, flags]).length = 4 := by rfl
  rw [readOption, hbytes, getU4Be_append hlen, bind_some, ← headerWord, optHeader_headerWord]
  rfl

theorem readAddress_eq {addrSize : ℕ} (hlen : body.length = addrSize + 4)
    (address : List uint8 → List uint8 → SdData) (opt : SdOption) (pos : ℕ) :
    readAddress addrSize address opt ⟨pos, body ++ t⟩ =
      some (addressOption address opt (body.take addrSize) (body.drop addrSize),
        ⟨pos + body.length, t⟩) := by
  have hbody : body ++ t = body.take addrSize ++ (body.drop addrSize ++ t) := by
    rw [← List.append_assoc, take_append_drop]
  have htake : (body.take addrSize).length = addrSize := by
    rw [length_take]
    omega
  have hdrop : (body.drop addrSize).length = 4 := by
    rw [length_drop]
    omega
  rw [readAddress, hbody, readLeast_append htake, bind_some,
    readLeast_append hdrop, map_some, hlen, Nat.add_assoc]

theorem readAs_addressOption_iff (address : List uint8 → List uint8 → SdData) {n : ℕ}
    (hwell : o.WellSized) (hlen : body.length = n + 4) (hproto : o.protoByte = body[n + 1]?)
    (hown : o.ownData scopeId = some (address (body.take n) (body.drop (n + 2)))) :
    o.ReadAs scopeId (addressOption address (o.marked flags) (body.take n) (body.drop n)) ↔
      o.ProtoKnown := by
  obtain ⟨b, hb⟩ : ∃ b, body[n + 1]? = some b := ⟨body[n + 1], List.getElem?_eq_getElem (by omega)⟩
  have hne : protoUdp ≠ protoTcp := by decide
  rw [hb] at hproto
  have hknown : o.ProtoKnown ↔ b = protoTcp ∨ b = protoUdp := by
    rw [ProtoKnown, hproto]
    simp
  have htrl : (body.drop n)[1]? = some b := by rw [getElem?_drop, hb]
  have hport : (body.drop n).drop 2 = body.drop (n + 2) := drop_drop
  rw [hknown, addressOption, htrl, hport]
  simp only [some.injEq]
  split_ifs with htcp hudp
  · refine iff_of_true ⟨rfl, ?_, fun _ _ => ⟨?_, hown.symm⟩⟩ (Or.inl htcp)
    · exact iff_of_false Bool.false_ne_true (not_not.mpr hwell)
    · rw [hproto, htcp, decide_eq_true rfl]
  · refine iff_of_true ⟨rfl, ?_, fun _ _ => ⟨?_, hown.symm⟩⟩ (Or.inr hudp)
    · exact iff_of_false Bool.false_ne_true (not_not.mpr hwell)
    · rw [hproto, hudp, decide_eq_false (fun h => hne (some.inj h))]
  · refine iff_of_false (fun h => ?_) (not_or.mpr ⟨htcp, hudp⟩)
    exact h.error_iff.mp rfl hwell

theorem readAs_of_protoByte_eq_none (data : SdData) (hwell : o.WellSized)
    (hproto : o.protoByte = none) (hown : o.ownData scopeId = some data) :
    o.ReadAs scopeId { o.marked flags with proto := some false, data := some data } ↔
      o.ProtoKnown := by
  refine iff_of_true ⟨rfl, ?_, fun _ _ => ⟨?_, hown.symm⟩⟩ ?_
  · exact iff_of_false Bool.false_ne_true (not_not.mpr hwell)
  · rw [hproto, decide_eq_false (some_ne_none _).symm]
  · intro b hb
    rw [hproto] at hb
    cases hb

section

variable {flags : uint8} (hdata : o.data = flags :: body) (scopeId : uint32)

include hdata

theorem exists_readBody_of_wellSized (h : o.WellSized) (pos : ℕ) (t : List uint8) :
    ∃ opt, readBody scopeId o.data.length (o.marked flags) ⟨pos, body ++ t⟩ =
        some (opt, ⟨pos + body.length, t⟩) ∧ (o.ReadAs scopeId opt ↔ o.ProtoKnown) := by
  have hlen : o.data.length = body.length + 1 := by rw [hdata, length_cons]
  have hlt := o.length_lt
  have hwell := h
  unfold WellSized at h
  cases hkind : optKind o.type with
  | none =>
    rw [hkind] at h
    exact absurd h id
  | some kind =>
    rw [hkind] at h
    have hkind' : optKind (o.marked flags).type = some kind := hkind
    cases kind with
    | load =>
      have hbody : body.length = 4 := by omega
      refine ⟨_, ?_, readAs_of_protoByte_eq_none flags (.load (beWord 32 body)) hwell ?_ ?_⟩
      · rw [readBody, hkind']
        simp [h, getU4Be_append hbody, hbody]
      · rw [protoByte, hkind]
      · rw [ownData, hkind, hdata]
        rfl
    | in4 =>
      have hbody : body.length = 4 + 4 := by omega
      refine ⟨_, ?_, readAs_addressOption_iff flags .in4 hwell hbody ?_ ?_⟩
      · rw [readBody, hkind']
        simp only [h]
        exact readAddress_eq hbody _ _ _
      · rw [protoByte, hkind, hdata]
        rfl
      · rw [ownData, hkind, hdata]
        rfl
    | in6 =>
      have hbody : body.length = 16 + 4 := by omega
      refine ⟨_, ?_, readAs_addressOption_iff flags
        (fun addr port => .in6 addr port scopeId) hwell hbody ?_ ?_⟩
      · rw [readBody, hkind']
        simp only [h]
        exact readAddress_eq hbody _ _ _
      · rw [protoByte, hkind, hdata]
        rfl
      · rw [ownData, hkind, hdata]
        rfl
    | raw =>
      have hsub : body.length = (ofNat 16 o.data.length - 1).toNat := by
        rw [toNat_sub, toNat_ofNat]
        have hone : (1 : BitVec 16).toNat = 1 := rfl
        omega
      refine ⟨_, ?_, readAs_of_protoByte_eq_none flags (.raw body) hwell ?_ ?_⟩
      · rw [readBody, hkind']
        simp only [← hsub, readLeast_append rfl, map_some]
      · rw [protoByte, hkind]
      · rw [ownData, hkind, hdata]
        rfl

/-- From any other one no more than the header is taken. -/
theorem readBody_of_not_wellSized (h : ¬ o.WellSized) (io : MessageIo) :
    readBody scopeId o.data.length (o.marked flags) io =
      some ({ o.marked flags with error := true }, io) := by
  have hpos : 1 ≤ o.data.length := by
    rw [hdata]
    exact succ_pos _
  rw [readBody, marked]
  unfold WellSized at h
  cases hkind : optKind o.type with
  | none => rfl
  | some kind =>
    rw [hkind] at h
    cases kind with
    | raw => exact absurd hpos h
    | _ => exact if_pos h

end

theorem wellSized_pos (h : o.WellSized) : 1 ≤ o.data.length := by
  unfold WellSized at h
  split at h
  case h_5 => exact absurd h id
  all_goals omega

/-- An option of length 0: a fourth byte is taken from what follows it. -/
theorem readOption_of_length_zero (h : o.data.length = 0) {opt : SdOption} {io : MessageIo}
    {pos r : ℕ} (hread : readOption scopeId ⟨pos, o.bytes ++ t⟩ = some (opt, io, r)) :
    opt.error = false ∨ io.pos = pos + 4 := by
  have hnil : o.data = [] := length_eq_zero_iff.mp h
  cases t with
  | nil =>
    have hshort : readOption scopeId ⟨pos, o.bytes ++ []⟩ = none := by
      rw [readOption, getU4Be, MessageIo.readLeast, if_neg]
      · rfl
      · rw [append_nil, length_bytes, size, h]
        decide
    rw [hshort] at hread
    cases hread
  | cons flags body =>
    rw [readOption_eq (by rw [hnil, nil_append]), readBody, h] at hread
    split at hread
    case h_4 =>
      left
      rw [Option.map_map] at hread
      obtain ⟨read, -, heq⟩ := map_eq_some_iff.mp hread
      rw [← (Prod.mk.inj heq).1]
      rfl
    all_goals
      right
      obtain ⟨-, rfl, -⟩ := by simpa using hread
      rfl

end WireOption

open WireOption (bytes readOption_eq)

/-! ### The options array -/

def optionsSize (options : List WireOption) : ℕ := (options.map WireOption.size).sum

theorem optionsSize_cons (o : WireOption) (options : List WireOption) :
    optionsSize (o :: options) = o.size + optionsSize options := rfl

/-- Each option is read where it begins, and as what it is. -/
def ReadInPlace (scopeId : uint32) (pos : ℕ) (options : List WireOption)
    (read : List (ℕ × SdOption)) : Prop :=
  ∀ k o, options[k]? = some o →
    ∃ opt, read[k]? = some (pos + optionsSize (options.take k), opt) ∧ o.ReadAs scopeId opt

/-- What the loop relies on, with space for `room` options. -/
structure Readable (room : ℕ) (options : List WireOption) : Prop where
  length_le : options.length ≤ room
  last : ∀ o ∈ options.getLast?, 2 ≤ o.data.length
  sized : ∀ o ∈ options.dropLast, o.WellSized ∨ o.data.length = 1
  proto : ∀ o ∈ options, o.WellSized → o.ProtoKnown

section

variable {scopeId : uint32} {pos : ℕ} {o : WireOption} {options : List WireOption} {optlen : ℤ}
  {io io' : MessageIo} {opt : SdOption}

theorem readInPlace_nil (read : List (ℕ × SdOption)) : ReadInPlace scopeId pos [] read := by
  intro k o h
  cases h

theorem readInPlace_cons {read : List (ℕ × SdOption)} :
    ReadInPlace scopeId pos (o :: options) read ↔
      ∃ opt later, read = (pos, opt) :: later ∧ o.ReadAs scopeId opt ∧
        ReadInPlace scopeId (pos + o.size) options later := by
  constructor
  · intro h
    obtain ⟨opt, hopt, hread⟩ := h 0 o rfl
    cases read with
    | nil => cases hopt
    | cons first later =>
      obtain rfl : first = (pos, opt) := some.inj hopt
      refine ⟨opt, later, rfl, hread, fun k o' ho' => ?_⟩
      obtain ⟨opt', hopt', hread'⟩ := h (k + 1) o' ho'
      refine ⟨opt', hopt'.trans ?_, hread'⟩
      rw [take_succ_cons, optionsSize_cons, Nat.add_assoc]
  · rintro ⟨opt, later, rfl, hread, hlater⟩ k o' ho'
    cases k with
    | zero =>
      cases ho'
      exact ⟨opt, rfl, hread⟩
    | succ k =>
      obtain ⟨opt', hopt', hread'⟩ := hlater k o' ho'
      refine ⟨opt', hopt'.trans ?_, hread'⟩
      rw [take_succ_cons, optionsSize_cons, Nat.add_assoc]

theorem readable_nil (room : ℕ) : Readable room [] := by
  refine ⟨Nat.zero_le room, ?_, forall_mem_nil _, forall_mem_nil _⟩
  intro o ho
  cases ho

theorem readable_singleton :
    Readable (room + 1) [o] ↔ 2 ≤ o.data.length ∧ (o.WellSized → o.ProtoKnown) := by
  constructor
  · intro h
    exact ⟨h.last o rfl, h.proto o mem_cons_self⟩
  · rintro ⟨hlast, hproto⟩
    refine ⟨succ_le_succ (Nat.zero_le room), ?_, ?_, ?_⟩
    · rintro o' ⟨⟩
      exact hlast
    · exact forall_mem_nil _
    · intro o' ho'
      obtain rfl := mem_singleton.mp ho'
      exact hproto

theorem readable_cons (hne : options ≠ []) :
    Readable (room + 1) (o :: options) ↔
      (o.WellSized ∨ o.data.length = 1) ∧ (o.WellSized → o.ProtoKnown) ∧ Readable room options := by
  have hlast : (o :: options).getLast? = options.getLast? := by
    cases options with
    | nil => exact absurd rfl hne
    | cons o' options => rfl
  have hdrop : (o :: options).dropLast = o :: options.dropLast := dropLast_cons_of_ne_nil hne
  constructor
  · rintro ⟨hlen, hend, hsized, hproto⟩
    rw [hdrop] at hsized
    rw [hlast] at hend
    obtain ⟨hfirst, hsized⟩ := forall_mem_cons.mp hsized
    obtain ⟨hknown, hproto⟩ := forall_mem_cons.mp hproto
    exact ⟨hfirst, hknown, le_of_succ_le_succ hlen, hend, hsized, hproto⟩
  · rintro ⟨hfirst, hknown, hlen, hend, hsized, hproto⟩
    refine ⟨succ_le_succ hlen, ?_, ?_, forall_mem_cons.mpr ⟨hknown, hproto⟩⟩
    · rwa [hlast]
    · rw [hdrop]
      exact forall_mem_cons.mpr ⟨hfirst, hsized⟩

theorem readable_cons_of_wellSized (hwell : o.WellSized)
    (hlast : options = [] → 2 ≤ o.data.length) :
    Readable (room + 1) (o :: options) ↔ o.ProtoKnown ∧ Readable room options := by
  by_cases hne : options = []
  · subst hne
    rw [readable_singleton, and_iff_right (hlast rfl), and_iff_left (readable_nil room),
      forall_prop_of_true hwell]
  · rw [readable_cons hne, and_iff_right (Or.inl hwell), forall_prop_of_true hwell]

theorem readOptions_of_le (h : optlen ≤ 4) (io : MessageIo) :
    readOptions scopeId room optlen io = [] := by
  cases room with
  | zero => rfl
  | succ room => rw [readOptions, if_neg (not_lt.mpr h)]

theorem readOptions_of_read {r : ℕ} (hlen : 4 < optlen)
    (h : readOption scopeId io = some (opt, io', r)) :
    readOptions scopeId (room + 1) optlen io =
      (io.pos, opt) :: readOptions scopeId room (optlen - r) io' := by
  rw [readOptions, if_pos hlen, h]

theorem pos_of_readOptions_eq_cons {first : ℕ × SdOption} {later : List (ℕ × SdOption)}
    (h : readOptions scopeId room optlen io = first :: later) : first.1 = io.pos := by
  cases room with
  | zero => cases h
  | succ room =>
    rw [readOptions] at h
    split_ifs at h
    split at h
    · cases h
    · rw [← (List.cons.inj h).1]

theorem not_readInPlace_of_pos_ne (hne : options ≠ []) (hpos : io.pos ≠ pos) :
    ¬ ReadInPlace scopeId pos options (readOptions scopeId room optlen io) := by
  intro h
  obtain ⟨o, options', rfl⟩ := exists_cons_of_ne_nil hne
  obtain ⟨opt, later, hread, -⟩ := readInPlace_cons.mp h
  exact hpos (pos_of_readOptions_eq_cons hread).symm

/-- The first option is read in place exactly if the reader gets to the next one. -/
theorem readInPlace_of_read {left : List uint8} (hlen : 4 < optlen)
    (h : readOption scopeId ⟨pos, left⟩ = some (opt, io', o.size)) :
    ReadInPlace scopeId pos (o :: options) (readOptions scopeId (room + 1) optlen ⟨pos, left⟩) ↔
      o.ReadAs scopeId opt ∧ ReadInPlace scopeId (pos + o.size) options
        (readOptions scopeId room (optlen - o.size) io') := by
  rw [readOptions_of_read hlen h, readInPlace_cons]
  constructor
  · rintro ⟨opt', later, heq, hread, hlater⟩
    obtain ⟨hfirst, rfl⟩ := List.cons.inj heq
    obtain rfl := (Prod.mk.inj hfirst).2
    exact ⟨hread, hlater⟩
  · rintro ⟨hread, hlater⟩
    exact ⟨opt, _, rfl, hread, hlater⟩

section

variable {flags : uint8}

/-- An option of length 0 spoils what follows it. -/
theorem not_readInPlace_of_length_zero (h : o.data.length = 0) (hne : options ≠ [])
    (hlen : 4 < optlen) :
    ¬ ReadInPlace scopeId pos (o :: options)
      (readOptions scopeId (room + 1) optlen ⟨pos, o.bytes ++ t⟩) := by
  have hwell : ¬ o.WellSized := fun hwell => by
    have := o.wellSized_pos hwell
    omega
  intro hplace
  cases hread : readOption scopeId ⟨pos, o.bytes ++ t⟩ with
  | none =>
    rw [readOptions, if_pos hlen, hread] at hplace
    obtain ⟨opt, later, hnil, -⟩ := readInPlace_cons.mp hplace
    cases hnil
  | some read =>
    rw [readOptions_of_read hlen hread] at hplace
    obtain ⟨opt', later, heq, hreadAs, hlater⟩ := readInPlace_cons.mp hplace
    obtain ⟨hfirst, rfl⟩ := List.cons.inj heq
    obtain rfl := (Prod.mk.inj hfirst).2
    rcases o.readOption_of_length_zero h hread with herror | hpos
    · rw [hreadAs.error_iff.mpr hwell] at herror
      cases herror
    · refine not_readInPlace_of_pos_ne hne ?_ hlater
      rw [hpos, WireOption.size, h]
      omega

theorem exists_readOption_of_wellSized (hdata : o.data = flags :: body) (h : o.WellSized) :
    ∃ opt, readOption scopeId ⟨pos, o.bytes ++ t⟩ = some (opt, ⟨pos + o.size, t⟩, o.size) ∧
      (o.ReadAs scopeId opt ↔ o.ProtoKnown) := by
  obtain ⟨opt, hbody, hread⟩ := o.exists_readBody_of_wellSized hdata scopeId h (pos + 4) t
  refine ⟨opt, ?_, hread⟩
  have hsize : pos + 4 + body.length = pos + o.size := by
    rw [WireOption.size, hdata, length_cons]
    omega
  rw [readOption_eq (by rw [hdata, List.cons_append]), hbody, hsize]
  rfl

theorem exists_readOption_of_not_wellSized (hdata : o.data = flags :: body) (h : ¬ o.WellSized) :
    ∃ opt, readOption scopeId ⟨pos, o.bytes ++ t⟩ = some (opt, ⟨pos + 4, body ++ t⟩, o.size) ∧
      o.ReadAs scopeId opt := by
  refine ⟨{ o.marked flags with error := true }, ?_, rfl, iff_of_true rfl h, fun hwell => ?_⟩
  · rw [readOption_eq (by rw [hdata, List.cons_append]),
      o.readBody_of_not_wellSized hdata scopeId h]
    rfl
  · exact absurd hwell h

theorem lt_optionsSize_of_readable (h : Readable room (o :: options)) :
    4 < optionsSize (o :: options) := by
  rw [optionsSize_cons, WireOption.size]
  cases options with
  | nil =>
    have hlast : 2 ≤ o.data.length := h.last o rfl
    omega
  | cons o' options =>
    rw [optionsSize_cons, WireOption.size]
    omega

theorem not_readable_of_length_zero (h : o.data.length = 0) :
    ¬ Readable (room + 1) (o :: options) := by
  intro hreadable
  by_cases hne : options = []
  · subst hne
    have hlast := (readable_singleton.mp hreadable).1
    omega
  · rcases ((readable_cons hne).mp hreadable).1 with hwell | hone
    · have hpos := o.wellSized_pos hwell
      omega
    · omega

/-- Behind an option that is not understood, the others are read in place only if the header is
all of it. -/
theorem readInPlace_of_not_wellSized_iff (hdata : o.data = flags :: body) (hwell : ¬ o.WellSized)
    (hlen : 4 < optlen) (hlast : options = [] → 2 ≤ o.data.length)
    (ih : ReadInPlace scopeId (pos + o.size) options
      (readOptions scopeId room (optlen - o.size) ⟨pos + o.size, t⟩) ↔ Readable room options) :
    ReadInPlace scopeId pos (o :: options)
        (readOptions scopeId (room + 1) optlen ⟨pos, o.bytes ++ t⟩) ↔
      Readable (room + 1) (o :: options) := by
  obtain ⟨opt, hread, hreadAs⟩ := exists_readOption_of_not_wellSized hdata hwell
  rw [readInPlace_of_read hlen hread, and_iff_right hreadAs]
  by_cases hne : options = []
  · subst hne
    refine iff_of_true (readInPlace_nil _) (readable_singleton.mpr ⟨hlast rfl, ?_⟩)
    exact fun h => absurd h hwell
  · rw [readable_cons hne, or_iff_right hwell]
    by_cases hone : o.data.length = 1
    · obtain rfl : body = [] := by
        rw [hdata] at hone
        exact length_eq_zero_iff.mp (succ.inj hone)
      have hpos : pos + 4 = pos + o.size := by rw [WireOption.size, hone]
      rw [nil_append, hpos, ih, and_iff_right hone, and_iff_right fun h => absurd h hwell]
    · refine iff_of_false (not_readInPlace_of_pos_ne hne ?_) fun h => hone h.1
      change pos + 4 ≠ pos + o.size
      rw [WireOption.size]
      omega

theorem readInPlace_step_iff
    (ih : ReadInPlace scopeId (pos + o.size) options
      (readOptions scopeId room (optionsSize options) ⟨pos + o.size, t⟩) ↔ Readable room options) :
    ReadInPlace scopeId pos (o :: options)
        (readOptions scopeId (room + 1) (optionsSize (o :: options)) ⟨pos, o.bytes ++ t⟩) ↔
      Readable (room + 1) (o :: options) := by
  have hsub : (optionsSize (o :: options) : ℤ) - o.size = optionsSize options := by
    rw [optionsSize_cons]
    omega
  rw [← hsub] at ih
  by_cases hlen : (4 : ℤ) < optionsSize (o :: options)
  · have hlast : options = [] → 2 ≤ o.data.length := by
      rintro rfl
      have hsize : optionsSize [o] = o.data.length + 3 := rfl
      omega
    cases hdata : o.data with
    | nil =>
      have hzero : o.data.length = 0 := by rw [hdata]; rfl
      have hne : options ≠ [] := by
        intro hnil
        have := hlast hnil
        omega
      exact iff_of_false (not_readInPlace_of_length_zero hzero hne hlen)
        (not_readable_of_length_zero hzero)
    | cons flags body =>
      by_cases hwell : o.WellSized
      · obtain ⟨opt, hread, hreadAs⟩ := exists_readOption_of_wellSized hdata hwell
        rw [readInPlace_of_read hlen hread, hreadAs, ih, readable_cons_of_wellSized hwell hlast]
      · exact readInPlace_of_not_wellSized_iff hdata hwell hlen hlast ih
  · -- at most four bytes are left
    rw [readOptions_of_le (not_lt.mp hlen)]
    refine iff_of_false (fun h => ?_) fun h => ?_
    · obtain ⟨opt, later, hread, -⟩ := readInPlace_cons.mp h
      cases hread
    · have hlt := lt_optionsSize_of_readable h
      omega

end

theorem readInPlace_readOptions_iff (scopeId : uint32) (options : List WireOption)
    (room pos : ℕ) (t : List uint8) :
    ReadInPlace scopeId pos options (readOptions scopeId room (optionsSize options)
      ⟨pos, options.flatMap bytes ++ t⟩) ↔ Readable room options := by
  induction options generalizing room pos with
  | nil => exact iff_of_true (readInPlace_nil _) (readable_nil room)
  | cons o options ih =>
    cases room with
    | zero =>
      refine iff_of_false (fun h => ?_) fun h => ?_
      · obtain ⟨opt, later, hread, -⟩ := readInPlace_cons.mp h
        cases hread
      · exact absurd h.length_le (not_succ_le_zero _)
    | succ room =>
      rw [flatMap_cons, List.append_assoc]
      exact readInPlace_step_iff (ih room (pos + o.size))

end

/-! ### Messages -/

/-- A service discovery message. Its length fields are those of its arrays; something may follow
the options. -/
structure SdMessage where
  hdr : uint32
  entries : List uint8
  options : List WireOption
  rest : List uint8
  entries_dvd : 16 ∣ entries.length
  entries_lt : entries.length < 2 ^ 32
  options_lt : optionsSize options < 2 ^ 32

namespace SdMessage

variable (m : SdMessage)

def payload : List uint8 :=
  beBytes 4 m.hdr ++ (beBytes 4 (ofNat 32 m.entries.length) ++ (m.entries ++
    (beBytes 4 (ofNat 32 (optionsSize m.options)) ++ (m.options.flatMap bytes ++ m.rest))))

def optionsPos : ℕ := 12 + m.entries.length

/-- Each option of the message is read where it begins, and as what it is. -/
def OptionsInPlace (scopeId : uint32) : Prop :=
  ReadInPlace scopeId m.optionsPos m.options ((sdOptions scopeId m.payload).getD [])

theorem length_flatMap_bytes (options : List WireOption) :
    (options.flatMap bytes).length = optionsSize options := by
  induction options with
  | nil => rfl
  | cons o options ih => rw [flatMap_cons, length_append, ih, o.length_bytes, optionsSize_cons]

theorem length_payload :
    m.payload.length = 12 + m.entries.length + optionsSize m.options + m.rest.length := by
  rw [payload]
  simp only [length_append, length_beBytes, length_flatMap_bytes]
  omega

theorem toInt_ofNat_neg_iff {n : ℕ} (h : n < 2 ^ 32) : (ofNat 32 n).toInt < 0 ↔ 2 ^ 31 ≤ n := by
  rw [toInt_eq_toNat_cond, toNat_ofNat, mod_eq_of_lt h]
  split_ifs <;> omega

theorem readStart_optlen :
    readStart m.payload (8 + m.entries.length) =
      some ⟨8 + m.entries.length, beBytes 4 (ofNat 32 (optionsSize m.options)) ++
        (m.options.flatMap bytes ++ m.rest)⟩ := by
  have hpayload : m.payload =
      (beBytes 4 m.hdr ++ (beBytes 4 (ofNat 32 m.entries.length) ++ m.entries)) ++
        (beBytes 4 (ofNat 32 (optionsSize m.options)) ++ (m.options.flatMap bytes ++ m.rest)) := by
    simp [payload]
  rw [hpayload]
  apply readStart_append
  simp only [length_append, length_beBytes]
  omega

theorem sdOptions_payload (scopeId : uint32) :
    sdOptions scopeId m.payload =
      if 2 ^ 31 ≤ m.entries.length ∨ 2 ^ 31 ≤ optionsSize m.options then none
      else some (readOptions scopeId (optionsSize m.options / 8) (optionsSize m.options)
        ⟨m.optionsPos, m.options.flatMap bytes ++ m.rest⟩) := by
  have hlen := m.length_payload
  have hstart : readStart ([] ++ m.payload) 0 = some ⟨0, m.payload⟩ := readStart_append rfl
  have hhdr : getU4Be ⟨0, m.payload⟩ = some (m.hdr, ⟨4, _⟩) := getU4Be_beBytes m.hdr 0 _
  have hentlen : (ofNat 32 m.entries.length).toNat = m.entries.length := by
    rw [toNat_ofNat, mod_eq_of_lt m.entries_lt]
  have hoptlen : (ofNat 32 (optionsSize m.options)).toNat = optionsSize m.options := by
    rw [toNat_ofNat, mod_eq_of_lt m.options_lt]
  have hentries : m.entries.length / 16 * 16 = m.entries.length := Nat.div_mul_cancel m.entries_dvd
  have hmin : min (optionsSize m.options) (m.payload.length - (8 + m.entries.length) - 4) =
      optionsSize m.options := by omega
  have hpos : 8 + m.entries.length + 4 = m.optionsPos := by
    rw [optionsPos]
    omega
  rw [sdOptions, if_neg (by omega), ← nil_append m.payload, hstart, nil_append,
    bind_some, hhdr, bind_some]
  simp only [getU4Be_beBytes, bind_some, toInt_ofNat_neg_iff m.entries_lt, hentlen,
    readStart_optlen, toInt_ofNat_neg_iff m.options_lt, hoptlen, hentries, hmin, hpos]
  by_cases hneg : 2 ^ 31 ≤ m.entries.length
  · rw [if_pos hneg, if_pos (Or.inl hneg)]
  · have hvalid : ¬ (m.payload.length < m.optionsPos ∨ m.entries.length ≠ m.entries.length) := by
      omega
    rw [if_neg hneg, if_neg hvalid]
    simp only [hneg, false_or]

/-- The options of a message are read in place exactly if there are none, or the arrays are shorter
than `2 ^ 31` bytes, the options have 8 bytes on average, the last one has more than 4 bytes, each
other one that is not understood has 4 bytes, and the protocols of all addresses are known. -/
theorem optionsInPlace_iff (scopeId : uint32) :
    m.OptionsInPlace scopeId ↔
      m.options = [] ∨ (m.entries.length < 2 ^ 31 ∧ optionsSize m.options < 2 ^ 31 ∧
        Readable (optionsSize m.options / 8) m.options) := by
  by_cases hnil : m.options = []
  · refine iff_of_true ?_ (Or.inl hnil)
    rw [OptionsInPlace, hnil]
    exact readInPlace_nil _
  · rw [OptionsInPlace, sdOptions_payload, or_iff_right hnil]
    by_cases hneg : 2 ^ 31 ≤ m.entries.length ∨ 2 ^ 31 ≤ optionsSize m.options
    · rw [if_pos hneg]
      refine iff_of_false (fun h => ?_) fun h => ?_
      · obtain ⟨o, options, hcons⟩ := exists_cons_of_ne_nil hnil
        rw [hcons] at h
        obtain ⟨opt, later, hread, -⟩ := readInPlace_cons.mp h
        cases hread
      · omega
    · obtain ⟨hentries, hoptions⟩ := not_or.mp hneg
      rw [if_neg hneg, getD_some, readInPlace_readOptions_iff,
        and_iff_right (Nat.lt_of_not_le hentries), and_iff_right (Nat.lt_of_not_le hoptions)]

/-- An option of unknown type, and a TCP endpoint. -/
def unknownBeforeEndpoint : SdMessage where
  hdr := 0xc0000000
  entries := []
  options := [⟨0x99, [0, 1, 2, 3, 4], by decide⟩,
    ⟨optIn4u, [0, 192, 168, 0, 1, 0, 6, 0x75, 0x30], by decide⟩]
  rest := []
  entries_dvd := by decide
  entries_lt := by decide
  options_lt := by decide

/-- The endpoint is read from the last four bytes of the option before it. -/
theorem not_optionsInPlace : ¬ unknownBeforeEndpoint.OptionsInPlace 0 := by
  intro h
  obtain ⟨opt, hopt, -⟩ := h 1 _ rfl
  have hread : (((sdOptions 0 unknownBeforeEndpoint.payload).getD [])[1]?).map Prod.fst =
      some 16 := by decide
  have hpos : unknownBeforeEndpoint.optionsPos +
      optionsSize (unknownBeforeEndpoint.options.take 1) ≠ 16 := by decide
  rw [hopt] at hread
  exact hpos (some.inj hread)

end SdMessage

end AdaptivePlatform.Nsomeip
