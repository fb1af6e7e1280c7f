import AdaptivePlatform.Diag.BlockSequence

/-!
# Repeated blocks of a transfer to the tester

A block that is requested again is answered from the record that the manager
keeps. An upload keeps its last block there, a file transfer adds each block to
what was read before, and no request empties the record.
-/
namespace AdaptivePlatform.Diag.TransferManager

open Runs Option

/-- A TransferData request, with what the interface would provide. -/
structure DataRequest where
  body : List uint8
  answer : Except NrcErrc (List uint8)
  t : Transmission := {}

/-- What is observed of a transfer to the tester: what the record holds in front of the last
block, the blocks that were answered (the last first) and the data that the interface provided. -/
structure Reading where
  before : List uint8
  answered : List Block := []
  provided : List uint8 := []

namespace Reading

variable (reading : Reading)

def last : List uint8 := (reading.answered.head?.map (·.payload)).getD []

def observe (m : TransferManager) (r : DataRequest) : Reading :=
  match (m.transfer r.body r.answer r.t).response with
  | some (.positive bytes) =>
    let counter := (r.body[1]?).getD 0
    let answered := ⟨counter, bytes.drop 2⟩ :: reading.answered
    if m.isRepeated counter then { reading with answered := answered }
    else
      { before := match m.direction with
          | some (.toTester true) => reading.before ++ reading.last
          | _ => []
        answered := answered
        provided := reading.provided ++ r.answer.toOption.getD [] }
  | _ => reading

variable (state : TransferManager × Reading) (r : DataRequest)

def step : Option (TransferManager × Reading) :=
  some ((state.1.transfer r.body r.answer r.t).manager, state.2.observe state.1 r)

/-- The answers to different counters that follow each other hold the data provided. -/
def Delivered : Prop :=
  (withoutRepetitions reading.answered).reverse.flatMap (·.payload) = reading.provided

/-- A block requested again is answered as before, whatever the interface would provide, and the
data answered are those provided. -/
def Faithful : Prop :=
  (∀ block ∈ state.2.answered.head?, state.1.isRunning = true →
    ∀ sid rest, r.body = sid :: block.counter :: rest → ∃ m, ∀ answer,
      state.1.transfer r.body answer r.t =
        ⟨m, some (acknowledge block.counter block.payload), none⟩) ∧
    (state.2.observe state.1 r).Delivered

/-- Nothing stands in front of the last block when it is requested again. -/
def KeptAlone : Prop :=
  state.1.isRunning = true → ∀ sid counter rest, r.body = sid :: counter :: rest →
    state.1.isRepeated counter = true → state.2.before = []

/-- The manager agrees with what is observed of a transfer that runs. -/
structure Agrees (appends : Bool) (m : TransferManager) (reading : Reading) : Prop where
  direction : m.direction = some (.toTester appends)
  record : m.transferRequestParameterRecord = reading.before ++ reading.last
  previous : ∀ block ∈ reading.answered.head?,
    m.previousblockSequenceCounter = block.counter.setWidth 16

structure Follows (appends : Bool) (m : TransferManager) (reading : Reading) : Prop where
  delivered : reading.Delivered
  agrees : m.isRunning = true → Agrees appends m reading

variable {appends : Bool} {m : TransferManager} {reading : Reading} {r : DataRequest}

theorem last_of_head {block : Block} (h : block ∈ reading.answered.head?) :
    reading.last = block.payload := by
  simp [last, mem_def.mp h]

theorem Follows.respond (h : Follows appends m reading) (service : TransferService)
    (body : List uint8) (t : Transmission) (response : Response) :
    Follows appends (m.respond service body t response) reading := by
  rcases respond_cases m service body t response with hsame | hclear
  · rwa [hsame]
  · rw [hclear]
    exact ⟨h.delivered, fun hrunning => nomatch hrunning⟩

theorem Follows.transfer (h : Follows appends m reading) (hkept : KeptAlone (m, reading) r) :
    Follows appends (m.transfer r.body r.answer r.t).manager (reading.observe m r) := by
  have hdelivered := h.delivered
  have houtcome := transfer_outcome (fun hrunning => (h.agrees hrunning).direction) r.body
    r.answer r.t
  unfold observe
  generalize m.transfer r.body r.answer r.t = result at houtcome ⊢
  cases houtcome with
  | refused => exact h.respond ..
  | @repeated sid counter rest hbody hrunning hrepeated =>
    have hagrees := h.agrees hrunning
    have hbefore := hkept hrunning sid counter rest hbody hrepeated
    have hrecord : m.transferRequestParameterRecord = reading.last := by
      rw [hagrees.record, hbefore, List.nil_append]
    simp only [hbody, acknowledge, kept, hrecord, List.getElem?_cons_succ, List.getElem?_cons_zero,
      getD_some, hrepeated, if_true]
    apply Follows.respond
    refine ⟨?_, fun _ => ⟨hagrees.direction, hagrees.record, ?_⟩⟩
    · unfold Delivered at hdelivered ⊢
      rw [← hdelivered]
      cases hanswered : reading.answered with
      | nil => simp [withoutRepetitions, last, hanswered]
      | cons block blocks =>
        have hprevious := hagrees.previous block (by simp [hanswered])
        rw [withoutRepetitions_repeat ((isRepeated_of_previous hprevious counter).mp hrepeated)]
    · rintro block ⟨⟩
      exact of_decide_eq_true hrepeated
  | @moved sid counter rest data hbody hrunning hnew hcounter hanswer =>
    have hagrees := h.agrees hrunning
    have hfirst : withoutRepetitions (⟨counter, data⟩ :: reading.answered) =
        ⟨counter, data⟩ :: withoutRepetitions reading.answered := by
      refine withoutRepetitions_cons fun block hblock heq => ?_
      rw [(isRepeated_of_previous (hagrees.previous block hblock) counter).mpr heq] at hnew
      cases hnew.symm
    unfold Delivered at hdelivered
    simp only [hbody, hanswer, hagrees.direction, moveBlock, acknowledge, List.getElem?_cons_succ,
      List.getElem?_cons_zero, getD_some, hnew]
    apply Follows.respond
    have hdirection := hagrees.direction
    cases appends <;> refine ⟨?_, fun _ => ⟨hdirection, ?_, ?_⟩⟩ <;>
      simp [Delivered, hfirst, hdelivered, last, advance, hcounter, Except.toOption, hagrees.record]

/-- A repeated block is answered with all that was kept. -/
theorem faithful_iff (h : Follows appends m reading) :
    Faithful (m, reading) r ↔ KeptAlone (m, reading) r := by
  obtain ⟨body, answer, t⟩ := r
  constructor
  · rintro ⟨halike, hdelivered⟩ hrunning sid counter rest rfl hrepeated
    have hagrees := h.agrees hrunning
    cases hanswered : reading.answered with
    | nil =>
      have hprovided := h.delivered
      simp only [Delivered, hanswered] at hdelivered hprovided
      have hempty : reading.before ++ reading.last = [] := by
        simpa [observe, transfer_repeated hrunning hagrees.direction hrepeated, acknowledge, kept,
          hrepeated, hagrees.record, hanswered, ← hprovided, withoutRepetitions] using hdelivered
      exact (List.append_eq_nil_iff.mp hempty).1
    | cons block blocks =>
      have hblock : block ∈ reading.answered.head? := by simp [hanswered]
      obtain rfl := (isRepeated_of_previous (hagrees.previous block hblock) counter).mp hrepeated
      obtain ⟨m', hsame⟩ := halike block hblock hrunning sid rest rfl
      have hrecord :=
        (transfer_repeated hrunning hagrees.direction hrepeated).symm.trans (hsame answer)
      simpa [acknowledge, kept, hagrees.record, last_of_head hblock] using
        congrArg TransferResult.response hrecord
  · intro hkept
    refine ⟨?_, (h.transfer hkept).delivered⟩
    rintro block hblock hrunning sid rest rfl
    have hagrees := h.agrees hrunning
    have hrepeated := (isRepeated_of_previous (hagrees.previous block hblock) _).mpr rfl
    have hbefore := hkept hrunning _ _ _ rfl hrepeated
    refine ⟨m.respond .transfer (sid :: block.counter :: rest) t
      (acknowledge block.counter block.payload), fun answer => ?_⟩
    rw [transfer_repeated hrunning hagrees.direction hrepeated, kept, hagrees.record, hbefore,
      List.nil_append, last_of_head hblock]

end Reading

open Reading

/-- The answers to repeated blocks are those of the first time, and the data answered are those
provided, precisely if the record holds nothing but the last block at each repetition. -/
theorem repeats_faithful_iff (m : TransferManager) (requests : List DataRequest)
    {appends : Bool} (h : m.direction = some (.toTester appends)) :
    Along Reading.step Faithful (m, ⟨m.transferRequestParameterRecord, [], []⟩) requests ↔
      Along Reading.step KeptAlone (m, ⟨m.transferRequestParameterRecord, [], []⟩) requests := by
  refine along_iff_along (J := fun state => Follows appends state.1 state.2) ?_ ?_
    ⟨rfl, fun _ => ⟨h, (List.append_nil _).symm, fun block hblock => nomatch hblock⟩⟩
  · rintro state r _ h hkept ⟨⟩
    exact h.transfer hkept
  · exact fun state r h => faithful_iff h

def readingFile : TransferManager where
  state := .request
  modeOfOperation := .readFile
  requestServerType := .fileTransfer

def readBlock (counter data : uint8) : DataRequest := ⟨[0x36, counter], .ok [data], {}⟩

theorem repeats_faithful_firstBlock :
    Along Reading.step Faithful (readingFile, ⟨[], [], []⟩) [readBlock 1 7, readBlock 1 7] := by
  apply (repeats_faithful_iff readingFile _ rfl).mpr
  refine ⟨fun _ _ _ _ _ _ => rfl, ?_⟩
  rintro _ ⟨⟩
  exact ⟨fun _ _ _ _ _ _ => rfl, fun _ _ => trivial⟩

/-- The second block of a file, requested again, is answered with the first block in front. -/
theorem repeated_unlike : ∃ m,
    exec Reading.step (readingFile, ⟨[], [], []⟩) [readBlock 1 7, readBlock 2 8, readBlock 2 8] =
      some (m, ⟨[7], [⟨2, [7, 8]⟩, ⟨2, [8]⟩, ⟨1, [7]⟩], [7, 8]⟩) :=
  ⟨_, rfl⟩

end AdaptivePlatform.Diag.TransferManager
