import AdaptivePlatform.Foundations.Runs
import AdaptivePlatform.Diag.TransferManager

/-!
# The blocks of a download

Between the acceptance of a download and the next request or exit, the blocks
that are acknowledged are numbered from 1 on, modulo 256, a block may be
repeated at once, and the download interface takes each of them once, in order.
The module compares what the tester sees acknowledged with what the interface
took.
-/
namespace AdaptivePlatform.Diag.TransferManager

open Runs Option

inductive Input
  | requestDownload (body maxNumberOfBlockLength : List uint8) (answer : Except NrcErrc Unit)
      (t : Transmission)
  | requestUpload (body maxNumberOfBlockLength : List uint8) (answer : Except NrcErrc Unit)
      (t : Transmission)
  | requestFileTransfer (body : List uint8) (mode : ModeOfOperation)
      (answer : Except NrcErrc (List uint8)) (t : Transmission)
  | transferData (body : List uint8) (answer : Except NrcErrc (List uint8)) (t : Transmission)
  | requestTransferExit (body : List uint8) (answer : Except NrcErrc (List uint8))
      (t : Transmission)
  | sessionChange (oldSession newSession : uint8)
  | securityLevelChange

def next (m : TransferManager) : Input → TransferManager
  | .requestDownload body maxLength answer t => (m.requestDownload body maxLength answer t).1
  | .requestUpload body maxLength answer t => (m.requestUpload body maxLength answer t).1
  | .requestFileTransfer body mode answer t => (m.requestFileTransfer body mode answer t).1
  | .transferData body answer t => (m.transfer body answer t).manager
  | .requestTransferExit body answer t => (m.transferExit body answer t).1
  | .sessionChange oldSession newSession => m.sessionChange oldSession newSession
  | .securityLevelChange => m.clearTransferInfo

structure Block where
  counter : uint8
  payload : List uint8

/-- What is observed since a download was accepted, the last first: the blocks that were answered
positively, and the payloads that the download interface took. -/
structure Segment where
  acknowledged : List Block := []
  written : List (List uint8) := []

def isPositive : Response → Bool
  | .positive _ => true
  | .negative _ => false

def Segment.observe (segment : Segment) (m : TransferManager) (body : List uint8)
    (answer : Except NrcErrc (List uint8)) (t : Transmission) : Segment where
  acknowledged :=
    if (m.transfer body answer t).response.any isPositive then
      ⟨(body[1]?).getD 0, body.drop 2⟩ :: segment.acknowledged
    else segment.acknowledged
  written :=
    (if answer.isOk then (m.transfer body answer t).handed else none).toList ++ segment.written

/-- A download that is answered positively begins a segment, every other request and the exit end
it. -/
def observe (m : TransferManager) (segment : Option Segment) : Input → Option Segment
  | .requestDownload body maxLength answer t =>
    if isPositive (m.requestDownload body maxLength answer t).2 then some {} else none
  | .requestUpload .. => none
  | .requestFileTransfer .. => none
  | .transferData body answer t => segment.map (·.observe m body answer t)
  | .requestTransferExit .. => none
  | .sessionChange .. => segment
  | .securityLevelChange => segment

section

variable (state : TransferManager × Option Segment) (input : Input)

def step : Option (TransferManager × Option Segment) :=
  some (state.1.next input, observe state.1 state.2 input)

/-- The blocks without those that repeat the counter of the block before, the last first. -/
def withoutRepetitions : List Block → List Block
  | [] => []
  | [block] => [block]
  | block :: before :: blocks =>
    if block.counter = before.counter then withoutRepetitions (before :: blocks)
    else block :: withoutRepetitions (before :: blocks)

/-- The counters are 1, 2, and so on, modulo 256. -/
def Numbered : List Block → Prop
  | [] => True
  | block :: blocks => block.counter = BitVec.ofNat 8 (blocks.length + 1) ∧ Numbered blocks

/-- What the interface took are the acknowledged blocks, each once and in order, and these are
numbered. -/
structure Segment.InOrder (segment : Segment) : Prop where
  written_eq : segment.written = (withoutRepetitions segment.acknowledged).map (·.payload)
  numbered : Numbered (withoutRepetitions segment.acknowledged)

def BlocksInOrder : Prop := ∀ segment ∈ state.2, segment.InOrder

/-- The first block of a download does not have the counter that an earlier transfer, or its
end, has left as that of the block before. -/
def FreshStart : Input → Prop
  | .transferData body _ _ =>
    ∀ segment ∈ state.2, segment.acknowledged = [] → state.1.isRunning = true →
      ∀ sid counter rest, body = sid :: counter :: rest → state.1.isRepeated counter = false
  | _ => True

end

/-! ### The manager -/

theorem respond_cases (m : TransferManager) (service : TransferService) (body : List uint8)
    (t : Transmission) (response : Response) :
    m.respond service body t response = m ∨
      m.respond service body t response = m.clearTransferInfo := by
  unfold respond confirm
  cases t.respond service.sid ((body[1]?).getD 0) response with
  | resPosOk | resPosSuppressed | resNegSuppressed => exact .inl rfl
  | canceled | resNegOk | resNegNotOk | resPosNotOk => exact .inr rfl

/-- The manager agrees with what is observed of a download: if it still runs, the counter is the
next one, and the block before is the last one acknowledged. -/
structure Agrees (m : TransferManager) (segment : Segment) : Prop where
  download : m.requestServerType = .download
  counter : m.blockSequenceCounter =
    BitVec.ofNat 8 ((withoutRepetitions segment.acknowledged).length + 1)
  previous : ∀ block ∈ segment.acknowledged.head?,
    m.previousblockSequenceCounter = block.counter.setWidth 16

variable {m : TransferManager}

theorem isRepeated_of_previous {last : uint8}
    (hprevious : m.previousblockSequenceCounter = last.setWidth 16) (counter : uint8) :
    m.isRepeated counter = true ↔ counter = last := by
  unfold isRepeated
  rw [decide_eq_true_iff, hprevious]
  constructor
  · intro heq
    exact BitVec.eq_of_toNat_eq (congrArg BitVec.toNat heq).symm
  · rintro rfl
    rfl

theorem isRepeated_iff {segment : Segment} (h : Agrees m segment) {block : Block}
    {blocks : List Block} (hblocks : segment.acknowledged = block :: blocks) (counter : uint8) :
    m.isRepeated counter = true ↔ counter = block.counter :=
  isRepeated_of_previous (h.previous block (by simp [hblocks])) counter

/-- The data that answer a repeated block. -/
def kept (m : TransferManager) : TransferDirection → List uint8
  | .toServer => []
  | .toTester _ => m.transferRequestParameterRecord

theorem transfer_repeated {direction : TransferDirection} {sid counter : uint8}
    {payload : List uint8} {answer : Except NrcErrc (List uint8)} {t : Transmission}
    (hrunning : m.isRunning = true) (hdirection : m.direction = some direction)
    (hrepeated : m.isRepeated counter = true) :
    m.transfer (sid :: counter :: payload) answer t =
      ⟨m.respond .transfer (sid :: counter :: payload) t (acknowledge counter (m.kept direction)),
        some (acknowledge counter (m.kept direction)), none⟩ := by
  cases direction <;> simp [transfer, hrunning, hrepeated, hdirection, kept]

inductive TransferOutcome (m : TransferManager) (direction : TransferDirection) (body : List uint8)
    (answer : Except NrcErrc (List uint8)) (t : Transmission) : TransferResult → Prop
  | refused {nrc handed} (hlost : handed = none ∨ ∃ e, answer = .error e)
      (hnew : m.isRunning = true → ∀ sid counter payload, body = sid :: counter :: payload →
        m.isRepeated counter = false) :
    TransferOutcome m direction body answer t
      ⟨m.respond .transfer body t (.negative nrc), some (.negative nrc), handed⟩
  | repeated {sid counter payload} (hbody : body = sid :: counter :: payload)
      (hrunning : m.isRunning = true) (hrepeated : m.isRepeated counter = true) :
    TransferOutcome m direction body answer t
      ⟨m.respond .transfer body t (acknowledge counter (m.kept direction)),
        some (acknowledge counter (m.kept direction)), none⟩
  | moved {sid counter payload data} (hbody : body = sid :: counter :: payload)
      (hrunning : m.isRunning = true) (hnew : m.isRepeated counter = false)
      (hcounter : m.blockSequenceCounter = counter)
      (hanswer : answer = .ok data) :
    TransferOutcome m direction body answer t (m.moveBlock direction body counter answer t)

theorem transfer_outcome {direction : TransferDirection}
    (hdirection : m.isRunning = true → m.direction = some direction)
    (body : List uint8) (answer : Except NrcErrc (List uint8)) (t : Transmission) :
    TransferOutcome m direction body answer t (m.transfer body answer t) := by
  rcases body with _ | ⟨sid, _ | ⟨counter, payload⟩⟩
  · exact .refused (.inl rfl) fun _ sid counter payload h => by simp at h
  · exact .refused (.inl rfl) fun _ sid counter payload h => by simp at h
  by_cases hrunning : m.isRunning = true
  · replace hdirection := hdirection hrunning
    cases hrepeated : m.isRepeated counter with
    | true =>
      rw [transfer_repeated hrunning hdirection hrepeated]
      exact .repeated rfl hrunning hrepeated
    | false =>
      have hnew : m.isRunning = true → ∀ sid' counter' payload',
          sid :: counter :: payload = sid' :: counter' :: payload' →
            m.isRepeated counter' = false := by
        rintro _ sid' counter' payload' ⟨⟩
        exact hrepeated
      by_cases hcounter : m.blockSequenceCounter = counter
      · have hmoved : m.transfer (sid :: counter :: payload) answer t =
            m.moveBlock direction (sid :: counter :: payload) counter answer t := by
          simp [transfer, hrunning, hrepeated, hdirection, hcounter]
        rw [hmoved]
        cases answer with
        | error nrc => exact .refused (.inr ⟨nrc, rfl⟩) hnew
        | ok data => exact .moved rfl hrunning hrepeated hcounter rfl
      · have hrefused : m.transfer (sid :: counter :: payload) answer t =
            ⟨m.respond .transfer (sid :: counter :: payload) t
                (.negative .wrongBlockSequenceCounter),
              some (.negative .wrongBlockSequenceCounter), none⟩ := by
          simp [transfer, hrunning, hrepeated, hcounter]
        rw [hrefused]
        exact .refused (.inl rfl) hnew
  · have hrefused : m.transfer (sid :: counter :: payload) answer t =
        ⟨m.respond .transfer (sid :: counter :: payload) t (.negative .requestSequenceError),
          some (.negative .requestSequenceError), none⟩ := by
      simp [transfer, hrunning]
    rw [hrefused]
    exact .refused (.inl rfl) fun h => absurd h hrunning

/-! ### Blocks -/

variable {block : Block} {blocks : List Block}

theorem withoutRepetitions_repeat {before : Block} (h : block.counter = before.counter) :
    withoutRepetitions (block :: before :: blocks) = withoutRepetitions (before :: blocks) := by
  simp [withoutRepetitions, h]

theorem withoutRepetitions_cons (h : ∀ before ∈ blocks.head?, block.counter ≠ before.counter) :
    withoutRepetitions (block :: blocks) = block :: withoutRepetitions blocks := by
  cases blocks with
  | nil => rfl
  | cons before blocks => simp [withoutRepetitions, h before rfl]

/-! ### Runs -/

theorem Agrees.direction {segment : Segment} (h : Agrees m segment) :
    m.direction = some .toServer := by
  simp [TransferManager.direction, h.download]

/-- The invariant: what was observed is in order, and a transfer that runs agrees with it. -/
structure Tracks (m : TransferManager) (segment : Segment) : Prop where
  inOrder : segment.InOrder
  agrees : m.isRunning = true → Agrees m segment

variable {segment : Segment}

theorem Tracks.refuse (h : Tracks m segment) (service : TransferService) (body : List uint8)
    (t : Transmission) (response : Response) :
    Tracks (m.respond service body t response) segment := by
  refine ⟨h.inOrder, fun hrunning => ?_⟩
  rcases respond_cases m service body t response with hsame | hclear
  · rw [hsame] at hrunning ⊢
    exact h.agrees hrunning
  · rw [hclear] at hrunning
    cases hrunning

theorem Tracks.repeated (h : Tracks m segment)
    (hlast : ∀ before ∈ segment.acknowledged.head?, block.counter = before.counter)
    (hsome : segment.acknowledged ≠ []) :
    Tracks m { segment with acknowledged := block :: segment.acknowledged } := by
  obtain ⟨before, blocks, hblocks⟩ := List.exists_cons_of_ne_nil hsome
  have hcounter : block.counter = before.counter := hlast before (by simp [hblocks])
  have hsame : withoutRepetitions (block :: segment.acknowledged) =
      withoutRepetitions segment.acknowledged := by
    rw [hblocks, withoutRepetitions_repeat hcounter]
  refine ⟨⟨?_, ?_⟩, fun hrunning => ?_⟩
  · rw [hsame]
    exact h.inOrder.written_eq
  · rw [hsame]
    exact h.inOrder.numbered
  · have hagrees := h.agrees hrunning
    refine ⟨hagrees.download, hsame ▸ hagrees.counter, ?_⟩
    rintro _ ⟨⟩
    rw [hagrees.previous before (by simp [hblocks]), hcounter]

theorem Tracks.written (h : Tracks m segment) (hagrees : Agrees m segment)
    (hcounter : m.blockSequenceCounter = block.counter)
    (hnew : m.isRepeated block.counter = false) :
    Tracks m.advance { acknowledged := block :: segment.acknowledged
                       written := block.payload :: segment.written } := by
  have hblocks : withoutRepetitions (block :: segment.acknowledged) =
      block :: withoutRepetitions segment.acknowledged := by
    refine withoutRepetitions_cons fun before hbefore heq => ?_
    obtain ⟨blocks, hacknowledged⟩ := List.head?_eq_some_iff.mp hbefore
    rw [(isRepeated_iff hagrees hacknowledged _).mpr heq] at hnew
    cases hnew.symm
  refine ⟨⟨?_, ?_⟩, fun _ => ⟨hagrees.download, ?_, fun last hmem => ?_⟩⟩
  · rw [hblocks, List.map_cons, h.inOrder.written_eq]
  · rw [hblocks]
    exact ⟨hcounter.symm.trans hagrees.counter, h.inOrder.numbered⟩
  · simp only [hblocks, advance, hagrees.counter]
    exact (BitVec.ofNat_add ..).symm
  · cases hmem
    simp [advance, hcounter]

section

variable {m : TransferManager} {segment : Segment} {body : List uint8}
  {answer : Except NrcErrc (List uint8)} {t : Transmission}

theorem tracks_transfer (h : Tracks m segment)
    (hfresh : FreshStart (m, some segment) (.transferData body answer t)) :
    Tracks (m.transfer body answer t).manager (segment.observe m body answer t) := by
  have houtcome := transfer_outcome (fun hrunning => (h.agrees hrunning).direction) body answer t
  unfold Segment.observe
  generalize m.transfer body answer t = result at houtcome ⊢
  cases houtcome with
  | @refused nrc handed hlost hnew =>
    have hnone : (if answer.isOk then handed else none) = none := by
      rcases hlost with rfl | ⟨e, rfl⟩
      · exact ite_self none
      · rfl
    simp only [hnone]
    exact h.refuse ..
  | @repeated sid counter payload hbody hrunning hrepeated =>
    subst hbody
    have hsome : segment.acknowledged ≠ [] := by
      intro hnone
      have hnew := hfresh segment rfl hnone hrunning sid counter payload rfl
      cases hnew.symm.trans hrepeated
    have hlast : ∀ before ∈ segment.acknowledged.head?, counter = before.counter := by
      intro before hbefore
      obtain ⟨blocks, hblocks⟩ := List.head?_eq_some_iff.mp hbefore
      exact (isRepeated_iff (h.agrees hrunning) hblocks counter).mp hrepeated
    have hrepeat : Tracks m
        { segment with acknowledged := ⟨counter, payload⟩ :: segment.acknowledged } :=
      h.repeated hlast hsome
    simp only [ite_self]
    exact hrepeat.refuse ..
  | @moved sid counter payload data hbody hrunning hnew hcounter hanswer =>
    subst hbody hanswer
    have hwritten : Tracks m.advance
        { acknowledged := ⟨counter, payload⟩ :: segment.acknowledged
          written := payload :: segment.written } :=
      h.written (h.agrees hrunning) hcounter hnew
    exact hwritten.refuse ..

/-- Only a block that repeats none of its own download breaks the order. -/
theorem freshStart_of_inOrder (h : Tracks m segment)
    (horder : (segment.observe m body answer t).InOrder) :
    FreshStart (m, some segment) (.transferData body answer t) := by
  intro segment' hsegment hnone hrunning sid counter rest hbody
  cases hsegment
  have houtcome := transfer_outcome (fun hrunning => (h.agrees hrunning).direction) body answer t
  unfold Segment.observe at horder
  generalize m.transfer body answer t = result at houtcome horder
  cases houtcome with
  | refused hlost hnew => exact hnew hrunning sid counter rest hbody
  | moved hbody' _ hnew =>
    obtain ⟨⟩ := hbody.symm.trans hbody'
    exact hnew
  | repeated hbody' _ hrepeated =>
    -- the block is acknowledged as the first one, but nothing was written
    have hempty := h.inOrder.written_eq
    have hwritten := horder.written_eq
    simp [hnone, acknowledge, isPositive, withoutRepetitions, hempty] at hwritten

theorem tracks_clearTransferInfo (h : Tracks m segment) : Tracks m.clearTransferInfo segment :=
  ⟨h.inOrder, fun hrunning => nomatch hrunning⟩

/-- A download begins with the first counter, whatever ran before. -/
theorem tracks_requestDownload (body maxLength : List uint8) (answer : Except NrcErrc Unit)
    (t : Transmission)
    (hpositive : isPositive (m.requestDownload body maxLength answer t).2 = true) :
    Tracks (m.requestDownload body maxLength answer t).1 {} := by
  refine ⟨⟨rfl, trivial⟩, fun _ => ?_⟩
  unfold requestDownload requestTransfer at hpositive ⊢
  cases hcheck : checkRequest body with
  | some nrc => simp [hcheck, isPositive] at hpositive
  | none =>
    cases answer with
    | error nrc => simp [hcheck, isPositive] at hpositive
    | ok value => exact ⟨rfl, rfl, fun block hblock => nomatch hblock⟩

end

/-- The observations are in order in all of a run of the transfer manager precisely if no download
starts with a counter that was left over. -/
theorem blocksInOrder_iff (inputs : List Input) :
    Always step BlocksInOrder ({}, none) inputs ↔ Along step FreshStart ({}, none) inputs := by
  refine always_iff_along_of_strengthening
    (I := fun state : TransferManager × Option Segment =>
      ∀ segment ∈ state.2, Tracks state.1 segment)
    (fun state h segment hmem => (h segment hmem).inOrder) ?_ ?_
    fun segment hmem => nomatch hmem
  · rintro ⟨m, segment⟩ input h hfresh
    refine ⟨_, rfl, fun segment' hmem => ?_⟩
    cases input with
    | requestDownload body maxLength answer t =>
      simp only [observe] at hmem
      split_ifs at hmem with hpositive
      · cases hmem
        exact tracks_requestDownload body maxLength answer t hpositive
      · cases hmem
    | requestUpload | requestFileTransfer | requestTransferExit => cases hmem
    | transferData body answer t =>
      obtain ⟨current, hcurrent, rfl⟩ := map_eq_some_iff.mp hmem
      subst hcurrent
      exact tracks_transfer (h current rfl) hfresh
    | sessionChange oldSession newSession =>
      have hsegment := h segment' hmem
      simp only [next, sessionChange]
      split_ifs
      · exact tracks_clearTransferInfo hsegment
      · exact hsegment
    | securityLevelChange => exact tracks_clearTransferInfo (h segment' hmem)
  · rintro ⟨m, segment⟩ input state' h hstep horder
    cases hstep
    cases input with
    | transferData body answer t =>
      cases segment with
      | none => exact fun segment' hmem => nomatch hmem
      | some current => exact freshStart_of_inOrder (h current rfl) (horder _ rfl)
    | _ => trivial

def askDownload : Input := .requestDownload [0x34, 0, 0x11, 0, 1] [0, 0, 0, 8] (.ok ()) {}

def sendBlock (counter payload : uint8) : Input :=
  .transferData [0x36, counter, payload] (.ok []) {}

/-- The first block of a second download is lost if the first download had one block; and after
an exit a block with the counter 0 is acknowledged and lost. -/
theorem acknowledged_unwritten :
    (exec step ({}, none) [askDownload, sendBlock 1 7, askDownload, sendBlock 1 8]).map (·.2) =
        some (some ⟨[⟨1, [8]⟩], []⟩) ∧
      (exec step ({}, none) [askDownload, .requestTransferExit [0x37] (.ok []) {}, askDownload,
        sendBlock 0 9]).map (·.2) = some (some ⟨[⟨0, [9]⟩], []⟩) := by
  constructor
  · rfl
  · rfl

end AdaptivePlatform.Diag.TransferManager
