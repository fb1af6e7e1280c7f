import Mathlib.Data.List.Chain
import Mathlib.Data.List.DropRight
import Mathlib.Data.List.Infix
import Mathlib.Tactic.Tauto

/-!
# Logical supervision

A logical supervision watches the order in which checkpoints are reported. It
keeps a flag for each checkpoint reached since the graph became active, and
looks up the flags of all predecessors of a reported checkpoint. What it is for
is to follow runs through the graph (`IsRuns`): a run starts at an initial
checkpoint, goes on to a successor of the checkpoint reported last and is over at
its first final checkpoint.
-/
namespace AdaptivePlatform.Phm

inductive BaseSupervisionStatus
  | correct
  | inCorrect
  deriving DecidableEq, Repr

inductive CheckpointLocation
  | initial
  | final
  | transition
  | invalid
  deriving DecidableEq, Repr

structure TransitionConf (C : Type*) where
  sourceCheckpoint : C
  targetCheckpoint : C
  deriving DecidableEq

structure LogicalSupervisionConf (C : Type*) where
  initialCheckpoint : List C
  finalCheckpoint : List C
  transition : List (TransitionConf C)

/-- The members of `LogicalSupervision` that change. -/
structure LogicalSupervision (C : Type*) where
  status : BaseSupervisionStatus
  graphActive : Bool
  checkpointsReachedFlag : C → Bool
  lastCheckpoint : Option C

namespace LogicalSupervisionConf

variable {C : Type*} [DecidableEq C] (conf : LogicalSupervisionConf C)

section

variable (sv : LogicalSupervision C) (checkpoint : C)

/-- `transition_[target]`. The factory makes pairs of target and source, and the
constructor appends the source to the list of the target. -/
def predecessors : List C :=
  ((conf.transition.map fun t => (t.targetCheckpoint, t.sourceCheckpoint)).filter
    fun pair => pair.1 = checkpoint).map Prod.snd

def checkpointLocation : CheckpointLocation :=
  if checkpoint ∈ conf.initialCheckpoint then .initial
  else if checkpoint ∈ conf.finalCheckpoint then .final
  else if conf.predecessors checkpoint ≠ [] then .transition
  else .invalid

def create : LogicalSupervision C where
  status := .correct
  graphActive := false
  checkpointsReachedFlag _ := false
  lastCheckpoint := conf.initialCheckpoint.head?

def graphIsContinuous (checkpointsReachedFlag : C → Bool) (checkpoint : C) : Bool :=
  if conf.predecessors checkpoint ≠ [] then
    (conf.predecessors checkpoint).all checkpointsReachedFlag
  else false

def processCheckpoint : LogicalSupervision C :=
  let sv := { sv with lastCheckpoint := some checkpoint }
  let location := conf.checkpointLocation checkpoint
  let sv :=
    if sv.graphActive = false then
      if location = .initial then
        { sv with
          checkpointsReachedFlag := fun _ => false, graphActive := true, status := .correct }
      else { sv with status := .inCorrect }
    else if sv.status = .inCorrect then sv
    else if conf.graphIsContinuous sv.checkpointsReachedFlag checkpoint then
      { sv with status := .correct }
    else { sv with status := .inCorrect }
  let sv :=
    if sv.status = .correct ∧ location = .final then { sv with graphActive := false } else sv
  { sv with checkpointsReachedFlag := Function.update sv.checkpointsReachedFlag checkpoint true }

/-- The status is `Correct` after each of the reports. -/
def KeepsCorrect (checkpoints : List C) : Prop :=
  ∀ seen, seen <+: checkpoints → (seen.foldl conf.processCheckpoint conf.create).status = .correct

instance (checkpoints : List C) : Decidable (conf.KeepsCorrect checkpoints) :=
  decidable_of_iff
    (∀ seen ∈ checkpoints.inits, (seen.foldl conf.processCheckpoint conf.create).status = .correct)
    (forall_congr' fun seen => by rw [List.mem_inits])

abbrev Arc (source target : C) : Prop := ⟨source, target⟩ ∈ conf.transition

/-- A run goes on along a transition; behind a final checkpoint a new one starts. -/
def GoesOn (last next : C) : Prop :=
  if last ∈ conf.finalCheckpoint then next ∈ conf.initialCheckpoint else conf.Arc last next

/-- Runs through the graph one after the other, the last of which may not be over. -/
def IsRuns (checkpoints : List C) : Prop :=
  (∀ first ∈ checkpoints.head?, first ∈ conf.initialCheckpoint) ∧ checkpoints.IsChain conf.GoesOn

instance : DecidableRel conf.GoesOn := fun _ _ => inferInstanceAs (Decidable (ite ..))

instance (checkpoints : List C) : Decidable (conf.IsRuns checkpoints) :=
  inferInstanceAs (Decidable (_ ∧ _))

/-- The reports since the graph became active: those behind the last checkpoint that is final and
not initial. -/
def sinceActive (seen : List C) : List C :=
  seen.rtakeWhile fun c => c ∈ conf.initialCheckpoint ∨ c ∉ conf.finalCheckpoint

/-- Where the reports since the graph became active tell the same about the next checkpoint as the
last of them does. -/
inductive ReachedTells (reached : List C) (last next : C) : Prop
  /-- The way goes on, there is a predecessor, and all predecessors have been reported. -/
  | goesOn (hgoes : conf.GoesOn last next) (hsome : ∃ source, conf.Arc source next)
      (hall : ∀ source, conf.Arc source next → source ∈ reached)
  /-- It does not, and there is no predecessor or one that has not been reported. -/
  | strays (hstrays : ¬ conf.GoesOn last next)
      (hmissing : ∀ source, conf.Arc source next → ∃ other ∉ reached, conf.Arc other next)

end

variable {conf} {sv : LogicalSupervision C} {checkpoint : C} {seen : List C}

theorem mem_predecessors {source : C} :
    source ∈ conf.predecessors checkpoint ↔ conf.Arc source checkpoint := by
  constructor
  · intro h
    simp only [predecessors, List.mem_map, List.mem_filter, decide_eq_true_eq] at h
    obtain ⟨_, ⟨⟨t, ht, rfl⟩, rfl⟩, rfl⟩ := h
    exact ht
  · intro h
    simp only [predecessors, List.mem_map, List.mem_filter, decide_eq_true_eq]
    exact ⟨(checkpoint, source), ⟨⟨_, h, rfl⟩, rfl⟩, rfl⟩

theorem checkpointLocation_initial :
    conf.checkpointLocation checkpoint = .initial ↔ checkpoint ∈ conf.initialCheckpoint := by
  unfold checkpointLocation
  split_ifs <;> simp_all

theorem checkpointLocation_final :
    conf.checkpointLocation checkpoint = .final ↔
      checkpoint ∉ conf.initialCheckpoint ∧ checkpoint ∈ conf.finalCheckpoint := by
  unfold checkpointLocation
  split_ifs <;> simp_all

theorem graphIsContinuous_iff {flags : C → Bool} :
    conf.graphIsContinuous flags checkpoint = true ↔
      (∃ source, conf.Arc source checkpoint) ∧
        ∀ source, conf.Arc source checkpoint → flags source = true := by
  have hsome : conf.predecessors checkpoint ≠ [] ↔
      ∃ source, source ∈ conf.predecessors checkpoint :=
    ⟨List.exists_mem_of_ne_nil _, fun ⟨_, h⟩ => List.ne_nil_of_mem h⟩
  simp only [← mem_predecessors, ← hsome, graphIsContinuous]
  split_ifs with hpred
  · rw [List.all_eq_true, and_iff_right hpred]
  · exact iff_of_false not_false fun h => hpred h.1

/-- One report while everything was correct: what makes it correct, and when the
graph is active afterwards, with which flags. -/
theorem processCheckpoint_of_correct (conf : LogicalSupervisionConf C) (checkpoint : C)
    (hstatus : sv.status = .correct) :
    ((conf.processCheckpoint sv checkpoint).status = .correct ↔
      if sv.graphActive = true then
        conf.graphIsContinuous sv.checkpointsReachedFlag checkpoint = true
      else checkpoint ∈ conf.initialCheckpoint) ∧
    ((conf.processCheckpoint sv checkpoint).status = .correct →
      ((conf.processCheckpoint sv checkpoint).graphActive = true ↔
        checkpoint ∈ conf.initialCheckpoint ∨ checkpoint ∉ conf.finalCheckpoint) ∧
      (conf.processCheckpoint sv checkpoint).checkpointsReachedFlag =
        Function.update
          (if sv.graphActive = true then sv.checkpointsReachedFlag else fun _ => false)
          checkpoint true) := by
  simp only [processCheckpoint, checkpointLocation_initial, checkpointLocation_final, hstatus]
  cases hactive : sv.graphActive with
  | false => by_cases hinitial : checkpoint ∈ conf.initialCheckpoint <;> simp [hinitial]
  | true =>
    cases hcontinuous : conf.graphIsContinuous sv.checkpointsReachedFlag checkpoint with
    | false => simp
    | true =>
      by_cases hinitial : checkpoint ∈ conf.initialCheckpoint
      · simp [hinitial]
      · by_cases hfinal : checkpoint ∈ conf.finalCheckpoint <;> simp [hinitial, hfinal]

/-- A supervision for which every report so far was correct: the flags of an active graph are the
reports since it became active. -/
structure OnTrack (conf : LogicalSupervisionConf C) (seen : List C) (sv : LogicalSupervision C) :
    Prop where
  status : sv.status = .correct
  active : sv.graphActive = true ↔ conf.sinceActive seen ≠ []
  flags : conf.sinceActive seen ≠ [] →
    ∀ c, sv.checkpointsReachedFlag c = true ↔ c ∈ conf.sinceActive seen

theorem sinceActive_concat_of_stays (seen : List C)
    (hstays : checkpoint ∈ conf.initialCheckpoint ∨ checkpoint ∉ conf.finalCheckpoint) :
    conf.sinceActive (seen ++ [checkpoint]) = conf.sinceActive seen ++ [checkpoint] :=
  List.rtakeWhile_concat_pos _ _ _ (decide_eq_true hstays)

theorem sinceActive_concat_of_ends (seen : List C)
    (hends : ¬ (checkpoint ∈ conf.initialCheckpoint ∨ checkpoint ∉ conf.finalCheckpoint)) :
    conf.sinceActive (seen ++ [checkpoint]) = [] :=
  List.rtakeWhile_concat_neg _ _ _ (by simpa using hends)

theorem OnTrack.processCheckpoint (h : OnTrack conf seen sv)
    (hcorrect : (conf.processCheckpoint sv checkpoint).status = .correct) :
    OnTrack conf (seen ++ [checkpoint]) (conf.processCheckpoint sv checkpoint) := by
  obtain ⟨hactive, hflags⟩ := (processCheckpoint_of_correct conf checkpoint h.status).2 hcorrect
  by_cases hstays : checkpoint ∈ conf.initialCheckpoint ∨ checkpoint ∉ conf.finalCheckpoint
  · have hsince := sinceActive_concat_of_stays seen hstays
    refine ⟨hcorrect, by simp [hactive, hstays, hsince], fun _ c => ?_⟩
    rw [hflags, hsince, Function.update_apply]
    by_cases hfirst : conf.sinceActive seen = []
    · rw [if_neg (mt h.active.mp (not_not.mpr hfirst)), hfirst]
      split_ifs with hc <;> simp [hc]
    · rw [if_pos (h.active.mpr hfirst)]
      split_ifs with hc <;> simp [hc, h.flags hfirst c]
  · have hsince := sinceActive_concat_of_ends seen hstays
    exact ⟨hcorrect, by simp [hactive, hstays, hsince], fun hsome => absurd hsince hsome⟩

theorem keepsCorrect_concat : conf.KeepsCorrect (seen ++ [checkpoint]) ↔ conf.KeepsCorrect seen ∧
    (conf.processCheckpoint (seen.foldl conf.processCheckpoint conf.create) checkpoint).status =
      .correct := by
  unfold KeepsCorrect
  simp only [List.prefix_concat_iff, or_imp, forall_and, forall_eq, List.foldl_append,
    List.foldl_cons, List.foldl_nil]
  exact and_comm

theorem KeepsCorrect.onTrack (h : conf.KeepsCorrect seen) :
    OnTrack conf seen (seen.foldl conf.processCheckpoint conf.create) := by
  induction seen using List.reverseRecOn with
  | nil => exact ⟨rfl, by simp [create, sinceActive], fun hsome => absurd rfl hsome⟩
  | append_singleton seen checkpoint ih =>
    obtain ⟨hseen, hcorrect⟩ := keepsCorrect_concat.mp h
    rw [List.foldl_append]
    exact (ih hseen).processCheckpoint hcorrect

/-- Behind a checkpoint that leaves the graph active, the next report is judged by what has been
reported since the graph became active. -/
theorem keepsCorrect_behind_active {last next : C}
    (hstays : last ∈ conf.initialCheckpoint ∨ last ∉ conf.finalCheckpoint) :
    conf.KeepsCorrect (seen ++ [last] ++ [next]) ↔ conf.KeepsCorrect (seen ++ [last]) ∧
      (∃ source, conf.Arc source next) ∧
        ∀ source, conf.Arc source next → source ∈ conf.sinceActive (seen ++ [last]) := by
  rw [keepsCorrect_concat]
  apply and_congr_right
  intro hseen
  have htrack := hseen.onTrack
  have hsome : conf.sinceActive (seen ++ [last]) ≠ [] := by
    rw [sinceActive_concat_of_stays seen hstays]
    exact List.concat_ne_nil _ _
  rw [(processCheckpoint_of_correct conf next htrack.status).1, if_pos (htrack.active.mpr hsome),
    graphIsContinuous_iff]
  simp only [htrack.flags hsome]

/-- Behind a checkpoint that makes the graph inactive, and at the beginning, the next report has to
be an initial checkpoint. -/
theorem keepsCorrect_inactive {next : C} (hnone : conf.sinceActive seen = []) :
    conf.KeepsCorrect (seen ++ [next]) ↔
      conf.KeepsCorrect seen ∧ next ∈ conf.initialCheckpoint := by
  rw [keepsCorrect_concat]
  apply and_congr_right
  intro hseen
  have htrack := hseen.onTrack
  rw [(processCheckpoint_of_correct conf next htrack.status).1,
    if_neg (mt htrack.active.mp (not_not.mpr hnone))]

theorem isRuns_concat_concat {last next : C} :
    conf.IsRuns (seen ++ [last] ++ [next]) ↔
      conf.IsRuns (seen ++ [last]) ∧ conf.GoesOn last next := by
  have hhead : (seen ++ [last] ++ [next]).head? = (seen ++ [last]).head? := by cases seen <;> rfl
  rw [IsRuns, IsRuns, hhead, List.isChain_append, and_assoc]
  simp

theorem reachedTells_iff {reached : List C} {last next : C} :
    conf.ReachedTells reached last next ↔
      ((∃ source, conf.Arc source next) ∧ (∀ source, conf.Arc source next → source ∈ reached) ↔
        conf.GoesOn last next) := by
  constructor
  · rintro (⟨hgoes, hsome, hall⟩ | ⟨hstrays, hmissing⟩)
    · exact iff_of_true ⟨hsome, hall⟩ hgoes
    · refine iff_of_false ?_ hstrays
      rintro ⟨⟨source, hsource⟩, hall⟩
      obtain ⟨other, hother, harc⟩ := hmissing source hsource
      exact hother (hall other harc)
  · intro h
    by_cases hgoes : conf.GoesOn last next
    · exact .goesOn hgoes (h.mpr hgoes).1 (h.mpr hgoes).2
    · refine .strays hgoes fun source hsource => ?_
      by_contra! hnone
      exact hgoes (h.mp ⟨⟨source, hsource⟩, fun other harc => by_contra fun hother =>
        hnone other hother harc⟩)

theorem agrees_iff_reachedTells {last next : C} (hkeeps : conf.KeepsCorrect (seen ++ [last]))
    (hruns : conf.IsRuns (seen ++ [last])) :
    (conf.KeepsCorrect (seen ++ [last] ++ [next]) ↔ conf.IsRuns (seen ++ [last] ++ [next])) ↔
      ((last ∈ conf.initialCheckpoint ∨ last ∉ conf.finalCheckpoint) →
        conf.ReachedTells (conf.sinceActive (seen ++ [last])) last next) := by
  rw [isRuns_concat_concat, and_iff_right hruns]
  by_cases hstays : last ∈ conf.initialCheckpoint ∨ last ∉ conf.finalCheckpoint
  · rw [keepsCorrect_behind_active hstays, and_iff_right hkeeps, ← reachedTells_iff,
      forall_prop_of_true hstays]
  · have hfinal : last ∈ conf.finalCheckpoint := by tauto
    rw [keepsCorrect_inactive (sinceActive_concat_of_ends seen hstays), and_iff_right hkeeps,
      GoesOn, if_pos hfinal, forall_prop_of_false hstays]
    exact iff_of_true Iff.rfl trivial

/-- The status stays `Correct` for exactly as long as the reports are runs through the graph,
precisely if at each report up to the first incorrect one what has been reached since the graph
became active tells what the last checkpoint tells. -/
theorem keepsCorrect_iff_isRuns_iff (conf : LogicalSupervisionConf C) (checkpoints : List C) :
    (∀ seen, seen <+: checkpoints → (conf.KeepsCorrect seen ↔ conf.IsRuns seen)) ↔
      ∀ seen last next, seen ++ [last, next] <+: checkpoints → conf.IsRuns (seen ++ [last]) →
        (last ∈ conf.initialCheckpoint ∨ last ∉ conf.finalCheckpoint) →
          conf.ReachedTells (conf.sinceActive (seen ++ [last])) last next := by
  constructor
  · intro h seen last next hprefix hruns
    rw [List.append_cons] at hprefix
    have hkeeps := (h (seen ++ [last]) ((List.prefix_append _ _).trans hprefix)).mpr hruns
    exact (agrees_iff_reachedTells hkeeps hruns).mp (h _ hprefix)
  · intro h seen
    induction seen using List.reverseRecOn with
    | nil => exact fun _ => iff_of_true (by simp [KeepsCorrect, create]) (by simp [IsRuns])
    | append_singleton seen next ih =>
      intro hseen
      have hagree := ih ((List.prefix_append _ _).trans hseen)
      rcases List.eq_nil_or_concat' seen with rfl | ⟨seen, last, rfl⟩
      · have hfirst := @keepsCorrect_inactive C _ conf [] next rfl
        rw [hfirst, hagree]
        simp [IsRuns]
      · by_cases hkeeps : conf.KeepsCorrect (seen ++ [last])
        · have hruns := hagree.mp hkeeps
          refine (agrees_iff_reachedTells hkeeps hruns).mpr (h seen last next ?_ hruns)
          rwa [List.append_cons]
        · rw [keepsCorrect_concat, isRuns_concat_concat, ← hagree]
          exact iff_of_false (fun hboth => hkeeps hboth.1) (fun hboth => hkeeps hboth.1)

end LogicalSupervisionConf

def chain : LogicalSupervisionConf ℕ where
  initialCheckpoint := [0]
  finalCheckpoint := [2]
  transition := [⟨0, 1⟩, ⟨1, 2⟩]

def join : LogicalSupervisionConf ℕ where
  initialCheckpoint := [0]
  finalCheckpoint := [2]
  transition := [⟨0, 1⟩, ⟨0, 2⟩, ⟨1, 2⟩]

def single : LogicalSupervisionConf ℕ where
  initialCheckpoint := [0]
  finalCheckpoint := [0]
  transition := []

/-- A checkpoint repeated without a transition to itself stays `Correct`; the
short way through a join is `Incorrect`, and so is the second run through a
graph of one checkpoint. -/
theorem flags_forget_last :
    (chain.KeepsCorrect [0, 1, 1] ∧ ¬ chain.IsRuns [0, 1, 1]) ∧
      (¬ join.KeepsCorrect [0, 2] ∧ join.IsRuns [0, 2]) ∧
      ¬ single.KeepsCorrect [0, 0] ∧ single.IsRuns [0, 0] := by
  decide

end AdaptivePlatform.Phm
