import AdaptivePlatform.Foundations.Bytes
import Mathlib.Data.List.Induction
import Mathlib.Data.List.Nodup

/-!
# Delivery of reported checkpoints

The supervision controller finds a reported checkpoint under one text, the
identifier of the supervised entity followed by the decimal checkpoint id, and
hands it to the base supervisions that it keeps under the two parts. Nothing
separates the parts in the text.
-/
namespace AdaptivePlatform.Phm

open Function

structure SupervisionCheckpoint where
  fqn : String
  identifier : String
  checkpointId : uint32
  deriving DecidableEq, Repr

/-- `identifier + std::to_string(checkpointId)`. -/
def makeIdTmp (identifier : String) (checkpointId : uint32) : String :=
  identifier ++ toString checkpointId.toNat

def SupervisionCheckpoint.idTmp (checkpoint : SupervisionCheckpoint) : String :=
  makeIdTmp checkpoint.identifier checkpoint.checkpointId

open SupervisionCheckpoint (idTmp)

/-- The two maps of `SupervisionController` that a reported checkpoint is looked up in; a
base supervision stands for itself by its name. -/
structure SupervisionController where
  checkpointIdMap : String → Option SupervisionCheckpoint
  checkpointBaseMap : String → uint32 → Option (List String)

variable (checkpoints : List SupervisionCheckpoint)

/-- `checkpointIdMap_` as `_makeAndOrganizeSupervisionElement` fills it. -/
def makeCheckpointIdMap : String → Option SupervisionCheckpoint :=
  checkpoints.foldl (fun map element => update map element.idTmp (some element)) fun _ => none

/-- The calls of `ProcessCheckpoint` in `_supervisionComServerHandler`: a base supervision
and the checkpoint that it is given. -/
def SupervisionController.reportCheckpoint (controller : SupervisionController)
    (checkAccessByIam : Bool) (specifierId : String) (checkpointId : uint32) :
    List (String × SupervisionCheckpoint) :=
  if ¬ checkAccessByIam then []
  else
    match controller.checkpointBaseMap specifierId checkpointId with
    | none => []
    | some baseSupervisions =>
      match controller.checkpointIdMap (makeIdTmp specifierId checkpointId) with
      | none => []
      | some checkpoint => baseSupervisions.map fun baseSupervision => (baseSupervision, checkpoint)

/-- A report of a configured checkpoint gives that checkpoint, and no other, to the base
supervisions kept for it. -/
def DeliversOwn : Prop :=
  ∀ (checkpointBaseMap : String → uint32 → Option (List String)), ∀ cp ∈ checkpoints,
    SupervisionController.reportCheckpoint ⟨makeCheckpointIdMap checkpoints, checkpointBaseMap⟩
        true cp.identifier cp.checkpointId =
      ((checkpointBaseMap cp.identifier cp.checkpointId).getD []).map fun base => (base, cp)

variable {checkpoints : List SupervisionCheckpoint} {cp other : SupervisionCheckpoint}

/-- A configured text is found: it leads to the last checkpoint that has it. -/
theorem makeCheckpointIdMap_idTmp (hcp : cp ∈ checkpoints) :
    ∃ found ∈ checkpoints, found.idTmp = cp.idTmp ∧
      makeCheckpointIdMap checkpoints cp.idTmp = some found := by
  induction checkpoints using List.reverseRecOn with
  | nil => cases hcp
  | append_singleton before last ih =>
    rw [makeCheckpointIdMap, List.foldl_append, List.foldl_cons, List.foldl_nil]
    by_cases hlast : cp.idTmp = last.idTmp
    · refine ⟨last, by simp, hlast.symm, ?_⟩
      rw [hlast, update_self]
    · have hbefore : cp ∈ before := by
        rcases List.mem_append.mp hcp with hmem | hmem
        · exact hmem
        · exact absurd (congrArg _ (List.mem_singleton.mp hmem)) hlast
      obtain ⟨found, hmem, hkey, hfound⟩ := ih hbefore
      refine ⟨found, List.mem_append_left _ hmem, hkey, ?_⟩
      rw [update_of_ne hlast]
      exact hfound

theorem deliversOwn_iff_found :
    DeliversOwn checkpoints ↔
      ∀ cp ∈ checkpoints, makeCheckpointIdMap checkpoints cp.idTmp = some cp := by
  constructor
  · intro h cp hcp
    have hown := h (fun _ _ => some [""]) cp hcp
    obtain ⟨found, -, -, hfound⟩ := makeCheckpointIdMap_idTmp hcp
    have hlookup : makeCheckpointIdMap checkpoints (makeIdTmp cp.identifier cp.checkpointId) =
      some found := hfound
    simp only [SupervisionController.reportCheckpoint, hlookup] at hown
    simpa [hfound] using hown
  · intro h checkpointBaseMap cp hcp
    have hlookup : makeCheckpointIdMap checkpoints (makeIdTmp cp.identifier cp.checkpointId) =
      some cp := h cp hcp
    cases hbase : checkpointBaseMap cp.identifier cp.checkpointId <;>
      simp [SupervisionController.reportCheckpoint, hlookup, hbase]

/-- The identifier of `cp` goes on with digits that the id of `other` begins with. -/
def Absorbs (cp other : SupervisionCheckpoint) (digits : String) : Prop :=
  cp.identifier = other.identifier ++ digits ∧
    toString other.checkpointId.toNat = digits ++ toString cp.checkpointId.toNat

theorem Absorbs.idTmp_eq {digits : String} (h : Absorbs cp other digits) :
    cp.idTmp = other.idTmp := by
  rw [idTmp, idTmp, makeIdTmp, makeIdTmp, h.1, h.2, String.append_assoc]

theorem exists_absorbs (h : cp.idTmp = other.idTmp) :
    ∃ digits, Absorbs cp other digits ∨ Absorbs other cp digits := by
  have hlist := congrArg String.toList h
  simp only [idTmp, makeIdTmp, String.toList_append] at hlist
  rcases List.append_eq_append_iff.mp hlist with ⟨digits, hid, hrest⟩ | ⟨digits, hid, hrest⟩
  · refine ⟨String.ofList digits, .inr ⟨?_, ?_⟩⟩ <;>
      simpa only [← String.toList_inj, String.toList_append, String.toList_ofList]
  · refine ⟨String.ofList digits, .inl ⟨?_, ?_⟩⟩ <;>
      simpa only [← String.toList_inj, String.toList_append, String.toList_ofList]

theorem Absorbs.eq_empty {digits : String} (h : Absorbs cp cp digits) : digits = "" := by
  have happend : cp.identifier ++ "" = cp.identifier ++ digits := String.append_empty ▸ h.1
  exact ((String.append_right_inj _).mp happend).symm

theorem Absorbs.pair_eq (h : Absorbs cp other "") :
    (cp.identifier, cp.checkpointId) = (other.identifier, other.checkpointId) := by
  obtain ⟨hid, hrest⟩ := h
  rw [String.append_empty] at hid
  have hdigits := congrArg String.toList hrest
  rw [String.empty_append, Nat.toString_eq_repr, Nat.toString_eq_repr, Nat.toList_repr,
    Nat.toList_repr] at hdigits
  have hnumber : other.checkpointId.toNat = cp.checkpointId.toNat := by
    simpa using congrArg (Nat.ofDigitChars 10 · 0) hdigits
  rw [hid, BitVec.eq_of_toNat_eq hnumber]

/-- Reports reach their own checkpoint exactly where no identifier absorbs digits of an id. -/
theorem deliversOwn_iff
    (hdistinct : (checkpoints.map fun cp => (cp.identifier, cp.checkpointId)).Nodup) :
    DeliversOwn checkpoints ↔
      ∀ cp ∈ checkpoints, ∀ other ∈ checkpoints, ∀ digits ≠ "", ¬ Absorbs cp other digits := by
  rw [deliversOwn_iff_found]
  constructor
  · intro h cp hcp other hother digits hne habsorbs
    have hfound : some cp = some other := by rw [← h cp hcp, habsorbs.idTmp_eq, h other hother]
    cases hfound
    exact hne habsorbs.eq_empty
  · intro h cp hcp
    obtain ⟨found, hmem, hkey, hfound⟩ := makeCheckpointIdMap_idTmp hcp
    have hpair : (found.identifier, found.checkpointId) = (cp.identifier, cp.checkpointId) := by
      obtain ⟨digits, habsorbs⟩ := exists_absorbs hkey
      by_cases hempty : digits = ""
      · subst hempty
        exact habsorbs.elim (·.pair_eq) (·.pair_eq.symm)
      · exact (habsorbs.elim (h _ hmem _ hcp _ hempty) (h _ hcp _ hmem _ hempty)).elim
    rw [hfound, List.inj_on_of_nodup_map hdistinct hmem hcp hpair]

theorem deliversOwn_distinctTexts : DeliversOwn [⟨"a", "e1", 1⟩, ⟨"b", "e", 12⟩] := by
  refine (deliversOwn_iff (by decide)).mpr fun cp hcp other hother digits hne habsorbs => ?_
  have hinjective : ∀ cp ∈ [(⟨"a", "e1", 1⟩ : SupervisionCheckpoint), ⟨"b", "e", 12⟩],
      ∀ other ∈ [(⟨"a", "e1", 1⟩ : SupervisionCheckpoint), ⟨"b", "e", 12⟩],
        cp.idTmp = other.idTmp → cp = other := by decide
  obtain rfl := hinjective cp hcp other hother habsorbs.idTmp_eq
  exact hne habsorbs.eq_empty

/-- The pairs `e1`, `1` and `e`, `11` have one text: reports of the first give the second. -/
theorem not_deliversOwn_sameText : ¬ DeliversOwn [⟨"a", "e1", 1⟩, ⟨"b", "e", 11⟩] := by
  rw [deliversOwn_iff_found]
  decide

end AdaptivePlatform.Phm
