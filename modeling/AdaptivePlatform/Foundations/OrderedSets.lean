import Mathlib.Data.List.Dedup
import Mathlib.Data.List.Sort

/-!
# Ascending lists without repetitions

Inserting the elements of a list one by one into a set that is kept in
ascending order forgets how often and in which order they came. The elements
in the order of their first occurrence is what it is compared with.
-/
namespace AdaptivePlatform.OrderedSets

variable {α : Type*}

/-- Lists without repetitions that have the same elements are equal if an antisymmetric relation
orders both. -/
theorem eq_of_pairwise_of_mem_iff {r : α → α → Prop} {l l' : List α}
    (hr : ∀ a b, r a b → r b a → a = b) (hnodup : l.Nodup) (hnodup' : l'.Nodup)
    (hl : l.Pairwise r) (hl' : l'.Pairwise r) (hmem : ∀ a, a ∈ l ↔ a ∈ l') : l = l' :=
  List.Perm.eq_of_pairwise (fun a b _ _ => hr a b) hl hl'
    ((List.perm_ext_iff_of_nodup hnodup hnodup').mpr hmem)

variable [DecidableEq α]

/-- The elements of a list in the order in which they occur first. -/
def firstOccurrences (l : List α) : List α := l.reverse.dedup.reverse

@[simp] theorem mem_firstOccurrences {l : List α} {a : α} : a ∈ firstOccurrences l ↔ a ∈ l := by
  simp [firstOccurrences]

theorem nodup_firstOccurrences (l : List α) : (firstOccurrences l).Nodup :=
  List.nodup_reverse.mpr (List.nodup_dedup _)

section

variable [LE α] [DecidableLE α] {set : List α} {a : α} (l : List α)

def insertNew (set : List α) (a : α) : List α :=
  if a ∈ set then set else set.orderedInsert (· ≤ ·) a

def ofList (l : List α) : List α := l.foldl insertNew []

@[simp] theorem mem_insertNew {b : α} : b ∈ insertNew set a ↔ b = a ∨ b ∈ set := by
  unfold insertNew
  split_ifs with ha
  · exact ⟨Or.inr, fun h => h.elim (fun h => h ▸ ha) id⟩
  · exact List.mem_orderedInsert _

theorem nodup_insertNew (h : set.Nodup) (a : α) : (insertNew set a).Nodup := by
  unfold insertNew
  split_ifs with ha
  · exact h
  · exact (List.perm_orderedInsert _ a set).nodup_iff.mpr (List.nodup_cons.mpr ⟨ha, h⟩)

theorem pairwise_insertNew [Std.IsLinearOrder α] (h : set.Pairwise (· ≤ ·)) (a : α) :
    (insertNew set a).Pairwise (· ≤ ·) := by
  unfold insertNew
  split_ifs
  · exact h
  · exact h.orderedInsert a set

theorem insertNew_eq_append (hnew : a ∉ set) (habove : ∀ b ∈ set, ¬ a ≤ b) :
    insertNew set a = set ++ [a] := by
  rw [insertNew, if_neg hnew]
  clear hnew
  induction set with
  | nil => rfl
  | cons b set ih =>
    obtain ⟨hb, hset⟩ := List.forall_mem_cons.mp habove
    rw [List.orderedInsert_cons, if_neg hb, ih hset, List.cons_append]

@[simp] theorem mem_ofList {l : List α} : a ∈ ofList l ↔ a ∈ l := by
  have hfold : ∀ set : List α, a ∈ l.foldl insertNew set ↔ a ∈ set ∨ a ∈ l := by
    induction l with
    | nil => simp
    | cons b l ih =>
      intro set
      rw [List.foldl_cons, ih, mem_insertNew, List.mem_cons]
      tauto
  simpa [ofList] using hfold []

theorem nodup_ofList : (ofList l).Nodup :=
  List.foldlRecOn l insertNew List.nodup_nil fun _ h a _ => nodup_insertNew h a

theorem pairwise_ofList [Std.IsLinearOrder α] : (ofList l).Pairwise (· ≤ ·) :=
  List.foldlRecOn l insertNew List.Pairwise.nil fun _ h a _ => pairwise_insertNew h a

end

end AdaptivePlatform.OrderedSets
