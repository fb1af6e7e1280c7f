import Mathlib.Tactic.Common

/-!
# Streams of messages that announce their length

A message is a header of fixed length, followed by a body whose length the
header gives. A receiver takes complete messages off a stream until it finds one
that it does not accept. `split` gives the messages taken and the rest of the
stream, `tried` also counts the message at which the receiver stopped. Going on
with the rest and the next piece of the stream is the same as having had both
pieces at once (`split_append`, `tried_append`), so a receiver may work piece by
piece.
-/
namespace AdaptivePlatform

open List

/-- How a stream of `α` is cut into messages. -/
structure LengthPrefixed (α : Type*) where
  headSize : ℕ
  bodySize : List α → ℕ
  headSize_pos : 0 < headSize

namespace LengthPrefixed

/-- A header, and the body behind it. -/
structure Message (α : Type*) where
  head : List α
  body : List α

variable {α : Type*} (fmt : LengthPrefixed α) {s t head body rest : List α}

/-- The stream begins with a whole message. -/
def Complete (s : List α) : Prop :=
  fmt.headSize ≤ s.length ∧ fmt.headSize + fmt.bodySize (s.take fmt.headSize) ≤ s.length

instance decidableComplete (s : List α) : Decidable (fmt.Complete s) :=
  inferInstanceAs (Decidable (_ ∧ _))

/-- `head` and `body` are a whole message. -/
structure IsMessage (head body : List α) : Prop where
  length_head : head.length = fmt.headSize
  length_body : body.length = fmt.bodySize head

/-- The first message of the stream. -/
def next (s : List α) : Option (Message α) :=
  if fmt.Complete s then
    some ⟨s.take fmt.headSize, (s.drop fmt.headSize).take (fmt.bodySize (s.take fmt.headSize))⟩
  else none

section

variable (accepts : Message α → Prop) [DecidablePred accepts]

/-- The accepted messages at the start of a stream, and the rest. -/
def split (s : List α) : List (Message α) × List α :=
  match _hnext : fmt.next s with
  | none => ([], s)
  | some m =>
    if accepts m then
      let later := split (s.drop (fmt.headSize + m.body.length))
      (m :: later.1, later.2)
    else ([], s)
termination_by s.length
decreasing_by
  have := fmt.headSize_pos
  unfold next at _hnext
  split_ifs at _hnext with hcomplete
  have := hcomplete.1
  rw [List.length_drop]
  omega

/-- The accepted messages at the start, and the one behind them. -/
def tried (s : List α) : List (Message α) :=
  (fmt.split accepts s).1 ++ (fmt.next (fmt.split accepts s).2).toList

end

variable {fmt} {accepts : Message α → Prop} [DecidablePred accepts]

theorem IsMessage.complete (h : fmt.IsMessage head body) (rest : List α) :
    fmt.Complete (head ++ (body ++ rest)) := by
  unfold Complete
  rw [take_left' h.length_head, length_append, length_append, h.length_head, h.length_body]
  omega

theorem not_complete_nil : ¬ fmt.Complete [] := fun h =>
  absurd h.1 (Nat.not_le.mpr fmt.headSize_pos)

theorem next_of_not_complete (h : ¬ fmt.Complete s) : fmt.next s = none := if_neg h

theorem IsMessage.next_eq (h : fmt.IsMessage head body) (rest : List α) :
    fmt.next (head ++ (body ++ rest)) = some ⟨head, body⟩ := by
  rw [next, if_pos (h.complete rest), take_left' h.length_head,
    drop_left' h.length_head, take_left' h.length_body]

theorem split_of_not_complete (h : ¬ fmt.Complete s) : fmt.split accepts s = ([], s) := by
  rw [split]
  split
  · rfl
  · rename_i hnext
    rw [next_of_not_complete h] at hnext
    cases hnext

theorem IsMessage.split_eq (h : fmt.IsMessage head body) (rest : List α) :
    fmt.split accepts (head ++ (body ++ rest)) =
      if accepts ⟨head, body⟩ then
        (⟨head, body⟩ :: (fmt.split accepts rest).1, (fmt.split accepts rest).2)
      else ([], head ++ (body ++ rest)) := by
  have hdrop : (head ++ (body ++ rest)).drop (fmt.headSize + body.length) = rest := by
    rw [← append_assoc]
    apply drop_left'
    rw [length_append, h.length_head]
  rw [split]
  split
  · rename_i hnext
    rw [h.next_eq] at hnext
    cases hnext
  · rename_i hnext
    rw [h.next_eq] at hnext
    cases hnext
    simp [hdrop]

theorem IsMessage.unique {head' body' rest' : List α} (h : fmt.IsMessage head body)
    (h' : fmt.IsMessage head' body') (heq : head ++ (body ++ rest) = head' ++ (body' ++ rest')) :
    head = head' ∧ body = body' ∧ rest = rest' := by
  obtain ⟨rfl, htail⟩ := append_inj heq (h.length_head.trans h'.length_head.symm)
  obtain ⟨rfl, rfl⟩ := append_inj htail (h.length_body.trans h'.length_body.symm)
  exact ⟨rfl, rfl, rfl⟩

theorem Complete.exists_message (h : fmt.Complete s) :
    ∃ head body rest, s = head ++ (body ++ rest) ∧ fmt.IsMessage head body := by
  refine ⟨s.take fmt.headSize, (s.drop fmt.headSize).take (fmt.bodySize (s.take fmt.headSize)),
    (s.drop fmt.headSize).drop (fmt.bodySize (s.take fmt.headSize)), ?_, ?_, ?_⟩
  · rw [take_append_drop, take_append_drop]
  · rw [length_take, Nat.min_eq_left h.1]
  · have := h.2
    rw [length_take, length_drop]
    omega

/-- Induction along the messages of a stream. -/
theorem split_induction {motive : List α → Prop}
    (incomplete : ∀ s, ¬ fmt.Complete s → motive s)
    (message : ∀ head body rest, fmt.IsMessage head body → motive rest →
      motive (head ++ (body ++ rest)))
    (s : List α) : motive s := by
  induction hlen : s.length using Nat.strongRecOn generalizing s with
  | _ n ih =>
    by_cases hcomplete : fmt.Complete s
    · obtain ⟨head, body, rest, rfl, hmsg⟩ := hcomplete.exists_message
      have hshort : rest.length < n := by
        have := fmt.headSize_pos
        rw [← hlen, length_append, length_append, hmsg.length_head]
        omega
      exact message head body rest hmsg (ih _ hshort rest rfl)
    · exact incomplete s hcomplete

theorem split_append (s t : List α) :
    fmt.split accepts (s ++ t) =
      ((fmt.split accepts s).1 ++ (fmt.split accepts ((fmt.split accepts s).2 ++ t)).1,
        (fmt.split accepts ((fmt.split accepts s).2 ++ t)).2) := by
  induction s using fmt.split_induction with
  | incomplete s h => simp [split_of_not_complete h]
  | message head body rest hmsg ih =>
    rw [hmsg.split_eq]
    split_ifs with haccepts
    · rw [append_assoc, append_assoc, hmsg.split_eq, if_pos haccepts, ih]
      rfl
    · rfl

theorem split_rest (s : List α) :
    fmt.split accepts (fmt.split accepts s).2 = ([], (fmt.split accepts s).2) := by
  induction s using fmt.split_induction with
  | incomplete s h => simp [split_of_not_complete h]
  | message head body rest hmsg ih =>
    rw [hmsg.split_eq]
    split_ifs with haccepts
    · exact ih
    · rw [hmsg.split_eq, if_neg haccepts]

theorem tried_append (s t : List α) :
    fmt.tried accepts (s ++ t) =
      (fmt.split accepts s).1 ++ fmt.tried accepts ((fmt.split accepts s).2 ++ t) := by
  rw [tried, split_append, tried, append_assoc]

theorem tried_of_not_complete (h : ¬ fmt.Complete s) : fmt.tried accepts s = [] := by
  rw [tried, split_of_not_complete h, next_of_not_complete h]
  rfl

theorem IsMessage.tried_eq (h : fmt.IsMessage head body) (rest : List α) :
    fmt.tried accepts (head ++ (body ++ rest)) =
      ⟨head, body⟩ :: if accepts ⟨head, body⟩ then fmt.tried accepts rest else [] := by
  rw [tried, h.split_eq]
  split_ifs with haccepts
  · rfl
  · rw [h.next_eq]
    rfl

theorem tried_eq (s : List α) :
    fmt.tried accepts s = (fmt.split accepts s).1 ++ fmt.tried accepts (fmt.split accepts s).2 := by
  have h : fmt.tried accepts (s ++ []) = _ := tried_append s []
  rwa [append_nil, append_nil] at h

theorem mem_tried_append {m : Message α} (h : m ∈ fmt.tried accepts s) (t : List α) :
    m ∈ fmt.tried accepts (s ++ t) := by
  induction s using fmt.split_induction with
  | incomplete s hnot =>
    rw [tried_of_not_complete hnot] at h
    cases h
  | message head body rest hmsg ih =>
    rw [append_assoc, append_assoc, hmsg.tried_eq]
    rw [hmsg.tried_eq] at h
    split_ifs at h ⊢
    · rcases mem_cons.mp h with rfl | h
      · exact mem_cons_self
      · exact mem_cons_of_mem _ (ih h)
    · exact h

theorem tried_eq_split (h : ¬ fmt.Complete (fmt.split accepts s).2) :
    fmt.tried accepts s = (fmt.split accepts s).1 := by
  rw [tried, next_of_not_complete h, Option.toList_none, append_nil]

/-- A receiver that gets through a stream gets through its beginning. -/
theorem not_complete_of_append (h : ¬ fmt.Complete (fmt.split accepts (s ++ t)).2) :
    ¬ fmt.Complete (fmt.split accepts s).2 := by
  induction s using fmt.split_induction with
  | incomplete s hnot => rwa [split_of_not_complete hnot]
  | message head body rest hmsg ih =>
    rw [append_assoc, append_assoc, hmsg.split_eq] at h
    rw [hmsg.split_eq]
    split_ifs at h ⊢
    · exact ih h
    · exact absurd (hmsg.complete (rest ++ t)) h

end LengthPrefixed

end AdaptivePlatform
