import BooleanCube.Text.Sorted
import Mathlib.Data.String.Basic

/-!
# Sorting by text

The sort keeps all elements and puts their texts in order. Dropping neighbours with the same text
then leaves every text exactly once.
-/

namespace BooleanCube.Text

variable {α : Type} (text : α → String)

theorem insert_by_perm (a : α) (as : List α) : (insertBy text a as).Perm (a :: as) := by
  induction as with
  | nil => exact List.Perm.refl [a]
  | cons b rest ih =>
      rw [insertBy]
      split
      · exact (ih.cons b).trans (List.Perm.swap a b rest)
      · exact List.Perm.refl _

theorem sort_by_perm (as : List α) : (sortBy text as).Perm as := by
  induction as with
  | nil => exact List.Perm.refl []
  | cons a rest ih => exact (insert_by_perm text a (sortBy text rest)).trans (ih.cons a)

def Ascending (as : List α) : Prop := as.Pairwise fun a b => text a ≤ text b

theorem insert_by_ascending (a : α) (as : List α) (ascending : Ascending text as) :
    Ascending text (insertBy text a as) := by
  induction as with
  | nil => exact List.pairwise_singleton _ a
  | cons b rest ih =>
      rcases List.pairwise_cons.mp ascending with ⟨least, restAscending⟩
      rw [insertBy]
      split
      · next before =>
          apply List.pairwise_cons.mpr
          constructor
          · intro other member
            have among := (insert_by_perm text a rest).mem_iff.mp member
            rcases List.mem_cons.mp among with same | inRest
            · exact same ▸ le_of_lt before
            · exact least other inRest
          · exact ih restAscending
      · next notBefore =>
          apply List.pairwise_cons.mpr
          constructor
          · intro other member
            rcases List.mem_cons.mp member with same | inRest
            · exact same ▸ not_lt.mp notBefore
            · exact (not_lt.mp notBefore).trans (least other inRest)
          · exact ascending

theorem sort_by_ascending (as : List α) : Ascending text (sortBy text as) := by
  induction as with
  | nil => exact List.Pairwise.nil
  | cons a rest ih => exact insert_by_ascending text a (sortBy text rest) ih

theorem distinct_after_sublist (last : α) (as : List α) :
    (distinctAfter text last as).Sublist as := by
  induction as generalizing last with
  | nil => exact List.Sublist.refl []
  | cons a rest ih =>
      rw [distinctAfter]
      split
      · exact (ih last).cons a
      · exact (ih a).cons_cons a

theorem distinct_by_sublist (as : List α) : (distinctBy text as).Sublist as := by
  cases as with
  | nil => exact List.Sublist.refl []
  | cons a rest => exact (distinct_after_sublist text a rest).cons_cons a

theorem distinct_after_increasing (last : α) (as : List α)
    (ascending : Ascending text (last :: as)) :
    (last :: distinctAfter text last as).Pairwise fun a b => text a < text b := by
  induction as generalizing last with
  | nil => exact List.pairwise_singleton _ last
  | cons a rest ih =>
      rcases List.pairwise_cons.mp ascending with ⟨least, restAscending⟩
      rw [distinctAfter]
      split
      · next same =>
          apply ih last
          apply List.pairwise_cons.mpr
          constructor
          · intro other member
            exact least other (List.mem_cons_of_mem a member)
          · exact (List.pairwise_cons.mp restAscending).2
      · next different =>
          have lastBefore : text last < text a :=
            lt_of_le_of_ne (least a List.mem_cons_self) (Ne.symm different)
          have increasing := ih a restAscending
          apply List.pairwise_cons.mpr
          constructor
          · intro other member
            rcases List.mem_cons.mp member with same | later
            · exact same ▸ lastBefore
            · exact lastBefore.trans ((List.pairwise_cons.mp increasing).1 other later)
          · exact increasing

theorem distinct_by_increasing (as : List α) (ascending : Ascending text as) :
    (distinctBy text as).Pairwise fun a b => text a < text b := by
  cases as with
  | nil => exact List.Pairwise.nil
  | cons a rest => exact distinct_after_increasing text a rest ascending

/-- Whatever is dropped, an element with the same text stays. -/
theorem distinct_after_keeps_text (last : α) (as : List α) (a : α) (member : a ∈ last :: as) :
    ∃ kept ∈ last :: distinctAfter text last as, text kept = text a := by
  induction as generalizing last with
  | nil => exact ⟨a, member, rfl⟩
  | cons b rest ih =>
      rw [distinctAfter]
      split
      · next same =>
          rcases List.mem_cons.mp member with isLast | inRest
          · exact ⟨last, List.mem_cons_self, isLast ▸ rfl⟩
          rcases List.mem_cons.mp inRest with isNext | later
          · exact ⟨last, List.mem_cons_self, isNext ▸ same.symm⟩
          · exact ih last (List.mem_cons_of_mem last later)
      · rcases List.mem_cons.mp member with isLast | inRest
        · exact ⟨last, List.mem_cons_self, isLast ▸ rfl⟩
        · rcases ih b inRest with ⟨kept, inKept, sameText⟩
          exact ⟨kept, List.mem_cons_of_mem last inKept, sameText⟩

/-- If the texts tell the elements apart, none is dropped for good. -/
theorem mem_distinct_by (as : List α)
    (apart : ∀ a ∈ as, ∀ b ∈ as, text a = text b → a = b) (a : α) :
    a ∈ distinctBy text as ↔ a ∈ as := by
  constructor
  · intro member
    exact (distinct_by_sublist text as).subset member
  · intro member
    cases as with
    | nil => exact member
    | cons first rest =>
        rcases distinct_after_keeps_text text first rest a member with ⟨kept, inKept, sameText⟩
        have keptMember := (distinct_by_sublist text (first :: rest)).subset inKept
        exact apart kept keptMember a member sameText ▸ inKept

end BooleanCube.Text
