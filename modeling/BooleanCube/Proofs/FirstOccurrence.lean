import Mathlib.Data.List.Basic

/-!
# First occurrences

Dropping the repeats of a list keeps the first occurrence of every item. The items that stay are all
different, they stand in the order in which they first occurred, and new names for the items change
nothing but the names.
-/

namespace BooleanCube

section Repeats

variable {Item : Type} [DecidableEq Item]

/-- Induction in the way that repeats are dropped: the first item stays, and all that equals it goes
before the rest is looked at. -/
theorem drop_repeats_induction {motive : List Item → Prop} (nil : motive [])
    (cons : ∀ item rest, motive (rest.filter fun other => !other == item) → motive (item :: rest))
    (items : List Item) : motive items := by
  induction length : items.length using Nat.strongRecOn generalizing items with
  | ind size ih =>
      cases items with
      | nil => exact nil
      | cons item rest =>
          have shorter : (rest.filter fun other => !other == item).length < size := by
            have bound := List.length_filter_le (fun other => !other == item) rest
            rw [List.length_cons] at length
            omega
          exact cons item rest (ih _ shorter _ rfl)

theorem nodup_erase_dups (items : List Item) : items.eraseDups.Nodup := by
  induction items using drop_repeats_induction with
  | nil => exact List.nodup_nil
  | cons item rest ih =>
      rw [List.eraseDups_cons, List.nodup_cons, List.mem_eraseDups, List.mem_filter]
      refine ⟨fun member => ?_, ih⟩
      simp at member

theorem index_lt_of_filter_map {Source : Type} [DecidableEq Source] {pick : Source → Option Item}
    {first second : Source} {left right : Item}
    (fromFirst : ∀ source, pick source = some left ↔ source = first)
    (fromSecond : ∀ source, pick source = some right ↔ source = second) (sources : List Source)
    (before : (sources.filterMap pick).idxOf left < (sources.filterMap pick).idxOf right) :
    sources.idxOf first < sources.idxOf second := by
  induction sources with
  | nil => exact absurd before (Nat.lt_irrefl 0)
  | cons source rest ih =>
      by_cases isSecond : source = second
      · have picked := (fromSecond source).mpr isSecond
        rw [List.filterMap_cons_some picked, List.idxOf_cons_self] at before
        exact absurd before (Nat.not_lt_zero _)
      by_cases isFirst : source = first
      · rw [isFirst] at isSecond ⊢
        rw [List.idxOf_cons_self, List.idxOf_cons_ne _ isSecond]
        exact Nat.zero_lt_succ _
      rw [List.idxOf_cons_ne _ isFirst, List.idxOf_cons_ne _ isSecond]
      apply Nat.succ_lt_succ
      apply ih
      cases picked : pick source with
      | none => rwa [List.filterMap_cons_none picked] at before
      | some item =>
          have notLeft : item ≠ left := by
            intro same
            exact isFirst ((fromFirst source).mp (same ▸ picked))
          have notRight : item ≠ right := by
            intro same
            exact isSecond ((fromSecond source).mp (same ▸ picked))
          rw [List.filterMap_cons_some picked, List.idxOf_cons_ne _ notLeft,
            List.idxOf_cons_ne _ notRight] at before
          exact Nat.lt_of_succ_lt_succ before

theorem index_lt_of_filter (keep : Item → Bool) {left right : Item} (leftKept : keep left = true)
    (rightKept : keep right = true) (items : List Item)
    (before : (items.filter keep).idxOf left < (items.filter keep).idxOf right) :
    items.idxOf left < items.idxOf right := by
  have guarded (item : Item) (kept : keep item = true) (other : Item) :
      Option.guard keep other = some item ↔ other = item := by
    rw [Option.guard_eq_some_iff]
    constructor
    · intro same
      exact same.1
    · intro same
      exact ⟨same, same ▸ kept⟩
  rw [← List.filterMap_eq_filter] at before
  exact index_lt_of_filter_map (guarded left leftKept) (guarded right rightKept) items before

theorem erase_dups_in_order (items : List Item) :
    items.eraseDups.Pairwise fun left right => items.idxOf left < items.idxOf right := by
  induction items using drop_repeats_induction with
  | nil => exact List.Pairwise.nil
  | cons item rest ih =>
      have others (other : Item)
          (member : other ∈ (rest.filter fun other => !other == item).eraseDups) :
          other ≠ item := by
        rw [List.mem_eraseDups, List.mem_filter] at member
        simpa using member.2
      rw [List.eraseDups_cons, List.pairwise_cons]
      constructor
      · intro other member
        rw [List.idxOf_cons_self, List.idxOf_cons_ne _ (others other member).symm]
        exact Nat.zero_lt_succ _
      · apply List.Pairwise.imp_of_mem _ ih
        intro left right leftMember rightMember before
        have leftOther := others left leftMember
        have rightOther := others right rightMember
        rw [List.idxOf_cons_ne _ leftOther.symm, List.idxOf_cons_ne _ rightOther.symm]
        apply Nat.succ_lt_succ
        exact index_lt_of_filter _ (by simpa using leftOther) (by simpa using rightOther) rest before

theorem erase_dups_map {Name : Type} [DecidableEq Name] {name : Item → Name}
    (apart : Function.Injective name) (items : List Item) :
    (items.map name).eraseDups = items.eraseDups.map name := by
  induction items using drop_repeats_induction with
  | nil => rfl
  | cons item rest ih =>
      have kept : ((fun other => !other == name item) ∘ name) = fun other => !other == item := by
        funext other
        simp [apart.eq_iff]
      rw [List.map_cons, List.eraseDups_cons, List.eraseDups_cons, List.map_cons, List.filter_map,
        kept, ih]

end Repeats

end BooleanCube
