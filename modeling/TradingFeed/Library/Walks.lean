import Mathlib.Data.List.Basic
import Std.Data.TreeSet

set_option autoImplicit false

namespace Library

variable {α : Type} [Ord α]

-- The element that an iterator on the last of `seen` comes to next. The set may
-- have grown since it came there.
def following (seen : List α) (set : Std.TreeSet α) : Option α :=
  set.toList.find? fun x => seen.getLast?.all fun last => compare last x = .lt

structure Walks (start seen : List α) (set : Std.TreeSet α) : Prop where
  ascending : seen.Pairwise fun x y => compare x y = .lt
  inside : ∀ x ∈ start, x ∈ set
  covered : ∀ x ∈ start, x ∈ seen ∨ ∀ last, seen.getLast? = some last → compare last x = .lt

theorem walks_grow (start seen : List α) (set larger : Std.TreeSet α) (grows : ∀ x ∈ set, x ∈ larger)
    (walks : Walks start seen set) : Walks start seen larger :=
  ⟨walks.ascending, fun x member => grows x (walks.inside x member), walks.covered⟩

theorem last_greatest (seen : List α) (last x : α) (ascending : seen.Pairwise fun x y => compare x y = .lt)
    (ends : seen.getLast? = some last) (member : x ∈ seen) : x = last ∨ compare x last = .lt := by
  obtain ⟨front, rfl⟩ := List.getLast?_eq_some_iff.mp ends
  cases List.mem_append.mp member with
  | inl before => exact Or.inr ((List.pairwise_append.mp ascending).2.2 x before last (by simp))
  | inr here => exact Or.inl (List.mem_singleton.mp here)

variable [Std.TransOrd α]

theorem less_irrefl (x : α) : compare x x ≠ .lt := by
  have same : compare x x = .eq := Std.ReflCmp.compare_self
  rw [same]
  decide

theorem last_not_less (seen : List α) (last x : α) (ascending : seen.Pairwise fun x y => compare x y = .lt)
    (ends : seen.getLast? = some last) (member : x ∈ seen) : compare last x ≠ .lt := by
  rcases last_greatest seen last x ascending ends member with rfl | below
  · exact less_irrefl x
  · exact fun above => less_irrefl x (Std.TransCmp.lt_trans below above)

theorem above_all (seen : List α) (x : α) (ascending : seen.Pairwise fun x y => compare x y = .lt)
    (above : ∀ last, seen.getLast? = some last → compare last x = .lt) : ∀ y ∈ seen, compare y x = .lt := by
  intro y member
  obtain ⟨last, ends⟩ : ∃ last, seen.getLast? = some last :=
    ⟨_, List.getLast?_eq_some_getLast (List.ne_nil_of_mem member)⟩
  cases last_greatest seen last y ascending ends member with
  | inl same => rw [same, above last ends]
  | inr below => exact Std.TransCmp.lt_trans below (above last ends)

theorem following_next (seen rest : List α) (set : Std.TreeSet α) (x : α) (whole : set.toList = seen ++ x :: rest) :
    following seen set = some x := by
  have sorted := whole ▸ (Std.TreeSet.ordered_toList (t := set))
  have parts := List.pairwise_append.mp sorted
  refine List.find?_eq_some_iff_append.mpr ⟨?_, seen, rest, whole, fun y member => ?_⟩
  · cases ends : seen.getLast? with
    | none => rfl
    | some last => exact decide_eq_true (parts.2.2 last (List.mem_of_getLast? ends) x (by simp))
  · obtain ⟨last, ends⟩ : ∃ last, seen.getLast? = some last :=
      ⟨_, List.getLast?_eq_some_getLast (List.ne_nil_of_mem member)⟩
    simp [ends, last_not_less seen last y parts.1 ends member]

theorem following_end (seen : List α) (set : Std.TreeSet α) (whole : set.toList = seen) : following seen set = none := by
  have sorted := whole ▸ (Std.TreeSet.ordered_toList (t := set))
  refine List.find?_eq_none.mpr fun x member => ?_
  rw [whole] at member
  obtain ⟨last, ends⟩ : ∃ last, seen.getLast? = some last :=
    ⟨_, List.getLast?_eq_some_getLast (List.ne_nil_of_mem member)⟩
  simp [ends, last_not_less seen last x sorted ends member]

variable [Std.LawfulEqOrd α]

theorem walks_start (set : Std.TreeSet α) : Walks set.toList [] set where
  ascending := .nil
  inside := fun _ member => Std.TreeSet.mem_toList.mp member
  covered := fun _ _ => Or.inr fun _ none_ => nomatch none_

theorem walks_next (start seen : List α) (set : Std.TreeSet α) (x : α) (walks : Walks start seen set)
    (found : following seen set = some x) : Walks start (seen ++ [x]) set ∧ x ∈ set ∧ x ∉ seen := by
  obtain ⟨fits, before, behind, whole, passed⟩ := List.find?_eq_some_iff_append.mp found
  have above : ∀ y ∈ seen, compare y x = .lt := by
    refine above_all seen x walks.ascending fun last ends => ?_
    rw [ends] at fits
    exact of_decide_eq_true fits
  refine ⟨⟨?_, walks.inside, fun y member => ?_⟩, ?_, fun member => less_irrefl x (above x member)⟩
  · exact List.pairwise_append.mpr ⟨walks.ascending, List.pairwise_singleton _ x, fun y member z here =>
      List.mem_singleton.mp here ▸ above y member⟩
  · cases walks.covered y member with
    | inl known => exact Or.inl (List.mem_append_left _ known)
    | inr later =>
        -- Nothing above the last element stands before the one that was found.
        have among : y ∈ before ++ x :: behind := whole ▸ Std.TreeSet.mem_toList.mpr (walks.inside y member)
        have sorted := whole ▸ (Std.TreeSet.ordered_toList (t := set))
        rcases List.mem_append.mp among with first | rest
        · refine absurd (passed y first) ?_
          cases ends : seen.getLast? with
          | none => simp
          | some last => simp [later last ends]
        · rcases List.mem_cons.mp rest with rfl | last
          · exact Or.inl (by simp)
          · have less : compare x y = .lt := List.rel_of_pairwise_cons (List.pairwise_append.mp sorted).2.1 last
            exact Or.inr fun other ends => by
              rw [List.getLast?_concat] at ends
              cases ends
              exact less
  · exact Std.TreeSet.mem_toList.mp (whole ▸ List.mem_append_right before List.mem_cons_self)

theorem walks_end (start seen : List α) (set : Std.TreeSet α) (walks : Walks start seen set)
    (ended : following seen set = none) : ∀ x ∈ start, x ∈ seen := by
  intro x member
  cases walks.covered x member with
  | inl known => exact known
  | inr later =>
      refine absurd (List.find?_eq_none.mp ended x (Std.TreeSet.mem_toList.mpr (walks.inside x member))) ?_
      cases ends : seen.getLast? with
      | none => simp
      | some last => simp [later last ends]

end Library
