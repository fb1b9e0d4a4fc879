import Std.Data.TreeMap
import Mathlib.Data.List.Basic

set_option autoImplicit false

namespace Library

theorem split_key {κ ν : Type} [DecidableEq κ] (entries : List (κ × List ν)) (key : κ) (group : List ν)
    (distinct : entries.Pairwise fun a b => a.1 ≠ b.1) (member : (key, group) ∈ entries) :
    (entries.flatMap Prod.snd).Perm (group ++ (entries.filter fun entry => !decide (key = entry.1)).flatMap Prod.snd) := by
  induction entries with
  | nil => cases member
  | cons entry rest ih =>
      obtain ⟨apart, distinct⟩ := List.pairwise_cons.mp distinct
      rcases List.mem_cons.mp member with rfl | later
      · have others : rest.filter (fun entry => !decide (key = entry.1)) = rest :=
          List.filter_eq_self.mpr fun other among => by simpa using apart other among
        simp [others]
      · have different : key ≠ entry.1 := fun same => apart (key, group) later same.symm
        simp only [List.filter_cons, List.flatMap_cons]
        rw [if_pos (by simpa using different), List.flatMap_cons]
        refine ((ih distinct later).append_left entry.2).trans ?_
        rw [← List.append_assoc, ← List.append_assoc]
        exact List.perm_append_comm.append_right _

variable {κ ν : Type} [Ord κ] [Std.TransOrd κ] [Std.LawfulEqOrd κ]

abbrev Groups (κ ν : Type) [Ord κ] := Std.TreeMap κ (List ν)

namespace Groups

def under (groups : Groups κ ν) (key : κ) : List ν := groups[key]?.getD []

def record (groups : Groups κ ν) (key : κ) (value : ν) : Groups κ ν :=
  groups.insert key (groups.under key ++ [value])

def values (groups : Groups κ ν) : List ν := groups.toList.flatMap Prod.snd

theorem under_record [DecidableEq κ] (groups : Groups κ ν) (key other : κ) (value : ν) :
    (groups.record key value).under other =
      if other = key then groups.under key ++ [value] else groups.under other := by
  by_cases same : other = key
  · subst other
    simp [record, under]
  · simp [record, under, Std.TreeMap.getElem?_insert, same, Ne.symm same]

theorem mem_record (groups : Groups κ ν) (key other : κ) (value : ν) :
    other ∈ groups.record key value ↔ other = key ∨ other ∈ groups := by
  rw [record, Std.TreeMap.mem_insert, Std.LawfulEqOrd.compare_eq_iff_eq]
  exact or_congr_left eq_comm

theorem mem_values (groups : Groups κ ν) (value : ν) : value ∈ groups.values ↔ ∃ key, value ∈ groups.under key := by
  simp only [values, List.mem_flatMap, Prod.exists]
  constructor
  · rintro ⟨key, group, entry, member⟩
    refine ⟨key, ?_⟩
    dsimp only [under]
    rw [Std.TreeMap.mem_toList_iff_getElem?_eq_some.mp entry]
    exact member
  · rintro ⟨key, member⟩
    dsimp only [under] at member
    cases found : groups[key]? with
    | none => simp [found] at member
    | some group =>
        rw [found] at member
        exact ⟨key, group, Std.TreeMap.mem_toList_iff_getElem?_eq_some.mpr found, member⟩

theorem values_record [DecidableEq κ] (groups : Groups κ ν) (key : κ) (value : ν) :
    (groups.record key value).values.Perm (value :: groups.values) := by
  let others := (groups.toList.filter fun entry => !decide (key = entry.1)).flatMap Prod.snd
  have inserted : (groups.record key value).values.Perm ((groups.under key ++ [value]) ++ others) := by
    have perm := Std.TreeMap.toList_insert_perm (t := groups) (k := key) (v := groups.under key ++ [value])
    simpa [values, record, others] using perm.flatMap_right Prod.snd
  have before : groups.values.Perm (groups.under key ++ others) := by
    have distinct := groups.distinct_keys_toList
    simp only [Std.LawfulEqOrd.compare_eq_iff_eq] at distinct
    dsimp only [values, under]
    cases found : groups[key]? with
    | some group => exact split_key groups.toList key group distinct (Std.TreeMap.mem_toList_iff_getElem?_eq_some.mpr found)
    | none =>
        have same : groups.toList.filter (fun entry => !decide (key = entry.1)) = groups.toList := by
          refine List.filter_eq_self.mpr fun entry member => ?_
          have here : groups[entry.1]? = some entry.2 := Std.TreeMap.mem_toList_iff_getElem?_eq_some.mp member
          have different : key ≠ entry.1 := by
            intro same
            rw [← same, found] at here
            cases here
          simpa using different
        dsimp only [others]
        rw [same]
        exact List.Perm.refl _
  calc (groups.record key value).values
    _ |>.Perm ((groups.under key ++ [value]) ++ others) := inserted
    _ |>.Perm (value :: (groups.under key ++ others)) := by
        rw [List.append_assoc]
        exact List.perm_middle
    _ |>.Perm (value :: groups.values) := before.symm.cons value

end Groups

end Library
