import Std.Data.TreeMap
import Mathlib.Data.List.Basic

set_option autoImplicit false

namespace Library

variable {κ ν μ : Type}

-- Registers that are written one at a time and cleared all at once.
inductive Write (κ ν : Type) where
  | put (key : κ) (value : ν)
  | clear
  | keep

def Write.map (f : ν → μ) : Write κ ν → Write κ μ
  | .put key value => .put key (f value)
  | .clear => .clear
  | .keep => .keep

def lastWrite [DecidableEq κ] (key : κ) : List (Write κ ν) → Option ν
  | [] => none
  | .put other value :: past => if other = key then some value else lastWrite key past
  | .clear :: _ => none
  | .keep :: past => lastWrite key past

section

variable [Ord κ] [Std.TransOrd κ] [Std.LawfulEqOrd κ]

def Write.apply (m : Std.TreeMap κ ν) : Write κ ν → Std.TreeMap κ ν
  | .put key value => m.insert key value
  | .clear => ∅
  | .keep => m

theorem apply_reads [DecidableEq κ] (f : ν → μ) (m : Std.TreeMap κ μ) (past : List (Write κ ν)) (write : Write κ ν)
    (reads : ∀ key, m[key]? = (lastWrite key past).map f) (key : κ) :
    ((write.map f).apply m)[key]? = (lastWrite key (write :: past)).map f := by
  cases write with
  | put other value =>
      dsimp only [Write.map, Write.apply, lastWrite]
      rw [Std.TreeMap.getElem?_insert]
      by_cases same : other = key
      · rw [if_pos same, if_pos (Std.compare_eq_iff_eq.mpr same)]
        rfl
      · rw [if_neg same, if_neg fun equal => same (Std.compare_eq_iff_eq.mp equal)]
        exact reads key
  | clear => simp [Write.map, Write.apply, lastWrite]
  | keep => exact reads key

theorem keys_same (m : Std.TreeMap κ ν) (other : Std.TreeMap κ μ) (same : ∀ key, key ∈ m ↔ key ∈ other) :
    m.keys = other.keys := by
  refine List.Perm.eq_of_pairwise (fun a b _ _ less more => ?_) Std.TreeMap.ordered_keys Std.TreeMap.ordered_keys
    ((List.perm_ext_iff_of_nodup m.nodup_keys other.nodup_keys).mpr fun key => ?_)
  · have twice : compare a a = .lt := Std.TransCmp.lt_trans less more
    simp at twice
  · rw [Std.TreeMap.mem_keys, Std.TreeMap.mem_keys, same]

theorem keys_single (m : Std.TreeMap κ ν) (key : κ) (single : m.size = 1) (member : key ∈ m) : m.keys = [key] := by
  rw [← Std.TreeMap.length_keys] at single
  obtain ⟨only, keys⟩ := List.length_eq_one_iff.mp single
  rw [← Std.TreeMap.mem_keys, keys] at member
  rw [keys, List.mem_singleton.mp member]

theorem list_within (m : Std.TreeMap κ ν) (keys : List κ) (sorted : keys.Pairwise fun a b => compare a b = .lt)
    (within : ∀ key, key ∈ m → key ∈ keys) :
    m.toList = keys.filterMap fun key => m[key]?.map fun value => (key, value) := by
  have before (a : κ) : ¬compare a a = .lt := by simp
  have member (key : κ) (value : ν) :
      (key, value) ∈ (keys.filterMap fun key => m[key]?.map fun value => (key, value)) ↔ (key, value) ∈ m.toList := by
    simp only [List.mem_filterMap, Option.map_eq_some_iff, Prod.mk.injEq, Std.TreeMap.mem_toList_iff_getElem?_eq_some]
    constructor
    · rintro ⟨other, _, found, here, rfl, rfl⟩
      exact here
    · intro here
      exact ⟨key, within key (Std.TreeMap.mem_iff_isSome_getElem?.mpr (by simp [here])), value, here, rfl, rfl⟩
  have ordered : (keys.filterMap fun key => m[key]?.map fun value => (key, value)).Pairwise
      fun a b => compare a.1 b.1 = .lt := by
    refine List.Pairwise.filterMap _ (fun a b less c left d right => ?_) sorted
    obtain ⟨_, _, rfl⟩ := Option.map_eq_some_iff.mp left
    obtain ⟨_, _, rfl⟩ := Option.map_eq_some_iff.mp right
    exact less
  have distinct (entries : List (κ × ν)) (pairs : entries.Pairwise fun a b => compare a.1 b.1 = .lt) : entries.Nodup := by
    refine List.Pairwise.imp (fun {a b} less same => ?_) pairs
    rw [← same] at less
    exact before a.1 less
  refine List.Perm.eq_of_pairwise (fun a b _ _ less more => ?_) Std.TreeMap.ordered_keys_toList ordered
    ((List.perm_ext_iff_of_nodup (distinct _ Std.TreeMap.ordered_keys_toList) (distinct _ ordered)).mpr fun entry =>
      (member entry.1 entry.2).symm)
  exact absurd (Std.TransCmp.lt_trans less more) (before a.1)

end

theorem fold_last_write {σ β : Type} (step : σ → β → σ) (read : σ → κ → Option ν) (writes : β → κ → ν → Prop)
    (steps : List β) (s : σ) (key : κ) (value : ν)
    (one : ∀ s, ∀ b ∈ steps, read (step s b) key = some value ↔
      writes b key value ∨ read s key = some value ∧ ∀ other, ¬writes b key other) :
    read (steps.foldl step s) key = some value ↔
      (∃ before b after, steps = before ++ b :: after ∧ writes b key value ∧
        ∀ later ∈ after, ∀ other, ¬writes later key other) ∨
        read s key = some value ∧ ∀ b ∈ steps, ∀ other, ¬writes b key other := by
  induction steps generalizing s with
  | nil => simp
  | cons first rest ih =>
      rw [List.foldl_cons, ih (step s first) fun s b member => one s b (List.mem_cons_of_mem first member),
        one s first List.mem_cons_self]
      constructor
      · rintro (⟨before, b, after, rfl, written, last⟩ | ⟨written | ⟨old, spared⟩, later⟩)
        · exact Or.inl ⟨first :: before, b, after, rfl, written, last⟩
        · exact Or.inl ⟨[], first, rest, rfl, written, later⟩
        · exact Or.inr ⟨old, List.forall_mem_cons.mpr ⟨spared, later⟩⟩
      · rintro (⟨before, b, after, shape, written, last⟩ | ⟨old, spared⟩)
        · cases before with
          | nil =>
              cases shape
              exact Or.inr ⟨Or.inl written, last⟩
          | cons other before =>
              cases shape
              exact Or.inl ⟨before, b, after, rfl, written, last⟩
        · obtain ⟨here, later⟩ := List.forall_mem_cons.mp spared
          exact Or.inr ⟨Or.inr ⟨old, here⟩, later⟩

end Library
