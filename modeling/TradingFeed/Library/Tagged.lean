import Mathlib.Data.List.Basic
import Mathlib.Data.List.Sublists
import Mathlib.Logic.Function.Basic

set_option autoImplicit false

namespace Library

variable {κ τ α : Type} [DecidableEq κ]

def under (key : κ) (items : List (κ × α)) : List α :=
  items.filterMap fun item => if item.1 = key then some item.2 else none

theorem under_cons (key : κ) (item : κ × α) (items : List (κ × α)) :
    under key (item :: items) = if item.1 = key then item.2 :: under key items else under key items := by
  by_cases same : item.1 = key <;> simp [under, same]

theorem under_append (key : κ) (front back : List (κ × α)) : under key (front ++ back) = under key front ++ under key back := by
  simp [under]

theorem under_absent (key : κ) (items : List (κ × α)) (absent : ∀ item ∈ items, item.1 ≠ key) : under key items = [] :=
  List.filterMap_eq_nil_iff.mpr fun item member => if_neg (absent item member)

theorem under_sublist (key : κ) (some_ all : List (κ × α)) (sublist : some_.Sublist all) :
    (under key some_).Sublist (under key all) := sublist.filterMap _

theorem mem_under (key : κ) (items : List (κ × α)) (value : α) : value ∈ under key items ↔ (key, value) ∈ items := by
  induction items with
  | nil => simp [under]
  | cons item items ih =>
      obtain ⟨other, first⟩ := item
      rw [under_cons]
      by_cases same : other = key
      · subst same
        simp [ih]
      · simp [same, ih, Ne.symm same]

-- Items whose values lie, key by key and in order, among tagged values can be
-- given the tags, so that key by key they lie among the tagged values themselves.
theorem under_tagged (items : List (κ × α)) (tagged : κ → List (τ × α))
    (among : ∀ key, (under key items).Sublist ((tagged key).map Prod.snd)) :
    ∃ whole : List (κ × τ × α), whole.map (fun item => (item.1, item.2.2)) = items ∧
      ∀ key, (under key whole).Sublist (tagged key) := by
  induction items generalizing tagged with
  | nil => exact ⟨[], rfl, fun key => List.nil_sublist _⟩
  | cons item items ih =>
      obtain ⟨key, value⟩ := item
      have here := among key
      rw [under_cons, if_pos rfl] at here
      obtain ⟨chosen, within, same⟩ := List.sublist_map_iff.mp here
      cases chosen with
      | nil => cases same
      | cons first rest =>
          obtain ⟨head, tail⟩ := List.cons.inj same
          obtain ⟨whole, untagged, each⟩ := ih (Function.update tagged key rest) fun other => by
            by_cases this : other = key
            · subst this
              rw [Function.update_self]
              rw [tail]
            · rw [Function.update_of_ne this]
              have later := among other
              rwa [under_cons, if_neg (Ne.symm this)] at later
          refine ⟨(key, first) :: whole, ?_, fun other => ?_⟩
          · rw [List.map_cons, untagged, ← head]
          · rw [under_cons]
            by_cases this : other = key
            · subst this
              have before := each other
              rw [Function.update_self] at before
              rw [if_pos rfl]
              exact (before.cons_cons first).trans within
            · have before := each other
              rw [Function.update_of_ne this] at before
              rw [if_neg (Ne.symm this)]
              exact before

end Library
