import Mathlib.Data.List.Basic

set_option autoImplicit false

namespace Library

variable {α : Type} [DecidableEq α]

def find (pattern : List α) : List α → Option Nat
  | [] => if pattern = [] then some 0 else none
  | x :: text => if pattern.isPrefixOf (x :: text) then some 0 else (find pattern text).map (· + 1)

theorem find_here (pattern text : List α) : find pattern (pattern ++ text) = some 0 := by
  cases pattern with
  | nil => cases text <;> simp [find]
  | cons x pattern => simp [find]

theorem find_skip (pattern text : List α) (x : α) (other : ¬pattern <+: x :: text) :
    find pattern (x :: text) = (find pattern text).map (· + 1) := by
  rw [find, if_neg fun front => other (List.isPrefixOf_iff_prefix.mp front)]

theorem find_front (y : α) (pattern front text : List α) (apart : y ∉ front) :
    find (y :: pattern) (front ++ text) = (find (y :: pattern) text).map (· + front.length) := by
  induction front with
  | nil => simp
  | cons x front ih =>
      have other : ¬(y :: pattern) <+: x :: (front ++ text) := fun front_ =>
        List.ne_of_not_mem_cons apart (List.cons_prefix_cons.mp front_).1
      rw [List.cons_append, find_skip _ _ _ other, ih (List.not_mem_of_not_mem_cons apart), Option.map_map]
      congr 1

theorem find_line (x y : α) (pattern line text : List α) (apart : x ≠ y) (plain : ¬[x, y] <:+: line) :
    find (x :: y :: pattern) (line ++ x :: y :: text) =
      (find (x :: y :: pattern) (x :: y :: text)).map (· + line.length) := by
  induction line with
  | nil => simp
  | cons z line ih =>
      have other : ¬(x :: y :: pattern) <+: z :: (line ++ x :: y :: text) := by
        intro front
        obtain ⟨rfl, second⟩ := List.cons_prefix_cons.mp front
        cases line with
        | nil => exact apart (List.cons_prefix_cons.mp second).1.symm
        | cons next line =>
            obtain ⟨rfl, _⟩ := List.cons_prefix_cons.mp second
            exact plain ⟨[], line, rfl⟩
      have later := ih fun inside => plain (inside.trans (List.suffix_cons z line).isInfix)
      rw [List.cons_append, find_skip _ _ _ other, later, Option.map_map]
      congr 1

theorem find_short (pattern text : List α) (short : text.length < pattern.length) : find pattern text = none := by
  induction text with
  | nil =>
      have filled : pattern ≠ [] := List.length_pos_iff.mp short
      rw [find, if_neg filled]
  | cons x text ih =>
      have other : ¬pattern <+: x :: text := fun front => absurd front.length_le (Nat.not_le_of_lt short)
      rw [find_skip pattern text x other, ih (Nat.lt_trans (Nat.lt_succ_self _) short)]
      rfl

theorem find_cut (pattern whole part : List α) (k : Nat) (filled : pattern ≠ []) (found : find pattern whole = some k)
    (front : part <+: whole) : find pattern part = if k + pattern.length ≤ part.length then some k else none := by
  have positive : 0 < pattern.length := List.length_pos_iff.mpr filled
  induction whole generalizing part k with
  | nil =>
      rw [find, if_neg filled] at found
      cases found
  | cons x whole ih =>
      cases part with
      | nil => rw [find, if_neg filled, if_neg (by rw [List.length_nil]; omega)]
      | cons y part =>
          obtain ⟨rfl, shorter⟩ := List.cons_prefix_cons.mp front
          by_cases here : pattern <+: y :: whole
          · rw [find, if_pos (List.isPrefixOf_iff_prefix.mpr here)] at found
            cases found
            by_cases room : pattern.length ≤ (y :: part).length
            · have inside : pattern <+: y :: part := List.prefix_of_prefix_length_le here front room
              rw [find, if_pos (List.isPrefixOf_iff_prefix.mpr inside), if_pos (by simpa using room)]
            · rw [find_short pattern _ (Nat.lt_of_not_le room), if_neg (by simpa using room)]
          · have apart : ¬pattern <+: y :: part := fun inside => here (inside.trans front)
            rw [find_skip pattern whole y here] at found
            obtain ⟨later, behind, rfl⟩ := Option.map_eq_some_iff.mp found
            rw [find_skip pattern part y apart, ih part later behind shorter]
            by_cases room : later + pattern.length ≤ part.length
            · rw [if_pos room, if_pos (by simp; omega)]
              rfl
            · rw [if_neg room, if_neg (by simp; omega)]
              rfl

end Library
