import Mathlib.Data.List.Basic

set_option autoImplicit false

namespace Library

variable {α : Type}

def push (capacity : Nat) (pending : List α) (x : α) : List α × List (List α) :=
  if (pending ++ [x]).length = capacity then ([], [pending ++ [x]]) else (pending ++ [x], [])

def feed (capacity : Nat) : List α → List α → List α × List (List α)
  | pending, [] => (pending, [])
  | pending, x :: xs =>
      let pushed := push capacity pending x
      let rest := feed capacity pushed.1 xs
      (rest.1, pushed.2 ++ rest.2)

theorem push_keeps (capacity : Nat) (pending : List α) (x : α) :
    (push capacity pending x).2.flatten ++ (push capacity pending x).1 = pending ++ [x] := by
  dsimp only [push]
  split <;> simp

theorem push_emits (capacity : Nat) (pending : List α) (x : α) :
    ∀ batch ∈ (push capacity pending x).2, batch.length = capacity := by
  dsimp only [push]
  split
  · rename_i full
    intro batch member
    rw [List.mem_singleton.mp member, full]
  · simp

theorem push_map {β : Type} (capacity : Nat) (f : α → β) (pending : List α) (x : α) :
    (push capacity (pending.map f) (f x)).1 = (push capacity pending x).1.map f := by
  dsimp only [push]
  simp only [List.length_append, List.length_map, List.length_singleton]
  split <;> simp

theorem push_member (capacity : Nat) (pending : List α) (x y : α) (member : y ∈ (push capacity pending x).1) :
    y ∈ pending ∨ y = x := by
  dsimp only [push] at member
  split at member
  · cases member
  · simpa using member

theorem push_short (capacity : Nat) (pending : List α) (x : α) (short : pending.length < capacity) :
    (push capacity pending x).1.length < capacity := by
  dsimp only [push]
  split
  · exact Nat.lt_of_le_of_lt (Nat.zero_le _) short
  · rename_i open_
    simp only [List.length_append, List.length_singleton] at open_ ⊢
    omega

theorem feed_keeps (capacity : Nat) (xs pending : List α) :
    (feed capacity pending xs).2.flatten ++ (feed capacity pending xs).1 = pending ++ xs := by
  induction xs generalizing pending with
  | nil => simp [feed]
  | cons x xs ih =>
      simp only [feed, List.flatten_append, List.append_assoc, ih]
      rw [← List.append_assoc, push_keeps]
      simp

theorem feed_snoc (capacity : Nat) (xs pending : List α) (x : α) :
    feed capacity pending (xs ++ [x]) =
      ((push capacity (feed capacity pending xs).1 x).1,
        (feed capacity pending xs).2 ++ (push capacity (feed capacity pending xs).1 x).2) := by
  induction xs generalizing pending with
  | nil => simp [feed]
  | cons first xs ih => simp [feed, ih]

theorem feed_emits (capacity : Nat) (xs pending : List α) :
    ∀ batch ∈ (feed capacity pending xs).2, batch.length = capacity := by
  induction xs generalizing pending with
  | nil => simp [feed]
  | cons x xs ih =>
      intro batch member
      rcases List.mem_append.mp member with first | later
      · exact push_emits capacity pending x batch first
      · exact ih _ batch later

theorem feed_short (capacity : Nat) (xs pending : List α) (short : pending.length < capacity) :
    (feed capacity pending xs).1.length < capacity := by
  induction xs generalizing pending with
  | nil => exact short
  | cons x xs ih => exact ih _ (push_short capacity pending x short)

theorem blocks_determined (capacity : Nat) (batches : List (List α)) (rest whole : List α)
    (even : ∀ batch ∈ batches, batch.length = capacity) (short : rest.length < capacity)
    (joined : batches.flatten ++ rest = whole) :
    batches = (List.range (whole.length / capacity)).map (fun k => (whole.drop (k * capacity)).take capacity) ∧
      rest = whole.drop (whole.length / capacity * capacity) := by
  have positive : 0 < capacity := Nat.lt_of_le_of_lt (Nat.zero_le _) short
  induction batches generalizing whole with
  | nil =>
      subst joined
      have none : rest.length / capacity = 0 := Nat.div_eq_of_lt short
      simp [none]
  | cons batch batches ih =>
      have size : batch.length = capacity := even batch (by simp)
      have split : whole = batch ++ (batches.flatten ++ rest) := by rw [← joined]; simp
      obtain ⟨blocks, remainder⟩ := ih (batches.flatten ++ rest) (fun other member => even other (by simp [member])) rfl
      have count : whole.length / capacity = (batches.flatten ++ rest).length / capacity + 1 := by
        rw [split, List.length_append, size, Nat.add_comm, Nat.add_div_right _ positive]
      have shift : ∀ k, whole.drop ((k + 1) * capacity) = (batches.flatten ++ rest).drop (k * capacity) := by
        intro k
        rw [split, Nat.succ_mul, Nat.add_comm, ← List.drop_drop, ← size, List.drop_left]
      constructor
      · rw [count, List.range_succ_eq_map, List.map_cons, List.map_map]
        have head : List.take capacity (List.drop (0 * capacity) whole) = batch := by
          rw [split, Nat.zero_mul, List.drop_zero, ← size, List.take_left]
        rw [head]
        refine congrArg (batch :: ·) (blocks.trans (List.map_congr_left fun k _ => ?_))
        rw [Function.comp, shift]
      · rw [count, shift]
        exact remainder

theorem feed_blocks (capacity : Nat) (xs : List α) (positive : 0 < capacity) :
    (feed capacity [] xs).2 =
        (List.range (xs.length / capacity)).map (fun k => (xs.drop (k * capacity)).take capacity) ∧
      (feed capacity [] xs).1 = xs.drop (xs.length / capacity * capacity) :=
  blocks_determined capacity _ _ xs (feed_emits capacity xs []) (feed_short capacity xs [] positive)
    (feed_keeps capacity xs [])

end Library
