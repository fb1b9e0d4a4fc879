import Mathlib.Data.List.Basic

set_option autoImplicit false

namespace Library

variable {σ ω : Type} (next : σ → Option (σ × ω)) (others : Nat → σ → σ)

-- One thread among others: before each of its steps they turn the state it has
-- left into another one. A thread without a next step stays where it is.
def drive : Nat → σ → σ × List ω
  | 0, s => (s, [])
  | n + 1, s =>
      let before := drive n s
      match next (others n before.1) with
      | none => before
      | some (t, out) => (t, before.2 ++ [out])

theorem drive_step (n : Nat) (s t : σ) (out : ω) (taken : next (others n (drive next others n s).1) = some (t, out)) :
    drive next others (n + 1) s = (t, (drive next others n s).2 ++ [out]) := by
  dsimp only [drive]
  rw [taken]

theorem drive_ended (n : Nat) (s : σ) (ended : next (others n (drive next others n s).1) = none) :
    drive next others (n + 1) s = drive next others n s := by
  dsimp only [drive]
  rw [ended]

theorem drive_invariant (inv : Nat → σ → List ω → Prop) (s : σ) (start : inv 0 s [])
    (keeps : ∀ n t log u out, inv n t log → next (others n t) = some (u, out) → inv (n + 1) u (log ++ [out]))
    (stays : ∀ n t log, inv n t log → next (others n t) = none → inv (n + 1) t log) (n : Nat) :
    inv n (drive next others n s).1 (drive next others n s).2 := by
  induction n with
  | zero => exact start
  | succ n ih =>
      cases taken : next (others n (drive next others n s).1) with
      | none =>
          rw [drive_ended next others n s taken]
          exact stays n _ _ ih taken
      | some pair =>
          rw [drive_step next others n s pair.1 pair.2 taken]
          exact keeps n _ _ pair.1 pair.2 ih taken

theorem drive_congr (different : Nat → σ → σ) (n : Nat) (s : σ) (same : ∀ k < n, others k = different k) :
    drive next others n s = drive next different n s := by
  induction n with
  | zero => rfl
  | succ n ih =>
      dsimp only [drive]
      rw [ih fun k less => same k (Nat.lt_succ_of_lt less), same n (Nat.lt_succ_self n)]

end Library
