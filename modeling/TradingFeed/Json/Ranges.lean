import TradingFeed.Json.Loaded

set_option autoImplicit false

namespace TradingFeed.Json

variable {D : Type}

mutual
def Ranged : JSON D → Prop
  | .object entries => RangedMembers entries
  | .array elements => RangedElements elements
  | .integral n => fitsLongLong n = true
  | .null | .string _ | .floating _ | .boolean _ => True
def RangedMembers : List (Text × JSON D) → Prop
  | [] => True
  | (_, value) :: rest => Ranged value ∧ RangedMembers rest
def RangedElements : List (JSON D) → Prop
  | [] => True
  | value :: rest => Ranged value ∧ RangedElements rest
end

theorem ranged_put (key : Text) (value : JSON D) (members : List (Text × JSON D)) (fits : Ranged value)
    (before : RangedMembers members) : RangedMembers (putMember key value members) := by
  induction members with
  | nil => exact ⟨fits, trivial⟩
  | cons entry members ih =>
      obtain ⟨name, old⟩ := entry
      dsimp only [putMember]
      split
      · exact ⟨fits, before.2⟩
      split
      · exact ⟨fits, before⟩
      · exact ⟨before.1, ih before.2⟩

theorem ranged_find (key : Text) (value : JSON D) (members : List (Text × JSON D)) (all : RangedMembers members)
    (found : findMember key members = some value) : Ranged value := by
  induction members with
  | nil => cases found
  | cons entry members ih =>
      obtain ⟨name, first⟩ := entry
      dsimp only [findMember] at found
      split at found
      · cases found
        exact all.1
      · exact ih all.2 found

theorem ranged_index (json : JSON D) (key : Text) (all : Ranged json) : Ranged (json.index key) := by
  cases json with
  | object entries =>
      dsimp only [JSON.index, JSON.members]
      cases found : findMember key entries with
      | none => trivial
      | some value => exact ranged_find key value entries all found
  | null => trivial
  | array elements => trivial
  | string value => trivial
  | floating d => trivial
  | integral n => trivial
  | boolean value => trivial

theorem stoll_fits (val : Text) (n : Int) (read : stoll val = .ok n) : fitsLongLong n = true := by
  dsimp only [stoll] at read
  grind

theorem convert_cases (fp : Doubles D) (token : NumberToken) (number : JSON D) (converted : convert fp token = .ok number) :
    (∃ d, number = .floating d) ∨ ∃ n, number = .integral n ∧ fitsLongLong n = true := by
  obtain ⟨val, exponent⟩ := token
  have body (exp : Int) (returned : (if '.' ∈ val then
      fp.stod val >>= fun d => .ok (.floating (fp.mul d (fp.pow10 exp)))
    else stoll val >>= fun n => .ok (if exponent.isSome then .floating (fp.mul (fp.ofInt n) (fp.pow10 exp))
      else .integral n) : Except LoadFault (JSON D)) = .ok number) :
      (∃ d, number = .floating d) ∨ ∃ n, number = .integral n ∧ fitsLongLong n = true := by
    by_cases decimal : '.' ∈ val
    · rw [if_pos decimal] at returned
      obtain ⟨d, _, done⟩ := (bind_returns _ _ number).mp returned
      cases done
      exact Or.inl ⟨_, rfl⟩
    · rw [if_neg decimal] at returned
      obtain ⟨n, read, done⟩ := (bind_returns _ _ number).mp returned
      cases done
      split
      · exact Or.inl ⟨_, rfl⟩
      · exact Or.inr ⟨n, rfl, stoll_fits val n read⟩
  cases exponent with
  | none => exact body 0 converted
  | some expStr =>
      obtain ⟨exp, _, rest⟩ := (bind_returns (stoll expStr) _ number).mp converted
      exact body exp rest

theorem convert_ranged (fp : Doubles D) (token : NumberToken) (number : JSON D) (converted : convert fp token = .ok number) :
    Ranged number := by
  rcases convert_cases fp token number converted with ⟨d, rfl⟩ | ⟨n, rfl, fits⟩
  · trivial
  · exact fits

theorem ranged_elements (elements : List (JSON D)) (all : ∀ value ∈ elements, Ranged value) : RangedElements elements := by
  induction elements with
  | nil => trivial
  | cons first elements ih => exact ⟨all first (by simp), ih fun value member => all value (by simp [member])⟩

theorem ranged_builds (fp : Doubles D) : Builds fp Ranged where
  null := trivial
  boolean := fun _ => trivial
  string := fun _ => trivial
  number := convert_ranged fp
  array := ranged_elements
  empty := trivial
  member := fun members key value before fits => ranged_put (jsonEscape key) value members fits before

theorem load_ranged (fp : Doubles D) (text : Text) (json : JSON D) (loaded : load fp text = .ok json) : Ranged json :=
  load_builds fp Ranged (ranged_builds fp) text json loaded

end TradingFeed.Json
