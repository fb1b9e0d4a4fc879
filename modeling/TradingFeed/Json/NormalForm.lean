import TradingFeed.Json.Ranges
import TradingFeed.Json.Reload

set_option autoImplicit false

namespace TradingFeed.Json

variable {D : Type}

mutual
def Keyed : JSON D → Prop
  | .object entries => KeyedMembers entries
  | .array elements => KeyedElements elements
  | _ => True
def KeyedMembers : List (Text × JSON D) → Prop
  | [] => True
  | (key, value) :: rest => Escaped key ∧ Keyed value ∧ KeyedMembers rest
def KeyedElements : List (JSON D) → Prop
  | [] => True
  | value :: rest => Keyed value ∧ KeyedElements rest
end

mutual
def FiniteDoubles (fp : Doubles D) : JSON D → Prop
  | .object entries => FiniteMembers fp entries
  | .array elements => FiniteElements fp elements
  | .floating d => fp.Finite d
  | _ => True
def FiniteMembers (fp : Doubles D) : List (Text × JSON D) → Prop
  | [] => True
  | (_, value) :: rest => FiniteDoubles fp value ∧ FiniteMembers fp rest
def FiniteElements (fp : Doubles D) : List (JSON D) → Prop
  | [] => True
  | value :: rest => FiniteDoubles fp value ∧ FiniteElements fp rest
end

theorem ordered_elements (elements : List (JSON D)) (all : ∀ value ∈ elements, Ordered value) : OrderedElements elements := by
  induction elements with
  | nil => trivial
  | cons first elements ih => exact ⟨all first (by simp), ih fun value member => all value (by simp [member])⟩

theorem ordered_builds (fp : Doubles D) : Builds fp Ordered where
  null := trivial
  boolean := fun _ => trivial
  string := fun _ => trivial
  number := by
    intro token value converted
    rcases convert_cases fp token value converted with ⟨d, rfl⟩ | ⟨n, rfl, _⟩ <;> trivial
  array := ordered_elements
  empty := ⟨List.Pairwise.nil, trivial⟩
  member := fun members key value before ordered =>
    ⟨put_member_sorted (jsonEscape key) value members before.1,
      put_member_ordered (jsonEscape key) value members ordered before.2⟩

theorem keyed_put (key : Text) (value : JSON D) (members : List (Text × JSON D)) (escaped : Escaped key) (keyed : Keyed value)
    (before : KeyedMembers members) : KeyedMembers (putMember key value members) := by
  induction members with
  | nil => exact ⟨escaped, keyed, trivial⟩
  | cons entry members ih =>
      obtain ⟨name, old⟩ := entry
      dsimp only [putMember]
      split
      · exact ⟨before.1, keyed, before.2.2⟩
      split
      · exact ⟨escaped, keyed, before⟩
      · exact ⟨before.1, before.2.1, ih before.2.2⟩

theorem keyed_elements (elements : List (JSON D)) (all : ∀ value ∈ elements, Keyed value) : KeyedElements elements := by
  induction elements with
  | nil => trivial
  | cons first elements ih => exact ⟨all first (by simp), ih fun value member => all value (by simp [member])⟩

theorem keyed_builds (fp : Doubles D) : Builds fp Keyed where
  null := trivial
  boolean := fun _ => trivial
  string := fun _ => trivial
  number := by
    intro token value converted
    rcases convert_cases fp token value converted with ⟨d, rfl⟩ | ⟨n, rfl, _⟩ <;> trivial
  array := keyed_elements
  empty := trivial
  member := fun members key value before keyed => keyed_put (jsonEscape key) value members ⟨key, rfl⟩ keyed before

mutual
theorem reprintable_parts (fp : Doubles D) (json : JSON D) (keyed : Keyed json) (ranged : Ranged json)
    (finite : FiniteDoubles fp json) : Reprintable fp json := by
  match json with
  | .object entries => exact reprintable_members fp entries keyed ranged finite
  | .array elements => exact reprintable_elements fp elements keyed ranged finite
  | .floating d => exact finite
  | .integral n => exact ranged
  | .null => trivial
  | .string value => trivial
  | .boolean value => trivial
theorem reprintable_members (fp : Doubles D) (entries : List (Text × JSON D)) (keyed : KeyedMembers entries)
    (ranged : RangedMembers entries) (finite : FiniteMembers fp entries) : ReprintableMembers fp entries := by
  match entries with
  | [] => trivial
  | (key, value) :: rest =>
      exact ⟨keyed.1, reprintable_parts fp value keyed.2.1 ranged.1 finite.1,
        reprintable_members fp rest keyed.2.2 ranged.2 finite.2⟩
theorem reprintable_elements (fp : Doubles D) (elements : List (JSON D)) (keyed : KeyedElements elements)
    (ranged : RangedElements elements) (finite : FiniteElements fp elements) : ReprintableElements fp elements := by
  match elements with
  | [] => trivial
  | value :: rest =>
      exact ⟨reprintable_parts fp value keyed.1 ranged.1 finite.1,
        reprintable_elements fp rest keyed.2 ranged.2 finite.2⟩
end

mutual
theorem dump_reloaded (fp : Doubles D) (json : JSON D) (depth : Nat) (ordered : Ordered json)
    (printable : Reprintable fp json) : dump fp depth (reloaded fp json) = dump fp depth json := by
  match json with
  | .object entries =>
      rw [reloaded_object fp entries ordered, dump, dump, dump_members_reloaded fp entries depth ordered.2 printable]
  | .array elements =>
      rw [reloaded, dump, dump, dump_elements_reloaded fp elements depth ordered printable]
  | .floating d => exact reread_text fp d printable
  | .integral n => rfl
  | .null => rfl
  | .string value => rfl
  | .boolean value => rfl
theorem dump_members_reloaded (fp : Doubles D) (entries : List (Text × JSON D)) (depth : Nat)
    (ordered : OrderedMembers entries) (printable : ReprintableMembers fp entries) :
    dumpMembers fp depth (reloadEach fp entries) = dumpMembers fp depth entries := by
  match entries with
  | [] => rfl
  | (key, value) :: rest =>
      have first := dump_reloaded fp value (depth + 1) ordered.1 printable.2.1
      have others := dump_members_reloaded fp rest depth ordered.2 printable.2.2
      have last : reloadEach fp rest = [] ↔ rest = [] := List.map_eq_nil_iff
      change dumpMembers fp depth ((key, reloaded fp value) :: reloadEach fp rest) = _
      simp only [dump_member_shape, first, others, last]
theorem dump_elements_reloaded (fp : Doubles D) (elements : List (JSON D)) (depth : Nat)
    (ordered : OrderedElements elements) (printable : ReprintableElements fp elements) :
    dumpElements fp depth (reloadElements fp elements) = dumpElements fp depth elements := by
  match elements with
  | [] => rfl
  | value :: rest =>
      have first := dump_reloaded fp value (depth + 1) ordered.1 printable.1
      have others := dump_elements_reloaded fp rest depth ordered.2 printable.2
      have last : reloadElements fp rest = [] ↔ rest = [] := by
        cases rest with
        | nil => exact Iff.rfl
        | cons next rest => simp [reloadElements]
      rw [reloadElements]
      simp only [dump_element_shape, first, others, last]
end

theorem loaded_ordered (fp : Doubles D) (text : Text) (json : JSON D) (loaded : load fp text = .ok json) : Ordered json :=
  load_builds fp Ordered (ordered_builds fp) text json loaded

theorem loaded_reprintable (fp : Doubles D) (text : Text) (json : JSON D) (loaded : load fp text = .ok json)
    (finite : FiniteDoubles fp json) : Reprintable fp json :=
  reprintable_parts fp json (load_builds fp Keyed (keyed_builds fp) text json loaded) (load_ranged fp text json loaded) finite

-- Behind the text of a number alone stands the terminating null, which does not end
-- a number: parse_number gives Null back.
theorem load_number (fp : Doubles D) (text : Text) (number : NumberText text) : load fp text = .ok .null := by
  obtain ⟨⟨c, tail, same, head⟩, all⟩ := number
  have first : numberChar c = true := all c (by simp [same])
  have here : consumeWs (some text) = .ok (some (c :: tail)) := by
    rw [same]
    exact consume_ws_here c _ (number_space c first).1
  have other := number_other c first
  have open_ : scanNumber (c :: tail) = .ok (none, none) := by
    have dropped : (c :: tail).dropWhile numberChar = [] := List.dropWhile_eq_nil_iff.mpr (same ▸ all)
    simp [scanNumber, dropped, charAt, advance, bind, Except.bind, endsNumber, isspace]
  dsimp only [load, loadWith]
  rw [parse_next_plain (convert fp) _ _ c tail here other.1 other.2.1 other.2.2.1, if_neg (by simp [other]),
    if_neg (by simp [other]), if_pos head, parseNumber, open_]
  rfl

theorem number_dump (fp : Doubles D) (json : JSON D) (number : Number json) (printable : Reprintable fp json) :
    NumberText (json.dump fp) := by
  cases json with
  | floating d => exact (finite_number fp d printable).1
  | integral n => exact show_int_number n
  | _ => cases number

theorem reprint_settles (fp : Doubles D) (text : Text) (json : JSON D) (loaded : load fp text = .ok json)
    (finite : FiniteDoubles fp json) :
    ∃ again, load fp (json.dump fp) = .ok again ∧ load fp (again.dump fp) = .ok again ∧
      (again.dump fp = json.dump fp ↔ ¬Number json) ∧ (Number json → again = .null) := by
  have ordered := loaded_ordered fp text json loaded
  have printable := loaded_reprintable fp text json loaded finite
  by_cases number : Number json
  · have digits := number_dump fp json number printable
    refine ⟨.null, load_number fp _ digits, rfl, ?_, fun _ => rfl⟩
    constructor
    · intro same
      obtain ⟨⟨c, tail, first, head⟩, _⟩ := digits
      rw [← same] at first
      cases first
      exact absurd head (by decide)
    · exact fun closed => absurd number closed
  · have read := load_reprinted fp json printable number
    have same : (reloaded fp json).dump fp = json.dump fp := dump_reloaded fp json 1 ordered printable
    exact ⟨reloaded fp json, read, same ▸ read, iff_of_true same number, fun closed => absurd closed number⟩

-- Members out of order, an escape that dump writes in another way, one that it doubles.
def nestedText : Text := "\x7b \"b\\u0041\\n\" : [1.25, -3, {}], \"a\": \"x\\/\" \x7d".toList

def nestedValue : JSON Int :=
  .object [("a".toList, .string "x/".toList), ("b\\\\u0041\\n".toList, .array [.floating 1250000, .integral (-3), .object []])]

theorem load_nested : load Doubles.micro nestedText = .ok nestedValue := load_same _ _ _ (by decide +kernel)

theorem reprint_settles_nested : ∃ again : JSON Int, load Doubles.micro (nestedValue.dump Doubles.micro) = .ok again ∧
    load Doubles.micro (again.dump Doubles.micro) = .ok again ∧
    (again.dump Doubles.micro = nestedValue.dump Doubles.micro ↔ ¬Number nestedValue) := by
  obtain ⟨again, read, settled, same, _⟩ := reprint_settles Doubles.micro nestedText nestedValue load_nested
    ⟨trivial, ⟨micro_finite _, trivial, trivial, trivial⟩, trivial⟩
  exact ⟨again, read, settled, same⟩

end TradingFeed.Json
