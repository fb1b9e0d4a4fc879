import Mathlib.Tactic.IntervalCases
import TradingFeed.Json.NormalForm
import TradingFeed.Library.JsonGrammar

set_option autoImplicit false

namespace TradingFeed.Json

open Library.JsonGrammar (Derives Chars Blank isPrinted isPlain)

variable {D : Type}

def Valid (text : Text) : Prop := Derives .value text []

-- std::to_string prints a finite double as a number of JSON.
def Decimal (fp : Doubles D) (d : D) : Prop := Library.JsonGrammar.Number (fp.toText d)

mutual
def DecimalDoubles (fp : Doubles D) : JSON D → Prop
  | .object entries => DecimalMembers fp entries
  | .array elements => DecimalElements fp elements
  | .floating d => Decimal fp d
  | _ => True
def DecimalMembers (fp : Doubles D) : List (Text × JSON D) → Prop
  | [] => True
  | (_, value) :: rest => DecimalDoubles fp value ∧ DecimalMembers fp rest
def DecimalElements (fp : Doubles D) : List (JSON D) → Prop
  | [] => True
  | value :: rest => DecimalDoubles fp value ∧ DecimalElements fp rest
end

theorem escape_chars (c : Char) (text rest : Text) (printed : ∀ d ∈ escapeChar c, isPrinted d = true) (more : Chars text rest) :
    Chars (escapeChar c ++ text) rest := by
  rcases escape_char_cases c with ⟨d, known, same⟩ | ⟨same, quote, slash, newline, carriage, tab⟩
  · rw [same]
    exact .escaped d text rest known more
  · rw [same] at printed ⊢
    have here := printed c (List.mem_singleton.mpr rfl)
    simp only [isPrinted, Library.JsonGrammar.isBlank, Bool.or_eq_true, decide_eq_true_eq] at here
    have low : ' ' ≤ c := by
      rcases here with low | (((rfl | tab_) | newline_) | carriage_)
      · exact low
      · decide
      · exact absurd tab_ tab
      · exact absurd newline_ newline
      · exact absurd carriage_ carriage
    have plain : isPlain c = true := by simp [isPlain, low, quote, slash]
    exact .plain c text rest plain more

theorem json_escape_chars (text rest : Text) (printed : ∀ c ∈ jsonEscape text, isPrinted c = true) :
    Chars (jsonEscape text ++ '"' :: rest) rest := by
  induction text with
  | nil => exact .close rest
  | cons c text ih =>
      rw [json_escape_cons, List.append_assoc]
      rw [json_escape_cons] at printed
      exact escape_chars c _ rest (fun d member => printed d (List.mem_append_left _ member))
        (ih fun d member => printed d (List.mem_append_right _ member))

theorem no_blank : Blank [] := fun _ never => absurd never List.not_mem_nil

theorem pad_blanks (depth : Nat) : Blank (pad depth) := by
  intro c member
  rw [List.eq_of_mem_replicate member]
  rfl

theorem digits_leading (n : Nat) (positive : 0 < n) : ∃ c digits, Nat.toDigits 10 n = c :: digits ∧ c ≠ '0' := by
  induction n using Nat.strongRecOn with
  | ind n ih =>
      by_cases single : n < 10
      · refine ⟨n.digitChar, [], Nat.toDigits_of_lt_base single, ?_⟩
        interval_cases n <;> decide
      · obtain ⟨c, digits, same, leading⟩ := ih (n / 10) (by omega) (by omega)
        refine ⟨c, digits ++ [(n % 10).digitChar], ?_, leading⟩
        rw [Nat.toDigits_of_base_le (by decide) (by omega), same]
        rfl

theorem digits_whole (n : Nat) : Library.JsonGrammar.Whole (Nat.toDigits 10 n) := by
  by_cases zero : n = 0
  · subst n
    exact .zero
  · obtain ⟨c, digits, same, leading⟩ := digits_leading n (Nat.pos_of_ne_zero zero)
    have all : ∀ d ∈ c :: digits, d.isDigit = true := fun d member => shown_digit n d (same ▸ member)
    rw [same]
    exact .other c digits (all c List.mem_cons_self) leading fun d member => all d (List.mem_cons_of_mem _ member)

theorem show_int_decimal (n : Int) : Library.JsonGrammar.Number (showInt n) := by
  have whole := digits_whole n.natAbs
  unfold showInt
  split
  · have number := Library.JsonGrammar.Number.mk ['-'] _ [] [] (Or.inr rfl) whole .none .none
    simpa using number
  · have number := Library.JsonGrammar.Number.mk [] _ [] [] (Or.inl rfl) whole .none .none
    simpa using number

mutual
theorem dump_derives (fp : Doubles D) (json : JSON D) (depth : Nat) (rest : Text) (keyed : Keyed json)
    (decimal : DecimalDoubles fp json) (printed : ∀ c ∈ dump fp depth json, isPrinted c = true) :
    Derives .value (dump fp depth json ++ rest) rest := by
  match json with
  | .null => exact .null rest
  | .boolean true => exact .true_ rest
  | .boolean false => exact .false_ rest
  | .floating d => exact .number _ rest decimal
  | .integral n => exact .number _ rest (show_int_decimal n)
  | .string value =>
      have inside : ∀ c ∈ jsonEscape value, isPrinted c = true := fun c member => printed c (by simp [dump, member])
      have whole : dump fp depth (.string value : JSON D) ++ rest = '"' :: (jsonEscape value ++ '"' :: rest) := by simp [dump]
      rw [whole]
      exact .string _ rest (json_escape_chars value rest inside)
  | .object [] =>
      have whole : dump fp depth (.object [] : JSON D) ++ rest =
          '\x7b' :: ('\n' :: '\n' :: pad (depth - 1) ++ '\x7d' :: rest) := by
        simp [dump, dumpMembers]
      rw [whole]
      refine .nested _ rest (.emptyObject _ rest ?_)
      exact List.forall_mem_cons.mpr ⟨rfl, List.forall_mem_cons.mpr ⟨rfl, pad_blanks _⟩⟩
  | .object (entry :: entries) =>
      have inside : ∀ c ∈ dumpMembers fp depth (entry :: entries), isPrinted c = true := fun c member =>
        printed c (by simp [dump, member])
      obtain ⟨body, shape, members⟩ := dump_members_derives fp (entry :: entries) depth rest (List.cons_ne_nil _ _) keyed
        decimal inside
      have whole : dump fp depth (.object (entry :: entries)) ++ rest = '\x7b' :: ('\n' :: pad depth ++ body) := by
        simp [dump, ← shape]
      rw [whole]
      exact .nested _ rest (.object _ body rest (List.forall_mem_cons.mpr ⟨rfl, pad_blanks depth⟩) members)
  | .array [] => exact .emptyArray [] rest no_blank
  | .array (value :: elements) =>
      have inside : ∀ c ∈ dumpElements fp depth (value :: elements), isPrinted c = true := fun c member =>
        printed c (by simp [dump, member])
      have whole : dump fp depth (.array (value :: elements)) ++ rest =
          '[' :: ([] ++ (dumpElements fp depth (value :: elements) ++ ']' :: rest)) := by
        simp [dump]
      rw [whole]
      exact .array [] _ rest no_blank
        (dump_elements_derives fp (value :: elements) depth rest (List.cons_ne_nil _ _) keyed decimal inside)
theorem dump_members_derives (fp : Doubles D) (entries : List (Text × JSON D)) (depth : Nat) (rest : Text)
    (filled : entries ≠ []) (keyed : KeyedMembers entries) (decimal : DecimalMembers fp entries)
    (printed : ∀ c ∈ dumpMembers fp depth entries, isPrinted c = true) :
    ∃ body, dumpMembers fp depth entries ++ ('\n' :: pad (depth - 1) ++ '\x7d' :: rest) = pad depth ++ body ∧
      Derives .members body rest := by
  match entries with
  | [] => exact absurd rfl filled
  | (key, value) :: entries =>
      obtain ⟨⟨name, rfl⟩, keyedValue, keyedRest⟩ := keyed
      have space : Blank [' '] := List.forall_mem_singleton.mpr rfl
      rw [dump_member_shape] at printed ⊢
      have inKey : ∀ c ∈ jsonEscape name, isPrinted c = true := fun c member => printed c (by simp [member])
      have inValue : ∀ c ∈ dump fp (depth + 1) value, isPrinted c = true := fun c member => printed c (by simp [member])
      have first (behind : Text) (ends : Derives .memberEnd behind rest) : Derives .members
          ('"' :: (jsonEscape name ++ '"' :: ([' '] ++ ':' :: ([' '] ++ (dump fp (depth + 1) value ++ behind))))) rest :=
        .member _ [' '] [' '] _ behind rest space space (json_escape_chars name _ inKey)
          (dump_derives fp value (depth + 1) behind keyedValue decimal.1 inValue) ends
      by_cases last : entries = []
      · refine ⟨_, ?_, first ('\n' :: pad (depth - 1) ++ '\x7d' :: rest) ?_⟩
        · simp [last]
        · exact .lastMember _ rest (List.forall_mem_cons.mpr ⟨rfl, pad_blanks _⟩)
      · have inRest : ∀ c ∈ dumpMembers fp depth entries, isPrinted c = true := fun c member =>
          printed c (by simp [last, member])
        obtain ⟨body, same, members⟩ := dump_members_derives fp entries depth rest last keyedRest decimal.2 inRest
        refine ⟨_, ?_, first ([] ++ ',' :: ('\n' :: pad depth ++ body)) ?_⟩
        · simp [last, ← same]
        · exact .nextMember [] _ body rest no_blank (List.forall_mem_cons.mpr ⟨rfl, pad_blanks depth⟩) members
theorem dump_elements_derives (fp : Doubles D) (elements : List (JSON D)) (depth : Nat) (rest : Text)
    (filled : elements ≠ []) (keyed : KeyedElements elements) (decimal : DecimalElements fp elements)
    (printed : ∀ c ∈ dumpElements fp depth elements, isPrinted c = true) :
    Derives .elements (dumpElements fp depth elements ++ ']' :: rest) rest := by
  match elements with
  | [] => exact absurd rfl filled
  | value :: elements =>
      rw [dump_element_shape] at printed ⊢
      have inValue : ∀ c ∈ dump fp (depth + 1) value, isPrinted c = true := fun c member => printed c (by simp [member])
      rw [List.append_assoc]
      refine .element _ _ rest (dump_derives fp value (depth + 1) _ keyed.1 decimal.1 inValue) ?_
      by_cases last : elements = []
      · rw [if_pos last]
        exact .lastElement [] rest no_blank
      · have inRest : ∀ c ∈ dumpElements fp depth elements, isPrinted c = true := fun c member =>
          printed c (by simp [last, member])
        rw [if_neg last]
        exact .nextElement [] [' '] _ rest no_blank (List.forall_mem_singleton.mpr rfl)
          (dump_elements_derives fp elements depth rest last keyed.2 decimal.2 inRest)
end

-- A text without the control characters that dump has no letter for.
def Clear (text : Text) : Prop := ∀ c ∈ text, ' ' ≤ c ∨ c ∈ ['\x08', '\x0c', '\n', '\r', '\t']

mutual
def ClearStrings : JSON D → Prop
  | .object entries => ClearMembers entries
  | .array elements => ClearElements elements
  | .string value => Clear value
  | _ => True
def ClearMembers : List (Text × JSON D) → Prop
  | [] => True
  | (key, value) :: rest => (∀ c ∈ key, isPrinted c = true) ∧ ClearStrings value ∧ ClearMembers rest
def ClearElements : List (JSON D) → Prop
  | [] => True
  | value :: rest => ClearStrings value ∧ ClearElements rest
end

theorem escape_char_printed (c : Char) :
    (∀ d ∈ escapeChar c, isPrinted d = true) ↔ ' ' ≤ c ∨ c ∈ ['\x08', '\x0c', '\n', '\r', '\t'] := by
  unfold escapeChar
  split
  case h_8 quote slash back form newline carriage tab =>
    rw [List.forall_mem_singleton]
    simp only [isPrinted, Library.JsonGrammar.isBlank, Bool.or_eq_true, decide_eq_true_eq, List.mem_cons, List.not_mem_nil,
      or_false]
    constructor
    · rintro (low | (((rfl | same) | same) | same))
      · exact Or.inl low
      · exact Or.inl (by decide)
      · exact absurd same tab
      · exact absurd same newline
      · exact absurd same carriage
    · rintro (low | same | same | same | same | same)
      · exact Or.inl low
      · exact absurd same back
      · exact absurd same form
      · exact absurd same newline
      · exact absurd same carriage
      · exact absurd same tab
  all_goals exact iff_of_true (List.all_eq_true.mp rfl) (by decide)

theorem json_escape_printed (text : Text) : (∀ c ∈ jsonEscape text, isPrinted c = true) ↔ Clear text := by
  induction text with
  | nil => exact iff_of_true (fun _ never => absurd never List.not_mem_nil) fun _ never => absurd never List.not_mem_nil
  | cons c text ih =>
      rw [json_escape_cons, List.forall_mem_append, ih, escape_char_printed, Clear, Clear, List.forall_mem_cons]

theorem pad_printed (depth : Nat) (c : Char) (member : c ∈ pad depth) : isPrinted c = true :=
  Library.JsonGrammar.blank_printed _ (pad_blanks depth) c member

mutual
theorem dump_printed_iff (fp : Doubles D) (json : JSON D) (depth : Nat) (decimal : DecimalDoubles fp json) :
    (∀ c ∈ dump fp depth json, isPrinted c = true) ↔ ClearStrings json := by
  match json with
  | .null => exact iff_of_true (List.all_eq_true.mp rfl) trivial
  | .boolean true => exact iff_of_true (List.all_eq_true.mp rfl) trivial
  | .boolean false => exact iff_of_true (List.all_eq_true.mp rfl) trivial
  | .floating d => exact iff_of_true (Library.JsonGrammar.number_printed _ decimal) trivial
  | .integral n => exact iff_of_true (Library.JsonGrammar.number_printed _ (show_int_decimal n)) trivial
  | .string value =>
      rw [dump, List.forall_mem_append, List.forall_mem_append, json_escape_printed]
      exact ⟨fun all => all.1.2, fun clear => ⟨⟨List.all_eq_true.mp rfl, clear⟩, List.all_eq_true.mp rfl⟩⟩
  | .object entries =>
      rw [dump]
      simp only [List.forall_mem_append]
      rw [dump_members_printed_iff fp entries depth decimal]
      exact ⟨fun all => all.1.1.1.2, fun clear =>
        ⟨⟨⟨⟨List.all_eq_true.mp rfl, clear⟩, List.all_eq_true.mp rfl⟩, pad_printed _⟩, List.all_eq_true.mp rfl⟩⟩
  | .array elements =>
      rw [dump, List.forall_mem_append, List.forall_mem_append, dump_elements_printed_iff fp elements depth decimal]
      exact ⟨fun all => all.1.2, fun clear => ⟨⟨List.all_eq_true.mp rfl, clear⟩, List.all_eq_true.mp rfl⟩⟩
theorem dump_members_printed_iff (fp : Doubles D) (entries : List (Text × JSON D)) (depth : Nat)
    (decimal : DecimalMembers fp entries) :
    (∀ c ∈ dumpMembers fp depth entries, isPrinted c = true) ↔ ClearMembers entries := by
  match entries with
  | [] => exact iff_of_true (fun _ never => absurd never List.not_mem_nil) trivial
  | (key, value) :: entries =>
      have here := dump_printed_iff fp value (depth + 1) decimal.1
      have later := dump_members_printed_iff fp entries depth decimal.2
      rw [dump_member_shape]
      simp only [List.forall_mem_append, List.forall_mem_cons, ClearMembers, here]
      have colon : isPrinted '"' = true ∧ isPrinted ' ' = true ∧ isPrinted ':' = true := by decide
      have comma : isPrinted ',' = true ∧ isPrinted '\n' = true := by decide
      have padded : ∀ c ∈ pad depth, isPrinted c = true := pad_printed depth
      by_cases last : entries = []
      · subst last
        simpa [colon, ClearMembers] using fun _ _ => padded
      · simpa [colon, comma, last, later] using fun _ _ _ => padded
theorem dump_elements_printed_iff (fp : Doubles D) (elements : List (JSON D)) (depth : Nat)
    (decimal : DecimalElements fp elements) :
    (∀ c ∈ dumpElements fp depth elements, isPrinted c = true) ↔ ClearElements elements := by
  match elements with
  | [] => exact iff_of_true (fun _ never => absurd never List.not_mem_nil) trivial
  | value :: elements =>
      have here := dump_printed_iff fp value (depth + 1) decimal.1
      have later := dump_elements_printed_iff fp elements depth decimal.2
      have comma : isPrinted ',' = true ∧ isPrinted ' ' = true := by decide
      rw [dump_element_shape, List.forall_mem_append, here]
      by_cases last : elements = []
      · subst last
        simp [ClearElements]
      · simp [comma, last, later, ClearElements]
end

theorem clear_valid (fp : Doubles D) (json : JSON D) (keyed : Keyed json) (decimal : DecimalDoubles fp json)
    (clear : ClearStrings json) : Valid (json.dump fp) := by
  have derived := dump_derives fp json 1 [] keyed decimal ((dump_printed_iff fp json 1 decimal).mpr clear)
  rw [List.append_nil] at derived
  exact derived

theorem dump_valid_iff (fp : Doubles D) (json : JSON D) (keyed : Keyed json) (decimal : DecimalDoubles fp json) :
    Valid (json.dump fp) ↔ ClearStrings json := by
  constructor
  · intro valid
    refine (dump_printed_iff fp json 1 decimal).mp fun c member => ?_
    exact (Library.JsonGrammar.derives_printed .value _ [] valid c member).resolve_right List.not_mem_nil
  · exact clear_valid fp json keyed decimal

theorem micro_decimal (n : Int) : Decimal Doubles.micro n := by
  obtain ⟨length, digits, _⟩ := millionths_fraction (n.natAbs % 10 ^ 6) (Nat.mod_lt _ (by decide))
  have filled : List.replicate (6 - (Nat.toDigits 10 (n.natAbs % 10 ^ 6)).length) '0' ++
      Nat.toDigits 10 (n.natAbs % 10 ^ 6) ≠ [] := by
    intro empty
    rw [empty] at length
    cases length
  have number (sign : Text) (signs : sign = [] ∨ sign = ['-']) :=
    Library.JsonGrammar.Number.mk sign _ _ [] signs (digits_whole (n.natAbs / 10 ^ 6)) (.some _ filled digits) .none
  change Library.JsonGrammar.Number ((if n < 0 then ['-'] else []) ++ showMillionths n.natAbs)
  split
  · simpa [showMillionths] using number ['-'] (Or.inr rfl)
  · simpa [showMillionths] using number [] (Or.inl rfl)

theorem dump_valid_iff_nested : Valid (nestedValue.dump Doubles.micro) ↔ ClearStrings nestedValue :=
  dump_valid_iff Doubles.micro nestedValue (load_builds Doubles.micro Keyed (keyed_builds _) nestedText _ load_nested)
    ⟨trivial, ⟨micro_decimal _, trivial, trivial, trivial⟩, trivial⟩

end TradingFeed.Json
