import Mathlib.Data.List.Forall2
import TradingFeed.Json.Ranges
import TradingFeed.Json.WellFormed
import TradingFeed.Library.JsonMembers

set_option autoImplicit false

namespace TradingFeed.Json

open Library.JsonGrammar

variable {D : Type}

theorem find_put (key name : Text) (value : JSON D) (entries : List (Text × JSON D)) :
    findMember key (putMember name value entries) = if key = name then some value else findMember key entries := by
  induction entries with
  | nil => rfl
  | cons entry rest ih =>
      obtain ⟨other, old⟩ := entry
      dsimp only [putMember]
      by_cases replaced : name = other
      · subst replaced
        rw [if_pos rfl]
        dsimp only [findMember]
        by_cases same : key = name
        · rw [if_pos same, if_pos same]
        · rw [if_neg same, if_neg same, if_neg same]
      · rw [if_neg replaced]
        by_cases before : name < other
        · rw [if_pos before]
          rfl
        · rw [if_neg before]
          dsimp only [findMember]
          by_cases same : key = other
          · rw [if_pos same, if_neg (fun again => replaced (again.symm.trans same)), if_pos same]
          · rw [if_neg same, ih, if_neg same]

theorem escape_char_letter (c : Char) (letter : c.isAlpha = true) : escapeChar c = [c] := by
  dsimp only [escapeChar]
  split
  case h_8 => rfl
  all_goals exact absurd letter (by decide)

theorem escape_letters (text key : Text) (letters : ∀ c ∈ key, c.isAlpha = true) : jsonEscape text = key ↔ text = key := by
  induction text generalizing key with
  | nil => exact Iff.rfl
  | cons c text ih =>
      rw [json_escape_cons]
      constructor
      · rintro rfl
        rcases escape_char_cases c with ⟨d, _, escaped⟩ | ⟨plain, _⟩
        · have slash := letters '\\' (by rw [escaped]; exact List.mem_cons_self)
          exact absurd slash (by decide)
        · rw [plain, List.singleton_append] at letters ⊢
          exact congrArg (c :: ·) ((ih _ fun d member => letters d (List.mem_cons_of_mem c member)).mp rfl)
      · rintro rfl
        have same := (ih text fun d member => letters d (List.mem_cons_of_mem c member)).mpr rfl
        rw [escape_char_letter c (letters c List.mem_cons_self), same, List.singleton_append]

-- What parse_string makes of the characters between the quotes: where one of both
-- is letters only, nothing was escaped.
theorem chars_value (text rest : Text) (chars : Chars text rest) :
    ∃ raw value, text = raw ++ '"' :: rest ∧
      (∀ val more, (parseString val (raw ++ '"' :: more) : Except LoadFault (JSON D × Cursor)) =
        .ok (.string (val ++ value), some more)) ∧
      (((∀ c ∈ raw, c.isAlpha = true) ∨ ∀ c ∈ value, c.isAlpha = true) → value = raw) := by
  induction chars with
  | close rest => exact ⟨[], [], rfl, fun val more => by simp [parseString], fun _ => rfl⟩
  | plain c text rest plain _ ih =>
      obtain ⟨raw, value, rfl, parsed, letters⟩ := ih
      simp only [isPlain, Bool.and_eq_true, decide_eq_true_eq] at plain
      obtain ⟨⟨_, quote⟩, slash⟩ := plain
      refine ⟨c :: raw, c :: value, rfl, fun val more => ?_, fun either => ?_⟩
      · have longer := parsed (val ++ [c]) more
        rw [List.append_assoc] at longer
        rw [← List.singleton_append (l := value), ← longer]
        rw [List.cons_append, parseString.eq_def]
        split <;> simp_all
      · refine congrArg (c :: ·) (letters (either.imp ?_ ?_))
        · exact fun all d member => all d (List.mem_cons_of_mem c member)
        · exact fun all d member => all d (List.mem_cons_of_mem c member)
  | escaped c text rest known _ ih =>
      obtain ⟨raw, value, rfl, parsed, _⟩ := ih
      have built (e : Char) (other : e.isAlpha = false) (step : ∀ val text,
          (parseString val ('\\' :: c :: text) : Except LoadFault (JSON D × Cursor)) = parseString (val ++ [e]) text) :
          ∃ front back, '\\' :: c :: (raw ++ '"' :: rest) = front ++ '"' :: rest ∧
            (∀ val more, (parseString val (front ++ '"' :: more) : Except LoadFault (JSON D × Cursor)) =
              .ok (.string (val ++ back), some more)) ∧
            (((∀ c ∈ front, c.isAlpha = true) ∨ ∀ c ∈ back, c.isAlpha = true) → back = front) := by
        refine ⟨'\\' :: c :: raw, e :: value, rfl, fun val more => ?_, fun either => ?_⟩
        · rw [List.cons_append, List.cons_append, step, parsed, List.append_assoc, List.singleton_append]
        · rcases either with all | all
          · exact absurd (all '\\' List.mem_cons_self) (by decide)
          · exact absurd (all e List.mem_cons_self) (by simp [other])
      simp only [List.mem_cons, List.not_mem_nil, or_false] at known
      obtain rfl | rfl | rfl | rfl | rfl | rfl | rfl | rfl := known
      · exact built '"' rfl fun val text => by rw [parseString]
      · exact built '\\' rfl fun val text => by rw [parseString]
      · exact built '/' rfl fun val text => by rw [parseString]
      · exact built '\x08' rfl fun val text => by rw [parseString]
      · exact built '\x0c' rfl fun val text => by rw [parseString]
      · exact built '\n' rfl fun val text => by rw [parseString]
      · exact built '\r' rfl fun val text => by rw [parseString]
      · exact built '\t' rfl fun val text => by rw [parseString]
  | unicode a b c d text rest hex _ ih =>
      obtain ⟨raw, value, rfl, parsed, _⟩ := ih
      have digits : (isHex a && isHex b && isHex c && isHex d) = true := by
        simpa [hex_same, and_assoc] using hex
      refine ⟨'\\' :: 'u' :: a :: b :: c :: d :: raw, ['\\', 'u', a, b, c, d] ++ value, rfl, fun val more => ?_,
        fun either => ?_⟩
      · have longer := parsed (val ++ ['\\', 'u', a, b, c, d]) more
        rw [List.append_assoc] at longer
        rw [← longer]
        simp only [List.cons_append]
        rw [parseString, if_pos digits]
      · rcases either with all | all
        · exact absurd (all '\\' List.mem_cons_self) (by decide)
        · exact absurd (all '\\' List.mem_cons_self) (by decide)

theorem quoted_read (raw : Text) (quoted : Quoted raw) :
    ∃ value, (∀ more, (parseString [] (raw ++ '"' :: more) : Except LoadFault (JSON D × Cursor)) =
        .ok (.string value, some more)) ∧
      ∀ key, (∀ c ∈ key, c.isAlpha = true) → ((JSON.string value : JSON D).asText = key ↔ raw = key) := by
  obtain ⟨same, value, whole, parsed, letters⟩ := chars_value (D := D) _ [] quoted
  obtain rfl : raw = same := List.append_cancel_right whole
  refine ⟨value, fun more => parsed [] more, fun key all => ?_⟩
  refine (escape_letters value key all).trans ⟨?_, ?_⟩
  · rintro rfl
    exact (letters (Or.inr all)).symm
  · rintro rfl
    exact letters (Or.inl all)

-- A member as Load files it: under the text of its name, escaped again.
structure Filed (conv : NumberToken → Except LoadFault (JSON D)) (member : Text × Text) (entry : Text × JSON D) : Prop where
  name : ∀ key, (∀ c ∈ key, c.isAlpha = true) → (entry.1 = key ↔ member.1 = key)
  number : Library.JsonGrammar.Number member.2 → conv (cutNumber member.2) = .ok entry.2

def file (entries : List (Text × JSON D)) (entry : Text × JSON D) : List (Text × JSON D) :=
  putMember entry.1 entry.2 entries

section

variable (conv : NumberToken → Except LoadFault (JSON D))

theorem value_read (text behind : Text) (derived : Derives .value (text ++ behind) behind) (follows : Follows behind)
    (fuel : Nat) (enough : 2 * (text ++ behind).length + 1 ≤ fuel) :
    (∃ value, parseNext conv fuel (some (text ++ behind)) = .ok (value, some behind) ∧
        (Library.JsonGrammar.Number text → conv (cutNumber text) = .ok value)) ∨
      ∃ token fault, conv token = .error fault ∧ parseNext conv fuel (some (text ++ behind)) = .error fault := by
  by_cases number : Library.JsonGrammar.Number text
  · obtain ⟨fuel, rfl⟩ := Nat.exists_eq_succ_of_ne_zero (show fuel ≠ 0 by omega)
    have read := parse_next_cut conv text behind number follows fuel
    cases converted : conv (cutNumber text) with
    | ok value => exact Or.inl ⟨value, by rw [read, converted]; rfl, fun _ => rfl⟩
    | error fault => exact Or.inr ⟨cutNumber text, fault, converted, by rw [read, converted]; rfl⟩
  · refine (accepts_derived conv .value _ behind derived follows fuel enough).imp_left ?_
    rintro ⟨value, read⟩
    exact ⟨value, read, fun other => absurd other number⟩

theorem member_read (name value text behind : Text) (member : Member name value text behind) (follows : Follows behind)
    (fuel : Nat) (read : List (Text × JSON D)) (enough : 2 * text.length + 1 ≤ fuel) :
    (∃ entry, Filed conv (name, value) entry ∧
        objectLoop conv (fuel + 1) read (some text) = memberBehind conv fuel (file read entry) (some behind)) ∨
      ∃ token fault, conv token = .error fault ∧ objectLoop conv (fuel + 1) read (some text) = .error fault := by
  cases member with
  | mk space start _ _ quoted blank blanks derived =>
      simp only [List.length_cons, List.length_append] at enough
      obtain ⟨fuel, rfl⟩ := Nat.exists_eq_succ_of_ne_zero (show fuel ≠ 0 by omega)
      obtain ⟨key, named, letters⟩ := quoted_read (D := D) name quoted
      have keyRead : parseNext conv (fuel + 1)
          (some ('"' :: (name ++ '"' :: (space ++ ':' :: (start ++ (value ++ behind)))))) =
            .ok (.string key, some (space ++ ':' :: (start ++ (value ++ behind)))) := by
        rw [parse_next_string conv fuel _ _ (consume_ws_here '"' _ rfl), named]
      have looped := object_loop_end conv (fuel + 1) read _ _ space _ (blank_space space blank) keyRead
      rw [parse_next_ws conv (fuel + 1) start _ (blank_space start blanks)] at looped
      rw [looped]
      have within : 2 * (value ++ behind).length + 1 ≤ fuel + 1 := by
        rw [List.length_append]
        omega
      rcases value_read conv value behind derived follows (fuel + 1) within with
        ⟨found, valued, number⟩ | ⟨token, fault, raises, raised⟩
      · refine Or.inl ⟨((JSON.string key : JSON D).asText, found), ⟨letters, number⟩, ?_⟩
        rw [valued]
        rfl
      · exact Or.inr ⟨token, fault, raises, by rw [raised]; rfl⟩

theorem object_loop_members (text rest : Text) (all : List (Text × Text)) (members : Members text rest all) (fuel : Nat)
    (read : List (Text × JSON D)) (enough : 2 * text.length + 2 ≤ fuel) :
    (∃ entries, List.Forall₂ (Filed conv) all entries ∧
        objectLoop conv fuel read (some text) = .ok (.object (entries.foldl file read), some rest)) ∨
      ∃ token fault, conv token = .error fault ∧ objectLoop conv fuel read (some text) = .error fault := by
  induction members generalizing fuel read with
  | last name value text space rest member blank =>
      obtain ⟨fuel, rfl⟩ := Nat.exists_eq_succ_of_ne_zero (show fuel ≠ 0 by omega)
      have follows := follows_space space rest '\x7d' (blank_space space blank) rfl
      rcases member_read conv name value text _ member follows fuel read (by omega) with ⟨entry, filed, looped⟩ | raised
      · refine Or.inl ⟨[entry], .cons filed .nil, ?_⟩
        rw [looped, member_behind_step conv fuel _ space rest '\x7d' (blank_space space blank) rfl, if_neg (by decide),
          if_pos rfl]
        rfl
      · exact Or.inr raised
  | next name value text space start more rest others member blank blanks members ih =>
      obtain ⟨fuel, rfl⟩ := Nat.exists_eq_succ_of_ne_zero (show fuel ≠ 0 by omega)
      have follows := follows_space space (start ++ more) ',' (blank_space space blank) rfl
      rcases member_read conv name value text _ member follows fuel read (by omega) with ⟨entry, filed, looped⟩ | raised
      · have shorter : 2 * more.length + 2 ≤ fuel := by
          cases member with
          | mk =>
              simp only [List.length_cons, List.length_append] at enough
              omega
        rw [looped, member_behind_step conv fuel _ space _ ',' (blank_space space blank) rfl, if_pos rfl,
          object_loop_ws conv fuel _ start more (blank_space start blanks)]
        rcases ih fuel (file read entry) shorter with ⟨entries, all, rest⟩ | raised
        · exact Or.inl ⟨entry :: entries, .cons filed all, rest⟩
        · exact Or.inr raised
      · exact Or.inr raised

end

theorem load_members (fp : Doubles D) (text : Text) (all : List (Text × Text)) (json : JSON D) (object : ObjectOf text all)
    (loaded : load fp text = .ok json) :
    ∃ entries, List.Forall₂ (Filed (convert fp)) all entries ∧ json = .object (entries.foldl file []) := by
  obtain ⟨before, body, after, rfl, blank, _, braced⟩ := object
  dsimp only [load, loadWith] at loaded
  rw [parse_next_ws (convert fp) _ before body (blank_space before blank)] at loaded
  cases braced with
  | empty space _ inner =>
      rw [parse_next_brace (convert fp) _ space after '\x7d' inner rfl, if_pos rfl] at loaded
      exact ⟨[], .nil, (Except.ok.inj loaded).symm⟩
  | filled space inside _ _ inner members =>
      obtain ⟨tail, rfl⟩ := members_start inside after (members_derives _ _ _ members)
      rw [parse_next_brace (convert fp) _ space tail '"' inner rfl, if_neg (by decide)] at loaded
      have enough : 2 * ('"' :: tail).length + 2 ≤ 2 * (before ++ '\x7b' :: (space ++ '"' :: tail)).length := by
        simp only [List.length_append, List.length_cons]
        omega
      rcases object_loop_members (convert fp) _ after all members _ [] enough with
        ⟨entries, filed, looped⟩ | ⟨token, fault, _, raised⟩
      · rw [looped] at loaded
        exact ⟨entries, filed, (Except.ok.inj loaded).symm⟩
      · rw [raised] at loaded
        cases loaded

theorem find_filed (key : Text) (entries read : List (Text × JSON D)) (other : ∀ entry ∈ entries, entry.1 ≠ key) :
    findMember key (entries.foldl file read) = findMember key read := by
  induction entries generalizing read with
  | nil => rfl
  | cons entry rest ih =>
      rw [List.foldl_cons, ih _ fun later member => other later (List.mem_cons_of_mem entry member), file, find_put,
        if_neg (other entry List.mem_cons_self).symm]

theorem units_letters (raw : Text) (letters : ∀ c ∈ raw, c.isAlpha = true) : units raw = raw.map Char.toNat := by
  induction raw with
  | nil => rfl
  | cons c raw ih =>
      have plain : c ≠ '\\' := fun same => absurd (letters c List.mem_cons_self) (by rw [same]; decide)
      rw [units.eq_def]
      split
      · rename_i same
        exact absurd (List.cons.inj same).1 plain
      · rename_i same
        exact absurd (List.cons.inj same).1 plain
      · rename_i same
        cases same
        rw [ih fun d member => letters d (List.mem_cons_of_mem c member)]
        rfl
      · cases ‹_ = []›

theorem filed_other (conv : NumberToken → Except LoadFault (JSON D)) (key : Text) (letters : ∀ c ∈ key, c.isAlpha = true)
    (members : List (Text × Text)) (entries : List (Text × JSON D)) (filed : List.Forall₂ (Filed conv) members entries)
    (other : ∀ member ∈ members, isNamed key member = false) : ∀ entry ∈ entries, entry.1 ≠ key := by
  induction filed with
  | nil => exact fun _ member => absurd member List.not_mem_nil
  | @cons member entry members entries first _ ih =>
      refine List.forall_mem_cons.mpr ⟨fun same => ?_, ih fun later among => other later (List.mem_cons_of_mem _ among)⟩
      have named : member.1 = key := (first.name key letters).mp same
      have unnamed := other member List.mem_cons_self
      rw [isNamed, named, units_letters key letters, decide_eq_true rfl] at unnamed
      cases unnamed

theorem own_index (fp : Doubles D) (text key name value : Text) (all : List (Text × Text)) (json : JSON D)
    (letters : ∀ c ∈ key, c.isAlpha = true) (object : ObjectOf text all) (loaded : load fp text = .ok json)
    (mine : own key all = some (name, value)) (number : Library.JsonGrammar.Number value) :
    if name = key then convert fp (cutNumber value) = .ok (json.index key) else json.index key = .null := by
  obtain ⟨entries, filed, rfl⟩ := load_members fp text all json object loaded
  obtain ⟨front, back, rfl, _, others⟩ := own_split key all (name, value) mine
  have early := List.forall₂_take front.length filed
  have late := List.forall₂_drop front.length filed
  rw [List.take_left] at early
  rw [List.drop_left] at late
  have whole : entries.take front.length ++ entries.drop front.length = entries := List.take_append_drop _ _
  obtain ⟨entry, behind, here, rest, cut⟩ := List.forall₂_cons_left_iff.mp late
  have unnamed := filed_other _ key letters front _ early fun other member => others other (by simp [member])
  have unseen := filed_other _ key letters back _ rest fun other member => others other (by simp [member])
  have found : findMember key (entries.foldl file []) = if key = entry.1 then some entry.2 else none := by
    rw [← whole, cut, List.foldl_append, List.foldl_cons, find_filed key behind _ unseen, file, find_put,
      find_filed key _ _ unnamed]
    rfl
  simp only [JSON.index, JSON.members, found]
  by_cases named : name = key
  · rw [if_pos named, if_pos ((here.name key letters).mpr named).symm]
    exact here.number number
  · rw [if_neg named, if_neg fun same => named ((here.name key letters).mp same.symm)]
    rfl

def scaled (fp : Doubles D) (number : Text) : Except LoadFault D :=
  let token := cutNumber number
  let mantissa := if '.' ∈ token.val then fp.stod token.val else (stoll token.val).map fp.ofInt
  stoll (token.exponent.getD []) >>= fun power => mantissa >>= fun d => .ok (fp.mul d (fp.pow10 power))

inductive Shape (number : Text) : Prop where
  | whole (sign digits : Text) (same : number = sign ++ digits) (signs : sign = [] ∨ sign = ['-'])
      (integer : Whole digits) (is : isWhole number = true) (plain : isScientific number = false)
      (cut : cutNumber number = ⟨number, none⟩) (pointless : '.' ∉ number)
  | fraction (other : isWhole number = false) (plain : isScientific number = false)
      (cut : cutNumber number = ⟨number, none⟩) (point : '.' ∈ number)
  | scientific (other : isWhole number = false) (is : isScientific number = true) (val kept : Text)
      (cut : cutNumber number = ⟨val, some kept⟩)

theorem other_whole (front behind : Text) (c : Char) (other : (c = '-' || c.isDigit) = false) :
    isWhole (front ++ c :: behind) = false :=
  List.all_eq_false.mpr ⟨c, by simp, by simp [other]⟩

theorem number_char_letter (c : Char) (number : numberChar c = true) : (c = 'e' || c = 'E') = false := by
  cases letter : (c = 'e' || c = 'E' : Bool) with
  | false => rfl
  | true =>
      have other := exponent_letter c ((Bool.or_eq_true_iff.mp letter).imp of_decide_eq_true of_decide_eq_true)
      rw [other] at number
      cases number

theorem number_shape (number : Text) (derived : Library.JsonGrammar.Number number) : Shape number := by
  cases derived with
  | mk sign whole fraction exponent signs integer decimals power =>
      have mantissa := mantissa_number sign whole fraction signs integer decimals
      have plain : isScientific (sign ++ whole ++ fraction) = false :=
        List.any_eq_false.mpr fun c inside => Bool.eq_false_iff.mp (number_char_letter c (mantissa c inside))
      cases power with
      | none =>
          rw [List.append_nil]
          cases decimals with
          | none =>
              rw [List.append_nil] at mantissa plain ⊢
              have kinds : ∀ c ∈ sign ++ whole, c = '-' ∨ c.isDigit = true := by
                intro c member
                rcases List.mem_append.mp member with first | digit
                · rcases signs with rfl | rfl
                  · cases first
                  · exact Or.inl (List.mem_singleton.mp first)
                · exact Or.inr (whole_digits whole integer c digit)
              refine .whole sign whole rfl signs integer ?_ plain (cut_plain _ mantissa) fun point => ?_
              · refine List.all_eq_true.mpr fun c member => ?_
                rcases kinds c member with minus | digit
                · simp [minus]
                · simp [digit]
              · rcases kinds '.' point with minus | digit
                · cases minus
                · cases digit
          | some digits nonempty all =>
              exact .fraction (other_whole _ digits '.' rfl) plain (cut_plain _ mantissa) (by simp)
      | some e sign' digits letter signs' nonempty all =>
          have other : (e = '-' || e.isDigit) = false := by rcases letter with rfl | rfl <;> rfl
          refine .scientific (other_whole _ _ e other) (List.any_eq_true.mpr ⟨e, by simp, ?_⟩) _ _
            (cut_scientific _ _ e mantissa letter)
          rcases letter with rfl | rfl <;> rfl

theorem stoll_whole (sign digits : Text) (n : Int) (signs : sign = [] ∨ sign = ['-']) (integer : Whole digits)
    (read : stoll (sign ++ digits) = .ok n) : (n : ℚ) = decimal (sign ++ digits) := by
  have all := whole_digits digits integer
  have taken : digits.takeWhile Char.isDigit = digits := List.takeWhile_eq_self_iff.mpr all
  have unsigned : digits.head? ≠ some '-' := fun minus => absurd (all '-' (List.mem_of_mem_head? minus)) (by decide)
  have value : n = if sign = [] then (natural digits : Int) else -natural digits := by
    rcases signs with rfl | rfl
    · simp only [stoll, List.nil_append, unsigned, if_false, taken] at read
      grind [digitsValue, natural]
    · simp only [stoll, List.cons_append, List.nil_append, List.head?_cons, if_true, List.tail_cons, taken] at read
      grind [digitsValue, natural]
  rw [decimal_whole sign digits signs integer, value]

theorem convert_plain (fp : Doubles D) (number : Text) : convert fp ⟨number, none⟩ =
    if '.' ∈ number then fp.stod number >>= fun d => .ok (.floating (fp.mul d (fp.pow10 0)))
    else stoll number >>= fun n => .ok (.integral n) := rfl

theorem convert_exponent (fp : Doubles D) (val kept : Text) : convert fp ⟨val, some kept⟩ =
    stoll kept >>= fun power =>
      if '.' ∈ val then fp.stod val >>= fun d => .ok (.floating (fp.mul d (fp.pow10 power)))
      else stoll val >>= fun n => .ok (.floating (fp.mul (fp.ofInt n) (fp.pow10 power))) := rfl

section

variable (fp : Doubles D) (number : Text) (json : JSON D) (derived : Library.JsonGrammar.Number number)
  (converted : convert fp (cutNumber number) = .ok json)

include derived converted

theorem convert_whole (whole : isWhole number = true) :
    ∃ n : Int, json = .integral n ∧ (n : ℚ) = decimal number ∧ fitsLongLong n = true := by
  cases number_shape number derived with
  | whole sign digits same signs integer _ _ cut pointless =>
      rw [cut, convert_plain, if_neg pointless] at converted
      obtain ⟨n, read, done⟩ := (bind_returns (stoll number) _ json).mp converted
      refine ⟨n, (Except.ok.inj done).symm, ?_, stoll_fits number n read⟩
      subst same
      exact stoll_whole sign digits n signs integer read
  | fraction other => cases other.symm.trans whole
  | scientific other => cases other.symm.trans whole

theorem convert_fraction (other : isWhole number = false) (plain : isScientific number = false) :
    ∃ d, fp.stod number = .ok d ∧ json = .floating (fp.mul d (fp.pow10 0)) := by
  cases number_shape number derived with
  | whole _ _ _ _ _ is => cases other.symm.trans is
  | fraction _ _ cut point =>
      rw [cut, convert_plain, if_pos point] at converted
      obtain ⟨d, read, done⟩ := (bind_returns (fp.stod number) _ json).mp converted
      exact ⟨d, read, (Except.ok.inj done).symm⟩
  | scientific _ is => cases plain.symm.trans is

theorem convert_scientific (is : isScientific number = true) : ∃ d, scaled fp number = .ok d ∧ json = .floating d := by
  cases number_shape number derived with
  | whole _ _ _ _ _ _ plain => cases plain.symm.trans is
  | fraction _ plain => cases plain.symm.trans is
  | scientific _ _ val kept cut =>
      rw [cut, convert_exponent] at converted
      obtain ⟨power, exponent, rest⟩ := (bind_returns (stoll kept) _ json).mp converted
      have unfolded : scaled fp number = stoll kept >>= fun power =>
          (if '.' ∈ val then fp.stod val else (stoll val).map fp.ofInt) >>= fun d =>
            .ok (fp.mul d (fp.pow10 power)) := by
        rw [scaled, cut]
        rfl
      rw [unfolded, exponent]
      by_cases point : '.' ∈ val
      · rw [if_pos point] at rest
        obtain ⟨d, read, done⟩ := (bind_returns (fp.stod val) _ json).mp rest
        refine ⟨fp.mul d (fp.pow10 power), ?_, (Except.ok.inj done).symm⟩
        rw [if_pos point, read]
        rfl
      · rw [if_neg point] at rest
        obtain ⟨n, read, done⟩ := (bind_returns (stoll val) _ json).mp rest
        refine ⟨fp.mul (fp.ofInt n) (fp.pow10 power), ?_, (Except.ok.inj done).symm⟩
        rw [if_neg point, read]
        rfl

end

end TradingFeed.Json
