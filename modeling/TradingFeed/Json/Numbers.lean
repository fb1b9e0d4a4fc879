import TradingFeed.Json.Parse

set_option autoImplicit false

namespace TradingFeed.Json

variable {D : Type}

def Cursor.size : Cursor → Nat
  | some text => text.length
  | none => 0

theorem advance_size (cursor : Cursor) : (advance cursor).size ≤ cursor.size := by
  cases cursor with
  | none => exact Nat.le_refl 0
  | some text =>
      cases text with
      | nil => exact Nat.le_refl 0
      | cons c rest => exact Nat.le_succ rest.length

theorem drop_while_length (p : Char → Bool) (text : Text) : (text.dropWhile p).length ≤ text.length :=
  (List.dropWhile_sublist p).length_le

theorem char_at_error (cursor : Cursor) (fault : LoadFault) (raised : charAt cursor = .error fault) :
    fault = .pastEnd := by
  cases cursor with
  | none => exact (Except.error.inj raised).symm
  | some text => cases text <;> cases raised

theorem consume_ws_error (cursor : Cursor) (fault : LoadFault) (raised : consumeWs cursor = .error fault) :
    fault = .pastEnd := by
  cases cursor with
  | none => exact (Except.error.inj raised).symm
  | some text => cases raised

theorem consume_ws_size (cursor rest : Cursor) (consumed : consumeWs cursor = .ok rest) : rest.size ≤ cursor.size := by
  cases cursor with
  | none => cases consumed
  | some text =>
      rw [← Except.ok.inj consumed]
      exact drop_while_length isspace text

theorem char_at_inside (cursor : Cursor) (c : Char) (here : charAt cursor = .ok c) (inside : c ≠ '\x00') :
    ∃ rest, cursor = some (c :: rest) := by
  cases cursor with
  | none => cases here
  | some text =>
      cases text with
      | nil => exact absurd (Except.ok.inj here).symm inside
      | cons head rest => exact ⟨rest, by rw [Except.ok.inj here]⟩

theorem advance_past (cursor : Cursor) (c : Char) (here : charAt cursor = .ok c) (inside : c ≠ '\x00') :
    (advance cursor).size + 1 = cursor.size := by
  obtain ⟨rest, rfl⟩ := char_at_inside cursor c here inside
  rfl

theorem parse_string_size (val text : Text) (value : JSON D) (rest : Cursor)
    (parsed : parseString val text = .ok (value, rest)) : rest.size ≤ text.length := by
  fun_induction parseString (D := D) val text <;> simp_all [Cursor.size] <;> grind

theorem parse_string_error (val text : Text) (fault : LoadFault)
    (raised : (parseString val text : Except LoadFault (JSON D × Cursor)) = .error fault) : fault = .pastEnd := by
  fun_induction parseString (D := D) val text <;> simp_all

theorem scan_exponent_error (val : Text) (cursor : Cursor) (fault : LoadFault)
    (raised : scanExponent val cursor = .error fault) : fault = .pastEnd := by
  dsimp only [scanExponent] at raised
  cases first : charAt cursor with
  | error cause =>
      rw [first] at raised
      rw [← Except.error.inj raised]
      exact char_at_error cursor cause first
  | ok c =>
      simp only [first, bind, Except.bind] at raised
      split at raised
      · exact (Except.error.inj raised).symm
      · rename_i text _
        cases stop : charAt (some (text.dropWhile Char.isDigit)) with
        | error cause =>
            rw [stop] at raised
            rw [← Except.error.inj raised]
            exact char_at_error _ cause stop
        | ok last =>
            simp only [stop] at raised
            split at raised <;> cases raised

theorem scan_exponent_size (val : Text) (cursor rest : Cursor) (token : Option NumberToken)
    (scanned : scanExponent val cursor = .ok (token, rest)) : rest.size ≤ cursor.size := by
  dsimp only [scanExponent] at scanned
  cases first : charAt cursor with
  | error cause => simp [first, bind, Except.bind] at scanned
  | ok c =>
      simp only [first, bind, Except.bind] at scanned
      have behind : (if c = '-' then advance (advance cursor) else advance cursor).size ≤ cursor.size := by
        split
        · exact Nat.le_trans (advance_size _) (advance_size cursor)
        · exact advance_size cursor
      split at scanned
      · cases scanned
      · rename_i text found
        rw [found] at behind
        have digits : (text.dropWhile Char.isDigit).length ≤ cursor.size :=
          Nat.le_trans (drop_while_length _ text) behind
        cases stop : charAt (some (text.dropWhile Char.isDigit)) with
        | error cause => simp [stop] at scanned
        | ok last =>
            simp only [stop] at scanned
            split at scanned
            · cases scanned
              exact digits
            · cases scanned
              exact Nat.le_trans (advance_size _) digits

theorem scan_number_error (text : Text) (fault : LoadFault) (raised : scanNumber text = .error fault) :
    fault = .pastEnd := by
  dsimp only [scanNumber] at raised
  cases first : charAt (some (text.dropWhile numberChar)) with
  | error cause =>
      simp only [first, bind, Except.bind] at raised
      rw [← Except.error.inj raised]
      exact char_at_error _ cause first
  | ok c =>
      simp only [first, bind, Except.bind] at raised
      split at raised
      · exact scan_exponent_error _ _ fault raised
      · split at raised <;> cases raised

theorem scan_number_size (text : Text) (rest : Cursor) (token : Option NumberToken)
    (scanned : scanNumber text = .ok (token, rest)) : rest.size ≤ text.length := by
  dsimp only [scanNumber] at scanned
  have number : (text.dropWhile numberChar).length ≤ text.length := drop_while_length numberChar text
  have behind : (advance (some (text.dropWhile numberChar))).size ≤ text.length :=
    Nat.le_trans (advance_size _) number
  cases first : charAt (some (text.dropWhile numberChar)) with
  | error cause => simp [first, bind, Except.bind] at scanned
  | ok c =>
      simp only [first, bind, Except.bind] at scanned
      split at scanned
      · exact Nat.le_trans (scan_exponent_size _ _ rest token scanned) behind
      · split at scanned
        · cases scanned
          exact number
        · cases scanned
          exact behind

-- A conversion that raises on one token only: Load with it raises exactly when
-- it gets to convert that token.
def probe (token : NumberToken) (found : NumberToken) : Except LoadFault (JSON Unit) :=
  if found = token then .error .invalidArgument else .ok .null

def Reaches (text : Text) (token : NumberToken) : Prop := loadWith (probe token) text = .error .invalidArgument

-- A parse beside the same parse with every probe. The control flow of the parser
-- never looks at a converted number, so the two stay together up to the first
-- conversion that raises.
def Shadows (conv : NumberToken → Except LoadFault (JSON D)) (bound : Nat) (parse : Except LoadFault (JSON D × Cursor))
    (probes : NumberToken → Except LoadFault (JSON Unit × Cursor)) : Prop :=
  match parse with
  | .ok (_, rest) =>
      rest.size ≤ bound ∧ ∀ token, (probes token = .error .invalidArgument ∧ ∃ number, conv token = .ok number) ∨
        ∃ value, probes token = .ok (value, rest)
  | .error fault => fault = .pastEnd ∨ ∃ token, conv token = .error fault ∧ probes token = .error .invalidArgument

section Shadowing

variable (conv : NumberToken → Except LoadFault (JSON D)) (bound : Nat)

theorem shadows_weaken (inner : Nat) (parse : Except LoadFault (JSON D × Cursor))
    (probes : NumberToken → Except LoadFault (JSON Unit × Cursor)) (shadows : Shadows conv inner parse probes)
    (within : inner ≤ bound) : Shadows conv bound parse probes := by
  cases parse with
  | error fault => exact shadows
  | ok result => exact ⟨Nat.le_trans shadows.1 within, shadows.2⟩

theorem shadows_ok (value : JSON D) (rest : Cursor) (values : NumberToken → JSON Unit) (within : rest.size ≤ bound) :
    Shadows conv bound (.ok (value, rest)) fun token => .ok (values token, rest) :=
  ⟨within, fun token => Or.inr ⟨values token, rfl⟩⟩

theorem shadows_text {γ : Type} (read : Except LoadFault γ) (next : γ → Except LoadFault (JSON D × Cursor))
    (probed : NumberToken → γ → Except LoadFault (JSON Unit × Cursor))
    (fails : ∀ fault, read = .error fault → fault = .pastEnd)
    (then_ : ∀ found, read = .ok found → Shadows conv bound (next found) fun token => probed token found) :
    Shadows conv bound (read >>= next) fun token => read >>= probed token := by
  cases seen : read with
  | error fault => exact Or.inl (fails fault seen)
  | ok found => exact then_ found seen

theorem shadows_bind (inner : Nat) (parse : Except LoadFault (JSON D × Cursor))
    (probes : NumberToken → Except LoadFault (JSON Unit × Cursor))
    (next : JSON D × Cursor → Except LoadFault (JSON D × Cursor))
    (probed : NumberToken → JSON Unit × Cursor → Except LoadFault (JSON Unit × Cursor))
    (first : Shadows conv inner parse probes)
    (then_ : ∀ value rest (values : NumberToken → JSON Unit), rest.size ≤ inner →
      Shadows conv bound (next (value, rest)) fun token => probed token (values token, rest)) :
    Shadows conv bound (parse >>= next) fun token => probes token >>= probed token := by
  cases parse with
  | error fault =>
      rcases first with past | ⟨token, raises, raised⟩
      · exact Or.inl past
      · refine Or.inr ⟨token, raises, ?_⟩
        dsimp only
        rw [raised]
        rfl
  | ok result =>
      obtain ⟨value, rest⟩ := result
      obtain ⟨within, tokens⟩ := first
      let values : NumberToken → JSON Unit := fun token =>
        match probes token with
        | .ok (probeValue, _) => probeValue
        | .error _ => .null
      have later := then_ value rest values within
      -- Where a probe has raised, the parse converted its token without harm.
      have either : ∀ token, ((probes token >>= probed token) = .error .invalidArgument ∧
          ∃ number, conv token = .ok number) ∨ (probes token >>= probed token) = probed token (values token, rest) := by
        intro token
        rcases tokens token with ⟨raised, converts⟩ | ⟨probeValue, parsed⟩
        · exact Or.inl ⟨by rw [raised]; rfl, converts⟩
        · exact Or.inr (by simp only [values, parsed]; rfl)
      change Shadows conv bound (next (value, rest)) _
      cases after : next (value, rest) with
      | error fault =>
          rw [after] at later
          rcases later with past | ⟨token, raises, raised⟩
          · exact Or.inl past
          · refine Or.inr ⟨token, raises, ?_⟩
            rcases either token with here | same
            · exact here.1
            · exact same.trans raised
      | ok result =>
          obtain ⟨last, final⟩ := result
          rw [after] at later
          refine ⟨later.1, fun token => ?_⟩
          rcases either token with here | same
          · exact Or.inl here
          · dsimp only
            rw [same]
            exact later.2 token

theorem parse_number_shadows (text : Text) (within : text.length ≤ bound) :
    Shadows conv bound (parseNumber conv text) fun token => parseNumber (probe token) text := by
  dsimp only [parseNumber]
  apply shadows_text conv bound _ _ _ (scan_number_error text)
  rintro ⟨token, rest⟩ scanned
  have shorter := Nat.le_trans (scan_number_size text rest token scanned) within
  cases token with
  | none => exact shadows_ok conv bound _ rest (fun _ => .null) shorter
  | some found =>
      cases converted : conv found with
      | error fault =>
          simp only [converted]
          exact Or.inr ⟨found, converted, by simp [probe, bind, Except.bind]⟩
      | ok number =>
          simp only [converted]
          refine ⟨shorter, fun token => ?_⟩
          by_cases same : found = token
          · subst token
            exact Or.inl ⟨by simp [probe, bind, Except.bind], number, converted⟩
          · exact Or.inr ⟨.null, by simp [probe, bind, Except.bind, same]⟩

theorem parse_bool_shadows (text : Text) (within : text.length ≤ bound) :
    Shadows conv bound (.ok (parseBool text)) fun _ => .ok (parseBool text) := by
  have shorter (n : Nat) : (text.drop n).length ≤ bound := Nat.le_trans (List.drop_sublist n text).length_le within
  dsimp only [parseBool]
  by_cases isTrue : text.take 4 = "true".toList
  · simp only [if_pos isTrue]
    exact shadows_ok conv bound _ _ (fun _ => .boolean true) (shorter 4)
  · simp only [if_neg isTrue]
    by_cases isFalse : text.take 5 = "false".toList
    · simp only [if_pos isFalse]
      exact shadows_ok conv bound _ _ (fun _ => .boolean false) (shorter 5)
    · simp only [if_neg isFalse]
      exact shadows_ok conv bound _ _ (fun _ => .null) within

theorem parse_null_shadows (text : Text) (within : text.length ≤ bound) :
    Shadows conv bound (.ok (parseNull text)) fun _ => .ok (parseNull text) := by
  have shorter : (text.drop 4).length ≤ bound := Nat.le_trans (List.drop_sublist 4 text).length_le within
  dsimp only [parseNull]
  by_cases isNull : text.take 4 = "null".toList
  · simp only [if_pos isNull]
    exact shadows_ok conv bound _ _ (fun _ => .null) shorter
  · simp only [if_neg isNull]
    exact shadows_ok conv bound _ _ (fun _ => .null) within

theorem parse_string_rest (val text : Text) (value : JSON D) (rest : Cursor)
    (parsed : parseString val text = .ok (value, rest)) :
    ∃ probeValue : JSON Unit, parseString val text = .ok (probeValue, rest) := by
  fun_induction parseString (D := D) val text with
  | case12 val a b c d rest_ digits =>
      cases parsed
      exact ⟨.string [], by rw [parseString, if_neg digits]⟩
  | _ => simp_all [parseString]

theorem parse_string_shadows (text : Text) (within : text.length ≤ bound) :
    Shadows conv bound (parseString [] text) fun _ => parseString [] text := by
  cases parsed : (parseString [] text : Except LoadFault (JSON D × Cursor)) with
  | error fault => exact Or.inl (parse_string_error [] text fault parsed)
  | ok result =>
      obtain ⟨value, rest⟩ := result
      exact ⟨Nat.le_trans (parse_string_size [] text value rest parsed) within,
        fun _ => Or.inr (parse_string_rest [] text value rest parsed)⟩

theorem parse_next_plain (fuel : Nat) (cursor : Cursor) (c : Char) (rest : Text)
    (consumed : consumeWs cursor = .ok (some (c :: rest))) (bracket : c ≠ '[') (brace : c ≠ '{') (quote : c ≠ '"') :
    parseNext conv (fuel + 1) cursor =
      if c = 't' ∨ c = 'f' then .ok (parseBool (c :: rest))
      else if c = 'n' then .ok (parseNull (c :: rest))
      else if c.isDigit ∨ c = '-' then parseNumber conv (c :: rest)
      else .ok (.null, some (c :: rest)) := by
  rw [parseNext, consumed]
  dsimp only [bind, Except.bind]
  split <;> simp_all

theorem parse_next_array (fuel : Nat) (cursor : Cursor) (rest : Text)
    (consumed : consumeWs cursor = .ok (some ('[' :: rest))) :
    parseNext conv (fuel + 1) cursor = consumeWs (some rest) >>= fun inside =>
      if charAt inside = .ok ']' then .ok (.array [], advance inside) else arrayLoop conv fuel [] inside := by
  rw [parseNext, consumed]
  cases behind : consumeWs (some rest) with
  | error fault => simp only [behind, bind, Except.bind]
  | ok inside =>
      simp only [behind, bind, Except.bind]
      split
      · rfl
      · rename_i filled
        rw [if_neg]
        intro closing
        obtain ⟨tail, rfl⟩ := char_at_inside inside ']' closing (by decide)
        exact filled tail rfl

theorem parse_next_object (fuel : Nat) (cursor : Cursor) (rest : Text)
    (consumed : consumeWs cursor = .ok (some ('\x7b' :: rest))) :
    parseNext conv (fuel + 1) cursor = consumeWs (some rest) >>= fun inside =>
      if charAt inside = .ok '\x7d' then .ok (.object [], advance inside) else objectLoop conv fuel [] inside := by
  rw [parseNext, consumed]
  cases behind : consumeWs (some rest) with
  | error fault => simp only [behind, bind, Except.bind]
  | ok inside =>
      simp only [behind, bind, Except.bind]
      split
      · rfl
      · rename_i filled
        rw [if_neg]
        intro closing
        obtain ⟨tail, rfl⟩ := char_at_inside inside '\x7d' closing (by decide)
        exact filled tail rfl

theorem parse_next_string (fuel : Nat) (cursor : Cursor) (rest : Text)
    (consumed : consumeWs cursor = .ok (some ('"' :: rest))) :
    parseNext conv (fuel + 1) cursor = parseString [] rest := by
  rw [parseNext, consumed]
  rfl

theorem plain_shadows (fuel : Nat) (cursor : Cursor) (c : Char) (rest : Text)
    (consumed : consumeWs cursor = .ok (some (c :: rest))) (bracket : c ≠ '[') (brace : c ≠ '\x7b') (quote : c ≠ '"') :
    Shadows conv cursor.size (parseNext conv (fuel + 1) cursor) fun token =>
      parseNext (probe token) (fuel + 1) cursor := by
  have within : (c :: rest).length ≤ cursor.size := consume_ws_size cursor _ consumed
  simp only [parse_next_plain _ fuel cursor c rest consumed bracket brace quote]
  by_cases bool : c = 't' ∨ c = 'f'
  · simp only [if_pos bool]
    exact parse_bool_shadows conv _ (c :: rest) within
  · simp only [if_neg bool]
    by_cases null : c = 'n'
    · simp only [if_pos null]
      exact parse_null_shadows conv _ (c :: rest) within
    · simp only [if_neg null]
      by_cases number : c.isDigit = true ∨ c = '-'
      · simp only [if_pos number]
        exact parse_number_shadows conv _ (c :: rest) within
      · simp only [if_neg number]
        exact shadows_ok conv _ _ _ (fun _ => .null) within

-- Fuel: a value costs one unit more than twice the characters left, a loop two.
mutual
theorem parse_next_shadows (fuel : Nat) (cursor : Cursor) (enough : 2 * cursor.size + 1 ≤ fuel) :
    Shadows conv cursor.size (parseNext conv fuel cursor) fun token => parseNext (probe token) fuel cursor := by
  cases fuel with
  | zero => omega
  | succ fuel =>
      cases consumed : consumeWs cursor with
      | error fault =>
          rw [parseNext, consumed]
          exact Or.inl (consume_ws_error cursor fault consumed)
      | ok here =>
          have left := consume_ws_size cursor here consumed
          match here with
          | none =>
              simp only [parseNext, consumed]
              exact shadows_ok conv _ _ _ (fun _ => .null) left
          | some [] =>
              simp only [parseNext, consumed]
              exact shadows_ok conv _ _ _ (fun _ => .null) left
          | some (c :: rest) =>
              have inside : rest.length + 1 ≤ cursor.size := left
              by_cases bracket : c = '['
              · subst c
                simp only [parse_next_array _ fuel cursor rest consumed]
                refine shadows_text conv _ _ _ _ (consume_ws_error (some rest)) fun behind skipped => ?_
                have fewer : behind.size ≤ rest.length := consume_ws_size (some rest) behind skipped
                by_cases closing : charAt behind = .ok ']'
                · simp only [if_pos closing]
                  exact shadows_ok conv _ _ _ (fun _ => .array []) (Nat.le_trans (advance_size behind) (by omega))
                · simp only [if_neg closing]
                  exact shadows_weaken conv _ _ _ _ (array_loop_shadows fuel [] (fun _ => []) behind (by omega))
                    (by omega)
              · by_cases brace : c = '\x7b'
                · subst c
                  simp only [parse_next_object _ fuel cursor rest consumed]
                  refine shadows_text conv _ _ _ _ (consume_ws_error (some rest)) fun behind skipped => ?_
                  have fewer : behind.size ≤ rest.length := consume_ws_size (some rest) behind skipped
                  by_cases closing : charAt behind = .ok '\x7d'
                  · simp only [if_pos closing]
                    exact shadows_ok conv _ _ _ (fun _ => .object []) (Nat.le_trans (advance_size behind) (by omega))
                  · simp only [if_neg closing]
                    exact shadows_weaken conv _ _ _ _ (object_loop_shadows fuel [] (fun _ => []) behind (by omega))
                      (by omega)
                · by_cases quote : c = '"'
                  · subst c
                    simp only [parse_next_string _ fuel cursor rest consumed]
                    exact parse_string_shadows conv _ rest (by omega)
                  · exact plain_shadows conv fuel cursor c rest consumed bracket brace quote
theorem array_loop_shadows (fuel : Nat) (elements : List (JSON D)) (probed : NumberToken → List (JSON Unit))
    (cursor : Cursor) (enough : 2 * cursor.size + 2 ≤ fuel) :
    Shadows conv cursor.size (arrayLoop conv fuel elements cursor) fun token =>
      arrayLoop (probe token) fuel (probed token) cursor := by
  cases fuel with
  | zero => omega
  | succ fuel =>
      dsimp only [arrayLoop]
      apply shadows_bind conv _ cursor.size _ _ _ _ (parse_next_shadows fuel cursor (by omega))
      intro value rest values within
      refine shadows_text conv _ _ _ _ (consume_ws_error rest) fun here consumed => ?_
      have left := consume_ws_size rest here consumed
      refine shadows_text conv _ _ _ _ (char_at_error here) fun c found => ?_
      by_cases comma : c = ','
      · have next := advance_past here c found (by rw [comma]; decide)
        simp only [if_pos comma]
        exact shadows_weaken conv _ _ _ _
          (array_loop_shadows fuel (elements ++ [value]) (fun token => probed token ++ [values token]) (advance here)
            (by omega)) (by omega)
      · simp only [if_neg comma]
        by_cases closing : c = ']'
        · simp only [if_pos closing]
          exact shadows_ok conv _ _ _ (fun token => .array (probed token ++ [values token]))
            (Nat.le_trans (advance_size here) (by omega))
        · simp only [if_neg closing]
          exact shadows_ok conv _ _ _ (fun _ => .array []) (by omega)
theorem object_loop_shadows (fuel : Nat) (members : List (Text × JSON D))
    (probed : NumberToken → List (Text × JSON Unit)) (cursor : Cursor) (enough : 2 * cursor.size + 2 ≤ fuel) :
    Shadows conv cursor.size (objectLoop conv fuel members cursor) fun token =>
      objectLoop (probe token) fuel (probed token) cursor := by
  cases fuel with
  | zero => omega
  | succ fuel =>
      dsimp only [objectLoop]
      apply shadows_bind conv _ cursor.size _ _ _ _ (parse_next_shadows fuel cursor (by omega))
      intro key rest keys within
      refine shadows_text conv _ _ _ _ (consume_ws_error rest) fun here consumed => ?_
      have left := consume_ws_size rest here consumed
      refine shadows_text conv _ _ _ _ (char_at_error here) fun c found => ?_
      by_cases colon : c = ':'
      · have next := advance_past here c found (by rw [colon]; decide)
        simp only [ne_eq, colon, not_true_eq_false, if_false]
        refine shadows_text conv _ _ _ _ (consume_ws_error (advance here)) fun start skipped => ?_
        have shorter := consume_ws_size (advance here) start skipped
        apply shadows_bind conv _ start.size _ _ _ _ (parse_next_shadows fuel start (by omega))
        intro value after values behind
        refine shadows_text conv _ _ _ _ (consume_ws_error after) fun last ended => ?_
        have fewer := consume_ws_size after last ended
        refine shadows_text conv _ _ _ _ (char_at_error last) fun stop seen => ?_
        by_cases comma : stop = ','
        · have again := advance_past last stop seen (by rw [comma]; decide)
          simp only [if_pos comma]
          exact shadows_weaken conv _ _ _ _
            (object_loop_shadows fuel (putMember key.asText value members)
              (fun token => putMember (keys token).asText (values token) (probed token)) (advance last) (by omega))
            (by omega)
        · simp only [if_neg comma]
          by_cases closing : stop = '\x7d'
          · simp only [if_pos closing]
            exact shadows_ok conv _ _ _
              (fun token => .object (putMember (keys token).asText (values token) (probed token)))
              (Nat.le_trans (advance_size last) (by omega))
          · simp only [if_neg closing]
            exact shadows_ok conv _ _ _
              (fun token => .object (putMember (keys token).asText (values token) (probed token))) (by omega)
      · simp only [ne_eq, colon, not_false_eq_true, if_true]
        exact shadows_ok conv _ _ _ (fun token => .object (probed token)) (by omega)
end

end Shadowing

theorem bind_raises {α β : Type} (first : Except LoadFault α) (next : α → Except LoadFault β) (fault : LoadFault)
    (raised : (first >>= next) = .error fault) :
    first = .error fault ∨ ∃ value, first = .ok value ∧ next value = .error fault := by
  cases first with
  | error cause => exact Or.inl (Except.error.inj raised ▸ rfl)
  | ok value => exact Or.inr ⟨value, rfl, raised⟩

theorem stoll_raises (val : Text) (fault : LoadFault) (raised : stoll val = .error fault) :
    fault = .invalidArgument ∨ fault = .outOfRange := by
  dsimp only [stoll] at raised
  grind

theorem convert_raises (fp : Doubles D) (token : NumberToken) (fault : LoadFault)
    (raised : convert fp token = .error fault) : fault = .invalidArgument ∨ fault = .outOfRange := by
  obtain ⟨val, exponent⟩ := token
  have body (exp : Int) (raised : (if '.' ∈ val then
      fp.stod val >>= fun d => .ok (.floating (fp.mul d (fp.pow10 exp)))
    else stoll val >>= fun n => .ok (if exponent.isSome then .floating (fp.mul (fp.ofInt n) (fp.pow10 exp))
      else .integral n) : Except LoadFault (JSON D)) = .error fault) : fault = .invalidArgument ∨ fault = .outOfRange := by
    by_cases decimal : '.' ∈ val
    · rw [if_pos decimal] at raised
      rcases bind_raises _ _ fault raised with stod | ⟨d, _, done⟩
      · exact fp.stod_raises val fault stod
      · cases done
    · rw [if_neg decimal] at raised
      rcases bind_raises _ _ fault raised with whole | ⟨n, _, done⟩
      · exact stoll_raises val fault whole
      · cases done
  cases exponent with
  | none => exact body 0 raised
  | some expStr =>
      rcases bind_raises (stoll expStr) _ fault raised with bad | ⟨exp, _, rest⟩
      · exact stoll_raises expStr fault bad
      · exact body exp rest

-- The exponent is the text of a long, and so is the number unless it has a
-- decimal point: then it is for std::stod to say.
def NumberToken.Converts (fp : Doubles D) (token : NumberToken) : Prop :=
  (∀ expStr, token.exponent = some expStr → ∃ exp, stoll expStr = .ok exp) ∧
    if '.' ∈ token.val then ∃ d, fp.stod token.val = .ok d else ∃ n, stoll token.val = .ok n

theorem bind_returns {α β : Type} (first : Except LoadFault α) (next : α → Except LoadFault β) (value : β) :
    (first >>= next) = .ok value ↔ ∃ found, first = .ok found ∧ next found = .ok value := by
  cases first with
  | error fault => simp [bind, Except.bind]
  | ok found => simp [bind, Except.bind]

theorem convert_ok_iff (fp : Doubles D) (token : NumberToken) :
    (∃ number, convert fp token = .ok number) ↔ token.Converts fp := by
  obtain ⟨val, exponent⟩ := token
  have body (exp : Int) : (∃ number, (if '.' ∈ val then
      fp.stod val >>= fun d => .ok (.floating (fp.mul d (fp.pow10 exp)))
    else stoll val >>= fun n => .ok (if exponent.isSome then .floating (fp.mul (fp.ofInt n) (fp.pow10 exp))
      else .integral n) : Except LoadFault (JSON D)) = .ok number) ↔
      if '.' ∈ val then ∃ d, fp.stod val = .ok d else ∃ n, stoll val = .ok n := by
    by_cases decimal : '.' ∈ val
    · simp only [if_pos decimal, bind_returns]
      exact ⟨fun ⟨_, d, found, _⟩ => ⟨d, found⟩, fun ⟨d, found⟩ => ⟨_, d, found, rfl⟩⟩
    · simp only [if_neg decimal, bind_returns]
      exact ⟨fun ⟨_, n, found, _⟩ => ⟨n, found⟩, fun ⟨n, found⟩ => ⟨_, n, found, rfl⟩⟩
  cases exponent with
  | none =>
      refine (body 0).trans ⟨fun number => ⟨fun _ absent => ?_, number⟩, fun converts => converts.2⟩
      cases absent
  | some expStr =>
      constructor
      · rintro ⟨number, converted⟩
        obtain ⟨exp, found, rest⟩ := (bind_returns (stoll expStr) _ number).mp converted
        refine ⟨fun other same => ?_, (body exp).mp ⟨number, rest⟩⟩
        cases same
        exact ⟨exp, found⟩
      · rintro ⟨exponents, rest⟩
        obtain ⟨exp, found⟩ := exponents expStr rfl
        obtain ⟨number, converted⟩ := (body exp).mpr rest
        exact ⟨number, (bind_returns (stoll expStr) _ number).mpr ⟨exp, found, converted⟩⟩

theorem load_outcome (fp : Doubles D) (text : Text) (fault : LoadFault) (raised : load fp text = .error fault) :
    fault = .pastEnd ∨ ∃ token, Reaches text token ∧ convert fp token = .error fault := by
  have shadows := parse_next_shadows (convert fp) (2 * text.length + 1) (some text) (Nat.le_refl _)
  dsimp only [load, loadWith] at raised
  cases parsed : parseNext (convert fp) (2 * text.length + 1) (some text) with
  | ok result =>
      rw [parsed] at raised
      cases raised
  | error cause =>
      rw [parsed] at raised shadows
      cases raised
      rcases shadows with past | ⟨token, raises, reached⟩
      · exact Or.inl past
      · refine Or.inr ⟨token, ?_, raises⟩
        dsimp only [Reaches, loadWith]
        dsimp only at reached
        rw [reached]
        rfl

theorem load_converts (fp : Doubles D) (text : Text) (json : JSON D) (loaded : load fp text = .ok json)
    (token : NumberToken) (reached : Reaches text token) : token.Converts fp := by
  have shadows := parse_next_shadows (convert fp) (2 * text.length + 1) (some text) (Nat.le_refl _)
  dsimp only [load, loadWith] at loaded
  dsimp only [Reaches, loadWith] at reached
  cases parsed : parseNext (convert fp) (2 * text.length + 1) (some text) with
  | error fault =>
      rw [parsed] at loaded
      cases loaded
  | ok result =>
      rw [parsed] at shadows
      rcases shadows.2 token with ⟨_, converts⟩ | ⟨value, same⟩
      · exact (convert_ok_iff fp token).mp converts
      · dsimp only at same
        rw [same] at reached
        cases reached

theorem load_terminates (fp : Doubles D) (text : Text) : load fp text ≠ .error .outOfFuel := by
  intro raised
  rcases load_outcome fp text _ raised with past | ⟨token, _, raises⟩
  · cases past
  · rcases convert_raises fp token _ raises with invalid | range
    · cases invalid
    · cases range

theorem load_ok_iff (fp : Doubles D) (text : Text) (inside : load fp text ≠ .error .pastEnd) :
    (∃ json, load fp text = .ok json) ↔ ∀ token, Reaches text token → token.Converts fp := by
  constructor
  · rintro ⟨json, loaded⟩
    exact load_converts fp text json loaded
  · intro converts
    cases loaded : load fp text with
    | ok json => exact ⟨json, rfl⟩
    | error fault =>
        rcases load_outcome fp text fault loaded with past | ⟨token, reached, raises⟩
        · exact absurd (by rw [loaded, past]) inside
        · obtain ⟨number, converted⟩ := (convert_ok_iff fp token).mpr (converts token reached)
          rw [raises] at converted
          cases converted

end TradingFeed.Json
