import TradingFeed.Json.Numbers

set_option autoImplicit false

namespace TradingFeed.Json

variable {D : Type}

-- What JSON::Load puts values together from: a property that all of these keep
-- holds of every value that it returns, at every depth.
structure Builds (fp : Doubles D) (P : JSON D → Prop) : Prop where
  null : P .null
  boolean : ∀ value, P (.boolean value)
  string : ∀ value, P (.string value)
  number : ∀ token value, convert fp token = .ok value → P value
  array : ∀ elements, (∀ value ∈ elements, P value) → P (.array elements)
  empty : P (.object [])
  member : ∀ members key value, P (.object members) → P value → P (.object (putMember (jsonEscape key) value members))

theorem as_text_escaped (json : JSON D) : ∃ text, json.asText = jsonEscape text := by
  cases json with
  | string value => exact ⟨value, rfl⟩
  | _ => exact ⟨[], rfl⟩

section

variable (fp : Doubles D) (P : JSON D → Prop) (builds : Builds fp P) (value : JSON D) (rest : Cursor)

include builds

theorem parse_string_builds (val text : Text) (parsed : parseString val text = .ok (value, rest)) : P value := by
  have string := builds.string
  fun_induction parseString (D := D) val text <;> simp_all <;> grind

theorem parse_number_builds (text : Text) (parsed : parseNumber (convert fp) text = .ok (value, rest)) : P value := by
  obtain ⟨⟨token, cursor⟩, _, behind⟩ := (bind_returns _ _ _).mp parsed
  cases token with
  | none =>
      cases behind
      exact builds.null
  | some token =>
      obtain ⟨number, converted, done⟩ := (bind_returns _ _ _).mp behind
      cases done
      exact builds.number token value converted

theorem parse_plain_builds (fuel : Nat) (cursor : Cursor) (c : Char) (text : Text)
    (consumed : consumeWs cursor = .ok (some (c :: text))) (bracket : c ≠ '[') (brace : c ≠ '\x7b') (quote : c ≠ '"')
    (parsed : parseNext (convert fp) (fuel + 1) cursor = .ok (value, rest)) : P value := by
  rw [parse_next_plain (convert fp) fuel cursor c text consumed bracket brace quote] at parsed
  split at parsed
  · dsimp only [parseBool] at parsed
    split at parsed
    · cases parsed
      exact builds.boolean true
    split at parsed
    · cases parsed
      exact builds.boolean false
    · cases parsed
      exact builds.null
  split at parsed
  · dsimp only [parseNull] at parsed
    split at parsed
    · cases parsed
      exact builds.null
    · cases parsed
      exact builds.null
  split at parsed
  · exact parse_number_builds fp P builds value rest _ parsed
  · cases parsed
    exact builds.null

end

-- The three functions of the parser at once; the loops carry what they have read.
mutual
theorem parse_next_builds (fp : Doubles D) (P : JSON D → Prop) (builds : Builds fp P) (fuel : Nat) (cursor : Cursor)
    (value : JSON D) (rest : Cursor) (parsed : parseNext (convert fp) fuel cursor = .ok (value, rest)) : P value := by
  cases fuel with
  | zero => cases parsed
  | succ fuel =>
      cases consumed : consumeWs cursor with
      | error fault =>
          rw [parseNext, consumed] at parsed
          cases parsed
      | ok here =>
          match here with
          | none =>
              simp only [parseNext, consumed] at parsed
              cases parsed
              exact builds.null
          | some [] =>
              simp only [parseNext, consumed] at parsed
              cases parsed
              exact builds.null
          | some (c :: text) =>
              by_cases bracket : c = '['
              · subst c
                rw [parse_next_array (convert fp) fuel cursor text consumed] at parsed
                obtain ⟨inside, _, behind⟩ := (bind_returns _ _ _).mp parsed
                split at behind
                · cases behind
                  exact builds.array [] fun value member => by cases member
                · exact array_loop_builds fp P builds fuel [] inside value rest (fun value member => by cases member) behind
              · by_cases brace : c = '\x7b'
                · subst c
                  rw [parse_next_object (convert fp) fuel cursor text consumed] at parsed
                  obtain ⟨inside, _, behind⟩ := (bind_returns _ _ _).mp parsed
                  split at behind
                  · cases behind
                    exact builds.empty
                  · exact object_loop_builds fp P builds fuel [] inside value rest builds.empty behind
                · by_cases quote : c = '"'
                  · subst c
                    rw [parse_next_string (convert fp) fuel cursor text consumed] at parsed
                    exact parse_string_builds fp P builds value rest [] text parsed
                  · exact parse_plain_builds fp P builds value rest fuel cursor c text consumed bracket brace quote parsed
theorem array_loop_builds (fp : Doubles D) (P : JSON D → Prop) (builds : Builds fp P) (fuel : Nat)
    (elements : List (JSON D)) (cursor : Cursor) (value : JSON D) (rest : Cursor) (before : ∀ value ∈ elements, P value)
    (parsed : arrayLoop (convert fp) fuel elements cursor = .ok (value, rest)) : P value := by
  cases fuel with
  | zero => cases parsed
  | succ fuel =>
      obtain ⟨⟨element, next⟩, read, parsed⟩ := (bind_returns _ _ _).mp parsed
      obtain ⟨here, _, parsed⟩ := (bind_returns _ _ _).mp parsed
      obtain ⟨c, _, parsed⟩ := (bind_returns _ _ _).mp parsed
      have longer : ∀ value ∈ elements ++ [element], P value := by
        intro value member
        rcases List.mem_append.mp member with early | last
        · exact before value early
        · rw [List.mem_singleton.mp last]
          exact parse_next_builds fp P builds fuel cursor element next read
      split at parsed
      · exact array_loop_builds fp P builds fuel _ _ value rest longer parsed
      split at parsed
      · cases parsed
        exact builds.array _ longer
      · cases parsed
        exact builds.array [] fun value member => by cases member
theorem object_loop_builds (fp : Doubles D) (P : JSON D → Prop) (builds : Builds fp P) (fuel : Nat)
    (members : List (Text × JSON D)) (cursor : Cursor) (value : JSON D) (rest : Cursor) (before : P (.object members))
    (parsed : objectLoop (convert fp) fuel members cursor = .ok (value, rest)) : P value := by
  cases fuel with
  | zero => cases parsed
  | succ fuel =>
      obtain ⟨⟨key, next⟩, _, parsed⟩ := (bind_returns _ _ _).mp parsed
      obtain ⟨here, _, parsed⟩ := (bind_returns _ _ _).mp parsed
      obtain ⟨c, _, parsed⟩ := (bind_returns _ _ _).mp parsed
      split at parsed
      · cases parsed
        exact before
      obtain ⟨start, _, parsed⟩ := (bind_returns _ _ _).mp parsed
      obtain ⟨⟨member, after⟩, read, parsed⟩ := (bind_returns _ _ _).mp parsed
      obtain ⟨last, _, parsed⟩ := (bind_returns _ _ _).mp parsed
      obtain ⟨stop, _, parsed⟩ := (bind_returns _ _ _).mp parsed
      obtain ⟨text, escaped⟩ := as_text_escaped key
      rw [escaped] at parsed
      have more := builds.member members text member before (parse_next_builds fp P builds fuel start member after read)
      split at parsed
      · exact object_loop_builds fp P builds fuel _ _ value rest more parsed
      split at parsed
      · cases parsed
        exact more
      · cases parsed
        exact more
end

theorem load_builds (fp : Doubles D) (P : JSON D → Prop) (builds : Builds fp P) (text : Text) (json : JSON D)
    (loaded : load fp text = .ok json) : P json := by
  dsimp only [load, loadWith] at loaded
  cases parsed : parseNext (convert fp) (2 * text.length + 1) (some text) with
  | error fault =>
      rw [parsed] at loaded
      cases loaded
  | ok result =>
      rw [parsed] at loaded
      cases loaded
      exact parse_next_builds fp P builds _ _ result.1 result.2 parsed

end TradingFeed.Json
