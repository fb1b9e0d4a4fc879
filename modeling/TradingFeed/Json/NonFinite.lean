import TradingFeed.Json.RoundTrip

set_option autoImplicit false

namespace TradingFeed.Json

variable {D : Type}

-- What std::to_string prints for a double that is not finite. None of it is JSON.
def nonFinite : List Text := ["inf".toList, "-inf".toList, "nan".toList, "-nan".toList]

-- A double is finite or has one of these texts, and a long long converts to a finite one.
structure Doubles.Classified (fp : Doubles D) : Prop where
  texts : ∀ d, fp.Finite d ∨ fp.toText d ∈ nonFinite
  whole : ∀ n, fitsLongLong n = true → fp.Finite (fp.ofInt n)

theorem finite_text (fp : Doubles D) (d : D) (finite : fp.Finite d) : fp.toText d ∉ nonFinite := by
  intro member
  have point := (finite_number fp d finite).2
  have pointless : ∀ text ∈ nonFinite, '.' ∉ text := by decide
  exact pointless _ member point

section

variable (conv : NumberToken → Except LoadFault (JSON D))

theorem parse_next_non_finite (fuel : Nat) (text rest : Text) (member : text ∈ nonFinite) :
    ∃ c tail, parseNext conv (fuel + 1) (some (text ++ rest)) = .ok (.null, some (c :: tail)) ∧
      isspace c = false ∧ c ≠ ',' ∧ c ≠ '\x7d' := by
  simp only [nonFinite, List.mem_cons, List.not_mem_nil, or_false] at member
  rcases member with rfl | rfl | rfl | rfl
  · exact ⟨'i', 'n' :: 'f' :: rest, rfl, by decide⟩
  · exact ⟨'n', 'f' :: rest, rfl, by decide⟩
  · exact ⟨'n', 'a' :: 'n' :: rest, rfl, by decide⟩
  · exact ⟨'a', 'n' :: rest, rfl, by decide⟩

theorem object_loop_non_finite (fuel : Nat) (key text rest : Text) (plain : Plain key) (member : text ∈ nonFinite) :
    ∃ cursor, objectLoop conv (fuel + 1 + 1) [] (some ('"' :: (key ++ '"' :: ' ' :: ':' :: ' ' :: (text ++ rest)))) =
      .ok (.object [(key, .null)], cursor) := by
  obtain ⟨c, tail, parsed, solid, comma, brace⟩ := parse_next_non_finite conv fuel text rest member
  have blank : ∀ c ∈ [' '], isspace c = true := by simp [isspace]
  have keyRead := parse_next_text conv fuel key (' ' :: ':' :: ' ' :: (text ++ rest))
  rw [plain] at keyRead
  have valueRead : parseNext conv (fuel + 1) (some ([' '] ++ (text ++ rest))) = .ok (.null, some ([] ++ c :: tail)) := by
    rw [parse_next_ws conv (fuel + 1) [' '] _ blank]
    exact parsed
  have looped := object_loop_step conv (fuel + 1) [] _ _ _ [' '] _ [] tail c blank (by simp) solid keyRead valueRead
  rw [if_neg comma, if_neg brace] at looped
  refine ⟨some (c :: tail), looped.trans ?_⟩
  rw [show (JSON.string key : JSON D).asText = key from plain]
  rfl

end

theorem load_non_finite (fp : Doubles D) (key : Text) (d : D) (entries : List (Text × JSON D)) (plain : Plain key)
    (member : fp.toText d ∈ nonFinite) :
    load fp ((JSON.object ((key, .floating d) :: entries)).dump fp) = .ok (.object [(key, .null)]) := by
  obtain ⟨rest, shape⟩ : ∃ rest, (JSON.object ((key, .floating d) :: entries)).dump fp =
      '\x7b' :: (('\n' :: pad 1) ++ '"' :: (key ++ '"' :: ' ' :: ':' :: ' ' :: (fp.toText d ++ rest))) := by
    refine ⟨(if entries = [] then [] else ',' :: '\n' :: dumpMembers fp 1 entries) ++ '\n' :: (pad 0 ++ ['\x7d']), ?_⟩
    simp only [JSON.dump, dump, dump_member_shape]
    simp
  have blank : ∀ c ∈ '\n' :: pad 1, isspace c = true := List.forall_mem_cons.mpr ⟨rfl, pad_blank 1⟩
  have inside := consume_ws_space ('\n' :: pad 1) (key ++ '"' :: ' ' :: ':' :: ' ' :: (fp.toText d ++ rest)) '"' blank rfl
  rw [load, loadWith, shape]
  obtain ⟨fuel, enough⟩ : ∃ fuel, 2 * ('\x7b' :: (('\n' :: pad 1) ++ '"' :: (key ++ '"' :: ' ' :: ':' :: ' ' ::
      (fp.toText d ++ rest)))).length + 1 = fuel + 1 + 1 + 1 := by
    simp only [List.length_cons]
    exact ⟨_, rfl⟩
  obtain ⟨cursor, looped⟩ := object_loop_non_finite (convert fp) fuel key (fp.toText d) rest plain member
  rw [enough, parse_next_object (convert fp) _ _ _ (consume_ws_here '\x7b' _ rfl), inside]
  simp only [bind, Except.bind]
  rw [if_neg (by simp [charAt]), looped]
  rfl

end TradingFeed.Json
