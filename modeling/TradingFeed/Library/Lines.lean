import Mathlib.Data.List.TakeWhile

set_option autoImplicit false

namespace Library

variable {α σ : Type}

-- An input stream: what is left to extract, and the state bits that getline sets.
structure InputStream (α : Type) where
  rest : List α
  eofbit : Bool
  failbit : Bool

def InputStream.reading (text : List α) : InputStream α := ⟨text, false, false⟩

@[simp]
theorem reading_failbit (text : List α) : (InputStream.reading text).failbit = false := rfl

variable [DecidableEq α]

-- std::getline. Only a good stream is read and has the line emptied. The delimiter
-- is extracted and not stored; a stream that ends before it gets its eofbit, and
-- its failbit too where nothing was extracted.
def getline (delim : α) (stream : InputStream α) (line : List α) : InputStream α × List α :=
  if stream.eofbit ∨ stream.failbit then ({ stream with failbit := true }, line)
  else
    let extracted := stream.rest.takeWhile (· ≠ delim)
    match stream.rest.dropWhile (· ≠ delim) with
    | [] => (⟨[], true, stream.rest.isEmpty⟩, extracted)
    | _ :: rest => (⟨rest, false, false⟩, extracted)

theorem take_before (delim : α) (line : List α) (plain : delim ∉ line) : ∀ x ∈ line, (decide (x ≠ delim)) = true :=
  fun _ member => decide_eq_true fun same => plain (same ▸ member)

theorem getline_delimited (delim : α) (line rest old : List α) (plain : delim ∉ line) :
    getline delim (.reading (line ++ delim :: rest)) old = (.reading rest, line) := by
  have before := take_before delim line plain
  have taken : (line ++ delim :: rest).takeWhile (· ≠ delim) = line := by
    rw [List.takeWhile_append_of_pos before, List.takeWhile_cons_of_neg (by simp), List.append_nil]
  have dropped : (line ++ delim :: rest).dropWhile (· ≠ delim) = delim :: rest := by
    rw [List.dropWhile_append_of_pos before, List.dropWhile_cons_of_neg (by simp)]
  rw [getline, if_neg (by simp [InputStream.reading])]
  simp only [InputStream.reading, taken, dropped]

theorem getline_last (delim : α) (line old : List α) (plain : delim ∉ line) :
    getline delim (.reading line) old = (⟨[], true, line.isEmpty⟩, line) := by
  have before := take_before delim line plain
  have taken : line.takeWhile (· ≠ delim) = line := List.takeWhile_eq_self_iff.mpr before
  have dropped : line.dropWhile (· ≠ delim) = [] := List.dropWhile_eq_nil_iff.mpr before
  rw [getline, if_neg (by simp [InputStream.reading])]
  simp only [InputStream.reading, taken, dropped]

theorem getline_ended (delim : α) (stream : InputStream α) (old : List α) (ended : stream.eofbit = true) :
    getline delim stream old = ({ stream with failbit := true }, old) := by
  rw [getline, if_pos (Or.inl ended)]

theorem getline_shorter (delim : α) (stream : InputStream α) (old : List α)
    (got : ¬(getline delim stream old).1.failbit = true) :
    (getline delim stream old).1.rest.length < stream.rest.length := by
  by_cases good : stream.eofbit ∨ stream.failbit
  · rw [getline, if_pos good] at got
    exact absurd rfl got
  · rw [getline, if_neg good] at got ⊢
    dsimp only at got ⊢
    have shorter := (List.dropWhile_suffix (l := stream.rest) fun x => decide (x ≠ delim)).length_le
    cases behind : stream.rest.dropWhile fun x => decide (x ≠ delim) with
    | nil =>
        rw [behind] at got
        simp only [List.isEmpty_iff] at got
        exact List.length_pos_iff.mpr got
    | cons x rest =>
        rw [behind, List.length_cons] at shorter
        exact shorter

-- while (std::getline(stream, line)) body
def whileGetline (delim : α) (body : σ → List α → σ) (stream : InputStream α) (line : List α) (state : σ) : σ :=
  if _failed : (getline delim stream line).1.failbit = true then state
  else
    whileGetline delim body (getline delim stream line).1 (getline delim stream line).2
      (body state (getline delim stream line).2)
termination_by stream.rest.length
decreasing_by exact getline_shorter delim stream line _failed

-- A text is one line without an end, or a line with its end in front of a text.
@[elab_as_elim]
theorem lines_induction (delim : α) {motive : List α → Prop} (last : ∀ line, delim ∉ line → motive line)
    (more : ∀ line rest, delim ∉ line → motive rest → motive (line ++ delim :: rest)) (text : List α) : motive text := by
  by_cases ends : delim ∈ text
  · obtain ⟨line, rest, shape, plain⟩ := List.eq_append_cons_of_mem ends
    have shorter : rest.length < text.length := by
      rw [shape, List.length_append, List.length_cons]
      omega
    rw [shape]
    exact more line rest plain (lines_induction delim last more rest)
  · exact last text ends
termination_by text.length

section

variable (delim : α) (body : σ → List α → σ)

theorem while_getline_delimited (state : σ) (line rest old : List α) (plain : delim ∉ line) :
    whileGetline delim body (.reading (line ++ delim :: rest)) old state =
      whileGetline delim body (.reading rest) line (body state line) := by
  have got := getline_delimited delim line rest old plain
  rw [whileGetline, dif_neg (by rw [got]; exact Bool.false_ne_true), got]

theorem while_getline_last (state : σ) (line old : List α) (filled : line ≠ []) (plain : delim ∉ line) :
    whileGetline delim body (.reading line) old state = body state line := by
  have got := getline_last delim line old plain
  have ended := getline_ended delim ⟨[], true, line.isEmpty⟩ line rfl
  rw [whileGetline, dif_neg (by rw [got]; simpa using filled), got, whileGetline, dif_pos (by rw [ended])]

theorem while_getline_end (state : σ) (old : List α) : whileGetline delim body (.reading []) old state = state := by
  have got := getline_last delim [] old List.not_mem_nil
  rw [whileGetline, dif_pos (by rw [got]; rfl)]

theorem while_getline_split (skips : ∀ state, body state [] = state) (state : σ) (text old : List α) :
    whileGetline delim body (.reading text) old state = (text.splitOn delim).foldl body state := by
  induction text using lines_induction delim generalizing state old with
  | last line plain =>
      rw [List.splitOn_eq_singleton plain, List.foldl_cons, List.foldl_nil]
      by_cases filled : line = []
      · rw [filled, while_getline_end, skips]
      · exact while_getline_last delim body state line old filled plain
  | more line rest plain ih =>
      rw [while_getline_delimited delim body state line rest old plain, List.splitOn_append_cons_self_of_not_mem plain,
        List.foldl_cons]
      exact ih (body state line) line

end

theorem split_plain (delim : α) (text line : List α) (member : line ∈ text.splitOn delim) : delim ∉ line := by
  induction text using lines_induction delim with
  | last only plain =>
      rw [List.splitOn_eq_singleton plain] at member
      rw [List.mem_singleton.mp member]
      exact plain
  | more first rest plain ih =>
      rw [List.splitOn_append_cons_self_of_not_mem plain] at member
      cases List.mem_cons.mp member with
      | inl same =>
          rw [same]
          exact plain
      | inr later => exact ih later

end Library
