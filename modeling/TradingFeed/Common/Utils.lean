import Std.Data.ExtTreeMap
import TradingFeed.Json.Parse
import TradingFeed.Library.Lines
import TradingFeed.Library.Registers

set_option autoImplicit false

namespace TradingFeed.Common

open TradingFeed.Json Library

def envLine (res : Std.ExtTreeMap Text Text) (line : Text) : Std.ExtTreeMap Text Text :=
  if line.head? = some '#' ∨ line = [] then res
  else
    let key := getline '=' (.reading line) []
    if key.1.failbit then res
    else
      let value := getline '\n' key.1 []
      if value.1.failbit then res else res.insert key.2 value.2

-- `none` is a file that can not be opened.
def parseEnvFile : Option Text → Std.ExtTreeMap Text Text
  | none => ∅
  | some envFile => whileGetline '\n' envLine (.reading envFile) [] ∅

structure Assigns (line key value : Text) : Prop where
  filled : line ≠ []
  code : line.head? ≠ some '#'
  split : line = key ++ '=' :: value
  first : '=' ∉ key
  valued : value ≠ []

theorem assigns_unique (line key value other last : Text) (one : Assigns line key value) (two : Assigns line other last) :
    key = other ∧ value = last := by
  have got := getline_delimited '=' key value [] one.first
  have also := getline_delimited '=' other last [] two.first
  rw [← one.split] at got
  rw [← two.split, got] at also
  cases also
  exact ⟨rfl, rfl⟩

theorem env_line_assigns (res : Std.ExtTreeMap Text Text) (line key value : Text) (plain : '\n' ∉ line)
    (assigns : Assigns line key value) : envLine res line = res.insert key value := by
  have rest : '\n' ∉ value := fun member => plain (by rw [assigns.split]; simp [member])
  have first := getline_delimited '=' key value [] assigns.first
  have second := getline_last '\n' value [] rest
  rw [← assigns.split] at first
  have filled : ¬(line.head? = some '#' ∨ line = []) := fun either => either.elim assigns.code assigns.filled
  rw [envLine, if_neg filled]
  simp only [first, second]
  rw [if_neg (by simp), if_neg (by simpa using assigns.valued)]

theorem env_line_empty (res : Std.ExtTreeMap Text Text) : envLine res [] = res := by rw [envLine, if_pos (Or.inr rfl)]

theorem fold_env_empty (res : Std.ExtTreeMap Text Text) (n : Nat) : (List.replicate n []).foldl envLine res = res := by
  induction n with
  | zero => rfl
  | succ n ih => rw [List.replicate_succ, List.foldl_cons, env_line_empty, ih]

theorem env_line_skips (res : Std.ExtTreeMap Text Text) (line : Text)
    (nothing : ∀ key value, ¬Assigns line key value) : envLine res line = res := by
  by_cases comment : line.head? = some '#' ∨ line = []
  · rw [envLine, if_pos comment]
  obtain ⟨code, filled⟩ := not_or.mp comment
  rw [envLine, if_neg comment]
  by_cases assigned : '=' ∈ line
  · obtain ⟨key, value, shape, first⟩ := List.eq_append_cons_of_mem assigned
    have empty : value = [] := by
      by_contra valued
      exact nothing key value ⟨filled, code, shape, first, valued⟩
    subst empty
    have got := getline_delimited '=' key [] [] first
    have second := getline_last '\n' ([] : Text) [] List.not_mem_nil
    rw [← shape] at got
    simp [got, second]
  · have got := getline_last '=' line [] assigned
    have second := getline_ended '\n' ⟨[], true, line.isEmpty⟩ [] rfl
    simp [got, second]

theorem get_env_line (res : Std.ExtTreeMap Text Text) (line key value : Text) (plain : '\n' ∉ line) :
    (envLine res line)[key]? = some value ↔
      Assigns line key value ∨ res[key]? = some value ∧ ∀ other, ¬Assigns line key other := by
  by_cases something : ∃ name text, Assigns line name text
  · obtain ⟨name, text, assigns⟩ := something
    rw [env_line_assigns res line name text plain assigns, Std.ExtTreeMap.getElem?_insert]
    by_cases same : name = key
    · subst name
      rw [if_pos Std.ReflCmp.compare_self, Option.some.injEq]
      constructor
      · intro same
        exact Or.inl (same ▸ assigns)
      · rintro (again | ⟨_, spared⟩)
        · exact (assigns_unique line key text key value assigns again).2
        · exact absurd assigns (spared text)
    · rw [if_neg fun equal => same (Std.LawfulEqCmp.eq_of_compare equal)]
      have other (value : Text) : ¬Assigns line key value := fun again =>
        same (assigns_unique line name text key value assigns again).1
      simp [other]
  · have nothing (name text : Text) : ¬Assigns line name text := fun assigns => something ⟨name, text, assigns⟩
    rw [env_line_skips res line nothing]
    simp [nothing]

theorem parse_env_lines (envFile : Text) : parseEnvFile (some envFile) = (envFile.splitOn '\n').foldl envLine ∅ :=
  while_getline_split '\n' envLine env_line_empty ∅ envFile []

theorem fold_env_lines (lines : List Text) (plain : ∀ line ∈ lines, '\n' ∉ line) (key value : Text) :
    (lines.foldl envLine ∅)[key]? = some value ↔
      ∃ before line after, lines = before ++ line :: after ∧ Assigns line key value ∧
        ∀ later ∈ after, ∀ other, ¬Assigns later key other := by
  have folded := fold_last_write envLine (fun res key => res[key]?) Assigns lines ∅ key value fun res line member =>
    get_env_line res line key value (plain line member)
  rw [folded]
  simp

theorem get_parse_env_file (envFile key value : Text) :
    (parseEnvFile (some envFile))[key]? = some value ↔
      ∃ before line after, envFile.splitOn '\n' = before ++ line :: after ∧ Assigns line key value ∧
        ∀ later ∈ after, ∀ other, ¬Assigns later key other := by
  rw [parse_env_lines]
  exact fold_env_lines _ (split_plain '\n' envFile) key value

inductive EnvLine where
  | entry (key value : Text)
  | comment (text : Text)
  | blank (space : Text)

namespace EnvLine

def text : EnvLine → Text
  | entry key value => key ++ '=' :: value
  | comment text => '#' :: text
  | blank space => space

def entry? : EnvLine → Option (Text × Text)
  | entry key value => some (key, value)
  | _ => none

end EnvLine

structure EnvMap where
  entries : Std.ExtTreeMap Text Text
  keys : ∀ key value : Text, entries[key]? = some value → '=' ∉ key ∧ '\n' ∉ key ∧ key.head? ≠ some '#'
  values : ∀ key value : Text, entries[key]? = some value → value ≠ [] ∧ '\n' ∉ value

-- A file that prints a map, in any order and with comments and blank lines anywhere.
structure EnvFile (map : EnvMap) where
  lines : List EnvLine
  newline : Bool
  prints : (lines.filterMap EnvLine.entry?).Perm map.entries.toList
  comments : ∀ text, .comment text ∈ lines → '\n' ∉ text
  blanks : ∀ space, .blank space ∈ lines → ∀ c ∈ space, isspace c = true ∧ c ≠ '\n'

namespace EnvFile

variable {map : EnvMap} (file : EnvFile map)

def text : Text := ['\n'].intercalate (file.lines.map EnvLine.text) ++ if file.newline then ['\n'] else []

theorem entry_printed (key value : Text) : .entry key value ∈ file.lines ↔ map.entries[key]? = some value := by
  rw [← Std.ExtTreeMap.mem_toList_iff_getElem?_eq_some, ← file.prints.mem_iff, List.mem_filterMap]
  constructor
  · exact fun member => ⟨_, member, rfl⟩
  · rintro ⟨line, member, entry⟩
    cases line with
    | entry key value =>
        cases entry
        exact member
    | comment text => cases entry
    | blank space => cases entry

theorem line_plain (line : EnvLine) (member : line ∈ file.lines) : '\n' ∉ line.text := by
  cases line with
  | entry key value =>
      have found := (file.entry_printed key value).mp member
      have keyed := (map.keys key value found).2.1
      have valued := (map.values key value found).2
      simp [EnvLine.text, keyed, valued]
  | comment text =>
      have plain := file.comments text member
      simp [EnvLine.text, plain]
  | blank space => exact fun inside => (file.blanks space member '\n' inside).2 rfl

theorem printed_plain : ∀ line ∈ file.lines.map EnvLine.text, '\n' ∉ line := by
  intro line member
  obtain ⟨printed, among, rfl⟩ := List.mem_map.mp member
  exact file.line_plain printed among

theorem line_assigns (line : EnvLine) (member : line ∈ file.lines) (key value : Text) :
    Assigns line.text key value ↔ line = .entry key value := by
  cases line with
  | entry name text =>
      have found := (file.entry_printed name text).mp member
      have keyed := map.keys name text found
      have assigns : Assigns (EnvLine.entry name text).text name text := by
        refine ⟨by simp [EnvLine.text], ?_, rfl, keyed.1, (map.values name text found).1⟩
        cases name with
        | nil => simp [EnvLine.text]
        | cons c name => exact keyed.2.2
      rw [EnvLine.entry.injEq]
      refine ⟨fun again => assigns_unique _ name text key value assigns again, ?_⟩
      rintro ⟨rfl, rfl⟩
      exact assigns
  | comment text => exact ⟨fun assigns => absurd rfl assigns.code, fun same => nomatch same⟩
  | blank space =>
      refine ⟨fun assigns => ?_, fun same => nomatch same⟩
      have inside : '=' ∈ space := by
        have split : space = key ++ '=' :: value := assigns.split
        simp [split]
      exact absurd (file.blanks space member '=' inside).1 (by decide)

theorem entry_last (before after : List EnvLine) (key value other : Text)
    (shape : file.lines = before ++ .entry key value :: after) : .entry key other ∉ after := by
  intro member
  have distinct : ((file.lines.filterMap EnvLine.entry?).map Prod.fst).Nodup := by
    refine (file.prints.map Prod.fst).nodup_iff.mpr (List.pairwise_map.mpr ?_)
    exact map.entries.distinct_keys_toList.imp fun differ same => differ (by simp [same])
  have here : (EnvLine.entry key value :: after).filterMap EnvLine.entry? =
      (key, value) :: after.filterMap EnvLine.entry? := rfl
  rw [shape, List.filterMap_append, here, List.map_append, List.map_cons] at distinct
  have alone := (List.nodup_cons.mp (List.nodup_append.mp distinct).2.1).1
  exact alone (List.mem_map.mpr ⟨(key, other), List.mem_filterMap.mpr ⟨_, member, rfl⟩, rfl⟩)

theorem split_text : ∃ n, file.text.splitOn '\n' = file.lines.map EnvLine.text ++ List.replicate n [] := by
  have body : ∃ n, (['\n'].intercalate (file.lines.map EnvLine.text)).splitOn '\n' =
      file.lines.map EnvLine.text ++ List.replicate n [] := by
    by_cases empty : file.lines.map EnvLine.text = []
    · exact ⟨1, by rw [empty]; rfl⟩
    · exact ⟨0, by rw [List.splitOn_intercalate '\n' file.printed_plain empty, List.replicate_zero, List.append_nil]⟩
  obtain ⟨n, pieces⟩ := body
  dsimp only [text]
  cases file.newline with
  | false =>
      rw [if_neg Bool.false_ne_true, List.append_nil]
      exact ⟨n, pieces⟩
  | true =>
      rw [if_pos rfl, List.splitOn_append_cons_self, pieces, List.append_assoc]
      exact ⟨n + 1, congrArg _ List.replicate_succ'.symm⟩

theorem parse_printed : parseEnvFile (some file.text) = map.entries := by
  obtain ⟨n, pieces⟩ := file.split_text
  rw [parse_env_lines, pieces, List.foldl_append, fold_env_empty]
  refine Std.ExtTreeMap.ext_getElem? fun key => Option.ext fun value => ?_
  rw [fold_env_lines _ file.printed_plain]
  constructor
  · rintro ⟨before, line, after, shape, assigns, _⟩
    have member : line ∈ file.lines.map EnvLine.text := by
      rw [shape]
      simp
    obtain ⟨printed, among, rfl⟩ := List.mem_map.mp member
    rw [file.line_assigns printed among] at assigns
    rw [assigns] at among
    exact (file.entry_printed key value).mp among
  · intro found
    obtain ⟨before, after, shape⟩ := List.append_of_mem ((file.entry_printed key value).mpr found)
    have here : EnvLine.entry key value ∈ file.lines := by
      rw [shape]
      simp
    refine ⟨before.map EnvLine.text, (EnvLine.entry key value).text, after.map EnvLine.text, by rw [shape]; simp,
      (file.line_assigns _ here key value).mpr rfl, fun later member other assigns => ?_⟩
    obtain ⟨printed, among, rfl⟩ := List.mem_map.mp member
    have behind : printed ∈ file.lines := by
      rw [shape]
      simp [among]
    rw [file.line_assigns printed behind] at assigns
    rw [assigns] at among
    exact file.entry_last before after key value other shape among

end EnvFile

theorem parse_env_file_exact :
    (∀ envFile key value : Text, (parseEnvFile (some envFile))[key]? = some value ↔
      ∃ before line after, envFile.splitOn '\n' = before ++ line :: after ∧ Assigns line key value ∧
        ∀ later ∈ after, ∀ other, ¬Assigns later key other) ∧
      ∀ (map : EnvMap) (file : EnvFile map), parseEnvFile (some file.text) = map.entries :=
  ⟨get_parse_env_file, fun _ file => file.parse_printed⟩

def envEntries : Std.ExtTreeMap Text Text :=
  ((∅ : Std.ExtTreeMap Text Text).insert "STORAGE_API_PORT".toList "3000".toList).insert "HOST".toList "a=b #1".toList

theorem env_listed : envEntries.toList = [("HOST".toList, "a=b #1".toList), ("STORAGE_API_PORT".toList, "3000".toList)] := by
  decide +kernel

theorem env_entry (key value : Text) (found : envEntries[key]? = some value) :
    (key, value) = ("HOST".toList, "a=b #1".toList) ∨ (key, value) = ("STORAGE_API_PORT".toList, "3000".toList) := by
  have member := Std.ExtTreeMap.mem_toList_iff_getElem?_eq_some.mpr found
  rw [env_listed] at member
  simpa only [List.mem_cons, List.not_mem_nil, or_false] using member

def envMap : EnvMap where
  entries := envEntries
  keys := by
    intro key value found
    rcases env_entry key value found with same | same <;> cases same <;> decide
  values := by
    intro key value found
    rcases env_entry key value found with same | same <;> cases same <;> decide

def envPrinted : EnvFile envMap where
  lines := [.comment " ports".toList, .entry "STORAGE_API_PORT".toList "3000".toList, .blank " \t".toList,
    .entry "HOST".toList "a=b #1".toList]
  newline := true
  prints := by
    change List.Perm _ envEntries.toList
    rw [env_listed]
    exact List.Perm.swap _ _ _
  comments := by simp
  blanks := by simp [isspace]

theorem parse_env_file_exact_printed : envPrinted.text = "# ports\nSTORAGE_API_PORT=3000\n \t\nHOST=a=b #1\n".toList ∧
    parseEnvFile (some envPrinted.text) = envEntries :=
  ⟨by decide +kernel, parse_env_file_exact.2 envMap envPrinted⟩

example : (parseEnvFile (some "#A=0\nA=1=2\n\nA=".toList))["A".toList]? = some "1=2".toList := by decide +kernel

end TradingFeed.Common
