import Mathlib.Data.List.Lex
import Mathlib.Data.Char
import TradingFeed.Json.RoundTrip

set_option autoImplicit false

namespace TradingFeed.Json

variable {D : Type}

def keysOf (entries : List (Text × JSON D)) : List Text := entries.map Prod.fst

mutual
def Ordered : JSON D → Prop
  | .object entries => (keysOf entries).Pairwise (· < ·) ∧ OrderedMembers entries
  | .array elements => OrderedElements elements
  | _ => True
def OrderedMembers : List (Text × JSON D) → Prop
  | [] => True
  | (_, value) :: rest => Ordered value ∧ OrderedMembers rest
def OrderedElements : List (JSON D) → Prop
  | [] => True
  | value :: rest => Ordered value ∧ OrderedElements rest
end

-- A value with every double replaced by the text that dump prints for it: two
-- values with the same image differ at most in digits behind the printed ones.
mutual
def printed (fp : Doubles D) : JSON D → JSON Text
  | .null => .null
  | .object entries => .object (printedMembers fp entries)
  | .array elements => .array (printedElements fp elements)
  | .string value => .string value
  | .floating d => .floating (fp.toText d)
  | .integral n => .integral n
  | .boolean value => .boolean value
def printedMembers (fp : Doubles D) : List (Text × JSON D) → List (Text × JSON Text)
  | [] => []
  | (key, value) :: rest => (key, printed fp value) :: printedMembers fp rest
def printedElements (fp : Doubles D) : List (JSON D) → List (JSON Text)
  | [] => []
  | value :: rest => printed fp value :: printedElements fp rest
end

def reloadEach (fp : Doubles D) (entries : List (Text × JSON D)) : List (Text × JSON D) :=
  entries.map fun entry => (entry.1, reloaded fp entry.2)

theorem reload_each_keys (fp : Doubles D) (entries : List (Text × JSON D)) :
    keysOf (reloadEach fp entries) = keysOf entries := by
  simp [keysOf, reloadEach]

theorem put_member_last (key : Text) (value : JSON D) (members : List (Text × JSON D))
    (before : ∀ name ∈ keysOf members, name < key) : putMember key value members = members ++ [(key, value)] := by
  induction members with
  | nil => rfl
  | cons entry rest ih =>
      obtain ⟨name, old⟩ := entry
      have below : name < key := before name (by simp [keysOf])
      have behind := ih fun other member => before other (by simpa [keysOf] using Or.inr member)
      rw [putMember, if_neg (fun same => absurd below (by rw [same]; exact lt_irrefl name)),
        if_neg (fun above => absurd (lt_trans below above) (lt_irrefl name)), behind]
      rfl

theorem put_member_keys (key : Text) (value : JSON D) (members : List (Text × JSON D)) (name : Text) :
    name ∈ keysOf (putMember key value members) ↔ name = key ∨ name ∈ keysOf members := by
  induction members with
  | nil => simp [putMember, keysOf]
  | cons entry rest ih =>
      obtain ⟨first, old⟩ := entry
      rw [putMember]
      split
      · simp_all [keysOf]
      · split
        · simp [keysOf]
        · simp only [keysOf, List.map_cons, List.mem_cons] at ih ⊢
          rw [ih]
          exact or_left_comm

theorem put_member_sorted (key : Text) (value : JSON D) (members : List (Text × JSON D))
    (sorted : (keysOf members).Pairwise (· < ·)) : (keysOf (putMember key value members)).Pairwise (· < ·) := by
  induction members with
  | nil => exact List.pairwise_singleton _ _
  | cons entry rest ih =>
      obtain ⟨first, old⟩ := entry
      obtain ⟨least, behind⟩ := List.pairwise_cons.mp sorted
      rw [putMember]
      split
      · exact sorted
      · rename_i other
        split
        · rename_i below
          refine List.pairwise_cons.mpr ⟨fun name member => ?_, sorted⟩
          rcases List.mem_cons.mp member with rfl | later
          · exact below
          · exact lt_trans below (least name later)
        · rename_i above
          refine List.pairwise_cons.mpr ⟨fun name member => ?_, ih behind⟩
          rcases (put_member_keys key value rest name).mp member with rfl | later
          · exact lt_of_le_of_ne (not_lt.mp above) (Ne.symm other)
          · exact least name later

theorem put_member_ordered (key : Text) (value : JSON D) (members : List (Text × JSON D)) (ordered : Ordered value)
    (others : OrderedMembers members) : OrderedMembers (putMember key value members) := by
  induction members with
  | nil => exact ⟨ordered, trivial⟩
  | cons entry rest ih =>
      obtain ⟨first, old⟩ := entry
      rw [putMember]
      split
      · exact ⟨ordered, others.2⟩
      · split
        · exact ⟨ordered, others⟩
        · exact ⟨others.1, ih others.2⟩

theorem assign_ordered (json value : JSON D) (key : Text) (ordered : Ordered json) (valued : Ordered value) :
    Ordered (json.assign key value) := by
  have members : (keysOf json.members).Pairwise (· < ·) ∧ OrderedMembers json.members := by
    cases json with
    | object entries => exact ordered
    | _ => exact ⟨List.Pairwise.nil, trivial⟩
  exact ⟨put_member_sorted key value json.members members.1, put_member_ordered key value json.members valued members.2⟩

theorem reload_members_each (fp : Doubles D) (read entries : List (Text × JSON D))
    (sorted : (keysOf read ++ keysOf entries).Pairwise (· < ·)) :
    reloadMembers fp read entries = read ++ reloadEach fp entries := by
  induction entries generalizing read with
  | nil => simp [reloadMembers, reloadEach]
  | cons entry rest ih =>
      obtain ⟨key, value⟩ := entry
      have before : ∀ name ∈ keysOf read, name < key := fun name member =>
        (List.pairwise_append.mp sorted).2.2 name member key (by simp [keysOf])
      rw [reloadMembers, put_member_last key _ read before, ih]
      · simp [reloadEach]
      · simpa [keysOf] using sorted

theorem reloaded_object (fp : Doubles D) (entries : List (Text × JSON D)) (ordered : Ordered (.object entries)) :
    reloaded fp (.object entries) = .object (reloadEach fp entries) := by
  rw [reloaded, reload_members_each fp [] entries ordered.1]
  rfl

theorem reread_finite (fp : Doubles D) (d : D) (finite : fp.Finite d) : fp.Finite (fp.reread d) := by
  have same := reread_text fp d finite
  exact ⟨same ▸ finite.decimal, same ▸ finite.again⟩

structure Kept (fp : Doubles D) (json : JSON D) : Prop where
  printed : printed fp (reloaded fp json) = printed fp json
  ordered : Ordered (reloaded fp json)
  printable : Printable fp (reloaded fp json)

mutual
theorem reload_keeps (fp : Doubles D) (json : JSON D) (ordered : Ordered json) (printable : Printable fp json) :
    Kept fp json := by
  match json with
  | .object entries =>
      have again := reloaded_object fp entries ordered
      obtain ⟨texts, deep, members⟩ := reload_members_keep fp entries ordered.2 printable
      refine ⟨?_, ?_, ?_⟩
      · rw [again]
        simp only [printed, texts]
      · rw [again]
        exact ⟨by rw [reload_each_keys]; exact ordered.1, deep⟩
      · rw [again]
        exact members
  | .array elements =>
      obtain ⟨texts, deep, all⟩ := reload_elements_keep fp elements ordered printable
      exact ⟨by simp only [reloaded, printed, texts], deep, all⟩
  | .floating d =>
      exact ⟨by simp only [reloaded, printed, reread_text fp d printable], trivial, reread_finite fp d printable⟩
  | .integral n => exact ⟨rfl, trivial, printable⟩
  | .null => exact ⟨rfl, trivial, trivial⟩
  | .string value => exact ⟨rfl, trivial, trivial⟩
  | .boolean value => exact ⟨rfl, trivial, trivial⟩
theorem reload_members_keep (fp : Doubles D) (entries : List (Text × JSON D)) (ordered : OrderedMembers entries)
    (printable : PrintableMembers fp entries) :
    printedMembers fp (reloadEach fp entries) = printedMembers fp entries ∧
      OrderedMembers (reloadEach fp entries) ∧ PrintableMembers fp (reloadEach fp entries) := by
  match entries with
  | [] => exact ⟨rfl, trivial, trivial⟩
  | (key, value) :: rest =>
      have first := reload_keeps fp value ordered.1 printable.2.1
      obtain ⟨texts, deep, members⟩ := reload_members_keep fp rest ordered.2 printable.2.2
      refine ⟨?_, ⟨first.ordered, deep⟩, printable.1, first.printable, members⟩
      change (key, printed fp (reloaded fp value)) :: printedMembers fp (reloadEach fp rest) = _
      rw [first.printed, texts]
      rfl
theorem reload_elements_keep (fp : Doubles D) (elements : List (JSON D)) (ordered : OrderedElements elements)
    (printable : PrintableElements fp elements) :
    printedElements fp (reloadElements fp elements) = printedElements fp elements ∧
      OrderedElements (reloadElements fp elements) ∧ PrintableElements fp (reloadElements fp elements) := by
  match elements with
  | [] => exact ⟨rfl, trivial, trivial⟩
  | value :: rest =>
      have first := reload_keeps fp value ordered.1 printable.1
      obtain ⟨texts, deep, all⟩ := reload_elements_keep fp rest ordered.2 printable.2
      exact ⟨by simp only [reloadElements, printedElements, first.printed, texts], ⟨first.ordered, deep⟩,
        first.printable, all⟩
end

end TradingFeed.Json
