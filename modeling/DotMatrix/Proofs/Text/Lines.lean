import Mathlib.Data.List.Basic

/-!
# Reading lines and words

A text whose lines end with newlines can be cut into its lines again, and a line of words into its
words, if newlines and blanks stand nowhere else. A word may be a value behind its label; it is cut
at the equals sign.
-/
namespace DotMatrix

theorem splitOn_flatMap {texts : List (List Char)} (whole : ∀ text ∈ texts, '\n' ∉ text) :
    (texts.flatMap (· ++ ['\n'])).splitOn '\n' = texts ++ [[]] := by
  induction texts with
  | nil => rfl
  | cons text rest ih =>
    obtain ⟨first, others⟩ := List.forall_mem_cons.1 whole
    rw [List.flatMap_cons, List.append_assoc, List.singleton_append,
      List.splitOn_append_cons_self_of_not_mem first, ih others, List.cons_append]

/-- Letters and digits only. -/
def Plain (text : List Char) : Prop := text.all Char.isAlphanum

instance (text : List Char) : Decidable (Plain text) := inferInstanceAs (Decidable (_ = true))

theorem Plain.notMem {text : List Char} (plain : Plain text) {c : Char}
    (other : c.isAlphanum = false) : c ∉ text := by
  intro member
  rw [List.all_eq_true.1 plain c member] at other
  exact absurd other (by decide)

/-! ## Words -/

/-- Words with a blank between any two. -/
def joinWords (words : List (List Char)) : List Char := [' '].intercalate words

theorem splitOn_joinWords {words : List (List Char)} (nonempty : words ≠ [])
    (whole : ∀ word ∈ words, ' ' ∉ word) : (joinWords words).splitOn ' ' = words :=
  List.splitOn_intercalate ' ' whole nonempty

theorem mem_joinWords {words : List (List Char)} {c : Char} (member : c ∈ joinWords words) :
    c = ' ' ∨ ∃ word ∈ words, c ∈ word := by
  induction words with
  | nil => exact absurd member List.not_mem_nil
  | cons word rest ih =>
    cases rest with
    | nil =>
      rw [joinWords, List.intercalate_singleton] at member
      exact .inr ⟨word, List.mem_cons_self, member⟩
    | cons next rest =>
      rw [joinWords, List.intercalate_cons_cons, List.append_assoc, List.mem_append,
        List.mem_append, List.mem_singleton] at member
      obtain here | blank | later := member
      · exact .inr ⟨word, List.mem_cons_self, here⟩
      · exact .inl blank
      · exact (ih later).imp_right fun ⟨other, found, inside⟩ =>
          ⟨other, List.mem_cons_of_mem _ found, inside⟩

theorem newline_notMem_joinWords {words : List (List Char)} (whole : ∀ word ∈ words, '\n' ∉ word) :
    '\n' ∉ joinWords words := by
  intro member
  obtain blank | ⟨word, found, inside⟩ := mem_joinWords member
  · exact absurd blank (by decide)
  · exact whole word found inside

/-! ## Labelled values -/

def labelled (label : String) (value : List Char) : List Char := label.toList ++ '=' :: value

/-- Cuts a value from its label. -/
def unlabelled (word : List Char) : String × List Char :=
  (String.ofList (word.takeWhile (· ≠ '=')), (word.dropWhile (· ≠ '=')).drop 1)

theorem unlabelled_labelled {label : String} (plain : Plain label.toList) (value : List Char) :
    unlabelled (labelled label value) = (label, value) := by
  have before : ∀ c ∈ label.toList, decide (c ≠ '=') = true := fun c member =>
    decide_eq_true (ne_of_mem_of_not_mem member (plain.notMem rfl))
  rw [unlabelled, labelled, List.takeWhile_append_of_pos before, List.dropWhile_append_of_pos before]
  simp

theorem notMem_labelled {label : String} {value : List Char} (plainLabel : Plain label.toList)
    (plainValue : Plain value) {c : Char} (other : c.isAlphanum = false) (unequal : c ≠ '=') :
    c ∉ labelled label value := by
  rw [labelled, List.mem_append, List.mem_cons, not_or, not_or]
  exact ⟨plainLabel.notMem other, unequal, plainValue.notMem other⟩

section Entries

variable {α : Type} (write : α → List Char) (entries : List (String × α))

def entryLine : List Char :=
  joinWords (entries.map fun entry => labelled entry.1 (write entry.2))

/-- The value that stands behind a label in a line. -/
def valueOf? (label : String) (line : List Char) : Option (List Char) :=
  ((line.splitOn ' ').map unlabelled).lookup label

/-- Nothing in a line of labelled values could be taken for a blank or an equals sign. -/
structure Legible : Prop where
  nonempty : entries ≠ []
  labels : ∀ entry ∈ entries, Plain entry.1.toList
  values : ∀ value, Plain (write value)

theorem lookup_map (label : String) :
    (entries.map fun entry => (entry.1, write entry.2)).lookup label =
      (entries.lookup label).map write := by
  induction entries with
  | nil => rfl
  | cons entry rest ih =>
    rw [List.map_cons, List.lookup_cons, List.lookup_cons, ih]
    split <;> rfl

variable {write entries}

theorem Legible.notMem (legible : Legible write entries) {c : Char} (other : c.isAlphanum = false)
    (unequal : c ≠ '=') :
    ∀ word ∈ entries.map fun entry => labelled entry.1 (write entry.2), c ∉ word := by
  intro word member
  obtain ⟨entry, found, rfl⟩ := List.mem_map.1 member
  exact notMem_labelled (legible.labels entry found) (legible.values _) other unequal

theorem Legible.newline_notMem (legible : Legible write entries) :
    '\n' ∉ entryLine write entries :=
  newline_notMem_joinWords (legible.notMem rfl (by decide))

theorem Legible.valueOf?_entryLine (legible : Legible write entries) (label : String) :
    valueOf? label (entryLine write entries) = (entries.lookup label).map write := by
  have words : (entryLine write entries).splitOn ' ' =
      entries.map fun entry => labelled entry.1 (write entry.2) :=
    splitOn_joinWords (mt List.map_eq_nil_iff.1 legible.nonempty)
      (legible.notMem rfl (by decide))
  have cut : (entries.map fun entry => labelled entry.1 (write entry.2)).map unlabelled =
      entries.map fun entry => (entry.1, write entry.2) := by
    rw [List.map_map]
    exact List.map_congr_left fun entry found => unlabelled_labelled (legible.labels entry found) _
  rw [valueOf?, words, cut, lookup_map]

end Entries

end DotMatrix
