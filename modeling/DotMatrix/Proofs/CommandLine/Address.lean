import Mathlib.Data.Nat.Digits.Defs
import Mathlib.Data.List.Forall2
import DotMatrix.CommandLine.Options
import DotMatrix.Proofs.Text.Hexadecimal

/-!
# Addresses on the command line

An address is some hexadecimal digits behind an optional mark and an optional plus sign. These are
the texts that are read, with the number that their digits denote in base 16, as long as it is an
address; all others are refused. The digits are read from the left, so what is refused as too large
need not be a numeral to its end.
-/
namespace DotMatrix

/-! ## Numerals -/

/-- A character stands for a digit, in either case. -/
def IsHexDigit (c : Char) (digit : Nat) : Prop :=
  digit < 16 ∧ (c = digit.digitChar ∨ c = digit.digitChar.toUpper)

/-- Digits denote a number in base 16, the last one counting ones. -/
def Denotes (text : List Char) (value : Nat) : Prop :=
  ∃ digits, List.Forall₂ IsHexDigit text digits ∧ Nat.ofDigits 16 digits.reverse = value

theorem toNat_digitChar {digit : Nat} (small : digit < 16) :
    digit.digitChar.toNat = digit + (if digit < 10 then 48 else 87) ∧
      digit.digitChar.toUpper.toNat = digit + (if digit < 10 then 48 else 55) := by
  have all : ∀ digit : Fin 16,
      digit.val.digitChar.toNat = digit.val + (if digit.val < 10 then 48 else 87) ∧
        digit.val.digitChar.toUpper.toNat = digit.val + (if digit.val < 10 then 48 else 55) := by
    decide
  exact all ⟨digit, small⟩

theorem digitValue?_eq_some_iff {c : Char} {digit : Nat} :
    digitValue? 16 c = some digit ↔ IsHexDigit c digit := by
  constructor
  · intro read
    obtain ⟨small, value⟩ := Option.ite_none_right_eq_some.1 read
    rw [Option.some.inj value] at small
    replace value := Option.some.inj value
    obtain ⟨lower, upper⟩ := toNat_digitChar small
    have le_iff : ∀ first last : Char, first ≤ last ↔ first.toNat ≤ last.toNat := fun _ _ => Iff.rfl
    simp only [le_iff, Char.reduceToNat] at value
    refine ⟨small, ?_⟩
    rw [← Char.toNat_inj, ← Char.toNat_inj, lower, upper]
    by_cases decimal : digit < 10
    · rw [if_pos decimal]
      grind
    · rw [if_neg decimal, if_neg decimal]
      grind
  · rintro ⟨small, rfl | rfl⟩
    · exact digitValue?_lowerDigitChar small
    · exact digitValue?_digitChar small

theorem denotes_nil {value : Nat} : Denotes [] value ↔ value = 0 := by
  constructor
  · rintro ⟨digits, reads, rfl⟩
    rw [List.forall₂_nil_left_iff.1 reads]
    rfl
  · rintro rfl
    exact ⟨[], .nil, rfl⟩

theorem denotes_cons {c : Char} {rest : List Char} {value : Nat} :
    Denotes (c :: rest) value ↔ ∃ digit low, IsHexDigit c digit ∧ Denotes rest low ∧
      value = digit * 16 ^ rest.length + low := by
  have split : ∀ {digit : Nat} {digits : List Nat}, List.Forall₂ IsHexDigit rest digits →
      Nat.ofDigits 16 (digit :: digits).reverse =
        digit * 16 ^ rest.length + Nat.ofDigits 16 digits.reverse := by
    intro digit digits reads
    rw [List.reverse_cons, Nat.ofDigits_append, Nat.ofDigits_singleton, List.length_reverse,
      ← reads.length_eq, Nat.add_comm, Nat.mul_comm]
  constructor
  · rintro ⟨digits, reads, rfl⟩
    obtain ⟨digit, digits, first, others, rfl⟩ := List.forall₂_cons_left_iff.1 reads
    exact ⟨digit, _, first, ⟨digits, others, rfl⟩, split others⟩
  · rintro ⟨digit, low, first, ⟨digits, others, rfl⟩, rfl⟩
    exact ⟨digit :: digits, .cons first others, split others⟩

/-- Digits behind others that denote `value` make it a numeral that denotes `total`. -/
def Onto (value : Nat) (text : List Char) (total : Nat) : Prop :=
  ∃ low, Denotes text low ∧ total = value * 16 ^ text.length + low

theorem onto_zero {text : List Char} {total : Nat} : Onto 0 text total ↔ Denotes text total := by
  simp only [Onto, Nat.zero_mul, Nat.zero_add, exists_eq_right']

theorem onto_nil {value total : Nat} : Onto value [] total ↔ total = value := by
  simp only [Onto, denotes_nil, exists_eq_left, List.length_nil, Nat.pow_zero, Nat.mul_one,
    Nat.add_zero]

theorem onto_cons {value total : Nat} {c : Char} {rest : List Char} :
    Onto value (c :: rest) total ↔
      ∃ digit, IsHexDigit c digit ∧ Onto (value * 16 + digit) rest total := by
  have shift : ∀ digit low, value * 16 ^ (rest.length + 1) + (digit * 16 ^ rest.length + low) =
      (value * 16 + digit) * 16 ^ rest.length + low := by
    intro digit low
    rw [Nat.pow_succ', Nat.add_mul, Nat.mul_assoc, Nat.add_assoc]
  simp only [Onto, denotes_cons, List.length_cons]
  constructor
  · rintro ⟨_, ⟨digit, low, first, others, rfl⟩, sum⟩
    exact ⟨digit, first, low, others, sum.trans (shift digit low)⟩
  · rintro ⟨digit, first, low, others, sum⟩
    exact ⟨_, ⟨digit, low, first, others, rfl⟩, sum.trans (shift digit low).symm⟩

theorem Onto.le {value total : Nat} {text : List Char} (onto : Onto value text total) :
    value ≤ total := by
  obtain ⟨low, -, rfl⟩ := onto
  exact Nat.le_add_right_of_le (Nat.le_mul_of_pos_right value (Nat.pow_pos (by decide)))

/-- Digits that the text begins with take `value` beyond the limit. What comes behind them does not
matter. -/
def Overruns (limit value : Nat) (text : List Char) : Prop :=
  ∃ run rest total, text = run ++ rest ∧ Onto value run total ∧ limit < total

theorem not_overruns_nil {limit value : Nat} (within : value ≤ limit) :
    ¬Overruns limit value [] := by
  rintro ⟨run, rest, total, split, onto, exceeds⟩
  rw [(List.append_eq_nil_iff.1 split.symm).1, onto_nil] at onto
  omega

theorem overruns_of_lt {limit value : Nat} (exceeds : limit < value) (text : List Char) :
    Overruns limit value text :=
  ⟨[], text, value, rfl, onto_nil.2 rfl, exceeds⟩

theorem overruns_cons {limit value : Nat} (within : value ≤ limit) {c : Char} {rest : List Char} :
    Overruns limit value (c :: rest) ↔
      ∃ digit, IsHexDigit c digit ∧ Overruns limit (value * 16 + digit) rest := by
  constructor
  · rintro ⟨run, after, total, split, onto, exceeds⟩
    cases run with
    | nil =>
      -- Without a digit the value stays where it was.
      rw [onto_nil] at onto
      omega
    | cons first run =>
      obtain ⟨rfl, others⟩ := List.cons_eq_cons.1 split
      obtain ⟨digit, first, onto⟩ := onto_cons.1 onto
      exact ⟨digit, first, run, after, total, others, onto, exceeds⟩
  · rintro ⟨digit, first, run, after, total, rfl, onto, exceeds⟩
    exact ⟨c :: run, after, total, rfl, onto_cons.2 ⟨digit, first, onto⟩, exceeds⟩

/-! ## Reading digits -/

section Digits

variable {limit value : Nat} {c : Char} {rest : List Char}

theorem readDigits_of_not_digit (other : digitValue? 16 c = none) :
    readDigits 16 limit value (c :: rest) = .error .invalidDigit := by
  rw [readDigits, other]

theorem readDigits_of_fits {digit : Nat} (read : digitValue? 16 c = some digit)
    (fits : value * 16 + digit ≤ limit) :
    readDigits 16 limit value (c :: rest) = readDigits 16 limit (value * 16 + digit) rest := by
  rw [readDigits, read]
  exact if_pos fits

theorem readDigits_of_exceeds {digit : Nat} (read : digitValue? 16 c = some digit)
    (exceeds : ¬value * 16 + digit ≤ limit) :
    readDigits 16 limit value (c :: rest) = .error .tooLarge := by
  rw [readDigits, read]
  exact if_neg exceeds

theorem readDigits_ne_empty {text : List Char} :
    readDigits 16 limit value text ≠ .error .empty := by
  induction text generalizing value with
  | nil => exact nofun
  | cons c rest ih =>
    cases read : digitValue? 16 c with
    | none =>
      rw [readDigits_of_not_digit read]
      exact nofun
    | some digit =>
      by_cases fits : value * 16 + digit ≤ limit
      · rw [readDigits_of_fits read fits]
        exact ih
      · rw [readDigits_of_exceeds read fits]
        exact nofun

theorem readDigits_eq_ok_iff {text : List Char} {total : Nat} (within : value ≤ limit) :
    readDigits 16 limit value text = .ok total ↔ Onto value text total ∧ total ≤ limit := by
  induction text generalizing value with
  | nil =>
    rw [onto_nil, readDigits, Except.ok.injEq, eq_comm]
    exact (and_iff_left_of_imp fun same => same ▸ within).symm
  | cons c rest ih =>
    rw [onto_cons]
    simp only [← digitValue?_eq_some_iff]
    cases read : digitValue? 16 c with
    | none => simp [readDigits_of_not_digit read]
    | some digit =>
      simp only [Option.some.injEq, exists_eq_left']
      by_cases fits : value * 16 + digit ≤ limit
      · rw [readDigits_of_fits read fits, ih fits]
      · rw [readDigits_of_exceeds read fits]
        exact iff_of_false nofun fun ⟨onto, bounded⟩ => fits (onto.le.trans bounded)

theorem readDigits_eq_tooLarge_iff {text : List Char} (within : value ≤ limit) :
    readDigits 16 limit value text = .error .tooLarge ↔ Overruns limit value text := by
  induction text generalizing value with
  | nil => exact iff_of_false nofun (not_overruns_nil within)
  | cons c rest ih =>
    rw [overruns_cons within]
    simp only [← digitValue?_eq_some_iff]
    cases read : digitValue? 16 c with
    | none => simp [readDigits_of_not_digit read]
    | some digit =>
      simp only [Option.some.injEq, exists_eq_left']
      by_cases fits : value * 16 + digit ≤ limit
      · rw [readDigits_of_fits read fits, ih fits]
      · rw [readDigits_of_exceeds read fits]
        exact iff_of_true rfl (overruns_of_lt (Nat.lt_of_not_le fits) rest)

end Digits

/-! ## Signs and marks -/

def hexMarks : List String := ["", "0x", "0X"]

def plusSigns : List String := ["", "+"]

/-- The text is `body` behind an optional mark and an optional sign. -/
def Opens (text : String) (body : List Char) : Prop :=
  ∃ mark ∈ hexMarks, ∃ sign ∈ plusSigns, text.toList = mark.toList ++ (sign.toList ++ body)

def SpellsAddress (text : String) (value : Nat) : Prop :=
  ∃ digits, Opens text digits ∧ digits ≠ [] ∧ Denotes digits value ∧ value ≤ 0xFFFF

/-- The text begins as a numeral that is no address. -/
def ExceedsAddress (text : String) : Prop :=
  ∃ run rest value, Opens text (run ++ rest) ∧ Denotes run value ∧ 0xFFFF < value

section Outcome

variable {limit : Nat}

theorem readNumeral_of_not_sign {c : Char} (other : c ≠ '+') (rest : List Char) :
    readNumeral 16 limit (c :: rest) = readDigits 16 limit 0 (c :: rest) := by
  rw [readNumeral]
  · exact nofun
  · exact fun same => other (List.head_eq_of_cons_eq same)
  · exact fun _ same => other (List.head_eq_of_cons_eq same)

theorem readNumeral_eq_empty_iff {text : List Char} :
    readNumeral 16 limit text = .error .empty ↔ text = [] := by
  refine ⟨fun empty => ?_, fun empty => empty ▸ rfl⟩
  rcases text with _ | ⟨c, rest⟩
  · rfl
  by_cases sign : c = '+'
  · subst sign
    cases rest with
    | nil => exact absurd empty nofun
    | cons first others => exact absurd empty readDigits_ne_empty
  · rw [readNumeral_of_not_sign sign] at empty
    exact absurd empty readDigits_ne_empty

/-- A numeral is read behind its sign. A second sign, or one with nothing behind it, is no digit. -/
theorem readNumeral_eq_iff (outcome : Except NumeralFault Nat)
    (valid : outcome ≠ .error .invalidDigit) (present : outcome ≠ .error .empty)
    {text : List Char} :
    readNumeral 16 limit text = outcome ↔ ∃ sign ∈ plusSigns, ∃ body,
      text = sign.toList ++ body ∧ body ≠ [] ∧ readDigits 16 limit 0 body = outcome := by
  have signed : (∃ sign ∈ plusSigns, ∃ body, text = sign.toList ++ body ∧ body ≠ [] ∧
      readDigits 16 limit 0 body = outcome) ↔
        (text ≠ [] ∧ readDigits 16 limit 0 text = outcome) ∨
          ∃ body, text = '+' :: body ∧ body ≠ [] ∧ readDigits 16 limit 0 body = outcome := by
    simp [plusSigns]
  have twice : ∀ rest, readDigits 16 limit 0 ('+' :: rest) ≠ outcome := fun rest read =>
    valid (read.symm.trans (readDigits_of_not_digit (by decide)))
  rw [signed]
  rcases text with _ | ⟨c, rest⟩
  · simp [readNumeral, present.symm]
  by_cases sign : c = '+'
  · subst sign
    cases rest with
    | nil => simp [readNumeral, valid.symm, twice]
    | cons first others => simp [readNumeral, twice]
  · rw [readNumeral_of_not_sign sign]
    simp [sign]

/-- A mark is taken away once: what is left of a second one is no digit. -/
theorem readNumeral_dropHexMark_eq_iff (outcome : Except NumeralFault Nat)
    (valid : outcome ≠ .error .invalidDigit) {text : List Char} :
    readNumeral 16 limit (dropHexMark text) = outcome ↔ ∃ mark ∈ hexMarks, ∃ rest,
      text = mark.toList ++ rest ∧ readNumeral 16 limit rest = outcome := by
  have marked : (∃ mark ∈ hexMarks, ∃ rest, text = mark.toList ++ rest ∧
      readNumeral 16 limit rest = outcome) ↔
        readNumeral 16 limit text = outcome ∨
          (∃ rest, text = '0' :: 'x' :: rest ∧ readNumeral 16 limit rest = outcome) ∨
            ∃ rest, text = '0' :: 'X' :: rest ∧ readNumeral 16 limit rest = outcome := by
    simp [hexMarks]
  have twice : ∀ c, digitValue? 16 c = none → ∀ rest,
      readNumeral 16 limit ('0' :: c :: rest) ≠ outcome := by
    intro c other rest read
    have zero : digitValue? 16 '0' = some 0 := rfl
    rw [readNumeral_of_not_sign (by decide), readDigits_of_fits zero (Nat.zero_le _),
      readDigits_of_not_digit other] at read
    exact valid read.symm
  rw [marked]
  fun_cases dropHexMark text with
  | case1 rest => simp [twice 'x' (by decide)]
  | case2 rest => simp [twice 'X' (by decide)]
  | case3 text small capital =>
    refine (or_iff_left ?_).symm
    rintro (⟨rest, same, -⟩ | ⟨rest, same, -⟩)
    · exact small rest same
    · exact capital rest same

theorem readNumeral_opened_iff (outcome : Except NumeralFault Nat)
    (valid : outcome ≠ .error .invalidDigit) (present : outcome ≠ .error .empty) {text : String} :
    readNumeral 16 limit (dropHexMark text.toList) = outcome ↔
      ∃ body, Opens text body ∧ body ≠ [] ∧ readDigits 16 limit 0 body = outcome := by
  rw [readNumeral_dropHexMark_eq_iff outcome valid]
  simp only [readNumeral_eq_iff outcome valid present, Opens]
  constructor
  · rintro ⟨mark, known, _, marked, sign, allowed, body, rfl, rest⟩
    exact ⟨body, ⟨mark, known, sign, allowed, marked⟩, rest⟩
  · rintro ⟨body, ⟨mark, known, sign, allowed, opened⟩, rest⟩
    exact ⟨mark, known, _, opened, sign, allowed, body, rfl, rest⟩

end Outcome

/-! ## Addresses -/

theorem readAddress_eq_ok_iff {text : String} {address : UInt16} :
    readAddress text = .ok address ↔ SpellsAddress text address.toNat := by
  have spelled : SpellsAddress text address.toNat ↔
      readNumeral 16 0xFFFF (dropHexMark text.toList) = .ok address.toNat := by
    rw [readNumeral_opened_iff (.ok _) nofun nofun]
    simp only [readDigits_eq_ok_iff (Nat.zero_le _), onto_zero, SpellsAddress]
  rw [spelled, readAddress]
  cases read : readNumeral 16 0xFFFF (dropHexMark text.toList) with
  | error why => exact iff_of_false nofun nofun
  | ok value =>
    have bounded : value ≤ 0xFFFF := by
      obtain ⟨body, -, -, digits⟩ := (readNumeral_opened_iff (.ok _) nofun nofun).1 read
      exact ((readDigits_eq_ok_iff (Nat.zero_le _)).1 digits).2
    simp only [Except.ok.injEq, ← UInt16.toNat_inj, UInt16.toNat_ofNat']
    omega

theorem readAddress_eq_error_iff {text : String} {fault : UsageFault} :
    readAddress text = .error fault ↔ ∃ why, fault = .badAddress text why ∧
      readNumeral 16 0xFFFF (dropHexMark text.toList) = .error why := by
  rw [readAddress]
  cases readNumeral 16 0xFFFF (dropHexMark text.toList) with
  | ok value => exact iff_of_false nofun fun ⟨_, _, refused⟩ => nomatch refused
  | error why => simp [eq_comm]

theorem readNumeral_eq_empty_iff_mark {text : String} :
    readNumeral 16 0xFFFF (dropHexMark text.toList) = .error .empty ↔ text ∈ hexMarks := by
  rw [readNumeral_dropHexMark_eq_iff (.error .empty) nofun]
  simp only [readNumeral_eq_empty_iff]
  constructor
  · rintro ⟨mark, known, _, marked, rfl⟩
    rw [List.append_nil, String.toList_inj] at marked
    exact marked ▸ known
  · exact fun known => ⟨text, known, [], (List.append_nil _).symm, rfl⟩

theorem readNumeral_eq_tooLarge_iff {text : String} :
    readNumeral 16 0xFFFF (dropHexMark text.toList) = .error .tooLarge ↔ ExceedsAddress text := by
  rw [readNumeral_opened_iff (.error .tooLarge) nofun nofun]
  simp only [readDigits_eq_tooLarge_iff (Nat.zero_le _), Overruns, onto_zero, ExceedsAddress]
  constructor
  · rintro ⟨_, opened, -, run, rest, value, rfl, denotes, exceeds⟩
    exact ⟨run, rest, value, opened, denotes, exceeds⟩
  · rintro ⟨run, rest, value, opened, denotes, exceeds⟩
    refine ⟨run ++ rest, opened, fun empty => ?_, run, rest, value, rfl, denotes, exceeds⟩
    rw [(List.append_eq_nil_iff.1 empty).1, denotes_nil] at denotes
    omega

/-- Exactly the texts of the grammar are read, each as the number that its digits denote. Any other
text is refused in words that quote all of it and name the cause: there is nothing behind the mark,
or the digits behind mark and sign exceed every address before anything else is wrong, or else some
character is no digit. -/
theorem readAddress_follows_grammar (text : String) :
    (∀ address : UInt16, readAddress text = .ok address ↔ SpellsAddress text address.toNat) ∧
    ((∀ value, ¬SpellsAddress text value) ↔ ∃ fault cause, readAddress text = .error fault ∧
      fault.cause? = some ("invalid address '" ++ text ++ "': " ++ cause) ∧
      (cause = "cannot parse integer from empty string" ↔ text ∈ hexMarks) ∧
      (cause = "number too large to fit in target type" ↔ ExceedsAddress text) ∧
      (cause = "invalid digit found in string" ↔ text ∉ hexMarks ∧ ¬ExceedsAddress text)) := by
  refine ⟨fun _ => readAddress_eq_ok_iff, fun unspelled => ?_, ?_⟩
  · cases read : readAddress text with
    | ok address => exact absurd (readAddress_eq_ok_iff.1 read) (unspelled _)
    | error fault =>
      obtain ⟨why, rfl, refused⟩ := readAddress_eq_error_iff.1 read
      refine ⟨_, why.message, rfl, rfl, ?_⟩
      rw [← readNumeral_eq_empty_iff_mark, ← readNumeral_eq_tooLarge_iff, refused]
      cases why <;> simp [NumeralFault.message]
  · rintro ⟨fault, -, refused, -⟩ value spelled
    have ⟨_, _, _, _, bounded⟩ := spelled
    have address : (UInt16.ofNat value).toNat = value :=
      UInt16.toNat_ofNat_of_lt' (Nat.lt_succ_of_le bounded)
    rw [readAddress_eq_ok_iff.2 (address.symm ▸ spelled)] at refused
    exact nomatch refused

example : readAddress "0X+00Ff50" = .ok 0xFF50 := by decide

end DotMatrix
