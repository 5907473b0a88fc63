import Mathlib.Data.List.Basic
import Mathlib.Data.List.Flatten
import Mathlib.Data.List.TakeWhile
import Mathlib.Tactic.Common

/-!
# Reading lines, fields and numbers

Text as lists of characters: its lines, its parts between separators, a text without the blanks
around it, and the integer that a text spells.  What has been written out in lines, in parts or in
decimal digits is read back.
-/

namespace CoreCycler
namespace Library
namespace Reading

/-! ## Blanks -/

/-- The characters that are stripped from a text (`str.isspace`). -/
def isSpace (c : Char) : Bool :=
  let code := c.toNat
  decide (9 ≤ code ∧ code ≤ 13) || decide (28 ≤ code ∧ code ≤ 32) ||
    decide (0x2000 ≤ code ∧ code ≤ 0x200A) ||
    decide (code ∈ [0x85, 0xA0, 0x1680, 0x2028, 0x2029, 0x202F, 0x205F, 0x3000])

/-- A text without the blanks around it. -/
def trim (text : List Char) : List Char :=
  ((text.dropWhile isSpace).reverse.dropWhile isSpace).reverse

theorem isSpace_of_isDigit {c : Char} (hdigit : c.isDigit = true) : isSpace c = false := by
  simp only [Char.isDigit, Bool.and_eq_true, decide_eq_true_eq] at hdigit
  have hlow : 48 ≤ c.toNat := hdigit.1
  have hhigh : c.toNat ≤ 57 := hdigit.2
  unfold isSpace
  simp only [List.mem_cons, List.not_mem_nil, or_false, Bool.or_eq_false_iff,
    decide_eq_false_iff_not]
  omega

theorem nil_blank : ∀ c ∈ ([] : List Char), isSpace c = true :=
  fun _ hc => (List.not_mem_nil hc).elim

theorem newline_blank : ∀ c ∈ ['\n'], isSpace c = true := fun c hc => by
  rw [List.mem_singleton.mp hc]
  rfl

theorem dropWhile_blanks {blanks text : List Char} (hblanks : ∀ c ∈ blanks, isSpace c = true) :
    (blanks ++ text).dropWhile isSpace = text.dropWhile isSpace := by
  rw [List.dropWhile_append_of_pos hblanks]

theorem dropWhile_solid {text : List Char} (hsolid : ∀ c ∈ text, isSpace c = false) :
    text.dropWhile isSpace = text := by
  cases text with
  | nil => rfl
  | cons c rest => exact List.dropWhile_cons_of_neg (by simp [hsolid c List.mem_cons_self])

/-- Blanks around a text make no difference. -/
theorem trim_padded {before behind : List Char} (hbefore : ∀ c ∈ before, isSpace c = true)
    (hbehind : ∀ c ∈ behind, isSpace c = true) (text : List Char) :
    trim (before ++ text ++ behind) = trim text := by
  have hreverse : ∀ c ∈ behind.reverse, isSpace c = true := fun c hc =>
    hbehind c (List.mem_reverse.mp hc)
  have hempty : behind.dropWhile isSpace = [] := by
    have hdrop : (behind ++ []).dropWhile isSpace = _ := dropWhile_blanks hbehind
    simpa using hdrop
  unfold trim
  rw [List.append_assoc, dropWhile_blanks hbefore, List.dropWhile_append]
  split_ifs with hblank
  · rw [hempty, List.isEmpty_iff.mp hblank]
  · rw [List.reverse_append, dropWhile_blanks hreverse]

theorem trim_solid {text : List Char} (hsolid : ∀ c ∈ text, isSpace c = false) :
    trim text = text := by
  have hreverse : ∀ c ∈ text.reverse, isSpace c = false := fun c hc =>
    hsolid c (List.mem_reverse.mp hc)
  unfold trim
  rw [dropWhile_solid hsolid, dropWhile_solid hreverse, List.reverse_reverse]

/-- Nothing but blanks is stripped. -/
theorem trim_split (text : List Char) :
    ∃ before behind, text = before ++ trim text ++ behind ∧
      (∀ c ∈ before, isSpace c = true) ∧ ∀ c ∈ behind, isSpace c = true := by
  let inner := (text.dropWhile isSpace).reverse
  refine ⟨text.takeWhile isSpace, (inner.takeWhile isSpace).reverse, ?_, ?_, ?_⟩
  · have hinner : (inner.dropWhile isSpace).reverse ++ (inner.takeWhile isSpace).reverse =
        text.dropWhile isSpace := by
      rw [← List.reverse_append, List.takeWhile_append_dropWhile, List.reverse_reverse]
    rw [trim, List.append_assoc, hinner, List.takeWhile_append_dropWhile]
  · exact fun c hc => List.mem_takeWhile_imp hc
  · exact fun c hc => List.mem_takeWhile_imp (List.mem_reverse.mp hc)

/-- A text without blanks stays in front of what is stripped behind it. -/
theorem trim_append {front : List Char} (hfront : ∀ c ∈ front, isSpace c = false)
    (hne : front ≠ []) (text : List Char) : ∃ rest, trim (front ++ text) = front ++ rest := by
  have hreverse : ∀ c ∈ front.reverse, isSpace c = false := fun c hc =>
    hfront c (List.mem_reverse.mp hc)
  have hkept : (front ++ text).dropWhile isSpace = front ++ text := by
    obtain ⟨c, others, rfl⟩ := List.exists_cons_of_ne_nil hne
    exact List.dropWhile_cons_of_neg (by simp [hfront c List.mem_cons_self])
  unfold trim
  rw [hkept, List.reverse_append, List.dropWhile_append]
  split_ifs with hblank
  · exact ⟨[], by rw [dropWhile_solid hreverse, List.reverse_reverse, List.append_nil]⟩
  · exact ⟨_, by rw [List.reverse_append, List.reverse_reverse]⟩

/-! ## Lines -/

/-- The characters that end a line (`str.splitlines`). -/
def isLineBreak (c : Char) : Bool :=
  let code := c.toNat
  decide (10 ≤ code ∧ code ≤ 13) || decide (28 ≤ code ∧ code ≤ 30) ||
    decide (code ∈ [0x85, 0x2028, 0x2029])

/-- The lines of a text behind the part of a line that has been read, newest character first. -/
def linesFrom : List Char → List Char → List (List Char)
  | [], [] => []
  | line, [] => [line.reverse]
  | line, '\r' :: '\n' :: rest => line.reverse :: linesFrom [] rest
  | line, c :: rest =>
      if isLineBreak c then line.reverse :: linesFrom [] rest else linesFrom (c :: line) rest

def splitLines (text : List Char) : List (List Char) := linesFrom [] text

/-- Lines, each with a newline behind it. -/
def unlines (lines : List (List Char)) : List Char := lines.flatMap (· ++ ['\n'])

theorem linesFrom_line {line : List Char} (hline : ∀ c ∈ line, isLineBreak c = false)
    (read rest : List Char) :
    linesFrom read (line ++ '\n' :: rest) = (read.reverse ++ line) :: linesFrom [] rest := by
  induction line generalizing read with
  | nil =>
      rw [List.nil_append, linesFrom]
      · simp [isLineBreak]
      · simp
  | cons c line ih =>
      rw [List.forall_mem_cons] at hline
      rw [List.cons_append, linesFrom]
      · rw [if_neg (by simp [hline.1]), ih hline.2]
        simp
      · intro _ hreturn _
        rw [hreturn] at hline
        exact absurd hline.1 (by decide)

/-- Lines that are written out are read back. -/
theorem splitLines_unlines {lines : List (List Char)}
    (hlines : ∀ line ∈ lines, ∀ c ∈ line, isLineBreak c = false) :
    splitLines (unlines lines) = lines := by
  unfold splitLines unlines
  induction lines with
  | nil => rfl
  | cons line rest ih =>
      rw [List.forall_mem_cons] at hlines
      rw [List.flatMap_cons, List.append_assoc, List.singleton_append, linesFrom_line hlines.1,
        ih hlines.2]
      rfl

/-! ## Parts -/

/-- What stands in front of the first separator and behind it (`str.split(sep, 1)`). -/
def splitFirst (sep : Char) : List Char → Option (List Char × List Char)
  | [] => none
  | c :: rest =>
      if c = sep then some ([], rest)
      else (splitFirst sep rest).map fun parts => (c :: parts.1, parts.2)

theorem splitFirst_append {sep : Char} {before : List Char} (hbefore : sep ∉ before)
    (behind : List Char) : splitFirst sep (before ++ sep :: behind) = some (before, behind) := by
  induction before with
  | nil => simp [splitFirst]
  | cons c before ih =>
      rw [List.mem_cons, not_or] at hbefore
      rw [List.cons_append, splitFirst, if_neg (Ne.symm hbefore.1), ih hbefore.2]
      rfl

theorem splitFirst_eq_none {sep : Char} {text : List Char} (htext : sep ∉ text) :
    splitFirst sep text = none := by
  induction text with
  | nil => rfl
  | cons c rest ih =>
      rw [List.mem_cons, not_or] at htext
      rw [splitFirst, if_neg (Ne.symm htext.1), ih htext.2]
      rfl

/-- What is put around a text with a separator goes to its two parts. -/
theorem splitFirst_padded {sep : Char} {before behind : List Char} (hbefore : sep ∉ before)
    (hbehind : sep ∉ behind) (text : List Char) :
    splitFirst sep (before ++ text ++ behind) =
      (splitFirst sep text).map fun parts => (before ++ parts.1, parts.2 ++ behind) := by
  induction before with
  | cons c before ih =>
      rw [List.mem_cons, not_or] at hbefore
      rw [List.cons_append, List.cons_append, splitFirst, if_neg (Ne.symm hbefore.1),
        ih hbefore.2, Option.map_map]
      rfl
  | nil =>
      rw [List.nil_append]
      induction text with
      | nil => rw [List.nil_append, splitFirst_eq_none hbehind]; rfl
      | cons c rest ih =>
          rw [List.cons_append, splitFirst, splitFirst]
          split_ifs
          · rfl
          · rw [ih, Option.map_map, Option.map_map]
            rfl

/-- Text put behind the last part leaves the others alone. -/
theorem splitOn_append {sep : Char} {behind : List Char} (hbehind : sep ∉ behind)
    (text : List Char) :
    ∃ front last, text.splitOn sep = front ++ [last] ∧
      (text ++ behind).splitOn sep = front ++ [last ++ behind] := by
  induction text with
  | nil => exact ⟨[], [], List.splitOn_nil sep, List.splitOn_eq_singleton hbehind⟩
  | cons c rest ih =>
      obtain ⟨front, last, hrest, happended⟩ := ih
      rw [List.cons_append, List.splitOn_cons_eq_if_modifyHead,
        List.splitOn_cons_eq_if_modifyHead, hrest, happended]
      split_ifs
      · exact ⟨[] :: front, last, rfl, rfl⟩
      · cases front with
        | nil => exact ⟨[], c :: last, rfl, rfl⟩
        | cons first others => exact ⟨(c :: first) :: others, last, rfl, rfl⟩

/-- Text put in front of the first part leaves the others alone. -/
theorem splitOn_prepend {sep : Char} {before : List Char} (hbefore : sep ∉ before)
    (text : List Char) :
    ∃ first rest, text.splitOn sep = first :: rest ∧
      (before ++ text).splitOn sep = (before ++ first) :: rest := by
  obtain ⟨first, rest, htext⟩ := List.exists_cons_of_ne_nil (List.splitOn_ne_nil sep text)
  refine ⟨first, rest, htext, ?_⟩
  induction before with
  | nil => exact htext
  | cons c before ih =>
      rw [List.mem_cons, not_or] at hbefore
      rw [List.cons_append, List.splitOn_cons_eq_if_modifyHead,
        if_neg (by simpa using Ne.symm hbefore.1), ih hbefore.2]
      rfl

/-! ## Numbers -/

/-- The value of a digit in any script; the ASCII digits have their own. -/
structure DigitValues where
  value : Char → Option Nat
  ascii : ∀ c : Char, c.isDigit = true → value c = some (c.toNat - '0'.toNat)

/-- Digits in ASCII only. -/
def asciiDigits : DigitValues where
  value c := if c.isDigit then some (c.toNat - '0'.toNat) else none
  ascii _ hc := if_pos hc

/-- The value of digits behind a number that has been read; an underscore stands between two. -/
def digitsFrom (digits : DigitValues) : Nat → Bool → List Char → Option Nat
  | number, digitBefore, [] => if digitBefore then some number else none
  | number, digitBefore, c :: rest =>
      if c = '_' then if digitBefore then digitsFrom digits number false rest else none
      else (digits.value c).bind fun value => digitsFrom digits (10 * number + value) true rest

/-- The integer that a text spells (`int`). -/
def int (digits : DigitValues) (text : List Char) : Option Int :=
  match trim text with
  | '-' :: rest => (digitsFrom digits 0 false rest).map fun number => -(number : Int)
  | '+' :: rest => (digitsFrom digits 0 false rest).map fun number => (number : Int)
  | rest => (digitsFrom digits 0 false rest).map fun number => (number : Int)

/-- The digits of a number. -/
def numeral (number : Nat) : List Char := Nat.toDigits 10 number

theorem isDigit_of_mem_numeral {number : Nat} {c : Char} (hc : c ∈ numeral number) :
    c.isDigit = true :=
  Nat.isDigit_of_mem_toDigits (by decide) (by decide) hc

theorem numeral_ne_nil (number : Nat) : numeral number ≠ [] := Nat.toDigits_ne_nil

theorem numeral_solid (number : Nat) : ∀ c ∈ numeral number, isSpace c = false :=
  fun _ hc => isSpace_of_isDigit (isDigit_of_mem_numeral hc)

/-- Blanks around a number are gone. -/
theorem trim_numeral {before behind : List Char} (hbefore : ∀ c ∈ before, isSpace c = true)
    (hbehind : ∀ c ∈ behind, isSpace c = true) (number : Nat) :
    trim (before ++ numeral number ++ behind) = numeral number := by
  rw [trim_padded hbefore hbehind, trim_solid (numeral_solid number)]

/-- A character that is no digit is not in a number. -/
theorem not_mem_numeral {c : Char} (hc : c.isDigit = false) (number : Nat) :
    c ∉ numeral number := fun hmem => by
  rw [isDigit_of_mem_numeral hmem] at hc
  cases hc

variable (digits : DigitValues)

theorem digitsFrom_ascii {text : List Char} (htext : ∀ c ∈ text, c.isDigit = true)
    (number : Nat) (digitBefore : Bool) :
    digitsFrom digits number digitBefore text =
      if text = [] ∧ digitBefore = false then none
      else some (Nat.ofDigitChars 10 text number) := by
  induction text generalizing number digitBefore with
  | nil => cases digitBefore <;> simp [digitsFrom]
  | cons c rest ih =>
      rw [List.forall_mem_cons] at htext
      have hunderscore : c ≠ '_' := by
        rintro rfl
        exact absurd htext.1 (by decide)
      rw [digitsFrom, if_neg hunderscore, digits.ascii c htext.1, Option.bind_some, ih htext.2,
        Nat.ofDigitChars_cons]
      simp

theorem int_padded {before behind : List Char} (hbefore : ∀ c ∈ before, isSpace c = true)
    (hbehind : ∀ c ∈ behind, isSpace c = true) (text : List Char) :
    int digits (before ++ text ++ behind) = int digits text := by
  unfold int
  rw [trim_padded hbefore hbehind]

/-- A number that is written out is read back. -/
theorem int_numeral (number : Nat) : int digits (numeral number) = some (number : Int) := by
  have hdigits : ∀ c ∈ numeral number, c.isDigit = true := fun c => isDigit_of_mem_numeral
  have hread : digitsFrom digits 0 false (numeral number) = some number := by
    rw [digitsFrom_ascii digits hdigits, if_neg fun h => numeral_ne_nil number h.1]
    exact congrArg some Nat.ofDigitChars_ten_toDigits
  unfold int
  rw [trim_solid (numeral_solid number)]
  split
  · rename_i rest hsign
    exact absurd (hdigits '-' (by rw [hsign]; simp)) (by decide)
  · rename_i rest hsign
    exact absurd (hdigits '+' (by rw [hsign]; simp)) (by decide)
  · rw [hread]
    rfl

theorem numeral_injective : Function.Injective numeral := fun number other heq => by
  have hnumber : Nat.ofDigitChars 10 (numeral number) 0 = number :=
    Nat.ofDigitChars_ten_toDigits
  rw [← hnumber, heq]
  exact Nat.ofDigitChars_ten_toDigits

end Reading
end Library
end CoreCycler
