import CoreCycler.Library.Text
import Mathlib.Tactic.Common

/-!
# Regular expressions with priorities

A backtracking matcher as scripting languages have it: `ends` lists where a match from one
position can end, the preferred end first, and `search` takes the first position with an end.
Zero-width conditions look at the text on both sides of a position.  `Spelled` describes the
text a match can cover.
-/

namespace CoreCycler
namespace Library
namespace Text

/-- A regular expression over characters.  Only single characters are repeated. -/
inductive Regex where
  | empty
  | one (test : Char → Bool)
  /-- Any number of characters, as many as possible first. -/
  | many (test : Char → Bool)
  | seq (first second : Regex)
  | alt (first second : Regex)
  /-- Exactly one of the two sides of the position is a word character. -/
  | boundary (word : Char → Bool)
  /-- The expression does not match from here. -/
  | notAhead (expr : Regex)
  /-- The characters right before the position do not pass the tests. -/
  | notBehind (tests : List (Char → Bool))

namespace Regex

/-- The ends of a run of characters, the longest first. -/
def runEnds (test : Char → Bool) (before : List Char) :
    List Char → List (List Char × List Char)
  | [] => [(before, [])]
  | c :: rest =>
      if test c then runEnds test (c :: before) rest ++ [(before, c :: rest)]
      else [(before, c :: rest)]

/-- The reversed text before a position passes the tests, the last one first. -/
def behind : List (Char → Bool) → List Char → Bool
  | [], _ => true
  | _ :: _, [] => false
  | test :: tests, c :: before => test c && behind tests before

/-- Where a match from a position can end, in order of preference.  A position is the text
before it, reversed, and the text after it. -/
def ends : Regex → List Char → List Char → List (List Char × List Char)
  | empty, before, after => [(before, after)]
  | one test, before, after =>
      match after with
      | [] => []
      | c :: rest => if test c then [(c :: before, rest)] else []
  | many test, before, after => runEnds test before after
  | seq first second, before, after =>
      (ends first before after).flatMap fun place => ends second place.1 place.2
  | alt first second, before, after => ends first before after ++ ends second before after
  | boundary word, before, after =>
      if before.head?.any word != after.head?.any word then [(before, after)] else []
  | notAhead expr, before, after =>
      if (ends expr before after).isEmpty then [(before, after)] else []
  | notBehind tests, before, after =>
      if behind tests.reverse before then [] else [(before, after)]

/-- The text of the preferred match from a position. -/
def matchText (expr : Regex) (before after : List Char) : Option (List Char) :=
  (ends expr before after).head?.map fun place =>
    after.take (after.length - place.2.length)

def searchFrom (expr : Regex) : List Char → List Char → Option (List Char)
  | before, [] => matchText expr before []
  | before, c :: rest =>
      match matchText expr before (c :: rest) with
      | some found => some found
      | none => searchFrom expr (c :: before) rest

/-- The text of the first match. -/
def search (expr : Regex) (text : List Char) : Option (List Char) := searchFrom expr [] text

def removeFrom (expr : Regex) : Nat → List Char → List Char → List Char
  | 0, _, after => after
  | fuel + 1, before, after =>
      match matchText expr before after with
      | some (c :: found) =>
          removeFrom expr fuel ((c :: found).reverse ++ before) (after.drop (found.length + 1))
      | _ =>
          match after with
          | [] => []
          | c :: rest => c :: removeFrom expr fuel (c :: before) rest

/-- The text without its matches, which do not overlap. -/
def remove (expr : Regex) (text : List Char) : List Char := removeFrom expr text.length [] text

/-- A text that a match of the expression can cover. -/
def Spelled : Regex → List Char → Prop
  | one test, text => ∃ c, text = [c] ∧ test c = true
  | many test, text => ∀ c ∈ text, test c = true
  | seq first second, text =>
      ∃ left right, text = left ++ right ∧ first.Spelled left ∧ second.Spelled right
  | alt first second, text => first.Spelled text ∨ second.Spelled text
  | empty, text => text = []
  | boundary _, text => text = []
  | notAhead _, text => text = []
  | notBehind _, text => text = []

theorem runEnds_spelled {test : Char → Bool} {after : List Char} :
    ∀ {before : List Char}, ∀ place ∈ runEnds test before after,
      ∃ text, after = text ++ place.2 ∧ ∀ c ∈ text, test c = true := by
  induction after with
  | nil =>
      intro before place hplace
      cases List.mem_singleton.mp hplace
      exact ⟨[], rfl, by simp⟩
  | cons c rest ih =>
      intro before place hplace
      rw [runEnds] at hplace
      split_ifs at hplace with htest
      · rcases List.mem_append.mp hplace with hlonger | hhere
        · obtain ⟨text, hrest, hall⟩ := ih place hlonger
          exact ⟨c :: text, by rw [hrest]; rfl, List.forall_mem_cons.mpr ⟨htest, hall⟩⟩
        · cases List.mem_singleton.mp hhere
          exact ⟨[], rfl, by simp⟩
      · cases List.mem_singleton.mp hplace
        exact ⟨[], rfl, by simp⟩

/-- A match covers a text its expression spells. -/
theorem ends_spelled (expr : Regex) : ∀ {before after : List Char},
    ∀ place ∈ ends expr before after,
      ∃ text, after = text ++ place.2 ∧ expr.Spelled text := by
  -- Boundaries and lookarounds spell nothing, so they end where they begin.
  induction expr with
  | empty =>
      intro before after place hplace
      cases List.mem_singleton.mp hplace
      exact ⟨[], rfl, rfl⟩
  | one test =>
      intro before after place hplace
      cases after with
      | nil => simp [ends] at hplace
      | cons c rest =>
          simp only [ends] at hplace
          split_ifs at hplace with htest
          · cases List.mem_singleton.mp hplace
            exact ⟨[c], rfl, c, rfl, htest⟩
          · simp at hplace
  | many test => exact runEnds_spelled
  | seq first second ihFirst ihSecond =>
      intro before after place hplace
      obtain ⟨middle, hmiddle, hend⟩ := List.mem_flatMap.mp hplace
      obtain ⟨left, hafter, hleft⟩ := ihFirst middle hmiddle
      obtain ⟨right, hmore, hright⟩ := ihSecond place hend
      exact ⟨left ++ right, by rw [hafter, hmore, List.append_assoc], left, right, rfl, hleft,
        hright⟩
  | alt first second ihFirst ihSecond =>
      intro before after place hplace
      rcases List.mem_append.mp hplace with hfirst | hsecond
      · obtain ⟨text, hafter, hspelled⟩ := ihFirst place hfirst
        exact ⟨text, hafter, .inl hspelled⟩
      · obtain ⟨text, hafter, hspelled⟩ := ihSecond place hsecond
        exact ⟨text, hafter, .inr hspelled⟩
  | boundary word =>
      intro before after place hplace
      simp only [ends] at hplace
      split_ifs at hplace
      · cases List.mem_singleton.mp hplace
        exact ⟨[], rfl, rfl⟩
      · simp at hplace
  | notAhead expr ih =>
      intro before after place hplace
      simp only [ends] at hplace
      split_ifs at hplace
      · cases List.mem_singleton.mp hplace
        exact ⟨[], rfl, rfl⟩
      · simp at hplace
  | notBehind tests =>
      intro before after place hplace
      simp only [ends] at hplace
      split_ifs at hplace
      · simp at hplace
      · cases List.mem_singleton.mp hplace
        exact ⟨[], rfl, rfl⟩

end Regex

/-! ## Letters in any case -/

/-- Two letters are the same when case is ignored; besides the ASCII letters the dotless and
the dotted I, the long s and the Kelvin sign count. -/
def sameLetter (p c : Char) : Bool :=
  c.toLower == p.toLower ||
    p.toLower == 's' && c == '\u017f' ||
    p.toLower == 'k' && c == '\u212a' ||
    p.toLower == 'i' && (c == '\u0131' || c == '\u0130')

/-- A literal, in any case. -/
def Regex.literal (text : List Char) : Regex :=
  text.foldr (fun p expr => .seq (.one (sameLetter p)) expr) .empty

/-- Lower-case letters with the ones outside ASCII replaced by those they stand for. -/
def plainChar (c : Char) : List Char :=
  if c = '\u0307' then [] else if c = '\u017f' then ['s'] else if c = '\u0131' then ['i'] else [c]

/-- A character of ASCII. -/
def isPlain (c : Char) : Bool := c.val < 128

theorem plainChar_of_isPlain {c : Char} (hplain : isPlain c = true) : plainChar c = [c] := by
  have hval : c.val < 128 := of_decide_eq_true hplain
  have hapart : ∀ other : Char, ¬ other.val < 128 → c ≠ other := by
    rintro other hother rfl
    exact hother hval
  rw [plainChar, if_neg (hapart _ (by decide)), if_neg (hapart _ (by decide)),
    if_neg (hapart _ (by decide))]

theorem toLower_isPlain {c : Char} : isPlain c.toLower = isPlain c := by
  unfold Char.toLower
  split_ifs with hupper
  · have hval : c.val < 128 := UInt32.lt_of_le_of_lt hupper.2 (by decide)
    have hlow : (c.val + 32) < 128 := by
      have hZ : c.val ≤ 90 := hupper.2
      rw [UInt32.lt_iff_toNat_lt, UInt32.toNat_add]
      rw [UInt32.le_iff_toNat_le] at hZ
      have h90 : (90 : UInt32).toNat = 90 := rfl
      have h32 : (32 : UInt32).toNat = 32 := rfl
      have h128 : (128 : UInt32).toNat = 128 := rfl
      omega
    simp only [isPlain]
    rw [decide_eq_true hval]
    exact decide_eq_true hlow
  · rfl

theorem lowerChar_of_isPlain {c : Char} (hplain : isPlain c = true) :
    lowerChar c = [c.toLower] := by
  have hapart : ∀ other : Char, isPlain other = false → c ≠ other := by
    rintro other hother rfl
    rw [hother] at hplain
    cases hplain
  rw [lowerChar, if_neg (hapart _ (by decide)), if_neg (hapart _ (by decide))]

/-- A letter that counts as an ASCII letter is plainly that letter in lower case. -/
theorem plain_of_sameLetter {p c : Char} (hp : isPlain p = true)
    (hsame : sameLetter p c = true) : (lowerChar c).flatMap plainChar = [p.toLower] := by
  simp only [sameLetter, Bool.or_eq_true, Bool.and_eq_true, beq_iff_eq] at hsame
  rcases hsame with ((heq | ⟨hs, rfl⟩) | ⟨hk, rfl⟩) | ⟨hi, rfl | rfl⟩
  · have hlow : isPlain c.toLower = true := by
      rw [heq, toLower_isPlain]
      exact hp
    rw [lowerChar_of_isPlain (toLower_isPlain.symm.trans hlow), List.flatMap_singleton,
      plainChar_of_isPlain hlow, heq]
  · rw [hs]
    decide
  · rw [hk]
    decide
  · rw [hi]
    decide
  · rw [hi]
    decide

/-- What a literal covers is, plainly and in lower case, the literal. -/
theorem plain_of_literal {text : List Char} (htext : ∀ p ∈ text, isPlain p = true) :
    ∀ {found : List Char}, (Regex.literal text).Spelled found →
      (found.flatMap lowerChar).flatMap plainChar = text.map Char.toLower := by
  induction text with
  | nil =>
      intro found hfound
      cases hfound
      rfl
  | cons p rest ih =>
      intro found hfound
      obtain ⟨left, right, rfl, ⟨c, rfl, hsame⟩, hright⟩ := hfound
      obtain ⟨hp, hrest⟩ := List.forall_mem_cons.mp htext
      rw [List.flatMap_append, List.flatMap_append, List.flatMap_singleton,
        plain_of_sameLetter hp hsame, ih hrest hright]
      rfl

/-- A phrase found in what a literal covers is in the literal. -/
theorem infix_of_literal {text found phrase : List Char}
    (htext : ∀ p ∈ text, isPlain p = true) (hphrase : ∀ c ∈ phrase, isPlain c = true)
    (hfound : (Regex.literal text).Spelled found)
    (hin : phrase <:+: found.flatMap lowerChar) : phrase <:+: text.flatMap lowerChar := by
  have hlower : text.flatMap lowerChar = text.map Char.toLower := by
    rw [List.flatMap_congr fun c hc => lowerChar_of_isPlain (htext c hc)]
    simp [List.map_eq_flatMap]
  have hplain : phrase.flatMap plainChar = phrase := by
    rw [List.flatMap_congr fun c hc => plainChar_of_isPlain (hphrase c hc)]
    simp
  obtain ⟨left, right, heq⟩ := hin
  refine ⟨left.flatMap plainChar, right.flatMap plainChar, ?_⟩
  rw [hlower, ← plain_of_literal htext hfound, ← heq, List.flatMap_append, List.flatMap_append, hplain]

end Text
end Library
end CoreCycler
