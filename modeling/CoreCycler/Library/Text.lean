import Mathlib.Data.List.Infix
import Mathlib.Tactic.SplitIfs

/-!
# Searching a text for a phrase

`Mentions` is a search that ignores case.  A text put together from parts mentions a
phrase only where one part does, as long as what stands between them shares no character
with the phrase.
-/

namespace CoreCycler
namespace Library
namespace Text

/-- A phrase that shares no character with what separates two parts lies in one of them. -/
theorem infix_or_infix {α : Type*} {phrase before gap after : List α} (hgap : gap ≠ [])
    (hapart : ∀ item ∈ gap, item ∉ phrase) (hin : phrase <:+: before ++ gap ++ after) :
    phrase <:+: before ∨ phrase <:+: after := by
  obtain ⟨left, right, heq⟩ := hin
  obtain ⟨first, rest, rfl⟩ := List.exists_cons_of_ne_nil hgap
  rw [List.append_assoc, List.append_assoc, List.append_eq_append_iff] at heq
  rcases heq with ⟨front, hbefore, hrest⟩ | ⟨front, hleft, hrest⟩
  · -- The phrase starts within `before`.
    rw [List.append_eq_append_iff] at hrest
    rcases hrest with ⟨tail, hfront, -⟩ | ⟨tail, hphrase, htail⟩
    · exact Or.inl ⟨left, tail, by rw [hbefore, hfront, List.append_assoc]⟩
    · cases tail with
      | nil =>
          refine Or.inl ⟨left, [], ?_⟩
          rw [hbefore, hphrase]
          simp
      | cons item others =>
          have hitem : first = item := by simpa using congrArg List.head? htail
          exact absurd (by rw [hphrase, hitem]; simp) (hapart first (by simp))
  · -- It starts within the gap or after it.
    cases hphrase : phrase with
    | nil => exact Or.inl (List.nil_infix)
    | cons item others =>
        rw [hphrase, List.append_eq_append_iff] at hrest
        rcases hrest with ⟨middle, -, hafter⟩ | ⟨middle, hfront, hmiddle⟩
        · exact Or.inr ⟨middle, right, by rw [hafter]; simp⟩
        · cases middle with
          | nil => exact Or.inr ⟨[], right, by simpa using hmiddle⟩
          | cons other more =>
              have hitem : item = other := by simpa using congrArg List.head? hmiddle
              refine absurd ?_ (hapart other ?_)
              · rw [hphrase, hitem]
                simp
              · rw [hfront]
                simp

/-- A character in lower case.  Outside ASCII only the Kelvin sign and the dotted capital I
have an ASCII letter in their lower case. -/
def lowerChar (c : Char) : List Char :=
  if c = '\u212a' then ['k'] else if c = '\u0130' then ['i', '\u0307'] else [c.toLower]

/-- The characters of a text, in lower case. -/
def lower (text : String) : List Char := text.toList.flatMap lowerChar

theorem lowerChar_ne_nil (c : Char) : lowerChar c ≠ [] := by
  unfold lowerChar
  split_ifs <;> simp

/-- A digit has no other case. -/
theorem lowerChar_of_isDigit {c : Char} (hdigit : c.isDigit = true) : lowerChar c = [c] := by
  simp only [Char.isDigit, Bool.and_eq_true, decide_eq_true_eq] at hdigit
  have h57 : c.val ≤ 57 := hdigit.2
  have hkelvin : c ≠ '\u212a' := by
    rintro rfl
    exact absurd h57 (by decide)
  have hdotted : c ≠ '\u0130' := by
    rintro rfl
    exact absurd h57 (by decide)
  have hlower : c.toLower = c := by
    unfold Char.toLower
    rw [dif_neg]
    intro hupper
    have h65 : 65 ≤ c.val := hupper.1
    exact absurd (UInt32.le_trans h65 h57) (by decide)
  rw [lowerChar, if_neg hkelvin, if_neg hdotted, hlower]

theorem lower_ne_nil {text : String} (hne : text.toList ≠ []) : lower text ≠ [] := by
  obtain ⟨first, rest, htext⟩ := List.exists_cons_of_ne_nil hne
  rw [lower, htext, List.flatMap_cons]
  exact List.append_ne_nil_of_left_ne_nil (lowerChar_ne_nil first) _

@[simp] theorem lower_append (first second : String) :
    lower (first ++ second) = lower first ++ lower second := by
  simp [lower]

/-- The text has the phrase in it, whatever the case; the phrase is in lower case. -/
def Mentions (text : List Char) (phrase : String) : Prop := phrase.toList <:+: text

instance (text : List Char) (phrase : String) : Decidable (Mentions text phrase) :=
  inferInstanceAs (Decidable (_ <:+: _))

/-- The search itself. -/
def occurs (phrase : List Char) : List Char → Bool
  | [] => phrase.isEmpty
  | c :: rest => phrase.isPrefixOf (c :: rest) || occurs phrase rest

theorem mentions_append_left {first second : List Char} {phrase : String}
    (h : Mentions first phrase) : Mentions (first ++ second) phrase :=
  List.IsInfix.trans h (List.prefix_append _ _).isInfix

theorem mentions_append_right {first second : List Char} {phrase : String}
    (h : Mentions second phrase) : Mentions (first ++ second) phrase :=
  List.IsInfix.trans h (List.suffix_append _ _).isInfix

end Text
end Library
end CoreCycler
