import Mathlib.Data.List.Induction
import Mathlib.Data.List.Nodup
import Mathlib.Order.Lattice
import Mathlib.Tactic

/-!
# Reading a growing log once

A reader is opened on a log that only grows, and is to hand out every entry that is appended
from then on once.  It does not keep its position: it keeps the time of the last line at its
opening, and the keys of what it has handed out, a key being the time of an entry and a tag.
Every read goes through the whole log.

`Window.Kept` relates the log, the reader and the reads so far.  Its field `handed` says which
entries have been handed out by all reads together: the first of each key that is younger
than the baseline.
-/

namespace CoreCycler
namespace Library
namespace LogReader

variable {Line Time Tag : Type*}

/-- How a line is read: `none` where it is no entry. -/
structure Format (Line Time Tag : Type*) where
  key : Line → Option (Time × Tag)

/-- What a reader remembers. -/
structure Window (Time Tag : Type*) where
  baseline : Time
  seen : List (Time × Tag) := []

namespace Format

variable (format : Format Line Time Tag)

/-- The key of a line of the log. -/
def keyAt (log : List Line) (index : Nat) : Option (Time × Tag) := log[index]?.bind format.key

variable {format} {log : List Line}

theorem keyAt_append {index : Nat} (hindex : index < log.length) (lines : List Line) :
    format.keyAt (log ++ lines) index = format.keyAt log index := by
  rw [keyAt, keyAt, List.getElem?_append_left hindex]

theorem keyAt_concat (log : List Line) (line : Line) :
    format.keyAt (log ++ [line]) log.length = format.key line := by
  rw [keyAt, List.getElem?_concat_length, Option.bind_some]

variable [LinearOrder Time] [DecidableEq Tag] (format)

/-- The reader comes to a line: it hands it out, by its index, unless it is old or seen. -/
def visit (baseline : Time) (state : List Nat × List (Time × Tag)) (entry : Line × Nat) :
    List Nat × List (Time × Tag) :=
  match format.key entry.1 with
  | none => state
  | some key =>
      if baseline < key.1 ∧ key ∉ state.2 then (state.1 ++ [entry.2], key :: state.2) else state

/-- One read of the log. -/
def read (window : Window Time Tag) (log : List Line) : List Nat × List (Time × Tag) :=
  log.zipIdx.foldl (format.visit window.baseline) ([], window.seen)

/-- The entry is younger than the baseline, and the first of its key. -/
def Fresh (baseline : Time) (log : List Line) (index : Nat) : Prop :=
  (∃ key ∈ format.keyAt log index, baseline < key.1) ∧
    ∀ earlier < index, format.keyAt log earlier ≠ format.keyAt log index

instance (baseline : Time) (log : List Line) (index : Nat) :
    Decidable (format.Fresh baseline log index) :=
  inferInstanceAs (Decidable (_ ∧ _))

variable {format} {window : Window Time Tag} {baseline : Time} {index : Nat}

@[simp] theorem read_nil (window : Window Time Tag) : format.read window [] = ([], window.seen) :=
  rfl

theorem read_concat (window : Window Time Tag) (log : List Line) (line : Line) :
    format.read window (log ++ [line]) =
      format.visit window.baseline (format.read window log) (line, log.length) := by
  simp only [read, List.zipIdx_append, List.foldl_append, List.zipIdx_cons, List.zipIdx_nil,
    List.foldl_cons, List.foldl_nil, Nat.zero_add]

/-- After a read, what has been seen is what was seen before and every young entry. -/
theorem mem_seen_read {key : Time × Tag} (log : List Line) :
    key ∈ (format.read window log).2 ↔
      key ∈ window.seen ∨ window.baseline < key.1 ∧
        ∃ index < log.length, format.keyAt log index = some key := by
  induction log using List.reverseRecOn with
  | nil => simp
  | append_singleton log line ih =>
      have hsplit : (∃ index < (log ++ [line]).length,
          format.keyAt (log ++ [line]) index = some key) ↔
          (∃ index < log.length, format.keyAt log index = some key) ∨
            format.key line = some key := by
        constructor
        · rintro ⟨index, hindex, hkey⟩
          rcases Nat.lt_succ_iff_lt_or_eq.mp (by simpa using hindex) with hlt | heq
          · exact .inl ⟨index, hlt, by rwa [keyAt_append hlt] at hkey⟩
          · rw [heq, keyAt_concat] at hkey
            exact .inr hkey
        · rintro (⟨index, hindex, hkey⟩ | hkey)
          · exact ⟨index, by simp; omega, by rwa [keyAt_append hindex]⟩
          · exact ⟨log.length, by simp, by rwa [keyAt_concat]⟩
      rw [read_concat, visit, hsplit]
      cases hline : format.key line with
      | none => simp [ih]
      | some found =>
          simp only
          split
          · rename_i hnew
            rw [List.mem_cons, ih, Option.some.injEq]
            constructor
            · rintro (rfl | hseen | ⟨hyoung, hmem⟩)
              · exact .inr ⟨hnew.1, .inr rfl⟩
              · exact .inl hseen
              · exact .inr ⟨hyoung, .inl hmem⟩
            · rintro (hseen | ⟨hyoung, hmem | rfl⟩)
              · exact .inr (.inl hseen)
              · exact .inr (.inr ⟨hyoung, hmem⟩)
              · exact .inl rfl
          · rename_i hold
            rw [ih, Option.some.injEq]
            constructor
            · rintro (hseen | ⟨hyoung, hmem⟩)
              · exact .inl hseen
              · exact .inr ⟨hyoung, .inl hmem⟩
            · rintro (hseen | ⟨hyoung, hmem | rfl⟩)
              · exact .inl hseen
              · exact .inr ⟨hyoung, hmem⟩
              · -- A young key that is not handed out has been seen.
                have hseen : found ∈ (format.read window log).2 := by
                  by_contra hnot
                  exact hold ⟨hyoung, hnot⟩
                exact ih.mp hseen

omit [DecidableEq Tag] in
theorem fresh_append (hindex : index < log.length) (lines : List Line) :
    format.Fresh baseline (log ++ lines) index ↔ format.Fresh baseline log index := by
  unfold Fresh
  rw [keyAt_append hindex]
  have hearlier : ∀ earlier < index, format.keyAt (log ++ lines) earlier =
      format.keyAt log earlier := fun earlier hlt => keyAt_append (Nat.lt_trans hlt hindex) lines
  exact and_congr_right fun _ => forall₂_congr fun earlier hlt => by rw [hearlier earlier hlt]

/-- A read hands out the fresh entries that have not been seen before it, in their order. -/
theorem read_eq (window : Window Time Tag) (log : List Line) :
    (format.read window log).1 = (List.range log.length).filter fun index =>
      decide (format.Fresh window.baseline log index ∧
        ∀ key ∈ format.keyAt log index, key ∉ window.seen) := by
  induction log using List.reverseRecOn with
  | nil => rfl
  | append_singleton log line ih =>
      have hbefore : ((List.range log.length).filter fun index =>
          decide (format.Fresh window.baseline (log ++ [line]) index ∧
            ∀ key ∈ format.keyAt (log ++ [line]) index, key ∉ window.seen)) =
          (format.read window log).1 := by
        rw [ih]
        refine List.filter_congr fun index hindex => ?_
        have hlt : index < log.length := List.mem_range.mp hindex
        rw [keyAt_append hlt]
        exact decide_eq_decide.mpr (and_congr_left fun _ => fresh_append hlt [line])
      rw [read_concat, List.length_append, List.length_singleton, List.range_succ,
        List.filter_append, hbefore, visit, List.filter_singleton, keyAt_concat]
      cases hline : format.key line with
      | none =>
          have hnot : ¬ format.Fresh window.baseline (log ++ [line]) log.length := by
            rintro ⟨⟨key, hkey, -⟩, -⟩
            rw [keyAt_concat, hline] at hkey
            exact absurd hkey (by simp)
          simp [hnot]
      | some key =>
          -- The line is handed out if its key is young, and neither the window nor an earlier line
          -- has it.
          have hiff : (window.baseline < key.1 ∧ key ∉ (format.read window log).2) ↔
              format.Fresh window.baseline (log ++ [line]) log.length ∧ key ∉ window.seen := by
            rw [mem_seen_read]
            unfold Fresh
            rw [keyAt_concat, hline]
            constructor
            · rintro ⟨hyoung, hnew⟩
              refine ⟨⟨⟨key, rfl, hyoung⟩, fun earlier hlt hsame => ?_⟩, fun hseen => hnew (.inl hseen)⟩
              rw [keyAt_append hlt] at hsame
              exact hnew (.inr ⟨hyoung, earlier, hlt, hsame⟩)
            · rintro ⟨⟨⟨other, hother, hyoung⟩, hfirst⟩, hunseen⟩
              obtain rfl : key = other := Option.some.inj hother
              refine ⟨hyoung, ?_⟩
              rintro (hseen | ⟨-, earlier, hlt, hsame⟩)
              · exact hunseen hseen
              · exact hfirst earlier hlt (by rw [keyAt_append hlt, hsame])
          simp only [Option.mem_some_iff, forall_eq', ← hiff]
          by_cases hnew : window.baseline < key.1 ∧ key ∉ (format.read window log).2
          · rw [if_pos hnew, decide_eq_true hnew, cond_true]
          · rw [if_neg hnew, decide_eq_false hnew, cond_false, List.append_nil]

end Format

/-! ## Over all reads -/

section Reads

variable [LinearOrder Time] [DecidableEq Tag]

/-- The log as it was when the reader was opened and when it was last read, what the reader
remembers, and what its reads have handed out, one list a read. -/
structure Window.Kept (format : Format Line Time Tag) (log : List Line) (opened readTo : Nat)
    (window : Window Time Tag) (reads : List (List Nat)) : Prop where
  opened_le : opened ≤ readTo
  readTo_le : readTo ≤ log.length
  /-- The baseline is no older than a line the log had at the opening. -/
  old : ∀ index < opened, ∀ key ∈ format.keyAt log index, key.1 ≤ window.baseline
  seen : ∀ key, key ∈ window.seen ↔
    window.baseline < key.1 ∧ ∃ index < readTo, format.keyAt log index = some key
  handed : reads.flatten =
    (List.range readTo).filter fun index => decide (format.Fresh window.baseline log index)

namespace Window.Kept

variable {format : Format Line Time Tag} {log : List Line} {opened readTo index : Nat}
  {window : Window Time Tag} {reads : List (List Nat)}

/-- A reader is opened on a log none of whose lines is younger than the baseline. -/
theorem opening {baseline : Time}
    (hold : ∀ index < log.length, ∀ key ∈ format.keyAt log index, key.1 ≤ baseline) :
    Kept format log log.length log.length { baseline } [] where
  opened_le := Nat.le_refl _
  readTo_le := Nat.le_refl _
  old := hold
  seen := by
    intro key
    refine iff_of_false List.not_mem_nil ?_
    rintro ⟨hyoung, index, hindex, hkey⟩
    exact not_lt_of_ge (hold index hindex key hkey) hyoung
  handed := by
    refine (List.filter_eq_nil_iff.mpr fun index hindex => ?_).symm
    rw [decide_eq_true_eq]
    rintro ⟨⟨key, hkey, hyoung⟩, -⟩
    exact not_lt_of_ge (hold index (List.mem_range.mp hindex) key hkey) hyoung

/-- The log grows. -/
theorem grow (hkept : Kept format log opened readTo window reads) (lines : List Line) :
    Kept format (log ++ lines) opened readTo window reads := by
  obtain ⟨hopened, hread, hold, hseen, hhanded⟩ := hkept
  have hsame : ∀ index < readTo, format.keyAt (log ++ lines) index = format.keyAt log index :=
    fun index hlt => Format.keyAt_append (Nat.lt_of_lt_of_le hlt hread) lines
  refine ⟨hopened, ?_, ?_, ?_, ?_⟩
  · rw [List.length_append]
    exact Nat.le_add_right_of_le hread
  · intro index hlt
    rw [hsame index (Nat.lt_of_lt_of_le hlt hopened)]
    exact hold index hlt
  · intro key
    rw [hseen]
    refine and_congr_right fun _ => exists_congr fun index => and_congr_right fun hlt => ?_
    rw [hsame index hlt]
  · rw [hhanded]
    refine List.filter_congr fun index hindex => ?_
    have hlt : index < log.length := Nat.lt_of_lt_of_le (List.mem_range.mp hindex) hread
    exact decide_eq_decide.mpr (Format.fresh_append hlt lines).symm

/-- The log is read. -/
theorem read (hkept : Kept format log opened readTo window reads) :
    Kept format log opened log.length { window with seen := (format.read window log).2 }
      (reads ++ [(format.read window log).1]) := by
  obtain ⟨hopened, hread, hold, hseen, hhanded⟩ := hkept
  refine ⟨Nat.le_trans hopened hread, Nat.le_refl _, hold, ?_, ?_⟩
  · intro key
    rw [Format.mem_seen_read, hseen]
    constructor
    · rintro (⟨hyoung, index, hlt, hkey⟩ | ⟨hyoung, index, hlt, hkey⟩)
      · exact ⟨hyoung, index, Nat.lt_of_lt_of_le hlt hread, hkey⟩
      · exact ⟨hyoung, index, hlt, hkey⟩
    · exact .inr
  · -- What the read before has passed over is not fresh, or has been seen.
    have hsplit : List.range log.length =
        List.range readTo ++ (List.range (log.length - readTo)).map (readTo + ·) := by
      rw [← List.range_add]
      congr 1
      omega
    have hfirst : ((List.range readTo).filter fun index =>
        decide (format.Fresh window.baseline log index ∧
          ∀ key ∈ format.keyAt log index, key ∉ window.seen)) = [] := by
      refine List.filter_eq_nil_iff.mpr fun index hindex => ?_
      rw [decide_eq_true_eq]
      rintro ⟨⟨⟨key, hkey, hyoung⟩, -⟩, hunseen⟩
      exact hunseen key hkey ((hseen key).mpr ⟨hyoung, index, List.mem_range.mp hindex, hkey⟩)
    have hlater : ∀ index ∈ (List.range (log.length - readTo)).map (readTo + ·),
        decide (format.Fresh window.baseline log index ∧
          ∀ key ∈ format.keyAt log index, key ∉ window.seen) =
        decide (format.Fresh window.baseline log index) := by
      intro index hindex
      obtain ⟨offset, -, rfl⟩ := List.mem_map.mp hindex
      refine decide_eq_decide.mpr (and_iff_left_of_imp ?_)
      rintro ⟨-, hnew⟩ key hkey hmem
      obtain ⟨-, earlier, hlt, hsame⟩ := (hseen key).mp hmem
      exact hnew earlier (Nat.lt_of_lt_of_le hlt (Nat.le_add_right _ _)) (hsame.trans hkey.symm)
    rw [List.flatten_append, List.flatten_singleton, hhanded, Format.read_eq, hsplit,
      List.filter_append, List.filter_append, hfirst, List.nil_append,
      List.filter_congr hlater]

/-- A read is skipped. -/
theorem skip (hkept : Kept format log opened readTo window reads) :
    Kept format log opened readTo window (reads ++ [[]]) := by
  refine { hkept with handed := ?_ }
  rw [List.flatten_append, List.flatten_singleton, List.append_nil, hkept.handed]

/-- How often the reads have handed out an entry. -/
theorem count_eq (hkept : Kept format log opened readTo window reads) (index : Nat) :
    reads.flatten.count index =
      if index < readTo ∧ format.Fresh window.baseline log index then 1 else 0 := by
  have hnodup : reads.flatten.Nodup := hkept.handed ▸ (List.nodup_range.filter _)
  rw [hnodup.count, hkept.handed]
  simp only [List.mem_filter, List.mem_range, decide_eq_true_eq]

/-- No line that was there at the opening is handed out. -/
theorem opened_le_of_mem (hkept : Kept format log opened readTo window reads)
    (hmem : index ∈ reads.flatten) : opened ≤ index := by
  rw [hkept.handed, List.mem_filter, decide_eq_true_eq] at hmem
  obtain ⟨-, ⟨key, hkey, hyoung⟩, -⟩ := hmem
  by_contra hlt
  exact not_lt_of_ge (hkept.old index (Nat.lt_of_not_le hlt) key hkey) hyoung

end Window.Kept

end Reads

end LogReader
end Library
end CoreCycler
