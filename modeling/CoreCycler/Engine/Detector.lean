import Mathlib.Algebra.Order.Ring.Rat
import CoreCycler.Library.LogReader
import CoreCycler.Library.Rounding
import CoreCycler.Library.StepSystem
import CoreCycler.Engine.Signatures

/-!
# The kernel error monitor

`classify_mce_line`, which takes a line of the kernel log for an error or not, and
`ErrorDetector`, which is to return every error since its last reset once.  Its novelty test
is that of `Library.LogReader`: the time of the last line at the reset, and the times, CPUs
and banks of what has been returned.

`monitoring` runs a detector next to a log that only grows.  Nothing that was in the log at a
reset is returned after it.  What is appended is returned once by the next forced check if
and only if its time stamp is a later one than the log had at the reset, and no error before
it has the same time stamp, CPU and bank (`consumedOnce_iff`).
-/

namespace CoreCycler
namespace Engine

open Library Library.Rounding Library.Text

/-! ## Patterns with groups -/

/-- A part of a pattern, whose text a group may ask for. -/
structure Part where
  expr : Regex
  /-- The shortest match first: `*?`. -/
  shortest : Bool := false

def Part.ends (part : Part) (before after : List Char) : List (List Char × List Char) :=
  if part.shortest then (part.expr.ends before after).reverse else part.expr.ends before after

/-- The matches of a sequence of parts from a position, the preferred one first: the text of
each part, and the text after the match. -/
def groupEnds : List Part → List Char → List Char → List (List (List Char) × List Char)
  | [], _, after => [([], after)]
  | part :: rest, before, after =>
      (part.ends before after).flatMap fun place =>
        (groupEnds rest place.1 place.2).map fun found =>
          (after.take (after.length - place.2.length) :: found.1, found.2)

/-- `re.search`: the texts of the parts in the first match. -/
def searchGroups (parts : List Part) : List Char → List Char → Option (List (List Char))
  | before, [] => (groupEnds parts before []).head?.map Prod.fst
  | before, c :: rest =>
      match groupEnds parts before (c :: rest) with
      | found :: _ => some found.1
      | [] => searchGroups parts (c :: before) rest

section Classifying

variable (classes : CharClasses) (digitValue : Char → Nat)

/-- `int` of a run of digits. -/
def decimal (digits : List Char) : Nat :=
  digits.foldl (fun value digit => 10 * value + digitValue digit) 0

/-- `str.strip`. -/
def strip (text : List Char) : List Char :=
  ((text.dropWhile classes.space).reverse.dropWhile classes.space).reverse

/-- `\d+`. -/
def someDigits : Regex := .seq (.one classes.digit) (.many classes.digit)

/-- `[:\s]+`. -/
def colonOrSpace : Regex :=
  .seq (.one fun c => c == ':' || classes.space c) (.many fun c => c == ':' || classes.space c)

/-- `_AMD_STATUS_RE`; the CPU, the bank and the flags are parts 2, 6 and 8. -/
def amdStatus : List Part :=
  [⟨.literal "cpu".toList, false⟩, ⟨colonOrSpace classes, false⟩, ⟨someDigits classes, false⟩,
    ⟨.many anyInLine, true⟩, ⟨.boundary classes.word, false⟩, ⟨.literal "mc".toList, false⟩,
    ⟨someDigits classes, false⟩, ⟨.literal "_status[".toList, false⟩, ⟨.many (· ≠ ']'), false⟩,
    ⟨.one (· == ']'), false⟩]

/-- `_CPU_RE` and `_BANK_RE`; the number is part 3. -/
def numbered (word : String) : List Part :=
  [⟨.boundary classes.word, false⟩, ⟨.literal word.toList, false⟩,
    ⟨colonOrSpace classes, false⟩, ⟨someDigits classes, false⟩]

/-- The number after a word, -1 where the line has none. -/
def numberAfter (word : String) (lowered : List Char) : Int :=
  match (searchGroups (numbered classes word) [] lowered).bind (·[3]?) with
  | some digits => decimal digitValue digits
  | none => -1

def infoPatterns : List String :=
  ["cpu supports", "mce banks", "events logged", "mce_cpu_quirks", "mce: using", "mce: cmci",
    "mce_intel", "check polling timer"]

def errorIndicators : List String :=
  ["hardware error", "bank ", "machine check exception", "fatal machine check", "uncorrected",
    "corrected error", "mca:", "status:", "tsc:", "addr:", "misc:", "severity:"]

def isMceErrorLine (lowered : List Char) : Bool :=
  let mentions (phrase : String) := occurs phrase.toList lowered
  (mentions "mce" || mentions "machine check") && !infoPatterns.any mentions &&
    errorIndicators.any mentions

def kernelErrorIndicators : List String :=
  ["kernel panic", "oops:", "bug:", "bug at ", "general protection fault", "invalid opcode",
    "rip:", "call trace:", "kernel bug at"]

def isKernelErrorLine (lowered : List Char) : Bool :=
  kernelErrorIndicators.any fun phrase => occurs phrase.toList lowered

/-- An error in the kernel log, with its bank (-1 where the line names none) and the time
stamp of its line. -/
structure KernelError extends MCEEvent where
  bank : Int
  rawTs : ℚ := 0
deriving DecidableEq

/-- `\bcorrected\b`. -/
def corrected : Regex :=
  .seq (.boundary classes.word) (.seq (.literal "corrected".toList) (.boundary classes.word))

def classifyMceLine (body : List Char) : Option KernelError :=
  let lowered := body.flatMap lowerChar
  let message := String.ofList (strip classes body)
  match searchGroups (amdStatus classes) [] lowered with
  | some groups =>
      -- An AMD status line names its CPU and its flags, in fields of their own.
      let flags := ((groups.getD 8 []).splitOn '|').map (strip classes)
      some
        { cpu := decimal digitValue (groups.getD 2 [])
          bank := decimal digitValue (groups.getD 6 [])
          message
          corrected := decide ("ce".toList ∈ flags ∧ "ue".toList ∉ flags) }
  | none =>
      if isMceErrorLine lowered then
        some
          { cpu := numberAfter classes digitValue "cpu" lowered
            bank := numberAfter classes digitValue "bank" lowered
            message
            corrected := ((corrected classes).search lowered).isSome &&
              !occurs "uncorrected".toList lowered && !occurs "uncorrectable".toList lowered }
      else if isKernelErrorLine lowered then
        some { cpu := -1, bank := -1, message, corrected := false }
      else none

/-! ## Time stamps -/

/-- `\s*\[?\s*([\d.]+)`; the time stamp is part 3. -/
def stampParts : List Part :=
  [⟨.many classes.space, false⟩, ⟨.alt (.one (· == '[')) .empty, false⟩,
    ⟨.many classes.space, false⟩,
    ⟨.seq (.one fun c => classes.digit c || c == '.') (.many fun c => classes.digit c || c == '.'),
      false⟩]

/-- `\]?\s?`. -/
def stampClosing : List Part :=
  [⟨.alt (.one (· == ']')) .empty, false⟩, ⟨.alt (.one classes.space) .empty, false⟩]

/-- `float` of digits and dots. -/
def parseFloat (text : List Char) : Option ℚ :=
  match text.splitOn '.' with
  | [whole] => if whole = [] then none else some (binary64.round (decimal digitValue whole))
  | [whole, fraction] =>
      if whole = [] ∧ fraction = [] then none
      else some (binary64.round (decimal digitValue whole +
        (decimal digitValue fraction : ℚ) / (10 : ℚ) ^ fraction.length))
  | _ => none

/-- The time stamp of a line and its body, `none` where a check passes over the line. -/
def stamped (line : List Char) : Option (ℚ × List Char) := do
  let (groups, body) ← (groupEnds (stampParts classes ++ stampClosing classes) [] line).head?
  let text ← groups[3]?
  let rawTs ← parseFloat digitValue text
  pure (rawTs, body)

/-- The error of a line, with its time stamp. -/
def lineError (line : List Char) : Option KernelError := do
  let (rawTs, body) ← stamped classes digitValue line
  let event ← classifyMceLine classes digitValue body
  pure { event with rawTs }

/-! ## The detector -/

structure ErrorDetector where
  dmesgBaselineTs : Option ℚ := none
  lastDmesgTime : ℚ := 0
  seen : List (ℚ × Int × Int) := []

/-- `DMESG_MIN_INTERVAL`. -/
def dmesgMinInterval : ℚ := 5

/-- The time stamp of the last line of `dmesg`, or 0 where there is none. -/
def getDmesgRawTimestamp (lines : List (List Char)) : Except String ℚ :=
  match (lines.reverse.dropWhile fun line => line.all classes.space).head? with
  | none => .ok 0
  | some line =>
      match (groupEnds (stampParts classes) [] line).head?.bind (·.1[3]?) with
      | none => .error "kernel error monitor has an unreadable baseline"
      | some text =>
          match parseFloat digitValue text with
          | none => .error "kernel error monitor has an unreadable baseline"
          | some rawTs => .ok rawTs

namespace ErrorDetector

/-- `reset`, with what `_read_dmesg` returns or raises. -/
def reset (detector : ErrorDetector) (output : Except String (List (List Char))) :
    Except String ErrorDetector := do
  let lines ← output
  let baseline ← getDmesgRawTimestamp classes digitValue lines
  pure { detector with dmesgBaselineTs := some baseline, lastDmesgTime := 0, seen := [] }

/-- One turn of the loop over the lines, which are numbered here. -/
def visitLine (baseline : ℚ) (state : List (Nat × KernelError) × List (ℚ × Int × Int))
    (entry : List Char × Nat) : List (Nat × KernelError) × List (ℚ × Int × Int) :=
  match stamped classes digitValue entry.1 with
  | none => state
  | some (rawTs, body) =>
      if rawTs ≤ baseline then state
      else
        match classifyMceLine classes digitValue body with
        | none => state
        | some event =>
            let event := { event with rawTs }
            let key := (rawTs, event.cpu, event.bank)
            if key ∈ state.2 then state
            else (state.1 ++ [(entry.2, event)], key :: state.2)

/-- `check_mce`: the new errors, here each with the number of its line. -/
def checkMce (detector : ErrorDetector) (force : Bool) (now : ℚ)
    (output : Except String (List (List Char))) :
    Except String (List (Nat × KernelError) × ErrorDetector) :=
  match detector.dmesgBaselineTs with
  | none => .error "kernel error monitor has no baseline"
  | some baseline =>
      if force = false ∧ now - detector.lastDmesgTime < dmesgMinInterval then .ok ([], detector)
      else do
        let lines ← output
        let (events, seen) := lines.zipIdx.foldl (visitLine classes digitValue baseline)
          ([], detector.seen)
        pure (events, { detector with lastDmesgTime := now, seen })

end ErrorDetector

/-! ## A detector next to a growing log -/

/-- A detector and the log it reads.  The other fields record the run: the length of the log
at the last reset and at the last forced check since, and what the checks have returned,
one list a call, before the last reset and since. -/
structure Monitor where
  log : List (List Char)
  detector : ErrorDetector := {}
  resetAt : Option Nat := none
  forcedAt : Nat := 0
  earlier : List (List (Nat × KernelError)) := []
  calls : List (List (Nat × KernelError)) := []

/-- The log grows, or the detector is called; `failure` is what `_read_dmesg` raises. -/
inductive MonitorEvent where
  | grow (lines : List (List Char))
  | reset (failure : Option String)
  | check (force : Bool) (now : ℚ) (failure : Option String)

namespace Monitor

/-- What a read of the log comes to. -/
def output (monitor : Monitor) : Option String → Except String (List (List Char))
  | some exc => .error exc
  | none => .ok monitor.log

/-- A call that raises leaves the detector as it is. -/
def step (monitor : Monitor) : MonitorEvent → Monitor
  | .grow lines => { monitor with log := monitor.log ++ lines }
  | .reset failure =>
      match monitor.detector.reset classes digitValue (monitor.output failure) with
      | .error _ => monitor
      | .ok detector =>
          { monitor with
            detector
            resetAt := some monitor.log.length
            forcedAt := monitor.log.length
            earlier := monitor.earlier ++ monitor.calls
            calls := [] }
  | .check force now failure =>
      match monitor.detector.checkMce classes digitValue force now (monitor.output failure) with
      | .error _ => monitor
      | .ok (events, detector) =>
          { monitor with
            detector
            forcedAt := if force then monitor.log.length else monitor.forcedAt
            calls := monitor.calls ++ [events] }

end Monitor

/-- Every line has a time stamp, and none is younger than a line after it. -/
def Ordered (log : List (List Char)) : Prop :=
  ∃ stamps : List ℚ,
    log.map (fun line => (stamped classes digitValue line).map Prod.fst) = stamps.map some ∧
      stamps.Pairwise (· ≤ ·)

/-- The log grows by lines with time stamps in their order. -/
def orderly (monitor : Monitor) : MonitorEvent → Prop
  | .grow lines => Ordered classes digitValue (monitor.log ++ lines)
  | _ => True

/-- Any log, and a detector that has not been reset. -/
def monitoring : StepSystem Monitor MonitorEvent where
  Start monitor := monitor = { log := monitor.log } ∧ Ordered classes digitValue monitor.log
  step monitor event := some (monitor.step classes digitValue event)

/-! ## The detector as a reader of the log -/

/-- The key of a line's error. -/
def KernelError.key (error : KernelError) : ℚ × Int × Int :=
  (error.rawTs, error.cpu, error.bank)

/-- The lines that are errors, by time stamp, CPU and bank. -/
def errorFormat : LogReader.Format (List Char) ℚ (Int × Int) where
  key line := (lineError classes digitValue line).map KernelError.key

variable {classes} {digitValue}

theorem lineError_of_none {line : List Char} (hstamped : stamped classes digitValue line = none) :
    lineError classes digitValue line = none := by
  rw [lineError, hstamped]
  rfl

theorem lineError_of_some {line body : List Char} {rawTs : ℚ}
    (hstamped : stamped classes digitValue line = some (rawTs, body)) :
    lineError classes digitValue line =
      (classifyMceLine classes digitValue body).map fun event => { event with rawTs } := by
  rw [lineError, hstamped]
  simp only [Option.bind_eq_bind, Option.bind_some, Option.pure_def]
  rw [Option.map_eq_bind]
  rfl

/-- The first part of a line's key is its time stamp. -/
theorem stamped_of_key {line : List Char} {key : ℚ × Int × Int}
    (hkey : (errorFormat classes digitValue).key line = some key) :
    (stamped classes digitValue line).map Prod.fst = some key.1 := by
  obtain ⟨error, herror, rfl⟩ := Option.map_eq_some_iff.mp hkey
  cases hstamped : stamped classes digitValue line with
  | none =>
      rw [lineError_of_none hstamped] at herror
      exact absurd herror (by simp)
  | some found =>
      obtain ⟨rawTs, body⟩ := found
      rw [lineError_of_some hstamped, Option.map_eq_some_iff] at herror
      obtain ⟨event, -, rfl⟩ := herror
      rfl

/-- One turn of the loop is one visit of the reader. -/
theorem visitLine_eq (baseline : ℚ) (state : List (Nat × KernelError) × List (ℚ × Int × Int))
    (entry : List Char × Nat) :
    ((ErrorDetector.visitLine classes digitValue baseline state entry).1.map Prod.fst,
        (ErrorDetector.visitLine classes digitValue baseline state entry).2) =
      (errorFormat classes digitValue).visit baseline (state.1.map Prod.fst, state.2) entry := by
  have hkey : (errorFormat classes digitValue).key entry.1 =
      (lineError classes digitValue entry.1).map KernelError.key := rfl
  rw [LogReader.Format.visit, hkey, ErrorDetector.visitLine]
  cases hstamped : stamped classes digitValue entry.1 with
  | none =>
      rw [lineError_of_none hstamped]
      rfl
  | some found =>
      obtain ⟨rawTs, body⟩ := found
      rw [lineError_of_some hstamped]
      dsimp only
      cases hevent : classifyMceLine classes digitValue body with
      | none => simp only [Option.map_none, ite_self]
      | some event =>
          simp only [Option.map_some, KernelError.key]
          by_cases hold : rawTs ≤ baseline
          · rw [if_pos hold, if_neg fun hnew => not_lt_of_ge hold hnew.1]
          · by_cases hseen : (rawTs, event.cpu, event.bank) ∈ state.2
            · rw [if_neg hold, if_pos hseen, if_neg fun hnew => hnew.2 hseen]
            · rw [if_neg hold, if_neg hseen, if_pos ⟨lt_of_not_ge hold, hseen⟩, List.map_append]
              rfl

/-- What the loop returns comes from the lines. -/
theorem visitLine_genuine {baseline : ℚ}
    {state : List (Nat × KernelError) × List (ℚ × Int × Int)} {entry : List Char × Nat}
    {found : Nat × KernelError}
    (hfound : found ∈ (ErrorDetector.visitLine classes digitValue baseline state entry).1) :
    found ∈ state.1 ∨ found.1 = entry.2 ∧ lineError classes digitValue entry.1 = some found.2 := by
  unfold ErrorDetector.visitLine at hfound
  cases hstamped : stamped classes digitValue entry.1 with
  | none =>
      rw [hstamped] at hfound
      exact .inl hfound
  | some pair =>
      obtain ⟨rawTs, body⟩ := pair
      rw [lineError_of_some hstamped]
      rw [hstamped] at hfound
      cases hevent : classifyMceLine classes digitValue body with
      | none =>
          simp only [hevent, ite_self] at hfound
          exact .inl hfound
      | some event =>
          simp only [hevent] at hfound
          split_ifs at hfound
          · exact .inl hfound
          · exact .inl hfound
          · rcases List.mem_append.mp hfound with hmem | hmem
            · exact .inl hmem
            · obtain rfl := List.mem_singleton.mp hmem
              exact .inr ⟨rfl, rfl⟩

variable (classes digitValue) in
/-- The error on a line of the log. -/
def errorAt (log : List (List Char)) (index : Nat) : Option KernelError :=
  log[index]?.bind (lineError classes digitValue)

theorem errorAt_concat (log : List (List Char)) (line : List Char) (index : Nat) :
    errorAt classes digitValue (log ++ [line]) index =
      if index = log.length then lineError classes digitValue line
      else errorAt classes digitValue log index := by
  unfold errorAt
  split
  · rename_i hindex
    rw [hindex, List.getElem?_concat_length, Option.bind_some]
  · rename_i hindex
    rcases Nat.lt_or_gt_of_ne hindex with hlt | hgt
    · rw [List.getElem?_append_left hlt]
    · rw [List.getElem?_eq_none (by simp; omega), List.getElem?_eq_none (by omega)]

/-- One loop over the log is one read of the reader, and returns errors of its lines. -/
theorem foldl_visitLine (baseline : ℚ) (seen : List (ℚ × Int × Int)) (log : List (List Char)) :
    ((log.zipIdx.foldl (ErrorDetector.visitLine classes digitValue baseline)
          ([], seen)).1.map Prod.fst,
        (log.zipIdx.foldl (ErrorDetector.visitLine classes digitValue baseline) ([], seen)).2) =
        (errorFormat classes digitValue).read { baseline, seen } log ∧
      ∀ found ∈ (log.zipIdx.foldl (ErrorDetector.visitLine classes digitValue baseline)
        ([], seen)).1, errorAt classes digitValue log found.1 = some found.2 := by
  induction log using List.reverseRecOn with
  | nil => exact ⟨rfl, fun found hfound => absurd hfound List.not_mem_nil⟩
  | append_singleton log line ih =>
      obtain ⟨hread, hgenuine⟩ := ih
      have hlast : (log ++ [line]).zipIdx.foldl
          (ErrorDetector.visitLine classes digitValue baseline) ([], seen) =
          ErrorDetector.visitLine classes digitValue baseline
            (log.zipIdx.foldl (ErrorDetector.visitLine classes digitValue baseline) ([], seen))
            (line, log.length) := by
        simp only [List.zipIdx_append, List.foldl_append, List.zipIdx_cons, List.zipIdx_nil,
          List.foldl_cons, List.foldl_nil, Nat.zero_add]
      rw [hlast]
      refine ⟨?_, ?_⟩
      · rw [visitLine_eq, hread, LogReader.Format.read_concat]
      · intro found hfound
        rw [errorAt_concat]
        rcases visitLine_genuine hfound with hmem | ⟨hindex, herror⟩
        · have hsome := hgenuine found hmem
          rw [if_neg, hsome]
          rintro heq
          rw [heq, errorAt, List.getElem?_eq_none (Nat.le_refl _)] at hsome
          exact absurd hsome (by simp)
        · rw [if_pos hindex, herror]

/-! ## Baselines -/

/-- A time stamp has no white space in it. -/
structure CharClasses.Apart (classes : CharClasses) : Prop where
  digit : ∀ c, classes.digit c = true → classes.space c = false
  dot : classes.space '.' = false

/-- The parts of a match cover the text up to its end. -/
theorem groupEnds_spelled {parts : List Part} {before after : List Char}
    {found : List (List Char) × List Char} (hfound : found ∈ groupEnds parts before after) :
    List.Forall₂ (fun part text => part.expr.Spelled text) parts found.1 ∧
      after = found.1.flatten ++ found.2 := by
  induction parts generalizing before after found with
  | nil =>
      obtain rfl := List.mem_singleton.mp hfound
      exact ⟨.nil, rfl⟩
  | cons part rest ih =>
      obtain ⟨place, hplace, hrest⟩ := List.mem_flatMap.mp hfound
      obtain ⟨later, hlater, rfl⟩ := List.mem_map.mp hrest
      have hend : place ∈ part.expr.ends before after := by
        unfold Part.ends at hplace
        split at hplace
        · exact List.mem_reverse.mp hplace
        · exact hplace
      obtain ⟨text, hafter, hspelled⟩ := Regex.ends_spelled part.expr place hend
      obtain ⟨hparts, hplace⟩ := ih hlater
      have htake : after.take (after.length - place.2.length) = text := by
        rw [hafter, List.length_append, Nat.add_sub_cancel, List.take_left]
      refine ⟨.cons (by rwa [htake]) hparts, ?_⟩
      rw [List.flatten_cons, htake, List.append_assoc, ← hplace]
      exact hafter

/-- Parts that match anywhere do not change what is matched before them. -/
theorem head?_groupEnds_append (parts : List Part) {closing : List Part}
    (hclosing : ∀ before after, groupEnds closing before after ≠ []) (before after : List Char) :
    (groupEnds (parts ++ closing) before after).head?.map (fun found => found.1.take parts.length) =
      (groupEnds parts before after).head?.map Prod.fst := by
  induction parts generalizing before after with
  | nil =>
      obtain ⟨first, rest, hends⟩ := List.exists_cons_of_ne_nil (hclosing before after)
      rw [List.nil_append, hends]
      rfl
  | cons part rest ih =>
      rw [List.cons_append, groupEnds, groupEnds, List.head?_flatMap, List.head?_flatMap,
        List.map_findSome?, List.map_findSome?]
      congr 1
      funext place
      simp only [Function.comp_apply, List.head?_map, Option.map_map]
      have hplace := congrArg (Option.map fun texts =>
        after.take (after.length - place.2.length) :: texts) (ih place.1 place.2)
      rw [Option.map_map, Option.map_map] at hplace
      exact hplace

/-- Parts that can be left out match anywhere. -/
theorem groupEnds_ne_nil {parts : List Part}
    (hparts : ∀ part ∈ parts, ∀ before after, (before, after) ∈ part.ends before after)
    (before after : List Char) : groupEnds parts before after ≠ [] := by
  induction parts with
  | nil => exact List.cons_ne_nil _ _
  | cons part rest ih =>
      have hrest := ih fun other hmem => hparts other (List.mem_cons_of_mem _ hmem)
      intro hempty
      rw [groupEnds, List.flatMap_eq_nil_iff] at hempty
      have hhere := hempty (before, after) (hparts part List.mem_cons_self before after)
      exact hrest (List.map_eq_nil_iff.mp hhere)

theorem stampClosing_ne_nil (before after : List Char) :
    groupEnds (stampClosing classes) before after ≠ [] := by
  refine groupEnds_ne_nil ?_ before after
  intro part hpart before after
  have hoption : ∀ test : Char → Bool,
      (before, after) ∈ (Part.mk (.alt (.one test) .empty) false).ends before after :=
    fun test => List.mem_append_right _ (List.mem_singleton_self _)
  rcases List.mem_cons.mp hpart with rfl | hpart
  · exact hoption _
  · obtain rfl := List.mem_singleton.mp hpart
    exact hoption _

variable (classes digitValue) in
/-- The text of a line's time stamp. -/
def stampText (line : List Char) : Option (List Char) :=
  (groupEnds (stampParts classes) [] line).head?.bind (·.1[3]?)

/-- The time stamp of a line is read off the same text at a reset and at a check. -/
theorem stamped_fst (line : List Char) :
    (stamped classes digitValue line).map Prod.fst =
      (stampText classes line).bind (parseFloat digitValue) := by
  have hclosing : ∀ before after, groupEnds (stampClosing classes) before after ≠ [] :=
    stampClosing_ne_nil
  have hhead := head?_groupEnds_append (stampParts classes) hclosing [] line
  unfold stamped stampText
  cases hfull : (groupEnds (stampParts classes ++ stampClosing classes) [] line).head? with
  | none =>
      rw [hfull, Option.map_none, eq_comm, Option.map_eq_none_iff] at hhead
      rw [hhead]
      rfl
  | some found =>
      obtain ⟨groups, body⟩ := found
      rw [hfull, Option.map_some, eq_comm, Option.map_eq_some_iff] at hhead
      obtain ⟨short, hshort, hgroups⟩ := hhead
      have hthird : short.1[3]? = groups[3]? := by
        rw [hgroups]
        exact List.getElem?_take_of_lt (show 3 < 4 by decide)
      rw [hshort]
      simp only [Option.bind_eq_bind, Option.bind_some, hthird]
      cases groups[3]? with
      | none => rfl
      | some text =>
          simp only [Option.bind_some]
          cases parseFloat digitValue text <;> rfl

/-- A line with a time stamp is not blank. -/
theorem not_blank_of_stampText (hclasses : classes.Apart) {line text : List Char}
    (htext : stampText classes line = some text) : line.all classes.space = false := by
  obtain ⟨found, hfound, hthird⟩ := Option.bind_eq_some_iff.mp htext
  obtain ⟨hspelled, hline⟩ := groupEnds_spelled (List.mem_of_mem_head? hfound)
  have htext : Regex.Spelled (.seq (.one fun c => classes.digit c || c == '.')
      (.many fun c => classes.digit c || c == '.')) text := by
    unfold stampParts at hspelled
    simp only [List.forall₂_cons_left_iff] at hspelled
    obtain ⟨_, _, -, ⟨_, _, -, ⟨_, _, -, ⟨stamp, _, hstamp, -, rfl⟩, rfl⟩, rfl⟩, htexts⟩ := hspelled
    rw [htexts] at hthird
    obtain rfl : stamp = text := by simpa using hthird
    exact hstamp
  obtain ⟨left, right, rfl, ⟨c, rfl, hc⟩, -⟩ := htext
  have hmem : c ∈ line := by
    rw [hline]
    refine List.mem_append_left _ (List.mem_flatten.mpr ⟨_, List.mem_of_getElem? hthird, ?_⟩)
    exact List.mem_append_left _ (List.mem_singleton_self c)
  have hspace : classes.space c = false := by
    rcases Bool.or_eq_true _ _ ▸ hc with hdigit | hdot
    · exact hclasses.digit c hdigit
    · rw [beq_iff_eq.mp hdot]
      exact hclasses.dot
  rw [List.all_eq_false]
  exact ⟨c, hmem, by simp [hspace]⟩

variable (classes digitValue) in
/-- The time stamp of the last line, or 0 where there is none. -/
def lastStamp (log : List (List Char)) : ℚ :=
  (log.getLast?.bind fun line => (stamped classes digitValue line).map Prod.fst).getD 0

/-- A reset takes the time stamp of the last line for its baseline. -/
theorem getDmesgRawTimestamp_eq (hclasses : classes.Apart) {log : List (List Char)}
    (hordered : Ordered classes digitValue log) :
    getDmesgRawTimestamp classes digitValue log = .ok (lastStamp classes digitValue log) := by
  cases log using List.reverseRecOn with
  | nil => rfl
  | append_singleton log line _ =>
      obtain ⟨stamps, hstamps, -⟩ := hordered
      have hmem : (stamped classes digitValue line).map Prod.fst ∈ stamps.map some := by
        rw [← hstamps]
        exact List.mem_map.mpr ⟨line, by simp, rfl⟩
      obtain ⟨stamp, -, hstamp⟩ := List.mem_map.mp hmem
      have hboth := hstamp.symm
      rw [stamped_fst, Option.bind_eq_some_iff] at hboth
      obtain ⟨text, htext, hparse⟩ := hboth
      have hblank : ¬ line.all classes.space = true := by
        rw [not_blank_of_stampText hclasses htext]
        simp
      have hdrop : ((line :: log.reverse).dropWhile fun line => line.all classes.space) =
          line :: log.reverse := List.dropWhile_cons_of_neg hblank
      have hgroup : (groupEnds (stampParts classes) [] line).head?.bind (·.1[3]?) = some text :=
        htext
      unfold getDmesgRawTimestamp lastStamp
      rw [List.reverse_append, List.reverse_singleton, List.singleton_append,
        hdrop, List.head?_cons]
      simp only [hgroup, hparse, List.getLast?_concat, Option.bind_some, ← hstamp,
        Option.getD_some]

/-- No line is younger than the last. -/
theorem le_lastStamp {log : List (List Char)} (hordered : Ordered classes digitValue log)
    {index : Nat} {key : ℚ × Int × Int}
    (hkey : key ∈ (errorFormat classes digitValue).keyAt log index) :
    key.1 ≤ lastStamp classes digitValue log := by
  obtain ⟨stamps, hstamps, hsorted⟩ := hordered
  obtain ⟨line, hline, hkey⟩ := Option.bind_eq_some_iff.mp hkey
  have hlength : log.length = stamps.length := by
    simpa only [List.length_map] using congrArg List.length hstamps
  have hindex : index < stamps.length := by
    rw [← hlength]
    exact (List.getElem?_eq_some_iff.mp hline).1
  have hat : ∀ i : Nat, (log[i]?).map (fun line => (stamped classes digitValue line).map Prod.fst) =
      (stamps[i]?).map some := by
    intro i
    rw [← List.getElem?_map, ← List.getElem?_map, hstamps]
  have hhere := hat index
  rw [hline, Option.map_some, stamped_of_key hkey, List.getElem?_eq_getElem hindex,
    Option.map_some, Option.some.injEq, Option.some.injEq] at hhere
  have hlast := hat (stamps.length - 1)
  rw [List.getElem?_eq_getElem (by omega : stamps.length - 1 < stamps.length)] at hlast
  have hstamp : lastStamp classes digitValue log = stamps[stamps.length - 1] := by
    obtain ⟨last, hlog, hvalue⟩ := Option.map_eq_some_iff.mp hlast
    rw [lastStamp, List.getLast?_eq_getElem?, hlength, hlog, Option.bind_some, hvalue,
      Option.getD_some]
  rw [hhere, hstamp]
  rcases Nat.lt_or_ge index (stamps.length - 1) with hlt | hge
  · exact List.pairwise_iff_getElem.mp hsorted index (stamps.length - 1) hindex (by omega) hlt
  · have heq : index = stamps.length - 1 := by omega
    subst heq
    exact le_refl _

/-! ## What holds in every run -/

variable (classes digitValue) in
/-- The detector of a monitor is a reader of its log, and returns errors of its lines. -/
structure Watched (monitor : Monitor) : Prop where
  ordered : Ordered classes digitValue monitor.log
  unreset : monitor.resetAt = none →
    monitor.detector.dmesgBaselineTs = none ∧ monitor.earlier = [] ∧ monitor.calls = []
  kept : ∀ opened, monitor.resetAt = some opened →
    monitor.detector.dmesgBaselineTs = some (lastStamp classes digitValue (monitor.log.take opened)) ∧
      ∃ readTo, monitor.forcedAt ≤ readTo ∧
        LogReader.Window.Kept (errorFormat classes digitValue) monitor.log opened readTo
          { baseline := lastStamp classes digitValue (monitor.log.take opened)
            seen := monitor.detector.seen }
          (monitor.calls.map (·.map Prod.fst))
  /-- What was returned before the last reset was in the log at it. -/
  earlier : ∀ opened, monitor.resetAt = some opened →
    ∀ found ∈ monitor.earlier.flatten, found.1 < opened
  genuine : ∀ found ∈ (monitor.earlier ++ monitor.calls).flatten,
    errorAt classes digitValue monitor.log found.1 = some found.2

theorem errorAt_append {log : List (List Char)} {index : Nat} {error : KernelError}
    (herror : errorAt classes digitValue log index = some error) (lines : List (List Char)) :
    errorAt classes digitValue (log ++ lines) index = some error := by
  have hindex : index < log.length := by
    obtain ⟨line, hline, -⟩ := Option.bind_eq_some_iff.mp herror
    exact (List.getElem?_eq_some_iff.mp hline).1
  rw [errorAt, List.getElem?_append_left hindex]
  exact herror

/-- A check that returns has a baseline, and has read the log unless it came too early. -/
theorem checkMce_ok {detector next : ErrorDetector} {force : Bool} {now : ℚ}
    {output : Except String (List (List Char))} {events : List (Nat × KernelError)}
    (hcheck : detector.checkMce classes digitValue force now output = .ok (events, next)) :
    ∃ baseline, detector.dmesgBaselineTs = some baseline ∧
      next.dmesgBaselineTs = some baseline ∧
      (events = [] ∧ next = detector ∧ force = false ∨
        ∃ lines, output = .ok lines ∧
          (events.map Prod.fst, next.seen) =
            (errorFormat classes digitValue).read { baseline, seen := detector.seen } lines ∧
          ∀ found ∈ events, errorAt classes digitValue lines found.1 = some found.2) := by
  unfold ErrorDetector.checkMce at hcheck
  cases hbaseline : detector.dmesgBaselineTs with
  | none =>
      rw [hbaseline] at hcheck
      exact absurd hcheck (by simp)
  | some baseline =>
      rw [hbaseline] at hcheck
      dsimp only at hcheck
      refine ⟨baseline, rfl, ?_⟩
      split at hcheck
      · rename_i hearly
        obtain ⟨rfl, rfl⟩ := Prod.mk.inj (Except.ok.inj hcheck)
        exact ⟨hbaseline, .inl ⟨rfl, rfl, hearly.1⟩⟩
      · cases output with
        | error exc => exact absurd hcheck (by simp [bind, Except.bind])
        | ok lines =>
            obtain ⟨hread, hgenuine⟩ :=
              @foldl_visitLine classes digitValue baseline detector.seen lines
            obtain ⟨rfl, rfl⟩ := Prod.mk.inj (Except.ok.inj hcheck)
            exact ⟨rfl, .inr ⟨lines, rfl, hread, hgenuine⟩⟩

/-- A reset that returns has read the log. -/
theorem reset_ok {detector next : ErrorDetector} {output : Except String (List (List Char))}
    (hreset : detector.reset classes digitValue output = .ok next) :
    ∃ lines baseline, output = .ok lines ∧
      getDmesgRawTimestamp classes digitValue lines = .ok baseline ∧
      next.dmesgBaselineTs = some baseline ∧ next.seen = [] := by
  unfold ErrorDetector.reset at hreset
  cases output with
  | error exc => exact absurd hreset (by simp [bind, Except.bind])
  | ok lines =>
      cases hbaseline : getDmesgRawTimestamp classes digitValue lines with
      | error exc => exact absurd hreset (by simp [bind, Except.bind, hbaseline])
      | ok baseline =>
          simp only [bind, Except.bind, hbaseline, pure, Except.pure, Except.ok.injEq] at hreset
          obtain rfl := hreset
          exact ⟨lines, baseline, rfl, hbaseline, rfl, rfl⟩

/-- A read that succeeds returns the log. -/
theorem output_ok {monitor : Monitor} {failure : Option String} {lines : List (List Char)}
    (houtput : monitor.output failure = .ok lines) : lines = monitor.log := by
  cases failure with
  | none => exact (Except.ok.inj houtput).symm
  | some exc => exact absurd houtput (by simp [Monitor.output])

namespace Watched

variable {monitor : Monitor}

theorem start (hordered : Ordered classes digitValue monitor.log)
    (hstart : monitor = { log := monitor.log }) : Watched classes digitValue monitor := by
  rw [hstart]
  refine ⟨hordered, fun _ => ⟨rfl, rfl, rfl⟩, ?_, ?_, ?_⟩
  · intro opened hopened
    exact absurd hopened (by simp)
  · intro opened hopened
    exact absurd hopened (by simp)
  · intro found hfound
    exact absurd hfound (by simp)

/-- The log grows. -/
theorem grow (hwatched : Watched classes digitValue monitor) {lines : List (List Char)}
    (hordered : Ordered classes digitValue (monitor.log ++ lines)) :
    Watched classes digitValue (monitor.step classes digitValue (.grow lines)) := by
  refine ⟨hordered, hwatched.unreset, ?_, hwatched.earlier, ?_⟩
  · intro opened hopened
    obtain ⟨hbaseline, readTo, hforced, hkept⟩ := hwatched.kept opened hopened
    have htake : (monitor.log ++ lines).take opened = monitor.log.take opened :=
      List.take_append_of_le_length (hkept.opened_le.trans hkept.readTo_le)
    refine ⟨?_, readTo, hforced, ?_⟩
    · show monitor.detector.dmesgBaselineTs = _
      rw [hbaseline]
      exact congrArg some (congrArg _ htake.symm)
    · show LogReader.Window.Kept _ (monitor.log ++ lines) opened readTo
        { baseline := lastStamp classes digitValue ((monitor.log ++ lines).take opened)
          seen := monitor.detector.seen } _
      rw [htake]
      exact hkept.grow lines
  · intro found hfound
    exact errorAt_append (hwatched.genuine found hfound) lines

/-- The detector is reset. -/
theorem reset (hclasses : classes.Apart) (hwatched : Watched classes digitValue monitor)
    (failure : Option String) :
    Watched classes digitValue (monitor.step classes digitValue (.reset failure)) := by
  unfold Monitor.step
  dsimp only
  cases hreset : monitor.detector.reset classes digitValue (monitor.output failure) with
  | error exc => exact hwatched
  | ok detector =>
      obtain ⟨lines, baseline, houtput, hbaseline, hnext, hseen⟩ := reset_ok hreset
      obtain rfl := output_ok houtput
      rw [getDmesgRawTimestamp_eq hclasses hwatched.ordered, Except.ok.injEq] at hbaseline
      refine ⟨hwatched.ordered, fun hnone => absurd hnone (by simp), ?_, ?_, ?_⟩
      · intro opened hopened
        obtain rfl : monitor.log.length = opened := Option.some.inj hopened
        simp only [List.take_length, hnext, hseen, hbaseline, List.map_nil]
        refine ⟨trivial, monitor.log.length, Nat.le_refl _, ?_⟩
        refine LogReader.Window.Kept.opening fun index _ key hkey => ?_
        rw [← hbaseline]
        exact le_lastStamp hwatched.ordered hkey
      · intro opened hopened found hfound
        obtain rfl : monitor.log.length = opened := Option.some.inj hopened
        obtain ⟨line, hline, -⟩ := Option.bind_eq_some_iff.mp (hwatched.genuine found hfound)
        exact (List.getElem?_eq_some_iff.mp hline).1
      · intro found hfound
        rw [List.append_nil] at hfound
        exact hwatched.genuine found hfound

/-- The detector checks the log. -/
theorem check (hwatched : Watched classes digitValue monitor) (force : Bool) (now : ℚ)
    (failure : Option String) :
    Watched classes digitValue (monitor.step classes digitValue (.check force now failure)) := by
  unfold Monitor.step
  dsimp only
  cases hcheck : monitor.detector.checkMce classes digitValue force now
      (monitor.output failure) with
  | error exc => exact hwatched
  | ok result =>
      obtain ⟨events, detector⟩ := result
      obtain ⟨baseline, hbaseline, hnext, hread⟩ := checkMce_ok hcheck
      refine ⟨hwatched.ordered, ?_, ?_, hwatched.earlier, ?_⟩
      · intro hnone
        rw [(hwatched.unreset hnone).1] at hbaseline
        exact absurd hbaseline (by simp)
      · intro opened hopened
        obtain ⟨hkeptBaseline, readTo, hforced, hkept⟩ := hwatched.kept opened hopened
        obtain rfl : lastStamp classes digitValue (monitor.log.take opened) = baseline := by
          rw [hkeptBaseline] at hbaseline
          exact Option.some.inj hbaseline
        refine ⟨hnext, ?_⟩
        simp only [List.map_append, List.map_singleton]
        rcases hread with ⟨rfl, rfl, rfl⟩ | ⟨lines, houtput, hboth, -⟩
        · exact ⟨readTo, hforced, hkept.skip⟩
        · obtain rfl := output_ok houtput
          obtain ⟨hindexes, hseen⟩ := Prod.mk.inj hboth
          refine ⟨monitor.log.length, ?_, ?_⟩
          · split
            · exact Nat.le_refl _
            · exact hforced.trans hkept.readTo_le
          · rw [hseen, hindexes]
            exact hkept.read
      · intro found hfound
        rw [← List.append_assoc, List.flatten_append, List.mem_append] at hfound
        rcases hfound with hbefore | hnow
        · exact hwatched.genuine found hbefore
        · rw [List.flatten_singleton] at hnow
          rcases hread with ⟨rfl, -, -⟩ | ⟨lines, houtput, -, hgenuine⟩
          · exact absurd hnow List.not_mem_nil
          · obtain rfl := output_ok houtput
            exact hgenuine found hnow

end Watched

theorem watched_of_reachable (hclasses : classes.Apart) {monitor : Monitor}
    (hreach : (monitoring classes digitValue).ReachableBy (orderly classes digitValue) monitor) :
    Watched classes digitValue monitor := by
  induction hreach with
  | start hstart => exact Watched.start hstart.2 hstart.1
  | @step monitor next event _ hallowed hstep ih =>
      obtain rfl := Option.some.inj hstep
      cases event with
      | grow lines => exact ih.grow hallowed
      | reset failure => exact ih.reset hclasses failure
      | check force now failure => exact ih.check force now failure

/-! ## Each error once -/

variable (classes digitValue)

/-- Each error that was appended since the last reset, and was in the log at a forced check
since, has been returned by one call and once by it; nothing that was in the log at the
reset has been returned since. -/
def ConsumedOnce (monitor : Monitor) (resetAt : Nat) : Prop :=
  (∀ index error, resetAt ≤ index → index < monitor.forcedAt →
    errorAt classes digitValue monitor.log index = some error →
    (monitor.earlier ++ monitor.calls).flatten.count (index, error) = 1) ∧
  ∀ found ∈ monitor.calls.flatten, resetAt ≤ found.1

/-- Each of these errors has a later time stamp than the last line at the reset, and none of
them that comes before it has its time stamp, CPU and bank. -/
def Told (monitor : Monitor) (resetAt : Nat) : Prop :=
  ∀ index error, resetAt ≤ index → index < monitor.forcedAt →
    errorAt classes digitValue monitor.log index = some error →
    lastStamp classes digitValue (monitor.log.take resetAt) < error.rawTs ∧
      ∀ before other, resetAt ≤ before → before < index →
        errorAt classes digitValue monitor.log before = some other → other.key ≠ error.key

variable {classes} {digitValue}

/-- In lists of numbered errors where a number has one error, counting the errors of a number
is counting the number. -/
theorem count_numbered {found : List (Nat × KernelError)} {index : Nat} {error : KernelError}
    (hgenuine : ∀ entry ∈ found, entry.1 = index → entry.2 = error) :
    found.count (index, error) = (found.map Prod.fst).count index := by
  induction found with
  | nil => rfl
  | cons entry rest ih =>
      rw [List.map_cons, List.count_cons, List.count_cons,
        ih fun other hmem => hgenuine other (List.mem_cons_of_mem _ hmem)]
      congr 1
      by_cases hindex : entry.1 = index
      · have herror := hgenuine entry List.mem_cons_self hindex
        simp [← hindex, ← herror]
      · have hentry : entry ≠ (index, error) := fun heq => hindex (by rw [heq])
        simp [hindex, hentry]

theorem keyAt_eq (log : List (List Char)) (index : Nat) :
    (errorFormat classes digitValue).keyAt log index =
      (errorAt classes digitValue log index).map KernelError.key := by
  unfold LogReader.Format.keyAt errorAt errorFormat
  cases log[index]? <;> rfl

/-- An error is fresh if its time stamp and key tell it from what was there before. -/
theorem fresh_iff {log : List (List Char)} {baseline : ℚ} {resetAt index : Nat}
    {error : KernelError}
    (hold : ∀ before < resetAt, ∀ key ∈ (errorFormat classes digitValue).keyAt log before,
      key.1 ≤ baseline)
    (herror : errorAt classes digitValue log index = some error) :
    (errorFormat classes digitValue).Fresh baseline log index ↔
      baseline < error.rawTs ∧ ∀ before other, resetAt ≤ before → before < index →
        errorAt classes digitValue log before = some other → other.key ≠ error.key := by
  have hkey : (errorFormat classes digitValue).keyAt log index = some error.key := by
    rw [keyAt_eq, herror, Option.map_some]
  unfold LogReader.Format.Fresh
  rw [hkey]
  constructor
  · rintro ⟨⟨key, hsame, hyoung⟩, hfirst⟩
    obtain rfl : error.key = key := Option.some.inj hsame
    refine ⟨hyoung, fun before other _ hlt hother heq => hfirst before hlt ?_⟩
    rw [keyAt_eq, hother, Option.map_some, heq]
  · rintro ⟨hyoung, hapart⟩
    refine ⟨⟨error.key, rfl, hyoung⟩, fun before hlt hsame => ?_⟩
    rcases Nat.lt_or_ge before resetAt with hbefore | hbefore
    · exact not_lt_of_ge (hold before hbefore error.key hsame) hyoung
    · rw [keyAt_eq, Option.map_eq_some_iff] at hsame
      obtain ⟨other, hother, heq⟩ := hsame
      exact hapart before other hbefore hlt hother heq

/-- In every run of a detector next to a log in the order of its time stamps, the errors are
consumed once if and only if their time stamps and keys tell them from what was there
before. -/
theorem consumedOnce_iff (hclasses : classes.Apart) {monitor : Monitor} {resetAt : Nat}
    (hreach : (monitoring classes digitValue).ReachableBy (orderly classes digitValue) monitor)
    (hreset : monitor.resetAt = some resetAt) :
    ConsumedOnce classes digitValue monitor resetAt ↔ Told classes digitValue monitor resetAt := by
  have hwatched := watched_of_reachable hclasses hreach
  obtain ⟨-, readTo, hforced, hkept⟩ := hwatched.kept resetAt hreset
  -- How often an error that was appended since the reset has been returned.
  have hcount : ∀ index error, resetAt ≤ index →
      errorAt classes digitValue monitor.log index = some error →
      (monitor.earlier ++ monitor.calls).flatten.count (index, error) =
        if index < readTo ∧ (errorFormat classes digitValue).Fresh
          (lastStamp classes digitValue (monitor.log.take resetAt)) monitor.log index
        then 1 else 0 := by
    intro index error hindex herror
    have hnone : monitor.earlier.flatten.count (index, error) = 0 := by
      refine List.count_eq_zero.mpr fun hmem => ?_
      have hlt := hwatched.earlier resetAt hreset _ hmem
      omega
    have hgenuine : ∀ entry ∈ monitor.calls.flatten, entry.1 = index → entry.2 = error := by
      intro entry hmem heq
      have hsome := hwatched.genuine entry (by
        rw [List.flatten_append]
        exact List.mem_append_right _ hmem)
      rw [heq, herror] at hsome
      exact (Option.some.inj hsome).symm
    rw [List.flatten_append, List.count_append, hnone, Nat.zero_add, count_numbered hgenuine,
      List.map_flatten, ← hkept.count_eq index]
  have hfresh := fun (index : Nat) (error : KernelError)
      (herror : errorAt classes digitValue monitor.log index = some error) =>
    fresh_iff hkept.old herror
  constructor
  · rintro ⟨honce, -⟩ index error hindex hlt herror
    have hone := honce index error hindex hlt herror
    rw [hcount index error hindex herror] at hone
    refine (hfresh index error herror).mp ?_
    by_contra hnot
    rw [if_neg fun hboth => hnot hboth.2] at hone
    exact absurd hone (by simp)
  · intro htold
    refine ⟨fun index error hindex hlt herror => ?_, fun found hfound => ?_⟩
    · rw [hcount index error hindex herror]
      refine if_pos ⟨Nat.lt_of_lt_of_le hlt hforced, ?_⟩
      exact (hfresh index error herror).mpr (htold index error hindex hlt herror)
    · refine hkept.opened_le_of_mem ?_
      rw [← List.map_flatten]
      exact List.mem_map.mpr ⟨found, hfound, rfl⟩

/-- A reset does not write to the log. -/
theorem log_reset (monitor : Monitor) (failure : Option String) :
    (monitor.step classes digitValue (.reset failure)).log = monitor.log := by
  unfold Monitor.step
  dsimp only
  split <;> rfl

variable (classes digitValue) in
/-- A detector is reset, a line is appended, and a forced check follows. -/
def afterLine (log : List (List Char)) (line : List Char) : Monitor :=
  [MonitorEvent.reset none, .grow [line], .check true 7 none].foldl
    (Monitor.step classes digitValue) { log }

theorem reachable_afterLine {log : List (List Char)} {line : List Char}
    (hlog : Ordered classes digitValue log) (hline : Ordered classes digitValue (log ++ [line])) :
    (monitoring classes digitValue).ReachableBy (orderly classes digitValue)
      (afterLine classes digitValue log line) := by
  have hstart : (monitoring classes digitValue).ReachableBy (orderly classes digitValue)
      { log } := .start ⟨rfl, hlog⟩
  have hreset := hstart.step
    (show orderly classes digitValue { log } (.reset none) from trivial) rfl
  have hgrown : orderly classes digitValue
      (Monitor.step classes digitValue { log } (.reset none)) (.grow [line]) := by
    show Ordered classes digitValue (_ ++ [line])
    rw [log_reset]
    exact hline
  have hgrow := hreset.step hgrown rfl
  exact hgrow.step (show orderly classes digitValue _ (.check true 7 none) from trivial) rfl

end Classifying

/-! ## Two runs -/

theorem CharClasses.ascii_apart : CharClasses.ascii.Apart where
  digit := by
    intro c hdigit
    refine decide_eq_false fun hspace => ?_
    simp only [List.mem_cons, List.not_mem_nil, or_false] at hspace
    rcases hspace with rfl | rfl | rfl | rfl | rfl | rfl <;> exact absurd hdigit (by decide)
  dot := by decide

def asciiValue (c : Char) : Nat := c.toNat - '0'.toNat

/-- The header of a decoded machine check. -/
def headerLine : List Char :=
  "100.11 mce: [Hardware Error]: Machine check events logged".toList

/-- The line of the block with the event. -/
def statusLine : List Char :=
  "100.11 [Hardware Error]: CPU:9 (1a:44:0) MC0_STATUS[Over|CE|MiscV]: 0xdc2040".toList

/-- A line from before. -/
def earlierLine : List Char := "100.10 usb 1-1: new device".toList

/-- The time stamps of the earlier line and of the block. -/
def earlierStamp : ℚ := binary64.round (10010 / 100)

def blockStamp : ℚ := binary64.round (10011 / 100)

/-- A reset before the block, and the event's line is returned once. -/
theorem consumedOnce_iff_sample :
    ConsumedOnce .ascii asciiValue (afterLine .ascii asciiValue [earlierLine] statusLine) 1 := by
  have hlog : Ordered .ascii asciiValue [earlierLine] :=
    ⟨[earlierStamp], by decide +kernel, List.pairwise_singleton _ _⟩
  have hline : Ordered .ascii asciiValue ([earlierLine] ++ [statusLine]) :=
    ⟨[earlierStamp, blockStamp], by decide +kernel, by decide +kernel⟩
  refine (consumedOnce_iff CharClasses.ascii_apart (reachable_afterLine hlog hline)
    (by decide +kernel)).mpr ?_
  intro index error hindex hlt herror
  have hforced : (afterLine .ascii asciiValue [earlierLine] statusLine).forcedAt = 2 := by
    decide +kernel
  obtain rfl : index = 1 := by omega
  refine ⟨?_, fun before other hafter hbefore => absurd hafter (by omega)⟩
  have hstamp : (errorAt .ascii asciiValue
      (afterLine .ascii asciiValue [earlierLine] statusLine).log 1).map (·.rawTs) =
      some blockStamp := by
    decide +kernel
  rw [herror, Option.map_some, Option.some.injEq] at hstamp
  rw [hstamp]
  decide +kernel

/-- A reset in the middle of the block: the line with the event has the time stamp of the
header, and is never returned. -/
theorem not_consumedOnce :
    ¬ ∀ (monitor : Monitor) (resetAt : Nat),
      (monitoring .ascii asciiValue).ReachableBy (orderly .ascii asciiValue) monitor →
      monitor.resetAt = some resetAt → ConsumedOnce .ascii asciiValue monitor resetAt := by
  intro hclaim
  have hlog : Ordered .ascii asciiValue [headerLine] :=
    ⟨[blockStamp], by decide +kernel, List.pairwise_singleton _ _⟩
  have hline : Ordered .ascii asciiValue ([headerLine] ++ [statusLine]) :=
    ⟨[blockStamp, blockStamp], by decide +kernel, by decide +kernel⟩
  have honce := (hclaim _ 1 (reachable_afterLine hlog hline) (by decide +kernel)).1
  have hsome : (errorAt .ascii asciiValue
      (afterLine .ascii asciiValue [headerLine] statusLine).log 1).isSome = true := by
    decide +kernel
  obtain ⟨error, herror⟩ := Option.isSome_iff_exists.mp hsome
  have hone := honce 1 error (Nat.le_refl _) (by decide +kernel) herror
  have hnothing : ((afterLine .ascii asciiValue [headerLine] statusLine).earlier ++
        (afterLine .ascii asciiValue [headerLine] statusLine).calls).flatten = [] := by
    decide +kernel
  rw [hnothing] at hone
  exact absurd hone (by simp)

end Engine
end CoreCycler
