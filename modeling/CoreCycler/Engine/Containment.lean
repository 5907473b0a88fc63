import CoreCycler.Engine.Topology
import Mathlib.Data.Finset.Sort
import Mathlib.Data.Rat.Init

/-!
# CPU containment

A lane's payload runs in a scope that may use the lane's CPUs only.  The launch asks for the scope
with a list of CPUs, and while the payload runs the supervisor reads back which scope the payload
is in and which CPUs the kernel gives that scope.
-/

namespace CoreCycler
namespace Engine
namespace Containment

open Library Library.Reading Engine.Topology

variable (digits : DigitValues)

/-! ## Lists of CPUs -/

/-- The CPUs in ascending order, with commas between them. -/
def cpuList (cpus : Finset Nat) : List Char :=
  [','].intercalate ((cpus.sort (· ≤ ·)).map numeral)

/-- The CPUs of a cpuset file; each part is stripped by itself. -/
def parseCpuRanges (text : List Char) : Finset Nat :=
  (text.splitOn ',').foldl
    (fun cpus part =>
      let part := trim part
      if part = [] then cpus else cpus ∪ partCpus digits part)
    ∅

/-- A list of CPU ranges as the kernel writes it: a range of one CPU is that CPU. -/
def rangeText (range : Nat × Nat) : List Char :=
  if range.1 = range.2 then numeral range.1 else numeral range.1 ++ '-' :: numeral range.2

def rangesText (ranges : List (Nat × Nat)) : List Char :=
  [','].intercalate (ranges.map rangeText)

/-- The CPUs of a list of ranges. -/
def rangesCpus (ranges : List (Nat × Nat)) : Finset Nat :=
  ranges.foldl (fun cpus range => cpus ∪ Finset.Icc range.1 range.2) ∅

/-! ## The scope of a payload -/

/-- The payload's cgroup path once it has been placed into the scope. -/
def payloadCgroup (unit : String) (text : Option (List Char)) : Option (List Char) :=
  text.bind fun content => (splitLines content).findSome? fun line =>
    if "0::".toList.isPrefixOf line ∧ ("/" ++ unit ++ ".scope").toList.isSuffixOf (trim line) then
      some ((trim line).drop 3)
    else none

/-- The CPUs of a cgroup, read from its `cpuset.cpus.effective` below the cgroup root. -/
def scopeEffectiveCpus (cpuset : List Char → Option (List Char)) (cgroup : List Char) :
    Option (Finset Nat) :=
  (cpuset (cgroup.dropWhile (· = '/'))).map fun text => parseCpuRanges digits (trim text)

/-- What a poll of the supervisor finds. -/
structure Poll where
  now : ℚ
  /-- `/proc/<pid>/cgroup` of the payload. -/
  cgroup : Option (List Char)
  /-- `cpuset.cpus.effective` of a cgroup. -/
  cpuset : List Char → Option (List Char)

/-- A lane whose payload was started in a scope. -/
structure LaneRun where
  cpus : Finset Nat
  unit : String
  startedAt : ℚ
  lastWatchdog : ℚ
  cgroup : Option (List Char)

def containmentGraceSeconds : ℚ := 5

def watchdogInterval : ℚ := 2

/-- The check of a lane whose cgroup is known. -/
def effectiveFault (run : LaneRun) (poll : Poll) (cgroup : List Char) : Option String :=
  match scopeEffectiveCpus digits poll.cpuset cgroup with
  | none =>
      some <| s!"the kernel record for scope {run.unit} vanished while the payload ran " ++
        "- containment fault, not a core verdict"
  | some effective =>
      if effective ≠ run.cpus then
        some <| s!"scope {run.unit} runs on CPUs {String.ofList (cpuList effective)} " ++
          s!"instead of {String.ofList (cpuList run.cpus)} - containment fault, not a core verdict"
      else none

/-- Check the containment of a lane; the cgroup of the payload is looked up until it is found. -/
def containmentFault (run : LaneRun) (poll : Poll) : LaneRun × Option String :=
  let cgroup := run.cgroup.or (payloadCgroup run.unit poll.cgroup)
  let run := { run with cgroup := cgroup }
  match cgroup with
  | none =>
      if containmentGraceSeconds < poll.now - run.startedAt then
        (run, some <| s!"scope {run.unit} never adopted the stress payload within 5s " ++
          "- containment fault, not a core verdict")
      else (run, none)
  | some path => (run, effectiveFault digits run poll path)

/-- The check is due again two seconds after the last one. -/
def pollContainment (run : LaneRun) (poll : Poll) : LaneRun × Option String :=
  if poll.now - run.lastWatchdog < watchdogInterval then (run, none)
  else containmentFault digits { run with lastWatchdog := poll.now } poll

/-- The first fault of a lane over the polls of a batch. -/
def watch : LaneRun → List Poll → Option String
  | _, [] => none
  | run, poll :: rest =>
      match pollContainment digits run poll with
      | (_, some fault) => some fault
      | (run, none) => watch run rest

/-! ## The launch -/

inductive Mechanism where
  /-- `systemd-user-scope` -/
  | user
  /-- `systemd-system-scope` -/
  | system
deriving DecidableEq, Repr

/-- What a launch finds on the host. -/
structure Host where
  availableMechanism : Option Mechanism
  systemdRun : Option String
  setpriv : Option String

/-- The process that launches, with the number of the last scope it named. -/
structure Launcher where
  pid : Nat
  unitSeq : Nat

/-- Why a launch is refused. -/
inductive Unavailable where
  | invalidCpus (cpus : List Int)
  | noMechanism
  | systemdRunGone
  | noSetpriv
deriving DecidableEq, Repr

/-- A tuple of integers as Python prints it. -/
def reprTuple : List Int → String
  | [] => "()"
  | [cpu] => s!"({cpu},)"
  | cpus => "(" ++ ", ".intercalate (cpus.map toString) ++ ")"

def Unavailable.message : Unavailable → String
  | .invalidCpus cpus => "invalid CPU set " ++ reprTuple cpus
  | .noMechanism =>
      "no cgroup cpuset mechanism available (systemd-run scope probe failed); " ++
        "refusing to launch an uncontained stress process"
  | .systemdRunGone => "systemd-run disappeared after probe"
  | .noSetpriv => "setpriv is required and was not found (util-linux)"

/-- A command prefix with the scope it names. -/
structure Contained where
  command : List String
  unit : String
deriving DecidableEq, Repr

/-- The name of a scope: no two launches of a process share one. -/
def unitName (pid seq : Nat) : String :=
  "corecycler-" ++ String.ofList (numeral pid) ++ "-" ++ String.ofList (numeral seq)

/-- The command prefix that runs a payload inside a named scope, or a refusal. -/
def contain (launcher : Launcher) (host : Host) (cpus : List Int) :
    Except Unavailable (Contained × Launcher) :=
  if cpus = [] ∨ ∃ cpu ∈ cpus, cpu < 0 then .error (.invalidCpus cpus)
  else
    match host.availableMechanism with
    | none => .error .noMechanism
    | some mechanism =>
        match host.systemdRun with
        | none => .error .systemdRunGone
        | some systemdRun =>
            match host.setpriv with
            | none => .error .noSetpriv
            | some setpriv =>
                -- The payload dies with the tuner, inside of the scope and outside.
                let bind := [setpriv, "--pdeathsig", "SIGKILL", "--"]
                let unit := unitName launcher.pid (launcher.unitSeq + 1)
                let cpuset := (cpus.map Int.toNat).toFinset
                .ok
                  ({ command := bind ++ [systemdRun] ++
                      (if mechanism = .user then ["--user"] else []) ++
                      ["--scope", "--quiet", "--collect", "--unit", unit, "-p",
                        "AllowedCPUs=" ++ String.ofList (cpuList cpuset), "--"] ++ bind
                     unit := unit },
                   { launcher with unitSeq := launcher.unitSeq + 1 })

/-- The launches of a process that are not refused, with the CPUs they were asked for. -/
def launches : Launcher → List (Host × List Int) → List (List Int × Contained)
  | _, [] => []
  | launcher, (host, cpus) :: rest =>
      match contain launcher host cpus with
      | .error _ => launches launcher rest
      | .ok (contained, launcher) => (cpus, contained) :: launches launcher rest

/-! ## Reading lists of CPUs -/

theorem mem_foldl_union {Part : Type*} (cpusOf : Part → Finset Nat) (parts : List Part)
    (held : Finset Nat) {cpu : Nat} :
    cpu ∈ parts.foldl (fun cpus part => cpus ∪ cpusOf part) held ↔
      cpu ∈ held ∨ ∃ part ∈ parts, cpu ∈ cpusOf part := by
  induction parts generalizing held with
  | nil => simp
  | cons part rest ih =>
      rw [List.foldl_cons, ih, Finset.mem_union, List.exists_mem_cons_iff, or_assoc]

theorem not_mem_of_blank {sep : Char} (hsep : isSpace sep = false) {blanks : List Char}
    (hblanks : ∀ c ∈ blanks, isSpace c = true) : sep ∉ blanks := fun hmem => by
  rw [hblanks sep hmem] at hsep
  cases hsep

/-- Blanks around a part make no difference. -/
theorem partCpus_padded {before behind : List Char} (hbefore : ∀ c ∈ before, isSpace c = true)
    (hbehind : ∀ c ∈ behind, isSpace c = true) (part : List Char) :
    partCpus digits (before ++ part ++ behind) = partCpus digits part := by
  have hfront : ∀ text, int digits (before ++ text) = int digits text := fun text => by
    have hpadded := int_padded digits hbefore nil_blank text
    rwa [List.append_nil] at hpadded
  have hback : ∀ text, int digits (text ++ behind) = int digits text := fun text => by
    have hpadded := int_padded digits nil_blank hbehind text
    rwa [List.nil_append] at hpadded
  unfold partCpus
  rw [splitFirst_padded (not_mem_of_blank (by decide) hbefore)
    (not_mem_of_blank (by decide) hbehind)]
  cases splitFirst '-' part with
  | none => rw [Option.map_none, int_padded digits hbefore hbehind]
  | some parts => simp only [Option.map_some, hfront, hback]

theorem partCpus_trim (part : List Char) : partCpus digits (trim part) = partCpus digits part := by
  obtain ⟨before, behind, hpart, hbefore, hbehind⟩ := trim_split part
  calc partCpus digits (trim part)
      = partCpus digits (before ++ trim part ++ behind) :=
        (partCpus_padded digits hbefore hbehind _).symm
    _ = partCpus digits part := by rw [← hpart]

theorem partCpus_nil : partCpus digits [] = ∅ := rfl

theorem mem_parseCpuRanges {text : List Char} {cpu : Nat} :
    cpu ∈ parseCpuRanges digits text ↔
      ∃ part ∈ text.splitOn ',', cpu ∈ partCpus digits part := by
  have hstep : (fun (cpus : Finset Nat) part =>
      let part := trim part
      if part = [] then cpus else cpus ∪ partCpus digits part) =
      fun cpus part => cpus ∪ partCpus digits part := by
    funext cpus part
    show (if trim part = [] then cpus else cpus ∪ partCpus digits (trim part)) = _
    split_ifs with hblank
    · rw [← partCpus_trim digits part, hblank, partCpus_nil, Finset.union_empty]
    · rw [partCpus_trim]
  rw [parseCpuRanges, hstep, mem_foldl_union]
  simp

/-- Blanks around a list of CPUs make no difference to its parts. -/
theorem mem_parts_padded {before behind : List Char} (hbefore : ∀ c ∈ before, isSpace c = true)
    (hbehind : ∀ c ∈ behind, isSpace c = true) (text : List Char) {cpu : Nat} :
    (∃ part ∈ (before ++ text ++ behind).splitOn ',', cpu ∈ partCpus digits part) ↔
      ∃ part ∈ text.splitOn ',', cpu ∈ partCpus digits part := by
  have hcomma : isSpace ',' = false := by decide
  obtain ⟨front, last, hinner, happend⟩ :=
    splitOn_append (not_mem_of_blank hcomma hbehind) (before ++ text)
  obtain ⟨first, rest, htext, hprepend⟩ :=
    splitOn_prepend (not_mem_of_blank hcomma hbefore) text
  -- Only the first and the last part have the blanks.
  have hlast : partCpus digits (last ++ behind) = partCpus digits last := by
    have hpadded := partCpus_padded digits nil_blank hbehind last
    rwa [List.nil_append] at hpadded
  have hfirst : partCpus digits (before ++ first) = partCpus digits first := by
    have hpadded := partCpus_padded digits hbefore nil_blank first
    rwa [List.append_nil] at hpadded
  have hfront : ∀ final, (∃ part ∈ front ++ [final], cpu ∈ partCpus digits part) ↔
      (∃ part ∈ front, cpu ∈ partCpus digits part) ∨ cpu ∈ partCpus digits final := by
    intro final
    simp only [List.mem_append, List.mem_singleton, or_and_right, exists_or, exists_eq_left]
  rw [happend, hfront, hlast, ← hfront, ← hinner, hprepend, htext, List.exists_mem_cons_iff,
    List.exists_mem_cons_iff, hfirst]

/-- The two readers of CPU lists agree on every text. -/
theorem parseCpuRanges_agree (text : List Char) :
    parseCpuRanges digits text = Topology.parseCpuRanges digits text := by
  obtain ⟨before, behind, htext, hbefore, hbehind⟩ := trim_split text
  ext cpu
  rw [mem_parseCpuRanges, Topology.parseCpuRanges, mem_foldl_union]
  conv_lhs => rw [htext, mem_parts_padded digits hbefore hbehind]
  simp

/-! ## Lists of CPUs are read back -/

theorem rangeText_digits {range : Nat × Nat} {c : Char} (hc : c ∈ rangeText range) :
    c.isDigit = true ∨ c = '-' := by
  unfold rangeText at hc
  split_ifs at hc with hone
  · exact Or.inl (isDigit_of_mem_numeral hc)
  · rcases List.mem_append.mp hc with hlow | hhigh
    · exact Or.inl (isDigit_of_mem_numeral hlow)
    · rcases List.mem_cons.mp hhigh with hdash | hhigh
      · exact Or.inr hdash
      · exact Or.inl (isDigit_of_mem_numeral hhigh)

/-- A range that is written out is read back. -/
theorem partCpus_rangeText (range : Nat × Nat) :
    partCpus digits (rangeText range) = Finset.Icc range.1 range.2 := by
  have hdash : ∀ number, '-' ∉ numeral number := not_mem_numeral (by decide)
  unfold partCpus rangeText
  split_ifs with hone
  · rw [splitFirst_eq_none (hdash _)]
    simp [int_numeral, ← hone]
  · rw [splitFirst_append (hdash _)]
    ext cpu
    simp only [int_numeral, Finset.mem_Ico, Finset.mem_Icc]
    omega

/-- What the kernel writes of a set of CPUs is that set. -/
theorem parseCpuRanges_rangesText (ranges : List (Nat × Nat)) {blanks : List Char}
    (hblanks : ∀ c ∈ blanks, isSpace c = true) :
    parseCpuRanges digits (rangesText ranges ++ blanks) = rangesCpus ranges := by
  have hcomma : ∀ text ∈ ranges.map rangeText, ',' ∉ text := by
    intro text htext hmem
    obtain ⟨range, -, rfl⟩ := List.mem_map.mp htext
    rcases rangeText_digits hmem with hdigit | hdash
    · exact absurd hdigit (by decide)
    · exact absurd hdash (by decide)
  ext cpu
  rw [mem_parseCpuRanges, rangesCpus, mem_foldl_union, ← List.nil_append (rangesText ranges),
    mem_parts_padded digits nil_blank hblanks]
  cases ranges with
  | nil => simp [rangesText, partCpus_nil]
  | cons range rest =>
      rw [rangesText, List.splitOn_intercalate ',' hcomma (by simp)]
      simp only [List.mem_map, exists_exists_and_eq_and, partCpus_rangeText,
        Finset.notMem_empty, false_or]

theorem rangesCpus_singles (cpus : List Nat) :
    rangesCpus (cpus.map fun cpu => (cpu, cpu)) = cpus.toFinset := by
  ext cpu
  rw [rangesCpus, mem_foldl_union]
  simp only [Finset.notMem_empty, false_or, List.mem_map, exists_exists_and_eq_and,
    Finset.Icc_self, Finset.mem_singleton, exists_eq_right', List.mem_toFinset]

/-- The CPUs that a launch asks for are read back. -/
theorem parseCpuRanges_cpuList (cpus : Finset Nat) :
    parseCpuRanges digits (cpuList cpus) = cpus := by
  have hlist : cpuList cpus =
      rangesText ((cpus.sort (· ≤ ·)).map fun cpu => (cpu, cpu)) ++ [] := by
    rw [List.append_nil, rangesText, List.map_map, cpuList]
    congr 1
    exact List.map_congr_left fun cpu _ => by simp [rangeText]
  rw [hlist, parseCpuRanges_rangesText digits _ nil_blank,
    rangesCpus_singles, Finset.sort_toFinset]

/-! ## The watch over a lane -/

/-- The polls at which the check is due. -/
def due : ℚ → List Poll → List Poll
  | _, [] => []
  | last, poll :: rest =>
      if poll.now - last < watchdogInterval then due last rest else poll :: due poll.now rest

/-- The cpuset files hold lists of CPU ranges. -/
def Poll.Listed (poll : Poll) : Prop :=
  ∀ path text, poll.cpuset path = some text → ∃ ranges, text = rangesText ranges ++ ['\n']

/-- The kernel gives a cgroup exactly these CPUs. -/
def Poll.Gives (poll : Poll) (cgroup : List Char) (cpus : Finset Nat) : Prop :=
  ∃ ranges, poll.cpuset (cgroup.dropWhile (· = '/')) = some (rangesText ranges ++ ['\n']) ∧
    rangesCpus ranges = cpus

/-- The payload of a lane that is in its scope has the lane's CPUs. -/
def LaneRun.Held (run : LaneRun) (path : List Char) (polls : List Poll) : Prop :=
  ∀ poll ∈ polls, poll.Gives path run.cpus

/-- No check after the grace time finds the payload outside of its scope, and from the first check
that finds it placed on it has the lane's CPUs. -/
def LaneRun.Confined (run : LaneRun) (polls : List Poll) : Prop :=
  ∃ waiting watched, polls = waiting ++ watched ∧
    (∀ poll ∈ waiting, payloadCgroup run.unit poll.cgroup = none ∧
      poll.now - run.startedAt ≤ containmentGraceSeconds) ∧
    ∀ poll rest, watched = poll :: rest →
      ∃ path, payloadCgroup run.unit poll.cgroup = some path ∧ run.Held path watched

theorem parseCpuRanges_trim (text : List Char) :
    parseCpuRanges digits (trim text) = parseCpuRanges digits text := by
  obtain ⟨before, behind, htext, hbefore, hbehind⟩ := trim_split text
  ext cpu
  rw [mem_parseCpuRanges, mem_parseCpuRanges]
  conv_rhs => rw [htext, mem_parts_padded digits hbefore hbehind]

/-- A cgroup passes the check where the kernel gives it the CPUs of the lane. -/
theorem effectiveFault_eq_none {poll : Poll} (hlisted : poll.Listed) (run : LaneRun)
    (path : List Char) :
    effectiveFault digits run poll path = none ↔ poll.Gives path run.cpus := by
  have hread : ∀ ranges, parseCpuRanges digits (trim (rangesText ranges ++ ['\n'])) =
      rangesCpus ranges := fun ranges => by
    rw [parseCpuRanges_trim, parseCpuRanges_rangesText digits ranges newline_blank]
  unfold effectiveFault scopeEffectiveCpus Poll.Gives
  cases htext : poll.cpuset (path.dropWhile (· = '/')) with
  | none => simp
  | some text =>
      obtain ⟨ranges, rfl⟩ := hlisted _ _ htext
      simp only [Option.map_some, hread, ite_not, ite_eq_left_iff, reduceCtorEq, imp_false,
        not_not, Option.some.injEq, List.append_cancel_right_eq]
      constructor
      · exact fun heq => ⟨ranges, rfl, heq⟩
      · rintro ⟨others, htexts, heq⟩
        rw [← heq, ← hread ranges, ← hread others, htexts]

/-- A check that is not due changes nothing. -/
theorem watch_cons (run : LaneRun) (poll : Poll) (rest : List Poll) :
    watch digits run (poll :: rest) =
      if poll.now - run.lastWatchdog < watchdogInterval then watch digits run rest
      else
        let checked := containmentFault digits { run with lastWatchdog := poll.now } poll
        checked.2.or (watch digits checked.1 rest) := by
  rw [watch, pollContainment]
  split_ifs
  · rfl
  · show (match containmentFault digits { run with lastWatchdog := poll.now } poll with
        | (_, some fault) => some fault
        | (run, none) => watch digits run rest) = _
    rcases containmentFault digits { run with lastWatchdog := poll.now } poll with
      ⟨checked, _ | fault⟩ <;> rfl

/-- A lane whose cgroup is known is watched in it. -/
theorem watch_known {polls : List Poll} (hlisted : ∀ poll ∈ polls, poll.Listed)
    {run : LaneRun} {path : List Char} (hpath : run.cgroup = some path) :
    watch digits run polls = none ↔ run.Held path (due run.lastWatchdog polls) := by
  induction polls generalizing run with
  | nil => simp [watch, due, LaneRun.Held]
  | cons poll rest ih =>
      rw [List.forall_mem_cons] at hlisted
      rw [watch_cons, due]
      split_ifs with hdue
      · exact ih hlisted.2 hpath
      · have hchecked : containmentFault digits { run with lastWatchdog := poll.now } poll =
            ({ run with lastWatchdog := poll.now },
              effectiveFault digits { run with lastWatchdog := poll.now } poll path) := by
          simp [containmentFault, hpath]
        rw [hchecked]
        show (effectiveFault digits { run with lastWatchdog := poll.now } poll path).or
          (watch digits { run with lastWatchdog := poll.now } rest) = none ↔ _
        have hrest : watch digits { run with lastWatchdog := poll.now } rest = none ↔
            run.Held path (due poll.now rest) := ih hlisted.2 hpath
        rw [Option.or_eq_none_iff, effectiveFault_eq_none digits hlisted.1, hrest,
          LaneRun.Held, LaneRun.Held, List.forall_mem_cons]

/-- A payload that is not in its scope yet still has its time. -/
theorem LaneRun.confined_waiting {run : LaneRun} {poll : Poll} {rest : List Poll}
    (hplace : payloadCgroup run.unit poll.cgroup = none) :
    run.Confined (poll :: rest) ↔
      poll.now - run.startedAt ≤ containmentGraceSeconds ∧ run.Confined rest := by
  constructor
  · rintro ⟨waiting, watched, hpolls, hwaiting, hwatched⟩
    cases waiting with
    | nil =>
        obtain ⟨path, hpath, -⟩ := hwatched poll rest hpolls.symm
        rw [hplace] at hpath
        cases hpath
    | cons first others =>
        cases hpolls
        rw [List.forall_mem_cons] at hwaiting
        exact ⟨hwaiting.1.2, others, watched, rfl, hwaiting.2, hwatched⟩
  · rintro ⟨hgrace, waiting, watched, rfl, hwaiting, hwatched⟩
    exact ⟨poll :: waiting, watched, rfl, List.forall_mem_cons.mpr ⟨⟨hplace, hgrace⟩, hwaiting⟩,
      hwatched⟩

/-- A payload that is in its scope is held there. -/
theorem LaneRun.confined_placed {run : LaneRun} {poll : Poll} {rest : List Poll}
    {path : List Char} (hplace : payloadCgroup run.unit poll.cgroup = some path) :
    run.Confined (poll :: rest) ↔ run.Held path (poll :: rest) := by
  constructor
  · rintro ⟨waiting, watched, hpolls, hwaiting, hwatched⟩
    cases waiting with
    | nil =>
        obtain ⟨other, hother, hheld⟩ := hwatched poll rest hpolls.symm
        rw [hplace] at hother
        cases hother
        rw [List.nil_append] at hpolls
        rwa [hpolls]
    | cons first others =>
        cases hpolls
        rw [(hwaiting _ List.mem_cons_self).1] at hplace
        cases hplace
  · intro hheld
    refine ⟨[], poll :: rest, rfl, fun other hother => (List.not_mem_nil hother).elim, ?_⟩
    rintro first others heq
    cases heq
    exact ⟨path, hplace, hheld⟩

/-- A lane passes every check exactly if it is confined at every poll that is due. -/
theorem watch_eq_none_iff {polls : List Poll} (hlisted : ∀ poll ∈ polls, poll.Listed)
    {run : LaneRun} (hstart : run.cgroup = none) :
    watch digits run polls = none ↔ run.Confined (due run.lastWatchdog polls) := by
  induction polls generalizing run with
  | nil =>
      simp only [watch, due, true_iff]
      exact ⟨[], [], rfl, fun poll hpoll => (List.not_mem_nil hpoll).elim,
        fun poll rest hnil => by cases hnil⟩
  | cons poll rest ih =>
      rw [List.forall_mem_cons] at hlisted
      rw [watch_cons, due]
      split_ifs with hdue
      · exact ih hlisted.2 hstart
      · cases hplace : payloadCgroup run.unit poll.cgroup with
        | none =>
            have hrest : watch digits { run with lastWatchdog := poll.now } rest = none ↔
                run.Confined (due poll.now rest) := ih hlisted.2 hstart
            rw [LaneRun.confined_waiting hplace, ← hrest]
            simp only [containmentFault, hstart, hplace, Option.or_none]
            split_ifs with hlate
            · simp only [Option.some_or, reduceCtorEq, false_iff, not_and]
              exact fun hgrace => absurd hlate (not_lt.mpr hgrace)
            · simp only [Option.none_or, not_lt.mp hlate, true_and]
        | some path =>
            have hrest : watch digits
                { run with lastWatchdog := poll.now, cgroup := some path } rest = none ↔
                run.Held path (due poll.now rest) := watch_known digits hlisted.2 rfl
            rw [LaneRun.confined_placed hplace, LaneRun.Held, List.forall_mem_cons]
            simp only [containmentFault, hstart, hplace, Option.none_or, Option.or_eq_none_iff,
              effectiveFault_eq_none digits hlisted.1, hrest]
            rfl

/-- A payload that is placed into its scope at the third check. -/
def sampleRun : LaneRun where
  cpus := {0, 1}
  unit := "corecycler-7-1"
  startedAt := 0
  lastWatchdog := 0
  cgroup := none

def strayPoll (now : ℚ) : Poll where
  now := now
  cgroup := some "0::/user.slice/session-2.scope\n".toList
  cpuset := fun _ => some "0-15\n".toList

def placedPoll (now : ℚ) : Poll where
  now := now
  cgroup := some "1:cpu:/\n0::/user.slice/corecycler-7-1.scope\n".toList
  cpuset := fun path =>
    if path = "user.slice/corecycler-7-1.scope".toList then some "0-1\n".toList
    else some "0-15\n".toList

def samplePolls : List Poll :=
  [strayPoll 1, strayPoll 2, strayPoll (9 / 2), strayPoll 6, placedPoll 7, strayPoll 8,
    placedPoll 9]

theorem watch_eq_none_sample : watch asciiDigits sampleRun samplePolls = none := by
  have hlisted : ∀ poll ∈ samplePolls, poll.Listed := by
    have hstray : ∀ now, (strayPoll now).Listed := by
      rintro now path text ⟨⟩
      exact ⟨[(0, 15)], by decide⟩
    have hplaced : ∀ now, (placedPoll now).Listed := by
      intro now path text htext
      simp only [placedPoll] at htext
      split_ifs at htext
      · cases htext
        exact ⟨[(0, 1)], by decide⟩
      · cases htext
        exact ⟨[(0, 15)], by decide⟩
    simp [samplePolls, hstray, hplaced]
  -- The polls at 1, 6 and 8 come too early for a check.
  have hdue : due sampleRun.lastWatchdog samplePolls =
      [strayPoll 2, strayPoll (9 / 2)] ++ [placedPoll 7, placedPoll 9] := by
    norm_num [due, sampleRun, samplePolls, strayPoll, placedPoll, watchdogInterval]
  have hwaiting : ∀ now, payloadCgroup sampleRun.unit (strayPoll now).cgroup = none := by
    intro now
    show payloadCgroup sampleRun.unit (strayPoll 0).cgroup = none
    decide
  refine (watch_eq_none_iff asciiDigits hlisted rfl).mpr ⟨_, _, hdue, ?_, ?_⟩
  · simp only [List.forall_mem_cons, hwaiting, true_and]
    norm_num [sampleRun, strayPoll, containmentGraceSeconds]
  · rintro poll rest ⟨⟩
    refine ⟨"/user.slice/corecycler-7-1.scope".toList, by decide, ?_⟩
    have hheld : ∀ now, (placedPoll now).Gives "/user.slice/corecycler-7-1.scope".toList
        sampleRun.cpus := by
      intro now
      show (placedPoll 0).Gives "/user.slice/corecycler-7-1.scope".toList sampleRun.cpus
      exact ⟨[(0, 1)], by decide, by decide⟩
    exact List.forall_mem_cons.mpr ⟨hheld 7, List.forall_mem_singleton.mpr (hheld 9)⟩

/-! ## Launches -/

theorem contain_eq_ok {launcher launcher' : Launcher} {host : Host} {cpus : List Int}
    {contained : Contained} (hok : contain launcher host cpus = .ok (contained, launcher')) :
    contained.unit = unitName launcher.pid (launcher.unitSeq + 1) ∧
      launcher' = { launcher with unitSeq := launcher.unitSeq + 1 } ∧
      cpus ≠ [] ∧ (∀ cpu ∈ cpus, 0 ≤ cpu) ∧
      "AllowedCPUs=" ++ String.ofList (cpuList (cpus.map Int.toNat).toFinset) ∈
        contained.command := by
  unfold contain at hok
  split_ifs at hok with hcpus
  rw [not_or] at hcpus
  cases hmechanism : host.availableMechanism with
  | none => simp [hmechanism] at hok
  | some mechanism =>
      cases hsystemd : host.systemdRun with
      | none => simp [hmechanism, hsystemd] at hok
      | some systemdRun =>
          cases hsetpriv : host.setpriv with
          | none => simp [hmechanism, hsystemd, hsetpriv] at hok
          | some setpriv =>
              simp only [hmechanism, hsystemd, hsetpriv, Except.ok.injEq, Prod.mk.injEq] at hok
              obtain ⟨rfl, rfl⟩ := hok
              refine ⟨rfl, rfl, hcpus.1, fun cpu hcpu => ?_, by simp⟩
              by_contra hnegative
              exact hcpus.2 ⟨cpu, hcpu, Int.not_le.mp hnegative⟩

/-- The numbers of the scopes of a process ascend. -/
theorem launches_units {launcher : Launcher} {attempts : List (Host × List Int)}
    {launch : List Int × Contained} (hlaunch : launch ∈ launches launcher attempts) :
    ∃ seq, launcher.unitSeq < seq ∧ launch.2.unit = unitName launcher.pid seq := by
  induction attempts generalizing launcher with
  | nil => cases hlaunch
  | cons attempt rest ih =>
      obtain ⟨host, cpus⟩ := attempt
      rw [launches] at hlaunch
      cases hcontain : contain launcher host cpus with
      | error reason =>
          rw [hcontain] at hlaunch
          exact ih hlaunch
      | ok launched =>
          obtain ⟨contained, launcher'⟩ := launched
          obtain ⟨hunit, rfl, -⟩ := contain_eq_ok hcontain
          rw [hcontain] at hlaunch
          rcases List.mem_cons.mp hlaunch with hfirst | hrest
          · cases hfirst
            exact ⟨_, Nat.lt_succ_self _, hunit⟩
          · obtain ⟨seq, hseq, hname⟩ := ih hrest
            exact ⟨seq, Nat.lt_of_succ_lt hseq, hname⟩

theorem unitName_injective (pid : Nat) : Function.Injective (unitName pid) := by
  intro seq other heq
  have hlists := congrArg String.toList heq
  simp only [unitName, String.toList_append, String.toList_ofList, List.append_cancel_left_eq]
    at hlists
  exact numeral_injective hlists

/-- A scope has no slash in its name. -/
theorem slash_notMem_unitName (pid seq : Nat) : '/' ∉ (unitName pid seq).toList := by
  have hslash : ∀ number, '/' ∉ numeral number := not_mem_numeral (by decide)
  simp [unitName, hslash]

/-- The cgroup of a payload ends in the name of its scope. -/
theorem payloadCgroup_suffix {unit : String} {text : Option (List Char)} {path : List Char}
    (hpath : payloadCgroup unit text = some path) :
    '/' :: unit.toList ++ ".scope".toList <:+ path := by
  obtain ⟨content, -, hfound⟩ := Option.bind_eq_some_iff.mp hpath
  obtain ⟨line, -, hline⟩ := List.exists_of_findSome?_eq_some hfound
  split_ifs at hline with hscope
  cases hline
  obtain ⟨rest, rfl⟩ := List.isPrefixOf_iff_prefix.mp hscope.1
  have hsolid : ∀ c ∈ "0::".toList, isSpace c = false := by
    intro c hc
    have hmem : c = '0' ∨ c = ':' := by simpa using hc
    rcases hmem with rfl | rfl <;> rfl
  obtain ⟨behind, hstrip⟩ : ∃ behind, trim ("0::".toList ++ rest) = "0::".toList ++ behind :=
    trim_append hsolid (by simp) rest
  have hsuffix : '/' :: unit.toList ++ ".scope".toList <:+ '0' :: ':' :: ':' :: behind := by
    have hwhole := List.isSuffixOf_iff_suffix.mp hscope.2
    rw [hstrip] at hwhole
    simpa using hwhole
  rw [hstrip]
  -- The name starts with a slash, so it lies behind the three characters in front of the path.
  rcases List.suffix_cons_iff.mp hsuffix with heq | hsuffix
  · exact absurd (congrArg List.head? heq) (by simp)
  rcases List.suffix_cons_iff.mp hsuffix with heq | hsuffix
  · exact absurd (congrArg List.head? heq) (by simp)
  rcases List.suffix_cons_iff.mp hsuffix with heq | hsuffix
  · exact absurd (congrArg List.head? heq) (by simp)
  exact hsuffix

/-- Two scopes with a cgroup in common are one. -/
theorem unit_unique {unit other path : List Char} (hunit : '/' ∉ unit) (hother : '/' ∉ other)
    (hpath : '/' :: unit ++ ".scope".toList <:+ path)
    (hpath' : '/' :: other ++ ".scope".toList <:+ path) : unit = other := by
  obtain ⟨front, hfront⟩ := hpath
  obtain ⟨front', hfront'⟩ := hpath'
  -- Read from the end, the name of a scope reaches to the first slash.
  have heq : front ++ '/' :: unit = front' ++ '/' :: other := by
    rw [← hfront', ← List.append_assoc, ← List.append_assoc] at hfront
    exact List.append_cancel_right hfront
  have hreverse : unit.reverse ++ '/' :: front.reverse = other.reverse ++ '/' :: front'.reverse := by
    simpa using congrArg List.reverse heq
  have hunit' : '/' ∉ unit.reverse := by simpa using hunit
  have hother' : '/' ∉ other.reverse := by simpa using hother
  have hsplit := splitFirst_append hunit' front.reverse
  rw [hreverse, splitFirst_append hother'] at hsplit
  simpa using (congrArg Prod.fst (Option.some.inj hsplit)).symm

theorem launches_apart (launcher : Launcher) (attempts : List (Host × List Int)) :
    (launches launcher attempts).Pairwise fun launch other => ∀ text text' path,
      payloadCgroup launch.2.unit text = some path →
        payloadCgroup other.2.unit text' ≠ some path := by
  induction attempts generalizing launcher with
  | nil => exact List.Pairwise.nil
  | cons attempt rest ih =>
      obtain ⟨host, cpus⟩ := attempt
      rw [launches]
      cases hcontain : contain launcher host cpus with
      | error reason => exact ih launcher
      | ok launched =>
          obtain ⟨contained, launcher'⟩ := launched
          obtain ⟨hunit, rfl, -⟩ := contain_eq_ok hcontain
          refine List.pairwise_cons.mpr ⟨fun other hother text text' path hpath hpath' => ?_, ih _⟩
          obtain ⟨seq, hseq, hname⟩ := launches_units hother
          have hsuffix := payloadCgroup_suffix hpath
          have hsuffix' := payloadCgroup_suffix hpath'
          rw [hunit] at hsuffix
          rw [hname] at hsuffix'
          have hsame := unit_unique (slash_notMem_unitName _ _) (slash_notMem_unitName _ _)
            hsuffix hsuffix'
          have heq := unitName_injective _ (String.toList_injective hsame)
          have hlater : launcher.unitSeq + 1 < seq := hseq
          omega

/-- Every scope is asked for with the CPUs of its launch, and no two launches of a process take
each other's payload for their own. -/
theorem launches_contained (launcher : Launcher) (attempts : List (Host × List Int)) :
    (∀ launch ∈ launches launcher attempts,
      launch.1 ≠ [] ∧ (∀ cpu ∈ launch.1, 0 ≤ cpu) ∧
        ∃ text, "AllowedCPUs=" ++ String.ofList text ∈ launch.2.command ∧
          parseCpuRanges digits text = (launch.1.map Int.toNat).toFinset) ∧
      (launches launcher attempts).Pairwise fun launch other => ∀ text text' path,
        payloadCgroup launch.2.unit text = some path →
          payloadCgroup other.2.unit text' ≠ some path := by
  refine ⟨fun launch hlaunch => ?_, launches_apart launcher attempts⟩
  induction attempts generalizing launcher with
  | nil => cases hlaunch
  | cons attempt rest ih =>
      obtain ⟨host, cpus⟩ := attempt
      rw [launches] at hlaunch
      cases hcontain : contain launcher host cpus with
      | error reason =>
          rw [hcontain] at hlaunch
          exact ih launcher hlaunch
      | ok launched =>
          obtain ⟨contained, launcher'⟩ := launched
          obtain ⟨-, -, hne, hnatural, hasked⟩ := contain_eq_ok hcontain
          rw [hcontain] at hlaunch
          rcases List.mem_cons.mp hlaunch with hfirst | hrest
          · cases hfirst
            exact ⟨hne, hnatural, _, hasked, parseCpuRanges_cpuList digits _⟩
          · exact ih launcher' hrest

end Containment
end Engine
end CoreCycler
