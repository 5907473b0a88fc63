import CoreCycler.Library.CheckedWrites
import CoreCycler.Tuner.Bisect
import CoreCycler.Tuner.Regime
import CoreCycler.Tuner.State

/-!
# The applied-offset cache

Offsets reach the SMU through `writeCoVerified` alone, which attempts a write three times
and caches the offset once it is read back.  The paths below are the callers: they
differ in the offsets they put on the cores, in which cores they skip for their cached
offset, and in what they do about a core that could not be written.

A cached offset stays where it is while a write is attempted.  The cache therefore lies
from the first write on that fails on a core it knew.
-/

namespace CoreCycler
namespace Tuner

open Bisect

/-- What a non-tested core sits at under the given mask. -/
def maskOffset (cs : CoreState) (mask : Mask) : Int :=
  match mask, cs.bestOffset with
  | .live, some best => best
  | _, _ => cs.baselineOffset

namespace AppliedCache

open Library Library.CheckedWrites

abbrev CoProgram := Program CoreId Int

/-- How a path ends. -/
inductive PathEnd
  | ok
  /-- The caller decides what to do about the write that failed. -/
  | failed
  | paused
  | quarantined
deriving DecidableEq

/-! ## The paths -/

def writeCoVerified (core : CoreId) (offset : Int) : CoProgram Bool :=
  .put core offset true .done

/-- Write a core, unless `_co_applied` has it at the offset already. -/
def writeUnlessApplied (core : CoreId) (offset : Int) : CoProgram Bool :=
  .put core offset false .done

/-- Put every physical core at stock; the cores that could not be. -/
def restoreStockVerified (topology : List CoreId) : CoProgram (List CoreId) := do
  let mut failed := []
  for core in topology do
    let ok ← writeCoVerified core 0
    unless ok do
      failed := failed ++ [core]
  return failed

def recoverCoWriteFailure (topology : List CoreId) : CoProgram PathEnd := do
  let failed ← restoreStockVerified topology
  return if failed.isEmpty then .paused else .quarantined

/-- Put the tested core at its trial offset, every other core at what the mask says. -/
def applyCoMask (topology : List CoreId) (coreStates : List CoreState) (testCore : CoreId)
    (testOffset : Int) (mask : Mask) : CoProgram PathEnd := do
  for cs in coreStates do
    if cs.coreId ≠ testCore then
      let ok ← writeUnlessApplied cs.coreId (maskOffset cs mask)
      unless ok do
        return ← recoverCoWriteFailure topology
  let ok ← writeCoVerified testCore testOffset
  unless ok do
    return ← recoverCoWriteFailure topology
  return .ok

/-- Validation keeps the other cores where a live mask has them. -/
def applyValidationOffsets (topology : List CoreId) (coreStates : List CoreState)
    (testCore : CoreId) (testOffset : Int) : CoProgram PathEnd :=
  applyCoMask topology coreStates testCore testOffset .live

def restoreHuntStock (topology : List CoreId) : CoProgram PathEnd := do
  let failed ← restoreStockVerified topology
  return if failed.isEmpty then .ok else .quarantined

/-- Replay the crash vector on the live cores, and put everyone else at stock. -/
def applyHuntMask (topology : List CoreId) (vector : List (CoreId × Int))
    (live : List CoreId) : CoProgram PathEnd := do
  for core in topology do
    let target := if core ∈ live then (vector.lookup core).getD 0 else 0
    let ok ← writeUnlessApplied core target
    unless ok do
      let restored ← restoreHuntStock topology
      return if restored = .quarantined then .quarantined else .paused
  return .ok

def revertCoreToBaseline (coreStates : List CoreState) (core : CoreId) :
    CoProgram PathEnd := do
  match coreStates.find? (·.coreId = core) with
  | none => return .ok
  | some cs =>
      let ok ← writeUnlessApplied core cs.baselineOffset
      return if ok then .ok else .failed

def revertAllToBaseline (topology : List CoreId) (coreStates : List CoreState)
    (force : Bool) : CoProgram PathEnd := do
  let mut failed := []
  for cs in coreStates do
    let ok ← (.put cs.coreId cs.baselineOffset force .done : CoProgram Bool)
    unless ok do
      failed := failed ++ [cs.coreId]
  if failed.isEmpty then
    return .ok
  else
    let _ ← restoreStockVerified topology
    return .quarantined

/-- The second step of `resume`. -/
def restoreBaselines (coreStates : List CoreState) : CoProgram PathEnd := do
  let mut failed := []
  for cs in coreStates do
    let ok ← writeCoVerified cs.coreId cs.baselineOffset
    unless ok do
      failed := failed ++ [cs.coreId]
  return if failed.isEmpty then .ok else .paused

def quarantineSession (topology : List CoreId) : CoProgram PathEnd := do
  let _ ← restoreStockVerified topology
  return .quarantined

/-- Apply the confirmed profile of a session that is complete. -/
def finalizeSession (topology : List CoreId) (profile : List (CoreId × Int)) :
    CoProgram PathEnd := do
  for (core, offset) in profile do
    let ok ← writeCoVerified core offset
    unless ok do
      let _ ← restoreStockVerified topology
      return .quarantined
  return .ok

/-! ## The engine -/

/-- A path the engine takes, with what it reads of the session at that moment. -/
inductive CoPath
  | applyCoMask (coreStates : List CoreState) (testCore : CoreId) (testOffset : Int)
      (mask : Mask)
  | applyValidationOffsets (coreStates : List CoreState) (testCore : CoreId)
      (testOffset : Int)
  | applyHuntMask (vector : List (CoreId × Int)) (live : List CoreId)
  | restoreHuntStock
  | revertCoreToBaseline (coreStates : List CoreState) (core : CoreId)
  | revertAllToBaseline (coreStates : List CoreState) (force : Bool)
  | restoreBaselines (coreStates : List CoreState)
  | quarantineSession
  | finalizeSession (profile : List (CoreId × Int))

def CoPath.program (topology : List CoreId) : CoPath → CoProgram PathEnd
  | applyCoMask coreStates testCore testOffset mask =>
      AppliedCache.applyCoMask topology coreStates testCore testOffset mask
  | applyValidationOffsets coreStates testCore testOffset =>
      AppliedCache.applyValidationOffsets topology coreStates testCore testOffset
  | applyHuntMask vector live => AppliedCache.applyHuntMask topology vector live
  | restoreHuntStock => AppliedCache.restoreHuntStock topology
  | revertCoreToBaseline coreStates core => AppliedCache.revertCoreToBaseline coreStates core
  | revertAllToBaseline coreStates force =>
      AppliedCache.revertAllToBaseline topology coreStates force
  | restoreBaselines coreStates => AppliedCache.restoreBaselines coreStates
  | quarantineSession => AppliedCache.quarantineSession topology
  | finalizeSession profile => AppliedCache.finalizeSession topology profile

/-- The engine's writes: out of `co_range` none is attempted, and within it three are.
`forget` is what a new session does to the cache, `restart` a new process. -/
def coWriter (topology : List CoreId) (coRange : Int × Int) :
    Driver CoreId Int PathEnd CoPath where
  program := CoPath.program topology
  inRange offset := coRange.1 ≤ offset ∧ offset ≤ coRange.2
  attempts := 3

abbrev CoEvent := Event CoreId Int CoPath 3

section Cache

variable (topology : List CoreId) (coRange : Int × Int)

/-- **When the cache tells the truth.**  As long as no write fails all its attempts on a
core whose offset is cached, a cached offset is what the last attempt was verified at and
what the core is at; a core skipped for its cached offset is then where the path wants it.
The first write that does fail so makes the cache lie. -/
theorem co_applied_truthful :
    (∀ machine, (coWriter topology coRange).system.ReachableBy
        (coWriter topology coRange).Answered machine →
      Truthful machine.cells ∧
        ∀ core target next, machine.pending = some (.put core target false next) →
          machine.cells.cached core = some target → machine.cells.contents core = target) ∧
    (∀ machine event next, (coWriter topology coRange).system.ReachableBy
        (coWriter topology coRange).Answered machine →
      ¬ (coWriter topology coRange).Answered machine event →
      (coWriter topology coRange).step machine event = some next → ¬ Truthful next.cells) := by
  constructor
  · intro machine hreach
    have htrue := truthful_of_reachable hreach
    exact ⟨htrue, fun core target _ _ hcached => (htrue core target hcached).2⟩
  · intro machine event next _ hanswered hstep
    exact not_truthful_of_unanswered (by show 0 < 3; omega) hanswered hstep

end Cache

/-- An attempt the SMU takes and reads back. -/
def taken (offset : Int) : Attempt Int where
  answer := .readBack offset
  leaves := offset
  honest value hread := by simpa using hread

/-- An attempt reported as rejected, with the core left at an offset all the same. -/
def lost (leaves : Int) : Attempt Int where
  answer := .rejected
  leaves := leaves
  honest value hread := by simp at hread

/-- One core, at stock. -/
def stockCore : List CoreState := [{ coreId := 0, baselineOffset := 0 }]

/-- A new engine, on a machine whose cores are all at an offset. -/
def fresh (offset : Int) : Machine CoreId Int PathEnd where
  cells := { contents := fun _ => offset, cached := fun _ => none, verified := fun _ => none }

theorem co_applied_truthful_until_lost :
    ∃ before after : Machine CoreId Int PathEnd, Truthful before.cells ∧
      before.cells.cached 0 = some 0 ∧ ¬ Truthful after.cells := by
  have hstart : (coWriter [0] (-50, 30)).system.ReachableBy
      (coWriter [0] (-50, 30)).Answered (fresh (-5)) := .start ⟨rfl, rfl⟩
  have hcall := StepSystem.ReachableBy.step hstart
    (show (coWriter [0] (-50, 30)).Answered _
      (.call (.revertCoreToBaseline stockCore 0) : CoEvent) from trivial) rfl
  have hwrite := StepSystem.ReachableBy.step hcall
    (show (coWriter [0] (-50, 30)).Answered _ (.write fun _ => taken 0 : CoEvent) from
      fun _ _ => ⟨(0 : Fin 3), rfl⟩) rfl
  have hfinish := StepSystem.ReachableBy.step hwrite
    (show (coWriter [0] (-50, 30)).Answered _ (.finish : CoEvent) from trivial) rfl
  have hmask := StepSystem.ReachableBy.step hfinish
    (show (coWriter [0] (-50, 30)).Answered _
      (.call (.applyCoMask stockCore 0 (-5) .live) : CoEvent) from trivial) rfl
  refine ⟨_, _, ((co_applied_truthful [0] (-50, 30)).1 _ hwrite).1, rfl,
    (co_applied_truthful [0] (-50, 30)).2 _ (.write fun _ => lost (-5) : CoEvent) _ hmask
      ?_ rfl⟩
  intro hanswered
  obtain ⟨attempt, hread⟩ := hanswered rfl (by decide)
  exact absurd hread (by simp [lost])

/-- A write to a core cached at stock fails, and so does the restoration of stock; the
revert that follows trusts the cache, with the core still at the offset. -/
theorem co_applied_lies :
    ∃ machine, (coWriter [0] (-50, 30)).system.Reachable machine ∧
      ¬ Truthful machine.cells ∧ machine.pending = none ∧
      machine.cells.cached 0 = some 0 ∧ machine.cells.contents 0 = -5 := by
  let events : List CoEvent :=
    [.call (.revertCoreToBaseline stockCore 0), .write fun _ => taken 0, .finish,
      .call (.applyCoMask stockCore 0 (-5) .live), .write fun _ => lost (-5),
      .write fun _ => lost (-5), .finish,
      .call (.revertCoreToBaseline stockCore 0), .skip, .finish]
  let view (machine : Machine CoreId Int PathEnd) :=
    (machine.pending.isNone, machine.cells.cached 0, machine.cells.contents 0)
  have hrun : ((coWriter [0] (-50, 30)).system.runEvents (fresh 0) events).map view =
      some (true, some 0, -5) := rfl
  have hstart : (coWriter [0] (-50, 30)).system.Start (fresh 0) := ⟨rfl, rfl⟩
  obtain ⟨machine, hreach, hview⟩ := StepSystem.exists_reachable view _ events hstart hrun
  simp only [view, Prod.mk.injEq, Option.isNone_iff_eq_none] at hview
  refine ⟨machine, hreach, fun htrue => ?_, hview⟩
  have hthere := (htrue 0 0 hview.2.1).2
  rw [hview.2.2] at hthere
  exact absurd hthere (by decide)

end AppliedCache
end Tuner
end CoreCycler
