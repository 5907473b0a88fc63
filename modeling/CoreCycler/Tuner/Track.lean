import CoreCycler.Tuner.Advance

/-!
# The search of one core as a walk along a line

The abstract model of the per-core state machine.  A `Track` keeps where a core
stands, measured in depths, so that both directions of search are one order of
integers; counters, cursors and times are gone.  Verdicts are relations, since
step sizes and bisection points do not matter beyond the bounds they keep;
everything else the engine does to a core is a function.
-/

namespace CoreCycler
namespace Tuner

/-- Where a core stands, in depths. -/
structure Track where
  phase : TunerPhase
  current : Int
  baseline : Int
  best : Option Int
  failBound : Option Int
  passBound : Option Int
deriving DecidableEq, Repr

namespace Track

/-- What the core falls back on: its best, else its baseline. -/
def known (track : Track) : Int := track.best.getD track.baseline

/-- Short of the recorded fail bound. -/
def Short (track : Track) : Prop :=
  ∀ bound, track.failBound = some bound → track.current < bound

/-- One step back from the known ground, down to the baseline. -/
def stepBack (fine : Int) (track : Track) : Int := max (track.known - fine) track.baseline

/-- The fail bound once `depth` has failed as well. -/
def failedAt (track : Track) (depth : Int) : Int := min (track.failBound.getD depth) depth

/-- The bounds once `depth` has failed. -/
def tightened (track : Track) (depth : Int) : Track :=
  { track with
    failBound := some (track.failedAt depth)
    passBound := track.passBound.filter (· < depth) }

/-- A back-off that failed at the current depth, with its known ground filled in. -/
def backedOff (track : Track) : Track :=
  { track.tightened track.current with best := some track.known }

theorem tightened_passBound {track : Track} {depth bound : Int} :
    (track.tightened depth).passBound = some bound ↔
      track.passBound = some bound ∧ bound < depth := by
  simp [tightened, Option.filter_eq_some_iff]

theorem failedAt_le (track : Track) (depth : Int) : track.failedAt depth ≤ depth :=
  min_le_right _ _

/-- The pass bound lies between the baseline and the fail bound. -/
def PassBetween (track : Track) : Prop :=
  ∀ passed, track.passBound = some passed → track.baseline ≤ passed ∧
    ∀ bound, track.failBound = some bound → passed < bound

theorem PassBetween.of_none {track : Track} (hnone : track.passBound = none) :
    track.PassBetween := by
  simp [PassBetween, hnone]

/-- A pass bound that survives a failure is still between the bounds. -/
theorem PassBetween.tightened {track : Track} (hbetween : track.PassBetween) (depth : Int)
    {passed : Int} (hpass : (track.tightened depth).passBound = some passed) :
    track.baseline ≤ passed ∧ passed < track.failedAt depth ∧ passed < depth := by
  rw [tightened_passBound] at hpass
  obtain ⟨hpass, hlt⟩ := hpass
  obtain ⟨hground, hshort⟩ := hbetween passed hpass
  refine ⟨hground, ?_, hlt⟩
  rw [failedAt]
  cases hfail : track.failBound with
  | none => simpa using hlt
  | some bound => exact lt_min (hshort bound hfail) hlt

/-! ## Verdicts -/

/-- What a PASS can do. -/
inductive Passed (fine cap : Int) (track : Track) : Track → Prop
  | deeper {next : Int}
      (hphase : track.phase = .coarseSearch ∨ track.phase = .fineSearch)
      (hlt : track.current < next) (hcap : next ≤ cap) :
      Passed fine cap track { track with best := some track.current, current := next }
  | searched (hphase : track.phase = .coarseSearch ∨ track.phase = .fineSearch) :
      Passed fine cap track { track with best := some track.current, phase := .settled }
  | confirmed (hphase : track.phase = .confirming) :
      Passed fine cap track { track with phase := .confirmed }
  | annealed (hphase : track.phase = .annealing) (hshort : track.Short) :
      Passed fine cap track { track with best := some track.current, phase := .confirmed }
  | annealRefused (hphase : track.phase = .annealing) :
      Passed fine cap track
        { track with current := track.best.getD track.current, phase := .confirmed }
  | grounded (hphase : isBackoff track.phase = true) :
      Passed fine cap track
        { track with
          phase := .backoffPreconfirm
          best := some track.baseline
          current := track.baseline }
  | contradicted {bound : Int} (hphase : isBackoff track.phase = true)
      (hbound : track.failBound = some bound) (habove : track.baseline < bound - fine) :
      Passed fine cap track
        { track with
          phase := .backoffPreconfirm
          best := some (min track.known (bound - fine))
          current := bound - fine }
  | preconfirmed (hphase : track.phase = .backoffPreconfirm) (hshort : track.Short) :
      Passed fine cap track
        { track with
          phase := .backoffConfirming
          best := some track.current
          passBound := some track.current }
  | backoffConfirmed (hphase : track.phase = .backoffConfirming) (hshort : track.Short) :
      Passed fine cap track
        { track with
          phase := .confirmed
          best := some track.current
          passBound := some track.current }
  | bisected {mid bound : Int} (hphase : isBackoff track.phase = true)
      (hbound : track.failBound = some bound) (hlt : track.current < mid) (hmid : mid < bound) :
      Passed fine cap track
        { track with
          phase := .backoffPreconfirm
          best := some track.current
          passBound := some track.current
          current := mid }

/-- What a FAIL can do, and whether it pauses the session. -/
inductive Failed (fine cap : Int) (track : Track) : Bool → Track → Prop
  | first (hphase : track.phase = .coarseSearch) (hbest : track.best = none) :
      Failed fine cap track false
        { track with
          phase := .backoffPreconfirm
          failBound := some track.current
          best := some (max (track.current - fine) track.baseline)
          current := max (track.current - fine) track.baseline }
  | probed {best : Int} (hphase : track.phase = .coarseSearch) (hbest : track.best = some best)
      (hlt : min (best + fine) cap < track.current) :
      Failed fine cap track false
        { track with phase := .fineSearch, current := min (best + fine) cap }
  | bracketed {best : Int} (hphase : track.phase = .coarseSearch)
      (hbest : track.best = some best) :
      Failed fine cap track false
        { track with phase := .settled, current := min (best + fine) cap }
  | searched (hphase : track.phase = .fineSearch) :
      Failed fine cap track false { track with phase := .settled }
  | confirmPaused (hphase : track.phase = .confirming) (hle : track.current ≤ track.baseline) :
      Failed fine cap track true track
  | retried (hphase : track.phase = .confirming) (hlt : track.baseline < track.current) :
      Failed fine cap track false track
  | givenUp (hphase : track.phase = .confirming) (hlt : track.baseline < track.current) :
      Failed fine cap track false { track with phase := .failedConfirm }
  | annealFailed (hphase : track.phase = .annealing) :
      Failed fine cap track false
        { track with current := track.best.getD track.current, phase := .confirmed }
  | backoffPaused (hphase : isBackoff track.phase = true)
      (hle : track.current ≤ track.baseline) :
      Failed fine cap track true track.backedOff
  | returned {bound : Int} (hphase : track.phase = .backoffPreconfirm)
      (hlt : track.baseline < track.current)
      (hpass : (track.tightened track.current).passBound = some bound) :
      Failed fine cap track false
        { track.backedOff with
          phase := .backoffConfirming
          best := some bound
          current := bound }
  | bisected {bound : Int} (hphase : track.phase = .backoffPreconfirm)
      (hlt : track.baseline < track.current)
      (hpass : (track.tightened track.current).passBound = some bound) :
      Failed fine cap track false
        { track.backedOff with
          best := some bound
          current := bound + |track.failedAt track.current - bound| / 2 }
  | steppedBack {step : Int} (hphase : track.phase = .backoffPreconfirm)
      (hlt : track.baseline < track.current) (hstep : fine ≤ step) :
      Failed fine cap track false
        { track.backedOff with
          best := some (max (track.current - step) track.baseline)
          current := max (track.current - step) track.baseline }
  | floored {bound : Int} (hphase : track.phase = .backoffConfirming)
      (hlt : track.baseline < track.current)
      (hpass : (track.tightened track.current).passBound = some bound) :
      Failed fine cap track false
        { track.backedOff with best := some bound, current := bound }
  | reopened (hphase : track.phase = .backoffConfirming)
      (hlt : track.baseline < track.current) :
      Failed fine cap track false
        { track.backedOff with
          phase := .backoffPreconfirm
          best := some (track.stepBack fine)
          current := track.stepBack fine }

/-! ## Everything else -/

/-- The automatic step out of a phase that tests nothing. -/
def left (fine : Int) (track : Track) : Track :=
  match track.phase with
  | .settled =>
      { track with phase := .confirming, best := some track.known, current := track.known }
  | .failedConfirm =>
      { track with
        phase := .backoffPreconfirm
        best := some (track.stepBack fine)
        current := track.stepBack fine }
  | _ => track

/-- The first step of a search, at `first`. -/
def begun (first : Int) (track : Track) : Track :=
  { track with phase := .coarseSearch, current := first }

/-- Where a penalty at `resident` that steps back to `back` leaves the current depth. -/
def landing (track : Track) (resident back : Int) : Int :=
  if resident ≤ track.baseline then back else max back track.baseline

/-- A penalty at `resident` that steps back to `back`. -/
def penalized (resident back : Int) (track : Track) : Track :=
  if resident = 0 then
    { track with current := 0 }
  else
    let baseline := if resident ≤ track.baseline then back else track.baseline
    let current := track.landing resident back
    { track.tightened resident with
      phase := if forcedIntoBackoff track.phase then .backoffPreconfirm else track.phase
      baseline := baseline
      current := current
      best := some (min (track.best.getD baseline) current) }

/-- The start of an annealing probe. -/
def probing (fine : Int) (track : Track) : Track :=
  { track with phase := .annealing, current := track.known + fine }

/-- A validation back-off. -/
def validationStep (fine : Int) (track : Track) : Track :=
  { track with best := some (track.stepBack fine), current := track.stepBack fine }

/-- A re-engagement on what was survived. -/
def pulled (survived : Int) (track : Track) : Track :=
  { track with
    current := min track.current survived
    baseline := min track.baseline survived
    best := track.best.map (min · survived) }

/-- A rollback to logged evidence. -/
def rolledBack (depth : Int) (track : Track) : Track :=
  { track with
    phase := .confirming
    current := depth
    best := some depth
    failBound := none
    passBound := none }

/-- A finished profile under validation again. -/
def reopenedAt (depth : Int) (track : Track) : Track :=
  { track with phase := .confirming, current := depth, best := some depth }

end Track

end Tuner
end CoreCycler
