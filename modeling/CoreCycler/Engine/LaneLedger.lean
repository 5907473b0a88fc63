import CoreCycler.Engine.KeptEvidence

/-!
# Where a verdict comes from

`_classify_completed` infers a pass from a return code and the signals of a teardown.  The
ledger of a batch says what stands behind each verdict: a pass has a process that the
supervisor ended while it was running, not before the deadline, and a failure has a poll that
charged it, an error of the backend or a process that was over by itself (`Traced`).  Most
stages are `Quiet`: they fail lanes and leave alone how their processes ended.
-/

namespace CoreCycler
namespace Engine

open Library Library.Text Supervisor

/-! ## The end of a process -/

namespace Process

/-- The return code is that of a signal of its teardown. -/
def Matched (process : Process) : Prop :=
  ∃ outcome, process.termination = some outcome ∧ ∃ code, process.returnCode = some code ∧
    ∃ sent ∈ outcome.sentSignals, code = -sent ∨ code = 128 + sent

/-- The process left on our SIGTERM, with a code of its own. -/
def Left (process : Process) : Prop :=
  ∃ outcome, process.termination = some outcome ∧ process.returnCode = some 0 ∧
    outcome.stoppedRunning = true

/-- The supervisor's own teardown ended the process while it was running. -/
def EndedBySupervisor (process : Process) : Prop :=
  process.runningAtStop = true ∧ (process.Matched ∨ process.Left)

/-- What the supervisor stopped while it was running ran to the deadline. -/
def Timely (duration : ℚ) (process : Process) : Prop :=
  process.runningAtStop = true → duration ≤ process.stoppedAt

/-- Nothing is left of the process, and its return code is known. -/
def Over (process : Process) : Prop := process.torn = true ∧ process.returnCode.isSome = true

/-- The signals of the teardown and what became of the process agree. -/
structure Signed (process : Process) : Prop where
  matched : process.Matched → process.runningAtStop = true
  stopped : ∀ outcome, process.termination = some outcome → outcome.stoppedRunning = true →
    process.runningAtStop = true ∧ sigterm ∈ outcome.sentSignals

/-- How a process ended is not changed. -/
structure SameEnd (process next : Process) : Prop where
  returnCode : next.returnCode = process.returnCode
  termination : next.termination = process.termination
  runningAtStop : next.runningAtStop = process.runningAtStop
  stoppedAt : next.stoppedAt = process.stoppedAt

variable {process next last : Process} {duration clock : ℚ}

theorem SameEnd.refl (process : Process) : SameEnd process process := ⟨rfl, rfl, rfl, rfl⟩

theorem SameEnd.trans (hfirst : SameEnd process next) (hsecond : SameEnd next last) :
    SameEnd process last :=
  ⟨hsecond.returnCode.trans hfirst.returnCode, hsecond.termination.trans hfirst.termination,
    hsecond.runningAtStop.trans hfirst.runningAtStop, hsecond.stoppedAt.trans hfirst.stoppedAt⟩

theorem SameEnd.matched (hsame : SameEnd process next) : next.Matched ↔ process.Matched := by
  unfold Matched
  rw [hsame.termination, hsame.returnCode]

theorem SameEnd.endedBySupervisor (hsame : SameEnd process next) :
    next.EndedBySupervisor ↔ process.EndedBySupervisor := by
  unfold EndedBySupervisor Left
  rw [hsame.matched, hsame.runningAtStop, hsame.termination, hsame.returnCode]

theorem SameEnd.over (hsame : SameEnd process next) : next.Over ↔ process.Over := by
  unfold Over torn
  rw [hsame.termination, hsame.returnCode]

theorem SameEnd.timely (hsame : SameEnd process next) :
    next.Timely duration ↔ process.Timely duration := by
  unfold Timely
  rw [hsame.runningAtStop, hsame.stoppedAt]

theorem SameEnd.signed (hsame : SameEnd process next) (hsigned : process.Signed) :
    next.Signed := by
  constructor
  · intro hmatched
    rw [hsame.runningAtStop]
    exact hsigned.matched (hsame.matched.mp hmatched)
  · intro outcome htermination hstopped
    rw [hsame.runningAtStop]
    exact hsigned.stopped outcome (hsame.termination ▸ htermination) hstopped

/-- The code that is classed is one of the teardown's signals only if the supervisor ended the
process. -/
theorem endedBySupervisor_iff (hover : process.Over) (hsigned : process.Signed) :
    process.terminationMatchesReturncode process.effectiveReturnCode = true ↔
      process.EndedBySupervisor := by
  obtain ⟨code, hcode⟩ := Option.isSome_iff_exists.mp hover.2
  obtain ⟨outcome, houtcome, -⟩ := (Option.any_eq_true _ _).mp hover.1
  have hmatches (returnCode : Int) : process.terminationMatchesReturncode returnCode = true ↔
      ∃ sent ∈ outcome.sentSignals, returnCode = -sent ∨ returnCode = 128 + sent := by
    simp only [terminationMatchesReturncode, houtcome, Option.any_some, List.any_eq_true,
      decide_eq_true_eq]
  have hsigterm (hstopped : outcome.stoppedRunning = true) : process.runningAtStop = true ∧
      process.terminationMatchesReturncode (-sigterm) = true := by
    obtain ⟨hrunning, hsent⟩ := hsigned.stopped outcome houtcome hstopped
    exact ⟨hrunning, (hmatches _).mpr ⟨sigterm, hsent, .inl rfl⟩⟩
  have heffective : process.effectiveReturnCode =
      if code = 0 ∧ outcome.stoppedRunning = true then -sigterm else code := by
    simp only [effectiveReturnCode, hcode, houtcome, Option.getD_some, Option.any_some]
  rw [heffective]
  by_cases hleft : code = 0 ∧ outcome.stoppedRunning = true
  · obtain ⟨rfl, hstopped⟩ := hleft
    rw [if_pos ⟨rfl, hstopped⟩]
    obtain ⟨hrunning, hmatch⟩ := hsigterm hstopped
    exact ⟨fun _ => ⟨hrunning, .inr ⟨outcome, houtcome, hcode, hstopped⟩⟩, fun _ => hmatch⟩
  · rw [if_neg hleft, hmatches]
    constructor
    · intro hmatch
      have hmatched : process.Matched := ⟨outcome, houtcome, code, hcode, hmatch⟩
      exact ⟨hsigned.matched hmatched, .inl hmatched⟩
    · rintro ⟨-, ⟨other, hother, found, hfound, hmatch⟩ | ⟨other, hother, hzero, hstopped⟩⟩
      · cases houtcome.symm.trans hother
        cases hcode.symm.trans hfound
        exact hmatch
      · cases houtcome.symm.trans hother
        cases hcode.symm.trans hzero
        exact absurd ⟨rfl, hstopped⟩ hleft

/-- What a stage may do to a process: one that is over stays as it is, a return code that is
known stays known, and what is stopped from the deadline on is in time. -/
structure Later (duration clock : ℚ) (process next : Process) : Prop where
  ended : process.Over → SameEnd process next
  code : process.returnCode.isSome = true → next.returnCode.isSome = true
  timely : process.Timely duration → process.returnCode.isSome = true ∨ duration ≤ clock →
    next.Timely duration

theorem SameEnd.later (hsame : SameEnd process next) : Later duration clock process next :=
  ⟨fun _ => hsame, fun hcode => by rw [hsame.returnCode]; exact hcode,
    fun htimely _ => hsame.timely.mpr htimely⟩

theorem Later.trans (hfirst : Later duration clock process next)
    (hsecond : Later duration clock next last) : Later duration clock process last := by
  constructor
  · intro hover
    have hsame := hfirst.ended hover
    exact hsame.trans (hsecond.ended (hsame.over.mpr hover))
  · exact fun hcode => hsecond.code (hfirst.code hcode)
  · intro htimely hlate
    exact hsecond.timely (hfirst.timely htimely hlate) (hlate.imp_left hfirst.code)

end Process

/-! ## What is classed -/

theorem killedByUs_of_parseOutput {classes : CharClasses} {backend : Backend}
    {stdout stderr : String} {returnCode : Int}
    (hpassed : (parseOutput classes backend stdout stderr returnCode).result.1 = true) :
    returnCode ∈ killedByUsCodes := by
  have hexit : ∀ backend, (indefiniteExitVerdict backend returnCode).result.1 = true →
      returnCode ∈ killedByUsCodes := by
    intro backend hresult
    by_contra hnot
    rw [indefiniteExitVerdict, if_neg hnot] at hresult
    cases hsignal : crashSignal returnCode <;> rw [hsignal] at hresult <;> cases hresult
  have hsignature : ∀ (signature : Signature) (head : String) (found : List Char),
      (signature.finding head found).result.1 = false := by
    intro signature head found
    unfold Signature.finding
    split <;> rfl
  -- Every backend reports a finding first, and passes an exit code only behind it.
  unfold parseOutput at hpassed
  cases backend with
  | mprime =>
      dsimp only at hpassed
      split at hpassed
      · rw [hsignature] at hpassed
        cases hpassed
      · exact hexit _ hpassed
  | stressNg =>
      dsimp only at hpassed
      split at hpassed
      · rw [hsignature] at hpassed
        cases hpassed
      · exact hexit _ hpassed
  | stressapptest =>
      dsimp only at hpassed
      split at hpassed
      · cases hpassed
      · exact hexit _ hpassed
  | yCruncher =>
      dsimp only at hpassed
      split at hpassed
      · cases hpassed
      · split at hpassed
        · rw [hsignature] at hpassed
          cases hpassed
        · split at hpassed
          · rw [hsignature] at hpassed
            cases hpassed
          · exact hexit _ hpassed

namespace Supervisor

variable {core : Nat} {completion : Completion} {interrupted : Bool} {verdict : StressResult}

/-- What a pass rules out. -/
theorem classifyCompleted_passed
    (hclassed : classifyCompleted core completion interrupted = some verdict)
    (hpassed : verdict.passed = true) :
    completion.liveError = none ∧ completion.killedExternally = false ∧
      completion.output.1 = true ∧ interrupted = false := by
  unfold classifyCompleted at hclassed
  cases hlive : completion.liveError with
  | some message =>
      simp only [hlive, Option.some.injEq] at hclassed
      rw [← hclassed] at hpassed
      cases hpassed
  | none =>
      simp only [hlive] at hclassed
      split_ifs at hclassed with hkilled houtput hearly hinterrupted <;>
        simp only [Option.some.injEq] at hclassed
      all_goals try (rw [← hclassed] at hpassed; cases hpassed)
      exact ⟨rfl, Bool.eq_false_iff.mpr hkilled, by simpa using houtput,
        Bool.eq_false_iff.mpr hinterrupted⟩

/-- What a failure comes from. -/
theorem classifyCompleted_failed
    (hclassed : classifyCompleted core completion interrupted = some verdict)
    (hfailed : verdict.passed = false) :
    completion.liveError.isSome = true ∨ completion.killedExternally = true ∨
      completion.output.1 = false ∨ completion.tooEarly = true := by
  unfold classifyCompleted at hclassed
  cases hlive : completion.liveError with
  | some message => exact .inl rfl
  | none =>
      simp only [hlive] at hclassed
      split_ifs at hclassed with hkilled houtput hearly hinterrupted
      · exact .inr (.inl hkilled)
      · exact .inr (.inr (.inl (by simpa using houtput)))
      · exact .inr (.inr (.inr hearly))
      · obtain rfl := Option.some.inj hclassed
        cases hfailed

/-- An error of the backend is a failure. -/
theorem classifyCompleted_reported
    (herror : (completion.liveError.isSome || !completion.output.1) = true) :
    ∃ verdict, classifyCompleted core completion interrupted = some verdict ∧
      verdict.passed = false := by
  unfold classifyCompleted
  cases hlive : completion.liveError with
  | some message => exact ⟨_, rfl, rfl⟩
  | none =>
      rw [hlive] at herror
      simp only [Option.isSome_none, Bool.false_or] at herror
      by_cases hkilled : completion.killedExternally = true
      · simp only [hkilled, if_true]
        exact ⟨_, rfl, rfl⟩
      · simp only [hkilled, herror, if_true]
        exact ⟨_, rfl, rfl⟩

/-- Only an interrupted run leaves a lane without a verdict. -/
theorem classifyCompleted_none (hclassed : classifyCompleted core completion interrupted = none) :
    interrupted = true := by
  unfold classifyCompleted at hclassed
  cases hlive : completion.liveError with
  | some message =>
      rw [hlive] at hclassed
      cases hclassed
  | none =>
      simp only [hlive] at hclassed
      split_ifs at hclassed with hkilled houtput hearly hinterrupted
      exact hinterrupted

end Supervisor

/-! ## The ledger -/

namespace Batch

variable {may : LaneRun → Prop} {batch next last : Batch} {core : Nat}

/-- What stands behind the verdict of a lane. -/
structure Traced (batch : Batch) (run : LaneRun) : Prop where
  earned : run.verdict.any (·.passed) = true → run.launched = true ∧
    (batch.processes run.lane.coreId).Over ∧
    (batch.processes run.lane.coreId).EndedBySupervisor ∧
    batch.duration ≤ (batch.processes run.lane.coreId).stoppedAt
  blamed : run.Failed → run.lane.coreId ∈ batch.charged ∨ run.lane.coreId ∈ batch.reported ∨
    (batch.processes run.lane.coreId).Over ∧
      ¬ (batch.processes run.lane.coreId).EndedBySupervisor
  reported : run.lane.coreId ∈ batch.reported → run.Failed
  signed : run.unfailed = true → (batch.processes run.lane.coreId).Signed

/-- A lane of the core that was torn down has failed, or nothing of it is left. -/
def Gone (batch : Batch) (core : Nat) : Prop :=
  ∀ run ∈ batch.sup.runs, run.lane.coreId = core → run.unfailed = true →
    (batch.processes core).termination.isSome = true → (batch.processes core).Over

/-- What holds of the lanes at every stage. -/
structure Ledger (batch : Batch) : Prop where
  distinct : batch.sup.Distinct
  apart : batch.sup.Apart
  traced : ∀ run ∈ batch.sup.runs, batch.Traced run
  named : ∀ event ∈ batch.sup.observed, ∀ run ∈ batch.sup.runs,
    event.cpu ∈ run.lane.mceCpus → run.Failed

/-- A stage that fails lanes, and notes which, and leaves alone how the processes ended. -/
structure Quiet (batch next : Batch) : Prop where
  lanes : ∃ change : LaneRun → LaneRun, next.sup.runs = batch.sup.runs.map change ∧
    ∀ run ∈ batch.sup.runs, (change run).lane = run.lane ∧
      (change run).launched = run.launched ∧
      ((change run).verdict = run.verdict ∨
        (change run).Failed ∧ (run.Failed ∨ run.lane.coreId ∈ next.charged))
  ends : ∀ core, Process.SameEnd (batch.processes core) (next.processes core)
  charged : batch.charged ⊆ next.charged
  reported : next.reported = batch.reported
  duration : next.duration = batch.duration
  clock : batch.clock ≤ next.clock
  interrupted : next.interrupted = batch.interrupted

/-- What any stage after the launches may do to the lanes and their processes. -/
structure Onward (batch next : Batch) : Prop where
  lanes : ∃ change : LaneRun → LaneRun, next.sup.runs = batch.sup.runs.map change ∧
    ∀ run ∈ batch.sup.runs, (change run).lane = run.lane ∧
      (change run).launched = run.launched ∧
      ((change run).unfailed = true → run.unfailed = true) ∧
      ((change run).verdict = none → run.verdict = none)
  ends : ∀ core, Process.Later batch.duration batch.clock (batch.processes core)
    (next.processes core)
  duration : next.duration = batch.duration
  clock : batch.clock ≤ next.clock
  interrupted : next.interrupted = batch.interrupted

/-! ### Quiet stages -/

theorem failed_congr {run other : LaneRun} (hverdict : other.verdict = run.verdict) :
    other.Failed ↔ run.Failed := by
  unfold LaneRun.Failed LaneRun.unfailed
  rw [hverdict]

theorem Quiet.refl (batch : Batch) : Quiet batch batch :=
  ⟨⟨id, (List.map_id _).symm, fun _ _ => ⟨rfl, rfl, .inl rfl⟩⟩, fun _ => .refl _,
    fun _ hcore => hcore, rfl, rfl, le_rfl, rfl⟩

theorem Quiet.trans (hfirst : Quiet batch next) (hsecond : Quiet next last) :
    Quiet batch last := by
  obtain ⟨first, hruns, hchange⟩ := hfirst.lanes
  obtain ⟨second, hruns', hchange'⟩ := hsecond.lanes
  refine ⟨⟨second ∘ first, by rw [hruns', hruns, List.map_map], fun run hrun => ?_⟩,
    fun core => (hfirst.ends core).trans (hsecond.ends core),
    fun _ hcore => hsecond.charged (hfirst.charged hcore),
    hsecond.reported.trans hfirst.reported, hsecond.duration.trans hfirst.duration,
    hfirst.clock.trans hsecond.clock, hsecond.interrupted.trans hfirst.interrupted⟩
  have hnext : first run ∈ next.sup.runs := hruns ▸ List.mem_map_of_mem hrun
  obtain ⟨hlane, hlaunched, hverdict⟩ := hchange run hrun
  obtain ⟨hlane', hlaunched', hverdict'⟩ := hchange' _ hnext
  refine ⟨hlane'.trans hlane, hlaunched'.trans hlaunched, ?_⟩
  rw [hlane] at hverdict'
  -- a failure of the second stage is noted by it, or was one of the first
  rcases hverdict' with hsame' | ⟨hfailed', hbefore'⟩
  · rcases hverdict with hsame | ⟨hfailed, hbefore⟩
    · exact .inl (hsame'.trans hsame)
    · exact .inr ⟨(failed_congr hsame').mpr hfailed,
        hbefore.imp_right fun hcore => hsecond.charged hcore⟩
  · refine .inr ⟨hfailed', ?_⟩
    rcases hbefore' with hfirstFailed | hcore
    · rcases hverdict with hsame | ⟨-, hbefore⟩
      · exact .inl ((failed_congr hsame).mp hfirstFailed)
      · exact hbefore.imp_right fun hcore => hsecond.charged hcore
    · exact .inr hcore

/-- The same lanes and processes, whatever else is noted. -/
theorem quiet_of_eq (hruns : next.sup.runs = batch.sup.runs)
    (hprocesses : next.processes = batch.processes) (hcharged : next.charged = batch.charged)
    (hreported : next.reported = batch.reported) (hduration : next.duration = batch.duration)
    (hclock : batch.clock ≤ next.clock) (hinterrupted : next.interrupted = batch.interrupted) :
    Quiet batch next := by
  refine ⟨?_, fun core => ?_, ?_, hreported, hduration, hclock, hinterrupted⟩
  · rw [hruns, hcharged]
    exact (Quiet.refl batch).lanes
  · rw [hprocesses]
    exact .refl _
  · rw [hcharged]
    exact fun _ hcore => hcore

/-- The stage is noted. -/
theorem quiet_stage (batch : Batch) (phase : Phase) : Quiet batch { batch with phase } :=
  quiet_of_eq rfl rfl rfl rfl rfl le_rfl rfl

/-- A poll fails lanes, and notes which. -/
theorem quiet_charge {sup : Supervisor} {observed : List MCEEvent}
    (hcharges : Charges may { batch.sup with observed } sup) : Quiet batch (batch.charge sup) := by
  obtain ⟨change, hruns, hchange⟩ := hcharges.change
  refine ⟨⟨change, hruns, fun run hrun => ?_⟩, fun _ => .refl _,
    fun core hcore => List.mem_append_left _ hcore, rfl, rfl, le_rfl, rfl⟩
  have hrecast := hchange run hrun
  obtain ⟨hlane, hlaunched, -⟩ := hrecast.lane
  refine ⟨hlane, hlaunched, ?_⟩
  rcases hrecast.failed with heq | hfailed
  · exact .inl (by rw [heq])
  · refine .inr ⟨hfailed, ?_⟩
    by_cases hbefore : run.Failed
    · exact .inl hbefore
    · right
      apply List.mem_append_right
      apply List.mem_map.mpr
      refine ⟨change run, List.mem_filter.mpr ⟨hruns ▸ List.mem_map_of_mem hrun, ?_⟩,
        congrArg Lane.coreId hlane⟩
      have hunfailed : run.unfailed = true := by
        rw [← Bool.not_eq_false]
        exact hbefore
      rw [hlane, show (change run).unfailed = false from hfailed, Bool.not_false, Bool.true_and]
      exact List.any_eq_true.mpr ⟨run, hrun, by rw [hunfailed, decide_eq_true rfl]; rfl⟩

theorem quiet_fail (batch : Batch) (core : Nat) (message : String) :
    Quiet batch (batch.fail core message) := by
  have hcharges : Charges (fun _ => True) { batch.sup with observed := batch.sup.observed }
      (batch.sup.fail core message (some .startup)) :=
    charges_fail fun _ _ _ => trivial
  exact quiet_charge hcharges

theorem quiet_onProcess (batch : Batch) (core : Nat) {change : Process → Process}
    (hsame : ∀ process, Process.SameEnd process (change process)) :
    Quiet batch (batch.onProcess core change) := by
  refine ⟨(Quiet.refl batch).lanes, fun other => ?_, fun _ hcore => hcore, rfl, rfl, le_rfl, rfl⟩
  by_cases hcore : other = core
  · simp only [onProcess, if_pos hcore]
    exact hsame _
  · simp only [onProcess, if_neg hcore]
    exact .refl _

/-- A mark on a lane. -/
theorem quiet_exited (batch : Batch) (core : Nat) (exited : LaneRun → Bool) :
    Quiet batch { batch with
      sup := batch.sup.onLane core fun run => { run with exited := exited run } } := by
  refine ⟨⟨_, rfl, fun run _ => ?_⟩, fun _ => .refl _, fun _ hcore => hcore, rfl, rfl, le_rfl, rfl⟩
  by_cases hcore : run.lane.coreId = core
  · rw [if_pos hcore]
    exact ⟨rfl, rfl, .inl rfl⟩
  · rw [if_neg hcore]
    exact ⟨rfl, rfl, .inl rfl⟩

theorem quiet_stopDutyDriver (batch : Batch) (core : Nat) (fault : Option String) :
    Quiet batch (batch.stopDutyDriver core fault) := by
  unfold stopDutyDriver
  split
  · have hstopped : Quiet batch
        (batch.onProcess core fun process => { process with dutyDriver := false }) :=
      quiet_onProcess batch core fun _ => ⟨rfl, rfl, rfl, rfl⟩
    cases fault with
    | none => exact hstopped
    | some exc => exact hstopped.trans (quiet_fail _ core _)
  · exact .refl batch

theorem quiet_drain (batch : Batch) (core : Nat) (capture : Capture) :
    Quiet batch (batch.drain core capture) := by
  cases capture with
  | read stdout stderr =>
      rw [drain]
      exact quiet_onProcess batch core fun _ => ⟨rfl, rfl, rfl, rfl⟩
  | failed exc =>
      rw [drain]
      split
      · exact quiet_fail batch core _
      · exact .refl batch

theorem Quiet.failed (hquiet : Quiet batch next) {run : LaneRun} (hrun : run ∈ next.sup.runs) :
    ∃ before ∈ batch.sup.runs, run.lane = before.lane ∧ run.launched = before.launched ∧
      (before.Failed → run.Failed) ∧ (run.verdict = before.verdict ∨
        run.Failed ∧ (before.Failed ∨ before.lane.coreId ∈ next.charged)) := by
  obtain ⟨change, hruns, hchange⟩ := hquiet.lanes
  rw [hruns] at hrun
  obtain ⟨before, hbefore, rfl⟩ := List.mem_map.mp hrun
  obtain ⟨hlane, hlaunched, hverdict⟩ := hchange before hbefore
  refine ⟨before, hbefore, hlane, hlaunched, fun hfailed => ?_, hverdict⟩
  rcases hverdict with hsame | ⟨hnext, -⟩
  · exact (failed_congr hsame).mpr hfailed
  · exact hnext

theorem Quiet.distinct (hquiet : Quiet batch next) (hdistinct : batch.sup.Distinct) :
    next.sup.Distinct := by
  obtain ⟨change, hruns, hchange⟩ := hquiet.lanes
  unfold Distinct
  rw [hruns, List.map_map]
  rwa [List.map_congr_left (g := fun run => run.lane.coreId) fun run hrun => ?_]
  rw [Function.comp_apply, (hchange run hrun).1]

theorem Quiet.apart (hquiet : Quiet batch next) (hapart : batch.sup.Apart) :
    next.sup.Apart := by
  apply hapart.of_lanes
  intro run hrun
  obtain ⟨before, hbefore, hlane, -⟩ := hquiet.failed hrun
  exact ⟨before, hbefore, hlane⟩

/-- What stood behind a verdict stands behind it still. -/
theorem Traced.quiet {run other : LaneRun} (htraced : batch.Traced run)
    (hquiet : Quiet batch next) (hlane : other.lane = run.lane)
    (hlaunched : other.launched = run.launched)
    (hverdict : other.verdict = run.verdict ∨
      other.Failed ∧ (run.Failed ∨ run.lane.coreId ∈ next.charged)) : next.Traced other := by
  have hcore := congrArg Lane.coreId hlane
  have hends := hquiet.ends run.lane.coreId
  have hunfailed : other.unfailed = true → other.verdict = run.verdict := by
    intro hunfailed
    refine hverdict.resolve_right fun hfailed => ?_
    rw [show other.unfailed = false from hfailed.1] at hunfailed
    cases hunfailed
  have hsame : other.unfailed = true → run.unfailed = true := by
    intro hother
    have heq := hunfailed hother
    unfold LaneRun.unfailed at hother ⊢
    rwa [heq] at hother
  constructor
  · intro hpassed
    have hother : other.unfailed = true := by
      obtain ⟨verdict, hsome, hpass⟩ := (Option.any_eq_true _ _).mp hpassed
      rw [LaneRun.unfailed, hsome]
      exact hpass
    rw [hunfailed hother] at hpassed
    rw [hcore, hends.over, hends.endedBySupervisor, hends.stoppedAt, hquiet.duration, hlaunched]
    exact htraced.earned hpassed
  · intro hfailed
    rw [hcore, hends.over, hends.endedBySupervisor, hquiet.reported]
    by_cases hbefore : run.Failed
    · exact (htraced.blamed hbefore).imp_left fun hmem => hquiet.charged hmem
    · rcases hverdict with heq | ⟨-, hrun | hcharged⟩
      · exact absurd ((failed_congr heq).mp hfailed) hbefore
      · exact absurd hrun hbefore
      · exact .inl hcharged
  · intro hreported
    rw [hcore, hquiet.reported] at hreported
    have hfailed := htraced.reported hreported
    rcases hverdict with heq | ⟨hnext, -⟩
    · exact (failed_congr heq).mpr hfailed
    · exact hnext
  · intro hother
    rw [hcore]
    exact hends.signed (htraced.signed (hsame hother))

theorem Quiet.unfailed (hquiet : Quiet batch next) {run : LaneRun} (hrun : run ∈ next.sup.runs)
    (hunfailed : run.unfailed = true) : ∃ before ∈ batch.sup.runs, run.lane = before.lane ∧
      run.launched = before.launched ∧ before.unfailed = true := by
  obtain ⟨before, hbefore, hlane, hlaunched, hfails, -⟩ := hquiet.failed hrun
  refine ⟨before, hbefore, hlane, hlaunched, ?_⟩
  rw [← Bool.not_eq_false]
  intro hfailed
  rw [show run.unfailed = false from hfails hfailed] at hunfailed
  cases hunfailed

theorem Gone.quiet (hgone : batch.Gone core) (hquiet : Quiet batch next) : next.Gone core := by
  intro run hrun hcore hunfailed htermination
  obtain ⟨before, hbefore, hlane, -, hbeforeUnfailed⟩ := hquiet.unfailed hrun hunfailed
  have hends := hquiet.ends core
  rw [hends.termination] at htermination
  rw [hends.over]
  exact hgone before hbefore (hlane ▸ hcore) hbeforeUnfailed htermination

/-- A quiet stage keeps the ledger, if what was read of the kernel log is accounted for. -/
theorem Ledger.quiet_read (hledger : batch.Ledger) (hquiet : Quiet batch next)
    (hnamed : ∀ event ∈ next.sup.observed, ∀ run ∈ next.sup.runs,
      event.cpu ∈ run.lane.mceCpus → run.Failed) : next.Ledger := by
  refine ⟨hquiet.distinct hledger.distinct, hquiet.apart hledger.apart, fun run hrun => ?_, hnamed⟩
  obtain ⟨before, hbefore, hlane, hlaunched, -, hverdict⟩ := hquiet.failed hrun
  exact (hledger.traced before hbefore).quiet hquiet hlane hlaunched hverdict

theorem Ledger.quiet (hledger : batch.Ledger) (hquiet : Quiet batch next)
    (hobserved : next.sup.observed = batch.sup.observed) : next.Ledger := by
  apply hledger.quiet_read hquiet
  intro event hevent run hrun hcpu
  obtain ⟨before, hbefore, hlane, -, hfails, -⟩ := hquiet.failed hrun
  rw [hobserved] at hevent
  exact hfails (hledger.named event hevent before hbefore (hlane ▸ hcpu))

theorem Quiet.onward (hquiet : Quiet batch next) : Onward batch next := by
  obtain ⟨change, hruns, hchange⟩ := hquiet.lanes
  refine ⟨⟨change, hruns, fun run hrun => ?_⟩, fun core => (hquiet.ends core).later,
    hquiet.duration, hquiet.clock, hquiet.interrupted⟩
  obtain ⟨hlane, hlaunched, hverdict⟩ := hchange run hrun
  refine ⟨hlane, hlaunched, fun hunfailed => ?_, fun hnone => ?_⟩
  · rcases hverdict with heq | ⟨hfailed, -⟩
    · unfold LaneRun.unfailed at hunfailed ⊢
      rwa [heq] at hunfailed
    · rw [show (change run).unfailed = false from hfailed] at hunfailed
      cases hunfailed
  · rcases hverdict with heq | ⟨hfailed, -⟩
    · exact heq ▸ hnone
    · unfold LaneRun.Failed LaneRun.unfailed at hfailed
      rw [hnone] at hfailed
      cases hfailed

theorem Onward.trans (hfirst : Onward batch next) (hsecond : Onward next last) :
    Onward batch last := by
  obtain ⟨first, hruns, hchange⟩ := hfirst.lanes
  obtain ⟨second, hruns', hchange'⟩ := hsecond.lanes
  refine ⟨⟨second ∘ first, by rw [hruns', hruns, List.map_map], fun run hrun => ?_⟩,
    fun core => ?_, hsecond.duration.trans hfirst.duration,
    hfirst.clock.trans hsecond.clock, hsecond.interrupted.trans hfirst.interrupted⟩
  · have hnext : first run ∈ next.sup.runs := hruns ▸ List.mem_map_of_mem hrun
    obtain ⟨hlane, hlaunched, hunfailed, hnone⟩ := hchange run hrun
    obtain ⟨hlane', hlaunched', hunfailed', hnone'⟩ := hchange' _ hnext
    exact ⟨hlane'.trans hlane, hlaunched'.trans hlaunched, fun h => hunfailed (hunfailed' h),
      fun h => hnone (hnone' h)⟩
  · have hlater := hsecond.ends core
    rw [hfirst.duration] at hlater
    -- the second stage is no earlier than the first
    have hearlier : Process.Later batch.duration batch.clock (next.processes core)
        (last.processes core) :=
      ⟨hlater.ended, hlater.code, fun htimely hlate => hlater.timely htimely
        (hlate.imp_right fun hclock => hclock.trans hfirst.clock)⟩
    exact (hfirst.ends core).trans hearlier

/-! ### Teardowns -/

/-- A leader that was over before the teardown did not end on a signal that the teardown sends
to what is left of its group. -/
def LeaderFirst (batch : Batch) (core : Nat) (teardown : Teardown) : Prop :=
  let process := batch.processes core
  let probe := teardown.probe
  probe.exited = true ∨ process.returnCode.isSome = true →
    ∀ code ∈ process.returnCode <|> teardown.returnCode,
      (probe.gone = false → probe.termDelivered = true → code ≠ -15 ∧ code ≠ 143) ∧
        (probe.goneAfterTerm = false → probe.killDelivered = true → code ≠ -9 ∧ code ≠ 137)

/-- A teardown that sends signals to a lane without a verdict meets a leader that did not end on
one of them by itself. -/
def EndsFairly (batch : Batch) (core : Nat) (teardown : Teardown) : Prop :=
  ∀ run ∈ batch.sup.runs, run.lane.coreId = core → run.launched = true → run.verdict = none →
    (batch.processes core).torn = false → teardown.fault = none →
      batch.LeaderFirst core teardown

/-- A teardown that stopped the leader sent SIGTERM while it was running. -/
theorem stoppedRunning_killProcessGroup {probe : GroupProbe}
    (hstopped : (killProcessGroup probe).stoppedRunning = true) :
    (!probe.exited) = true ∧ sigterm ∈ (killProcessGroup probe).sentSignals := by
  have hboth : (!probe.exited && decide (sigterm ∈ (killProcessGroup probe).sentSignals)) = true :=
    hstopped
  rwa [Bool.and_eq_true, decide_eq_true_eq] at hboth

/-- What a teardown notes is what it did. -/
theorem signed_terminated {teardown : Teardown} (hleader : batch.LeaderFirst core teardown) :
    (batch.terminated teardown (batch.processes core)).Signed := by
  constructor
  · rintro ⟨outcome, htermination, code, hcode, sent, hsent, hmatch⟩
    cases htermination
    rw [← Bool.not_eq_false]
    intro hself
    have hself : (!(teardown.probe.exited || (batch.processes core).returnCode.isSome)) = false :=
      hself
    rw [Bool.not_eq_false', Bool.or_eq_true] at hself
    obtain ⟨hterm, hkill⟩ := hleader hself code hcode
    -- the signal was SIGTERM or SIGKILL
    simp only [killProcessGroup, sigterm, sigkill] at hsent
    have hsent : (teardown.probe.gone = false ∧ teardown.probe.termDelivered = true ∧ sent = 15) ∨
        (teardown.probe.goneAfterTerm = false ∧ teardown.probe.killDelivered = true ∧
          sent = 9) := by
      revert hsent
      cases teardown.probe.gone <;> cases teardown.probe.termDelivered <;>
        cases teardown.probe.goneAfterTerm <;> cases teardown.probe.killDelivered <;> simp
    rcases hsent with ⟨hgone, hdelivered, rfl⟩ | ⟨hgone, hdelivered, rfl⟩
    · have hnot := hterm hgone hdelivered
      omega
    · have hnot := hkill hgone hdelivered
      omega
  · intro outcome htermination hstopped
    cases htermination
    exact stoppedRunning_killProcessGroup hstopped

/-- The process of a lane as a teardown leaves it. -/
theorem later_terminated {teardown : Teardown} (htorn : (batch.processes core).torn = false) :
    Process.Later batch.duration batch.clock (batch.processes core)
      (batch.terminated teardown (batch.processes core)) := by
  constructor
  · intro hover
    rw [hover.1] at htorn
    cases htorn
  · intro hcode
    obtain ⟨code, hcode⟩ := Option.isSome_iff_exists.mp hcode
    show ((batch.processes core).returnCode <|> teardown.returnCode).isSome = true
    rw [hcode]
    rfl
  · rintro htimely (hcode | hlate) hrunning
    · simp [terminated, hcode] at hrunning
    · exact hlate

/-- Stopping a process of which something is left. -/
def stopped (batch : Batch) (core : Nat) (teardown : Teardown) : Batch :=
  batch.onProcess core (batch.terminated teardown)

theorem onward_stopped (teardown : Teardown) (htorn : (batch.processes core).torn = false) :
    Onward batch (batch.stopped core teardown) := by
  refine ⟨(Quiet.refl batch).onward.lanes, fun other => ?_, rfl, le_refl _, rfl⟩
  by_cases hcore : other = core
  · subst hcore
    simp only [stopped, onProcess, if_true]
    exact later_terminated htorn
  · simp only [stopped, onProcess, if_neg hcore]
    exact (Process.SameEnd.refl _).later

/-- A stage that only changes the process of one core, which is not over. -/
theorem Traced.onProcess {run : LaneRun} (htraced : batch.Traced run)
    {change : Process → Process} (hover : ¬ (batch.processes core).Over)
    (hsigned : run.lane.coreId = core → run.unfailed = true →
      (change (batch.processes core)).Signed) :
    (batch.onProcess core change).Traced run := by
  by_cases hcore : run.lane.coreId = core
  · have hprocess : (batch.onProcess core change).processes run.lane.coreId =
        change (batch.processes core) := by
      rw [hcore]
      simp only [Batch.onProcess, if_true]
    rw [← hcore] at hover
    constructor
    · exact fun hpassed => absurd (htraced.earned hpassed).2.1 hover
    · intro hfailed
      rcases htraced.blamed hfailed with hcharged | hreported | ⟨hover', -⟩
      · exact .inl hcharged
      · exact .inr (.inl hreported)
      · exact absurd hover' hover
    · exact htraced.reported
    · intro hunfailed
      rw [hprocess]
      exact hsigned hcore hunfailed
  · have hprocess : (batch.onProcess core change).processes run.lane.coreId =
        batch.processes run.lane.coreId := by
      simp only [Batch.onProcess, if_neg hcore]
    exact ⟨by rw [hprocess]; exact htraced.earned, by rw [hprocess]; exact htraced.blamed,
      htraced.reported, by rw [hprocess]; exact htraced.signed⟩

/-- A lane that has not failed and was torn down is over. -/
def Ended (batch : Batch) (core : Nat) : Prop :=
  ∀ run ∈ batch.sup.runs, run.lane.coreId = core → run.launched = true → run.unfailed = true →
    (batch.processes core).Over

theorem LeaderFirst.congr {teardown : Teardown} (hleader : batch.LeaderFirst core teardown)
    (hcode : (next.processes core).returnCode = (batch.processes core).returnCode) :
    next.LeaderFirst core teardown := by
  unfold LeaderFirst at hleader ⊢
  dsimp only at hleader ⊢
  rw [hcode]
  exact hleader

/-- The lanes without a verdict are no others than before. -/
theorem EndsFairly.quiet {teardown : Teardown} (hfair : batch.EndsFairly core teardown)
    (hquiet : Quiet batch next) : next.EndsFairly core teardown := by
  intro run hrun hcore hlaunched hnone htorn hfault
  obtain ⟨before, hbefore, hlane, hlaunched', -, hverdict⟩ := hquiet.failed hrun
  have hends := hquiet.ends core
  have hnone' : before.verdict = none := by
    rcases hverdict with heq | ⟨hfailed, -⟩
    · exact heq ▸ hnone
    · obtain ⟨verdict, hsome, -⟩ := LaneRun.failed_iff.mp hfailed
      rw [hnone] at hsome
      cases hsome
  have htorn' : (batch.processes core).torn = false := by
    unfold Process.torn at htorn ⊢
    rwa [hends.termination] at htorn
  exact (hfair before hbefore (hlane ▸ hcore) (hlaunched' ▸ hlaunched) hnone' htorn'
    hfault).congr hends.returnCode

/-- A lane that has not failed has no verdict as long as something is left of its process. -/
theorem Traced.undecided {run : LaneRun} (htraced : batch.Traced run)
    (htorn : (batch.processes run.lane.coreId).torn = false) (hunfailed : run.unfailed = true) :
    run.verdict = none := by
  cases hverdict : run.verdict with
  | none => rfl
  | some verdict =>
      have hpassed : run.verdict.any (·.passed) = true := by
        rw [LaneRun.unfailed, hverdict] at hunfailed
        rw [hverdict]
        exact hunfailed
      rw [(htraced.earned hpassed).2.1.1] at htorn
      cases htorn

/-- What a teardown does to the ledger: the lane it was for is over or has failed. -/
structure Tears (core : Nat) (batch next : Batch) : Prop where
  ledger : next.Ledger
  gone : ∀ other, next.Gone other
  onward : Onward batch next
  ended : next.Ended core

theorem failed_fail {sup : Supervisor} {message : String} {errorType : Option ErrorType}
    {run : LaneRun} (hrun : run ∈ (sup.fail core message errorType).runs)
    (hcore : run.lane.coreId = core) : run.Failed := by
  obtain ⟨before, -, rfl⟩ := List.mem_map.mp hrun
  by_cases hsame : before.lane.coreId = core
  · rw [if_pos hsame]
    rfl
  · rw [if_neg hsame] at hcore
    exact absurd hcore hsame

/-- A teardown that ends with a failure of the lane. -/
theorem tears_fail (hledger : batch.Ledger) (hgone : ∀ other, other ≠ core → batch.Gone other)
    (message : String) : Tears core batch (batch.fail core message) := by
  have hquiet := quiet_fail batch core message
  have hnot {run : LaneRun} (hrun : run ∈ (batch.fail core message).sup.runs)
      (hcore : run.lane.coreId = core) : ¬ run.unfailed = true := by
    rw [show run.unfailed = false from failed_fail hrun hcore]
    exact Bool.false_ne_true
  refine ⟨hledger.quiet hquiet rfl, fun other => ?_, hquiet.onward,
    fun run hrun hcore _ hunfailed => absurd hunfailed (hnot hrun hcore)⟩
  by_cases hsame : other = core
  · exact fun run hrun hcore hunfailed => absurd hunfailed (hnot hrun (hcore.trans hsame))
  · exact (hgone other hsame).quiet hquiet

/-- The process of one core is stopped. -/
theorem ledger_stopped (hledger : batch.Ledger) {teardown : Teardown}
    (hlaunched : batch.launched core = true) (htorn : (batch.processes core).torn = false)
    (hfair : batch.EndsFairly core teardown) (hfault : teardown.fault = none) :
    (batch.stopped core teardown).Ledger := by
  refine ⟨hledger.distinct, hledger.apart, fun run hrun => ?_, hledger.named⟩
  have htraced := hledger.traced run hrun
  apply htraced.onProcess
  · intro hover
    rw [hover.1] at htorn
    cases htorn
  · intro hcore hunfailed
    have hstarted : run.launched = true := has_spec hledger.distinct hlaunched hrun hcore
    have hnone := htraced.undecided (hcore ▸ htorn) hunfailed
    exact signed_terminated (hfair run hrun hcore hstarted hnone htorn hfault)

theorem gone_stopped (teardown : Teardown) {other : Nat} (hgone : batch.Gone other)
    (hcore : other ≠ core) : (batch.stopped core teardown).Gone other := by
  unfold Gone
  simp only [stopped, onProcess, if_neg hcore]
  exact hgone

theorem tears_terminateRun (hledger : batch.Ledger) (hgone : ∀ other, batch.Gone other)
    {teardown : Teardown} (hfair : batch.EndsFairly core teardown) :
    Tears core batch (batch.terminateRun core teardown) := by
  have hduty := quiet_stopDutyDriver batch core teardown.dutyFault
  have hledger' := hledger.quiet hduty (observed_stopDutyDriver batch core teardown.dutyFault)
  have hgone' (other : Nat) := (hgone other).quiet hduty
  have hfair' := hfair.quiet hduty
  -- whatever the teardown does comes after the driver was stopped
  suffices htears : ∀ next, Tears core (batch.stopDutyDriver core teardown.dutyFault) next →
      Tears core batch next by
    apply htears
    unfold terminateRun
    generalize batch.stopDutyDriver core teardown.dutyFault = stopped at hledger' hgone' hfair'
    by_cases hskip : (!stopped.launched core || (stopped.processes core).torn) = true
    · simp only [hskip, if_true]
      refine ⟨hledger', hgone', (Quiet.refl stopped).onward, ?_⟩
      intro run hrun hcore hlaunched hunfailed
      have hstarted : stopped.launched core = true :=
        launched_iff.mpr ⟨run, hrun, hcore, hlaunched⟩
      rw [hstarted, Bool.not_true, Bool.false_or] at hskip
      obtain ⟨outcome, houtcome, -⟩ := (Option.any_eq_true _ _).mp hskip
      exact hgone' core run hrun hcore hunfailed (by rw [houtcome]; rfl)
    · simp only [hskip]
      simp only [Bool.or_eq_true, Bool.not_eq_true', not_or, Bool.not_eq_false,
        Bool.not_eq_true] at hskip
      obtain ⟨hlaunched, htorn⟩ := hskip
      cases hfault : teardown.fault with
      | some exc => exact tears_fail hledger' (fun other _ => hgone' other) _
      | none =>
          have hstop := onward_stopped teardown htorn
          have hmark := quiet_exited (stopped.stopped core teardown) core fun run =>
            run.exited || ((stopped.stopped core teardown).processes core).returnCode.isSome
          have hledgerStopped := (ledger_stopped hledger' hlaunched htorn hfair' hfault).quiet
            hmark rfl
          have hgoneStopped (other : Nat) (hcore : other ≠ core) :=
            (gone_stopped teardown (hgone' other) hcore).quiet hmark
          have honward := hstop.trans hmark.onward
          by_cases hover : (((stopped.stopped core teardown).processes core).torn &&
              ((stopped.stopped core teardown).processes core).returnCode.isSome) = true
          · have hended : ((stopped.stopped core teardown).processes core).Over :=
              Bool.and_eq_true_iff.mp hover
            unfold Batch.stopped at hover hledgerStopped hgoneStopped honward hended
            simp only [hover, if_true]
            refine ⟨hledgerStopped, fun other => ?_, honward, fun _ _ _ _ _ => hended⟩
            by_cases hsame : other = core
            · subst hsame
              exact fun _ _ _ _ _ => hended
            · exact hgoneStopped other hsame
          · have hfailed := tears_fail hledgerStopped hgoneStopped
              (stoppedMessage "stress process group or containment scope remains alive")
            unfold Batch.stopped at hover hfailed honward
            simp only [hover]
            exact ⟨hfailed.ledger, hfailed.gone, honward.trans hfailed.onward, hfailed.ended⟩
  intro next htears
  exact ⟨htears.ledger, htears.gone, hduty.onward.trans htears.onward, htears.ended⟩

/-! ### Exits -/

/-- The return code of a leader that is found over. -/
def exitedWith (batch : Batch) (core : Nat) (returnCode : Int) : Batch :=
  batch.onProcess core fun process => { process with returnCode := some returnCode }

variable {returnCode : Int} {exit : Option Int}

/-- A lane that has not failed was not torn down before its leader was found over, or nothing
is left of it. -/
theorem ledger_exitedWith (hledger : batch.Ledger) (hgone : ∀ other, batch.Gone other)
    (hcode : ((batch.processes core).returnCode <|> exit) = some returnCode) :
    (batch.exitedWith core returnCode).Ledger ∧
      ∀ other, (batch.exitedWith core returnCode).Gone other := by
  cases hknown : (batch.processes core).returnCode with
  | some code =>
      -- the code was known already
      rw [hknown] at hcode
      obtain rfl : code = returnCode := Option.some.inj hcode
      have hquiet : Quiet batch (batch.exitedWith core code) := by
        refine ⟨(Quiet.refl batch).lanes, fun other => ?_, fun _ hmem => hmem, rfl, rfl, le_rfl, rfl⟩
        by_cases hcore : other = core
        · subst hcore
          simp only [exitedWith, onProcess, if_true]
          exact ⟨hknown.symm, rfl, rfl, rfl⟩
        · simp only [exitedWith, onProcess, if_neg hcore]
          exact .refl _
      exact ⟨hledger.quiet hquiet rfl, fun other => (hgone other).quiet hquiet⟩
  | none =>
      have hnotOver : ¬ (batch.processes core).Over := by
        intro hover
        have hsome := hover.2
        rw [hknown] at hsome
        cases hsome
      have huntorn {run : LaneRun} (hrun : run ∈ batch.sup.runs) (hcore : run.lane.coreId = core)
          (hunfailed : run.unfailed = true) : (batch.processes core).termination = none := by
        rw [← Option.not_isSome_iff_eq_none]
        exact fun htermination => hnotOver (hgone core run hrun hcore hunfailed htermination)
      refine ⟨⟨hledger.distinct, hledger.apart, fun run hrun => ?_, hledger.named⟩, ?_⟩
      · apply (hledger.traced run hrun).onProcess hnotOver
        intro hcore hunfailed
        have hnone := huntorn hrun hcore hunfailed
        constructor
        · rintro ⟨outcome, htermination, -⟩
          rw [hnone] at htermination
          cases htermination
        · intro outcome htermination
          rw [hnone] at htermination
          cases htermination
      · intro other
        by_cases hcore : other = core
        · subst hcore
          intro run hrun hsame hunfailed htermination
          simp only [exitedWith, onProcess, if_true] at htermination
          rw [huntorn hrun hsame hunfailed] at htermination
          cases htermination
        · unfold Gone
          simp only [exitedWith, onProcess, if_neg hcore]
          exact hgone other

/-! ### Classing -/

/-- The lane of the core may be classed: it has not failed, nothing is left of its process, and
without an interruption it was not stopped before the deadline. -/
def Classable (batch : Batch) (core : Nat) (interrupted : Bool) : Prop :=
  ∀ run ∈ batch.sup.runs, run.lane.coreId = core →
    run.launched = true ∧ run.unfailed = true ∧ (batch.processes core).Over ∧
      (interrupted = false → (batch.processes core).Timely batch.duration) ∧
      (interrupted = true → run.verdict = none)

variable {classes : CharClasses} {results : ResultsFile} {elapsed : ℚ} {interrupted : Bool}

theorem killedExternally_iff (batch : Batch) (core : Nat) (results : ResultsFile) (elapsed : ℚ) :
    (batch.completion classes core results elapsed).killedExternally = true ↔
      (batch.processes core).effectiveReturnCode ∈ killedByUsCodes ∧
        ¬ (batch.processes core).terminationMatchesReturncode
          (batch.processes core).effectiveReturnCode = true := by
  simp only [completion, Bool.and_eq_true, decide_eq_true_eq, Bool.not_eq_true',
    Bool.not_eq_true]

/-- A process that left within the startup window has no readable result. -/
theorem output_of_tooEarly
    (hearly : (batch.completion classes core results elapsed).tooEarly = true) :
    (batch.completion classes core results elapsed).output.1 = false := by
  simp only [completion, decide_eq_true_eq] at hearly ⊢
  by_contra hpassed
  exact hearly.1 (killedByUs_of_parseOutput (Bool.not_eq_false _ ▸ hpassed))

theorem Traced.classify {run : LaneRun} (htraced : batch.Traced run)
    (hclassable : run.launched = true ∧ run.unfailed = true ∧
      (batch.processes run.lane.coreId).Over ∧
      (interrupted = false → (batch.processes run.lane.coreId).Timely batch.duration)) :
    (batch.classify classes run.lane.coreId results elapsed interrupted).Traced
      { run with
        verdict := Supervisor.classifyCompleted run.lane.coreId
          (batch.completion classes run.lane.coreId results elapsed) interrupted } := by
  obtain ⟨hlaunched, hunfailed, hover, htimely⟩ := hclassable
  have hsigned := htraced.signed hunfailed
  have hends : Process.SameEnd (batch.processes run.lane.coreId)
      ((batch.classify classes run.lane.coreId results elapsed interrupted).processes
        run.lane.coreId) := by
    simp only [Batch.classify, Batch.onProcess, if_true]
    exact ⟨rfl, rfl, rfl, rfl⟩
  have hreports (herror : (batch.completion classes run.lane.coreId results elapsed).liveError.isSome
      = true ∨ (batch.completion classes run.lane.coreId results elapsed).output.1 = false) :
      run.lane.coreId ∈
        (batch.classify classes run.lane.coreId results elapsed interrupted).reported := by
    have hfound : ((batch.completion classes run.lane.coreId results elapsed).liveError.isSome ||
        !(batch.completion classes run.lane.coreId results elapsed).output.1) = true := by
      rwa [Bool.or_eq_true, Bool.not_eq_true']
    simp only [Batch.classify, hfound, if_true]
    exact List.mem_cons_self
  constructor
  · -- a pass has a matching return code, and no interruption
    intro hpassed
    obtain ⟨verdict, hclassed, hpass⟩ := (Option.any_eq_true _ _).mp hpassed
    obtain ⟨-, hown, houtput, hthrough⟩ := classifyCompleted_passed hclassed hpass
    have hmatches : (batch.processes run.lane.coreId).terminationMatchesReturncode
        (batch.processes run.lane.coreId).effectiveReturnCode = true := by
      by_contra hexternal
      rw [(killedExternally_iff batch run.lane.coreId results elapsed).mpr
        ⟨killedByUs_of_parseOutput houtput, hexternal⟩] at hown
      cases hown
    have hended := (Process.endedBySupervisor_iff hover hsigned).mp hmatches
    rw [hends.over, hends.endedBySupervisor, hends.stoppedAt]
    exact ⟨hlaunched, hover, hended, htimely hthrough hended.1⟩
  · intro hfailed
    obtain ⟨verdict, hclassed, hfail⟩ := LaneRun.failed_iff.mp hfailed
    rcases classifyCompleted_failed hclassed hfail with hlive | hexternal | houtput | hearly
    · exact .inr (.inl (hreports (.inl hlive)))
    · right
      right
      rw [hends.over, hends.endedBySupervisor, ← Process.endedBySupervisor_iff hover hsigned]
      exact ⟨hover, ((killedExternally_iff batch run.lane.coreId results elapsed).mp hexternal).2⟩
    · exact .inr (.inl (hreports (.inr houtput)))
    · exact .inr (.inl (hreports (.inr (output_of_tooEarly hearly))))
  · intro hreported
    by_cases herror : ((batch.completion classes run.lane.coreId results elapsed).liveError.isSome ||
        !(batch.completion classes run.lane.coreId results elapsed).output.1) = true
    · exact LaneRun.failed_iff.mpr (classifyCompleted_reported herror)
    · simp only [Batch.classify, herror] at hreported
      have hfailed : run.unfailed = false := htraced.reported hreported
      rw [hfailed] at hunfailed
      cases hunfailed
  · exact fun _ => hends.signed hsigned

/-- The lanes after one was classed. -/
theorem of_mem_classify {run : LaneRun}
    (hrun : run ∈ (batch.classify classes core results elapsed interrupted).sup.runs) :
    ∃ before ∈ batch.sup.runs, run.lane = before.lane ∧
      ((before.lane.coreId = core ∧ run = { before with
          verdict := Supervisor.classifyCompleted core
            (batch.completion classes core results elapsed) interrupted }) ∨
        before.lane.coreId ≠ core ∧ run = before) := by
  obtain ⟨before, hbefore, rfl⟩ := List.mem_map.mp hrun
  refine ⟨before, hbefore, ?_⟩
  by_cases hcore : before.lane.coreId = core
  · rw [if_pos hcore]
    exact ⟨rfl, .inl ⟨hcore, rfl⟩⟩
  · rw [if_neg hcore]
    exact ⟨rfl, .inr ⟨hcore, rfl⟩⟩

theorem ends_classify (classes : CharClasses) (batch : Batch) (core : Nat) (results : ResultsFile) (elapsed : ℚ)
    (interrupted : Bool) (other : Nat) : Process.SameEnd (batch.processes other)
      ((batch.classify classes core results elapsed interrupted).processes other) := by
  by_cases hcore : other = core
  · simp only [classify, onProcess, if_pos hcore]
    exact ⟨rfl, rfl, rfl, rfl⟩
  · simp only [classify, onProcess, if_neg hcore]
    exact .refl _

/-- The other lanes. -/
theorem Traced.beside {run : LaneRun} (htraced : batch.Traced run)
    (hcore : run.lane.coreId ≠ core) :
    (batch.classify classes core results elapsed interrupted).Traced run := by
  have hends := ends_classify classes batch core results elapsed interrupted
    run.lane.coreId
  have hreported (hmem : run.lane.coreId ∈
      (batch.classify classes core results elapsed interrupted).reported) :
      run.lane.coreId ∈ batch.reported := by
    simp only [Batch.classify] at hmem
    split at hmem
    · exact (List.mem_cons.mp hmem).resolve_left hcore
    · exact hmem
  have hstill (hmem : run.lane.coreId ∈ batch.reported) : run.lane.coreId ∈
      (batch.classify classes core results elapsed interrupted).reported := by
    simp only [Batch.classify]
    split
    · exact List.mem_cons_of_mem _ hmem
    · exact hmem
  constructor
  · intro hpassed
    rw [hends.over, hends.endedBySupervisor, hends.stoppedAt]
    exact htraced.earned hpassed
  · intro hfailed
    rw [hends.over, hends.endedBySupervisor]
    exact (htraced.blamed hfailed).imp_right fun hblame => hblame.imp_left hstill
  · exact fun hmem => htraced.reported (hreported hmem)
  · exact fun hunfailed => hends.signed (htraced.signed hunfailed)

/-- Classing a lane keeps the ledger. -/
theorem ledger_classify (hledger : batch.Ledger)
    (hclassable : batch.Classable core interrupted) :
    (batch.classify classes core results elapsed interrupted).Ledger := by
  refine ⟨(touches_classify classes batch core results elapsed interrupted).moves.distinct
    hledger.distinct, hledger.apart.of_lanes fun run hrun => ?_, fun run hrun => ?_, ?_⟩
  · obtain ⟨before, hbefore, hlane, -⟩ := of_mem_classify hrun
    exact ⟨before, hbefore, hlane⟩
  · obtain ⟨before, hbefore, -, ⟨rfl, rfl⟩ | ⟨hcore, rfl⟩⟩ := of_mem_classify hrun
    · obtain ⟨hlaunched, hunfailed, hover, htimely, -⟩ := hclassable before hbefore rfl
      exact (hledger.traced before hbefore).classify ⟨hlaunched, hunfailed, hover, htimely⟩
    · exact (hledger.traced run hbefore).beside hcore
  · intro event hevent run hrun hcpu
    obtain ⟨before, hbefore, hlane, ⟨hcore, -⟩ | ⟨-, rfl⟩⟩ := of_mem_classify hrun
    · -- what was named has failed, and is not classed any more
      have hfailed : before.unfailed = false :=
        hledger.named event hevent before hbefore (hlane ▸ hcpu)
      rw [(hclassable before hbefore hcore).2.1] at hfailed
      cases hfailed
    · exact hledger.named event hevent run hbefore hcpu

theorem gone_classify {other : Nat} (hgone : batch.Gone other)
    (hclassable : batch.Classable core interrupted) :
    (batch.classify classes core results elapsed interrupted).Gone other := by
  have hends := ends_classify classes batch core results elapsed interrupted other
  intro run hrun hsame hunfailed htermination
  rw [hends.over]
  rw [hends.termination] at htermination
  obtain ⟨before, hbefore, hlane, ⟨hcore, -⟩ | ⟨-, rfl⟩⟩ := of_mem_classify hrun
  · obtain rfl : other = core := by rw [← hsame, hlane, hcore]
    exact (hclassable before hbefore hcore).2.2.1
  · exact hgone run hbefore hsame hunfailed htermination

theorem onward_classify (hclassable : batch.Classable core interrupted) :
    Onward batch (batch.classify classes core results elapsed interrupted) := by
  refine ⟨⟨_, rfl, fun run hrun => ?_⟩, fun other => (ends_classify classes batch core results
    elapsed interrupted other).later, rfl, le_refl _, rfl⟩
  by_cases hcore : run.lane.coreId = core
  · obtain ⟨-, hunfailed, -, -, hnone⟩ := hclassable run hrun hcore
    rw [if_pos hcore]
    exact ⟨rfl, rfl, fun _ => hunfailed, fun hclassed => hnone (classifyCompleted_none hclassed)⟩
  · rw [if_neg hcore]
    exact ⟨rfl, rfl, id, id⟩

end Batch

end Engine
end CoreCycler
