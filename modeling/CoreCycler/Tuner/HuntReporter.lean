import CoreCycler.Tuner.HuntIsolation
import CoreCycler.Tuner.HuntSeries
import CoreCycler.Tuner.HuntVerdict

/-!
# Who reports the failure of an aggregate load

Rapid transitions and a soak load several cores at once, and their worker reports under the
first of them.  A probe of such a load fails or passes as its mask does, whoever reports it;
but a failure that is reported under a core at stock is taken for inconsistent evidence.
So a hunt over such a load comes to its end exactly when the reporter is in every mask that
fails, which the bisection sees to in two cases only.
-/

namespace CoreCycler
namespace Tuner

open Bisect Engine Library Library.EventLoop Library.GroupTesting
open UnnamedEvidence (foreignMceByCore lacksVerdict)

/-! ## The probes of a hunt -/

namespace Bisect

/-- The probes that `drive` puts to `oracle`. -/
def probesAsked (oracle : List CoreId → Bool) (maxNoReproduce : Nat) :
    Nat → HuntState → List (List CoreId)
  | 0, _ => []
  | fuel + 1, state =>
      match nextLiveSet state with
      | (none, _) => []
      | (some live, probing) =>
          live :: probesAsked oracle maxNoReproduce fuel
            (record probing (oracle live) maxNoReproduce)

variable {oracle : List CoreId → Bool} {maxNoReproduce fuel : Nat} {state final : HuntState}
  {candidates loaded : List CoreId}

/-- When a core is in every probe that fails, the hunt convicts nobody else. -/
theorem found_of_suspects {search : Search CoreId} {target : List CoreId} {member : CoreId}
    (hlimit : 1 ≤ maxNoReproduce) (hrep : Represents state search)
    (hwf : search.WellFormed maxNoReproduce) (htraced : search.Traced halving oracle target)
    (hhalves : ∀ group, oracle group = true →
      oracle (split group).1 = true ∨ oracle (split group).2 = true)
    (hsuspects : search.Suspects halving member)
    (hmember : ∀ live ∈ probesAsked oracle maxNoReproduce fuel state,
      oracle live = true → member ∈ live)
    (hdrive : drive oracle maxNoReproduce fuel state = some final) :
    ∀ core ∈ final.found, core = member := by
  induction fuel generalizing state search with
  | zero => simp [drive] at hdrive
  | succ fuel ih =>
      obtain ⟨hanswer, hnext, hflight⟩ := hrep.nextLiveSet hwf
      have hwfAsk := hwf.ask hlimit
      have htracedAsk := htraced.ask
      cases hquestion : search.ask.question halving with
      | none =>
          have hdone : nextLiveSet state = (none, (nextLiveSet state).2) :=
            Prod.ext (hanswer.trans hquestion) rfl
          rw [drive, hdone] at hdrive
          obtain rfl := Option.some.inj hdrive
          intro core hcore
          rw [hnext.found_eq, mem_sorted] at hcore
          exact hsuspects.ask.found core hcore
      | some live =>
          have hprobe : nextLiveSet state = (some live, (nextLiveSet state).2) :=
            Prod.ext (hanswer.trans hquestion) rfl
          have hlive : (nextLiveSet state).2.inFlight = live := hflight live (by rw [hprobe])
          rw [drive, hprobe] at hdrive
          rw [probesAsked, hprobe] at hmember
          refine ih (hnext.record hwfAsk hquestion hlive (oracle live)) (hwfAsk.answer _)
            (htracedAsk.answer hwfAsk hquestion) ?_ ?_ hdrive
          · refine hsuspects.ask.answer hwfAsk hquestion (hmember live List.mem_cons_self) ?_ ?_
            · intro lone hlone
              obtain rfl : lone = live := by simpa [Search.question, hlone] using hquestion
              exact htracedAsk.lead_passes lone hlone
            · intro group hgroup
              obtain rfl : group = live := by simpa [Search.question, hgroup] using hquestion
              obtain ⟨hleft, hright⟩ := htracedAsk.whole_answer group hgroup
              rw [Bool.eq_false_iff]
              intro hfails
              rcases hhalves group hfails with hhalf | hhalf
              · exact absurd (hhalf.symm.trans hleft) (by simp)
              · exact absurd (hhalf.symm.trans hright) (by simp)
          · exact fun other hother => hmember other (List.mem_cons_of_mem _ hother)

/-- The mask that is asked for is in flight. -/
theorem nextLiveSet_inFlight {live : List CoreId} (hlive : (nextLiveSet state).1 = some live) :
    (nextLiveSet state).2.inFlight = live := by
  revert hlive
  unfold nextLiveSet
  dsimp only
  split
  · exact fun hnone => by cases hnone
  · split
    · exact Option.some.inj
    · split
      · exact Option.some.inj
      · split
        · exact Option.some.inj
        · split
          · exact fun hnone => by cases hnone
          · exact Option.some.inj

/-- A probe fails when one of the culprits is live. -/
def meets (culprits : Finset CoreId) (live : List CoreId) : Bool := live.any (· ∈ culprits)

theorem meets_iff {culprits : Finset CoreId} {live : List CoreId} :
    meets culprits live = true ↔ ∃ core ∈ live, core ∈ culprits := by
  simp [meets]

/-- A set that fails has a half that fails. -/
theorem meets_split {culprits : Finset CoreId} {group : List CoreId}
    (hfails : meets culprits group = true) :
    meets culprits (split group).1 = true ∨ meets culprits (split group).2 = true := by
  obtain ⟨core, hcore, hculprit⟩ := meets_iff.mp hfails
  rw [← halving.append_eq group, halving_split, List.mem_append] at hcore
  rcases hcore with hleft | hright
  · exact .inl (meets_iff.mpr ⟨core, hleft, hculprit⟩)
  · exact .inr (meets_iff.mpr ⟨core, hright, hculprit⟩)

variable {culprits : Finset CoreId} {seconds : ℚ} {vector : List (CoreId × Int)}
  {workload : Option WorkloadEntry} {member : CoreId}

/-- A lead probe that fails is the only one, and the lone core is convicted. -/
theorem drive_of_lead_fails (hlead : leadProbe (sorted candidates) (sorted loaded) ≠ [])
    (hfails : oracle (leadProbe (sorted candidates) (sorted loaded)) = true) :
    probesAsked oracle maxNoReproduce 2
        { opened candidates loaded seconds with vector, workload } =
      [leadProbe (sorted candidates) (sorted loaded)] ∧
    ∃ final,
      drive oracle maxNoReproduce 2 { opened candidates loaded seconds with vector, workload } =
        some final ∧
      final.stage = .culprit ∧ final.found = leadProbe (sorted candidates) (sorted loaded) := by
  have hask : nextLiveSet { opened candidates loaded seconds with vector, workload } =
      (some (leadProbe (sorted candidates) (sorted loaded)), _) :=
    nextLiveSet_of_lead (by simp [opened, hlead]) rfl
  rw [probesAsked, drive, hask]
  simp only [hfails]
  rw [record_of_lead (by simp [opened, hlead]), if_pos rfl, probesAsked, drive,
    nextLiveSet_of_done (.inl rfl)]
  exact ⟨rfl, _, rfl, rfl, rfl⟩

/-- A hunt whose lead probe, if any, passes convicts the culprits. -/
theorem drive_of_lead_passes (hlimit : 1 ≤ maxNoReproduce) (hne : candidates ≠ [])
    (hsub : culprits ⊆ candidates.toFinset) (hsome : culprits.Nonempty)
    (hpasses : leadProbe (sorted candidates) (sorted loaded) ≠ [] →
      meets culprits (leadProbe (sorted candidates) (sorted loaded)) = false) :
    ∃ fuel final,
      drive (meets culprits) maxNoReproduce fuel
        { opened candidates loaded seconds with vector, workload } = some final ∧
      final.stage = .culprit ∧ final.found.toFinset = culprits ∧
      (2 ≤ candidates.length →
        (∀ live ∈ probesAsked (meets culprits) maxNoReproduce fuel
          { opened candidates loaded seconds with vector, workload },
          meets culprits live = true → member ∈ live) →
        ∀ core ∈ final.found, core = member) := by
  have hrep := (represents_opened candidates loaded seconds).withProgress 0 false vector workload
  have hwf := wellFormed_opened hne loaded maxNoReproduce
  have hfails : meets culprits (sorted candidates) = true := by
    obtain ⟨core, hcore⟩ := hsome
    exact meets_iff.mpr ⟨core, by simpa using hsub hcore, hcore⟩
  have htraced := traced_opened hfails hpasses
  have hfilter : isolate halving (meets culprits) (sorted candidates) =
      (sorted candidates).filter (· ∈ culprits) := isolate_eq_filter (fun _ _ => rfl) hfails
  have hsorted : (isolate halving (meets culprits) (sorted candidates)).Pairwise (· ≤ ·) :=
    (sorted_pairwise candidates).sublist (isolate_sublist _)
  obtain ⟨final, hfinal, hstage, hfound⟩ := drive_of_traced hlimit hrep hwf htraced hsorted
    (isolate_ne_nil (by simpa using hne)) (Nat.lt_succ_self _)
  refine ⟨_, final, hfinal, hstage, ?_, ?_⟩
  · rw [hfound, hfilter]
    ext core
    constructor
    · simp
    · intro hcore
      have hlive : core ∈ candidates := by simpa using hsub hcore
      simp [hcore, hlive]
  · intro hmany hmember
    refine found_of_suspects hlimit hrep hwf htraced (fun group => meets_split) ?_ hmember hfinal
    refine ⟨?_, by simp [openedSearch], ?_⟩
    · intro other hother
      have hlone : [other] = sorted candidates := by simpa [openedSearch] using hother
      have hlength := congrArg List.length hlone
      simp only [List.length_singleton, length_sorted] at hlength
      omega
    · intro group hgroup
      simp only [openedSearch] at hgroup
      split at hgroup <;> cases hgroup

/-- A lone candidate is convicted without a probe. -/
theorem probesAsked_of_lone (hlone : candidates.length = 1) :
    probesAsked oracle maxNoReproduce fuel
      { opened candidates loaded seconds with vector, workload } = [] := by
  obtain ⟨core, rfl⟩ := List.length_eq_one_iff.mp hlone
  have hlead : leadProbe (sorted [core]) (sorted loaded) = [] := by
    rw [leadProbe_sorted]
    split
    · exact if_neg (by simp)
    · rfl
  cases fuel with
  | zero => rfl
  | succ fuel =>
      have hnone : (nextLiveSet
          { opened [core] loaded seconds with vector, workload }).1 = none := by
        rw [nextLiveSet_of_empty (by simp [opened, hlead]) rfl rfl rfl]
      rw [probesAsked, show nextLiveSet { opened [core] loaded seconds with vector, workload } =
        (none, _) from Prod.ext hnone rfl]

theorem leadProbe_eq_singleton (hlead : leadProbe (sorted candidates) (sorted loaded) ≠ []) :
    ∃ core ∈ candidates, leadProbe (sorted candidates) (sorted loaded) = [core] ∧
      2 ≤ candidates.length := by
  rw [leadProbe_sorted] at hlead ⊢
  split at hlead
  · next core hlive =>
      have hmany : 2 ≤ candidates.length := by
        by_contra hfew
        exact hlead (if_neg hfew)
      have hmem : core ∈ loaded.filter (· ∈ candidates) := by simp [hlive]
      exact ⟨core, by simpa using (List.mem_filter.mp hmem).2, if_pos hmany, hmany⟩
  · exact absurd rfl hlead

/-- **The reporter and the masks that fail.**  A hunt convicts the culprits with the reporter
in every mask that fails when there is a single candidate, or when the reporter is the only
culprit, and in no other case. -/
theorem reporter_in_failing_iff (loaded : List CoreId) (seconds : ℚ)
    (vector : List (CoreId × Int)) (workload : Option WorkloadEntry) (member : CoreId)
    (hlimit : 1 ≤ maxNoReproduce) (hne : candidates ≠ [])
    (hsub : culprits ⊆ candidates.toFinset) (hsome : culprits.Nonempty) :
    ∃ fuel final,
      drive (meets culprits) maxNoReproduce fuel
        { opened candidates loaded seconds with vector, workload } = some final ∧
      final.stage = .culprit ∧ final.found ≠ [] ∧ final.found ⊆ candidates ∧
      ((∀ live ∈ probesAsked (meets culprits) maxNoReproduce fuel
          { opened candidates loaded seconds with vector, workload },
          meets culprits live = true → member ∈ live) ∧ final.found.toFinset = culprits ↔
        candidates.length = 1 ∨ culprits = {member}) := by
  have hpass : ∀ fuel, culprits = {member} →
      ∀ live ∈ probesAsked (meets culprits) maxNoReproduce fuel
        { opened candidates loaded seconds with vector, workload },
      meets culprits live = true → member ∈ live := by
    rintro fuel rfl live - hfails
    obtain ⟨core, hlive, hcore⟩ := meets_iff.mp hfails
    exact Finset.mem_singleton.mp hcore ▸ hlive
  -- A lead that fails ends the search at once, with the one core of its probe.
  by_cases hlead : leadProbe (sorted candidates) (sorted loaded) ≠ [] ∧
      meets culprits (leadProbe (sorted candidates) (sorted loaded)) = true
  · obtain ⟨hlone, hfails⟩ := hlead
    obtain ⟨core, hcore, hprobe, hmany⟩ := leadProbe_eq_singleton hlone
    obtain ⟨hasked, final, hfinal, hstage, hfound⟩ :
        probesAsked (meets culprits) maxNoReproduce 2
            { opened candidates loaded seconds with vector, workload } = _ ∧ _ :=
      drive_of_lead_fails hlone hfails
    rw [hprobe] at hasked hfound hfails
    have hculprit : core ∈ culprits := by simpa [meets] using hfails
    refine ⟨2, final, hfinal, hstage, by simp [hfound], by simpa [hfound] using hcore, ?_⟩
    rw [hasked, hfound]
    constructor
    · rintro ⟨hmember, hall⟩
      obtain rfl : member = core := by simpa using hmember [core] (by simp) hfails
      exact .inr (by simpa using hall.symm)
    · rintro (hone | honly)
      · omega
      · refine ⟨hasked ▸ hpass 2 honly, ?_⟩
        obtain rfl : core = member := by simpa [honly] using hculprit
        simp [honly]
  · have hpasses : leadProbe (sorted candidates) (sorted loaded) ≠ [] →
        meets culprits (leadProbe (sorted candidates) (sorted loaded)) = false := by
      simpa using hlead
    obtain ⟨fuel, final, hfinal, hstage, hall, honly⟩ :=
      drive_of_lead_passes hlimit hne hsub hsome hpasses
    refine ⟨fuel, final, hfinal, hstage, ?_, ?_, ?_⟩
    · rintro hnone
      simp [← hall, hnone] at hsome
    · intro core hcore
      simpa using hsub (hall ▸ List.mem_toFinset.mpr hcore)
    · constructor
      · rintro ⟨hmember, -⟩
        -- Of several candidates only the member itself is found if every failing probe had it live.
        by_cases hone : candidates.length = 1
        · exact .inl hone
        · have hlength : candidates.length ≠ 0 := by simpa using hne
          have hlone := honly (by omega) hmember
          refine .inr (Finset.eq_singleton_iff_nonempty_unique_mem.mpr ⟨hsome, ?_⟩)
          intro core hcore
          rw [← hall] at hcore
          exact hlone core (List.mem_toFinset.mp hcore)
      · rintro (hone | honly)
        · exact ⟨by simp [probesAsked_of_lone hone], hall⟩
        · exact ⟨hpass fuel honly, hall⟩

end Bisect

/-! ## Who is charged -/

/-- A charge is a row of the log of its core. -/
theorem blameCore_log (config : TunerConfig) (state : SessionState) {core : CoreId}
    (hknown : core ∈ state.engine.coreIds) (resident : Option Int) (steps : Int) :
    (blameCore config state core resident steps).engine.coreIds = state.engine.coreIds ∧
    ∃ row, (blameCore config state core resident steps).testLog =
      Function.update state.testLog core (state.testLog core ++ [row]) := by
  obtain ⟨known, hmem, hid⟩ := List.mem_map.mp hknown
  have hfind : ∃ cs, state.coreStates.find? (·.coreId = core) = some cs := by
    rw [← Option.isSome_iff_exists, List.find?_isSome]
    exact ⟨known, hmem, by simpa using hid⟩
  obtain ⟨cs, hcs⟩ := hfind
  unfold blameCore
  rw [hcs]
  dsimp only
  split
  · unfold SessionState.pause
    split
    · exact ⟨moveCore_coreIds _ _, _, rfl⟩
    · exact ⟨moveCore_coreIds _ _, _, rfl⟩
  · exact ⟨moveCore_coreIds _ _, _, rfl⟩

/-- Charging the culprits gives a row to each of them, and to nobody else. -/
theorem testLog_foldl_blameCore (config : TunerConfig) (resident : CoreId → Option Int)
    (steps : Int) {found : List CoreId} {state : SessionState}
    (hknown : ∀ core ∈ found, core ∈ state.engine.coreIds) (core : CoreId) :
    ((found.foldl (fun state core => blameCore config state core (resident core) steps)
      state).testLog core).length = (state.testLog core).length + found.count core := by
  induction found generalizing state with
  | nil => rfl
  | cons first rest ih =>
      obtain ⟨hids, row, hlog⟩ := blameCore_log config state (hknown first List.mem_cons_self)
        (resident first) steps
      have hrest : ∀ other ∈ rest, other ∈
          (blameCore config state first (resident first) steps).engine.coreIds := by
        intro other hother
        rw [hids]
        exact hknown other (List.mem_cons_of_mem _ hother)
      rw [List.foldl_cons, ih hrest, hlog, List.count_cons]
      by_cases hsame : core = first
      · subst hsame
        simp only [Function.update_self, List.length_append, List.length_singleton, BEq.rfl,
          if_true]
        omega
      · simp [Function.update_of_ne hsame, Ne.symm hsame]

namespace HuntContext

/-- Ending the hunt charges these cores, and nobody else, in every session over the cores. -/
def Charges (context : HuntContext) (hunt : HuntState) (culprits : Finset CoreId) : Prop :=
  ∀ (state : SessionState) (accepted : CoreId → Bool), state.engine.coreIds = context.coreIds →
    ∀ core, (state.testLog core).length <
        ((resolveHunt context.config state hunt accepted).testLog core).length ↔
      core ∈ culprits

variable {context : HuntContext}

theorem testLog_resolveHunt {hunt : HuntState} (hstage : hunt.stage = .culprit)
    (hne : hunt.found ≠ []) {config : TunerConfig} {state : SessionState}
    (hknown : ∀ core ∈ hunt.found, core ∈ state.engine.coreIds) (accepted : CoreId → Bool)
    (core : CoreId) :
    ((resolveHunt config state hunt accepted).testLog core).length =
      (state.testLog core).length + hunt.found.count core := by
  have hlog : ∀ state : SessionState, (afterHuntResume config state accepted true).testLog =
      state.testLog := by
    intro state
    unfold afterHuntResume
    dsimp only
    split
    · rfl
    · rfl
  unfold resolveHunt
  rw [if_pos ⟨hstage, hne⟩, hlog]
  refine testLog_foldl_blameCore config (fun core => hunt.vector.lookup core) _ ?_ core
  exact hknown

/-- The culprits of a hunt are those it charges. -/
theorem charges_iff {hunt : HuntState} (hstage : hunt.stage = .culprit)
    (hne : hunt.found ≠ []) (hfound : ∀ core ∈ hunt.found, core ∈ context.coreIds)
    (culprits : Finset CoreId) :
    context.Charges hunt culprits ↔ hunt.found.toFinset = culprits := by
  have hgrows : ∀ (state : SessionState) (accepted : CoreId → Bool),
      state.engine.coreIds = context.coreIds → ∀ core,
      ((state.testLog core).length <
          ((resolveHunt context.config state hunt accepted).testLog core).length ↔
        core ∈ hunt.found) := by
    intro state accepted hids core
    rw [testLog_resolveHunt hstage hne (fun core hcore => hids ▸ hfound core hcore),
      ← List.count_pos_iff]
    omega
  constructor
  · intro hcharges
    have hids : (context.coreIds.map fun core => ({ coreId := core } : CoreState)).map
        CoreState.coreId = context.coreIds := by
      rw [List.map_map]
      exact List.map_id _
    let state : SessionState :=
      { engine :=
          { topology := []
            coRange := (0, 0)
            coreStates := context.coreIds.map fun core => { coreId := core } } }
    ext core
    rw [List.mem_toFinset, ← hgrows state (fun _ => true) hids core]
    exact hcharges state (fun _ => true) hids core
  · rintro rfl state accepted hids core
    rw [hgrows state accepted hids core, List.mem_toFinset]

/-! ## Running a hunt -/

/-- The report of a launch, given the number of its slot, the launch, and what is left of its
series. -/
abbrev Reports := Nat → Launch → Nat → Report

/-- Probes of an aggregate load fail as their masks do.  A series that misses the culprits
passes, and one that meets them fails, with its last launch at the latest. -/
structure JudgedByMask (context : HuntContext) (culprits : Finset CoreId) (reports : Reports) :
    Prop where
  /-- The worker of an aggregate load reports under the first core of the load. -/
  reporter : ∀ serial launch left,
    launch.kind = some "rapid_transition" ∨ launch.kind = some "soak" →
      (reports serial launch left).core = launch.reporter
  fails : ∀ serial launch left, (reports serial launch left).passed = false →
    meets culprits launch.live = true
  last : ∀ serial launch, meets culprits launch.live = true →
    (reports serial launch 0).passed = false
  verdict : ∀ serial launch left, (reports serial launch left).passed = false →
    lacksVerdict (reports serial launch left).errorType = false
  unnamed : ∀ serial launch left, ∀ event ∈ (reports serial launch left).observed,
    event.cpu < 0 ∨ ∀ core, context.cpuToCore event.cpu = some core → core ∉ context.coreIds

/-- What happens next: a worker finishes, or the loop takes what is queued. -/
def nextEvent (reports : Reports) (loop : HuntLoop) : Option (Event Report HuntCall HuntChoice) :=
  match loop.workers, loop.queue with
  | (serial, launch) :: _, _ =>
      some (.finish serial (reports serial launch loop.memory.launchesLeft))
  | [], _ :: _ => some (.handle 0 {})
  | [], [] => none

/-- Let it happen. -/
def advance (context : HuntContext) (reports : Reports) (loop : HuntLoop) : HuntLoop :=
  ((nextEvent reports loop).bind (context.huntProgram.system.step loop)).getD loop

/-- The engine once it has opened a hunt. -/
def opening (context : HuntContext) (seconds : ℚ) (loaded : List CoreId)
    (vector : List (CoreId × Int)) (workload : Option WorkloadEntry) : HuntLoop :=
  ({ memory := {} } : HuntLoop).proceed (context.startHunt {} seconds loaded vector workload {})

/-- The core that the launches of a hunt report under. -/
def reporterOf (context : HuntContext) (hunt : HuntState) : CoreId :=
  (context.loadedCores hunt.loaded).headD 0

variable {reports : Reports} {culprits : Finset CoreId} {loop : HuntLoop} {memory : HuntMemory}
  {hunt probing : HuntState} {answers : List (List CoreId × Bool)}

/-! ### One event -/

theorem advance_worker {serial : Nat} {launch : Launch} (hworkers : loop.workers = [(serial, launch)])
    (hqueue : loop.queue = []) :
    context.advance reports loop =
      { loop with
        workers := []
        queue := [.result serial (reports serial launch loop.memory.launchesLeft)] } := by
  simp [advance, nextEvent, Program.system, hworkers, hqueue]

theorem advance_nextHuntSlot (hworkers : loop.workers = [])
    (hqueue : loop.queue = [.task .nextHuntSlot]) :
    ∃ ready : HuntLoop, ready.workers = [] ∧ ready.queue = [] ∧
      context.advance reports loop = ready.proceed (context.runNextHuntSlot loop.memory {}) := by
  refine ⟨{ loop with queue := [] }, hworkers, rfl, ?_⟩
  simp [advance, nextEvent, Program.system, Program.take, huntProgram, hworkers, hqueue]

theorem advance_search (hworkers : loop.workers = []) (hqueue : loop.queue = [.task .search]) :
    ∃ ready : HuntLoop, ready.workers = [] ∧ ready.queue = [] ∧
      context.advance reports loop = ready.proceed { memory := loop.memory } := by
  refine ⟨{ loop with queue := [] }, hworkers, rfl, ?_⟩
  simp [advance, nextEvent, Program.system, Program.take, huntProgram, hworkers, hqueue]

theorem advance_result {serial : Nat} {report : Report} (hworkers : loop.workers = [])
    (hqueue : loop.queue = [.result serial report]) :
    ∃ ready : HuntLoop, ready.workers = [] ∧ ready.queue = [] ∧
      context.advance reports loop =
        ready.proceed (context.huntProgram.onResult loop.memory report {}) := by
  refine ⟨{ loop with
    queue := []
    held := none
    misapplied := loop.misapplied || decide (serial + 1 ≠ loop.dispatched) }, hworkers, rfl, ?_⟩
  simp [advance, nextEvent, Program.system, Program.take, hworkers, hqueue]

/-- At rest nothing happens. -/
theorem advance_rest (hflows : loop.flows = 0) : context.advance reports loop = loop := by
  simp [advance, nextEvent, Loop.workers_nil_of_flows hflows, Loop.queue_nil_of_flows hflows]

/-- A run comes to rest in one state only. -/
theorem advance_rest_unique {first second : Nat}
    (hfirst : ((context.advance reports)^[first] loop).flows = 0)
    (hsecond : ((context.advance reports)^[second] loop).flows = 0) :
    (context.advance reports)^[first] loop = (context.advance reports)^[second] loop := by
  have hstays : ∀ {rest : HuntLoop} (more : Nat), rest.flows = 0 →
      (context.advance reports)^[more] rest = rest := fun more hflows =>
    Function.iterate_fixed (advance_rest hflows) more
  rcases le_total first second with hle | hle
  · obtain ⟨more, rfl⟩ := Nat.exists_eq_add_of_le' hle
    rw [Function.iterate_add_apply, hstays more hfirst]
  · obtain ⟨more, rfl⟩ := Nat.exists_eq_add_of_le' hle
    rw [Function.iterate_add_apply, hstays more hsecond]

/-- What a reaction leaves where nothing was left. -/
theorem proceed_launch (hworkers : loop.workers = []) (hqueue : loop.queue = [])
    (memory : HuntMemory) (launch : Launch) :
    ∃ serial,
      (loop.proceed { memory, writes := true, next := .launch launch }).workers =
        [(serial, launch)] ∧
      (loop.proceed { memory, writes := true, next := .launch launch }).queue = [] ∧
      (loop.proceed { memory, writes := true, next := .launch launch }).memory = memory := by
  refine ⟨loop.dispatched, ?_, ?_, rfl⟩
  · simp [Loop.proceed, Loop.follow, hworkers]
  · simp [Loop.proceed, Loop.follow, hqueue]

theorem proceed_later (hworkers : loop.workers = []) (hqueue : loop.queue = [])
    (memory : HuntMemory) (task : HuntTask) :
    (loop.proceed { memory, next := .later task }).workers = [] ∧
      (loop.proceed { memory, next := .later task }).queue = [.task task] ∧
      (loop.proceed { memory, next := .later task }).memory = memory := by
  refine ⟨?_, ?_, rfl⟩
  · simp [Loop.proceed, Loop.follow, hworkers]
  · simp [Loop.proceed, Loop.follow, hqueue]

theorem proceed_nothing (hworkers : loop.workers = []) (hqueue : loop.queue = [])
    (memory : HuntMemory) :
    (loop.proceed { memory }).flows = 0 ∧ (loop.proceed { memory }).memory = memory := by
  refine ⟨?_, rfl⟩
  simp [Loop.proceed, Loop.follow, Loop.flows, hworkers, hqueue]

/-! ### One launch -/

/-- The engine is at a hunt, and goes on with it. -/
structure Ready (memory : HuntMemory) (hunt : HuntState) : Prop where
  inMemory : memory.hunt = some hunt
  hunting : memory.hunting = true
  goesOn : memory.abortRequested = false
  unpaused : memory.paused = false
  isOpen : memory.quarantined = false

/-- A launch of the probe that `probing` has in flight. -/
structure Launches (context : HuntContext) (probing : HuntState)
    (answers : List (List CoreId × Bool)) (memory : HuntMemory) (launch : Launch) : Prop where
  ready : ∃ launchesDone, Ready memory { probing with launchesDone, armed := true }
  live : launch.live = probing.inFlight
  reporter : launch.reporter = context.reporterOf probing
  kind : launch.kind = probing.workload.bind (·.kind)
  answers : memory.answers = answers

/-- The answer of the probe before is in the hunt, and the next question is to be asked. -/
structure Asks (loop : HuntLoop) (hunt : HuntState) (answers : List (List CoreId × Bool)) :
    Prop where
  workers : loop.workers = []
  queue : loop.queue = [.task .nextHuntSlot]
  ready : Ready loop.memory hunt
  left : loop.memory.launchesLeft = 0
  answers : loop.memory.answers = answers

/-- Launching is all a dispatch comes to. -/
theorem launches_dispatch {launchesDone : Nat} {live : List CoreId} {armed : Bool}
    (hready : Ready memory hunt) (hlive : probing.inFlight = live) :
    ∃ after launch,
      context.dispatch memory { probing with launchesDone, armed } live {} =
        { memory := after, writes := true, next := .launch launch } ∧
      Launches context probing memory.answers after launch ∧
      after.launchesLeft = memory.launchesLeft := by
  obtain ⟨-, hhunting, hgoes, hunpaused, hopen⟩ := hready
  exact ⟨_, _, rfl, ⟨⟨launchesDone, rfl, hhunting, hgoes, hunpaused, hopen⟩, hlive.symm, rfl, rfl,
    rfl⟩, rfl⟩

/-- The engine that goes on with a hunt does not look at its pauses. -/
theorem runNextHuntSlot_of_ready (hready : Ready memory hunt) :
    context.runNextHuntSlot memory {} =
      if memory.launchesLeft ≠ 0 then
        context.dispatch { memory with launchesLeft := memory.launchesLeft - 1 } hunt
          hunt.inFlight {}
      else
        match (nextLiveSet hunt).1 with
        | none =>
            { memory :=
                { memory with
                  hunt := none
                  row := none
                  hunting := false
                  resolved := some (nextLiveSet hunt).2 }
              next := .later .search }
        | some live =>
            context.dispatch
              { memory with
                launchSeconds := (launchSeries context (nextLiveSet hunt).2).1
                launchesLeft := launches context (nextLiveSet hunt).2 - 1 -
                  min hunt.launchesDone (launches context (nextLiveSet hunt).2 - 1) }
              (nextLiveSet hunt).2 live {} := by
  unfold runNextHuntSlot
  split
  · next other hother _ =>
      obtain rfl := Option.some.inj (hready.inMemory.symm.trans hother)
      rfl
  · next hstops =>
      exact absurd (by simp [hready.goesOn, hready.unpaused]) (hstops hunt hready.inMemory)

/-- The series goes on. -/
theorem launches_again {launchesDone : Nat} (hworkers : loop.workers = [])
    (hqueue : loop.queue = [.task .nextHuntSlot])
    (hready : Ready loop.memory { probing with launchesDone, armed := false })
    (hleft : loop.memory.launchesLeft ≠ 0) :
    ∃ serial launch, (context.advance reports loop).workers = [(serial, launch)] ∧
      (context.advance reports loop).queue = [] ∧
      Launches context probing loop.memory.answers (context.advance reports loop).memory launch ∧
      (context.advance reports loop).memory.launchesLeft = loop.memory.launchesLeft - 1 := by
  obtain ⟨ready, hidle, hempty, hadvance⟩ : ∃ ready : HuntLoop, ready.workers = [] ∧
      ready.queue = [] ∧ context.advance reports loop = _ := advance_nextHuntSlot hworkers hqueue
  rw [runNextHuntSlot_of_ready hready, if_pos hleft] at hadvance
  obtain ⟨after, launch, hdispatch, hlaunches, hcount⟩ : ∃ after launch,
      context.dispatch { loop.memory with launchesLeft := loop.memory.launchesLeft - 1 }
          { probing with launchesDone, armed := false } probing.inFlight {} = _ ∧
        Launches context probing _ after launch ∧ _ :=
    launches_dispatch
      ⟨hready.inMemory, hready.hunting, hready.goesOn, hready.unpaused, hready.isOpen⟩ rfl
  obtain ⟨serial, hlaunched, hqueued, hmemory⟩ := proceed_launch hidle hempty after launch
  rw [hadvance.trans (congrArg ready.proceed hdispatch)]
  exact ⟨serial, launch, hlaunched, hqueued, hmemory ▸ hlaunches, hmemory ▸ hcount⟩

/-- The next probe starts. -/
theorem launches_first {live : List CoreId} (hworkers : loop.workers = [])
    (hqueue : loop.queue = [.task .nextHuntSlot]) (hready : Ready loop.memory hunt)
    (hleft : loop.memory.launchesLeft = 0) (hask : nextLiveSet hunt = (some live, probing))
    (hlive : probing.inFlight = live) :
    ∃ serial launch, (context.advance reports loop).workers = [(serial, launch)] ∧
      (context.advance reports loop).queue = [] ∧
      Launches context probing loop.memory.answers (context.advance reports loop).memory launch := by
  obtain ⟨ready, hidle, hempty, hadvance⟩ : ∃ ready : HuntLoop, ready.workers = [] ∧
      ready.queue = [] ∧ context.advance reports loop = _ := advance_nextHuntSlot hworkers hqueue
  rw [runNextHuntSlot_of_ready hready, if_neg (not_not.mpr hleft), hask] at hadvance
  obtain ⟨after, launch, hdispatch, hlaunches, -⟩ : ∃ after launch,
      context.dispatch
          { loop.memory with
            launchSeconds := (launchSeries context probing).1
            launchesLeft := launches context probing - 1 -
              min hunt.launchesDone (launches context probing - 1) } probing live {} = _ ∧
        Launches context probing _ after launch ∧ _ :=
    launches_dispatch
      ⟨hready.inMemory, hready.hunting, hready.goesOn, hready.unpaused, hready.isOpen⟩ hlive
  obtain ⟨serial, hlaunched, hqueued, hmemory⟩ := proceed_launch hidle hempty after launch
  rw [hadvance.trans (congrArg ready.proceed hdispatch)]
  exact ⟨serial, launch, hlaunched, hqueued, hmemory ▸ hlaunches⟩

/-- An event that names no core is evidence against nobody. -/
theorem foreign_eq_nil {report : Report}
    (hunnamed : ∀ event ∈ report.observed,
      event.cpu < 0 ∨ ∀ core, context.cpuToCore event.cpu = some core → core ∉ context.coreIds) :
    context.foreign memory report = [] := by
  unfold foreign foreignMceByCore
  rw [List.dedup_eq_nil, List.filterMap_eq_nil_iff]
  intro event hevent
  split
  · rfl
  · next hcpu =>
      rw [Option.filter_eq_none_iff]
      intro core hcore hkept
      exact (hunnamed event hevent).resolve_left hcpu core hcore (of_decide_eq_true hkept).2

/-- The result of a launch is judged by whether the reporter is at stock, and by the verdict. -/
theorem onResult_of_launches {launch : Launch} {report : Report}
    (hlaunches : Launches context probing answers memory launch)
    (hcore : report.core = context.reporterOf probing)
    (hknown : context.reporterOf probing ∈ context.coreIds)
    (hverdict : report.passed = false → lacksVerdict report.errorType = false)
    (hunnamed : ∀ event ∈ report.observed,
      event.cpu < 0 ∨ ∀ core, context.cpuToCore event.cpu = some core → core ∉ context.coreIds) :
    ∃ rested launchesDone, Ready rested { probing with launchesDone, armed := false } ∧
      rested.launchesLeft = memory.launchesLeft ∧ rested.answers = answers ∧
      context.huntProgram.onResult memory report {} =
        if !report.passed && atStock probing (context.reporterOf probing) then
          { memory := rested.requeue.pause }
        else if report.passed && decide (rested.launchesLeft ≠ 0) then
          { memory := rested.save
              { probing with launchesDone := launchesDone + 1, armed := false }
            next := .later .nextHuntSlot }
        else
          { memory := rested.recordProbe context.config
              { probing with launchesDone, armed := false } (!report.passed)
            next := .later .nextHuntSlot } := by
  obtain ⟨⟨launchesDone, hready⟩, -, -, -, hanswers⟩ := hlaunches
  obtain ⟨hhunt, hhunting, hgoes, hunpaused, hopen⟩ := hready
  obtain ⟨clean, hnote⟩ : ∃ clean, context.noteClean memory report = { memory with clean } := by
    unfold noteClean
    split
    · exact ⟨_, rfl⟩
    · exact ⟨memory.clean, rfl⟩
  have hlacks : (!report.passed && lacksVerdict report.errorType) = false := by
    cases hpassed : report.passed with
    | true => rfl
    | false => simp [hverdict hpassed]
  have hnoted : ({ memory with clean } : HuntMemory).hunt =
      some { probing with launchesDone, armed := true } := hhunt
  let judged : HuntMemory :=
    { ({ memory with clean } : HuntMemory).save { probing with launchesDone, armed := false } with
      apparatusFaults := 0 }
  have hjudged : judged.hunt = some { probing with launchesDone, armed := false } := rfl
  have hinconsistent : context.inconsistent judged
      { probing with launchesDone, armed := false } report =
        (!report.passed && atStock probing (context.reporterOf probing)) := by
    unfold inconsistent
    rw [foreign_eq_nil hunnamed, List.any_nil, Bool.or_false, hcore]
    rfl
  refine ⟨{ judged with soaking := false }, launchesDone,
    ⟨rfl, hhunting, hgoes, hunpaused, hopen⟩, rfl, hanswers, ?_⟩
  show context.onTestFinished (context.noteClean memory report) report {} = _
  rw [hnote, onTestFinished_of_verdict hnoted hhunting hgoes (hcore ▸ hknown) hlacks rfl]
  show context.onHuntSlotFinished judged report = _
  rw [onHuntSlotFinished_of_hunt hjudged, hinconsistent, foreign_eq_nil hunnamed]
  simp only [ne_eq, not_true_eq_false, decide_false, Bool.or_false, Bool.not_not]

/-! ### One probe -/

/-- The load of the hunt reports under its first core. -/
def Aggregate (hunt : HuntState) : Prop :=
  hunt.workload.bind (·.kind) = some "rapid_transition" ∨
    hunt.workload.bind (·.kind) = some "soak"

/-- Everything has come to rest, in a pause. -/
def Halted (loop : HuntLoop) : Prop := loop.flows = 0 ∧ loop.memory.paused = true

theorem paused_of_requeue (hready : Ready memory hunt) : memory.requeue.pause.paused = true := by
  have hopen : memory.requeue.quarantined = false := by
    rw [requeue_of_hunt hready.inMemory]
    exact hready.isOpen
  rw [pause_of_open hopen]

/-- A run that goes on from where another one ends. -/
theorem exists_advance_of_exists (property : HuntLoop → Prop) (first : Nat)
    (hrest : ∃ n, property ((context.advance reports)^[n] ((context.advance reports)^[first] loop))) :
    ∃ n, property ((context.advance reports)^[n] loop) := by
  obtain ⟨n, hn⟩ := hrest
  refine ⟨n + first, ?_⟩
  rwa [Function.iterate_add_apply]

/-- How a launch ends: with the next launch of its series, with the answer of the probe, or
with a pause. -/
theorem launch_ends (hjudged : JudgedByMask context culprits reports)
    (harmed : probing.armed = false) (haggregate : Aggregate probing)
    (hknown : context.reporterOf probing ∈ context.coreIds) {left serial : Nat}
    {launch : Launch} (hworkers : loop.workers = [(serial, launch)]) (hqueue : loop.queue = [])
    (hlaunches : Launches context probing answers loop.memory launch)
    (hleft : loop.memory.launchesLeft = left) :
    ((reports serial launch left).passed = true ∧ left ≠ 0 ∧
      ∃ next other, ((context.advance reports)^[3] loop).workers = [(next, other)] ∧
        ((context.advance reports)^[3] loop).queue = [] ∧
        Launches context probing answers ((context.advance reports)^[3] loop).memory other ∧
        ((context.advance reports)^[3] loop).memory.launchesLeft = left - 1) ∨
    (((reports serial launch left).passed = true ∧ left = 0 ∨
        (reports serial launch left).passed = false ∧
          atStock probing (context.reporterOf probing) = false) ∧
      Asks ((context.advance reports)^[2] loop)
        (record probing (!(reports serial launch left).passed) context.limit)
        (answers ++ [(probing.inFlight, !(reports serial launch left).passed)])) ∨
    ((reports serial launch left).passed = false ∧
      atStock probing (context.reporterOf probing) = true ∧
      Halted ((context.advance reports)^[2] loop)) := by
  have hkind : launch.kind = some "rapid_transition" ∨ launch.kind = some "soak" := by
    rw [hlaunches.kind]
    exact haggregate
  have hcore := (hjudged.reporter serial launch left hkind).trans hlaunches.reporter
  obtain ⟨rested, launchesDone, hready, hsame, hanswers, hresult⟩ :=
    onResult_of_launches hlaunches hcore hknown (hjudged.verdict serial launch left)
      (hjudged.unnamed serial launch left)
  -- Two rounds of the event loop: the worker ends, then its result is taken.
  have hfirst : context.advance reports loop = { loop with
      workers := [], queue := [.result serial (reports serial launch left)] } := by
    rw [advance_worker hworkers hqueue, hleft]
  obtain ⟨ready, hidle, hempty, hsecond⟩ : ∃ ready : HuntLoop, ready.workers = [] ∧
      ready.queue = [] ∧ (context.advance reports)^[2] loop =
        ready.proceed (context.huntProgram.onResult loop.memory (reports serial launch left) {}) := by
    show ∃ ready : HuntLoop, _ ∧ _ ∧ context.advance reports (context.advance reports loop) = _
    rw [hfirst]
    exact advance_result rfl rfl
  rw [hresult] at hsecond
  -- An answer that is recorded leaves the hunt ready for the next probe.
  have hrecorded : ∀ reproduced : Bool, (context.advance reports)^[2] loop = ready.proceed
        { memory := rested.recordProbe context.config
            { probing with launchesDone, armed := false } reproduced
          next := .later .nextHuntSlot } →
      Asks ((context.advance reports)^[2] loop) (record probing reproduced context.limit)
        (answers ++ [(probing.inFlight, reproduced)]) := by
    intro reproduced hequal
    have hsame : ({ probing with armed := false } : HuntState) = probing := by rw [← harmed]
    have hrecord : record { probing with launchesDone, armed := false } reproduced context.limit =
        record probing reproduced context.limit := by
      rw [← hsame]
      rfl
    rw [hequal]
    obtain ⟨hworkers, hqueue, hmemory⟩ := proceed_later hidle hempty
      (rested.recordProbe context.config { probing with launchesDone, armed := false } reproduced)
      .nextHuntSlot
    refine ⟨hworkers, hqueue, ?_, ?_, ?_⟩
    · rw [hmemory]
      exact ⟨congrArg some hrecord, hready.hunting, hready.goesOn, hready.unpaused, hready.isOpen⟩
    · rw [hmemory]
      rfl
    · rw [hmemory, ← hanswers]
      rfl
  cases hpassed : (reports serial launch left).passed with
  | true =>
      simp only [hpassed, Bool.not_true, Bool.false_and, Bool.false_eq_true, if_false,
        Bool.true_and, decide_eq_true_eq] at hsecond
      -- A clean launch is the last of its series, or the probe is launched again in a third round.
      by_cases hlast : left = 0
      · refine .inr (.inl ⟨.inl ⟨rfl, hlast⟩, hrecorded false ?_⟩)
        rw [hsecond, if_neg (by rw [hsame, hleft]; exact not_not.mpr hlast)]
      · rw [if_pos (by rw [hsame, hleft]; exact hlast)] at hsecond
        obtain ⟨hworkers, hqueue, hmemory⟩ := proceed_later hidle hempty
          (rested.save { probing with launchesDone := launchesDone + 1, armed := false })
          .nextHuntSlot
        rw [← hsecond] at hworkers hqueue hmemory
        have hsaved : Ready
            (rested.save { probing with launchesDone := launchesDone + 1, armed := false })
            { probing with launchesDone := launchesDone + 1, armed := false } :=
          ⟨rfl, hready.hunting, hready.goesOn, hready.unpaused, hready.isOpen⟩
        have hstill : ((rested.save { probing with
            launchesDone := launchesDone + 1, armed := false }).launchesLeft ≠ 0) := by
          show rested.launchesLeft ≠ 0
          rw [hsame, hleft]
          exact hlast
        rw [← hmemory] at hsaved hstill
        obtain ⟨next, other, hnext, hempty', hother, hcount⟩ : ∃ next other,
            (context.advance reports ((context.advance reports)^[2] loop)).workers =
              [(next, other)] ∧ _ := launches_again hworkers hqueue hsaved hstill
        refine .inl ⟨rfl, hlast, next, other, hnext, hempty', ?_, ?_⟩
        · rw [hmemory] at hother
          exact hanswers ▸ hother
        · rw [hmemory] at hcount
          exact hcount.trans (congrArg (· - 1) (hsame.trans hleft))
  | false =>
      simp only [hpassed, Bool.not_false, Bool.true_and, Bool.false_and, Bool.false_eq_true,
        if_false] at hsecond
      -- A failure of a core that the probe left at stock contradicts it: the hunt is paused.
      cases hstock : atStock probing (context.reporterOf probing) with
      | true =>
          rw [hstock, if_pos rfl] at hsecond
          refine .inr (.inr ⟨rfl, rfl, ?_⟩)
          rw [hsecond]
          obtain ⟨hflows, hmemory⟩ := proceed_nothing hidle hempty rested.requeue.pause
          exact ⟨hflows, hmemory ▸ paused_of_requeue hready⟩
      | false =>
          rw [hstock, if_neg Bool.false_ne_true] at hsecond
          exact .inr (.inl ⟨.inr ⟨rfl, rfl⟩, hrecorded true hsecond⟩)

/-- **One probe.**  A series ends in the answer of its mask, unless it fails with the reporter
at stock. -/
theorem probe_answered (hjudged : JudgedByMask context culprits reports)
    (harmed : probing.armed = false) (haggregate : Aggregate probing)
    (hknown : context.reporterOf probing ∈ context.coreIds) {left serial : Nat}
    {launch : Launch} (hworkers : loop.workers = [(serial, launch)]) (hqueue : loop.queue = [])
    (hlaunches : Launches context probing answers loop.memory launch)
    (hleft : loop.memory.launchesLeft = left) :
    ((meets culprits probing.inFlight = true →
        atStock probing (context.reporterOf probing) = false) →
      ∃ n, Asks ((context.advance reports)^[n] loop)
        (record probing (meets culprits probing.inFlight) context.limit)
        (answers ++ [(probing.inFlight, meets culprits probing.inFlight)])) ∧
    (meets culprits probing.inFlight = true →
      atStock probing (context.reporterOf probing) = true →
      ∃ n, Halted ((context.advance reports)^[n] loop)) := by
  induction left using Nat.strong_induction_on generalizing loop serial launch with
  | _ left ih =>
      have hlive := hlaunches.live
      have hfails : (reports serial launch left).passed = false →
          meets culprits probing.inFlight = true := fun hpassed =>
        hlive ▸ hjudged.fails serial launch left hpassed
      obtain ⟨hpassed, hmore, next, other, hnext, hempty, hother, hcount⟩ | ⟨hway, hasks⟩ |
          ⟨hfailed, hstock, hhalted⟩ :=
        launch_ends hjudged harmed haggregate hknown hworkers hqueue hlaunches hleft
      · obtain ⟨hanswered, hhalts⟩ := ih (left - 1) (by omega) hnext hempty hother hcount
        refine ⟨fun hconsistent => ?_, fun hmeets hstock => ?_⟩
        · exact exists_advance_of_exists (Asks · _ _) 3 (hanswered hconsistent)
        · exact exists_advance_of_exists Halted 3 (hhalts hmeets hstock)
      · have hanswer : (!(reports serial launch left).passed) =
            meets culprits probing.inFlight := by
          rcases hway with ⟨hpassed, rfl⟩ | ⟨hfailed, -⟩
          · cases hmeets : meets culprits probing.inFlight with
            | false => rw [hpassed, Bool.not_true]
            | true =>
                have hfailed := hjudged.last serial launch (hlive.symm ▸ hmeets)
                exact absurd (hpassed.symm.trans hfailed) (by simp)
          · rw [hfailed, hfails hfailed, Bool.not_false]
        rw [hanswer] at hasks
        refine ⟨fun _ => ⟨2, hasks⟩, fun hmeets hstock => ?_⟩
        rcases hway with ⟨hpassed, -⟩ | ⟨-, hfree⟩
        · rw [hmeets, hpassed] at hanswer
          cases hanswer
        · exact absurd (hstock.symm.trans hfree) (by simp)
      · refine ⟨fun hconsistent => ?_, fun _ _ => ⟨2, hhalted⟩⟩
        exact absurd (hstock.symm.trans (hconsistent (hfails hfailed))) (by simp)

/-! ### The whole hunt -/

/-- The answers are those of the masks. -/
def MasksAnswer (culprits : Finset CoreId) (answers : List (List CoreId × Bool)) : Prop :=
  ∀ entry ∈ answers, entry.2 = meets culprits entry.1

/-- The hunt is over, and the search goes on. -/
structure Ends (loop : HuntLoop) (culprits : Finset CoreId) (final : HuntState) : Prop where
  rests : loop.flows = 0
  unpaused : loop.memory.paused = false
  resolved : loop.memory.resolved = some final
  answers : MasksAnswer culprits loop.memory.answers

/-- A hunt that has nothing more to ask ends. -/
theorem ends_of_asks (hasks : Asks loop hunt answers) (hanswers : MasksAnswer culprits answers)
    (hnone : (nextLiveSet hunt).1 = none) :
    Ends ((context.advance reports)^[2] loop) culprits (nextLiveSet hunt).2 := by
  obtain ⟨hworkers, hqueue, hready, hleft, rfl⟩ := hasks
  obtain ⟨ready, hidle, hempty, hfirst⟩ : ∃ ready : HuntLoop, ready.workers = [] ∧
      ready.queue = [] ∧ context.advance reports loop = _ := advance_nextHuntSlot hworkers hqueue
  rw [runNextHuntSlot_of_ready hready, if_neg (not_not.mpr hleft), hnone] at hfirst
  obtain ⟨hworkers', hqueue', hmemory⟩ := proceed_later hidle hempty
    { loop.memory with
      hunt := none
      row := none
      hunting := false
      resolved := some (nextLiveSet hunt).2 } .search
  obtain ⟨rest, hidle', hempty', hsecond⟩ : ∃ rest : HuntLoop, rest.workers = [] ∧
      rest.queue = [] ∧ context.advance reports (context.advance reports loop) =
        rest.proceed { memory := (context.advance reports loop).memory } := by
    rw [hfirst]
    exact advance_search hworkers' hqueue'
  obtain ⟨hflows, hlast⟩ := proceed_nothing hidle' hempty' (context.advance reports loop).memory
  rw [hfirst, hmemory] at hlast
  rw [show (context.advance reports)^[2] loop = _ from hsecond]
  rw [hfirst, hmemory] at hflows ⊢
  exact ⟨hflows, by rw [hlast]; exact hready.unpaused, by rw [hlast], by rw [hlast]; exact hanswers⟩

/-- **The whole hunt.**  A run of the engine is the drive of its hunt, up to the first probe
that fails with the reporter at stock. -/
theorem run_of_drive (hjudged : JudgedByMask context culprits reports) {reporter : CoreId}
    {vector : List (CoreId × Int)} (hreporter : context.reporterOf hunt = reporter)
    (hknown : reporter ∈ context.coreIds) (hvector : hunt.vector = vector)
    (harmed : hunt.armed = false) (haggregate : Aggregate hunt) {fuel : Nat} {final : HuntState}
    (hdrive : drive (meets culprits) context.limit fuel hunt = some final)
    (hasks : Asks loop hunt answers) (hanswers : MasksAnswer culprits answers) :
    ((∀ live ∈ probesAsked (meets culprits) context.limit fuel hunt,
        meets culprits live = true → reporter ∈ live ∧ (vector.lookup reporter).getD 0 ≠ 0) →
      ∃ n, Ends ((context.advance reports)^[n] loop) culprits final) ∧
    (¬ (∀ live ∈ probesAsked (meets culprits) context.limit fuel hunt,
        meets culprits live = true → reporter ∈ live ∧ (vector.lookup reporter).getD 0 ≠ 0) →
      ∃ n, Halted ((context.advance reports)^[n] loop)) := by
  induction fuel generalizing loop hunt answers with
  | zero => simp [drive] at hdrive
  | succ fuel ih =>
      cases hask : (nextLiveSet hunt).1 with
      | none =>
          have hdone : nextLiveSet hunt = (none, (nextLiveSet hunt).2) := Prod.ext hask rfl
          rw [drive, hdone] at hdrive
          rw [probesAsked, hdone]
          obtain rfl := Option.some.inj hdrive
          exact ⟨fun _ => ⟨2, ends_of_asks hasks hanswers hask⟩, fun hbad => absurd (by simp) hbad⟩
      | some live =>
          have hprobe : nextLiveSet hunt = (some live, (nextLiveSet hunt).2) := Prod.ext hask rfl
          have hlive : (nextLiveSet hunt).2.inFlight = live := nextLiveSet_inFlight hask
          have hcontext := nextLiveSet_context hunt
          simp only [HuntState.context, Prod.mk.injEq] at hcontext
          obtain ⟨-, hloaded, -, hstill, hoffsets, hload⟩ := hcontext
          have hsame : context.reporterOf (nextLiveSet hunt).2 = reporter := by
            rw [reporterOf, hloaded]
            exact hreporter
          have hstock : atStock (nextLiveSet hunt).2 reporter = false ↔
              reporter ∈ live ∧ (vector.lookup reporter).getD 0 ≠ 0 := by
            simp [atStock, hlive, hoffsets, hvector]
          rw [drive, hprobe] at hdrive
          rw [probesAsked, hprobe]
          have hleft := hasks.left
          obtain ⟨serial, launch, hworkers, hqueue, hlaunches⟩ : ∃ serial launch,
              (context.advance reports loop).workers = [(serial, launch)] ∧ _ :=
            launches_first hasks.workers hasks.queue hasks.ready hasks.left hprobe hlive
          rw [hasks.answers] at hlaunches
          obtain ⟨hanswered, hhalts⟩ := probe_answered hjudged (hstill.trans harmed)
            (show Aggregate (nextLiveSet hunt).2 by rw [Aggregate, hload]; exact haggregate)
            (hsame.symm ▸ hknown) hworkers hqueue hlaunches rfl
          rw [hlive, hsame] at hanswered hhalts
          -- A probe that agrees with the reporter is recorded, and the next one is asked.
          by_cases hconsistent : meets culprits live = true →
              reporter ∈ live ∧ (vector.lookup reporter).getD 0 ≠ 0
          · obtain ⟨n, hnext⟩ : ∃ n, Asks ((context.advance reports)^[n] loop)
                (record (nextLiveSet hunt).2 (meets culprits live) context.limit)
                (answers ++ [(live, meets culprits live)]) :=
              exists_advance_of_exists (Asks · _ _) 1
                (hanswered fun hmeets => hstock.mpr (hconsistent hmeets))
            have hrecord := record_context (nextLiveSet hunt).2 (meets culprits live) context.limit
            simp only [HuntState.context, Prod.mk.injEq] at hrecord
            obtain ⟨-, hloaded', -, hstill', hoffsets', hload'⟩ := hrecord
            have hanswers' : MasksAnswer culprits (answers ++ [(live, meets culprits live)]) := by
              intro entry hentry
              rcases List.mem_append.mp hentry with hold | hnew
              · exact hanswers entry hold
              · rw [List.mem_singleton.mp hnew]
            obtain ⟨hends, hhalted⟩ := ih (by rw [← hsame, reporterOf, hloaded', reporterOf])
              (by rw [hoffsets', hoffsets, hvector]) (by rw [hstill', hstill, harmed])
              (by rw [Aggregate, hload', hload]; exact haggregate) hdrive hnext hanswers'
            refine ⟨fun hall => ?_, fun hbad => ?_⟩
            · exact exists_advance_of_exists (Ends · _ _) n
                (hends fun other hother => hall other (List.mem_cons_of_mem _ hother))
            · refine exists_advance_of_exists Halted n (hhalted fun hall => hbad ?_)
              exact List.forall_mem_cons.mpr ⟨hconsistent, hall⟩
          · refine ⟨fun hall => absurd (hall live List.mem_cons_self) hconsistent, fun _ => ?_⟩
            -- The probe fails on a reporter that it left at stock, and the loop halts here.
            obtain ⟨hmeets, hfree⟩ := Classical.not_imp.mp hconsistent
            have hevidence : atStock (nextLiveSet hunt).2 reporter = true := by
              by_contra hlively
              exact hfree (hstock.mp (by simpa using hlively))
            exact exists_advance_of_exists Halted 1 (hhalts hmeets hevidence)

/-! ### The hunt from its opening on -/

theorem mem_of_mem_loadedCores {loaded : List CoreId} {core : CoreId}
    (hcore : core ∈ context.loadedCores loaded) : core ∈ context.coreIds := by
  unfold loadedCores at hcore
  split at hcore
  · exact mem_sorted.mp (List.mem_of_mem_take hcore)
  · next hknown => simpa using (List.mem_filter.mp hcore).2

theorem loadedCores_ne_nil (hne : context.coreIds ≠ []) (loaded : List CoreId) :
    context.loadedCores loaded ≠ [] := by
  unfold loadedCores
  split
  · simpa using hne
  · next hknown => exact hknown

/-- The reporter is a core of the session. -/
theorem reporterOf_mem (hne : context.coreIds ≠ []) (hunt : HuntState) :
    context.reporterOf hunt ∈ context.coreIds := by
  apply mem_of_mem_loadedCores
  unfold reporterOf
  cases hloaded : context.loadedCores hunt.loaded with
  | nil => exact absurd hloaded (loadedCores_ne_nil hne hunt.loaded)
  | cons first rest => simp

/-- A candidate has an offset of its own in the crash vector. -/
theorem lookup_ne_zero_of_candidate {vector : List (CoreId × Int)}
    (hkeys : (vector.map Prod.fst).Nodup) {core : CoreId}
    (hcore : core ∈ context.huntCandidates vector) :
    core ∈ context.coreIds ∧ (vector.lookup core).getD 0 ≠ 0 := by
  rw [huntCandidates, mem_sorted, List.mem_map] at hcore
  obtain ⟨⟨key, offset⟩, hentry, rfl⟩ := hcore
  obtain ⟨hmem, hlive⟩ := List.mem_filter.mp hentry
  obtain ⟨hknown, hoffset⟩ : key ∈ context.coreIds ∧ offset ≠ 0 := by simpa using hlive
  have hlookup : vector.lookup key = some offset := by
    obtain ⟨before, after, rfl⟩ := List.append_of_mem hmem
    refine List.lookup_eq_some_iff.mpr ⟨before, after, rfl, fun entry hbefore => ?_⟩
    rw [List.map_append, List.map_cons] at hkeys
    have hapart := (List.nodup_append.mp hkeys).2.2 entry.1
      (List.mem_map.mpr ⟨entry, hbefore, rfl⟩) key List.mem_cons_self
    simpa using hapart.symm
  exact ⟨hknown, by simpa [hlookup] using hoffset⟩

/-- The engine that has opened a hunt is about to ask its first question. -/
theorem asks_opening {loaded : List CoreId} {seconds : ℚ}
    {vector : List (CoreId × Int)} {workload : Option WorkloadEntry} {opened : HuntState}
    (hne : context.huntCandidates vector ≠ [])
    (hbegin : begin (context.huntCandidates vector) (context.loadedCores loaded) seconds =
      .ok opened) :
    ∃ asking : HuntLoop, Asks asking { opened with vector, workload } [] ∧
      context.advance reports asking = context.opening seconds loaded vector workload := by
  let started := ({ hunting := true } : HuntMemory).save { opened with vector, workload }
  refine ⟨{ memory := started, queue := [.task .nextHuntSlot] },
    ⟨rfl, rfl, ⟨rfl, rfl, rfl, rfl, rfl⟩, rfl, rfl⟩, ?_⟩
  have hopening : context.startHunt {} seconds loaded vector workload {} =
      context.runNextHuntSlot started {} := by
    unfold startHunt
    dsimp only
    rw [if_neg hne, hbegin]
  have hmemory : ∀ (memory : HuntMemory) (reaction : HuntReaction),
      ({ memory } : HuntLoop).proceed reaction = ({ memory := {} } : HuntLoop).proceed reaction := by
    rintro memory ⟨after, writes, stops, next⟩
    cases stops <;> rfl
  rw [opening, hopening, ← hmemory started]
  simp [advance, nextEvent, Program.system, Program.take, huntProgram]

/-- **Judged by the mask, as far as the reporter allows.**  A hunt over an aggregate load
answers every probe as its mask does, is not paused and charges exactly the culprits when
a single core held a live offset, or when the core that the worker reports under is the only
culprit, and in no other case. -/
theorem judged_by_mask_iff (context : HuntContext) {seconds : ℚ} {loaded : List CoreId}
    {vector : List (CoreId × Int)} {workload : Option WorkloadEntry} {opened : HuntState}
    {culprits : Finset CoreId} {reports : Reports} (hkeys : (vector.map Prod.fst).Nodup)
    (hworkload : workload.bind (·.kind) = some "rapid_transition" ∨
      workload.bind (·.kind) = some "soak")
    (hbegin : begin (context.huntCandidates vector) (context.loadedCores loaded) seconds =
      .ok opened)
    (hsub : culprits ⊆ (context.huntCandidates vector).toFinset) (hsome : culprits.Nonempty)
    (hjudged : JudgedByMask context culprits reports) :
    (∃ n final,
      Ends ((context.advance reports)^[n] (context.opening seconds loaded vector workload))
        culprits final ∧
      context.Charges final culprits) ↔
    (context.huntCandidates vector).length = 1 ∨ culprits = {context.reporterOf opened} := by
  obtain ⟨hcandidates, hloaded, -, rfl⟩ := begin_eq_ok_iff.mp hbegin
  have hcores : context.coreIds ≠ [] := by
    intro hnone
    obtain ⟨core, hcore⟩ := List.exists_mem_of_ne_nil _ hloaded.1
    simpa [hnone] using mem_of_mem_loadedCores hcore
  have hcandidate : ∀ core, core ∈ context.huntCandidates vector →
      core ∈ context.coreIds ∧ (vector.lookup core).getD 0 ≠ 0 := fun core =>
    lookup_ne_zero_of_candidate hkeys
  have hknown := reporterOf_mem hcores
    (Bisect.opened (context.huntCandidates vector) (context.loadedCores loaded) seconds)
  generalize hreporter : context.reporterOf
    (Bisect.opened (context.huntCandidates vector) (context.loadedCores loaded) seconds) = reporter
    at hknown ⊢
  -- The search alone, without the event loop: where it ends, and when it is right.
  obtain ⟨fuel, final, hdrive, hstage, hfound, hlive, hiff⟩ := reporter_in_failing_iff
    (context.loadedCores loaded) seconds vector workload reporter context.one_le_limit
    hcandidates.1 hsub hsome
  have hcharges := charges_iff hstage hfound (fun core hcore => (hcandidate core (hlive hcore)).1)
    culprits
  obtain ⟨asking, hasks, hopening⟩ : ∃ asking : HuntLoop,
      Asks asking { Bisect.opened (context.huntCandidates vector) (context.loadedCores loaded)
        seconds with vector, workload } [] ∧
      context.advance reports asking = context.opening seconds loaded vector workload :=
    asks_opening hcandidates.1 hbegin
  -- The event loop follows the search for as long as no failure contradicts its probe.
  obtain ⟨hends, hhalts⟩ := run_of_drive hjudged
    (show context.reporterOf { Bisect.opened (context.huntCandidates vector)
      (context.loadedCores loaded) seconds with vector, workload } = reporter from hreporter)
    hknown rfl rfl hworkload hdrive hasks (fun entry hentry => absurd hentry List.not_mem_nil)
  constructor
  · rintro ⟨n, last, hlast, hlastCharges⟩
    rw [← hopening, ← Function.iterate_succ_apply] at hlast
    -- A run that has ended was not halted before, so every failing probe had the reporter live.
    by_cases hconsistent : ∀ live ∈ probesAsked (meets culprits) context.limit fuel
        { Bisect.opened (context.huntCandidates vector) (context.loadedCores loaded) seconds with
          vector, workload },
        meets culprits live = true → reporter ∈ live ∧ (vector.lookup reporter).getD 0 ≠ 0
    · obtain ⟨m, hm⟩ := hends hconsistent
      have hsame := advance_rest_unique hlast.rests hm.rests
      obtain rfl : final = last := by
        have hresolved := hlast.resolved
        rw [hsame, hm.resolved] at hresolved
        exact Option.some.inj hresolved
      exact hiff.mp ⟨fun live hasked hfails => (hconsistent live hasked hfails).1,
        hcharges.mp hlastCharges⟩
    · obtain ⟨m, hrests, hpaused⟩ := hhalts hconsistent
      have hunpaused := hlast.unpaused
      rw [advance_rest_unique hlast.rests hrests, hpaused] at hunpaused
      cases hunpaused
  · intro hcase
    obtain ⟨hmember, hall⟩ := hiff.mpr hcase
    have hconsistent : ∀ live ∈ probesAsked (meets culprits) context.limit fuel
        { Bisect.opened (context.huntCandidates vector) (context.loadedCores loaded) seconds with
          vector, workload },
        meets culprits live = true → reporter ∈ live ∧ (vector.lookup reporter).getD 0 ≠ 0 := by
      rcases hcase with hlone | rfl
      · rw [probesAsked_of_lone hlone]
        simp
      · intro live hasked hfails
        exact ⟨hmember live hasked hfails,
          (hcandidate reporter (by simpa using hsub)).2⟩
    obtain ⟨n, hn⟩ := hends hconsistent
    cases n with
    | zero =>
        have hrests := hn.rests
        simp [Loop.flows, hasks.queue] at hrests
    | succ n =>
        rw [Function.iterate_succ_apply, hopening] at hn
        exact ⟨n, final, hn, hcharges.mpr hall⟩

/-- Every launch ends as its mask does. -/
def reportMask (culprits : Finset CoreId) : Reports := fun _ launch _ =>
  { core := launch.reporter
    passed := !meets culprits launch.live
    errorType := if meets culprits launch.live then some .computation else none }

theorem judgedByMask_reportMask (context : HuntContext) (culprits : Finset CoreId) :
    JudgedByMask context culprits (reportMask culprits) where
  reporter := fun _ _ _ _ => rfl
  fails := fun _ launch _ hpassed => by simpa [reportMask] using hpassed
  last := fun _ launch hmeets => by simp [reportMask, hmeets]
  verdict := fun _ launch _ hpassed => by
    have hmeets : meets culprits launch.live = true := by simpa [reportMask] using hpassed
    simp only [reportMask, hmeets, if_true]
    decide
  unnamed := fun _ _ _ event hevent => absurd hevent List.not_mem_nil

/-- Rapid transitions over both cores, which report under core 0, convict core 0. -/
theorem judged_by_mask_reporter :
    ∃ n final,
      Ends ((twoCores.advance (reportMask {0}))^[n] (twoCores.opening 0 [0, 1]
        [(0, -10), (1, -20)] (some { kind := some "rapid_transition" }))) {0} final ∧
      twoCores.Charges final {0} :=
  (judged_by_mask_iff twoCores (by decide) (.inl rfl)
    (begin_eq_ok_iff.mpr ⟨by decide, by decide, le_refl 0, rfl⟩) (by decide) (by decide)
    (judgedByMask_reportMask twoCores {0})).mpr (.inr (by decide))

/-- With core 1 at fault, the probe of core 1 fails, and is reported under core 0, which is at
stock: the engine pauses, and the failure is not recorded. -/
theorem judged_by_mask_paused :
    JudgedByMask twoCores {1} (reportMask {1}) ∧
    ((twoCores.advance (reportMask {1}))^[5] (twoCores.opening 0 [0, 1]
        [(0, -10), (1, -20)] (some { kind := some "rapid_transition" }))).flows = 0 ∧
    ((twoCores.advance (reportMask {1}))^[5] (twoCores.opening 0 [0, 1]
        [(0, -10), (1, -20)] (some { kind := some "rapid_transition" }))).memory.paused = true ∧
    ((twoCores.advance (reportMask {1}))^[5] (twoCores.opening 0 [0, 1]
        [(0, -10), (1, -20)] (some { kind := some "rapid_transition" }))).memory.answers =
      [([0], false)] :=
  ⟨judgedByMask_reportMask twoCores {1}, by decide +kernel, by decide +kernel, by decide +kernel⟩

end HuntContext

end Tuner
end CoreCycler
