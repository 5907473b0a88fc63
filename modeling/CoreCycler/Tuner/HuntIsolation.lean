import CoreCycler.Tuner.BisectSearch

/-!
# What a hunt finds

`drive` puts every probe of a hunt to a deterministic oracle.  It always comes to
an end, with the hunt's potential as a bound on the probes, and what it convicts
is `isolate` on the live cores, or the lone loaded core when that core alone
reproduces the failure.
-/

namespace CoreCycler
namespace Tuner
namespace Bisect

open Library.GroupTesting

/-! ## Opening a hunt -/

/-- A set of cores a hunt can open over: nonempty, without repetitions, and with
persistable IDs. -/
def Admissible (cores : List CoreId) : Prop :=
  cores ≠ [] ∧ cores.Nodup ∧ ∀ core ∈ cores, core ≤ maxInteger

instance (cores : List CoreId) : Decidable (Admissible cores) :=
  inferInstanceAs (Decidable (_ ∧ _ ∧ _))

@[simp] theorem ok_bind {α β : Type} (value : α) (next : α → Except String β) :
    (Except.ok value >>= next) = next value := rfl

@[simp] theorem error_bind {α β : Type} (message : String) (next : α → Except String β) :
    (Except.error message >>= next) = .error message := rfl

/-- The hunt `begin` builds. -/
def opened (candidates loaded : List CoreId) (observedFailureTime : ℚ) : HuntState :=
  { stage := if leadProbe (sorted candidates) (sorted loaded) ≠ [] then .lead else .probe
    candidates := sorted candidates
    pending := [sorted candidates]
    observedFailureTime := observedFailureTime
    loaded := sorted loaded }

theorem nodup_sortedSet (cores : List CoreId) : (sortedSet cores).Nodup :=
  (List.perm_insertionSort _ _).nodup_iff.mpr (List.nodup_dedup cores)

theorem sortedSet_sorted {cores : List CoreId} (hnodup : cores.Nodup) :
    sortedSet (sorted cores) = sorted cores := by
  have hsorted : (sorted cores).Nodup := (sorted_perm cores).nodup_iff.mpr hnodup
  rw [sortedSet, hsorted.dedup]
  exact sorted_of_pairwise (sorted_pairwise cores)

theorem coreSet_sorted {cores : List CoreId} (hcores : Admissible cores) (name : String)
    (empty : Bool) : coreSet (sorted cores) name empty = .ok (sorted cores) := by
  obtain ⟨hne, hnodup, hbound⟩ := hcores
  have hany : ¬ (sorted cores).any (maxInteger < ·) = true := by
    simpa using hbound
  have hset : ¬ sorted cores ≠ sortedSet (sorted cores) := by
    simp [sortedSet_sorted hnodup]
  rw [coreSet, if_neg hany, if_neg (by simp [hne]), if_neg hset]

theorem admissible_of_coreSet {cores value : List CoreId} {name : String}
    (hok : coreSet (sorted cores) name false = .ok value) :
    Admissible cores ∧ value = sorted cores := by
  rw [coreSet] at hok
  split at hok
  · cases hok
  next hbound =>
  split at hok
  · cases hok
  next hne =>
  split at hok
  · cases hok
  next hset =>
  refine ⟨⟨by simpa using hne, ?_, by simpa using hbound⟩, (Except.ok.inj hok).symm⟩
  rw [← (sorted_perm cores).nodup_iff, not_not.mp hset]
  exact nodup_sortedSet _

theorem validateState_opened {candidates loaded : List CoreId} {observedFailureTime : ℚ}
    (hcandidates : Admissible candidates) (hloaded : Admissible loaded)
    (htime : 0 ≤ observedFailureTime) :
    validateState (opened candidates loaded observedFailureTime) = .ok () := by
  have hcounter : ∀ name, counter 0 name = .ok 0 := fun name => rfl
  have hduration : duration observedFailureTime "observed_failure_time" =
      .ok observedFailureTime := by
    rw [duration, if_neg (not_lt.mpr htime)]
  have hempty : ∀ name, coreSet [] name true = .ok [] := fun name => rfl
  have hpending : [sorted candidates].mapM (coreSet · "pending set" false) =
      .ok [sorted candidates] := by
    simp [coreSet_sorted hcandidates]
  by_cases hlead : leadProbe (sorted candidates) (sorted loaded) = []
  · simp [validateState, opened, hlead, coreSet_sorted hcandidates, coreSet_sorted hloaded,
      hcounter, hduration, hempty, hpending, disjoint, refuse, validateProbe]
  · simp [validateState, opened, hlead, coreSet_sorted hcandidates, coreSet_sorted hloaded,
      hcounter, hduration, hempty, hpending, disjoint, refuse, validateLead]

/-- `begin` refuses exactly the sets and times it checks for. -/
theorem begin_eq_ok_iff {candidates loaded : List CoreId} {observedFailureTime : ℚ}
    {state : HuntState} :
    begin candidates loaded observedFailureTime = .ok state ↔
      Admissible candidates ∧ Admissible loaded ∧ 0 ≤ observedFailureTime ∧
        state = opened candidates loaded observedFailureTime := by
  constructor
  · intro hok
    rw [begin] at hok
    cases huniverse : coreSet (sorted candidates) "candidates" false with
    | error message => simp [huniverse] at hok
    | ok universeSet =>
        obtain ⟨hcandidates, rfl⟩ := admissible_of_coreSet huniverse
        cases hset : coreSet (sorted loaded) "loaded" false with
        | error message => simp [huniverse, hset] at hok
        | ok loadedSet =>
            obtain ⟨hloaded, rfl⟩ := admissible_of_coreSet hset
            by_cases htime : observedFailureTime < 0
            · simp [huniverse, hset, duration, htime] at hok
            · have hvalid := validateState_opened hcandidates hloaded (not_lt.mp htime)
              simp only [opened] at hvalid
              simp only [huniverse, hset, duration, htime, ok_bind, if_false, hvalid] at hok
              exact ⟨hcandidates, hloaded, not_lt.mp htime, (Except.ok.inj hok).symm⟩
  · rintro ⟨hcandidates, hloaded, htime, rfl⟩
    have hvalid := validateState_opened hcandidates hloaded htime
    simp only [opened] at hvalid
    simp only [begin, coreSet_sorted hcandidates, coreSet_sorted hloaded, duration,
      if_neg (not_lt.mpr htime), ok_bind, hvalid]
    rfl

/-! ## Driving a hunt -/

/-- Put probes to `oracle` until the hunt asks nothing more.  `none` means that
the fuel ran out first. -/
def drive (oracle : List CoreId → Bool) (maxNoReproduce : Nat) : Nat → HuntState → Option HuntState
  | 0, _ => none
  | fuel + 1, state =>
      match nextLiveSet state with
      | (none, final) => some final
      | (some live, probing) =>
          drive oracle maxNoReproduce fuel (record probing (oracle live) maxNoReproduce)

/-- The search a hunt opens with. -/
def openedSearch (candidates loaded : List CoreId) : Search CoreId :=
  { focus :=
      if leadProbe (sorted candidates) (sorted loaded) ≠ [] then
        .lead (leadProbe (sorted candidates) (sorted loaded))
      else .idle
    pending := [sorted candidates]
    found := []
    retries := 0 }

theorem represents_opened (candidates loaded : List CoreId) (observedFailureTime : ℚ) :
    Represents (opened candidates loaded observedFailureTime)
      (openedSearch candidates loaded) := by
  refine ⟨rfl, rfl, rfl, ?_⟩
  by_cases hlead : leadProbe (sorted candidates) (sorted loaded) = []
  · simp [Shape, openedSearch, opened, hlead]
  · have hlone := (leadProbe_eq_nil_or (sorted candidates) (sorted loaded)).resolve_left hlead
    simp [Shape, openedSearch, opened, hlead, hlone]

theorem wellFormed_opened {candidates : List CoreId} (hne : candidates ≠ [])
    (loaded : List CoreId) (maxNoReproduce : Nat) :
    (openedSearch candidates loaded).WellFormed maxNoReproduce := by
  by_cases hlead : leadProbe (sorted candidates) (sorted loaded) = []
  · constructor <;> simp [openedSearch, hlead, hne, Search.focusGroups]
  · constructor <;> simp [openedSearch, hlead, hne, Search.focusGroups]

variable {oracle : List CoreId → Bool} {candidates loaded target : List CoreId}
  {state : HuntState} {search : Search CoreId} {maxNoReproduce : Nat}

/-- When the lead probe, if any, passes, the account of an opened hunt is what
bisection isolates in the live cores. -/
theorem traced_opened (hfails : oracle (sorted candidates) = true)
    (hlead : leadProbe (sorted candidates) (sorted loaded) ≠ [] →
      oracle (leadProbe (sorted candidates) (sorted loaded)) = false) :
    (openedSearch candidates loaded).Traced halving oracle
      (isolate halving oracle (sorted candidates)) := by
  by_cases hnone : leadProbe (sorted candidates) (sorted loaded) = []
  · constructor <;>
      simp [openedSearch, hnone, hfails, Search.focusGroups, Search.focusAnswer]
  · have hpass := hlead hnone
    constructor <;>
      simp [openedSearch, hnone, hfails, hpass, Search.focusGroups, Search.focusAnswer]

/-- **Driving a traced hunt.**  The potential bounds the probes, and the hunt ends
with its account. -/
theorem drive_of_traced (hlimit : 1 ≤ maxNoReproduce) (hrep : Represents state search)
    (hwf : search.WellFormed maxNoReproduce)
    (htraced : search.Traced halving oracle target)
    (hsorted : target.Pairwise (· ≤ ·)) (hne : target ≠ []) {fuel : Nat}
    (hfuel : search.potential halving maxNoReproduce < fuel) :
    ∃ final, drive oracle maxNoReproduce fuel state = some final ∧
      final.stage = .culprit ∧ final.found = target := by
  -- Each answer lowers the potential of the search, which the fuel exceeds.
  induction fuel generalizing state search with
  | zero => omega
  | succ fuel ih =>
      obtain ⟨hanswer, hnext, hflight⟩ := hrep.nextLiveSet hwf
      have hwfAsk := hwf.ask hlimit
      have htracedAsk := htraced.ask
      cases hquestion : search.ask.question halving with
      | none =>
          have hclosed := Search.closed_of_question_ask hquestion
          have hshape := hnext.shape
          rw [hclosed] at hshape
          have hperm : search.ask.found.Perm target := by
            have haccounts := htracedAsk.accounts
            rw [hwfAsk.closed_pending hclosed] at haccounts
            simpa [Search.focusAnswer, Search.focusGroups, hclosed] using haccounts
          have hfound : (nextLiveSet state).2.found = target := by
            rw [hnext.found_eq, sorted_eq_of_perm hperm, sorted_of_pairwise hsorted]
          have hdone : nextLiveSet state = (none, (nextLiveSet state).2) :=
            Prod.ext (hanswer.trans hquestion) rfl
          refine ⟨(nextLiveSet state).2, ?_, ?_, hfound⟩
          · rw [drive, hdone]
          · rw [hshape.1, hfound, if_pos hne]
      | some live =>
          have hprobe : nextLiveSet state = (some live, (nextLiveSet state).2) :=
            Prod.ext (hanswer.trans hquestion) rfl
          have hlive : (nextLiveSet state).2.inFlight = live := hflight live (by rw [hprobe])
          have hopen : (search.ask.question halving).isSome := by simp [hquestion]
          have hlt := Search.potential_answer_lt hwfAsk hopen (oracle live)
          have hle := Search.potential_ask halving maxNoReproduce search
          obtain ⟨final, hfinal, hends⟩ := ih (hnext.record hwfAsk hquestion hlive (oracle live))
            (hwfAsk.answer (oracle live)) (htracedAsk.answer hwfAsk hquestion) (by omega)
          refine ⟨final, ?_, hends⟩
          rw [drive, hprobe]
          exact hfinal

/-- A lead probe that reproduces ends the hunt at once. -/
theorem drive_of_lead
    (hlead : leadProbe (sorted candidates) (sorted loaded) ≠ [])
    (hreproduces : oracle (leadProbe (sorted candidates) (sorted loaded)) = true)
    (observedFailureTime : ℚ) (fuel : Nat) :
    ∃ final,
      drive oracle maxNoReproduce (fuel + 2) (opened candidates loaded observedFailureTime) =
        some final ∧
      final.stage = .culprit ∧
      final.found = leadProbe (sorted candidates) (sorted loaded) := by
  have hask : nextLiveSet (opened candidates loaded observedFailureTime) =
      (some (leadProbe (sorted candidates) (sorted loaded)), _) :=
    nextLiveSet_of_lead (by simp [opened, hlead]) rfl
  rw [drive, hask]
  simp only [hreproduces]
  rw [record_of_lead (by simp [opened, hlead]), if_pos rfl, drive,
    nextLiveSet_of_done (.inl rfl)]
  exact ⟨_, rfl, rfl, rfl⟩

/-! ## The answer -/

/-- What a hunt has to find: the lone loaded live core when it fails on its own
and others are live, and otherwise whatever halving isolates. -/
def reference (oracle : List CoreId → Bool) (candidates loaded : List CoreId) : List CoreId :=
  match loaded.filter (· ∈ candidates) with
  | [lead] =>
      if 2 ≤ candidates.length ∧ oracle [lead] = true then [lead]
      else isolate halving oracle (sorted candidates)
  | _ => isolate halving oracle (sorted candidates)

/-- Driven with enough fuel, the hunt stops with `found` convicted. -/
def EndsWith (oracle : List CoreId → Bool) (maxNoReproduce : Nat) (state : HuntState)
    (found : List CoreId) : Prop :=
  ∃ probes, ∀ fuel, probes ≤ fuel →
    ∃ final, drive oracle maxNoReproduce fuel state = some final ∧
      final.stage = .culprit ∧ final.found = found

theorem leadProbe_sorted (candidates loaded : List CoreId) :
    leadProbe (sorted candidates) (sorted loaded) =
      match loaded.filter (· ∈ candidates) with
      | [lead] => if 2 ≤ candidates.length then [lead] else []
      | _ => [] := by
  have hperm : ((sorted loaded).filter (· ∈ sorted candidates)).Perm
      (loaded.filter (· ∈ candidates)) := by
    simpa using (sorted_perm loaded).filter (· ∈ candidates)
  simp only [leadProbe, hperm.length_eq, length_sorted]
  cases hlive : loaded.filter (· ∈ candidates) with
  | nil => simp
  | cons lead others =>
      cases others with
      | nil =>
          rw [hlive] at hperm
          rw [hperm.eq_singleton]
          simp [Nat.lt_iff_add_one_le]
      | cons _ _ => simp

theorem reference_of_lead (hlead : leadProbe (sorted candidates) (sorted loaded) ≠ [])
    (hreproduces : oracle (leadProbe (sorted candidates) (sorted loaded)) = true) :
    reference oracle candidates loaded = leadProbe (sorted candidates) (sorted loaded) := by
  rw [leadProbe_sorted] at hlead hreproduces ⊢
  rw [reference]
  cases hlive : loaded.filter (· ∈ candidates) with
  | nil => simp [hlive] at hlead
  | cons lead others =>
      cases others with
      | nil =>
          simp only [hlive, ite_ne_right_iff] at hlead
          simp only [hlive, if_pos hlead.1] at hreproduces
          simp only [hlead.1, hreproduces, and_self, if_true]
      | cons _ _ => simp [hlive] at hlead

theorem reference_of_passes
    (hpasses : leadProbe (sorted candidates) (sorted loaded) ≠ [] →
      oracle (leadProbe (sorted candidates) (sorted loaded)) = false) :
    reference oracle candidates loaded = isolate halving oracle (sorted candidates) := by
  rw [leadProbe_sorted] at hpasses
  rw [reference]
  cases hlive : loaded.filter (· ∈ candidates) with
  | nil => rfl
  | cons lead others =>
      cases others with
      | nil =>
          simp only [hlive] at hpasses
          by_cases hmany : 2 ≤ candidates.length
          · simp only [if_pos hmany] at hpasses
            simp [hpasses (by simp)]
          · simp [hmany]
      | cons _ _ => rfl

/-- Bisection ends a hunt whose lead probe, if any, passes. -/
theorem endsWith_isolate (hlimit : 1 ≤ maxNoReproduce) (hne : candidates ≠ [])
    (hfails : oracle (sorted candidates) = true)
    (hpasses : leadProbe (sorted candidates) (sorted loaded) ≠ [] →
      oracle (leadProbe (sorted candidates) (sorted loaded)) = false)
    (observedFailureTime : ℚ) :
    EndsWith oracle maxNoReproduce (opened candidates loaded observedFailureTime)
      (isolate halving oracle (sorted candidates)) := by
  refine ⟨(openedSearch candidates loaded).potential halving maxNoReproduce + 1, ?_⟩
  intro fuel hfuel
  have hsorted : (isolate halving oracle (sorted candidates)).Pairwise (· ≤ ·) :=
    (sorted_pairwise candidates).sublist (isolate_sublist _)
  exact drive_of_traced hlimit (represents_opened candidates loaded observedFailureTime)
    (wellFormed_opened hne loaded maxNoReproduce) (traced_opened hfails hpasses) hsorted
    (isolate_ne_nil (by simpa using hne)) hfuel

/-- **Isolation.**  Against a deterministic oracle that fails on the live cores, a
hunt ends, whatever its retry limit, and convicts the reference answer.  When the
oracle fails exactly on the sets that meet `culprits` and no lead probe
reproduces, it convicts `culprits` and nobody else. -/
theorem hunt_isolates {observedFailureTime : ℚ}
    (hbegin : begin candidates loaded observedFailureTime = .ok state)
    (hfails : oracle (sorted candidates) = true) :
    (∀ maxNoReproduce, 1 ≤ maxNoReproduce →
      EndsWith oracle maxNoReproduce state (reference oracle candidates loaded)) ∧
    (∀ culprits : Finset CoreId, culprits ⊆ candidates.toFinset →
      (∀ live, oracle live = true ↔ ∃ core ∈ live, core ∈ culprits) →
      (∀ lead, leadProbe (sorted candidates) (sorted loaded) = [lead] → lead ∉ culprits) →
      ∃ found : List CoreId, found.toFinset = culprits ∧
        ∀ maxNoReproduce, 1 ≤ maxNoReproduce →
          EndsWith oracle maxNoReproduce state found) := by
  obtain ⟨⟨hne, -, -⟩, -, -, rfl⟩ := begin_eq_ok_iff.mp hbegin
  have hends : ∀ maxNoReproduce, 1 ≤ maxNoReproduce →
      EndsWith oracle maxNoReproduce (opened candidates loaded observedFailureTime)
        (reference oracle candidates loaded) := by
    intro maxNoReproduce hlimit
    -- A lead that reproduces is the answer; otherwise the search isolates it group by group.
    by_cases hlead : leadProbe (sorted candidates) (sorted loaded) ≠ [] ∧
        oracle (leadProbe (sorted candidates) (sorted loaded)) = true
    · obtain ⟨hlone, hreproduces⟩ := hlead
      rw [reference_of_lead hlone hreproduces]
      refine ⟨2, fun fuel hfuel => ?_⟩
      obtain ⟨more, rfl⟩ := Nat.exists_eq_add_of_le' hfuel
      exact drive_of_lead hlone hreproduces observedFailureTime more
    · have hpasses : leadProbe (sorted candidates) (sorted loaded) ≠ [] →
          oracle (leadProbe (sorted candidates) (sorted loaded)) = false := by
        simpa using hlead
      rw [reference_of_passes hpasses]
      exact endsWith_isolate hlimit hne hfails hpasses observedFailureTime
  refine ⟨hends, ?_⟩
  intro culprits hsub hmeets hclear
  refine ⟨reference oracle candidates loaded, ?_, hends⟩
  have hpasses : leadProbe (sorted candidates) (sorted loaded) ≠ [] →
      oracle (leadProbe (sorted candidates) (sorted loaded)) = false := by
    intro hlead
    obtain ⟨lead, hlone⟩ := List.length_eq_one_iff.mp
      ((leadProbe_eq_nil_or (sorted candidates) (sorted loaded)).resolve_left hlead)
    have hnot := hclear lead hlone
    rw [hlone, Bool.eq_false_iff, ne_eq, hmeets]
    simpa using hnot
  -- With independent culprits a part fails exactly if it has one of them.
  have htest : ∀ part : List CoreId, part.Sublist (sorted candidates) →
      oracle part = part.any (· ∈ culprits) := by
    intro part _
    rw [Bool.eq_iff_iff, hmeets]
    simp
  rw [reference_of_passes hpasses, isolate_eq_filter htest hfails]
  ext core
  constructor
  · simp
  · intro hcore
    have hlive : core ∈ candidates := by simpa using hsub hcore
    simp [hcore, hlive]

/-- Cores 1 and 3 of four fail only together, with core 3 the one under load. -/
theorem hunt_isolates_conjunction :
    EndsWith (fun live => decide (1 ∈ live) && decide (3 ∈ live)) 2
      (opened [3, 1, 0, 2] [3] 0) [0, 1, 2, 3] := by
  have hreference : reference (fun live => decide (1 ∈ live) && decide (3 ∈ live))
      [3, 1, 0, 2] [3] = [0, 1, 2, 3] := by
    rw [reference_of_passes (by decide), isolate_of_conjunction (by decide) (by decide)]
    decide
  rw [← hreference]
  exact (hunt_isolates (begin_eq_ok_iff.mpr ⟨by decide, by decide, by decide, rfl⟩)
    (by decide)).1 2 (by decide)

end Bisect
end Tuner
end CoreCycler
