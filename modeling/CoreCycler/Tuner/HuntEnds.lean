import CoreCycler.Library.Descent
import CoreCycler.Tuner.HuntLedger

/-!
# Every hunt ends

Alternating `nextLiveSet` and `record`, a hunt over `n` cores is over after at most
`1 + (n - 1) (2m + 1)` answered probes, whatever is answered.  The potential of the search it
represents bounds the probes; the ledger of that search keeps what is found free of
repetitions.
-/

namespace CoreCycler
namespace Tuner
namespace Bisect

open Library Library.GroupTesting

variable {maxNoReproduce : Nat} {candidates loaded : List CoreId} {state : HuntState}
  {search : Search CoreId} {root : List CoreId}

/-- The hunt after the first answered probes. -/
abbrev afterProbes (maxNoReproduce : Nat) : HuntState → (ℕ → Bool) → ℕ → HuntState :=
  Descent.answered fun state reproduced => record (nextLiveSet state).2 reproduced maxNoReproduce

/-- The hunt has nothing more to ask, and says how it ended. -/
def Over (state : HuntState) : Prop :=
  (nextLiveSet state).1 = none ∧
    ((nextLiveSet state).2.stage = .culprit ∨ (nextLiveSet state).2.stage = .exhausted)

/-- The next probe loads some of the candidates. -/
def AsksAmong (candidates : List CoreId) (state : HuntState) : Prop :=
  ∃ live, (nextLiveSet state).1 = some live ∧ live ≠ [] ∧ live ⊆ candidates

/-- The cores found are in order, without repetitions, and candidates. -/
def FoundAmong (candidates : List CoreId) (state : HuntState) : Prop :=
  state.found.Pairwise (· < ·) ∧ state.found ⊆ candidates

/-- A hunt in the middle of a search over `root`. -/
structure Hunting (maxNoReproduce : Nat) (root : List CoreId) (state : HuntState)
    (search : Search CoreId) : Prop where
  represents : Represents state search
  wellFormed : search.WellFormed maxNoReproduce
  ledger : ∃ recorded, search.Ledger halving root recorded
  within : search.Within root

theorem Hunting.foundAmong (hhunting : Hunting maxNoReproduce root state search) :
    FoundAmong root state := by
  obtain ⟨recorded, hledger⟩ := hhunting.ledger
  have hfound := hhunting.represents.found_eq
  refine ⟨?_, ?_⟩
  · have hnodup : state.found.Nodup := by
      rw [hfound, (sorted_perm search.found).nodup_iff]
      exact (List.nodup_append.mp (List.nodup_append.mp hledger.nodup).1).1
    have hsorted : state.found.Pairwise (· ≤ ·) := hfound ▸ sorted_pairwise search.found
    exact (hsorted.and hnodup).imp fun ⟨hle, hne⟩ => lt_of_le_of_ne hle hne
  · intro core hcore
    rw [hfound, mem_sorted] at hcore
    exact hhunting.within.found_subset hcore

theorem Hunting.ask (hlimit : 1 ≤ maxNoReproduce)
    (hhunting : Hunting maxNoReproduce root state search) :
    Hunting maxNoReproduce root (nextLiveSet state).2 search.ask := by
  obtain ⟨recorded, hledger⟩ := hhunting.ledger
  exact ⟨(hhunting.represents.nextLiveSet hhunting.wellFormed).2.1,
    hhunting.wellFormed.ask hlimit, ⟨recorded, hledger.ask⟩, hhunting.within.ask⟩

theorem Hunting.asksAmong (hlimit : 1 ≤ maxNoReproduce)
    (hhunting : Hunting maxNoReproduce root state search) {live : List CoreId}
    (hquestion : search.ask.question halving = some live) :
    (nextLiveSet state).1 = some live ∧ live ≠ [] ∧ live ⊆ root := by
  obtain ⟨hanswer, hnext, -⟩ := hhunting.represents.nextLiveSet hhunting.wellFormed
  refine ⟨hanswer.trans hquestion, ?_, (hhunting.within.ask.question hquestion).subset⟩
  refine (hhunting.wellFormed.ask hlimit).question_ne_nil (fun probe hlead => ?_) hquestion
  have hshape := hnext.shape
  rw [hlead] at hshape
  obtain ⟨-, -, hlone, -⟩ := hshape
  exact List.ne_nil_of_length_pos (by omega)

/-- A hunt with nothing more to ask is over. -/
theorem Hunting.over (hhunting : Hunting maxNoReproduce root state search)
    (hquestion : search.ask.question halving = none) : Over state := by
  obtain ⟨hanswer, hnext, -⟩ := hhunting.represents.nextLiveSet hhunting.wellFormed
  have hshape := hnext.shape
  rw [Search.closed_of_question_ask hquestion] at hshape
  refine ⟨hanswer.trans hquestion, ?_⟩
  rw [hshape.1]
  split
  · exact .inl rfl
  · exact .inr rfl

/-- One answered probe keeps the hunt going on less potential. -/
theorem Hunting.answer (hlimit : 1 ≤ maxNoReproduce)
    (hhunting : Hunting maxNoReproduce root state search) {live : List CoreId}
    (hquestion : search.ask.question halving = some live) (reproduced : Bool) :
    Hunting maxNoReproduce root (record (nextLiveSet state).2 reproduced maxNoReproduce)
        (search.ask.answer halving maxNoReproduce reproduced) ∧
      (search.ask.answer halving maxNoReproduce reproduced).potential halving maxNoReproduce <
        search.potential halving maxNoReproduce := by
  obtain ⟨hanswer, hnext, hflight⟩ := hhunting.represents.nextLiveSet hhunting.wellFormed
  have hwf := hhunting.wellFormed.ask hlimit
  obtain ⟨recorded, hledger⟩ := hhunting.ledger
  refine ⟨⟨hnext.record hwf hquestion (hflight live (hanswer.trans hquestion)) reproduced,
    hwf.answer reproduced, ⟨_, hledger.ask.answer maxNoReproduce reproduced⟩,
    hhunting.within.ask.answer halving maxNoReproduce reproduced⟩, ?_⟩
  exact (Search.potential_answer_lt hwf (by simp [hquestion]) reproduced).trans_le
    (Search.potential_ask halving maxNoReproduce search)

/-- A hunt is over within its potential, every probe on the way loads some of the root, and
what is found stays among it. -/
theorem Hunting.ends (hlimit : 1 ≤ maxNoReproduce)
    (hhunting : Hunting maxNoReproduce root state search) (answers : ℕ → Bool) {bound : Nat}
    (hbound : search.potential halving maxNoReproduce ≤ bound) :
    ∃ probes ≤ bound, Over (afterProbes maxNoReproduce state answers probes) ∧
      (∀ earlier < probes, AsksAmong root (afterProbes maxNoReproduce state answers earlier)) ∧
      ∀ earlier ≤ probes,
        FoundAmong root (afterProbes maxNoReproduce state answers earlier) ∧
        FoundAmong root (nextLiveSet (afterProbes maxNoReproduce state answers earlier)).2 := by
  induction bound generalizing state search answers with
  | zero =>
      cases hquestion : search.ask.question halving with
      | none =>
          refine ⟨0, le_rfl, hhunting.over hquestion, by simp, fun earlier hle => ?_⟩
          rw [Nat.le_zero.mp hle]
          exact ⟨hhunting.foundAmong, (hhunting.ask hlimit).foundAmong⟩
      | some live =>
          -- An open question costs potential, and there is none left.
          have hlt := (hhunting.answer hlimit hquestion (answers 0)).2
          omega
  | succ bound ih =>
      cases hquestion : search.ask.question halving with
      | none =>
          refine ⟨0, Nat.zero_le _, hhunting.over hquestion, by simp, fun earlier hle => ?_⟩
          rw [Nat.le_zero.mp hle]
          exact ⟨hhunting.foundAmong, (hhunting.ask hlimit).foundAmong⟩
      | some live =>
          obtain ⟨hnext, hlt⟩ := hhunting.answer hlimit hquestion (answers 0)
          obtain ⟨probes, hle, hover, hasks, hfound⟩ :=
            ih hnext (fun index => answers (index + 1)) (by omega)
          refine ⟨probes + 1, by omega, ?_, fun earlier hearlier => ?_, fun earlier hearlier => ?_⟩
          · rwa [afterProbes, Descent.answered_shift]
          · cases earlier with
            | zero => exact ⟨live, hhunting.asksAmong hlimit hquestion⟩
            | succ earlier =>
                rw [afterProbes, Descent.answered_shift]
                exact hasks earlier (by omega)
          · cases earlier with
            | zero => exact ⟨hhunting.foundAmong, (hhunting.ask hlimit).foundAmong⟩
            | succ earlier =>
                rw [afterProbes, Descent.answered_shift]
                exact hfound earlier (by omega)

theorem potential_opened (candidates loaded : List CoreId) (maxNoReproduce : Nat) :
    (openedSearch candidates loaded).potential halving maxNoReproduce ≤
      1 + (candidates.length - 1) * (2 * maxNoReproduce + 1) := by
  rw [Search.potential, openedSearch]
  split_ifs with hlead
  · simp [Search.pendingCost, Search.groupCost, Nat.add_comm]
  · simp [Search.pendingCost, Search.groupCost]

/-- **Every hunt ends.**  Whatever the probes answer, a hunt opened over `n` cores is over
after at most `1 + (n - 1) (2m + 1)` of them; each loads some of the candidates, and the cores
found are always in order, without repetitions, and candidates. -/
theorem every_hunt_ends {observedFailureTime : ℚ} (hlimit : 1 ≤ maxNoReproduce)
    (hbegin : begin candidates loaded observedFailureTime = .ok state) (answers : ℕ → Bool) :
    ∃ probes ≤ 1 + (candidates.length - 1) * (2 * maxNoReproduce + 1),
      Over (afterProbes maxNoReproduce state answers probes) ∧
      (∀ earlier < probes,
        AsksAmong candidates (afterProbes maxNoReproduce state answers earlier)) ∧
      ∀ earlier ≤ probes,
        FoundAmong candidates (afterProbes maxNoReproduce state answers earlier) ∧
        FoundAmong candidates
          (nextLiveSet (afterProbes maxNoReproduce state answers earlier)).2 := by
  obtain ⟨⟨hne, hnodup, -⟩, -, -, rfl⟩ := begin_eq_ok_iff.mp hbegin
  have hhunting : Hunting maxNoReproduce (sorted candidates)
      (opened candidates loaded observedFailureTime) (openedSearch candidates loaded) :=
    ⟨represents_opened candidates loaded observedFailureTime,
      wellFormed_opened hne loaded maxNoReproduce, ⟨[], ledger_opened hnodup loaded⟩,
      within_opened candidates loaded⟩
  obtain ⟨probes, hle, hover, hasks, hfound⟩ :=
    hhunting.ends hlimit answers (potential_opened candidates loaded maxNoReproduce)
  have hmembers : ∀ {cores : List CoreId}, cores ⊆ sorted candidates → cores ⊆ candidates :=
    fun hsub core hcore => mem_sorted.mp (hsub hcore)
  refine ⟨probes, hle, hover, fun earlier hlt => ?_, fun earlier hearlier => ?_⟩
  · obtain ⟨live, hlive, hsome, hsub⟩ := hasks earlier hlt
    exact ⟨live, hlive, hsome, hmembers hsub⟩
  · obtain ⟨hbefore, hafter⟩ := hfound earlier hearlier
    exact ⟨⟨hbefore.1, hmembers hbefore.2⟩, ⟨hafter.1, hmembers hafter.2⟩⟩

/-- A hunt over four cores with two tries, all of whose probes come back clean, is over after
at most 16. -/
theorem every_hunt_ends_clean :
    ∃ probes ≤ 16, Over (afterProbes 2 (opened [0, 1, 2, 3] [0, 1] 5) (fun _ => false) probes) := by
  obtain ⟨probes, hle, hover, -⟩ := every_hunt_ends (by decide : 1 ≤ 2)
    (begin_eq_ok_iff.mpr ⟨by decide, by decide, by decide, rfl⟩ :
      begin [0, 1, 2, 3] [0, 1] 5 = .ok _) fun _ => false
  exact ⟨probes, hle, hover⟩

end Bisect
end Tuner
end CoreCycler
