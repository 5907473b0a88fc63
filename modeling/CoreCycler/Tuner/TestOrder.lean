import CoreCycler.Library.Rotation
import CoreCycler.Tuner.Bisect
import CoreCycler.Tuner.State

/-!
# The cyclic test orders

`round_robin` rotates over the available cores; `ccd_round_robin` turns to another CCD with
each pick and rotates within it.  A `SteadyRun` is a run of picks during which the available
cores stay the same, whatever else becomes of their states.

`round_robin` serves every core in each round.  `ccd_round_robin` turns to the lowest CCD but
the last one, so it never leaves the two lowest, and a core of unknown CCD, which counts as
one of CCD 0, does not move the cursor of that CCD: once picked, it is picked each time the
turn is on CCD 0.  Otherwise two rounds serve every core (`servesAll_iff`).
-/

namespace CoreCycler
namespace Tuner
namespace TestOrder

open Library Library.Rotation

/-- A core is available when it is neither in cooldown nor done. -/
def isCoreAvailable (cs : CoreState) : Bool :=
  if 0 < cs.crashCooldown then false else decide (cs.phase ≠ .confirmed)

def available (cores : List CoreState) : List CoreId :=
  (cores.filter isCoreAvailable).map (·.coreId)

/-- The available cores in ascending order. -/
def active (cores : List CoreState) : List CoreId :=
  (available cores).insertionSort (· ≤ ·)

/-- The positions that the picks of earlier tests leave behind. -/
structure Cursors where
  lastTestedCore : Option CoreId := none
  ccdLastTested : Nat → Option CoreId := fun _ => none

def pickRoundRobin (cores : List CoreState) (cursors : Cursors) : Option CoreId :=
  next (active cores) cursors.lastTestedCore

variable (ccd : CoreId → Option Nat)

/-- The CCD that a core counts for; a core of unknown CCD counts for CCD 0. -/
def ccdOf (core : CoreId) : Nat := (ccd core).getD 0

def sortedCcds (cores : List CoreState) : List Nat :=
  ((available cores).map (ccdOf ccd)).dedup.insertionSort (· ≤ ·)

/-- The available cores of one CCD, in ascending order. -/
def ccdCores (cores : List CoreState) (target : Nat) : List CoreId :=
  (active cores).filter fun core => decide (ccdOf ccd core = target)

/-- The first CCD but that of the last tested core. -/
def targetCcd (ccds : List Nat) : Option CoreId → Option Nat
  | some last => (ccds.find? fun index => decide (index ≠ ccdOf ccd last)).or ccds.head?
  | none => ccds.head?

def pickCcdRoundRobin (cores : List CoreState) (cursors : Cursors) : Option CoreId :=
  let ccds := sortedCcds ccd cores
  if ccds = [] then none
  else if ccds.length < 2 then pickRoundRobin cores cursors
  else (targetCcd ccd ccds cursors.lastTestedCore).bind fun target =>
    next (ccdCores ccd cores target) (cursors.ccdLastTested target)

/-- The test orders that keep a cursor to go round. -/
inductive CyclicOrder where
  | roundRobin
  | ccdRoundRobin
deriving DecidableEq, Repr

def pick (order : CyclicOrder) (cores : List CoreState) (cursors : Cursors) : Option CoreId :=
  match order with
  | .roundRobin => pickRoundRobin cores cursors
  | .ccdRoundRobin => pickCcdRoundRobin ccd cores cursors

/-- The cursors once a core is under test; only a known CCD has its cursor moved. -/
def Cursors.tested (cursors : Cursors) (core : CoreId) : Cursors where
  lastTestedCore := some core
  ccdLastTested :=
    match ccd core with
    | some index => Function.update cursors.ccdLastTested index (some core)
    | none => cursors.ccdLastTested

/-! ## Runs of picks -/

/-- Consecutive picks between which the available cores stay the same. -/
structure SteadyRun where
  order : CyclicOrder
  ccd : CoreId → Option Nat
  cursors : Cursors
  /-- The core states at each pick. -/
  cores : ℕ → List CoreState
  active : Finset CoreId
  distinct : ∀ n, ((cores n).map (·.coreId)).Nodup
  steady : ∀ n core, core ∈ available (cores n) ↔ core ∈ active

namespace SteadyRun

variable (run : SteadyRun)

def cursorsAt : ℕ → Cursors
  | 0 => run.cursors
  | n + 1 =>
      (pick run.ccd run.order (run.cores n) (cursorsAt n)).elim (cursorsAt n)
        ((cursorsAt n).tested run.ccd)

def pickAt (n : ℕ) : Option CoreId := pick run.ccd run.order (run.cores n) (run.cursorsAt n)

/-- Every window of two rounds has a pick of each core. -/
def ServesAll : Prop :=
  ∀ start, ∀ core ∈ run.active,
    ∃ offset < 2 * run.active.card, run.pickAt (start + offset) = some core

/-- The available cores, and those of one CCD, as the picks go through them. -/
def items : List CoreId := TestOrder.active (run.cores 0)

def ccds : List Nat := sortedCcds run.ccd (run.cores 0)

def bucket (target : Nat) : List CoreId :=
  run.items.filter fun core => decide (ccdOf run.ccd core = target)

end SteadyRun

/-- The available cores count for one CCD at most, or for two, where a core of unknown CCD
is the only one that counts for CCD 0. -/
def Served (active : Finset CoreId) : Prop :=
  (active.image (ccdOf ccd)).card ≤ 1 ∨
    ((active.image (ccdOf ccd)).card = 2 ∧ ∀ core ∈ active, ccd core = none →
      ∀ other ∈ active, ccdOf ccd other = 0 → other = core)

instance (active : Finset CoreId) : Decidable (Served ccd active) :=
  inferInstanceAs (Decidable (_ ∨ _))

/-! ## What does not change in a steady run -/

/-- Sorting forgets the order in which distinct items came. -/
theorem insertionSort_eq_of_mem_iff {first second : List Nat} (hfirst : first.Nodup)
    (hsecond : second.Nodup) (hmem : ∀ item, item ∈ first ↔ item ∈ second) :
    first.insertionSort (· ≤ ·) = second.insertionSort (· ≤ ·) := by
  apply List.Perm.eq_of_sortedLE List.sortedLE_insertionSort List.sortedLE_insertionSort
  calc first.insertionSort (· ≤ ·)
      |>.Perm first := List.perm_insertionSort _ _
    _ |>.Perm second := (List.perm_ext_iff_of_nodup hfirst hsecond).mpr hmem
    _ |>.Perm (second.insertionSort (· ≤ ·)) := (List.perm_insertionSort _ _).symm

theorem insertionSort_pairwise_lt {items : List Nat} (hnodup : items.Nodup) :
    (items.insertionSort (· ≤ ·)).Pairwise (· < ·) := by
  have hsorted : (items.insertionSort (· ≤ ·)).Pairwise (· ≤ ·) := List.pairwise_insertionSort _ _
  have hdistinct : (items.insertionSort (· ≤ ·)).Pairwise (· ≠ ·) :=
    (List.perm_insertionSort _ items).nodup_iff.mpr hnodup
  exact hsorted.imp₂ (fun _ _ hle hne => lt_of_le_of_ne hle hne) hdistinct

namespace SteadyRun

variable {ccd} (run : SteadyRun)

theorem available_nodup (n : ℕ) : (available (run.cores n)).Nodup :=
  (run.distinct n).sublist (List.filter_sublist.map _)

theorem active_cores (n : ℕ) : TestOrder.active (run.cores n) = run.items := by
  apply insertionSort_eq_of_mem_iff (run.available_nodup n) (run.available_nodup 0)
  intro core
  rw [run.steady, run.steady]

theorem sortedCcds_cores (n : ℕ) : sortedCcds run.ccd (run.cores n) = run.ccds := by
  apply insertionSort_eq_of_mem_iff (List.nodup_dedup _) (List.nodup_dedup _)
  intro index
  simp only [List.mem_dedup, List.mem_map, run.steady]

theorem mem_items {core : CoreId} : core ∈ run.items ↔ core ∈ run.active := by
  rw [items, TestOrder.active, List.mem_insertionSort, run.steady]

theorem items_sorted : run.items.Pairwise (· < ·) :=
  insertionSort_pairwise_lt (run.available_nodup 0)

theorem length_items : run.items.length = run.active.card := by
  have hset : run.items.toFinset = run.active := by
    ext core
    rw [List.mem_toFinset, run.mem_items]
  rw [← hset, List.toFinset_card_of_nodup (run.items_sorted.imp fun hlt => hlt.ne)]

theorem mem_ccds {index : Nat} :
    index ∈ run.ccds ↔ ∃ core ∈ run.active, ccdOf run.ccd core = index := by
  simp only [ccds, sortedCcds, List.mem_insertionSort, List.mem_dedup, List.mem_map, run.steady]

theorem ccds_sorted : run.ccds.Pairwise (· < ·) :=
  insertionSort_pairwise_lt (List.nodup_dedup _)

theorem length_ccds : run.ccds.length = (run.active.image (ccdOf run.ccd)).card := by
  have hset : run.ccds.toFinset = run.active.image (ccdOf run.ccd) := by
    ext index
    rw [List.mem_toFinset, run.mem_ccds, Finset.mem_image]
  rw [← hset, List.toFinset_card_of_nodup (run.ccds_sorted.imp fun hlt => hlt.ne)]

theorem mem_bucket {target : Nat} {core : CoreId} :
    core ∈ run.bucket target ↔ core ∈ run.active ∧ ccdOf run.ccd core = target := by
  rw [bucket, List.mem_filter, run.mem_items, decide_eq_true_eq]

theorem bucket_sorted (target : Nat) : (run.bucket target).Pairwise (· < ·) :=
  run.items_sorted.filter _

theorem length_bucket_le (target : Nat) : (run.bucket target).length ≤ run.active.card :=
  (List.length_filter_le _ _).trans_eq run.length_items

/-! ## What a pick leaves behind -/

variable {run} {n : ℕ} {core other : CoreId}

theorem cursorsAt_succ (hpick : run.pickAt n = some core) :
    run.cursorsAt (n + 1) = (run.cursorsAt n).tested run.ccd core := by
  show (run.pickAt n).elim _ _ = _
  rw [hpick]
  rfl

theorem lastTestedCore_succ (hpick : run.pickAt n = some core) :
    (run.cursorsAt (n + 1)).lastTestedCore = some core := by
  rw [cursorsAt_succ hpick]
  rfl

/-- A core of a known CCD is the cursor of its CCD afterwards. -/
theorem ccdLastTested_own (hpick : run.pickAt n = some core) (hknown : run.ccd core ≠ none) :
    (run.cursorsAt (n + 1)).ccdLastTested (ccdOf run.ccd core) = some core := by
  obtain ⟨index, hindex⟩ := Option.ne_none_iff_exists'.mp hknown
  rw [cursorsAt_succ hpick, Cursors.tested, hindex, ccdOf, hindex]
  exact Function.update_self index _ _

/-- A core of unknown CCD moves no cursor. -/
theorem ccdLastTested_unknown (hpick : run.pickAt n = some core) (hunknown : run.ccd core = none) :
    (run.cursorsAt (n + 1)).ccdLastTested = (run.cursorsAt n).ccdLastTested := by
  rw [cursorsAt_succ hpick, Cursors.tested, hunknown]

/-- A core of another CCD leaves the cursor of this one. -/
theorem ccdLastTested_other {target : Nat} (hpick : run.pickAt n = some core)
    (hother : target ≠ ccdOf run.ccd core) :
    (run.cursorsAt (n + 1)).ccdLastTested target = (run.cursorsAt n).ccdLastTested target := by
  cases hccd : run.ccd core with
  | none => rw [ccdLastTested_unknown hpick hccd]
  | some index =>
      have hne : target ≠ index := by rwa [ccdOf, hccd] at hother
      rw [cursorsAt_succ hpick, Cursors.tested, hccd]
      exact Function.update_of_ne hne _ _

/-! ## Going round all cores -/

theorem items_ne_nil (hcore : core ∈ run.active) : run.items ≠ [] :=
  List.ne_nil_of_mem (run.mem_items.mpr hcore)

theorem ccds_ne_nil (hcore : core ∈ run.active) : run.ccds ≠ [] :=
  List.ne_nil_of_mem (run.mem_ccds.mpr ⟨core, hcore, rfl⟩)

/-- `round_robin`, and `ccd_round_robin` on fewer than two CCDs, go round all cores. -/
theorem pickAt_eq_next (hplain : run.order = .ccdRoundRobin → run.ccds.length < 2)
    (hcore : core ∈ run.active) (n : ℕ) :
    run.pickAt n = next run.items (run.cursorsAt n).lastTestedCore := by
  have hround : pickRoundRobin (run.cores n) (run.cursorsAt n) =
      next run.items (run.cursorsAt n).lastTestedCore := by
    rw [pickRoundRobin, run.active_cores]
  cases horder : run.order with
  | roundRobin => rw [pickAt, horder]; exact hround
  | ccdRoundRobin =>
      rw [pickAt, horder, pick, pickCcdRoundRobin, run.sortedCcds_cores]
      rw [if_neg (ccds_ne_nil hcore), if_pos (hplain horder), hround]

theorem rotates_items (hplain : run.order = .ccdRoundRobin → run.ccds.length < 2)
    (hcore : core ∈ run.active) : Rotates run.items run.pickAt where
  first := ⟨_, pickAt_eq_next hplain hcore 0⟩
  later n := by
    obtain ⟨picked, hnext⟩ :=
      exists_next (items_ne_nil hcore) (run.cursorsAt n).lastTestedCore
    have hpick : run.pickAt n = some picked := (pickAt_eq_next hplain hcore n).trans hnext
    rw [pickAt_eq_next hplain hcore, lastTestedCore_succ hpick, hpick]

theorem servesAll_of_plain (hplain : run.order = .ccdRoundRobin → run.ccds.length < 2) :
    run.ServesAll := by
  intro start core hcore
  have hrotates := (rotates_items hplain hcore).drop start
  obtain ⟨offset, hoffset, hserved⟩ :=
    hrotates.serves_all run.items_sorted (run.mem_items.mpr hcore)
  rw [run.length_items] at hoffset
  exact ⟨offset, by omega, hserved⟩

/-! ## Turning between CCDs -/

/-- Of two CCDs or more, the target is one of the first two and not the last one. -/
theorem exists_targetCcd {first second : Nat} {rest : List Nat} (hne : first ≠ second)
    (last : Option CoreId) :
    ∃ target, targetCcd ccd (first :: second :: rest) last = some target ∧
      (target = first ∨ target = second) ∧
      ∀ core, last = some core → target ≠ ccdOf ccd core := by
  cases last with
  | none => exact ⟨first, rfl, Or.inl rfl, fun core hcore => absurd hcore (by simp)⟩
  | some last =>
      by_cases hfirst : first = ccdOf ccd last
      · refine ⟨second, ?_, Or.inr rfl, fun core hcore => ?_⟩
        · rw [targetCcd, List.find?_cons_of_neg (by simpa using hfirst),
            List.find?_cons_of_pos (by simpa [← hfirst] using hne.symm)]
          rfl
        · rw [← Option.some.inj hcore, ← hfirst]
          exact hne.symm
      · refine ⟨first, ?_, Or.inl rfl, fun core hcore => ?_⟩
        · rw [targetCcd, List.find?_cons_of_pos (by simpa using hfirst)]
          rfl
        · rw [← Option.some.inj hcore]
          exact hfirst

/-- A pick that turns between CCDs: the next core in the rotation of one of the first two
CCDs, which is not the CCD of the last tested core. -/
structure Turns (run : SteadyRun) (first second : Nat) (n : ℕ) (core : CoreId) : Prop where
  picked : run.pickAt n = some core
  mem : core ∈ run.active
  target : ccdOf run.ccd core = first ∨ ccdOf run.ccd core = second
  rotated : next (run.bucket (ccdOf run.ccd core))
    ((run.cursorsAt n).ccdLastTested (ccdOf run.ccd core)) = some core
  turned : ∀ last, (run.cursorsAt n).lastTestedCore = some last →
    ccdOf run.ccd core ≠ ccdOf run.ccd last

variable {first second : Nat} {rest : List Nat}

theorem exists_turns (horder : run.order = .ccdRoundRobin)
    (hccds : run.ccds = first :: second :: rest) (n : ℕ) :
    ∃ core, Turns run first second n core := by
  have hne : first ≠ second := by
    have hsorted := run.ccds_sorted
    rw [hccds] at hsorted
    exact (List.rel_of_pairwise_cons hsorted (by simp)).ne
  obtain ⟨target, htarget, hamong, hturned⟩ :=
    @exists_targetCcd run.ccd first second rest hne (run.cursorsAt n).lastTestedCore
  have hmem : target ∈ run.ccds := by
    rw [hccds]
    rcases hamong with rfl | rfl <;> simp
  obtain ⟨member, hmember, hcounts⟩ := run.mem_ccds.mp hmem
  have hbucket : run.bucket target ≠ [] :=
    List.ne_nil_of_mem (run.mem_bucket.mpr ⟨hmember, hcounts⟩)
  obtain ⟨core, hnext⟩ := exists_next hbucket ((run.cursorsAt n).ccdLastTested target)
  have hpick : run.pickAt n = some core := by
    rw [pickAt, horder, pick, pickCcdRoundRobin, run.sortedCcds_cores, hccds]
    rw [if_neg (by simp), if_neg (by simp), htarget, Option.bind_some, ccdCores,
      run.active_cores]
    exact hnext
  obtain ⟨hactive, rfl⟩ := run.mem_bucket.mp (mem_of_next hnext)
  exact ⟨core, hpick, hactive, hamong, hnext, hturned⟩

/-- Two consecutive picks are of the two CCDs. -/
theorem Turns.alternate (hcore : Turns run first second n core)
    (hother : Turns run first second (n + 1) other) :
    ccdOf run.ccd other ≠ ccdOf run.ccd core :=
  hother.turned core (lastTestedCore_succ hcore.picked)

/-- The turn is back on a CCD with every second pick. -/
theorem Turns.returns (hcore : Turns run first second n core)
    (hother : Turns run first second (n + 1) other) {back : CoreId}
    (hback : Turns run first second (n + 2) back) :
    ccdOf run.ccd back = ccdOf run.ccd core := by
  have haway := hcore.alternate hother
  have hagain := hother.alternate hback
  rcases hcore.target with hfrom | hfrom <;> rcases hother.target with hto | hto <;>
    rcases hback.target with hat | hat <;> omega

/-- While the turn is on the other CCD, a CCD keeps the core it was served with as its cursor;
a CCD of one core has no need of a cursor. -/
theorem Turns.next_bucket (hcore : Turns run first second n core)
    (hother : Turns run first second (n + 1) other)
    (hserved : run.ccd core = none → run.bucket (ccdOf run.ccd core) = [core]) :
    next (run.bucket (ccdOf run.ccd core))
        ((run.cursorsAt (n + 2)).ccdLastTested (ccdOf run.ccd core)) =
      next (run.bucket (ccdOf run.ccd core)) (some core) := by
  by_cases hknown : run.ccd core = none
  · rw [hserved hknown, next_singleton, next_singleton]
  · rw [ccdLastTested_other hother.picked (hcore.alternate hother).symm,
      ccdLastTested_own hcore.picked hknown]

/-- A core of unknown CCD that nobody shares CCD 0 with is all there is of it. -/
theorem bucket_eq_singleton (hcore : core ∈ run.active) (hunknown : run.ccd core = none)
    (halone : ∀ other ∈ run.active, ccdOf run.ccd other = 0 → other = core) :
    run.bucket (ccdOf run.ccd core) = [core] := by
  have hzero : ccdOf run.ccd core = 0 := by rw [ccdOf, hunknown]; rfl
  rw [hzero]
  have hall : ∀ other ∈ run.bucket 0, other = core := fun other hother => by
    obtain ⟨hactive, hcounts⟩ := run.mem_bucket.mp hother
    exact halone other hactive hcounts
  have hmem : core ∈ run.bucket 0 := run.mem_bucket.mpr ⟨hcore, hzero⟩
  have hnodup : (run.bucket 0).Nodup := (run.bucket_sorted 0).imp fun hlt => hlt.ne
  rw [List.eq_replicate_of_mem hall] at hmem hnodup ⊢
  have hlength := List.nodup_replicate.mp hnodup
  have hpositive : (run.bucket 0).length ≠ 0 := (List.mem_replicate.mp hmem).1
  rw [show (run.bucket 0).length = 1 by omega]
  rfl

/-- From a pick on, every second pick goes round the CCD of that pick. -/
theorem Turns.rotates (horder : run.order = .ccdRoundRobin)
    (hccds : run.ccds = first :: second :: rest)
    (hserved : ∀ core ∈ run.active, run.ccd core = none →
      run.bucket (ccdOf run.ccd core) = [core])
    (hcore : Turns run first second n core) :
    Rotates (run.bucket (ccdOf run.ccd core)) fun round => run.pickAt (n + 2 * round) := by
  have hturns (round : ℕ) : ∃ picked, Turns run first second (n + 2 * round) picked ∧
      ccdOf run.ccd picked = ccdOf run.ccd core := by
    induction round with
    | zero => exact ⟨core, hcore, rfl⟩
    | succ round ih =>
        obtain ⟨picked, hpicked, hccd⟩ := ih
        obtain ⟨other, hother⟩ := exists_turns horder hccds (n + 2 * round + 1)
        obtain ⟨back, hback⟩ := exists_turns horder hccds (n + 2 * round + 2)
        exact ⟨back, hback, (hpicked.returns hother hback).trans hccd⟩
  constructor
  · exact ⟨_, hcore.picked.trans hcore.rotated.symm⟩
  · intro round
    obtain ⟨picked, hpicked, hccd⟩ := hturns round
    obtain ⟨other, hother⟩ := exists_turns horder hccds (n + 2 * round + 1)
    obtain ⟨back, hback⟩ := exists_turns horder hccds (n + 2 * round + 2)
    have hbackCcd : ccdOf run.ccd back = ccdOf run.ccd picked := hpicked.returns hother hback
    have hrotated := hback.rotated
    rw [hbackCcd, hpicked.next_bucket hother (hserved picked hpicked.mem)] at hrotated
    show run.pickAt (n + 2 * round + 2) = _
    rw [hback.picked, ← hrotated, hccd]
    exact congrArg _ hpicked.picked.symm

/-- On two CCDs of known cores, two rounds serve every core. -/
theorem servesAll_of_two (horder : run.order = .ccdRoundRobin)
    (hccds : run.ccds = [first, second])
    (hserved : ∀ core ∈ run.active, run.ccd core = none →
      run.bucket (ccdOf run.ccd core) = [core]) :
    run.ServesAll := by
  intro start core hcore
  have hamong : ccdOf run.ccd core = first ∨ ccdOf run.ccd core = second := by
    have hmem := run.mem_ccds.mpr ⟨core, hcore, rfl⟩
    rw [hccds] at hmem
    simpa using hmem
  -- the turn is on the CCD of the core at the start of the window, or one pick later
  obtain ⟨delay, hdelay, opening, hopening, hccd⟩ : ∃ delay ≤ 1, ∃ opening,
      Turns run first second (start + delay) opening ∧
        ccdOf run.ccd opening = ccdOf run.ccd core := by
    obtain ⟨early, hearly⟩ := exists_turns horder hccds start
    obtain ⟨late, hlate⟩ := exists_turns horder hccds (start + 1)
    by_cases hsame : ccdOf run.ccd early = ccdOf run.ccd core
    · exact ⟨0, by omega, early, hearly, hsame⟩
    · have haway := hearly.alternate hlate
      refine ⟨1, le_rfl, late, hlate, ?_⟩
      rcases hamong with hof | hof <;> rcases hearly.target with hfrom | hfrom <;>
        rcases hlate.target with hto | hto <;> omega
  have hrotates := hopening.rotates horder hccds hserved
  obtain ⟨round, hround, hpicked⟩ := hrotates.serves_all (run.bucket_sorted _)
    (run.mem_bucket.mpr ⟨hcore, hccd.symm⟩)
  have hlength := run.length_bucket_le (ccdOf run.ccd opening)
  refine ⟨delay + 2 * round, by omega, ?_⟩
  rwa [← Nat.add_assoc]

/-! ## Who is left out -/

/-- A third CCD is never turned to. -/
theorem not_servesAll_of_third {third : Nat} (horder : run.order = .ccdRoundRobin)
    (hccds : run.ccds = first :: second :: third :: rest) : ¬ run.ServesAll := by
  intro hserves
  obtain ⟨core, hcore, hthird⟩ := run.mem_ccds.mp (show third ∈ run.ccds by simp [hccds])
  obtain ⟨offset, -, hpick⟩ := hserves 0 core hcore
  obtain ⟨picked, hpicked⟩ := exists_turns horder hccds (0 + offset)
  have hsame : picked = core := Option.some.inj (hpicked.picked.symm.trans hpick)
  have hsorted := run.ccds_sorted
  rw [hccds] at hsorted
  have hfirst : first < third := List.rel_of_pairwise_cons hsorted (by simp)
  have hsecond : second < third := List.rel_of_pairwise_cons hsorted.of_cons (by simp)
  rcases hpicked.target with htarget | htarget <;> rw [hsame, hthird] at htarget <;> omega

/-- Once a core of unknown CCD was picked, CCD 0 has no other pick. -/
theorem Turns.stuck (horder : run.order = .ccdRoundRobin)
    (hccds : run.ccds = first :: second :: rest) (hcore : Turns run first second n core)
    (hunknown : run.ccd core = none) (later : ℕ) :
    next (run.bucket 0) ((run.cursorsAt (n + later)).ccdLastTested 0) = some core := by
  have hzero : ccdOf run.ccd core = 0 := by rw [ccdOf, hunknown]; rfl
  induction later with
  | zero =>
      have hrotated := hcore.rotated
      rwa [hzero] at hrotated
  | succ later ih =>
      obtain ⟨picked, hpicked⟩ := exists_turns horder hccds (n + later)
      have hkept : (run.cursorsAt (n + later + 1)).ccdLastTested 0 =
          (run.cursorsAt (n + later)).ccdLastTested 0 := by
        by_cases hturn : ccdOf run.ccd picked = 0
        · have hrotated := hpicked.rotated
          rw [hturn, ih] at hrotated
          obtain rfl := Option.some.inj hrotated
          rw [ccdLastTested_unknown hpicked.picked hunknown]
        · exact ccdLastTested_other hpicked.picked fun hsame => hturn hsame.symm
      show next (run.bucket 0) ((run.cursorsAt (n + later + 1)).ccdLastTested 0) = _
      rw [hkept, ih]

/-- A core of unknown CCD keeps the others of CCD 0 from their turn. -/
theorem not_servesAll_of_shared (horder : run.order = .ccdRoundRobin)
    (hccds : run.ccds = first :: second :: rest) (hcore : core ∈ run.active)
    (hunknown : run.ccd core = none) (hother : other ∈ run.active)
    (hshared : ccdOf run.ccd other = 0) (hne : other ≠ core) : ¬ run.ServesAll := by
  intro hserves
  obtain ⟨offset, -, hpick⟩ := hserves 0 core hcore
  obtain ⟨picked, hpicked⟩ := exists_turns horder hccds (0 + offset)
  obtain rfl : picked = core := Option.some.inj (hpicked.picked.symm.trans hpick)
  obtain ⟨later, -, hlater⟩ := hserves (0 + offset) other hother
  obtain ⟨served, hserved⟩ := exists_turns horder hccds (0 + offset + later)
  obtain rfl : served = other := Option.some.inj (hserved.picked.symm.trans hlater)
  have hrotated := hserved.rotated
  rw [hshared, hpicked.stuck horder hccds hunknown later] at hrotated
  exact hne (Option.some.inj hrotated).symm

/-- The cyclic orders serve every core in two rounds, except that `ccd_round_robin` serves
the first two CCDs only, and a core of unknown CCD alone of those that count for CCD 0. -/
theorem servesAll_iff (run : SteadyRun) :
    run.ServesAll ↔ (run.order = .ccdRoundRobin → Served run.ccd run.active) := by
  rw [Served, ← run.length_ccds]
  by_cases hplain : run.order = .ccdRoundRobin → run.ccds.length < 2
  · refine iff_of_true (servesAll_of_plain hplain) fun horder => Or.inl ?_
    have hfew := hplain horder
    omega
  · obtain ⟨horder, hmany⟩ := Classical.not_imp.mp hplain
    constructor
    · intro hserves _
      cases hccds : run.ccds with
      | nil => exact absurd (by simp [hccds]) hmany
      | cons first others =>
          cases others with
          | nil => exact absurd (by simp [hccds]) hmany
          | cons second others =>
              cases others with
              | cons third others => exact absurd hserves (not_servesAll_of_third horder hccds)
              | nil =>
                  refine Or.inr ⟨rfl, fun core hcore hunknown other hother hshared => ?_⟩
                  by_contra hne
                  exact not_servesAll_of_shared horder hccds hcore hunknown hother hshared hne
                    hserves
    · intro hserved
      obtain hone | ⟨htwo, halone⟩ := hserved horder
      · omega
      · obtain ⟨first, second, hccds⟩ := List.length_eq_two.mp htwo
        exact servesAll_of_two horder hccds fun core hcore hunknown =>
          bucket_eq_singleton hcore hunknown (halone core hcore hunknown)

/-- Three CCDs of one core each, from the start of a search. -/
def threeCcds : SteadyRun where
  order := .ccdRoundRobin
  ccd := some
  cursors := {}
  cores _ := [{ coreId := 0 }, { coreId := 1 }, { coreId := 2 }]
  active := {0, 1, 2}
  distinct _ := by decide
  steady _ core := by
    rw [show available [{ coreId := 0 }, { coreId := 1 }, { coreId := 2 }] = [0, 1, 2] from rfl]
    simp

/-- The core of the third CCD is not served. -/
theorem not_servesAll_threeCcds : ¬ threeCcds.ServesAll :=
  not_servesAll_of_third rfl (show threeCcds.ccds = [0, 1, 2] by decide)

end SteadyRun
end TestOrder
end Tuner
end CoreCycler
