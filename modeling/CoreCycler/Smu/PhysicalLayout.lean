import CoreCycler.Smu.CoreMap
import Mathlib.Data.List.Perm.Subperm

/-!
# Physical layouts and their numberings

A physical layout is a list of CCDs with the slots that are not fused off.  Firmware numbers
its cores in slot order, keeping the holes, closing them within each CCD, or closing them
across all CCDs.  The discovered map is compared with the layout the IDs came from.
-/

namespace CoreCycler
namespace Smu

open Library

/-- The live slots of a CCD, in ascending order. -/
structure Ccd where
  slots : List Nat
  ascending : slots.Pairwise (· < ·)
  below : ∀ slot ∈ slots, slot < slotsPerCcd
  nonempty : slots ≠ []

structure Layout where
  ccds : List Ccd

/-- A CCD at its index, with the number of live cores in front of it. -/
structure Placed where
  index : Nat
  start : Nat
  ccd : Ccd

/-- Place the CCDs one behind the other. -/
def placeFrom : Nat → Nat → List Ccd → List Placed
  | _, _, [] => []
  | index, start, ccd :: rest =>
      ⟨index, start, ccd⟩ :: placeFrom (index + 1) (start + ccd.slots.length) rest

def Layout.placed (layout : Layout) : List Placed :=
  placeFrom 0 0 layout.ccds

/-- The order-preserving numberings of the cores. -/
inductive Numbering where
  /-- Window and slot: a fused-off slot leaves a hole. -/
  | gapPreserving
  /-- Window and rank: the holes of each CCD are closed. -/
  | compacted
  /-- One sequence over all CCDs. -/
  | contiguous
deriving DecidableEq, Repr

/-- The core IDs of a CCD, in slot order. -/
def Placed.ids (numbering : Numbering) (placed : Placed) : List CoreId :=
  match numbering with
  | .gapPreserving => placed.ccd.slots.map (slotsPerCcd * placed.index + ·)
  | .compacted => (List.range placed.ccd.slots.length).map (slotsPerCcd * placed.index + ·)
  | .contiguous => (List.range placed.ccd.slots.length).map (placed.start + ·)

/-- Where every core really is. -/
def Layout.addresses (layout : Layout) (numbering : Numbering) : List (CoreId × Nat × Nat) :=
  layout.placed.flatMap fun placed =>
    (placed.ids numbering).zip (placed.ccd.slots.map fun slot => (placed.index, slot))

/-- The topology the operating system shows of a layout with all CPUs online. -/
structure Topology.Of (topology : Topology) (layout : Layout) (numbering : Numbering) :
    Prop where
  cores : topology.cores.Perm
    (layout.placed.flatMap fun placed =>
      (placed.ids numbering).map fun core => (core, some placed.index))
  online : topology.cpusAllOnline = some true

/-- Every fuse that can be read has exactly the bits of the fused-off slots set. -/
def Smn.Fuses (smn : Smn) (commands : SMUCommandSet) (layout : Layout) : Prop :=
  ∀ addr, commands.coreFuseAddr = some addr → ∀ placed ∈ layout.placed, ∀ fuse,
    smn.readSmn (addr + placed.index <<< ccdFuseShift) = some fuse →
      ∀ slot < slotsPerCcd, fuse.testBit slot = false ↔ slot ∈ placed.ccd.slots

/-- The numbering of a CCD's cores leaves its slots open. -/
def Placed.NeedsFuse (numbering : Numbering) (placed : Placed) : Prop :=
  match numbering with
  | .gapPreserving =>
      placed.ccd.slots = List.range placed.ccd.slots.length ∧
        placed.ccd.slots.length < slotsPerCcd
  | .compacted => placed.ccd.slots.length < slotsPerCcd
  | .contiguous =>
      placed.start % slotsPerCcd = 0 ∧ placed.ccd.slots.length < slotsPerCcd ∨
        slotsPerCcd < placed.start % slotsPerCcd + placed.ccd.slots.length

/-- A contiguous run of IDs lies inside one window without starting it, at other places than
the CCD's slots: the IDs in front of the run look like an internal hole. -/
def Placed.Misread (numbering : Numbering) (placed : Placed) : Prop :=
  numbering = .contiguous ∧ placed.start % slotsPerCcd ≠ 0 ∧
    placed.start % slotsPerCcd + placed.ccd.slots.length ≤ slotsPerCcd ∧
    placed.ccd.slots ≠
      (List.range placed.ccd.slots.length).map (placed.start % slotsPerCcd + ·)

/-- The core-disable fuse of a CCD can be read. -/
def Placed.FuseReadable (commands : SMUCommandSet) (smn : Smn) (placed : Placed) : Prop :=
  smn.unreadable = none ∧ ∃ addr, commands.coreFuseAddr = some addr ∧
    (smn.readSmn (addr + placed.index <<< ccdFuseShift)).isSome

/-- Two ascending lists with the same members are one list. -/
theorem eq_of_ascending {xs ys : List Nat} (hxs : xs.Pairwise (· < ·))
    (hys : ys.Pairwise (· < ·)) (hmem : ∀ n, n ∈ xs ↔ n ∈ ys) : xs = ys :=
  ((List.perm_ext_iff_of_nodup (hxs.imp Nat.ne_of_lt) (hys.imp Nat.ne_of_lt)).mpr
    hmem).eq_of_pairwise
      (fun _ _ _ _ hlt hgt => absurd (Nat.lt_trans hlt hgt) (Nat.lt_irrefl _)) hxs hys

/-! ## The IDs of a layout -/

section Ids

variable {numbering : Numbering} {placed : Placed}

theorem Placed.ids_length : (placed.ids numbering).length = placed.ccd.slots.length := by
  cases numbering <;> simp [Placed.ids]

theorem Placed.ids_ne_nil : placed.ids numbering ≠ [] := by
  intro hnil
  have hlength : (placed.ids numbering).length = placed.ccd.slots.length := placed.ids_length
  rw [hnil, List.length_nil] at hlength
  exact placed.ccd.nonempty (List.length_eq_zero_iff.mp hlength.symm)

/-- A CCD has at most as many cores as slots. -/
theorem Ccd.slots_length_le (ccd : Ccd) : ccd.slots.length ≤ slotsPerCcd := by
  have hnodup : ccd.slots.Nodup := ccd.ascending.imp Nat.ne_of_lt
  have hsubset : ccd.slots ⊆ List.range slotsPerCcd :=
    fun slot hslot => List.mem_range.mpr (ccd.below slot hslot)
  simpa using (List.Nodup.subperm hnodup hsubset).length_le

theorem Placed.ids_ascending : (placed.ids numbering).Pairwise (· < ·) := by
  have hrange : ∀ base, ((List.range placed.ccd.slots.length).map (base + ·)).Pairwise
      (· < ·) := fun base =>
    List.pairwise_map.mpr (List.pairwise_lt_range.imp fun hlt => Nat.add_lt_add_left hlt base)
  cases numbering with
  | gapPreserving =>
      exact List.pairwise_map.mpr
        (placed.ccd.ascending.imp fun hlt => Nat.add_lt_add_left hlt _)
  | compacted => exact hrange _
  | contiguous => exact hrange _

/-- The placed CCDs stand in order, each behind the live cores of the ones before it. -/
theorem placeFrom_ordered (ccds : List Ccd) : ∀ index start,
    (placeFrom index start ccds).Pairwise (fun before behind =>
      before.index < behind.index ∧
        before.start + before.ccd.slots.length ≤ behind.start) ∧
    ∀ placed ∈ placeFrom index start ccds, index ≤ placed.index ∧ start ≤ placed.start := by
  induction ccds with
  | nil => intro index start; simp [placeFrom]
  | cons ccd rest ih =>
      intro index start
      obtain ⟨hordered, hbehind⟩ := ih (index + 1) (start + ccd.slots.length)
      constructor
      · exact List.pairwise_cons.mpr ⟨fun placed hplaced => hbehind placed hplaced, hordered⟩
      · intro placed hplaced
        rcases List.mem_cons.mp hplaced with rfl | hrest
        · exact ⟨le_refl _, le_refl _⟩
        · have hafter := hbehind placed hrest
          omega

theorem Layout.placed_ordered (layout : Layout) :
    layout.placed.Pairwise fun before behind => before.index < behind.index ∧
      before.start + before.ccd.slots.length ≤ behind.start :=
  (placeFrom_ordered layout.ccds 0 0).1

/-- The range of IDs a CCD lies in: its window, or its run of the sequence. -/
theorem Placed.mem_ids_bounds {core : Nat} (hcore : core ∈ placed.ids numbering) :
    (numbering ≠ .contiguous → slotsPerCcd * placed.index ≤ core ∧
      core < slotsPerCcd * (placed.index + 1)) ∧
    (numbering = .contiguous → placed.start ≤ core ∧
      core < placed.start + placed.ccd.slots.length) := by
  have hlength := placed.ccd.slots_length_le
  cases numbering with
  | gapPreserving =>
      obtain ⟨slot, hslot, rfl⟩ := List.mem_map.mp hcore
      have hbelow := placed.ccd.below slot hslot
      exact ⟨fun _ => ⟨Nat.le_add_right _ _, Nat.add_lt_add_left hbelow _⟩, nofun⟩
  | compacted =>
      obtain ⟨rank, hrank, rfl⟩ := List.mem_map.mp hcore
      have hbelow := List.mem_range.mp hrank
      exact ⟨fun _ => ⟨Nat.le_add_right _ _,
        Nat.add_lt_add_left (Nat.lt_of_lt_of_le hbelow hlength) _⟩, nofun⟩
  | contiguous =>
      obtain ⟨rank, hrank, rfl⟩ := List.mem_map.mp hcore
      have hbelow := List.mem_range.mp hrank
      exact ⟨fun hne => absurd rfl hne, fun _ => ⟨Nat.le_add_right _ _,
        Nat.add_lt_add_left hbelow _⟩⟩

/-- A numbering preserves the order of CCDs. -/
theorem Placed.ids_lt {before behind : Placed} (hindex : before.index < behind.index)
    (hstart : before.start + before.ccd.slots.length ≤ behind.start) {core other : Nat}
    (hcore : core ∈ before.ids numbering) (hother : other ∈ behind.ids numbering) :
    core < other := by
  obtain ⟨hwindow, hrun⟩ := Placed.mem_ids_bounds hcore
  obtain ⟨hwindow', hrun'⟩ := Placed.mem_ids_bounds hother
  by_cases hnumbering : numbering = .contiguous
  · have hlow := (hrun hnumbering).2
    have hhigh := (hrun' hnumbering).1
    omega
  · have hlow := (hwindow hnumbering).2
    have hhigh := (hwindow' hnumbering).1
    have hwindows : slotsPerCcd * (before.index + 1) ≤ slotsPerCcd * behind.index :=
      Nat.mul_le_mul_left _ hindex
    omega

/-- All IDs of a layout, CCD by CCD, are in ascending order. -/
theorem Layout.ids_ascending (layout : Layout) (numbering : Numbering) :
    (layout.placed.flatMap fun placed => placed.ids numbering).Pairwise (· < ·) := by
  rw [List.flatMap_def, List.pairwise_flatten]
  constructor
  · intro ids hids
    obtain ⟨placed, -, rfl⟩ := List.mem_map.mp hids
    exact placed.ids_ascending
  · exact List.pairwise_map.mpr (layout.placed_ordered.imp fun horder core hcore other hother =>
      Placed.ids_lt horder.1 horder.2 hcore hother)

end Ids

/-! ## The groups of a layout's topology -/

section Groups

variable {layout : Layout} {numbering : Numbering} {topology : Topology}

/-- The sorted IDs of the topology are the layout's, CCD by CCD. -/
theorem Topology.Of.sortedIds_eq (hof : topology.Of layout numbering) :
    topology.sortedIds = layout.placed.flatMap fun placed => placed.ids numbering := by
  have hkeys : (topology.cores.map Prod.fst).Perm
      (layout.placed.flatMap fun placed => placed.ids numbering) := by
    have hmap := hof.cores.map Prod.fst
    simpa [List.map_flatMap, Function.comp_def] using hmap
  have hsorted : topology.sortedIds.Pairwise (· ≤ ·) := List.pairwise_insertionSort _ _
  exact ((List.perm_insertionSort _ _).trans hkeys).eq_of_pairwise
    (fun _ _ _ _ hle hge => Nat.le_antisymm hle hge) hsorted
    ((layout.ids_ascending numbering).imp Nat.le_of_lt)

theorem Topology.Of.ccd_eq (hof : topology.Of layout numbering) {placed : Placed}
    (hplaced : placed ∈ layout.placed) {core : CoreId} (hcore : core ∈ placed.ids numbering) :
    topology.ccd core = some placed.index := by
  have hmem : (core, some placed.index) ∈ topology.cores :=
    hof.cores.mem_iff.mpr (List.mem_flatMap.mpr
      ⟨placed, hplaced, List.mem_map.mpr ⟨core, hcore, rfl⟩⟩)
  rw [Topology.ccd, Grouping.lookup_of_mem topology.distinct hmem]
  rfl

/-- Every core is encoded under the CCD it is on. -/
theorem Topology.Of.encodeCcd_eq (hof : topology.Of layout numbering) {placed : Placed}
    (hplaced : placed ∈ layout.placed) {core : CoreId} (hcore : core ∈ placed.ids numbering) :
    topology.encodeCcd core = placed.index := by
  have hall : (topology.sortedIds.all fun other => (topology.ccd other).isSome) = true := by
    rw [List.all_eq_true]
    intro other hother
    rw [hof.sortedIds_eq] at hother
    obtain ⟨holder, hholder, hids⟩ := List.mem_flatMap.mp hother
    rw [hof.ccd_eq hholder hids]
    rfl
  rw [Topology.encodeCcd, if_pos hall, hof.ccd_eq hplaced hcore]
  rfl

/-- CCDs of one index are one CCD. -/
theorem Layout.eq_of_index {placed other : Placed} (hplaced : placed ∈ layout.placed)
    (hother : other ∈ layout.placed) (hindex : placed.index = other.index) : placed = other := by
  have hindices : (layout.placed.map Placed.index).Nodup :=
    List.pairwise_map.mpr (layout.placed_ordered.imp fun horder => Nat.ne_of_lt horder.1)
  exact List.inj_on_of_nodup_map hindices hplaced hother hindex

/-- The group of a CCD's index is the CCD's cores, in slot order. -/
theorem Topology.Of.group_eq (hof : topology.Of layout numbering) {placed : Placed}
    (hplaced : placed ∈ layout.placed) :
    (topology.sortedIds.filter fun other => topology.encodeCcd other = placed.index) =
      placed.ids numbering := by
  have hsorted : topology.sortedIds.Pairwise (· < ·) := by
    rw [hof.sortedIds_eq]
    exact layout.ids_ascending numbering
  have hfiltered := hsorted.filter fun other => topology.encodeCcd other = placed.index
  refine eq_of_ascending hfiltered placed.ids_ascending fun core => ?_
  rw [List.mem_filter, hof.sortedIds_eq, List.mem_flatMap, decide_eq_true_iff]
  constructor
  · rintro ⟨⟨other, hother, hcore⟩, hindex⟩
    rw [hof.encodeCcd_eq hother hcore] at hindex
    cases Layout.eq_of_index hother hplaced hindex
    exact hcore
  · intro hcore
    exact ⟨⟨placed, hplaced, hcore⟩, hof.encodeCcd_eq hplaced hcore⟩

end Groups

/-! ## The slots of a CCD -/

section Slots

variable {numbering : Numbering} {placed : Placed} {commands : SMUCommandSet} {smn : Smn}

/-- A strictly ascending list of all slots of a CCD is the whole range. -/
theorem Ccd.slots_eq_range {ccd : Ccd} (hfull : ccd.slots.length = slotsPerCcd) :
    ccd.slots = List.range slotsPerCcd := by
  have hnodup : ccd.slots.Nodup := ccd.ascending.imp Nat.ne_of_lt
  have hsubset : ccd.slots ⊆ List.range slotsPerCcd :=
    fun slot hslot => List.mem_range.mpr (ccd.below slot hslot)
  have hperm : ccd.slots.Perm (List.range slotsPerCcd) :=
    (List.Nodup.subperm hnodup hsubset).perm_of_length_le (by simp [hfull])
  exact eq_of_ascending ccd.ascending List.pairwise_lt_range fun _ => hperm.mem_iff

/-- The IDs of a CCD modulo the window: its slots, its ranks, or a shifted run. -/
theorem Placed.rel_eq :
    (placed.ids numbering).map (· % slotsPerCcd) =
      match numbering with
      | .gapPreserving => placed.ccd.slots
      | .compacted => List.range placed.ccd.slots.length
      | .contiguous => (List.range placed.ccd.slots.length).map
          fun rank => (placed.start + rank) % slotsPerCcd := by
  have hlength := placed.ccd.slots_length_le
  cases numbering with
  | gapPreserving =>
      simp only [Placed.ids, List.map_map]
      conv_rhs => rw [← List.map_id placed.ccd.slots]
      refine List.map_congr_left fun slot hslot => ?_
      show (slotsPerCcd * placed.index + slot) % slotsPerCcd = slot
      rw [Nat.mul_add_mod, Nat.mod_eq_of_lt (placed.ccd.below slot hslot)]
  | compacted =>
      simp only [Placed.ids, List.map_map]
      conv_rhs => rw [← List.map_id (List.range placed.ccd.slots.length)]
      refine List.map_congr_left fun rank hrank => ?_
      show (slotsPerCcd * placed.index + rank) % slotsPerCcd = rank
      have hbelow := List.mem_range.mp hrank
      rw [Nat.mul_add_mod, Nat.mod_eq_of_lt (Nat.lt_of_lt_of_le hbelow hlength)]
  | contiguous =>
      simp only [Placed.ids, List.map_map]
      rfl

/-- A run of IDs lies in one window when it ends there. -/
theorem run_one_window {start count : Nat} (hcount : 0 < count) :
    (∃ window, ∀ core ∈ (List.range count).map (start + ·), core / slotsPerCcd = window) ↔
      start % slotsPerCcd + count ≤ slotsPerCcd := by
  simp only [slotsPerCcd, List.mem_map, List.mem_range]
  constructor
  · rintro ⟨window, hwindow⟩
    have hfirst := hwindow start ⟨0, hcount, rfl⟩
    have hlast := hwindow (start + (count - 1)) ⟨count - 1, by omega, rfl⟩
    omega
  · intro hends
    refine ⟨start / 8, ?_⟩
    rintro core ⟨rank, hrank, rfl⟩
    omega

/-- Only a contiguous run can leave its first window. -/
theorem Placed.one_window_iff :
    (((placed.ids numbering).map (· / slotsPerCcd)).dedup).length = 1 ↔
      (numbering = .contiguous →
        placed.start % slotsPerCcd + placed.ccd.slots.length ≤ slotsPerCcd) := by
  rw [windows_length_eq_one]
  have hcount : 0 < placed.ccd.slots.length := List.length_pos_iff.mpr placed.ccd.nonempty
  by_cases hnumbering : numbering = .contiguous
  · subst hnumbering
    have hrun : (∃ window, ∀ core ∈ placed.ids .contiguous, core / slotsPerCcd = window) ↔
        placed.start % slotsPerCcd + placed.ccd.slots.length ≤ slotsPerCcd :=
      run_one_window hcount
    exact ⟨fun hone _ => hrun.mp hone.2, fun hends => ⟨placed.ids_ne_nil, hrun.mpr (hends rfl)⟩⟩
  · refine ⟨fun _ hcontiguous => absurd hcontiguous hnumbering, fun _ => ⟨placed.ids_ne_nil,
      placed.index, fun core hcore => ?_⟩⟩
    obtain ⟨hlow, hhigh⟩ := (Placed.mem_ids_bounds hcore).1 hnumbering
    exact Nat.div_eq_of_lt_le (by rwa [Nat.mul_comm]) (by rwa [Nat.mul_comm])

/-- Within one window a run keeps its distance to the window's start. -/
theorem Placed.rel_contiguous
    (hends : placed.start % slotsPerCcd + placed.ccd.slots.length ≤ slotsPerCcd) :
    (placed.ids .contiguous).map (· % slotsPerCcd) =
      (List.range placed.ccd.slots.length).map (placed.start % slotsPerCcd + ·) := by
  rw [Placed.rel_eq]
  refine List.map_congr_left fun rank hrank => ?_
  have hbelow := List.mem_range.mp hrank
  simp only [slotsPerCcd] at hends ⊢
  omega

/-- A shifted run is a prefix only without a shift. -/
theorem shifted_eq_range {shift count : Nat} (hcount : 0 < count) :
    (List.range count).map (shift + ·) = List.range count ↔ shift = 0 := by
  constructor
  · intro heq
    have hfirst := congrArg (fun xs => xs[0]?) heq
    simpa [hcount] using hfirst
  · rintro rfl
    simp

/-- The derivation of a CCD's slots, by the numbering its IDs came from. -/
theorem Placed.derive_eq_none (hneeds : placed.NeedsFuse numbering) :
    deriveGroupSlots (placed.ids numbering) true = none := by
  have hcount : 0 < placed.ccd.slots.length := List.length_pos_iff.mpr placed.ccd.nonempty
  simp only [deriveGroupSlots, if_true, Placed.ids_length]
  by_cases hone : numbering = .contiguous →
      placed.start % slotsPerCcd + placed.ccd.slots.length ≤ slotsPerCcd
  · rw [if_neg (not_not.mpr (Placed.one_window_iff.mpr hone))]
    have hfront : (placed.ids numbering).map (· % slotsPerCcd) =
        List.range placed.ccd.slots.length ∧ placed.ccd.slots.length ≠ slotsPerCcd := by
      cases numbering with
      | gapPreserving =>
          rw [Placed.rel_eq]
          exact ⟨hneeds.1, Nat.ne_of_lt hneeds.2⟩
      | compacted =>
          rw [Placed.rel_eq]
          exact ⟨rfl, Nat.ne_of_lt hneeds⟩
      | contiguous =>
          rw [Placed.rel_contiguous (hone rfl)]
          rcases hneeds with ⟨hshift, hfew⟩ | hspans
          · exact ⟨(shifted_eq_range hcount).mpr hshift, Nat.ne_of_lt hfew⟩
          · exact absurd (hone rfl) (Nat.not_le.mpr hspans)
    rw [if_pos hfront.1, if_neg hfront.2]
  · rw [if_pos (fun h => hone (Placed.one_window_iff.mp h))]

theorem Placed.derive_eq_some (hproved : ¬ placed.NeedsFuse numbering) :
    deriveGroupSlots (placed.ids numbering) true =
      some ((placed.ids numbering).map (· % slotsPerCcd)) := by
  have hcount : 0 < placed.ccd.slots.length := List.length_pos_iff.mpr placed.ccd.nonempty
  have hlength := placed.ccd.slots_length_le
  have hone : numbering = .contiguous →
      placed.start % slotsPerCcd + placed.ccd.slots.length ≤ slotsPerCcd := by
    rintro rfl
    exact Nat.not_lt.mp fun hspans => hproved (.inr hspans)
  simp only [deriveGroupSlots, if_true, Placed.ids_length]
  rw [if_neg (not_not.mpr (Placed.one_window_iff.mpr hone))]
  by_cases hfront : (placed.ids numbering).map (· % slotsPerCcd) =
      List.range placed.ccd.slots.length
  · have hfull : placed.ccd.slots.length = slotsPerCcd := by
      refine Nat.le_antisymm hlength (Nat.not_lt.mp fun hfew => hproved ?_)
      cases numbering with
      | gapPreserving =>
          rw [Placed.rel_eq] at hfront
          exact ⟨hfront, hfew⟩
      | compacted => exact hfew
      | contiguous =>
          rw [Placed.rel_contiguous (hone rfl)] at hfront
          exact .inl ⟨(shifted_eq_range hcount).mp hfront, hfew⟩
    rw [if_pos hfront, if_pos hfull]
  · rw [if_neg hfront]

/-- Slots read off the IDs are wrong exactly for a misread run. -/
theorem Placed.rel_eq_slots_iff (hproved : ¬ placed.NeedsFuse numbering) :
    (placed.ids numbering).map (· % slotsPerCcd) = placed.ccd.slots ↔
      ¬ placed.Misread numbering := by
  have hcount : 0 < placed.ccd.slots.length := List.length_pos_iff.mpr placed.ccd.nonempty
  have hlength := placed.ccd.slots_length_le
  cases numbering with
  | gapPreserving =>
      rw [Placed.rel_eq]
      exact ⟨fun _ hmisread => (nomatch hmisread.1), fun _ => rfl⟩
  | compacted =>
      have hfull : placed.ccd.slots.length = slotsPerCcd :=
        Nat.le_antisymm hlength (Nat.not_lt.mp hproved)
      rw [Placed.rel_eq]
      refine ⟨fun _ hmisread => (nomatch hmisread.1), fun _ => ?_⟩
      rw [Ccd.slots_eq_range hfull, List.length_range]
  | contiguous =>
      have hends : placed.start % slotsPerCcd + placed.ccd.slots.length ≤ slotsPerCcd :=
        Nat.not_lt.mp fun hspans => hproved (.inr hspans)
      rw [Placed.rel_contiguous hends]
      constructor
      · intro heq hmisread
        exact hmisread.2.2.2 heq.symm
      · intro hright
        by_contra hne
        refine hright ⟨rfl, fun hshift => hne ?_, hends, fun heq => hne heq.symm⟩
        -- a run that starts its window and proves its slots is a full CCD
        have hfull : placed.ccd.slots.length = slotsPerCcd :=
          Nat.le_antisymm hlength (Nat.not_lt.mp fun hfew => hproved (.inl ⟨hshift, hfew⟩))
        rw [(shifted_eq_range hcount).mpr hshift, hfull, Ccd.slots_eq_range hfull]

/-- A true fuse leaves exactly the CCD's slots. -/
theorem Placed.liveSlots_eq {fuse : Nat}
    (hfuse : ∀ slot < slotsPerCcd, fuse.testBit slot = false ↔ slot ∈ placed.ccd.slots) :
    liveSlots fuse = placed.ccd.slots := by
  refine eq_of_ascending (liveSlots_pairwise fuse) placed.ccd.ascending fun slot => ?_
  rw [mem_liveSlots]
  constructor
  · rintro ⟨hbelow, hlive⟩
    exact (hfuse slot hbelow).mp hlive
  · intro hslot
    have hbelow := placed.ccd.below slot hslot
    exact ⟨hbelow, (hfuse slot hbelow).mpr hslot⟩

variable {layout : Layout}

/-- A CCD whose numbering leaves its slots open is refused or placed by its fuse. -/
theorem Placed.groupSlots_needsFuse (hfuses : smn.Fuses commands layout)
    (hplaced : placed ∈ layout.placed) (hneeds : placed.NeedsFuse numbering)
    {slots : List Nat} :
    groupSlots commands smn placed.index (placed.ids numbering) = .ok slots ↔
      placed.FuseReadable commands smn ∧ slots = placed.ccd.slots := by
  simp only [groupSlots, Placed.derive_eq_none hneeds]
  constructor
  · intro hok
    obtain ⟨addr, fuse, haddr, hnode, hread, rfl, -⟩ := fuseGroupSlots_ok hok
    refine ⟨⟨hnode, addr, haddr, by rw [hread]; rfl⟩, ?_⟩
    exact Placed.liveSlots_eq (hfuses addr haddr placed hplaced fuse hread)
  · rintro ⟨⟨hnode, addr, haddr, hsome⟩, rfl⟩
    obtain ⟨fuse, hread⟩ := Option.isSome_iff_exists.mp hsome
    have hlive := Placed.liveSlots_eq (hfuses addr haddr placed hplaced fuse hread)
    simp only [fuseGroupSlots, haddr, hnode, hread, hlive, Placed.ids_length, if_true]

/-- A CCD whose numbering proves its slots is never refused. -/
theorem Placed.groupSlots_proved (hproved : ¬ placed.NeedsFuse numbering) :
    groupSlots commands smn placed.index (placed.ids numbering) =
      .ok ((placed.ids numbering).map (· % slotsPerCcd)) := by
  simp only [groupSlots, Placed.derive_eq_some hproved]

end Slots

/-! ## The discovered map and the layout -/

/-- Every core has its true address, or per-core operations are refused. -/
def RyzenSMU.TrueOrRefused (smu : RyzenSMU) (layout : Layout) (numbering : Numbering) : Prop :=
  smu.coreMapError ≠ none ∨
    ∀ core ccd slot, (core, ccd, slot) ∈ layout.addresses numbering →
      smu.mapped core = some (ccd, slot)

/-- What a loaded topology promises of the addresses and of the arguments they go into. -/
structure RyzenSMU.Addressing (smu : RyzenSMU) (generation : CPUGeneration) (layout : Layout)
    (numbering : Numbering) : Prop where
  trueOrRefused : smu.TrueOrRefused layout numbering
  injective : ∀ core other address, smu.mapped core = some address →
    smu.mapped other = some address → core = other
  /-- Arguments of different cores differ above the offset. -/
  separate : ∀ core other ccd slot ccd' slot', core ≠ other →
    smu.mapped core = some (ccd, slot) → smu.mapped other = some (ccd', slot') →
    ccd < 16 → ccd' < 16 → ∀ value value', ∃ arg arg',
      encodeCoArg core value generation (some ccd) (some slot) = .ok arg ∧
      encodeCoArg other value' generation (some ccd') (some slot') = .ok arg' ∧
      arg < 2 ^ 32 ∧ arg' < 2 ^ 32 ∧ arg / 2 ^ 16 ≠ arg' / 2 ^ 16
  decodes : ∀ core (value : Int) ccd slot arg, -0x8000 ≤ value → value < 0x8000 →
    encodeCoArg core value generation ccd slot = .ok arg →
    decodeCoArg core arg generation = .ok value

section Discovery

variable {layout : Layout} {numbering : Numbering} {topology : Topology}
  {commands : SMUCommandSet} {smn : Smn}

/-- The groups of a layout's topology are its CCDs. -/
theorem Topology.Of.mem_group_iff (hof : topology.Of layout numbering) {index : Nat}
    {members : List CoreId} :
    (index, members) ∈ Grouping.group topology.encodeCcd topology.sortedIds ↔
      ∃ placed ∈ layout.placed, index = placed.index ∧ members = placed.ids numbering := by
  rw [Grouping.mem_group]
  constructor
  · rintro ⟨rfl, hne⟩
    obtain ⟨core, hcore⟩ := List.exists_mem_of_ne_nil _ hne
    obtain ⟨hsorted, hindex⟩ := List.mem_filter.mp hcore
    rw [hof.sortedIds_eq] at hsorted
    obtain ⟨placed, hplaced, hids⟩ := List.mem_flatMap.mp hsorted
    have heq : index = placed.index := by
      rw [← hof.encodeCcd_eq hplaced hids]
      exact (of_decide_eq_true hindex).symm
    subst heq
    exact ⟨placed, hplaced, rfl, hof.group_eq hplaced⟩
  · rintro ⟨placed, hplaced, rfl, rfl⟩
    exact ⟨(hof.group_eq hplaced).symm, placed.ids_ne_nil⟩

theorem foldr_max_le {sizes : List Nat} {bound : Nat} (hsizes : ∀ size ∈ sizes, size ≤ bound) :
    sizes.foldr max 0 ≤ bound := by
  induction sizes with
  | nil => exact Nat.zero_le _
  | cons size rest ih =>
      exact Nat.max_le.mpr ⟨hsizes size List.mem_cons_self,
        ih fun other hother => hsizes other (List.mem_cons_of_mem _ hother)⟩

/-- No CCD of a layout exceeds eight slots, so its groups are accepted. -/
theorem Topology.Of.groupCores_eq (hof : topology.Of layout numbering) :
    groupCores topology topology.sortedIds =
      .ok (Grouping.group topology.encodeCcd topology.sortedIds) := by
  have hsmall : ((Grouping.group topology.encodeCcd topology.sortedIds).map
      fun entry => entry.2.length).foldr max 0 ≤ slotsPerCcd := by
    refine foldr_max_le fun size hsize => ?_
    obtain ⟨⟨index, members⟩, hgroup, rfl⟩ := List.mem_map.mp hsize
    obtain ⟨placed, -, -, rfl⟩ := hof.mem_group_iff.mp hgroup
    rw [Placed.ids_length]
    exact placed.ccd.slots_length_le
  have hkey : (fun core => if (topology.sortedIds.all fun other => (topology.ccd other).isSome) =
      true then (topology.ccd core).getD 0 else core / slotsPerCcd) = topology.encodeCcd := rfl
  simp only [groupCores, hkey]
  exact if_neg (Nat.not_lt.mpr hsmall)

/-- The discovery is complete when no CCD is refused. -/
theorem Topology.Of.discover_ok_iff (hof : topology.Of layout numbering)
    (hknown : topology.ccdLayoutKnown = true) :
    (∃ coreMap, discoverCoreMap commands smn topology = .ok coreMap) ↔
      ∀ placed ∈ layout.placed, ∃ slots,
        groupSlots commands smn placed.index (placed.ids numbering) = .ok slots := by
  have hpass : discoverCoreMap commands smn topology = mapGroups commands smn
      ((Grouping.group topology.encodeCcd topology.sortedIds).insertionSort
        fun a b => a.1 ≤ b.1) := by
    simp only [discoverCoreMap, hknown, hof.groupCores_eq, hof.online, Bool.true_eq_false,
      if_false]
  rw [hpass, mapGroups_ok_iff]
  constructor
  · intro hall placed hplaced
    exact hall (placed.index, placed.ids numbering) ((List.mem_insertionSort _).mpr
      (hof.mem_group_iff.mpr ⟨placed, hplaced, rfl, rfl⟩))
  · rintro hall ⟨index, members⟩ hentry
    obtain ⟨placed, hplaced, rfl, rfl⟩ :=
      hof.mem_group_iff.mp ((List.mem_insertionSort _).mp hentry)
    exact hall placed hplaced

variable {smu : RyzenSMU}

/-- A discovered address is the place of the core in its CCD's slots. -/
theorem Topology.Of.mapped_iff (hof : topology.Of layout numbering)
    {coreMap : List (CoreId × Nat × Nat)}
    (hmap : (smu.setTopology smn topology).coreMap = some coreMap) {placed : Placed}
    (hplaced : placed ∈ layout.placed) {core : CoreId} (hcore : core ∈ placed.ids numbering)
    {slots : List Nat}
    (hslots : groupSlots smu.commands smn placed.index (placed.ids numbering) = .ok slots)
    {ccd slot : Nat} :
    (smu.setTopology smn topology).mapped core = some (ccd, slot) ↔
      ccd = placed.index ∧ (core, slot) ∈ (placed.ids numbering).zip slots := by
  rw [mapped_eq_some hmap, mem_coreMap hmap, hof.encodeCcd_eq hplaced hcore]
  constructor
  · rintro ⟨slots', rfl, hslots', hzip⟩
    rw [hof.group_eq hplaced] at hslots' hzip
    cases hslots.symm.trans hslots'
    exact ⟨rfl, hzip⟩
  · rintro ⟨rfl, hzip⟩
    refine ⟨slots, rfl, ?_, ?_⟩
    · rw [hof.group_eq hplaced]
      exact hslots
    · rw [hof.group_eq hplaced]
      exact hzip

theorem Layout.mem_addresses {core ccd slot : Nat} :
    (core, ccd, slot) ∈ layout.addresses numbering ↔
      ∃ placed ∈ layout.placed, ccd = placed.index ∧
        (core, slot) ∈ (placed.ids numbering).zip placed.ccd.slots := by
  simp only [Layout.addresses, List.mem_flatMap, List.zip_map_right, List.mem_map, Prod.map_apply,
    Prod.mk.injEq, Prod.exists]
  constructor
  · rintro ⟨placed, hplaced, core', slot', hzip, rfl, rfl, rfl⟩
    exact ⟨placed, hplaced, rfl, hzip⟩
  · rintro ⟨placed, hplaced, rfl, hzip⟩
    exact ⟨placed, hplaced, core, slot, hzip, rfl, rfl, rfl⟩

/-- Lists zipped to the same pairs are equal. -/
theorem eq_of_zip_subset {ids slots slots' : List Nat} (hids : ids.Nodup)
    (hlength : slots.length = ids.length) (hlength' : slots'.length = ids.length)
    (hzip : ∀ entry ∈ ids.zip slots', entry ∈ ids.zip slots) : slots = slots' := by
  refine List.ext_getElem (hlength.trans hlength'.symm) fun i hi hi' => ?_
  have hid : i < ids.length := hlength ▸ hi
  have hfirst : (ids[i], slots[i]) ∈ ids.zip slots :=
    List.mem_iff_getElem.mpr ⟨i, by simpa using ⟨hid, hi⟩, List.getElem_zip⟩
  have hsecond : (ids[i], slots'[i]) ∈ ids.zip slots' :=
    List.mem_iff_getElem.mpr ⟨i, by simpa using ⟨hid, hi'⟩, List.getElem_zip⟩
  exact Grouping.zip_place_unique hids hfirst (hzip _ hsecond)

/-- A layout shown without cores has no CCD. -/
theorem Topology.Of.placed_eq_nil (hof : topology.Of layout numbering)
    (hempty : topology.sortedIds = []) : layout.placed = [] := by
  rw [List.eq_nil_iff_forall_not_mem]
  intro placed hplaced
  have hne : placed.ids numbering ≠ [] := placed.ids_ne_nil
  obtain ⟨core, hcore⟩ := List.exists_mem_of_ne_nil _ hne
  have hmem : core ∈ topology.sortedIds := by
    rw [hof.sortedIds_eq]
    exact List.mem_flatMap.mpr ⟨placed, hplaced, hcore⟩
  rw [hempty] at hmem
  exact absurd hmem List.not_mem_nil

/-- A refusal has one of two reasons: an unproven layout, or a fuse that cannot be read. -/
theorem Topology.Of.refused (hof : topology.Of layout numbering)
    (hfuses : smn.Fuses commands layout) {message : String}
    (hdiscover : discoverCoreMap commands smn topology = .error message) :
    topology.ccdLayoutKnown = false ∨
      ∃ placed ∈ layout.placed, placed.NeedsFuse numbering ∧
        ¬ placed.FuseReadable commands smn := by
  by_cases hknown : topology.ccdLayoutKnown = false
  · exact .inl hknown
  · refine .inr (by_contra fun hread => ?_)
    have hall : ∀ placed ∈ layout.placed, ∃ slots,
        groupSlots commands smn placed.index (placed.ids numbering) = .ok slots := by
      intro placed hplaced
      by_cases hneeds : placed.NeedsFuse numbering
      · have hreadable : placed.FuseReadable commands smn :=
          by_contra fun hunread => hread ⟨placed, hplaced, hneeds, hunread⟩
        exact ⟨_, (Placed.groupSlots_needsFuse hfuses hplaced hneeds).mpr ⟨hreadable, rfl⟩⟩
      · exact ⟨_, Placed.groupSlots_proved hneeds⟩
    obtain ⟨coreMap, hok⟩ :=
      (hof.discover_ok_iff (Bool.eq_true_of_not_eq_false hknown)).mpr hall
    cases hdiscover.symm.trans hok

/-- A complete map is true exactly when no CCD is misread. -/
theorem Topology.Of.true_iff (hof : topology.Of layout numbering)
    (hfuses : smn.Fuses smu.commands layout) {coreMap : List (CoreId × Nat × Nat)}
    (hmap : (smu.setTopology smn topology).coreMap = some coreMap)
    (hall : ∀ placed ∈ layout.placed, ∃ slots,
      groupSlots smu.commands smn placed.index (placed.ids numbering) = .ok slots) :
    (∀ core ccd slot, (core, ccd, slot) ∈ layout.addresses numbering →
      (smu.setTopology smn topology).mapped core = some (ccd, slot)) ↔
      ∀ placed ∈ layout.placed, ¬ placed.Misread numbering := by
  have hids : ∀ placed : Placed, (placed.ids numbering).Nodup := fun placed =>
    placed.ids_ascending.imp Nat.ne_of_lt
  constructor
  · intro htrue placed hplaced hmisread
    obtain ⟨slots, hslots⟩ := hall placed hplaced
    -- A misread CCD is one whose numbering seems to prove its slots, so no fuse was asked.
    have hproved : ¬ placed.NeedsFuse numbering := by
      obtain ⟨rfl, hshift, hends, -⟩ := hmisread
      rintro (⟨hzero, -⟩ | hspans)
      · exact hshift hzero
      · exact Nat.not_lt.mpr hends hspans
    cases (Placed.groupSlots_proved hproved).symm.trans hslots
    refine (Placed.rel_eq_slots_iff hproved).mp ?_ hmisread
    refine eq_of_zip_subset (hids placed) (List.length_map _) Placed.ids_length.symm
      fun entry hentry => ?_
    obtain ⟨core, slot⟩ := entry
    have hcore := (List.of_mem_zip hentry).1
    have hmapped := htrue core placed.index slot
      (Layout.mem_addresses.mpr ⟨placed, hplaced, rfl, hentry⟩)
    exact ((hof.mapped_iff hmap hplaced hcore hslots).mp hmapped).2
  · intro hright core ccd slot haddress
    obtain ⟨placed, hplaced, rfl, hzip⟩ := Layout.mem_addresses.mp haddress
    have hcore := (List.of_mem_zip hzip).1
    obtain ⟨slots, hslots⟩ := hall placed hplaced
    refine (hof.mapped_iff hmap hplaced hcore hslots).mpr ⟨rfl, ?_⟩
    by_cases hneeds : placed.NeedsFuse numbering
    · obtain ⟨-, rfl⟩ := (Placed.groupSlots_needsFuse hfuses hplaced hneeds).mp hslots
      exact hzip
    · cases (Placed.groupSlots_proved hneeds).symm.trans hslots
      rw [(Placed.rel_eq_slots_iff hneeds).mpr (hright placed hplaced)]
      exact hzip

end Discovery

/-- The part about arguments holds of every loaded topology. -/
theorem addressing_iff {smu : RyzenSMU} {smn : Smn} {topology : Topology}
    {generation : CPUGeneration} (hcommands : getCommands generation = some smu.commands)
    (huniform : smu.commands.uniform8coreCcds = true) {layout : Layout}
    {numbering : Numbering} :
    (smu.setTopology smn topology).Addressing generation layout numbering ↔
      (smu.setTopology smn topology).TrueOrRefused layout numbering := by
  have hco := hasCo_of_uniform hcommands huniform
  refine ⟨fun haddressing => haddressing.trueOrRefused, fun htrue => ⟨htrue, ?_, ?_, ?_⟩⟩
  · exact fun core other address hcore hother => mapped_injective hcore hother
  · intro core other ccd slot ccd' slot' hne hcore hother hccd hccd' value value'
    have hslot : slot < 8 := mapped_slot_lt hcore
    have hslot' : slot' < 8 := mapped_slot_lt hother
    refine ⟨coArg ccd slot value, coArg ccd' slot' value',
      encodeCoArg_eq hcommands hco core value ccd hslot,
      encodeCoArg_eq hcommands hco other value' ccd' hslot',
      coArg_lt hccd hslot value, coArg_lt hccd' hslot' value', fun heq => hne ?_⟩
    obtain ⟨rfl, rfl⟩ := coArg_high hslot hslot' heq
    exact mapped_injective hcore hother
  · intro core value ccd slot arg hlow hhigh hencode
    rw [decodeCoArg_encodeCoArg hencode, bmod_int16 hlow hhigh]

/-- The core map of a physical layout is true or refused exactly when the layout is reported
unproven, a fuse that is needed cannot be read, or no CCD is misread. -/
theorem core_map_true_iff {smu : RyzenSMU} {smn : Smn} {topology : Topology}
    {generation : CPUGeneration} (hcommands : getCommands generation = some smu.commands)
    (huniform : smu.commands.uniform8coreCcds = true) {layout : Layout}
    {numbering : Numbering} (hof : topology.Of layout numbering)
    (hfuses : smn.Fuses smu.commands layout) :
    (smu.setTopology smn topology).Addressing generation layout numbering ↔
      topology.ccdLayoutKnown = false ∨
      (∃ placed ∈ layout.placed, placed.NeedsFuse numbering ∧
        ¬ placed.FuseReadable smu.commands smn) ∨
      ∀ placed ∈ layout.placed, ¬ placed.Misread numbering := by
  rw [addressing_iff hcommands huniform]
  have hco := hasCo_of_uniform hcommands huniform
  by_cases hempty : topology.sortedIds = []
  · -- a layout without cores is mapped, and misreads no CCD
    have hplaced : layout.placed = [] := hof.placed_eq_nil hempty
    refine ⟨fun _ => .inr (.inr ?_), fun _ => .inr ?_⟩
    · simp [hplaced]
    · simp [Layout.addresses, hplaced]
  · have hloaded := @setTopology_eq smu smn topology hempty hco huniform
    cases hdiscover : discoverCoreMap smu.commands smn topology with
    | error message =>
        have herror : (smu.setTopology smn topology).coreMapError ≠ none := by
          rw [hloaded, hdiscover]
          exact Option.some_ne_none _
        refine ⟨fun _ => ?_, fun _ => .inl herror⟩
        rcases hof.refused hfuses hdiscover with hunknown | hunread
        · exact .inl hunknown
        · exact .inr (.inl hunread)
    | ok coreMap =>
        have hmap : (smu.setTopology smn topology).coreMap = some coreMap := by
          rw [hloaded, hdiscover]
        have hnone : (smu.setTopology smn topology).coreMapError = none := by
          rw [hloaded, hdiscover]
          rfl
        have hknown : topology.ccdLayoutKnown = true := by
          by_contra hunknown
          rw [discoverCoreMap, if_pos (Bool.eq_false_of_not_eq_true hunknown)] at hdiscover
          cases hdiscover
        have hall := (hof.discover_ok_iff hknown).mp ⟨coreMap, hdiscover⟩
        -- A map was discovered, so every fuse that was needed could be read.
        have hread : ¬ ∃ placed ∈ layout.placed, placed.NeedsFuse numbering ∧
            ¬ placed.FuseReadable smu.commands smn := by
          rintro ⟨placed, hplaced, hneeds, hunread⟩
          obtain ⟨slots, hslots⟩ := hall placed hplaced
          exact hunread ((Placed.groupSlots_needsFuse hfuses hplaced hneeds).mp hslots).1
        rw [RyzenSMU.TrueOrRefused, hnone, hof.true_iff hfuses hmap hall, hknown]
        simp only [ne_eq, not_true_eq_false, false_or, hread, Bool.true_eq_false]

/-- A CCD with the first `count + 1` slots alive. -/
def Ccd.firstSlots (count : Nat) (hcount : count < slotsPerCcd) : Ccd where
  slots := List.range (count + 1)
  ascending := List.pairwise_lt_range
  below := fun _ hslot => Nat.lt_of_lt_of_le (List.mem_range.mp hslot) hcount
  nonempty := by simp

/-- Two CCDs with the first four slots alive, numbered in one sequence. -/
def halvedLayout : Layout := ⟨[Ccd.firstSlots 3 (by decide), Ccd.firstSlots 3 (by decide)]⟩

def halvedTopology : Topology where
  cores := (List.range 8).map fun core => (core, some (core / 4))
  distinct := by decide
  ccdLayoutKnown := true
  cpusAllOnline := some true

/-- Every fuse reads with the upper four slots fused off. -/
def halvedSmn : Smn := { unreadable := none, readSmn := fun _ => some 0xF0 }

/-- The second CCD's cores are addressed at its four dead slots, and no error is stored. -/
theorem core_map_misread :
    getCommands .zen4Raphael = some CommandSets.zen4Raphael ∧
    CommandSets.zen4Raphael.uniform8coreCcds = true ∧
    halvedTopology.Of halvedLayout .contiguous ∧
    halvedSmn.Fuses CommandSets.zen4Raphael halvedLayout ∧
    ¬ ((RyzenSMU.mk CommandSets.zen4Raphael none none none none).setTopology halvedSmn
      halvedTopology).Addressing .zen4Raphael halvedLayout .contiguous := by
  refine ⟨rfl, rfl, ⟨by decide +kernel, rfl⟩, ?_, fun haddressing => ?_⟩
  · intro addr _ placed hplaced fuse hread slot hslot
    cases hread
    have hslots : placed.ccd.slots = [0, 1, 2, 3] := by
      rcases List.mem_cons.mp hplaced with rfl | hrest
      · rfl
      · cases List.mem_singleton.mp hrest
        rfl
    rw [hslots]
    revert slot
    decide
  · have hmapped : ((RyzenSMU.mk CommandSets.zen4Raphael none none none none).setTopology
        halvedSmn halvedTopology).mapped 4 = some (1, 4) := by decide +kernel
    have hnone : ((RyzenSMU.mk CommandSets.zen4Raphael none none none none).setTopology
        halvedSmn halvedTopology).coreMapError = none := by decide +kernel
    rcases haddressing.trueOrRefused with herror | htrue
    · exact herror hnone
    · have htruth := htrue 4 1 0 (by decide +kernel)
      rw [hmapped] at htruth
      cases htruth

/-- A part with six of eight slots alive and the holes closed: its fuse locates every core. -/
theorem core_map_true_of_harvested :
    ((RyzenSMU.mk CommandSets.zen3Vermeer none none none none).setTopology
      { unreadable := none, readSmn := fun _ => some 0x24 }
      { cores := (List.range 6).map fun core => (core, some 0)
        distinct := by decide
        ccdLayoutKnown := true
        cpusAllOnline := some true }).Addressing .zen3Vermeer
      ⟨[{ slots := [0, 1, 3, 4, 6, 7], ascending := by decide, below := by decide,
          nonempty := by decide }]⟩ .contiguous := by
  refine (core_map_true_iff rfl rfl ⟨by decide +kernel, rfl⟩ ?_).mpr (.inr (.inr ?_))
  · intro addr _ placed hplaced fuse hread slot hslot
    cases hread
    cases List.mem_singleton.mp hplaced
    revert slot
    decide
  · intro placed hplaced hmisread
    cases List.mem_singleton.mp hplaced
    exact hmisread.2.1 rfl

end Smu
end CoreCycler
