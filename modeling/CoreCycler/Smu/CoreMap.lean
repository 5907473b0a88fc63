import CoreCycler.Library.Grouping
import CoreCycler.Smu.Commands
import Mathlib.Data.List.Dedup
import Mathlib.Data.List.Sort
import Mathlib.Data.Nat.Digits.Defs

/-!
# The core map

`set_topology` discovers where the SMU addresses each core: its CCD and its physical slot,
fused-off slots counted.  The operating system's core IDs show the slots only where they keep
the holes, so a group of cores whose numbering proves nothing is placed by the CCD's
core-disable fuse, and a fuse that cannot be read refuses every per-core operation.
-/

namespace CoreCycler
namespace Smu

open Library

def slotsPerCcd : Nat := 8

def ccdFuseShift : Nat := 25

/-- The CPU topology, as far as the core map reads it. -/
structure Topology where
  /-- The physical cores with the CCD of their L3 cache. -/
  cores : List (CoreId × Option Nat)
  /-- A core ID is a dictionary key. -/
  distinct : (cores.map Prod.fst).Nodup
  ccdLayoutKnown : Bool
  cpusAllOnline : Option Bool

/-- The CCD of a core's L3 cache. -/
def Topology.ccd (topology : Topology) (core : CoreId) : Option Nat :=
  (topology.cores.lookup core).bind id

/-- The core IDs in ascending order. -/
def Topology.sortedIds (topology : Topology) : List CoreId :=
  (topology.cores.map Prod.fst).insertionSort (· ≤ ·)

/-- The SMN node of the driver while a topology is set. -/
structure Smn where
  /-- Why the node cannot be driven, if it cannot. -/
  unreadable : Option String
  /-- The register at an address, or `none` unless the transfer is exact. -/
  readSmn : Nat → Option Nat

/-- Two hexadecimal digits behind `0x`. -/
def hexByte (value : Nat) : String :=
  "0x" ++ String.ofList ([value / 16, value % 16].map Nat.digitChar)

/-- Group core IDs by the CCD they are encoded under, refusing unmodelled layouts. -/
def groupCores (topology : Topology) (ids : List CoreId) :
    Except String (List (Nat × List CoreId)) :=
  let byL3 := ids.all fun core => (topology.ccd core).isSome
  let groups := Grouping.group
    (fun core => if byL3 then (topology.ccd core).getD 0 else core / slotsPerCcd) ids
  let largest := (groups.map fun entry => entry.2.length).foldr max 0
  if largest > slotsPerCcd then
    .error <| s!"detected L3 group contains {largest} cores, exceeding the verified " ++
      "eight-slot CCD layout; per-core CO stays disabled"
  else
    .ok groups

/-- Slots the numbering of a group proves by itself; `none` means read the fuse. -/
def deriveGroupSlots (groupIds : List CoreId) (holesTrusted : Bool) : Option (List Nat) :=
  let windows := (groupIds.map (· / slotsPerCcd)).dedup
  if windows.length ≠ 1 then
    none
  else
    let rel := groupIds.map (· % slotsPerCcd)
    if rel = List.range groupIds.length then
      if groupIds.length = slotsPerCcd then some rel else none
    else
      if holesTrusted then some rel else none

/-- The live slots that a core-disable fuse leaves: a set bit is a fused-off slot. -/
def liveSlots (fuse : Nat) : List Nat :=
  (List.range slotsPerCcd).filter fun slot => !fuse.testBit slot

/-- A CCD's live physical slots, from its SMN core-disable fuse. -/
def fuseGroupSlots (commands : SMUCommandSet) (smn : Smn) (encodeCcd want : Nat) :
    Except String (List Nat) :=
  match commands.coreFuseAddr with
  | none =>
      .error <| "core ids on this CPU are renumbered and no core-disable fuse " ++
        s!"address is verified for {commands.generation.name}, so " ++
        "the fused-off slots cannot be located -- per-core CO stays " ++
        "disabled instead of writing to the wrong cores; please report " ++
        "this output"
  | some addr =>
      match smn.unreadable with
      | some msg =>
          .error <| "core ids on this CPU are renumbered, so the SMU core-disable " ++
            s!"fuse has to be read to find the fused-off slots: {msg} -- " ++
            "per-core CO stays disabled until then"
      | none =>
          match smn.readSmn (addr + encodeCcd <<< ccdFuseShift) with
          | none =>
              .error <| s!"core ids on this CPU are renumbered and the CCD-{encodeCcd} " ++
                "core-disable fuse read failed on an otherwise writable smn " ++
                "file -- per-core CO stays disabled instead of writing to the " ++
                "wrong cores; please report this output"
          | some fuse =>
              let live := liveSlots fuse
              -- The fuse is believed only if it leaves as many cores as the OS reports.
              if live.length = want then
                .ok live
              else
                .error <| s!"core ids on this CPU are renumbered and the CCD-{encodeCcd} " ++
                  s!"core-disable fuse disagrees with the OS: fuse {hexByte (fuse &&& 0xFF)} " ++
                  s!"leaves {live.length} live slots {live} but the OS reports {want} " ++
                  "cores -- per-core CO stays disabled instead of writing to the " ++
                  "wrong cores; please report this output"

/-- The slots of a group: proved by its numbering, or else read from the fuse. -/
def groupSlots (commands : SMUCommandSet) (smn : Smn) (encodeCcd : Nat)
    (groupIds : List CoreId) : Except String (List Nat) :=
  match deriveGroupSlots groupIds true with
  | some slots => .ok slots
  | none => fuseGroupSlots commands smn encodeCcd groupIds.length

/-- Map the cores of every group onto its slots, in order; the first refusal ends the map. -/
def mapGroups (commands : SMUCommandSet) (smn : Smn) :
    List (Nat × List CoreId) → Except String (List (CoreId × Nat × Nat))
  | [] => .ok []
  | (encodeCcd, groupIds) :: rest =>
      match groupSlots commands smn encodeCcd groupIds with
      | .error message => .error message
      | .ok slots =>
          match mapGroups commands smn rest with
          | .error message => .error message
          | .ok others =>
              .ok (groupIds.zip (slots.map fun slot => (encodeCcd, slot)) ++ others)

/-- The discovery of a generation with uniform CCDs: the map, or why there is none. -/
def discoverCoreMap (commands : SMUCommandSet) (smn : Smn) (topology : Topology) :
    Except String (List (CoreId × Nat × Nat)) :=
  if topology.ccdLayoutKnown = false then
    .error "CCD layout is unproven; per-core CO stays disabled"
  else
    match groupCores topology topology.sortedIds with
    | .error message => .error message
    | .ok groups =>
        match topology.cpusAllOnline with
        | some true => mapGroups commands smn (groups.insertionSort fun a b => a.1 ≤ b.1)
        | some false => .error "some CPUs are offline; online all cores before CO tuning"
        | none => .error "online CPU state is unproven; online all cores before CO tuning"

/-- The driver's addressing state. -/
structure RyzenSMU where
  commands : SMUCommandSet
  /-- The L3 CCD of every core that has one. -/
  topologyCcd : Option (List (CoreId × Nat)) := none
  coreMap : Option (List (CoreId × Nat × Nat)) := none
  coreMapError : Option String := none
  knownCoreIds : Option (List CoreId) := none

/-- The state a topology is loaded into: its L3 CCDs and core IDs, and no map. -/
def RyzenSMU.loaded (smu : RyzenSMU) (topology : Topology) : RyzenSMU :=
  { commands := smu.commands
    topologyCcd := some (topology.cores.filterMap fun entry =>
      entry.2.map fun ccd => (entry.1, ccd))
    coreMap := none
    coreMapError := none
    knownCoreIds := if topology.sortedIds = [] then none else some topology.sortedIds }

/-- Discover how core IDs map onto (CCD, physical slot) addresses. -/
def RyzenSMU.setTopology (smu : RyzenSMU) (smn : Smn) (topology : Topology) : RyzenSMU :=
  if topology.sortedIds = [] ∨ smu.commands.hasCo = false ∨
      smu.commands.uniform8coreCcds = false then
    smu.loaded topology
  else
    match discoverCoreMap smu.commands smn topology with
    | .error message => { smu.loaded topology with coreMapError := some message }
    | .ok coreMap => { smu.loaded topology with coreMap := some coreMap }

/-- The discovered address of a core. -/
def RyzenSMU.mapped (smu : RyzenSMU) (core : CoreId) : Option (Nat × Nat) :=
  smu.coreMap.bind fun coreMap => coreMap.lookup core

/-! ## What a discovered map is -/

section Slots

variable {commands : SMUCommandSet} {smn : Smn}

/-- The list of windows has one entry when all cores share one. -/
theorem windows_length_eq_one {groupIds : List CoreId} :
    ((groupIds.map (· / slotsPerCcd)).dedup).length = 1 ↔
      groupIds ≠ [] ∧ ∃ window, ∀ core ∈ groupIds, core / slotsPerCcd = window := by
  constructor
  · intro hone
    obtain ⟨window, hwindow⟩ := List.length_eq_one_iff.mp hone
    refine ⟨?_, window, fun core hcore => ?_⟩
    · rintro rfl
      simp at hwindow
    · have hmem : core / slotsPerCcd ∈ (groupIds.map (· / slotsPerCcd)).dedup :=
        List.mem_dedup.mpr (List.mem_map.mpr ⟨core, hcore, rfl⟩)
      rw [hwindow] at hmem
      exact List.mem_singleton.mp hmem
  · rintro ⟨hne, window, hwindow⟩
    have hwindows : groupIds.map (· / slotsPerCcd) =
        List.replicate groupIds.length window :=
      List.eq_replicate_iff.mpr ⟨List.length_map _, fun place hplace => by
        obtain ⟨core, hcore, rfl⟩ := List.mem_map.mp hplace
        exact hwindow core hcore⟩
    rw [hwindows, List.replicate_dedup (by simpa using hne)]
    rfl

/-- A numbering that proves its slots is one window, read modulo the window. -/
theorem deriveGroupSlots_eq_some {groupIds : List CoreId} {slots : List Nat}
    (hsome : deriveGroupSlots groupIds true = some slots) :
    slots = groupIds.map (· % slotsPerCcd) ∧
      ∃ window, ∀ core ∈ groupIds, core / slotsPerCcd = window := by
  simp only [deriveGroupSlots, if_true] at hsome
  split_ifs at hsome with hwindows hfront hfull
  · cases hsome
    exact ⟨rfl, (windows_length_eq_one.mp (not_not.mp hwindows)).2⟩
  · cases hsome
    exact ⟨rfl, (windows_length_eq_one.mp (not_not.mp hwindows)).2⟩

theorem mem_liveSlots {fuse slot : Nat} :
    slot ∈ liveSlots fuse ↔ slot < slotsPerCcd ∧ fuse.testBit slot = false := by
  simp [liveSlots]

theorem liveSlots_pairwise (fuse : Nat) : (liveSlots fuse).Pairwise (· < ·) :=
  List.Pairwise.filter _ List.pairwise_lt_range

theorem fuseGroupSlots_ok {encodeCcd want : Nat} {slots : List Nat}
    (hok : fuseGroupSlots commands smn encodeCcd want = .ok slots) :
    ∃ addr fuse, commands.coreFuseAddr = some addr ∧ smn.unreadable = none ∧
      smn.readSmn (addr + encodeCcd <<< ccdFuseShift) = some fuse ∧
      slots = liveSlots fuse ∧ slots.length = want := by
  unfold fuseGroupSlots at hok
  cases haddr : commands.coreFuseAddr with
  | none => simp [haddr] at hok
  | some addr =>
      cases hnode : smn.unreadable with
      | some msg => simp [haddr, hnode] at hok
      | none =>
          cases hread : smn.readSmn (addr + encodeCcd <<< ccdFuseShift) with
          | none => simp [haddr, hnode, hread] at hok
          | some fuse =>
              simp only [haddr, hnode, hread] at hok
              split_ifs at hok with hwant
              cases hok
              exact ⟨addr, fuse, rfl, rfl, hread, rfl, hwant⟩

/-- A group gets one slot a core, each within the CCD and none twice. -/
theorem groupSlots_ok {encodeCcd : Nat} {groupIds : List CoreId} {slots : List Nat}
    (hnodup : groupIds.Nodup)
    (hok : groupSlots commands smn encodeCcd groupIds = .ok slots) :
    slots.length = groupIds.length ∧ slots.Nodup ∧ ∀ slot ∈ slots, slot < slotsPerCcd := by
  unfold groupSlots at hok
  cases hderive : deriveGroupSlots groupIds true with
  | some derived =>
      simp only [hderive] at hok
      cases hok
      obtain ⟨rfl, window, hwindow⟩ := deriveGroupSlots_eq_some hderive
      refine ⟨List.length_map _, hnodup.map_on fun core hcore other hother heq => ?_, ?_⟩
      · have hsame : core / slotsPerCcd = other / slotsPerCcd :=
          (hwindow core hcore).trans (hwindow other hother).symm
        rw [← Nat.div_add_mod core slotsPerCcd, ← Nat.div_add_mod other slotsPerCcd, hsame, heq]
      · intro slot hslot
        obtain ⟨core, -, rfl⟩ := List.mem_map.mp hslot
        exact Nat.mod_lt _ (by decide)
  | none =>
      simp only [hderive] at hok
      obtain ⟨-, fuse, -, -, -, rfl, hlength⟩ := fuseGroupSlots_ok hok
      exact ⟨hlength, (liveSlots_pairwise fuse).imp Nat.ne_of_lt,
        fun slot hslot => (mem_liveSlots.mp hslot).1⟩

/-- The map is complete exactly when no group is refused. -/
theorem mapGroups_ok_iff (groups : List (Nat × List CoreId)) :
    (∃ coreMap, mapGroups commands smn groups = .ok coreMap) ↔
      ∀ entry ∈ groups, ∃ slots, groupSlots commands smn entry.1 entry.2 = .ok slots := by
  induction groups with
  | nil => simp [mapGroups]
  | cons first rest ih =>
      obtain ⟨encodeCcd, groupIds⟩ := first
      rw [List.forall_mem_cons, ← ih, mapGroups]
      cases groupSlots commands smn encodeCcd groupIds with
      | error message => simp
      | ok slots =>
          cases mapGroups commands smn rest with
          | error message => simp
          | ok others => simp

/-- The entries of a complete map are those of its groups. -/
theorem mem_mapGroups {groups : List (Nat × List CoreId)} :
    ∀ {coreMap : List (CoreId × Nat × Nat)}, mapGroups commands smn groups = .ok coreMap →
      ∀ entry, entry ∈ coreMap ↔ ∃ encodeCcd groupIds slots,
        (encodeCcd, groupIds) ∈ groups ∧
        groupSlots commands smn encodeCcd groupIds = .ok slots ∧
        entry ∈ groupIds.zip (slots.map fun slot => (encodeCcd, slot)) := by
  induction groups with
  | nil =>
      intro coreMap hok entry
      cases hok
      simp
  | cons first rest ih =>
      obtain ⟨encodeCcd, groupIds⟩ := first
      intro coreMap hok entry
      rw [mapGroups] at hok
      cases hslots : groupSlots commands smn encodeCcd groupIds with
      | error message => simp [hslots] at hok
      | ok slots =>
          cases hrest : mapGroups commands smn rest with
          | error message => simp [hslots, hrest] at hok
          | ok others =>
              simp only [hslots, hrest] at hok
              cases hok
              rw [List.mem_append, ih hrest]
              constructor
              · rintro (hfirst | ⟨ccd, ids, found, hmem, hfound, hentry⟩)
                · exact ⟨encodeCcd, groupIds, slots, List.mem_cons_self, hslots, hfirst⟩
                · exact ⟨ccd, ids, found, List.mem_cons_of_mem _ hmem, hfound, hentry⟩
              · rintro ⟨ccd, ids, found, hmem, hfound, hentry⟩
                rcases List.mem_cons.mp hmem with heq | hmem
                · cases heq
                  cases hfound.symm.trans hslots
                  exact .inl hentry
                · exact .inr ⟨ccd, ids, found, hmem, hfound, hentry⟩

end Slots

/-! ## The map of any topology -/

section Topologies

variable {smu : RyzenSMU} {smn : Smn} {topology : Topology}

theorem Topology.sortedIds_nodup (topology : Topology) : topology.sortedIds.Nodup :=
  (List.perm_insertionSort _ _).nodup_iff.mpr topology.distinct

/-- The CCD a core is encoded under. -/
def Topology.encodeCcd (topology : Topology) (core : CoreId) : Nat :=
  if (topology.sortedIds.all fun other => (topology.ccd other).isSome) = true then
    (topology.ccd core).getD 0
  else
    core / slotsPerCcd

/-- Accepted groups are the classes of the encoded CCD. -/
theorem groupCores_ok {groups : List (Nat × List CoreId)}
    (hok : groupCores topology topology.sortedIds = .ok groups) :
    groups = Grouping.group topology.encodeCcd topology.sortedIds := by
  simp only [groupCores] at hok
  unfold Topology.encodeCcd
  split_ifs at hok with hall
  · cases hok
    simp only [if_pos hall]
  · cases hok
    simp only [if_neg hall]

/-- A complete discovery is a complete pass over the groups. -/
theorem discoverCoreMap_ok {commands : SMUCommandSet}
    {coreMap : List (CoreId × Nat × Nat)}
    (hok : discoverCoreMap commands smn topology = .ok coreMap) :
    ∃ groups, groupCores topology topology.sortedIds = .ok groups ∧
      mapGroups commands smn (groups.insertionSort fun a b => a.1 ≤ b.1) = .ok coreMap := by
  unfold discoverCoreMap at hok
  by_cases hknown : topology.ccdLayoutKnown = false
  · rw [if_pos hknown] at hok
    cases hok
  · rw [if_neg hknown] at hok
    cases hgroups : groupCores topology topology.sortedIds with
    | error message => simp [hgroups] at hok
    | ok groups =>
        cases honline : topology.cpusAllOnline with
        | none => simp [hgroups, honline] at hok
        | some online =>
            cases online with
            | false => simp [hgroups, honline] at hok
            | true => exact ⟨groups, rfl, by simpa [hgroups, honline] using hok⟩

theorem setTopology_coreMap {coreMap : List (CoreId × Nat × Nat)}
    (hmap : (smu.setTopology smn topology).coreMap = some coreMap) :
    discoverCoreMap smu.commands smn topology = .ok coreMap := by
  unfold RyzenSMU.setTopology at hmap
  split_ifs at hmap with hstop
  · cases hmap
  · cases hdiscover : discoverCoreMap smu.commands smn topology with
    | error message =>
        rw [hdiscover] at hmap
        cases hmap
    | ok found =>
        rw [hdiscover] at hmap
        cases hmap
        rfl

/-- With cores and uniform CCDs, a topology is loaded through the discovery. -/
theorem setTopology_eq (hcores : topology.sortedIds ≠ []) (hco : smu.commands.hasCo = true)
    (huniform : smu.commands.uniform8coreCcds = true) :
    smu.setTopology smn topology =
      match discoverCoreMap smu.commands smn topology with
      | .error message => { smu.loaded topology with coreMapError := some message }
      | .ok coreMap => { smu.loaded topology with coreMap := some coreMap } := by
  refine if_neg ?_
  rintro (hnil | hnone | hmixed)
  · exact hcores hnil
  · exact absurd (hco.symm.trans hnone) (by decide)
  · exact absurd (huniform.symm.trans hmixed) (by decide)

/-- An entry of a discovered map is a core of its CCD's group, at one of the group's slots. -/
theorem mem_coreMap {coreMap : List (CoreId × Nat × Nat)}
    (hmap : (smu.setTopology smn topology).coreMap = some coreMap) {core ccd slot : Nat} :
    (core, ccd, slot) ∈ coreMap ↔
      ∃ slots, topology.encodeCcd core = ccd ∧
        groupSlots smu.commands smn ccd
          (topology.sortedIds.filter fun other => topology.encodeCcd other = ccd) =
            .ok slots ∧
        (core, slot) ∈
          (topology.sortedIds.filter fun other => topology.encodeCcd other = ccd).zip slots := by
  obtain ⟨groups, hgroups, hpass⟩ := discoverCoreMap_ok (setTopology_coreMap hmap)
  have hentry := mem_mapGroups hpass (core, ccd, slot)
  rw [hentry, groupCores_ok hgroups]
  constructor
  · rintro ⟨encodeCcd, groupIds, slots, hgroup, hslots, hin⟩
    obtain ⟨rfl, -⟩ := (Grouping.mem_group _ _).mp ((List.mem_insertionSort _).mp hgroup)
    rw [List.zip_map_right, List.mem_map] at hin
    obtain ⟨⟨other, place⟩, hzip, heq⟩ := hin
    cases heq
    have hcore := (List.of_mem_zip hzip).1
    exact ⟨slots, of_decide_eq_true (List.mem_filter.mp hcore).2, hslots, hzip⟩
  · rintro ⟨slots, hccd, hslots, hzip⟩
    refine ⟨ccd, _, slots, (List.mem_insertionSort _).mpr ((Grouping.mem_group _ _).mpr
      ⟨rfl, List.ne_nil_of_mem (List.of_mem_zip hzip).1⟩), hslots, ?_⟩
    rw [List.zip_map_right, List.mem_map]
    exact ⟨(core, slot), hzip, rfl⟩

/-- Looking a core up returns the one entry it has. -/
theorem mapped_eq_some {coreMap : List (CoreId × Nat × Nat)}
    (hmap : (smu.setTopology smn topology).coreMap = some coreMap) {core ccd slot : Nat} :
    (smu.setTopology smn topology).mapped core = some (ccd, slot) ↔
      (core, ccd, slot) ∈ coreMap := by
  rw [RyzenSMU.mapped, hmap, Option.bind_some]
  constructor
  · exact Grouping.mem_of_lookup
  · intro hmem
    refine Grouping.lookup_of_unique hmem fun other hother => ?_
    obtain ⟨otherCcd, otherSlot⟩ := other
    obtain ⟨slots, rfl, hslots, hzip⟩ := (mem_coreMap hmap).mp hmem
    obtain ⟨slots', rfl, hslots', hzip'⟩ := (mem_coreMap hmap).mp hother
    cases hslots.symm.trans hslots'
    rw [Grouping.zip_place_unique (topology.sortedIds_nodup.filter _) hzip hzip']

/-- No two cores share an address, whatever the topology and the fuses say. -/
theorem mapped_injective {core other : CoreId} {address : Nat × Nat}
    (hcore : (smu.setTopology smn topology).mapped core = some address)
    (hother : (smu.setTopology smn topology).mapped other = some address) : core = other := by
  obtain ⟨coreMap, hmap, -⟩ := Option.bind_eq_some_iff.mp hcore
  obtain ⟨ccd, slot⟩ := address
  obtain ⟨slots, -, hslots, hzip⟩ :=
    (mem_coreMap hmap).mp ((mapped_eq_some hmap).mp hcore)
  obtain ⟨slots', -, hslots', hzip'⟩ :=
    (mem_coreMap hmap).mp ((mapped_eq_some hmap).mp hother)
  cases hslots.symm.trans hslots'
  exact Grouping.zip_item_unique
    (groupSlots_ok (topology.sortedIds_nodup.filter _) hslots).2.1 hzip hzip'

/-- A discovered slot is one of the eight of its CCD. -/
theorem mapped_slot_lt {core : CoreId} {address : Nat × Nat}
    (hcore : (smu.setTopology smn topology).mapped core = some address) :
    address.2 < slotsPerCcd := by
  obtain ⟨coreMap, hmap, -⟩ := Option.bind_eq_some_iff.mp hcore
  obtain ⟨ccd, slot⟩ := address
  obtain ⟨slots, -, hslots, hzip⟩ :=
    (mem_coreMap hmap).mp ((mapped_eq_some hmap).mp hcore)
  exact (groupSlots_ok (topology.sortedIds_nodup.filter _) hslots).2.2 slot
    (List.of_mem_zip hzip).2

end Topologies

end Smu
end CoreCycler
