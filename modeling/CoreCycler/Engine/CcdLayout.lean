import CoreCycler.Engine.Topology

/-!
# Known CCD layouts

Whatever the files hold, a layout that counts as known divides the cores by their last-level
cache: the CCDs are numbered without gaps in the order of the cache IDs, and two cores are on one
CCD exactly if their first CPUs hang on the same cache.
-/

namespace CoreCycler
namespace Engine
namespace Topology

open Library Library.Reading Smu

variable (digits : DigitValues)

/-! ## The processors that were read -/

/-- The processors that the parser has kept, in order. -/
structure Parser.Holds (parser : Parser) (entries : List LogicalCPU) : Prop where
  coresSeen : parser.coresSeen = entries.foldl
    (fun held entry => held.collect entry.physicalCore entry.logicalId) Dict.empty
  logicalMap : parser.topo.logicalMap =
    Dict.assign LogicalCPU.logicalId id entries Dict.empty
  cores : parser.topo.cores = Dict.empty

theorem Parser.holds_initial : (Parser.initial CPUTopology.initial).Holds [] := ⟨rfl, rfl, rfl⟩

/-- A processor that is kept comes last. -/
theorem Parser.Holds.record {parser : Parser} {entries : List LogicalCPU}
    (hholds : parser.Holds entries) : ∃ more, parser.record.Holds (entries ++ more) := by
  unfold Parser.record
  split_ifs with hread
  · refine ⟨[⟨parser.currentProc.toNat, parser.currentCore.toNat, parser.currentPkg, []⟩], ?_⟩
    constructor
    · rw [List.foldl_concat, ← hholds.coresSeen]
    · rw [Dict.assign, List.foldl_concat, ← Dict.assign, ← hholds.logicalMap]
      rfl
    · exact hholds.cores
  · exact ⟨[], by rwa [List.append_nil]⟩

/-- What a parser has kept is still the same. -/
structure Parser.Kept (parser next : Parser) : Prop where
  coresSeen : next.coresSeen = parser.coresSeen
  logicalMap : next.topo.logicalMap = parser.topo.logicalMap
  cores : next.topo.cores = parser.topo.cores

/-- A line ends a processor, or changes nothing that is kept. -/
theorem Parser.line_cases {parser next : Parser} {line : List Char}
    (hnext : parser.line digits line = next) :
    parser.Kept next ∨
      next = { parser.record with currentProc := -1, currentCore := -1 } := by
  unfold Parser.line at hnext
  split_ifs at hnext
  all_goals first | exact Or.inr hnext.symm | exact hnext ▸ Or.inl ⟨rfl, rfl, rfl⟩

theorem Parser.Holds.line {parser : Parser} {entries : List LogicalCPU}
    (hholds : parser.Holds entries) (line : List Char) :
    ∃ more, (parser.line digits line).Holds (entries ++ more) := by
  rcases Parser.line_cases digits (Eq.refl (parser.line digits line)) with hkept | hended
  · refine ⟨[], ?_⟩
    rw [List.append_nil]
    exact ⟨hkept.coresSeen.trans hholds.coresSeen, hkept.logicalMap.trans hholds.logicalMap,
      hkept.cores.trans hholds.cores⟩
  · obtain ⟨more, hrecord⟩ := hholds.record
    rw [hended]
    exact ⟨more, hrecord.coresSeen, hrecord.logicalMap, hrecord.cores⟩

theorem Parser.Holds.lines {parser : Parser} {entries : List LogicalCPU}
    (hholds : parser.Holds entries) (lines : List (List Char)) :
    ∃ more, (lines.foldl (Parser.line digits) parser).Holds (entries ++ more) := by
  induction lines generalizing parser entries with
  | nil => exact ⟨[], by rwa [List.append_nil]⟩
  | cons line rest ih =>
      obtain ⟨more, hline⟩ := hholds.line digits line
      obtain ⟨others, hrest⟩ := ih hline
      exact ⟨more ++ others, by rwa [← List.append_assoc]⟩

/-! ## The logical CPUs -/

/-- The logical CPUs are kept under their IDs, and CPUs of one core have the same siblings, among
which they are themselves. -/
structure LogicalMap.Sound (logicalMap : Dict Nat LogicalCPU) : Prop where
  named : ∀ cpu lcpu, logicalMap.get cpu = some lcpu → lcpu.logicalId = cpu
  siblings : ∀ lcpu ∈ logicalMap.values, ∀ other ∈ logicalMap.values,
    lcpu.physicalCore = other.physicalCore → lcpu.coreCpus = other.coreCpus
  ascending : ∀ lcpu ∈ logicalMap.values, lcpu.coreCpus.Pairwise (· ≤ ·)
  member : ∀ lcpu ∈ logicalMap.values, lcpu.logicalId ∈ lcpu.coreCpus

/-- The siblings of a CPU are the processors of its core. -/
theorem Parser.Holds.finish_get {parser : Parser} {entries : List LogicalCPU}
    (hholds : parser.Holds entries) {cpu : Nat} {lcpu : LogicalCPU}
    (hget : parser.finish.logicalMap.get cpu = some lcpu) :
    lcpu.logicalId = cpu ∧ (∃ entry ∈ entries, entry.logicalId = cpu ∧
      entry.physicalCore = lcpu.physicalCore) ∧
    lcpu.coreCpus = ((entries.filter fun entry => entry.physicalCore = lcpu.physicalCore).map
      LogicalCPU.logicalId).insertionSort (· ≤ ·) := by
  rw [Parser.finish, Dict.get_mapValues, hholds.logicalMap, Option.map_eq_some_iff] at hget
  obtain ⟨entry, hentry, rfl⟩ := hget
  obtain ⟨kept, hmem, hname, hkept⟩ := Dict.exists_of_get_assign _ _ hentry
  replace hkept : kept = entry := hkept
  subst hkept
  refine ⟨hname, ⟨kept, hmem, hname, rfl⟩, ?_⟩
  have hseen : kept.physicalCore ∈ parser.coresSeen.keys := by
    rw [hholds.coresSeen]
    exact (Dict.mem_keys_collected LogicalCPU.physicalCore LogicalCPU.logicalId entries).mpr
      ⟨kept, hmem, rfl⟩
  obtain ⟨cpus, hcpus⟩ := Dict.mem_keys.mp hseen
  have hcollected := Dict.get_collected LogicalCPU.physicalCore LogicalCPU.logicalId entries
    kept.physicalCore
  rw [← hholds.coresSeen, hcpus] at hcollected
  show ((parser.coresSeen.get kept.physicalCore).getD [cpu]).insertionSort (· ≤ ·) = _
  rw [hcpus, ← hcollected]
  rfl

theorem Parser.Holds.sound {parser : Parser} {entries : List LogicalCPU}
    (hholds : parser.Holds entries) : LogicalMap.Sound parser.finish.logicalMap := by
  constructor
  · exact fun cpu lcpu hget => (hholds.finish_get hget).1
  · intro lcpu hlcpu other hother hcore
    obtain ⟨cpu, hget⟩ := Dict.mem_values.mp hlcpu
    obtain ⟨cpu', hget'⟩ := Dict.mem_values.mp hother
    rw [(hholds.finish_get hget).2.2, (hholds.finish_get hget').2.2, hcore]
  · intro lcpu hlcpu
    obtain ⟨cpu, hget⟩ := Dict.mem_values.mp hlcpu
    rw [(hholds.finish_get hget).2.2]
    exact List.pairwise_insertionSort _ _
  · intro lcpu hlcpu
    obtain ⟨cpu, hget⟩ := Dict.mem_values.mp hlcpu
    obtain ⟨hname, ⟨entry, hentry, hid, hcore⟩, hcpus⟩ := hholds.finish_get hget
    rw [hcpus, List.mem_insertionSort, List.mem_map]
    exact ⟨entry, List.mem_filter.mpr ⟨hentry, by simpa using hcore⟩, hid.trans hname.symm⟩

/-! ## The caches of the cores -/

/-- The first CPUs of the cores that show their cache: its ID, with the core. -/
def leaders (files : Files) (topo : CPUTopology) : List (List Char × CoreId) :=
  topo.logicalMap.values.filterMap fun lcpu =>
    if lcpu.coreCpus.min? = some lcpu.logicalId then
      (l3Id files lcpu.logicalId).map fun id => (id, lcpu.physicalCore)
    else none

/-- The IDs of the caches in the order of the CCDs. -/
def cacheIds (groups : Dict (List Char) (List CoreId)) : List (List Char) :=
  (groups.entries.insertionSort fun before behind =>
    l3IdSortKey before.1 ≤ l3IdSortKey behind.1).map Prod.fst

theorem l3Groups_eq (files : Files) (topo : CPUTopology) :
    l3Groups files topo = (leaders files topo).foldl
      (fun groups leader => groups.collect leader.1 leader.2) Dict.empty := by
  unfold l3Groups leaders
  rw [List.foldl_filterMap]
  congr 1
  funext groups lcpu
  split_ifs
  · cases l3Id files lcpu.logicalId <;> rfl
  · rfl

section Groups

variable {files : Files} {topo : CPUTopology}

/-- The cores of a cache are those whose first CPU shows its ID. -/
theorem mem_l3Groups {id : List Char} {cores : List CoreId}
    (hentry : (id, cores) ∈ (l3Groups files topo).entries) (core : CoreId) :
    core ∈ cores ↔ (id, core) ∈ leaders files topo := by
  have hcollected := Dict.get_collected Prod.fst Prod.snd (leaders files topo) id
  rw [← l3Groups_eq, Dict.get_eq_some.mpr hentry, Option.getD_some] at hcollected
  rw [hcollected, List.mem_map]
  constructor
  · rintro ⟨leader, hleader, rfl⟩
    rw [List.mem_filter, decide_eq_true_eq] at hleader
    rw [← hleader.2]
    exact hleader.1
  · exact fun hleader => ⟨_, List.mem_filter.mpr ⟨hleader, by simp⟩, rfl⟩

theorem mem_cacheIds {id : List Char} :
    id ∈ cacheIds (l3Groups files topo) ↔ ∃ core, (id, core) ∈ leaders files topo := by
  have hkeys : id ∈ (l3Groups files topo).keys ↔ ∃ leader ∈ leaders files topo, leader.1 = id := by
    rw [l3Groups_eq]
    exact Dict.mem_keys_collected Prod.fst Prod.snd (leaders files topo)
  unfold cacheIds
  rw [((List.perm_insertionSort _ _).map Prod.fst).mem_iff]
  refine hkeys.trans ⟨?_, ?_⟩
  · rintro ⟨leader, hleader, rfl⟩
    exact ⟨leader.2, hleader⟩
  · rintro ⟨core, hleader⟩
    exact ⟨_, hleader, rfl⟩

theorem cacheIds_nodup (groups : Dict (List Char) (List CoreId)) : (cacheIds groups).Nodup :=
  ((List.perm_insertionSort _ _).map Prod.fst).nodup_iff.mpr groups.distinct

theorem cacheIds_ordered (groups : Dict (List Char) (List CoreId)) :
    (cacheIds groups).Pairwise fun before behind => l3IdSortKey before ≤ l3IdSortKey behind := by
  have htotal : Std.Total fun (before behind : List Char × List CoreId) =>
      l3IdSortKey before.1 ≤ l3IdSortKey behind.1 := ⟨fun _ _ => Nat.le_total _ _⟩
  have htrans : IsTrans _ fun (before behind : List Char × List CoreId) =>
      l3IdSortKey before.1 ≤ l3IdSortKey behind.1 := ⟨fun _ _ _ => Nat.le_trans⟩
  exact List.pairwise_map.mpr (List.pairwise_insertionSort _ _)

theorem cacheIds_length (groups : Dict (List Char) (List CoreId)) :
    (cacheIds groups).length = groups.entries.length := by
  rw [cacheIds, List.length_map, List.length_insertionSort]

theorem LogicalMap.Sound.ids_distinct (hsound : LogicalMap.Sound topo.logicalMap) :
    topo.logicalMap.values.Pairwise fun lcpu other => lcpu.logicalId ≠ other.logicalId := by
  have hkeys : topo.logicalMap.entries.Pairwise fun entry other => entry.1 ≠ other.1 :=
    List.pairwise_map.mp topo.logicalMap.distinct
  refine List.pairwise_map.mpr (hkeys.imp_of_mem fun {entry other} hentry hother hne heq => hne ?_)
  rw [← hsound.named _ _ (Dict.get_eq_some.mpr hentry), heq]
  exact hsound.named _ _ (Dict.get_eq_some.mpr hother)

/-- The CPUs of a core agree on which of them is the first. -/
theorem leaders_nodup (hsound : LogicalMap.Sound topo.logicalMap) :
    ((leaders files topo).map Prod.snd).Nodup := by
  refine List.pairwise_map.mpr (List.pairwise_filterMap.mpr
    (hsound.ids_distinct.imp_of_mem fun {lcpu other} hlcpu hother hne leader hleader
      leader' hleader' hcore => hne ?_))
  split_ifs at hleader hleader' with hfirst hfirst'
  obtain ⟨id, -, rfl⟩ := Option.map_eq_some_iff.mp hleader
  obtain ⟨id', -, rfl⟩ := Option.map_eq_some_iff.mp hleader'
  -- Both are the first of the same siblings.
  rw [hsound.siblings lcpu hlcpu other hother hcore, hfirst'] at hfirst
  exact (Option.some.inj hfirst).symm

/-- A core is on the CCD at the place of its cache. -/
theorem ccdMap_get_iff (hsound : LogicalMap.Sound topo.logicalMap) {core : CoreId} {ccd : Nat} :
    (ccdMap (l3Groups files topo)).get core = some ccd ↔
      ∃ id, (cacheIds (l3Groups files topo))[ccd]? = some id ∧ (id, core) ∈ leaders files topo := by
  let sorted := (l3Groups files topo).entries.insertionSort fun before behind =>
    l3IdSortKey before.1 ≤ l3IdSortKey behind.1
  let placed := sorted.zipIdx.flatMap fun group => group.1.2.map fun core => (core, group.2)
  have hmap : ccdMap (l3Groups files topo) = Dict.assign Prod.fst Prod.snd placed Dict.empty := by
    show _ = placed.foldl (fun held pair => held.set pair.1 pair.2) Dict.empty
    rw [ccdMap, List.foldl_flatMap]
    congr 1
    funext ccds group
    rw [List.foldl_map]
  have hplaced : ∀ core ccd, (core, ccd) ∈ placed ↔
      ∃ id, (cacheIds (l3Groups files topo))[ccd]? = some id ∧
        (id, core) ∈ leaders files topo := by
    intro core ccd
    have hgroup : ∀ group, sorted[ccd]? = some group →
        (core ∈ group.2 ↔ (group.1, core) ∈ leaders files topo) := fun group hat =>
      mem_l3Groups ((List.mem_insertionSort _).mp (List.mem_of_getElem? hat)) core
    simp only [placed, List.mem_flatMap, List.mem_map, Prod.mk.injEq, Prod.exists,
      List.mem_zipIdx_iff_getElem?, cacheIds, List.getElem?_map, Option.map_eq_some_iff]
    constructor
    · rintro ⟨id, cores, at', hat, found, hfound, rfl, rfl⟩
      exact ⟨id, ⟨id, cores, hat, rfl⟩, (hgroup _ hat).mp hfound⟩
    · rintro ⟨_, ⟨id, cores, hat, rfl⟩, hleader⟩
      exact ⟨id, cores, ccd, hat, core, (hgroup _ hat).mpr hleader, rfl, rfl⟩
  rw [hmap, ← hplaced]
  constructor
  · intro hget
    obtain ⟨pair, hpair, rfl, rfl⟩ := Dict.exists_of_get_assign _ _ hget
    exact hpair
  · intro hpair
    have hkey : core ∈ (Dict.assign Prod.fst Prod.snd placed Dict.empty).keys :=
      (Dict.mem_keys_assign _ _ _ _).mpr (Or.inr ⟨_, hpair, rfl⟩)
    obtain ⟨found, hfound⟩ := Dict.mem_keys.mp hkey
    obtain ⟨pair, hfoundPair, rfl, rfl⟩ := Dict.exists_of_get_assign _ _ hfound
    -- Both places hold the cache that the first CPU of the core shows.
    obtain ⟨id, hat, hleader⟩ := (hplaced pair.1 ccd).mp hpair
    obtain ⟨id', hat', hleader'⟩ := (hplaced pair.1 pair.2).mp hfoundPair
    have hsame : (id, pair.1) = (id', pair.1) :=
      List.inj_on_of_nodup_map (leaders_nodup hsound) hleader hleader' rfl
    cases hsame
    rw [hfound]
    exact congrArg some ((List.getElem?_inj (List.getElem?_eq_some_iff.mp hat').1
      (cacheIds_nodup _)).mp (hat'.trans hat.symm))

end Groups

/-! ## The detected cores -/

/-- The ID of the cache that the first CPU of a core hangs on. -/
def PhysicalCore.cacheId (files : Files) (core : PhysicalCore) : Option (List Char) :=
  core.logicalCpus.head?.bind (l3Id files)

/-- The CCDs are the last-level caches of the cores, in the order of their IDs. -/
structure CPUTopology.Layered (files : Files) (topo : CPUTopology) : Prop where
  placed : ∀ core ∈ topo.cores.values, ∃ ccd < topo.ccds, core.ccd = some ccd
  occupied : ∀ ccd < topo.ccds, ∃ core ∈ topo.cores.values, core.ccd = some ccd
  cached : ∀ core ∈ topo.cores.values, ∃ id, core.cacheId files = some id
  shared : ∀ core ∈ topo.cores.values, ∀ other ∈ topo.cores.values,
    core.ccd = other.ccd ↔ core.cacheId files = other.cacheId files
  ordered : ∀ core ∈ topo.cores.values, ∀ other ∈ topo.cores.values, ∀ ccd ccd' id id',
    core.ccd = some ccd → other.ccd = some ccd' → core.cacheId files = some id →
      other.cacheId files = some id' → ccd < ccd' → l3IdSortKey id ≤ l3IdSortKey id'

section Layout

variable {files : Files} {topo : CPUTopology}

/-- A core is taken from one of its CPUs. -/
theorem mem_cores_values (hcores : topo.cores = Dict.empty) {core : PhysicalCore}
    (hcore : core ∈ (detectCcdLayout files topo).cores.values) :
    ∃ lcpu ∈ topo.logicalMap.values,
      core = ⟨lcpu.physicalCore, (ccdMap (l3Groups files topo)).get lcpu.physicalCore,
        lcpu.coreCpus, false⟩ := by
  obtain ⟨key, hget⟩ := Dict.mem_values.mp hcore
  rw [detectCcdLayout, hcores] at hget
  obtain ⟨lcpu, hlcpu, -, rfl⟩ := Dict.exists_of_get_assignMissing _ _ hget
  exact ⟨lcpu, hlcpu, rfl⟩

theorem exists_get_core (files : Files) {lcpu : LogicalCPU}
    (hlcpu : lcpu ∈ topo.logicalMap.values) :
    ∃ core, (detectCcdLayout files topo).cores.get lcpu.physicalCore = some core :=
  Dict.mem_keys.mp ((Dict.mem_keys_assignMissing _ _ _ _).mpr (Or.inr ⟨lcpu, hlcpu, rfl⟩))

/-- Every logical CPU has its core. -/
theorem exists_core (hcores : topo.cores = Dict.empty) {lcpu : LogicalCPU}
    (hlcpu : lcpu ∈ topo.logicalMap.values) :
    ∃ core ∈ (detectCcdLayout files topo).cores.values, core.coreId = lcpu.physicalCore := by
  obtain ⟨core, hget⟩ := exists_get_core files hlcpu
  refine ⟨core, Dict.mem_values.mpr ⟨_, hget⟩, ?_⟩
  rw [detectCcdLayout, hcores] at hget
  obtain ⟨other, -, hname, rfl⟩ := Dict.exists_of_get_assignMissing _ _ hget
  exact hname

/-- The cache of a core is the one that its first CPU shows. -/
theorem cacheId_of_leader (hsound : LogicalMap.Sound topo.logicalMap) {lcpu : LogicalCPU}
    (hlcpu : lcpu ∈ topo.logicalMap.values) {id : List Char}
    (hleader : (id, lcpu.physicalCore) ∈ leaders files topo) :
    lcpu.coreCpus.head?.bind (l3Id files) = some id := by
  obtain ⟨first, hfirst, hshown⟩ := List.mem_filterMap.mp hleader
  split_ifs at hshown with hmin
  obtain ⟨found, hfound, heq⟩ := Option.map_eq_some_iff.mp hshown
  obtain ⟨rfl, hsame⟩ := Prod.mk.inj heq
  have hhead : lcpu.coreCpus.min? = lcpu.coreCpus.head? :=
    List.min?_eq_head? ((hsound.ascending lcpu hlcpu).imp fun hle => Nat.min_eq_left hle)
  rw [hsound.siblings first hfirst lcpu hlcpu hsame, hhead] at hmin
  rw [hmin, Option.bind_some, hfound]

/-- A core is on the CCD of its cache. -/
theorem cacheId_of_ccd (hsound : LogicalMap.Sound topo.logicalMap)
    (hcores : topo.cores = Dict.empty) {core : PhysicalCore}
    (hcore : core ∈ (detectCcdLayout files topo).cores.values) {ccd : Nat}
    (hccd : core.ccd = some ccd) :
    ∃ id, core.cacheId files = some id ∧ (cacheIds (l3Groups files topo))[ccd]? = some id := by
  obtain ⟨lcpu, hlcpu, rfl⟩ := mem_cores_values hcores hcore
  obtain ⟨id, hat, hleader⟩ := (ccdMap_get_iff hsound).mp hccd
  exact ⟨id, cacheId_of_leader hsound hlcpu hleader, hat⟩

/-- With a known layout there is a CCD for each cache. -/
theorem known_iff : (detectCcdLayout files topo).ccdLayoutKnown = true ↔
    topo.logicalMap.values ≠ [] ∧ ∀ core,
      core ∈ (ccdMap (l3Groups files topo)).keys ↔
        ∃ lcpu ∈ topo.logicalMap.values, lcpu.physicalCore = core := by
  rw [detectCcdLayout, decide_eq_true_iff, Ne, List.toFinset_eq_empty_iff, List.map_eq_nil_iff,
    Finset.ext_iff]
  simp only [List.mem_toFinset, List.mem_map]

theorem detectCcdLayout_layered (hsound : LogicalMap.Sound topo.logicalMap)
    (hcores : topo.cores = Dict.empty)
    (hknown : (detectCcdLayout files topo).ccdLayoutKnown = true) :
    (detectCcdLayout files topo).Layered files := by
  let ids := cacheIds (l3Groups files topo)
  obtain ⟨hsome, hkeys⟩ := known_iff.mp hknown
  have hplaced : ∀ core ∈ (detectCcdLayout files topo).cores.values, ∃ ccd id,
      core.ccd = some ccd ∧ core.cacheId files = some id ∧ ids[ccd]? = some id := by
    intro core hcore
    obtain ⟨lcpu, hlcpu, rfl⟩ := mem_cores_values hcores hcore
    obtain ⟨ccd, hccd⟩ := Dict.mem_keys.mp ((hkeys lcpu.physicalCore).mpr ⟨lcpu, hlcpu, rfl⟩)
    obtain ⟨id, hcache, hat⟩ := cacheId_of_ccd hsound hcores hcore hccd
    exact ⟨ccd, id, hccd, hcache, hat⟩
  -- A known layout has a core, hence a cache, so the CCDs are counted.
  have hcount : (detectCcdLayout files topo).ccds = ids.length := by
    obtain ⟨lcpu, hlcpu⟩ := List.exists_mem_of_ne_nil _ hsome
    obtain ⟨core, hcore, -⟩ := @exists_core files topo hcores lcpu hlcpu
    obtain ⟨ccd, id, -, -, hat⟩ := hplaced core hcore
    have hlength : ids.length = (l3Groups files topo).entries.length := cacheIds_length _
    have hne : (l3Groups files topo).entries ≠ [] := fun hnil => by
      rw [hnil] at hlength
      rw [List.length_eq_zero_iff.mp hlength] at hat
      cases hat
    rw [hlength, detectCcdLayout]
    exact if_neg hne
  constructor
  case placed =>
    intro core hcore
    obtain ⟨ccd, id, hccd, -, hat⟩ := hplaced core hcore
    exact ⟨ccd, by rw [hcount]; exact (List.getElem?_eq_some_iff.mp hat).1, hccd⟩
  case occupied =>
    intro ccd hlt
    rw [hcount] at hlt
    obtain ⟨core, hleader⟩ := mem_cacheIds.mp (List.getElem_mem hlt)
    obtain ⟨first, hfirst, hshown⟩ := List.mem_filterMap.mp hleader
    split_ifs at hshown
    obtain ⟨found, -, heq⟩ := Option.map_eq_some_iff.mp hshown
    obtain ⟨-, rfl⟩ := Prod.mk.inj heq
    obtain ⟨holder, hholder, hname⟩ := @exists_core files topo hcores first hfirst
    obtain ⟨lcpu, -, rfl⟩ := mem_cores_values hcores hholder
    replace hname : lcpu.physicalCore = first.physicalCore := hname
    refine ⟨_, hholder, (ccdMap_get_iff hsound).mpr ⟨_, List.getElem?_eq_getElem hlt, ?_⟩⟩
    rw [hname]
    exact hleader
  case cached =>
    intro core hcore
    obtain ⟨-, id, -, hcache, -⟩ := hplaced core hcore
    exact ⟨id, hcache⟩
  case shared =>
    intro core hcore other hother
    obtain ⟨ccd, id, hccd, hcache, hat⟩ := hplaced core hcore
    obtain ⟨ccd', id', hccd', hcache', hat'⟩ := hplaced other hother
    rw [hccd, hccd', hcache, hcache', Option.some.injEq, Option.some.injEq]
    constructor
    · rintro rfl
      exact Option.some.inj (hat.symm.trans hat')
    · rintro rfl
      exact (List.getElem?_inj (List.getElem?_eq_some_iff.mp hat).1 (cacheIds_nodup _)).mp
        (hat.trans hat'.symm)
  case ordered =>
    intro core hcore other hother ccd ccd' id id' hccd hccd' hcache hcache' hlt
    obtain ⟨at1, id1, hccd1, hcache1, hat⟩ := hplaced core hcore
    obtain ⟨at2, id2, hccd2, hcache2, hat'⟩ := hplaced other hother
    rw [hccd] at hccd1
    rw [hccd'] at hccd2
    rw [hcache] at hcache1
    rw [hcache'] at hcache2
    cases hccd1
    cases hccd2
    cases hcache1
    cases hcache2
    obtain ⟨hlength, rfl⟩ := List.getElem?_eq_some_iff.mp hat
    obtain ⟨hlength', rfl⟩ := List.getElem?_eq_some_iff.mp hat'
    exact List.pairwise_iff_getElem.mp (cacheIds_ordered _) ccd ccd' hlength hlength' hlt

end Layout

/-! ## Detection -/

theorem parseCpuinfo_sound (files : Files) :
    LogicalMap.Sound (parseCpuinfo digits files CPUTopology.initial).logicalMap ∧
      (parseCpuinfo digits files CPUTopology.initial).cores = Dict.empty := by
  unfold parseCpuinfo
  cases files.cpuinfo with
  | none =>
      refine ⟨⟨fun cpu lcpu hget => ?_, fun lcpu hlcpu => ?_, fun lcpu hlcpu => ?_,
        fun lcpu hlcpu => ?_⟩, rfl⟩
      · cases hget
      all_goals cases hlcpu
  | some text =>
      obtain ⟨entries, hlines⟩ := Parser.holds_initial.lines digits (splitLines text)
      obtain ⟨more, hrecord⟩ := hlines.record
      exact ⟨hrecord.sound, hrecord.cores⟩

/-- What stays of a topology while the online CPUs are counted. -/
structure CPUTopology.SameCores (topo next : CPUTopology) : Prop where
  logicalMap : next.logicalMap = topo.logicalMap
  cores : next.cores = topo.cores
  modelName : next.modelName = topo.modelName

theorem parseSysfs_same (files : Files) (topo : CPUTopology) :
    topo.SameCores (parseSysfs digits files topo) := by
  have hcounted : ∀ online : Finset Nat, topo.SameCores
      (if topo.logicalCpusCount = 0 then { topo with logicalCpusCount := online.card }
        else topo) := by
    intro online
    split_ifs <;> exact ⟨rfl, rfl, rfl⟩
  unfold parseSysfs
  by_cases hsysfs : files.sysfs = false
  · rw [if_pos hsysfs]
    exact ⟨rfl, rfl, rfl⟩
  rw [if_neg hsysfs]
  cases files.online.cpus digits with
  | none => exact ⟨rfl, rfl, rfl⟩
  | some online =>
      dsimp only
      by_cases honline : online = ∅
      · rw [if_pos honline]
        exact ⟨rfl, rfl, rfl⟩
      rw [if_neg honline]
      obtain ⟨hmap, hcores, hname⟩ := hcounted online
      cases files.present.cpus digits with
      | none => exact ⟨hmap, hcores, hname⟩
      | some present =>
          dsimp only
          by_cases hpresent : present = ∅
          · rw [if_pos hpresent]
            exact ⟨hmap, hcores, hname⟩
          · rw [if_neg hpresent]
            exact ⟨hmap, hcores, hname⟩

/-- A core with or without a stacked cache. -/
def PhysicalCore.mark (stacked : Option Nat → Bool) (core : PhysicalCore) : PhysicalCore :=
  { core with hasVcache := core.hasVcache || stacked core.ccd }

/-- The cores of a CCD are marked together. -/
theorem detectX3d_cores (files : Files) (topo : CPUTopology) :
    (detectX3d digits files topo).ccds = topo.ccds ∧
      (detectX3d digits files topo).ccdLayoutKnown = topo.ccdLayoutKnown ∧
      (detectX3d digits files topo).cpusAllOnline = topo.cpusAllOnline ∧
      ∃ stacked, (detectX3d digits files topo).cores.entries =
        topo.cores.entries.map fun entry => (entry.1, entry.2.mark stacked) := by
  unfold detectX3d
  dsimp only
  split_ifs with hx3d
  · refine ⟨rfl, rfl, rfl, fun _ => false, ?_⟩
    have hsame : (fun entry : CoreId × PhysicalCore => (entry.1, entry.2.mark fun _ => false)) =
        id := by
      funext entry
      simp [PhysicalCore.mark]
    rw [hsame, List.map_id]
  · let vcache := vcacheCcds digits files topo.cores.values
    let marked : Option Nat → Prop := fun ccd =>
      decide (vcache = ∅ ∧ topo.ccds = 1) = true ∨ ∃ other ∈ vcache, ccd = some other
    refine ⟨rfl, rfl, rfl, fun ccd => decide (marked ccd), ?_⟩
    refine List.map_congr_left fun entry _ => Prod.ext rfl ?_
    show (if marked entry.2.ccd then { entry.2 with hasVcache := true } else entry.2) =
      entry.2.mark fun ccd => decide (marked ccd)
    unfold PhysicalCore.mark
    split_ifs with hmarked
    · simp [hmarked]
    · simp [hmarked]

theorem values_of_marked {cores marked : Dict CoreId PhysicalCore} {stacked : Option Nat → Bool}
    (hentries : marked.entries =
      cores.entries.map fun entry => (entry.1, entry.2.mark stacked)) :
    marked.values = cores.values.map (PhysicalCore.mark stacked) := by
  rw [Dict.values, hentries, Dict.values, List.map_map, List.map_map]
  rfl

theorem CPUTopology.Layered.of_marked {files : Files} {topo next : CPUTopology}
    (hlayered : topo.Layered files) (hccds : next.ccds = topo.ccds)
    {stacked : Option Nat → Bool}
    (hentries : next.cores.entries =
      topo.cores.entries.map fun entry => (entry.1, entry.2.mark stacked)) :
    next.Layered files := by
  have hvalues := values_of_marked hentries
  constructor
  case placed =>
    intro core hcore
    rw [hvalues] at hcore
    obtain ⟨old, hold, rfl⟩ := List.mem_map.mp hcore
    rw [hccds]
    exact hlayered.placed old hold
  case occupied =>
    intro ccd hlt
    rw [hccds] at hlt
    obtain ⟨old, hold, hccd⟩ := hlayered.occupied ccd hlt
    refine ⟨old.mark stacked, ?_, hccd⟩
    rw [hvalues]
    exact List.mem_map_of_mem hold
  case cached =>
    intro core hcore
    rw [hvalues] at hcore
    obtain ⟨old, hold, rfl⟩ := List.mem_map.mp hcore
    exact hlayered.cached old hold
  case shared =>
    intro core hcore other hother
    rw [hvalues] at hcore hother
    obtain ⟨old, hold, rfl⟩ := List.mem_map.mp hcore
    obtain ⟨old', hold', rfl⟩ := List.mem_map.mp hother
    exact hlayered.shared old hold old' hold'
  case ordered =>
    intro core hcore other hother
    rw [hvalues] at hcore hother
    obtain ⟨old, hold, rfl⟩ := List.mem_map.mp hcore
    obtain ⟨old', hold', rfl⟩ := List.mem_map.mp hother
    exact hlayered.ordered old hold old' hold'

/-- Whatever the files hold, a layout that counts as known has one CCD for each last-level cache,
in the order of the cache IDs, and the cores of a CCD agree on its stacked cache. -/
theorem detectTopology_layered (files : Files)
    (hknown : (detectTopology digits files).ccdLayoutKnown = true) :
    (detectTopology digits files).Layered files ∧
      ∀ core ∈ (detectTopology digits files).cores.values,
        ∀ other ∈ (detectTopology digits files).cores.values,
          core.ccd = other.ccd → core.hasVcache = other.hasVcache := by
  let parsed := parseCpuinfo digits files CPUTopology.initial
  let topo := parseSysfs digits files parsed
  obtain ⟨hsound, hcores⟩ := parseCpuinfo_sound digits files
  have hsame : parsed.SameCores topo := parseSysfs_same digits files parsed
  have hsound' : LogicalMap.Sound topo.logicalMap := by
    rw [hsame.logicalMap]
    exact hsound
  have hcores' : topo.cores = Dict.empty := hsame.cores.trans hcores
  obtain ⟨hccds, hlayout, -, stacked, hentries⟩ :=
    detectX3d_cores digits files (detectCcdLayout files topo)
  have hvalues := values_of_marked hentries
  have hlayered : (detectCcdLayout files topo).Layered files :=
    detectCcdLayout_layered hsound' hcores' (hlayout.symm.trans hknown)
  refine ⟨hlayered.of_marked hccds hentries, fun core hcore other hother hccd => ?_⟩
  replace hcore := List.mem_map.mp (hvalues ▸ hcore)
  replace hother := List.mem_map.mp (hvalues ▸ hother)
  obtain ⟨old, hold, rfl⟩ := hcore
  obtain ⟨old', hold', rfl⟩ := hother
  obtain ⟨lcpu, -, rfl⟩ := mem_cores_values hcores' hold
  obtain ⟨lcpu', -, rfl⟩ := mem_cores_values hcores' hold'
  replace hccd : (ccdMap (l3Groups files topo)).get lcpu.physicalCore =
    (ccdMap (l3Groups files topo)).get lcpu'.physicalCore := hccd
  simp only [PhysicalCore.mark, Bool.false_or, hccd]

/-- Two CCDs: cores 1 and 2, the first with two CPUs, on cache 9 with a stacked die, core 0 on
cache 10. -/
def stackedFiles : Files where
  cpuinfo := some
    ("processor\t: 0\nmodel name\t: AMD X3D\nphysical id\t: 0\ncore id\t\t: 0\n\n" ++
      "processor\t: 1\ncore id\t\t: 1\n\nprocessor\t: 2\ncore id\t\t: 2\n\n" ++
      "processor\t: 3\ncore id\t\t: 1\n\n").toList
  sysfs := true
  online := .text "0-3\n".toList
  present := .text "0-3\n".toList
  cache := fun cpu => some
    [⟨"index0", some "1\n".toList, some "0\n".toList, some "32K\n".toList⟩,
      if cpu = 0 then
        ⟨"index3", some "3\n".toList, some "10\n".toList, some "32768K\n".toList⟩
      else
        ⟨"index3", some "3\n".toList, some "9\n".toList, some "98304K\n".toList⟩]

/-- The cache with the smaller number comes first, whatever the order of the texts. -/
theorem detectTopology_layered_sample :
    ((detectTopology asciiDigits stackedFiles).cores.values.map fun core =>
        (core.coreId, core.ccd, core.hasVcache)) =
      [(0, some 1, false), (1, some 0, true), (2, some 0, true)] ∧
    (detectTopology asciiDigits stackedFiles).Layered stackedFiles ∧
    ∀ core ∈ (detectTopology asciiDigits stackedFiles).cores.values,
      ∀ other ∈ (detectTopology asciiDigits stackedFiles).cores.values,
        core.ccd = other.ccd → core.hasVcache = other.hasVcache :=
  ⟨by decide +kernel, detectTopology_layered asciiDigits stackedFiles (by decide +kernel)⟩

end Topology
end Engine
end CoreCycler
