import CoreCycler.Engine.CcdLayout
import CoreCycler.Engine.Containment
import CoreCycler.Smu.PhysicalLayout

/-!
# A machine as the kernel shows it

`/proc/cpuinfo` has a block of lines for each logical CPU, sysfs names the last-level cache of each
and lists the online and present CPUs.  What is detected from these files is the layout and the
numbering of the machine they were written from.
-/

namespace CoreCycler
namespace Engine
namespace Topology

open Library Library.Reading Smu

variable (digits : DigitValues)

/-! ## The files of a machine -/

/-- A line with a key and its value. -/
def keyLine (key : String) (value : List Char) : List Char := key.toList ++ ':' :: ' ' :: value

/-- A line about something else. -/
structure Plain (line : List Char) : Prop where
  nonempty : line ≠ []
  unbroken : ∀ c ∈ line, isLineBreak c = false
  notProcessor : "processor".toList.isPrefixOf line = false
  notCore : "core id".toList.isPrefixOf line = false
  notPackage : "physical id".toList.isPrefixOf line = false

/-- The lines of a logical CPU, with other lines between those that are read. -/
structure Block where
  processor : Nat
  package : Nat
  core : CoreId
  front : List (List Char)
  middle : List (List Char)
  rest : List (List Char)
  plain : ∀ line ∈ front ++ middle ++ rest, Plain line

def Block.lines (block : Block) : List (List Char) :=
  keyLine "processor\t" (numeral block.processor) :: block.front ++
    keyLine "physical id\t" (numeral block.package) :: block.middle ++
    keyLine "core id\t\t" (numeral block.core) :: block.rest ++ [[]]

/-- The logical CPU of a block, without its siblings. -/
def Block.entry (block : Block) : LogicalCPU :=
  ⟨block.processor, block.core, block.package, []⟩

/-- The caches of a logical CPU, of which one is its last-level cache. -/
def Files.ShowsCache (files : Files) (cpu id : Nat) : Prop :=
  ∃ dirs index, files.cache cpu = some dirs ∧ index ∈ dirs ∧
    index.level = some ['3', '\n'] ∧ index.id = some (numeral id ++ ['\n']) ∧
    ∀ other ∈ dirs, other.level.map trim = some ['3'] → other = index

/-- The files of a machine with all CPUs online: its layout, the blocks of its CPUs, and the ID of
the last-level cache of each CCD. -/
structure Files.Shows (files : Files) (layout : Layout) (numbering : Numbering)
    (blocks : List Block) (cacheOf : Nat → Nat) : Prop where
  cpuinfo : files.cpuinfo = some (unlines (blocks.flatMap Block.lines))
  distinct : (blocks.map Block.processor).Nodup
  cores : ∀ core, (∃ block ∈ blocks, block.core = core) ↔
    ∃ placed ∈ layout.placed, core ∈ placed.ids numbering
  inhabited : layout.ccds ≠ []
  ascending : ∀ before behind, before < behind → cacheOf before < cacheOf behind
  cache : ∀ placed ∈ layout.placed, ∀ block ∈ blocks, block.core ∈ placed.ids numbering →
    files.ShowsCache block.processor (cacheOf placed.index)
  sysfs : files.sysfs = true
  online : ∃ ranges present, Containment.rangesCpus ranges ≠ ∅ ∧
    Containment.rangesCpus present = Containment.rangesCpus ranges ∧
    files.online = .text (Containment.rangesText ranges ++ ['\n']) ∧
    files.present = .text (Containment.rangesText present ++ ['\n'])

/-! ## Reading a block -/

/-- What a parser will keep of the lines that come. -/
structure Parser.Reads (parser : Parser) (entries : List LogicalCPU) (proc core pkg : Int) :
    Prop where
  holds : parser.Holds entries
  proc : parser.currentProc = proc
  core : parser.currentCore = core
  pkg : parser.currentPkg = pkg

section Lines

variable {digits} {parser : Parser} {entries : List LogicalCPU} {proc core pkg : Int}

theorem fieldInt_keyLine {key : String} (hkey : ':' ∉ key.toList) (number : Nat) :
    fieldInt digits (keyLine key (numeral number)) = some (number : Int) := by
  have hblank : ∀ c ∈ [' '], isSpace c = true := fun c hc => by
    rw [List.mem_singleton.mp hc]
    rfl
  have htrim : trim (' ' :: numeral number) = numeral number := by
    simpa using trim_numeral hblank nil_blank number
  rw [fieldInt, fieldText, keyLine, splitFirst_append hkey, Option.map_some, Option.bind_some,
    htrim, int_numeral]

theorem Parser.Reads.plain (hreads : parser.Reads entries proc core pkg) {line : List Char}
    (hline : Plain line) : (parser.line digits line).Reads entries proc core pkg := by
  have hsame : ∀ next : Parser, next.coresSeen = parser.coresSeen →
      next.topo.logicalMap = parser.topo.logicalMap → next.topo.cores = parser.topo.cores →
      next.currentProc = parser.currentProc → next.currentCore = parser.currentCore →
      next.currentPkg = parser.currentPkg → next.Reads entries proc core pkg :=
    fun next hcores hmap htopo hproc hcore hpkg =>
      ⟨⟨hcores.trans hreads.holds.coresSeen, hmap.trans hreads.holds.logicalMap,
        htopo.trans hreads.holds.cores⟩, hproc.trans hreads.proc, hcore.trans hreads.core,
        hpkg.trans hreads.pkg⟩
  unfold Parser.line
  rw [if_neg (Bool.eq_false_iff.mp hline.notProcessor),
    if_neg (Bool.eq_false_iff.mp hline.notCore), if_neg (Bool.eq_false_iff.mp hline.notPackage)]
  split_ifs
  all_goals first
    | exact absurd ‹line = []› hline.nonempty
    | exact hsame _ rfl rfl rfl rfl rfl rfl

theorem Parser.Reads.plains (hreads : parser.Reads entries proc core pkg)
    {lines : List (List Char)} (hlines : ∀ line ∈ lines, Plain line) :
    (lines.foldl (Parser.line digits) parser).Reads entries proc core pkg := by
  induction lines generalizing parser with
  | nil => exact hreads
  | cons line rest ih =>
      rw [List.forall_mem_cons] at hlines
      exact ih (hreads.plain hlines.1) hlines.2

theorem Parser.Reads.processor (hreads : parser.Reads entries proc core pkg) (number : Nat) :
    (parser.line digits (keyLine "processor\t" (numeral number))).Reads entries number core pkg := by
  have hstarts : "processor".toList.isPrefixOf (keyLine "processor\t" (numeral number)) = true := by
    simp [keyLine]
  unfold Parser.line
  rw [if_pos hstarts, fieldInt_keyLine (by simp)]
  exact ⟨⟨hreads.holds.coresSeen, hreads.holds.logicalMap, hreads.holds.cores⟩, rfl, hreads.core,
    hreads.pkg⟩

theorem Parser.Reads.package (hreads : parser.Reads entries proc core pkg) (number : Nat) :
    (parser.line digits (keyLine "physical id\t" (numeral number))).Reads entries proc core
      number := by
  have hstarts : "physical id".toList.isPrefixOf (keyLine "physical id\t" (numeral number)) =
      true := by
    simp [keyLine]
  unfold Parser.line
  rw [if_neg (by simp [keyLine]), if_neg (by simp [keyLine]), if_pos hstarts,
    fieldInt_keyLine (by simp)]
  exact ⟨⟨hreads.holds.coresSeen, hreads.holds.logicalMap, hreads.holds.cores⟩, hreads.proc,
    hreads.core, rfl⟩

theorem Parser.Reads.core_id (hreads : parser.Reads entries proc core pkg) (number : Nat) :
    (parser.line digits (keyLine "core id\t\t" (numeral number))).Reads entries proc number
      pkg := by
  have hstarts : "core id".toList.isPrefixOf (keyLine "core id\t\t" (numeral number)) = true := by
    simp [keyLine]
  unfold Parser.line
  rw [if_neg (by simp [keyLine]), if_pos hstarts, fieldInt_keyLine (by simp)]
  exact ⟨⟨hreads.holds.coresSeen, hreads.holds.logicalMap, hreads.holds.cores⟩, hreads.proc, rfl,
    hreads.pkg⟩

/-- A blank line keeps the processor in front of it. -/
theorem Parser.Reads.blank {processor : Nat} {owner : CoreId}
    (hreads : parser.Reads entries processor owner pkg) :
    (parser.line digits []).Reads (entries ++ [⟨processor, owner, pkg, []⟩]) (-1) (-1) pkg := by
  have hline : parser.line digits [] =
      { parser.record with currentProc := -1, currentCore := -1 } := by
    simp [Parser.line]
  have hrecord : parser.record = { parser with
      coresSeen := parser.coresSeen.collect owner processor
      topo := { parser.topo with
        logicalMap := parser.topo.logicalMap.set processor ⟨processor, owner, pkg, []⟩ } } := by
    unfold Parser.record
    simp [hreads.proc, hreads.core, hreads.pkg]
  rw [hline, hrecord]
  refine ⟨⟨?_, ?_, hreads.holds.cores⟩, rfl, rfl, hreads.pkg⟩
  · rw [List.foldl_concat, ← hreads.holds.coresSeen]
  · rw [Dict.assign, List.foldl_concat, ← Dict.assign, ← hreads.holds.logicalMap]
    rfl

/-- The lines of a block are read as its logical CPU. -/
theorem Parser.Reads.block (hreads : parser.Reads entries proc core pkg) (block : Block) :
    (block.lines.foldl (Parser.line digits) parser).Reads (entries ++ [block.entry]) (-1) (-1)
      block.package := by
  have hfront : ∀ line ∈ block.front, Plain line := fun line hline =>
    block.plain line (by simp [hline])
  have hmiddle : ∀ line ∈ block.middle, Plain line := fun line hline =>
    block.plain line (by simp [hline])
  have hrest : ∀ line ∈ block.rest, Plain line := fun line hline =>
    block.plain line (by simp [hline])
  unfold Block.lines
  simp only [List.foldl_append, List.foldl_cons, List.foldl_nil]
  exact ((((((hreads.processor _).plains hfront).package _).plains hmiddle).core_id _).plains
    hrest).blank

theorem Parser.Reads.blocks (hreads : parser.Reads entries (-1) (-1) pkg) (blocks : List Block) :
    ∃ last, ((blocks.flatMap Block.lines).foldl (Parser.line digits) parser).Reads
      (entries ++ blocks.map Block.entry) (-1) (-1) last := by
  induction blocks generalizing parser entries pkg with
  | nil => exact ⟨pkg, by simpa using hreads⟩
  | cons block rest ih =>
      obtain ⟨last, hrest⟩ := ih (hreads.block block)
      refine ⟨last, ?_⟩
      rw [List.flatMap_cons, List.foldl_append, List.map_cons, List.append_cons]
      exact hrest

end Lines

theorem keyLine_unbroken {key : String} (hkey : ∀ c ∈ key.toList, isLineBreak c = false)
    (number : Nat) : ∀ c ∈ keyLine key (numeral number), isLineBreak c = false := by
  intro c hc
  rcases List.mem_append.mp hc with hkeyed | hc
  · exact hkey c hkeyed
  rcases List.mem_cons.mp hc with rfl | hc
  · rfl
  rcases List.mem_cons.mp hc with rfl | hc
  · rfl
  have hdigit := isDigit_of_mem_numeral hc
  simp only [Char.isDigit, Bool.and_eq_true, decide_eq_true_eq] at hdigit
  have hlow : 48 ≤ c.toNat := hdigit.1
  have hhigh : c.toNat ≤ 57 := hdigit.2
  unfold isLineBreak
  simp only [List.mem_cons, List.not_mem_nil, or_false, Bool.or_eq_false_iff,
    decide_eq_false_iff_not]
  omega

theorem Block.lines_unbroken (block : Block) :
    ∀ line ∈ block.lines, ∀ c ∈ line, isLineBreak c = false := by
  intro line hline
  unfold Block.lines at hline
  simp only [List.mem_append, List.mem_cons, List.not_mem_nil, or_false] at hline
  rcases hline with ((((rfl | hfront) | rfl | hmiddle) | rfl | hrest) | rfl)
  · exact keyLine_unbroken (by simp [isLineBreak]) _
  · exact (block.plain line (by simp [hfront])).unbroken
  · exact keyLine_unbroken (by simp [isLineBreak]) _
  · exact (block.plain line (by simp [hmiddle])).unbroken
  · exact keyLine_unbroken (by simp [isLineBreak]) _
  · exact (block.plain line (by simp [hrest])).unbroken
  · exact fun c hc => (List.not_mem_nil hc).elim

/-! ## The shown machine -/

section Shown

variable {digits} {files : Files} {layout : Layout} {numbering : Numbering} {blocks : List Block}
  {cacheOf : Nat → Nat}

theorem Files.Shows.parsed (hshows : files.Shows layout numbering blocks cacheOf) :
    ∃ parser : Parser, parser.Holds (blocks.map Block.entry) ∧
      parseCpuinfo digits files CPUTopology.initial = parser.finish := by
  have hlines : ∀ line ∈ blocks.flatMap Block.lines, ∀ c ∈ line, isLineBreak c = false := by
    intro line hline
    obtain ⟨block, -, hblock⟩ := List.mem_flatMap.mp hline
    exact block.lines_unbroken line hblock
  have hstart : (Parser.initial CPUTopology.initial).Reads [] (-1) (-1) 0 :=
    ⟨Parser.holds_initial, rfl, rfl, rfl⟩
  obtain ⟨last, hreads⟩ := @Parser.Reads.blocks digits _ _ _ hstart blocks
  refine ⟨_, hreads.holds, ?_⟩
  unfold parseCpuinfo
  rw [hshows.cpuinfo]
  dsimp only
  -- Every block ends in a blank line, so no processor is left open at the end of the text.
  rw [splitLines_unlines hlines, Parser.record, if_neg]
  rw [hreads.proc]
  exact fun hrecorded => absurd hrecorded.1 (by decide)

variable {parser : Parser}

/-- Every block is a logical CPU. -/
theorem exists_lcpu (hholds : parser.Holds (blocks.map Block.entry))
    (hdistinct : (blocks.map Block.processor).Nodup) {block : Block} (hblock : block ∈ blocks) :
    ∃ lcpu ∈ parser.finish.logicalMap.values,
      lcpu.logicalId = block.processor ∧ lcpu.physicalCore = block.core := by
  have hitems : ((blocks.map Block.entry).map LogicalCPU.logicalId).Nodup := by
    rw [List.map_map]
    exact hdistinct
  have hget : parser.topo.logicalMap.get block.processor = some block.entry := by
    rw [hholds.logicalMap]
    exact Dict.get_assign LogicalCPU.logicalId id hitems Dict.empty (List.mem_map_of_mem hblock)
  refine ⟨{ block.entry with coreCpus :=
    ((parser.coresSeen.get block.core).getD [block.processor]).insertionSort (· ≤ ·) },
    Dict.mem_values.mpr ⟨block.processor, ?_⟩, rfl, rfl⟩
  rw [Parser.finish, Dict.get_mapValues, hget]
  rfl

/-- Every logical CPU is a block, and so are its siblings. -/
theorem exists_block (hholds : parser.Holds (blocks.map Block.entry)) {lcpu : LogicalCPU}
    (hlcpu : lcpu ∈ parser.finish.logicalMap.values) {cpu : Nat}
    (hcpu : cpu ∈ lcpu.coreCpus ∨ cpu = lcpu.logicalId) :
    ∃ block ∈ blocks, block.processor = cpu ∧ block.core = lcpu.physicalCore := by
  obtain ⟨key, hget⟩ := Dict.mem_values.mp hlcpu
  obtain ⟨hname, ⟨entry, hentry, hid, hcore⟩, hcpus⟩ := hholds.finish_get hget
  rcases hcpu with hsibling | rfl
  · rw [hcpus, List.mem_insertionSort] at hsibling
    obtain ⟨other, hother, rfl⟩ := List.mem_map.mp hsibling
    rw [List.mem_filter, decide_eq_true_eq] at hother
    obtain ⟨block, hblock, rfl⟩ := List.mem_map.mp hother.1
    exact ⟨block, hblock, rfl, hother.2⟩
  · obtain ⟨block, hblock, rfl⟩ := List.mem_map.mp hentry
    exact ⟨block, hblock, hid.trans hname.symm, hcore⟩

theorem l3Id_of_shows {cpu id : Nat} (hcache : files.ShowsCache cpu id) :
    l3Id files cpu = some (numeral id) := by
  obtain ⟨dirs, index, hdirs, hindex, hlevel, hid, honly⟩ := hcache
  have htrim : trim (numeral id ++ ['\n']) = numeral id := trim_numeral nil_blank newline_blank id
  have hdir : l3CacheDir files cpu = some index := by
    unfold l3CacheDir
    rw [hdirs, Option.bind_some]
    have hsome : ((dirs.insertionSort fun before behind => before.name ≤ behind.name).find?
        fun dir => decide (dir.level.map trim = some ['3'])).isSome := by
      refine List.find?_isSome.mpr ⟨index, (List.mem_insertionSort _).mpr hindex, ?_⟩
      rw [hlevel]
      rfl
    obtain ⟨found, hfound⟩ := Option.isSome_iff_exists.mp hsome
    have hthird : found.level.map trim = some ['3'] := by simpa using List.find?_some hfound
    rw [hfound, honly found ((List.mem_insertionSort _).mp (List.mem_of_find?_eq_some hfound))
      hthird]
  have hdigits : (numeral id).all Char.isDigit = true :=
    List.all_eq_true.mpr fun c hc => isDigit_of_mem_numeral hc
  rw [l3Id, hdir, Option.bind_some, hid, Option.bind_some]
  dsimp only
  rw [htrim, if_pos ⟨numeral_ne_nil id, hdigits⟩]

/-- The first CPUs of the cores show the caches of their CCDs. -/
theorem mem_leaders_iff (hshows : files.Shows layout numbering blocks cacheOf)
    (hholds : parser.Holds (blocks.map Block.entry)) {topo : CPUTopology}
    (hmap : topo.logicalMap = parser.finish.logicalMap) {id : List Char} {core : CoreId} :
    (id, core) ∈ leaders files topo ↔
      ∃ placed ∈ layout.placed, core ∈ placed.ids numbering ∧
        id = numeral (cacheOf placed.index) := by
  have hsound : LogicalMap.Sound parser.finish.logicalMap := hholds.sound
  unfold leaders
  rw [hmap, List.mem_filterMap]
  constructor
  · rintro ⟨lcpu, hlcpu, hshown⟩
    split_ifs at hshown
    obtain ⟨found, hfound, heq⟩ := Option.map_eq_some_iff.mp hshown
    obtain ⟨rfl, rfl⟩ := Prod.mk.inj heq
    obtain ⟨block, hblock, hprocessor, hcore⟩ := exists_block hholds hlcpu (Or.inr rfl)
    obtain ⟨placed, hplaced, hids⟩ := (hshows.cores block.core).mp ⟨block, hblock, rfl⟩
    have hcache := l3Id_of_shows (hshows.cache placed hplaced block hblock hids)
    rw [hprocessor, hfound] at hcache
    exact ⟨placed, hplaced, hcore ▸ hids, Option.some.inj hcache⟩
  · rintro ⟨placed, hplaced, hids, rfl⟩
    obtain ⟨block, hblock, rfl⟩ := (hshows.cores core).mpr ⟨placed, hplaced, hids⟩
    obtain ⟨lcpu, hlcpu, -, hcore⟩ := exists_lcpu hholds hshows.distinct hblock
    -- The first CPU of the core has a block of its own.
    obtain ⟨first, hmin⟩ : ∃ first, lcpu.coreCpus.min? = some first := by
      cases hfirst : lcpu.coreCpus.min? with
      | some first => exact ⟨first, rfl⟩
      | none =>
          have hmember := hsound.member lcpu hlcpu
          rw [List.min?_eq_none_iff.mp hfirst] at hmember
          cases hmember
    have hmember : first ∈ lcpu.coreCpus := (List.min?_eq_some_iff.mp hmin).1
    obtain ⟨other, hother, hprocessor, hsame⟩ := exists_block hholds hlcpu (Or.inl hmember)
    obtain ⟨leader, hleader, hname, hleads⟩ := exists_lcpu hholds hshows.distinct hother
    have hshared : leader.coreCpus = lcpu.coreCpus :=
      hsound.siblings leader hleader lcpu hlcpu (hleads.trans hsame)
    have hids' : other.core ∈ placed.ids numbering := by
      rw [hsame, hcore]
      exact hids
    refine ⟨leader, hleader, ?_⟩
    rw [hshared, hmin, hname, hprocessor, if_pos rfl, ← hprocessor,
      l3Id_of_shows (hshows.cache placed hplaced other hother hids'), Option.map_some, hleads,
      hsame, hcore]

theorem placeFrom_index (ccds : List Ccd) : ∀ {index start : Nat} {placed : Placed},
    placed ∈ placeFrom index start ccds → index ≤ placed.index ∧
      (placeFrom index start ccds)[placed.index - index]? = some placed := by
  induction ccds with
  | nil => exact fun hplaced => (List.not_mem_nil hplaced).elim
  | cons ccd rest ih =>
      intro index start placed hplaced
      rcases List.mem_cons.mp hplaced with rfl | hrest
      · exact ⟨Nat.le_refl _, by simp [placeFrom]⟩
      · obtain ⟨hle, hat⟩ := ih hrest
        have hstep : placed.index - index = placed.index - (index + 1) + 1 := by omega
        exact ⟨by omega, by rw [hstep, placeFrom, List.getElem?_cons_succ, hat]⟩

theorem l3IdSortKey_numeral (number : Nat) : l3IdSortKey (numeral number) = number :=
  Nat.ofDigitChars_ten_toDigits

/-- The caches of a shown machine stand in the order of its CCDs. -/
theorem cacheIds_of_shows (hshows : files.Shows layout numbering blocks cacheOf)
    (hholds : parser.Holds (blocks.map Block.entry)) {topo : CPUTopology}
    (hmap : topo.logicalMap = parser.finish.logicalMap) {placed : Placed}
    (hplaced : placed ∈ layout.placed) :
    (cacheIds (l3Groups files topo))[placed.index]? = some (numeral (cacheOf placed.index)) := by
  have hids : ∀ id, id ∈ cacheIds (l3Groups files topo) ↔
      ∃ other ∈ layout.placed, id = numeral (cacheOf other.index) := by
    intro id
    rw [mem_cacheIds]
    constructor
    · rintro ⟨core, hleader⟩
      obtain ⟨other, hother, -, hid⟩ := (mem_leaders_iff hshows hholds hmap).mp hleader
      exact ⟨other, hother, hid⟩
    · rintro ⟨other, hother, hid⟩
      obtain ⟨core, hcore⟩ := List.exists_mem_of_ne_nil _ (@Placed.ids_ne_nil numbering other)
      exact ⟨core, (mem_leaders_iff hshows hholds hmap).mpr ⟨other, hother, hcore, hid⟩⟩
  -- The caches are sorted by number, the CCDs are placed by index, and the numbers ascend with
  -- the indices: both lists have the same numbers in the same order.
  have hkeys : (cacheIds (l3Groups files topo)).map l3IdSortKey =
      layout.placed.map fun other => cacheOf other.index := by
    have hinj : ∀ id ∈ cacheIds (l3Groups files topo), ∀ id' ∈ cacheIds (l3Groups files topo),
        l3IdSortKey id = l3IdSortKey id' → id = id' := by
      intro id hid id' hid' heq
      obtain ⟨other, -, rfl⟩ := (hids id).mp hid
      obtain ⟨other', -, rfl⟩ := (hids id').mp hid'
      rw [l3IdSortKey_numeral, l3IdSortKey_numeral] at heq
      rw [heq]
    apply eq_of_ascending
    · have hdistinct := List.Nodup.map_on hinj (cacheIds_nodup (l3Groups files topo))
      exact ((List.pairwise_map.mpr (cacheIds_ordered _)).and hdistinct).imp
        fun hboth => Nat.lt_of_le_of_ne hboth.1 hboth.2
    · exact List.pairwise_map.mpr (layout.placed_ordered.imp fun hordered =>
        hshows.ascending _ _ hordered.1)
    · intro number
      simp only [List.mem_map, hids]
      constructor
      · rintro ⟨id, ⟨other, hother, rfl⟩, rfl⟩
        exact ⟨other, hother, (l3IdSortKey_numeral _).symm⟩
      · rintro ⟨other, hother, rfl⟩
        exact ⟨_, ⟨other, hother, rfl⟩, l3IdSortKey_numeral _⟩
  have hat : layout.placed[placed.index]? = some placed :=
    (placeFrom_index layout.ccds hplaced).2
  have hkey : ((cacheIds (l3Groups files topo)).map l3IdSortKey)[placed.index]? =
      some (cacheOf placed.index) := by
    rw [hkeys, List.getElem?_map, hat]
    rfl
  rw [List.getElem?_map, Option.map_eq_some_iff] at hkey
  obtain ⟨id, hid, hnumber⟩ := hkey
  obtain ⟨other, -, rfl⟩ := (hids id).mp (List.mem_of_getElem? hid)
  rw [l3IdSortKey_numeral] at hnumber
  rw [hid, hnumber]

/-- A core is on the CCD that it is placed on. -/
theorem ccdMap_of_shows (hshows : files.Shows layout numbering blocks cacheOf)
    (hholds : parser.Holds (blocks.map Block.entry)) {topo : CPUTopology}
    (hmap : topo.logicalMap = parser.finish.logicalMap) {core : CoreId} {ccd : Nat} :
    (ccdMap (l3Groups files topo)).get core = some ccd ↔
      ∃ placed ∈ layout.placed, core ∈ placed.ids numbering ∧ placed.index = ccd := by
  have hsound : LogicalMap.Sound topo.logicalMap := by
    rw [hmap]
    exact hholds.sound
  rw [ccdMap_get_iff hsound]
  constructor
  · rintro ⟨id, hat, hleader⟩
    obtain ⟨placed, hplaced, hids, rfl⟩ := (mem_leaders_iff hshows hholds hmap).mp hleader
    have hat' := cacheIds_of_shows hshows hholds hmap hplaced
    exact ⟨placed, hplaced, hids, (List.getElem?_inj (List.getElem?_eq_some_iff.mp hat').1
      (cacheIds_nodup _)).mp (hat'.trans hat.symm)⟩
  · rintro ⟨placed, hplaced, hids, rfl⟩
    exact ⟨_, cacheIds_of_shows hshows hholds hmap hplaced,
      (mem_leaders_iff hshows hholds hmap).mpr ⟨placed, hplaced, hids, rfl⟩⟩

/-- The cores with a logical CPU are the cores of the layout. -/
theorem lcpu_iff (hshows : files.Shows layout numbering blocks cacheOf)
    (hholds : parser.Holds (blocks.map Block.entry)) {core : CoreId} :
    (∃ lcpu ∈ parser.finish.logicalMap.values, lcpu.physicalCore = core) ↔
      ∃ placed ∈ layout.placed, core ∈ placed.ids numbering := by
  rw [← hshows.cores]
  constructor
  · rintro ⟨lcpu, hlcpu, rfl⟩
    obtain ⟨block, hblock, -, hcore⟩ := exists_block hholds hlcpu (Or.inr rfl)
    exact ⟨block, hblock, hcore⟩
  · rintro ⟨block, hblock, rfl⟩
    obtain ⟨lcpu, hlcpu, -, hcore⟩ := exists_lcpu hholds hshows.distinct hblock
    exact ⟨lcpu, hlcpu, hcore⟩

/-- All CPUs of a shown machine are online. -/
theorem parseSysfs_of_shows (hshows : files.Shows layout numbering blocks cacheOf)
    (topo : CPUTopology) : (parseSysfs digits files topo).cpusAllOnline = some true := by
  have hread : ∀ ranges, parseCpuRanges digits (Containment.rangesText ranges ++ ['\n']) =
      Containment.rangesCpus ranges := fun ranges => by
    rw [← Containment.parseCpuRanges_agree,
      Containment.parseCpuRanges_rangesText digits ranges newline_blank]
  obtain ⟨ranges, present, hsome, hall, honline, hpresent⟩ := hshows.online
  unfold parseSysfs
  rw [if_neg (by simp [hshows.sysfs]), honline, hpresent]
  simp only [File.cpus, hread, hall, if_neg hsome, decide_true]

/-- The CCDs of the detected cores are those of the layout. -/
theorem mem_cores_of_shows (hshows : files.Shows layout numbering blocks cacheOf)
    (hholds : parser.Holds (blocks.map Block.entry)) {topo : CPUTopology}
    (hmap : topo.logicalMap = parser.finish.logicalMap) (hcores : topo.cores = Dict.empty)
    {core : CoreId} {ccd : Option Nat} :
    (core, ccd) ∈ ((detectCcdLayout files topo).cores.entries.map fun entry =>
        (entry.1, entry.2.ccd)) ↔
      ∃ placed ∈ layout.placed, core ∈ placed.ids numbering ∧ ccd = some placed.index := by
  have hentry : ∀ entry ∈ (detectCcdLayout files topo).cores.entries,
      (∃ lcpu ∈ parser.finish.logicalMap.values, lcpu.physicalCore = entry.1) ∧
        entry.2.ccd = (ccdMap (l3Groups files topo)).get entry.1 := by
    intro entry hentry
    have hget := Dict.get_eq_some.mpr hentry
    rw [detectCcdLayout, hcores] at hget
    obtain ⟨lcpu, hlcpu, hname, hvalue⟩ := Dict.exists_of_get_assignMissing _ _ hget
    rw [hmap] at hlcpu
    rw [← hvalue, ← hname]
    exact ⟨⟨lcpu, hlcpu, rfl⟩, rfl⟩
  rw [List.mem_map]
  constructor
  · rintro ⟨entry, hmem, heq⟩
    cases heq
    obtain ⟨hlcpu, hccd⟩ := hentry entry hmem
    obtain ⟨placed, hplaced, hids⟩ := (lcpu_iff hshows hholds).mp hlcpu
    refine ⟨placed, hplaced, hids, ?_⟩
    rw [hccd]
    exact (ccdMap_of_shows hshows hholds hmap).mpr ⟨placed, hplaced, hids, rfl⟩
  · rintro ⟨placed, hplaced, hids, rfl⟩
    obtain ⟨lcpu, hlcpu, rfl⟩ := (lcpu_iff hshows hholds).mpr ⟨placed, hplaced, hids⟩
    rw [← hmap] at hlcpu
    obtain ⟨found, hget⟩ := exists_get_core files hlcpu
    have hmem := Dict.get_eq_some.mp hget
    refine ⟨_, hmem, Prod.ext rfl ?_⟩
    rw [(hentry _ hmem).2]
    exact (ccdMap_of_shows hshows hholds hmap).mpr ⟨placed, hplaced, hids, rfl⟩

/-- The detected cores are the placed ones, each with its CCD. -/
theorem cores_of_shows (hshows : files.Shows layout numbering blocks cacheOf)
    (hholds : parser.Holds (blocks.map Block.entry)) {topo : CPUTopology}
    (hmap : topo.logicalMap = parser.finish.logicalMap) (hcores : topo.cores = Dict.empty) :
    ((detectCcdLayout files topo).cores.entries.map fun entry => (entry.1, entry.2.ccd)).Perm
      (layout.placed.flatMap fun placed =>
        (placed.ids numbering).map fun core => (core, some placed.index)) := by
  have hdistinct : ((detectCcdLayout files topo).cores.entries.map fun entry =>
      (entry.1, entry.2.ccd)).Nodup := by
    refine List.Nodup.of_map Prod.fst ?_
    rw [List.map_map]
    exact (detectCcdLayout files topo).cores.distinct
  have hplaced : (layout.placed.flatMap fun placed =>
      (placed.ids numbering).map fun core => (core, some placed.index)).Nodup := by
    refine List.Nodup.of_map Prod.fst ?_
    rw [List.map_flatMap]
    simp only [List.map_map, Function.comp_def, List.map_id']
    exact (layout.ids_ascending numbering).imp Nat.ne_of_lt
  -- Neither list repeats a core, so it is enough that they have the same members.
  apply (List.perm_ext_iff_of_nodup hdistinct hplaced).mpr
  intro entry
  rw [mem_cores_of_shows hshows hholds hmap hcores, List.mem_flatMap]
  simp only [List.mem_map]
  constructor
  · rintro ⟨placed, hplaced, hids, hccd⟩
    exact ⟨placed, hplaced, entry.1, hids, Prod.ext rfl hccd.symm⟩
  · rintro ⟨placed, hplaced, core, hids, rfl⟩
    exact ⟨placed, hplaced, hids, rfl⟩

theorem known_of_shows (hshows : files.Shows layout numbering blocks cacheOf)
    (hholds : parser.Holds (blocks.map Block.entry)) {topo : CPUTopology}
    (hmap : topo.logicalMap = parser.finish.logicalMap) :
    (detectCcdLayout files topo).ccdLayoutKnown = true := by
  rw [known_iff]
  constructor
  · intro hnil
    have hplaced : layout.placed ≠ [] := by
      unfold Layout.placed
      cases hccds : layout.ccds with
      | nil => exact absurd hccds hshows.inhabited
      | cons first others => exact List.cons_ne_nil _ _
    obtain ⟨placed, hplaced⟩ := List.exists_mem_of_ne_nil _ hplaced
    obtain ⟨core, hcore⟩ := List.exists_mem_of_ne_nil _ (@Placed.ids_ne_nil numbering placed)
    obtain ⟨lcpu, hlcpu, -⟩ := (lcpu_iff hshows hholds).mpr ⟨placed, hplaced, hcore⟩
    rw [← hmap, hnil] at hlcpu
    cases hlcpu
  · intro core
    rw [Dict.mem_keys, hmap, lcpu_iff hshows hholds]
    constructor
    · rintro ⟨ccd, hget⟩
      obtain ⟨placed, hplaced, hids, -⟩ := (ccdMap_of_shows hshows hholds hmap).mp hget
      exact ⟨placed, hplaced, hids⟩
    · rintro ⟨placed, hplaced, hids⟩
      exact ⟨_, (ccdMap_of_shows hshows hholds hmap).mpr ⟨placed, hplaced, hids, rfl⟩⟩

/-- What is detected from the files of a machine is its layout under its numbering. -/
theorem detectTopology_of_shows (hshows : files.Shows layout numbering blocks cacheOf) :
    (detectTopology digits files).toSmu.Of layout numbering ∧
      (detectTopology digits files).ccdLayoutKnown = true := by
  obtain ⟨parser, hholds, hparsed⟩ := @Files.Shows.parsed digits _ _ _ _ _ hshows
  let topo := parseSysfs digits files (parseCpuinfo digits files CPUTopology.initial)
  have hsame : (parseCpuinfo digits files CPUTopology.initial).SameCores topo :=
    parseSysfs_same digits files _
  have hmap : topo.logicalMap = parser.finish.logicalMap := by
    rw [hsame.logicalMap, hparsed]
  have hcores : topo.cores = Dict.empty :=
    hsame.cores.trans (parseCpuinfo_sound digits files).2
  obtain ⟨-, hknown, honline, stacked, hentries⟩ :=
    detectX3d_cores digits files (detectCcdLayout files topo)
  -- A stacked cache moves no core to another CCD.
  have hdetected : (detectTopology digits files).toSmu.cores =
      (detectCcdLayout files topo).cores.entries.map fun entry => (entry.1, entry.2.ccd) := by
    show (detectX3d digits files (detectCcdLayout files topo)).cores.entries.map
      (fun entry => (entry.1, entry.2.ccd)) = _
    rw [hentries, List.map_map]
    rfl
  refine ⟨⟨?_, ?_⟩, ?_⟩
  · rw [hdetected]
    exact cores_of_shows hshows hholds hmap hcores
  · exact honline.trans (parseSysfs_of_shows hshows _)
  · exact hknown.trans (known_of_shows hshows hholds hmap)

end Shown

/-! ## Two CCDs with a fused-off slot between their cores -/

theorem unbroken_of_any {line : List Char} (hany : line.any isLineBreak = false) :
    ∀ c ∈ line, isLineBreak c = false := by
  simpa using hany

theorem vendor_plain : Plain "vendor_id\t: AuthenticAMD".toList :=
  ⟨by decide, unbroken_of_any (by decide), by decide, by decide, by decide⟩

theorem siblings_plain : Plain "siblings\t: 8".toList :=
  ⟨by decide, unbroken_of_any (by decide), by decide, by decide, by decide⟩

theorem apicid_plain : Plain "apicid\t\t: 0".toList :=
  ⟨by decide, unbroken_of_any (by decide), by decide, by decide, by decide⟩

/-- A logical CPU of a core, with other lines before, between and behind those that are read. -/
def thread (processor : Nat) (core : CoreId) : Block where
  processor := processor
  package := 0
  core := core
  front := ["vendor_id\t: AuthenticAMD".toList]
  middle := ["siblings\t: 8".toList]
  rest := ["apicid\t\t: 0".toList]
  plain := by
    intro line hline
    simp only [List.cons_append, List.nil_append, List.mem_cons, List.not_mem_nil, or_false]
      at hline
    rcases hline with rfl | rfl | rfl
    · exact vendor_plain
    · exact siblings_plain
    · exact apicid_plain

def evenCcd : Ccd := ⟨[0, 2], by decide, by decide, by decide⟩

def oddCcd : Ccd := ⟨[1, 3], by decide, by decide, by decide⟩

/-- The second CPUs of the cores come behind all first ones. -/
def gappedBlocks : List Block :=
  [thread 0 0, thread 1 2, thread 2 9, thread 3 11,
    thread 4 0, thread 5 2, thread 6 9, thread 7 11]

def gappedFiles : Files where
  cpuinfo := some (unlines (gappedBlocks.flatMap Block.lines))
  sysfs := true
  online := .text (Containment.rangesText [(0, 7)] ++ ['\n'])
  present := .text (Containment.rangesText [(0, 3), (4, 7)] ++ ['\n'])
  cache := fun cpu =>
    let id := if cpu % 4 < 2 then 9 else 10
    some [⟨"index0", some ['1', '\n'], some ['0', '\n'], none⟩,
      ⟨"index3", some ['3', '\n'], some (numeral id ++ ['\n']), none⟩]

theorem gapped_shows :
    gappedFiles.Shows ⟨[evenCcd, oddCcd]⟩ .gapPreserving gappedBlocks (· + 9) := by
  constructor
  case cpuinfo => rfl
  case distinct => decide
  case cores =>
    intro core
    simp only [gappedBlocks, thread, Layout.placed, placeFrom, Placed.ids, evenCcd, oddCcd,
      slotsPerCcd, List.mem_cons, List.not_mem_nil, or_false, exists_eq_or_imp, exists_eq_left,
      List.map_cons, List.map_nil]
    grind
  case inhabited => exact List.cons_ne_nil _ _
  case ascending => exact fun _ _ hlt => Nat.add_lt_add_right hlt 9
  case cache =>
    have hcache : ∀ placed ∈ (⟨[evenCcd, oddCcd]⟩ : Layout).placed, ∀ block ∈ gappedBlocks,
        block.core ∈ placed.ids .gapPreserving →
        (if block.processor % 4 < 2 then 9 else 10) = placed.index + 9 := by decide
    intro placed hplaced block hblock hcore
    refine ⟨_, _, rfl, List.mem_cons_of_mem _ (List.mem_singleton_self _), rfl, ?_, ?_⟩
    · rw [hcache placed hplaced block hblock hcore]
    · intro other hother hlevel
      simp only [List.mem_cons, List.not_mem_nil, or_false] at hother
      rcases hother with rfl | rfl
      · exact absurd hlevel (by decide)
      · rfl
  case sysfs => rfl
  case online => exact ⟨[(0, 7)], [(0, 3), (4, 7)], by decide, by decide, rfl, rfl⟩

theorem detectTopology_of_shows_sample :
    (detectTopology asciiDigits gappedFiles).toSmu.Of ⟨[evenCcd, oddCcd]⟩ .gapPreserving ∧
      (detectTopology asciiDigits gappedFiles).ccdLayoutKnown = true :=
  detectTopology_of_shows gapped_shows

end Topology
end Engine
end CoreCycler
