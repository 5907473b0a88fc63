import CoreCycler.Library.Dict
import CoreCycler.Library.Reading
import CoreCycler.Library.Text
import CoreCycler.Smu.CoreMap
import Mathlib.Data.Finset.Card
import Mathlib.Data.List.Sort
import Mathlib.Order.Interval.Finset.Nat

/-!
# CPU topology detection

`detect_topology` reads the logical CPUs and their cores out of `/proc/cpuinfo`, and out of sysfs
which CPUs are online and which last-level cache each core hangs on.  The cores of one cache are
a CCD; a layout counts as known only where the caches place every core.
-/

namespace CoreCycler
namespace Engine
namespace Topology

open Library Library.Reading Smu

/-! ## What the files hold -/

/-- A file with its text, one that cannot be read, or none. -/
inductive File where
  | missing
  | unreadable
  | text (content : List Char)
deriving DecidableEq

/-- A directory of a CPU's caches; a file of it that does not exist has no text. -/
structure CacheIndex where
  name : String
  level : Option (List Char)
  id : Option (List Char)
  size : Option (List Char)
deriving DecidableEq

/-- The files that are read. -/
structure Files where
  cpuinfo : Option (List Char)
  /-- `/sys/devices/system/cpu` exists. -/
  sysfs : Bool
  online : File
  present : File
  /-- The `cache` directory of a logical CPU. -/
  cache : Nat → Option (List CacheIndex)

/-! ## What is detected -/

structure LogicalCPU where
  logicalId : Nat
  physicalCore : CoreId
  packageId : Int
  /-- All logical CPUs sharing this physical core. -/
  coreCpus : List Nat
deriving DecidableEq, Repr

structure PhysicalCore where
  coreId : CoreId
  ccd : Option Nat
  logicalCpus : List Nat
  hasVcache : Bool
deriving DecidableEq, Repr

structure CPUTopology where
  modelName : List Char
  vendor : List Char
  family : Int
  model : Int
  stepping : Int
  physicalCores : Nat
  logicalCpusCount : Nat
  smtEnabled : Bool
  ccds : Nat
  ccdLayoutKnown : Bool
  isX3d : Bool
  cpusAllOnline : Option Bool
  cores : Dict CoreId PhysicalCore
  logicalMap : Dict Nat LogicalCPU

def CPUTopology.initial : CPUTopology where
  modelName := []
  vendor := []
  family := 0
  model := 0
  stepping := 0
  physicalCores := 0
  logicalCpusCount := 0
  smtEnabled := false
  ccds := 0
  ccdLayoutKnown := false
  isX3d := false
  cpusAllOnline := none
  cores := Dict.empty
  logicalMap := Dict.empty

variable (digits : DigitValues)

/-! ## The processors -/

/-- The text behind the colon of a line, without the blanks around it. -/
def fieldText (line : List Char) : Option (List Char) :=
  (splitFirst ':' line).map fun parts => trim parts.2

/-- The integer behind the colon of a line. -/
def fieldInt (line : List Char) : Option Int := (fieldText line).bind (int digits)

/-- The parser of `/proc/cpuinfo` between two lines. -/
structure Parser where
  coresSeen : Dict CoreId (List Nat)
  currentProc : Int
  currentCore : Int
  currentPkg : Int
  topo : CPUTopology

def Parser.initial (topo : CPUTopology) : Parser := ⟨Dict.empty, -1, -1, 0, topo⟩

/-- Keep the processor that has been read, if its core was named. -/
def Parser.record (parser : Parser) : Parser :=
  if 0 ≤ parser.currentProc ∧ 0 ≤ parser.currentCore then
    let proc := parser.currentProc.toNat
    let core := parser.currentCore.toNat
    { parser with
      coresSeen := parser.coresSeen.collect core proc
      topo := { parser.topo with
        logicalMap := parser.topo.logicalMap.set proc ⟨proc, core, parser.currentPkg, []⟩ } }
  else parser

/-- Read a line.  A blank one ends a processor. -/
def Parser.line (parser : Parser) (line : List Char) : Parser :=
  if "processor".toList.isPrefixOf line then
    { parser with currentProc := (fieldInt digits line).getD parser.currentProc }
  else if "core id".toList.isPrefixOf line then
    { parser with currentCore := (fieldInt digits line).getD parser.currentCore }
  else if "physical id".toList.isPrefixOf line then
    { parser with currentPkg := (fieldInt digits line).getD parser.currentPkg }
  else if "model name".toList.isPrefixOf line ∧ parser.topo.modelName = [] then
    { parser with topo := { parser.topo with
        modelName := (fieldText line).getD parser.topo.modelName } }
  else if "vendor_id".toList.isPrefixOf line ∧ parser.topo.vendor = [] then
    { parser with topo := { parser.topo with
        vendor := (fieldText line).getD parser.topo.vendor } }
  else if "cpu family".toList.isPrefixOf line ∧ parser.topo.family = 0 then
    { parser with topo := { parser.topo with family := (fieldInt digits line).getD 0 } }
  else if "model\t".toList.isPrefixOf line ∧ parser.topo.model = 0 then
    { parser with topo := { parser.topo with model := (fieldInt digits line).getD 0 } }
  else if "stepping".toList.isPrefixOf line ∧ parser.topo.stepping = 0 then
    { parser with topo := { parser.topo with stepping := (fieldInt digits line).getD 0 } }
  else if line = [] then { parser.record with currentProc := -1, currentCore := -1 }
  else parser

/-- The counts, and the siblings of every logical CPU. -/
def Parser.finish (parser : Parser) : CPUTopology :=
  { parser.topo with
    physicalCores := parser.coresSeen.values.length
    logicalCpusCount := (parser.coresSeen.values.map List.length).sum
    smtEnabled := parser.coresSeen.values.any fun cpus => decide (1 < cpus.length)
    logicalMap := parser.topo.logicalMap.mapValues fun logicalId lcpu =>
      { lcpu with
        coreCpus := ((parser.coresSeen.get lcpu.physicalCore).getD [logicalId]).insertionSort
          (· ≤ ·) } }

def parseCpuinfo (files : Files) (topo : CPUTopology) : CPUTopology :=
  match files.cpuinfo with
  | none => topo
  | some text =>
      -- The last processor has no blank line behind it if the text just ends.
      ((splitLines text).foldl (Parser.line digits) (Parser.initial topo)).record.finish

/-! ## The online CPUs -/

/-- The CPUs of a part of a CPU list: a range, one CPU, or none if it is malformed. -/
def partCpus (part : List Char) : Finset Nat :=
  -- Without a dash in front of it no number is negative; the upper end may be.
  match splitFirst '-' part with
  | some (lo, hi) =>
      match int digits lo, int digits hi with
      | some low, some high => Finset.Ico low.toNat (high + 1).toNat
      | _, _ => ∅
  | none => (int digits part).elim ∅ fun cpu => {cpu.toNat}

/-- The CPUs of a sysfs CPU list. -/
def parseCpuRanges (text : List Char) : Finset Nat :=
  ((trim text).splitOn ',').foldl (fun cpus part => cpus ∪ partCpus digits part) ∅

/-- The CPUs a text file lists, if it can be read. -/
def File.cpus (file : File) : Option (Finset Nat) :=
  match file with
  | .text content => some (parseCpuRanges digits content)
  | .missing => none
  | .unreadable => none

def parseSysfs (files : Files) (topo : CPUTopology) : CPUTopology :=
  if files.sysfs = false then topo
  else
    match files.online.cpus digits with
    | none => topo
    | some online =>
        if online = ∅ then topo
        else
          let counted := if topo.logicalCpusCount = 0 then
              { topo with logicalCpusCount := online.card }
            else topo
          match files.present.cpus digits with
          | none => counted
          | some present =>
              if present = ∅ then counted
              else { counted with cpusAllOnline := some (decide (online = present)) }

/-! ## The CCDs -/

/-- The directory of the level-3 cache of a logical CPU, the first by name. -/
def l3CacheDir (files : Files) (logicalCpu : Nat) : Option CacheIndex :=
  (files.cache logicalCpu).bind fun dirs =>
    (dirs.insertionSort fun before behind => before.name ≤ behind.name).find? fun dir =>
      decide (dir.level.map trim = some ['3'])

/-- The ID of the level-3 cache of a logical CPU, if it is a decimal number. -/
def l3Id (files : Files) (logicalCpu : Nat) : Option (List Char) :=
  ((l3CacheDir files logicalCpu).bind fun dir => dir.id).bind fun text =>
    let id := trim text
    if id ≠ [] ∧ id.all Char.isDigit then some id else none

/-- The caches with the cores that hang on each; the first CPU of a core stands for it. -/
def l3Groups (files : Files) (topo : CPUTopology) : Dict (List Char) (List CoreId) :=
  topo.logicalMap.values.foldl
    (fun groups lcpu =>
      if lcpu.coreCpus.min? = some lcpu.logicalId then
        match l3Id files lcpu.logicalId with
        | some id => groups.collect id lcpu.physicalCore
        | none => groups
      else groups)
    Dict.empty

/-- Caches are ordered by the number of their ID. -/
def l3IdSortKey (id : List Char) : Nat := Nat.ofDigitChars 10 id 0

/-- The CCD of each core: the position of its cache. -/
def ccdMap (groups : Dict (List Char) (List CoreId)) : Dict CoreId Nat :=
  (groups.entries.insertionSort fun before behind =>
      l3IdSortKey before.1 ≤ l3IdSortKey behind.1).zipIdx.foldl
    (fun ccds group => group.1.2.foldl (fun held core => held.set core group.2) ccds)
    Dict.empty

def detectCcdLayout (files : Files) (topo : CPUTopology) : CPUTopology :=
  let groups := l3Groups files topo
  let ccds := ccdMap groups
  let physicalCoreIds := (topo.logicalMap.values.map LogicalCPU.physicalCore).toFinset
  { topo with
    ccds := if groups.entries = [] then 1 else groups.entries.length
    ccdLayoutKnown := decide (physicalCoreIds ≠ ∅ ∧ ccds.keys.toFinset = physicalCoreIds)
    cores := Dict.assignMissing LogicalCPU.physicalCore
      (fun lcpu => ⟨lcpu.physicalCore, ccds.get lcpu.physicalCore, lcpu.coreCpus, false⟩)
      topo.logicalMap.values topo.cores }

/-! ## Stacked caches -/

/-- A CCD at or above this carries stacked V-Cache. -/
def vcacheL3MinKib : Nat := 64 * 1024

/-- The size of a cache in KiB: leading digits and a unit. -/
def l3SizeKib (dir : CacheIndex) : Option Nat :=
  dir.size.bind fun text =>
    let size := trim text
    let number := size.takeWhile fun c => (digits.value c).isSome
    (digitsFrom digits 0 false number).map fun count =>
      match (size.drop number.length).head? with
      | some 'M' => count * 1024
      | some 'G' => count * 1048576
      | _ => count

/-- The CCDs with a stacked cache, each judged at its first core. -/
def vcacheCcds (files : Files) (cores : List PhysicalCore) : Finset Nat :=
  (cores.foldl
    (fun (found : Finset Nat × Finset Nat) core =>
      match core.ccd with
      | none => found
      | some ccd =>
          if ccd ∈ found.1 then found
          else
            (insert ccd found.1,
              match (core.logicalCpus.head?.bind (l3CacheDir files)).bind (l3SizeKib digits) with
              | some kib => if vcacheL3MinKib ≤ kib then insert ccd found.2 else found.2
              | none => found.2))
    (∅, ∅)).2

def detectX3d (files : Files) (topo : CPUTopology) : CPUTopology :=
  let isX3d := decide ("x3d".toList <:+: Text.lower (String.ofList topo.modelName))
  if isX3d = false then { topo with isX3d := isX3d }
  else
    let vcache := vcacheCcds digits files topo.cores.values
    let wholePart := decide (vcache = ∅ ∧ topo.ccds = 1)
    { topo with
      isX3d := isX3d
      cores := topo.cores.mapValues fun _ core =>
        if wholePart = true ∨ ∃ ccd ∈ vcache, core.ccd = some ccd then
          { core with hasVcache := true }
        else core }

/-! ## Detection -/

def detectTopology (files : Files) : CPUTopology :=
  detectX3d digits files
    (detectCcdLayout files
      (parseSysfs digits files (parseCpuinfo digits files CPUTopology.initial)))

/-- What the core map reads of a topology. -/
def CPUTopology.toSmu (topo : CPUTopology) : Smu.Topology where
  cores := (topo.cores.mapValues fun _ core => core.ccd).entries
  distinct := (topo.cores.mapValues fun _ core => core.ccd).distinct
  ccdLayoutKnown := topo.ccdLayoutKnown
  cpusAllOnline := topo.cpusAllOnline

end Topology
end Engine
end CoreCycler
