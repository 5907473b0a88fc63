import Mathlib.Tactic

/-!
# The tuning context

What `capture_system_context` records of a machine before a session starts: its model and BIOS,
its power limits and the curve offset of every core, with a hash that keys everything banked
under the context.  The SMU driver answers for the core IDs of the loaded topology; the capture
walks an index range.
-/

namespace CoreCycler
namespace History

/-- A core ID of the operating system. -/
abbrev CoreId := Nat

/-- What the SMU answers while a context is captured; `none` is a failed or raising read. -/
structure SmuReads where
  /-- `get_co_offset` of a core. -/
  coOffset : CoreId → Option Int
  /-- `get_all_co_offsets` raised. -/
  coRaised : Bool := false
  pboScalar : Option ℚ := none
  boostLimitMhz : Option Int := none
  pptLimitW : Option ℚ := none
  tdcLimitA : Option ℚ := none
  edcLimitA : Option ℚ := none

/-- The driver as a capture finds it. -/
structure Smu where
  /-- The sorted core IDs of the loaded topology, if one with cores was loaded. -/
  knownCoreIds : Option (List CoreId)
  reads : SmuReads

/-- Load a topology with the given cores. -/
def Smu.setTopology (cores : Finset CoreId) (reads : SmuReads) : Smu :=
  { knownCoreIds := if cores = ∅ then none else some (cores.sort (· ≤ ·))
    reads := reads }

/-- Read the CO offsets of all cores; without a topology the domain is `range(num_cores)`. -/
def Smu.getAllCoOffsets (smu : Smu) (numCores : Nat) : List (CoreId × Option Int) :=
  (smu.knownCoreIds.getD (List.range numCores)).map fun core => (core, smu.reads.coOffset core)

/-- What a context hash is computed over. -/
structure ContextPayload where
  version : Nat := 1
  cpuModel : String
  physicalCores : Nat
  ccds : Nat
  co : List (Option Int)
  pboScalar : Option ℚ
  boostLimitMhz : Option Int
  pptLimitW : Option ℚ
  tdcLimitA : Option ℚ
  edcLimitA : Option ℚ
  biosVersion : String
deriving DecidableEq

structure SystemContext (Hash : Type*) where
  cpuModel : String
  physicalCores : Nat
  ccds : Nat
  co : List (Option Int)
  pboScalar : Option ℚ
  boostLimitMhz : Option Int
  pptLimitW : Option ℚ
  tdcLimitA : Option ℚ
  edcLimitA : Option ℚ
  biosVersion : String
  contextHash : Hash
  complete : Bool
  missing : List String

/-- The offset a dictionary of offsets has for a core; `None` for an absent one. -/
def offsetOf (offsets : List (CoreId × Option Int)) (core : CoreId) : Option Int :=
  (offsets.lookup core).join

/-- What a capture could not read. -/
def missingFields (cpuModel : String) (co : List (Option Int)) (numCores : Nat) : List String :=
  (if cpuModel = "" then ["cpu_model"] else []) ++
    (co.zipIdx.filterMap fun entry =>
      if entry.1 = none then some s!"co[{entry.2}]" else none) ++
    if numCores = 0 then ["co"] else []

variable {Hash : Type*}

/-- Capture the context of a machine; `digest` is SHA-256 over the JSON of its payload. -/
def captureSystemContext (digest : ContextPayload → Hash) (smu : Option Smu) (numCores : Nat)
    (biosVersion cpuModel : String) (ccds : Nat) : SystemContext Hash :=
  -- Without cores the SMU is not asked at all.
  let reads := if 0 < numCores then smu else none
  let offsets := match reads with
    | some smu => if smu.reads.coRaised then [] else smu.getAllCoOffsets numCores
    | none => []
  let co := (List.range numCores).map (offsetOf offsets)
  let missing := missingFields cpuModel co numCores
  let payload : ContextPayload :=
    { cpuModel := cpuModel
      physicalCores := numCores
      ccds := ccds
      co := co
      pboScalar := reads.bind fun smu => smu.reads.pboScalar
      boostLimitMhz := reads.bind fun smu => smu.reads.boostLimitMhz
      pptLimitW := reads.bind fun smu => smu.reads.pptLimitW
      tdcLimitA := reads.bind fun smu => smu.reads.tdcLimitA
      edcLimitA := reads.bind fun smu => smu.reads.edcLimitA
      biosVersion := biosVersion }
  { cpuModel := cpuModel
    physicalCores := numCores
    ccds := ccds
    co := co
    pboScalar := payload.pboScalar
    boostLimitMhz := payload.boostLimitMhz
    pptLimitW := payload.pptLimitW
    tdcLimitA := payload.tdcLimitA
    edcLimitA := payload.edcLimitA
    biosVersion := biosVersion
    contextHash := digest payload
    complete := missing.isEmpty
    missing := missing }

/-- The machine under a capture: its topology, what its SMU answers, and what it is. -/
structure Machine where
  reads : SmuReads
  biosVersion : String
  cpuModel : String
  ccds : Nat

/-- The capture of the engine, over the number of the topology's cores. -/
def Machine.capture (digest : ContextPayload → Hash) (cores : Finset CoreId)
    (machine : Machine) : SystemContext Hash :=
  captureSystemContext digest (some (Smu.setTopology cores machine.reads)) cores.card
    machine.biosVersion machine.cpuModel machine.ccds

/-! ## What a capture sees -/

/-- The offset the driver answers for a core. -/
def SmuReads.offset (reads : SmuReads) (core : CoreId) : Option Int :=
  if reads.coRaised then none else reads.coOffset core

theorem lookup_map_eq {cores : List CoreId} {read : CoreId → Option Int} (core : CoreId) :
    offsetOf (cores.map fun core => (core, read core)) core =
      if core ∈ cores then read core else none := by
  induction cores with
  | nil => rfl
  | cons head rest ih =>
      rw [offsetOf, List.map_cons, List.lookup_cons]
      by_cases heq : core = head
      · subst heq
        simp
      · simp only [beq_eq_false_iff_ne.mpr heq, List.mem_cons, heq, false_or]
        exact ih

/-- A capture sees the offset of a core whose ID lies in both ranges. -/
theorem capture_co (digest : ContextPayload → Hash) {cores : Finset CoreId} (machine : Machine) :
    (machine.capture digest cores).co = (List.range cores.card).map fun core =>
      if core ∈ cores then machine.reads.offset core else none := by
  rcases cores.eq_empty_or_nonempty with rfl | hne
  · rfl
  · have hcard : 0 < cores.card := Finset.card_pos.mpr hne
    simp only [Machine.capture, captureSystemContext, if_pos hcard]
    refine List.map_congr_left fun core _ => ?_
    rw [SmuReads.offset]
    cases hraised : machine.reads.coRaised with
    | true => simp [Smu.setTopology, hraised, offsetOf]
    | false =>
        simp only [Smu.setTopology, hraised, if_neg hne.ne_empty, Smu.getAllCoOffsets,
          Option.getD_some, Bool.false_eq_true, if_false, lookup_map_eq, Finset.mem_sort]

/-- A capture is complete when the model is known, there are cores, and every index below
their number is a core that was read. -/
theorem capture_complete_iff (digest : ContextPayload → Hash) {cores : Finset CoreId}
    (machine : Machine) :
    (machine.capture digest cores).complete = true ↔
      machine.cpuModel ≠ "" ∧ cores ≠ ∅ ∧
        ∀ core < cores.card, core ∈ cores ∧ machine.reads.offset core ≠ none := by
  have hco := @capture_co _ digest cores machine
  have hmissing : (machine.capture digest cores).complete =
      (missingFields machine.cpuModel (machine.capture digest cores).co cores.card).isEmpty := rfl
  have hread : ((machine.capture digest cores).co.zipIdx.filterMap fun entry =>
      if entry.1 = none then some s!"co[{entry.2}]" else none) = [] ↔
        ∀ core < cores.card, core ∈ cores ∧ machine.reads.offset core ≠ none := by
    rw [List.filterMap_eq_nil_iff, hco]
    constructor
    · intro hall core hlt
      have hentry := hall (if core ∈ cores then machine.reads.offset core else none, core)
        (by simp [List.mem_zipIdx_iff_getElem?, hlt])
      by_cases hmem : core ∈ cores
      · exact ⟨hmem, by simpa [hmem] using hentry⟩
      · simp [hmem] at hentry
    · rintro hall ⟨offset, core⟩ hentry
      rw [List.mem_zipIdx_iff_getElem?, List.getElem?_map] at hentry
      obtain ⟨index, hindex, hoffset⟩ := Option.map_eq_some_iff.mp hentry
      obtain ⟨hlt, hcore⟩ := List.getElem?_eq_some_iff.mp hindex
      rw [List.length_range] at hlt
      rw [List.getElem_range] at hcore
      obtain ⟨hmem, hsome⟩ := hall core hlt
      rw [← hcore, if_pos hmem] at hoffset
      exact if_neg fun hnone => hsome (hoffset.trans hnone)
  rw [hmissing, missingFields, List.isEmpty_iff, List.append_eq_nil_iff, List.append_eq_nil_iff,
    hread]
  simp only [ite_eq_right_iff, reduceCtorEq, imp_false, Finset.card_eq_zero]
  tauto

/-- What a context hash is computed over, for a machine with cores. -/
theorem capture_contextHash (digest : ContextPayload → Hash) {cores : Finset CoreId}
    (hne : cores ≠ ∅) (machine : Machine) :
    (machine.capture digest cores).contextHash = digest
      { cpuModel := machine.cpuModel
        physicalCores := cores.card
        ccds := machine.ccds
        co := (machine.capture digest cores).co
        pboScalar := machine.reads.pboScalar
        boostLimitMhz := machine.reads.boostLimitMhz
        pptLimitW := machine.reads.pptLimitW
        tdcLimitA := machine.reads.tdcLimitA
        edcLimitA := machine.reads.edcLimitA
        biosVersion := machine.biosVersion } := by
  have hcard : 0 < cores.card := Finset.card_pos.mpr (Finset.nonempty_iff_ne_empty.mpr hne)
  simp only [Machine.capture, captureSystemContext, if_pos hcard, Smu.setTopology,
    Option.bind_some]

/-! ## Covering every core -/

/-- A capture is complete when the model is known and every core of the topology was read. -/
def CompleteWhenRead (digest : ContextPayload → Hash) (cores : Finset CoreId) : Prop :=
  ∀ machine : Machine, (machine.capture digest cores).complete = true ↔
    machine.cpuModel ≠ "" ∧ ∀ core ∈ cores, machine.reads.offset core ≠ none

/-- The captured machines differ in an offset, a limit, the model or the BIOS. -/
def Differ (cores : Finset CoreId) (first second : Machine) : Prop :=
  (∃ core ∈ cores, first.reads.offset core ≠ second.reads.offset core) ∨
    first.reads.pboScalar ≠ second.reads.pboScalar ∨
    first.reads.boostLimitMhz ≠ second.reads.boostLimitMhz ∨
    first.reads.pptLimitW ≠ second.reads.pptLimitW ∨
    first.reads.tdcLimitA ≠ second.reads.tdcLimitA ∨
    first.reads.edcLimitA ≠ second.reads.edcLimitA ∨
    first.cpuModel ≠ second.cpuModel ∨ first.biosVersion ≠ second.biosVersion

/-- Machines that differ have different context hashes. -/
def HashesTell (digest : ContextPayload → Hash) (cores : Finset CoreId) : Prop :=
  ∀ first second : Machine, Differ cores first second →
    (first.capture digest cores).contextHash ≠ (second.capture digest cores).contextHash

/-- The core IDs are an index range, `0` to one less than their number. -/
def IsIndexRange (cores : Finset CoreId) : Prop :=
  cores ≠ ∅ ∧ cores = Finset.range cores.card

theorem completeWhenRead_iff (digest : ContextPayload → Hash) (cores : Finset CoreId) :
    CompleteWhenRead digest cores ↔ IsIndexRange cores := by
  constructor
  · intro hcomplete
    let machine : Machine :=
      { reads := { coOffset := fun _ => some 0 }, biosVersion := "", cpuModel := "model", ccds := 1 }
    have hcaptured : (machine.capture digest cores).complete = true :=
      (hcomplete machine).mpr ⟨by decide, fun _ _ => by simp [machine, SmuReads.offset]⟩
    obtain ⟨-, hne, hall⟩ := (capture_complete_iff digest machine).mp hcaptured
    have hsub : Finset.range cores.card ⊆ cores := fun core hcore =>
      (hall core (Finset.mem_range.mp hcore)).1
    exact ⟨hne, (Finset.eq_of_subset_of_card_le hsub (by simp)).symm⟩
  · rintro ⟨hne, hrange⟩ machine
    have hmem : ∀ core, core ∈ cores ↔ core < cores.card := by
      intro core
      conv_lhs => rw [hrange, Finset.mem_range]
    rw [capture_complete_iff]
    constructor
    · rintro ⟨hmodel, -, hall⟩
      exact ⟨hmodel, fun core hcore => (hall core ((hmem core).mp hcore)).2⟩
    · rintro ⟨hmodel, hall⟩
      exact ⟨hmodel, hne, fun core hlt => ⟨(hmem core).mpr hlt, hall core ((hmem core).mpr hlt)⟩⟩

theorem hashesTell_of_range {digest : ContextPayload → Hash} (hinj : Function.Injective digest)
    {cores : Finset CoreId} (hrange : IsIndexRange cores) : HashesTell digest cores := by
  intro first second hdiffer hsame
  rw [capture_contextHash digest hrange.1, capture_contextHash digest hrange.1] at hsame
  have hpayload := hinj hsame
  simp only [ContextPayload.mk.injEq, capture_co, true_and] at hpayload
  obtain ⟨hmodel, -, hco, hscalar, hboost, hppt, htdc, hedc, hbios⟩ := hpayload
  rcases hdiffer with ⟨core, hcore, hne⟩ | hne | hne | hne | hne | hne | hne | hne
  · have hlt : core < cores.card := by
      rw [hrange.2, Finset.mem_range] at hcore
      simpa using hcore
    have hoffset := List.map_inj_left.mp hco core (List.mem_range.mpr hlt)
    simp only [if_pos hcore] at hoffset
    exact hne hoffset
  · exact hne hscalar
  · exact hne hboost
  · exact hne hppt
  · exact hne htdc
  · exact hne hedc
  · exact hne hmodel
  · exact hne hbios

/-- **The context covers every core exactly when the core IDs are an index range.**  With a
collision-free digest of the payload. -/
theorem context_covers_cores_iff {digest : ContextPayload → Hash}
    (hinj : Function.Injective digest) (cores : Finset CoreId) :
    CompleteWhenRead digest cores ∧ HashesTell digest cores ↔ IsIndexRange cores := by
  rw [completeWhenRead_iff]
  exact ⟨And.left, fun hrange => ⟨hrange, hashesTell_of_range hinj hrange⟩⟩

/-- Cores 0-5 and 8-13, as on a 12-core part that keeps the gaps of its fused-off cores. -/
def gappedCores : Finset CoreId := {0, 1, 2, 3, 4, 5, 8, 9, 10, 11, 12, 13}

/-- A machine of a known model whose core 13 reads `offset`, and every other core -10. -/
def gappedMachine (offset : Int) : Machine :=
  { reads := { coOffset := fun core => if core = 13 then some offset else some (-10) }
    biosVersion := "1.0"
    cpuModel := "model"
    ccds := 2 }

theorem gappedMachine_co (offset : Int) :
    ((gappedMachine offset).capture (id : ContextPayload → ContextPayload) gappedCores).co =
      List.replicate 6 (some (-10)) ++ [none, none] ++ List.replicate 4 (some (-10)) := by
  rw [capture_co]
  rfl

/-- With every core read the context is incomplete, and a change of core 13 does not change
its hash. -/
theorem gapped_cores_uncovered :
    (∀ core ∈ gappedCores, (gappedMachine (-10)).reads.offset core ≠ none) ∧
      ((gappedMachine (-10)).capture id gappedCores).missing = ["co[6]", "co[7]"] ∧
      Differ gappedCores (gappedMachine (-10)) (gappedMachine (-20)) ∧
      ((gappedMachine (-10)).capture id gappedCores).contextHash =
        ((gappedMachine (-20)).capture id gappedCores).contextHash ∧
      ¬ (CompleteWhenRead (id : ContextPayload → ContextPayload) gappedCores ∧
        HashesTell (id : ContextPayload → ContextPayload) gappedCores) := by
  have hmissing : ((gappedMachine (-10)).capture id gappedCores).missing =
      missingFields "model"
        ((gappedMachine (-10)).capture (id : ContextPayload → ContextPayload) gappedCores).co
        gappedCores.card := rfl
  refine ⟨by decide, ?_, .inl ⟨13, by decide, by decide⟩, ?_, ?_⟩
  · rw [hmissing, gappedMachine_co]
    decide +kernel
  · rw [capture_contextHash id (by decide), capture_contextHash id (by decide),
      gappedMachine_co, gappedMachine_co]
    rfl
  · rw [completeWhenRead_iff]
    rintro ⟨⟨-, hrange⟩, -⟩
    revert hrange
    decide

/-- The cores 0 to 3 of a desktop part are covered. -/
theorem context_covers_four_cores :
    CompleteWhenRead (id : ContextPayload → ContextPayload) (Finset.range 4) ∧
      HashesTell (id : ContextPayload → ContextPayload) (Finset.range 4) :=
  (context_covers_cores_iff Function.injective_id (Finset.range 4)).mpr ⟨by decide, by decide⟩

end History
end CoreCycler
