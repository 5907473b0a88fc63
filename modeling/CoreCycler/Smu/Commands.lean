import Mathlib.Data.Nat.Bitwise
import Mathlib.Data.Int.ModEq
import Mathlib.Tactic.Common
import Mathlib.Tactic.IntervalCases

/-!
# SMU command sets and the argument of a CO command

The command sets of the CPU generations, as far as the Curve Optimizer reads them, and the
32-bit argument that addresses one core's offset: the CCD in bits 31:28, the physical slot in
bits 23:20 and the offset in bits 15:0 as two's complement.
-/

namespace CoreCycler
namespace Smu

/-- A core ID of the operating system. -/
abbrev CoreId := Nat

inductive CPUGeneration where
  | zen2Matisse
  | zen2CastlePeak
  | zen3Vermeer
  | zen3Chagall
  | zen3Cezanne
  | zen3Rembrandt
  | zen3dWarhol
  | zen4Raphael
  | zen4Phoenix
  | zen4Phoenix2
  | zen4DragonRange
  | zen4StormPeak
  | zen5GraniteRidge
  | zen5StrixPoint
  | zen5StrixHalo
  | zen5ShimadaPeak
  | unknown
deriving DecidableEq, Repr

/-- The enumeration's member name, as messages print it. -/
def CPUGeneration.name : CPUGeneration → String
  | .zen2Matisse => "ZEN2_MATISSE"
  | .zen2CastlePeak => "ZEN2_CASTLE_PEAK"
  | .zen3Vermeer => "ZEN3_VERMEER"
  | .zen3Chagall => "ZEN3_CHAGALL"
  | .zen3Cezanne => "ZEN3_CEZANNE"
  | .zen3Rembrandt => "ZEN3_REMBRANDT"
  | .zen3dWarhol => "ZEN3D_WARHOL"
  | .zen4Raphael => "ZEN4_RAPHAEL"
  | .zen4Phoenix => "ZEN4_PHOENIX"
  | .zen4Phoenix2 => "ZEN4_PHOENIX2"
  | .zen4DragonRange => "ZEN4_DRAGON_RANGE"
  | .zen4StormPeak => "ZEN4_STORM_PEAK"
  | .zen5GraniteRidge => "ZEN5_GRANITE_RIDGE"
  | .zen5StrixPoint => "ZEN5_STRIX_POINT"
  | .zen5StrixHalo => "ZEN5_STRIX_HALO"
  | .zen5ShimadaPeak => "ZEN5_SHIMADA_PEAK"
  | .unknown => "UNKNOWN"

inductive EncodingScheme where
  | none
  | zen3
  | zen4_5
deriving DecidableEq, Repr

/-- What the Curve Optimizer reads of a command set. -/
structure SMUCommandSet where
  generation : CPUGeneration
  encodingScheme : EncodingScheme
  /-- The CO core address space is verified to be uniform eight-slot CCDs. -/
  uniform8coreCcds : Bool := false
  /-- SMN address of CCD 0's core-disable fuse. -/
  coreFuseAddr : Option Nat := none
  setCoCmd : Option Nat := none
  getCoCmd : Option Nat := none
deriving DecidableEq

/-- Whether the generation supports the Curve Optimizer. -/
def SMUCommandSet.hasCo (commands : SMUCommandSet) : Bool :=
  commands.setCoCmd.isSome && commands.getCoCmd.isSome

def fuseZen3Class : Nat := 0x30081D98

def fuseRaphael : Nat := 0x30081CD0

def fuseGraniteRidge : Nat := 0x304A03DC

namespace CommandSets

def zen2Matisse : SMUCommandSet :=
  { generation := .zen2Matisse, encodingScheme := .none }

def zen3Vermeer : SMUCommandSet :=
  { generation := .zen3Vermeer, encodingScheme := .zen3, uniform8coreCcds := true,
    coreFuseAddr := some fuseZen3Class, setCoCmd := some 0x35, getCoCmd := some 0x48 }

def zen3dWarhol : SMUCommandSet :=
  { generation := .zen3dWarhol, encodingScheme := .zen3, uniform8coreCcds := true,
    coreFuseAddr := some fuseZen3Class, setCoCmd := some 0x35, getCoCmd := some 0x48 }

def zen3Cezanne : SMUCommandSet :=
  { generation := .zen3Cezanne, encodingScheme := .zen3, uniform8coreCcds := true,
    setCoCmd := some 0x54, getCoCmd := some 0xC3 }

def zen4Raphael : SMUCommandSet :=
  { generation := .zen4Raphael, encodingScheme := .zen4_5, uniform8coreCcds := true,
    coreFuseAddr := some fuseRaphael, setCoCmd := some 0x06, getCoCmd := some 0xD5 }

def zen4Phoenix : SMUCommandSet :=
  { generation := .zen4Phoenix, encodingScheme := .zen4_5, uniform8coreCcds := true,
    setCoCmd := some 0x4B, getCoCmd := some 0xE1 }

def zen4StormPeak : SMUCommandSet :=
  { generation := .zen4StormPeak, encodingScheme := .zen4_5, uniform8coreCcds := true,
    coreFuseAddr := some fuseZen3Class, setCoCmd := some 0x06, getCoCmd := some 0xD5 }

def zen5GraniteRidge : SMUCommandSet :=
  { generation := .zen5GraniteRidge, encodingScheme := .zen4_5, uniform8coreCcds := true,
    coreFuseAddr := some fuseGraniteRidge, setCoCmd := some 0x06, getCoCmd := some 0xD5 }

def zen5StrixPoint : SMUCommandSet :=
  { generation := .zen5StrixPoint, encodingScheme := .zen4_5,
    setCoCmd := some 0x4B, getCoCmd := some 0xAF }

def zen5ShimadaPeak : SMUCommandSet :=
  { generation := .zen5ShimadaPeak, encodingScheme := .zen4_5, uniform8coreCcds := true,
    setCoCmd := some 0x06, getCoCmd := some 0xA3 }

end CommandSets

open CommandSets in
/-- Get the commands of a generation; the aliased sets copy their source's. -/
def getCommands : CPUGeneration → Option SMUCommandSet
  | .zen2Matisse => some zen2Matisse
  | .zen2CastlePeak => some { zen2Matisse with generation := .zen2CastlePeak }
  | .zen3Vermeer => some zen3Vermeer
  | .zen3Chagall => some { zen3Vermeer with generation := .zen3Chagall }
  | .zen3Cezanne => some zen3Cezanne
  | .zen3Rembrandt =>
      some { zen4Phoenix with generation := .zen3Rembrandt, getCoCmd := some 0x2F }
  | .zen3dWarhol => some zen3dWarhol
  | .zen4Raphael => some zen4Raphael
  | .zen4Phoenix => some zen4Phoenix
  | .zen4Phoenix2 =>
      some { zen4Phoenix with generation := .zen4Phoenix2, uniform8coreCcds := false }
  | .zen4DragonRange => some { zen4Raphael with generation := .zen4DragonRange }
  | .zen4StormPeak => some zen4StormPeak
  | .zen5GraniteRidge => some zen5GraniteRidge
  | .zen5StrixPoint => some zen5StrixPoint
  | .zen5StrixHalo => some { zen5StrixPoint with generation := .zen5StrixHalo }
  | .zen5ShimadaPeak => some zen5ShimadaPeak
  | .unknown => none

/-- Encode core ID and CO value into the argument of an SMU command.  Without a detected CCD
or slot the core ID's own window and place in it stand in. -/
def encodeCoArg (coreId : CoreId) (value : Int) (generation : CPUGeneration)
    (ccd slot : Option Nat) : Except String Nat :=
  match getCommands generation with
  | none => .error s!"Unsupported generation: CPUGeneration.{generation.name}"
  | some commands =>
      let margin := (value % 0x10000).toNat
      match commands.encodingScheme with
      | .zen3 | .zen4_5 =>
          let detectedCcd := ccd.getD (coreId / 8)
          let coreInCcd := slot.getD (coreId % 8)
          .ok (detectedCcd <<< 28 ||| coreInCcd <<< 20 ||| margin)
      | .none =>
          .error s!"Zen 2 ({generation.name}) does not support Curve Optimizer"

/-- Decode the CO value from an SMU response. -/
def decodeCoArg (_coreId : CoreId) (response : Nat) (generation : CPUGeneration) :
    Except String Int :=
  match getCommands generation with
  | none => .error s!"Unsupported generation: CPUGeneration.{generation.name}"
  | some commands =>
      match commands.encodingScheme with
      | .zen3 | .zen4_5 =>
          let raw := response &&& 0xFFFF
          .ok (if raw < 0x8000 then (raw : Int) else (raw : Int) - 0x10000)
      | .none => .error s!"Unsupported generation: CPUGeneration.{generation.name}"

/-- Every generation with uniform CCDs supports the Curve Optimizer. -/
theorem hasCo_of_uniform {generation : CPUGeneration} {commands : SMUCommandSet}
    (hcommands : getCommands generation = some commands)
    (huniform : commands.uniform8coreCcds = true) : commands.hasCo = true := by
  cases generation <;> cases hcommands <;> first | rfl | cases huniform

/-- Every generation that supports the Curve Optimizer has an argument layout. -/
theorem scheme_ne_none_of_hasCo {generation : CPUGeneration} {commands : SMUCommandSet}
    (hcommands : getCommands generation = some commands) (hco : commands.hasCo = true) :
    commands.encodingScheme ≠ .none := by
  intro hscheme
  cases generation <;> cases hcommands <;> first | cases hscheme; done | cases hco

/-! ## The argument as fields -/

/-- The argument of a core at a known address, its three fields side by side. -/
def coArg (ccd slot : Nat) (value : Int) : Nat :=
  ccd * 2 ^ 28 + slot * 2 ^ 20 + (value % 0x10000).toNat

theorem margin_lt (value : Int) : (value % 0x10000).toNat < 2 ^ 16 := by
  omega

/-- The fields of an argument do not overlap: packing them is adding them. -/
theorem pack_eq_coArg {ccd slot : Nat} (hslot : slot < 8) (value : Int) :
    ccd <<< 28 ||| slot <<< 20 ||| (value % 0x10000).toNat = coArg ccd slot value := by
  have hmargin := margin_lt value
  have hlow : slot <<< 20 ||| (value % 0x10000).toNat =
      slot <<< 20 + (value % 0x10000).toNat :=
    (Nat.shiftLeft_add_eq_or_of_lt (by omega) slot).symm
  have hhigh : ccd <<< 28 ||| (slot <<< 20 + (value % 0x10000).toNat) =
      ccd <<< 28 + (slot <<< 20 + (value % 0x10000).toNat) :=
    (Nat.shiftLeft_add_eq_or_of_lt (by rw [Nat.shiftLeft_eq]; omega) ccd).symm
  rw [Nat.or_assoc, hlow, hhigh, Nat.shiftLeft_eq, Nat.shiftLeft_eq, coArg, Nat.add_assoc]

/-- Where a generation has the Curve Optimizer, an addressed core's argument is its fields. -/
theorem encodeCoArg_eq {generation : CPUGeneration} {commands : SMUCommandSet}
    (hcommands : getCommands generation = some commands) (hco : commands.hasCo = true)
    (coreId : CoreId) (value : Int) (ccd : Nat) {slot : Nat} (hslot : slot < 8) :
    encodeCoArg coreId value generation (some ccd) (some slot) =
      .ok (coArg ccd slot value) := by
  have hscheme := scheme_ne_none_of_hasCo hcommands hco
  simp only [encodeCoArg, hcommands, Option.getD_some, pack_eq_coArg hslot]
  cases h : commands.encodingScheme with
  | none => exact absurd h hscheme
  | zen3 => rfl
  | zen4_5 => rfl

/-- Sixteen CCDs fit the 32-bit argument. -/
theorem coArg_lt {ccd slot : Nat} (hccd : ccd < 16) (hslot : slot < 8) (value : Int) :
    coArg ccd slot value < 2 ^ 32 := by
  have hmargin := margin_lt value
  rw [coArg]
  omega

/-- The bits above the offset determine the address, whatever the offsets are. -/
theorem coArg_high {ccd slot ccd' slot' : Nat} (hslot : slot < 8) (hslot' : slot' < 8)
    {value value' : Int}
    (heq : coArg ccd slot value / 2 ^ 16 = coArg ccd' slot' value' / 2 ^ 16) :
    ccd = ccd' ∧ slot = slot' := by
  have hmargin := margin_lt value
  have hmargin' := margin_lt value'
  rw [coArg, coArg] at heq
  constructor <;> omega

/-- The address fields leave the low sixteen bits to the offset. -/
theorem pack_low (ccd slot : Nat) (value : Int) :
    (ccd <<< 28 ||| slot <<< 20 ||| (value % 0x10000).toNat) &&& 0xFFFF =
      (value % 0x10000).toNat := by
  have hccd : ccd <<< 28 % 2 ^ 16 = 0 := by
    rw [Nat.shiftLeft_eq]
    omega
  have hslot : slot <<< 20 % 2 ^ 16 = 0 := by
    rw [Nat.shiftLeft_eq]
    omega
  rw [show 0xFFFF = 2 ^ 16 - 1 from rfl, Nat.and_two_pow_sub_one_eq_mod, Nat.or_mod_two_pow,
    Nat.or_mod_two_pow, hccd, hslot, Nat.zero_or, Nat.zero_or,
    Nat.mod_eq_of_lt (margin_lt value)]

/-- Decoding an argument returns the offset it was encoded from, as a signed 16-bit value. -/
theorem decodeCoArg_encodeCoArg {coreId : CoreId} {value : Int} {generation : CPUGeneration}
    {ccd slot : Option Nat} {arg : Nat}
    (hencode : encodeCoArg coreId value generation ccd slot = .ok arg) :
    decodeCoArg coreId arg generation = .ok (value.bmod 0x10000) := by
  have hsigned : (if (value % 0x10000).toNat < 0x8000 then ((value % 0x10000).toNat : Int)
      else ((value % 0x10000).toNat : Int) - 0x10000) = value.bmod 0x10000 := by
    rw [Int.bmod_def]
    split_ifs <;> omega
  unfold encodeCoArg at hencode
  unfold decodeCoArg
  cases hcommands : getCommands generation with
  | none => simp [hcommands] at hencode
  | some commands =>
      simp only [hcommands] at hencode ⊢
      cases hscheme : commands.encodingScheme with
      | none => simp [hscheme] at hencode
      | zen3 =>
          simp only [hscheme] at hencode
          cases hencode
          simp only [pack_low, hsigned]
      | zen4_5 =>
          simp only [hscheme] at hencode
          cases hencode
          simp only [pack_low, hsigned]

/-- A signed 16-bit value is its own two's complement reading. -/
theorem bmod_int16 {value : Int} (hlow : -0x8000 ≤ value) (hhigh : value < 0x8000) :
    value.bmod 0x10000 = value := by
  rw [Int.bmod_def]
  split_ifs <;> omega

end Smu
end CoreCycler
