import RailNode.Layout
import RailNode.Mode

/-
  The parameters of a module: read-only bytes with indices from 1 to 20. Index 0 tells how many
  there are.
-/
namespace RailNode

/-- What the builder of a module says about it. -/
structure ModuleInfo where
  manufacturer : UInt8
  moduleId : UInt8
  name : Vector UInt8 7
  major : UInt8
  /-- The letter of the minor version. -/
  minor : UInt8
  /-- The beta number, 0 for a release. -/
  beta : UInt8
  cpu : UInt8
  cpuManufacturer : UInt8
  bootable : Bool
deriving DecidableEq, Repr

/-- A module that says nothing special. -/
def ModuleInfo.standard : ModuleInfo where
  manufacturer := 13
  moduleId := 0
  name := #v[0x56, 0x4c, 0x43, 0x42, 0x4e, 0x4f, 0x44]
  major := 1
  minor := 0x61
  beta := 0
  cpu := 0
  cpuManufacturer := 0
  bootable := false

/-- The bits of the flags parameter. -/
structure ParameterFlag where
  mask : UInt8
deriving DecidableEq, Repr

namespace ParameterFlag

def consumer : ParameterFlag := ⟨0x01⟩
def producer : ParameterFlag := ⟨0x02⟩
def normal : ParameterFlag := ⟨0x04⟩
def bootable : ParameterFlag := ⟨0x08⟩
def consumesOwn : ParameterFlag := ⟨0x10⟩
def learning : ParameterFlag := ⟨0x20⟩
def protocol : ParameterFlag := ⟨0x40⟩

end ParameterFlag

/-- The parameters of a node. -/
structure Parameters where
  info : ModuleInfo
  layout : Layout
  /-- The bits that the services of the node contribute. -/
  serviceFlags : UInt8
deriving DecidableEq, Repr

namespace Parameters

/-- The number of parameters after index 0. -/
def count : Nat := 20

/-- The bus on which the node is: CAN. -/
def busInterface : UInt8 := 1

/-- The flags that never change. -/
def fixedFlags (p : Parameters) : UInt8 :=
  p.serviceFlags ||| ParameterFlag.protocol.mask |||
    (if p.info.bootable then ParameterFlag.bootable.mask else 0)

/-- The flags of a node in a mode, in learn mode or not. -/
def flags (p : Parameters) (mode : Mode) (learning : Bool) : UInt8 :=
  p.fixedFlags ||| (if mode = .normal then ParameterFlag.normal.mask else 0) |||
    (if learning then ParameterFlag.learning.mask else 0)

/-- The parameter with an index, if there is one. -/
def value? (p : Parameters) (mode : Mode) (learning : Bool) (index : Nat) : Option UInt8 :=
  match index with
  | 0 => some (UInt8.ofNat count)
  | 1 => some p.info.manufacturer
  | 2 => some p.info.minor
  | 3 => some p.info.moduleId
  | 4 => some p.layout.eventCount
  | 5 => some p.layout.eventVariableCount
  | 6 => some p.layout.nodeVariableCount
  | 7 => some p.info.major
  | 8 => some (p.flags mode learning)
  | 9 => some p.info.cpu
  | 10 => some busInterface
  | 19 => some p.info.cpuManufacturer
  | 20 => some p.info.beta
  | i => if i ≤ count then some 0 else none

end Parameters

end RailNode
