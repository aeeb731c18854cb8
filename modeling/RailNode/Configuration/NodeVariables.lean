import RailNode.Configuration.Basic

/-
  The node variables, one byte each, with indices from 1 to their number.
-/
namespace RailNode.Configuration

/-- The address of the node variable with an index, if there is one. -/
def nodeVariableAddress? (c : Configuration) (index : Nat) : Option Nat :=
  if 1 ≤ index ∧ index ≤ c.layout.nodeVariables then some (c.layout.nodeVariableAddress index)
  else none

def nodeVariable? (c : Configuration) (index : Nat) : Option UInt8 :=
  (c.nodeVariableAddress? index).map c.store.read

def setNodeVariable? (index : Nat) (value : UInt8) (c : Configuration) : Option Configuration :=
  (c.nodeVariableAddress? index).map fun address => c.write address value

/-- Sets every node variable to 0. -/
def clearNodeVariables (c : Configuration) : Configuration :=
  (List.range' 1 c.layout.nodeVariables).foldl
    (fun d index => d.write (c.layout.nodeVariableAddress index) 0) c

end RailNode.Configuration
