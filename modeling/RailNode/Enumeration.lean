import RailNode.Address
import RailNode.Time

/-
  How a node finds itself a bus address. It asks every node for an answer; each address that
  answers within a window is taken, and the node claims the lowest that is not.
-/
namespace RailNode

/-- A search for an address. -/
structure AddressSearch where
  started : Time
  /-- The addresses that have answered, the latest first. -/
  taken : List BusAddress
  /-- Whether another node asked for the search. -/
  forPeer : Bool
deriving DecidableEq, Repr

/-- The address that a search has found. -/
structure AddressClaim where
  address : BusAddress
  forPeer : Bool
deriving DecidableEq, Repr

/-- The search that is going on, if any, and whether another one is to follow. -/
structure Enumeration where
  search : Option AddressSearch := none
  required : Bool := false
deriving DecidableEq, Repr

namespace Enumeration

/-- The addresses that a node may claim, in ascending order. -/
def assignable : List BusAddress := (List.finRange 128).filter BusAddress.isAssignable

/-- The lowest assignable address that is not taken; the very lowest if all are. -/
def lowestFree (taken : List BusAddress) : BusAddress :=
  (assignable.find? fun a => !taken.contains a).getD .firstAssignable

def isActive (e : Enumeration) : Bool := e.search.isSome

/-- Starts a search, unless one is going on. -/
def start? (now : Time) (forPeer : Bool) (e : Enumeration) : Option Enumeration :=
  match e.search with
  | some _ => none
  | none => some { e with search := some { started := now, taken := [], forPeer } }

/-- Notes that the owner of an address has answered. Address 0 has no owner. -/
def note (a : BusAddress) (e : Enumeration) : Enumeration :=
  if a.isAssigned then
    { e with search := e.search.map fun s => { s with taken := a :: s.taken } }
  else e

/-- Ends the search once its window is over. -/
def finish? (now window : Time) (e : Enumeration) : Option (AddressClaim × Enumeration) :=
  match e.search with
  | none => none
  | some s =>
    if Time.elapsed now s.started < window then none
    else some (⟨lowestFree s.taken, s.forPeer⟩, { e with search := none })

/-- Asks for a search in the next cycle. -/
def require (e : Enumeration) : Enumeration := { e with required := true }

end Enumeration

end RailNode
