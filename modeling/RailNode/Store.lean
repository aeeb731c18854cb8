/-
  The byte store that outlives a restart. It moves several bytes as one block or one by one;
  inside the store both ways do the same. A read outside the store finds an erased byte and a
  write there is lost; `Layout.error?` keeps every access of a node inside.
-/
namespace RailNode

/-- How a store moves several bytes. -/
inductive Transfer where
  | block
  | bytewise
deriving DecidableEq, Repr

/-- A store of bytes, addressed from 0. -/
structure Store where
  bytes : Array UInt8
  transfer : Transfer
deriving DecidableEq, Repr

namespace Store

/-- The value of an erased byte. -/
def erased : UInt8 := 0xff

/-- A store as it leaves the factory. -/
def blank (capacity : Nat) (transfer : Transfer) : Store :=
  ⟨Array.replicate capacity erased, transfer⟩

def capacity (s : Store) : Nat := s.bytes.size

def read (s : Store) (address : Nat) : UInt8 := s.bytes.getD address erased

def write (s : Store) (address : Nat) (value : UInt8) : Store :=
  { s with bytes := s.bytes.setIfInBounds address value }

/-- Writes bytes one by one. -/
def writeEach (s : Store) (address : Nat) : List UInt8 → Store
  | [] => s
  | value :: rest => (s.write address value).writeEach (address + 1) rest

/-- Writes bytes as one block. -/
def writeBlock (s : Store) (address : Nat) (values : List UInt8) : Store :=
  { s with
    bytes := s.bytes.mapIdx fun i b =>
      if i < address then b else values.getD (i - address) b }

/-- The bytes from `address` on, `n` of them. -/
def readBytes (s : Store) (address n : Nat) : List UInt8 :=
  match s.transfer with
  | .block => (s.bytes.extract address (address + n)).toList
  | .bytewise => (List.range n).map fun i => s.read (address + i)

def writeBytes (s : Store) (address : Nat) (values : List UInt8) : Store :=
  match s.transfer with
  | .block => s.writeBlock address values
  | .bytewise => s.writeEach address values

/-- Erases the whole store. -/
def erase (s : Store) : Store := { s with bytes := Array.replicate s.bytes.size erased }

@[simp]
theorem capacity_blank (capacity : Nat) (transfer : Transfer) :
    (blank capacity transfer).capacity = capacity := by
  simp [blank, Store.capacity]

@[simp]
theorem capacity_write (s : Store) (address : Nat) (value : UInt8) :
    (s.write address value).capacity = s.capacity := by
  simp [write, capacity]

@[simp]
theorem capacity_writeEach (s : Store) (address : Nat) (values : List UInt8) :
    (s.writeEach address values).capacity = s.capacity := by
  induction values generalizing s address with
  | nil => rfl
  | cons value rest ih => rw [writeEach, ih, capacity_write]

@[simp]
theorem capacity_writeBytes (s : Store) (address : Nat) (values : List UInt8) :
    (s.writeBytes address values).capacity = s.capacity := by
  cases h : s.transfer with
  | block => simp [writeBytes, h, writeBlock, capacity]
  | bytewise => simp only [writeBytes, h, capacity_writeEach]

@[simp]
theorem capacity_erase (s : Store) : s.erase.capacity = s.capacity := by
  simp [erase, capacity]

end Store

end RailNode
