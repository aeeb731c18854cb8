import RailNode.Proofs.Checked.Basic
import RailNode.Proofs.Configuration.Parts

/-
  The configuration under bounds: every access to the store must stay inside it. That a layout
  fits its store (`layout_fits`) is part of every configuration, and each bound follows from it.
-/
namespace RailNode.Checked.Configuration

open RailNode.Configuration

variable {c : Configuration} {a n : Nat}

/-! ## Access to the store -/

/-- The greatest address. An address is counted in words of 32 bits, or of more if the size of the
    store takes more. -/
def addressLimit (c : Configuration) : Nat := max sizeLimit c.store.capacity

/-- Reaches the bytes from `address` on, `n` of them, as the store moves them. -/
def reach (address n : Nat) (c : Configuration) : Except Halt Unit :=
  match c.store.transfer with
  | .block => do
    let stop ← add (addressLimit c) address n
    ensure (stop ≤ c.store.capacity)
  | .bytewise =>
    (List.range n).forM fun i => do
      let a ← add (addressLimit c) address i
      ensure (a < c.store.capacity)

def read (address : Nat) (c : Configuration) : Except Halt UInt8 := do
  ensure (address < c.store.capacity)
  return c.store.read address

def write (address : Nat) (value : UInt8) (c : Configuration) : Except Halt Configuration := do
  ensure (address < c.store.capacity)
  return c.write address value

def readBytes (address n : Nat) (c : Configuration) : Except Halt (List UInt8) := do
  reach address n c
  return c.store.readBytes address n

def writeBytes (address : Nat) (values : List UInt8) (c : Configuration) :
    Except Halt Configuration := do
  reach address values.length c
  return c.writeBytes address values

def readWord (address : Nat) (c : Configuration) : Except Halt UInt16 := do
  let bytes ← readBytes address 2 c
  return Word.ofBytes bytes

theorem le_addressLimit (h : a ≤ c.store.capacity) : a ≤ addressLimit c :=
  Nat.le_trans h (Nat.le_max_right _ _)

theorem reach_eq (h : a + n ≤ c.store.capacity) : reach a n c = .ok () := by
  unfold reach
  split
  · rw [add_eq (le_addressLimit h), ok_bind, ensure_eq h]
  · refine forM_eq_ok fun i hi => ?_
    have hlt : a + i < c.store.capacity := by
      have := List.mem_range.1 hi
      omega
    rw [add_eq (le_addressLimit (Nat.le_of_lt hlt)), ok_bind, ensure_eq hlt]

theorem read_eq (h : a < c.store.capacity) : read a c = .ok (c.store.read a) := by
  rw [read, ensure_eq h]
  rfl

theorem write_eq (v : UInt8) (h : a < c.store.capacity) : write a v c = .ok (c.write a v) := by
  rw [write, ensure_eq h]
  rfl

theorem readBytes_eq (h : a + n ≤ c.store.capacity) :
    readBytes a n c = .ok (c.store.readBytes a n) := by
  rw [readBytes, reach_eq h]
  rfl

theorem writeBytes_eq {vs : List UInt8} (h : a + vs.length ≤ c.store.capacity) :
    writeBytes a vs c = .ok (c.writeBytes a vs) := by
  rw [writeBytes, reach_eq h]
  rfl

theorem readWord_eq (h : a + 2 ≤ c.store.capacity) : readWord a c = .ok (c.readWord a) := by
  rw [readWord, readBytes_eq h]
  rfl

/-! ## The identity -/

def setMode (mode : Mode) (c : Configuration) : Except Halt Configuration :=
  write modeAddress mode.byte { c with mode }

def setNodeNumber (number : UInt16) (c : Configuration) : Except Halt Configuration :=
  writeBytes nodeNumberAddress (Word.bytes number) { c with nodeNumber := number }

def setAddress (address : BusAddress) (c : Configuration) : Except Halt Configuration :=
  write busAddressAddress address.byte { c with address }

def setFlags (flags : UInt8) (c : Configuration) : Except Halt Configuration :=
  write flagsAddress flags { c with flags }

def setFlag (flag : UInt8) (on : Bool) (c : Configuration) : Except Halt Configuration :=
  setFlags (if on then c.flags ||| flag else c.flags &&& ~~~flag) c

@[simp]
theorem setMode_eq (mode : Mode) (c : Configuration) : setMode mode c = .ok (c.setMode mode) :=
  write_eq _ (c.identity_lt_capacity (by decide))

@[simp]
theorem setNodeNumber_eq (number : UInt16) (c : Configuration) :
    setNodeNumber number c = .ok (c.setNodeNumber number) :=
  writeBytes_eq (c.identity_lt_capacity (a := 3) (by decide))

@[simp]
theorem setAddress_eq (address : BusAddress) (c : Configuration) :
    setAddress address c = .ok (c.setAddress address) :=
  write_eq _ (c.identity_lt_capacity (by decide))

@[simp]
theorem setFlags_eq (flags : UInt8) (c : Configuration) :
    setFlags flags c = .ok (c.setFlags flags) :=
  write_eq _ (c.identity_lt_capacity (by decide))

@[simp]
theorem setFlag_eq (flag : UInt8) (on : Bool) (c : Configuration) :
    setFlag flag on c = .ok (c.setFlag flag on) :=
  setFlags_eq _ c

/-! ## The node variables -/

/-- The address of a node variable that there must be. -/
def nodeVariableAddress (index : Nat) (c : Configuration) : Except Halt Nat := do
  ensure (1 ≤ index ∧ index ≤ c.layout.nodeVariables)
  let next ← add (addressLimit c) c.layout.nodeVariableStart index
  sub next 1

def nodeVariable (index : Nat) (c : Configuration) : Except Halt UInt8 := do
  let address ← nodeVariableAddress index c
  read address c

def setNodeVariable (index : Nat) (value : UInt8) (c : Configuration) :
    Except Halt Configuration := do
  let address ← nodeVariableAddress index c
  write address value c

def clearNodeVariables (c : Configuration) : Except Halt Configuration :=
  (List.range' 1 c.layout.nodeVariables).foldlM (fun d index => setNodeVariable index 0 d) c

variable {index : Nat}

theorem nodeVariableAddress_eq (h : 1 ≤ index ∧ index ≤ c.layout.nodeVariables) :
    nodeVariableAddress index c = .ok (c.layout.nodeVariableAddress index) := by
  have hend : c.layout.nodeVariableStart + index ≤ c.store.capacity := by
    have := c.layout_fits.nodeVariableEnd_le
    unfold Layout.nodeVariableEnd at this
    omega
  rw [nodeVariableAddress, ensure_eq h, ok_bind, add_eq (le_addressLimit hend), ok_bind,
    sub_eq (by omega)]
  rfl

theorem nodeVariableAddress_lt (h : 1 ≤ index ∧ index ≤ c.layout.nodeVariables) :
    c.layout.nodeVariableAddress index < c.store.capacity :=
  c.layout_fits.lt_capacity_of_inNodeVariables (Layout.inNodeVariables_address h.1 h.2)

/-- The machine reads the node variables that there are, and no other. -/
theorem nodeVariable_eq (index : Nat) (c : Configuration) :
    nodeVariable index c = trust (c.nodeVariable? index) := by
  unfold nodeVariable nodeVariable? nodeVariableAddress?
  split_ifs with h
  · rw [nodeVariableAddress_eq h, ok_bind, read_eq (nodeVariableAddress_lt h)]
    rfl
  · rw [nodeVariableAddress, ensure, if_neg h]
    rfl

theorem setNodeVariable_eq (value : UInt8) (h : 1 ≤ index ∧ index ≤ c.layout.nodeVariables) :
    setNodeVariable index value c = .ok (c.write (c.layout.nodeVariableAddress index) value) := by
  rw [setNodeVariable, nodeVariableAddress_eq h, ok_bind, write_eq _ (nodeVariableAddress_lt h)]

@[simp]
theorem clearNodeVariables_eq (c : Configuration) :
    clearNodeVariables c = .ok c.clearNodeVariables := by
  refine foldlM_eq_ok (P := fun d => d.layout = c.layout) (fun {d} hd index hindex => ?_) rfl
  have h : 1 ≤ index ∧ index ≤ d.layout.nodeVariables := by
    have := List.mem_range'_1.1 hindex
    rw [hd]
    omega
  rw [setNodeVariable_eq 0 h, hd]
  exact ⟨rfl, hd⟩

end RailNode.Checked.Configuration
