import RailNode.Configuration.Basic

/-
  The identity of a node: mode, node number, bus address and flags. A setter changes the copy and
  the store together.
-/
namespace RailNode.Configuration

def setMode (mode : Mode) (c : Configuration) : Configuration :=
  { c with mode }.write modeAddress mode.byte

def setNodeNumber (number : UInt16) (c : Configuration) : Configuration :=
  { c with nodeNumber := number }.writeBytes nodeNumberAddress (Word.bytes number)

def setAddress (address : BusAddress) (c : Configuration) : Configuration :=
  { c with address }.write busAddressAddress address.byte

def setFlags (flags : UInt8) (c : Configuration) : Configuration :=
  { c with flags }.write flagsAddress flags

/-- Turns one flag on or off. -/
def setFlag (flag : UInt8) (on : Bool) (c : Configuration) : Configuration :=
  c.setFlags (if on then c.flags ||| flag else c.flags &&& ~~~flag)

def heartbeat (c : Configuration) : Bool := c.flags &&& heartbeatFlag != 0

def setHeartbeat (on : Bool) (c : Configuration) : Configuration := c.setFlag heartbeatFlag on

def acknowledge (c : Configuration) : Bool := c.flags &&& acknowledgeFlag != 0

def setAcknowledge (on : Bool) (c : Configuration) : Configuration := c.setFlag acknowledgeFlag on

def setLearning (on : Bool) (c : Configuration) : Configuration := { c with learning := on }

/-- Whether the store has been reset since the marker was last cleared. -/
def resetMarked (c : Configuration) : Bool := c.store.read resetMarkerAddress == resetPerformed

def clearResetMarker (c : Configuration) : Configuration := c.write resetMarkerAddress 0

end RailNode.Configuration
