/-
  How a node answers a command: which of its services speaks, and with what result.
-/
namespace RailNode

/-- The identifier of a service, as discovery reports it. -/
structure ServiceId where
  byte : UInt8
deriving DecidableEq, Repr

namespace ServiceId

def minimumNode : ServiceId := ⟨1⟩
def nodeVariables : ServiceId := ⟨2⟩
def busAccess : ServiceId := ⟨3⟩
def teaching : ServiceId := ⟨4⟩
def producer : ServiceId := ⟨5⟩
def consumer : ServiceId := ⟨6⟩
def acknowledge : ServiceId := ⟨9⟩
def longMessage : ServiceId := ⟨17⟩

end ServiceId

/-- Why a command was refused, the argument of CMDERR. -/
inductive CommandError where
  | invalidCommand
  | notInLearnMode
  | notInSetupMode
  | tooManyEvents
  | noEvent
  | invalidEventVariableIndex
  | invalidEvent
  | invalidEventIndex
  | invalidParameterIndex
  | invalidNodeVariableIndex
  | invalidEventVariableValue
  | invalidNodeVariableValue
deriving DecidableEq, Repr

def CommandError.byte : CommandError → UInt8
  | invalidCommand => 1
  | notInLearnMode => 2
  | notInSetupMode => 3
  | tooManyEvents => 4
  | noEvent => 5
  | invalidEventVariableIndex => 6
  | invalidEvent => 7
  | invalidEventIndex => 8
  | invalidParameterIndex => 9
  | invalidNodeVariableIndex => 10
  | invalidEventVariableValue => 11
  | invalidNodeVariableValue => 12

/-- The result that a general response, GRSP, carries. -/
structure ResponseCode where
  byte : UInt8
deriving DecidableEq, Repr

namespace ResponseCode

def ok : ResponseCode := ⟨0⟩
def invalidMode : ResponseCode := ⟨0xfa⟩
def invalidParameter : ResponseCode := ⟨0xfb⟩
def invalidService : ResponseCode := ⟨0xfc⟩
def invalidDiagnostic : ResponseCode := ⟨0xfd⟩
def unknownMemoryType : ResponseCode := ⟨0xfe⟩

/-- A refused command is reported with the number of its error. -/
def ofError (e : CommandError) : ResponseCode := ⟨e.byte⟩

def isOk (r : ResponseCode) : Bool := r == ok

theorem isOk_ofError (e : CommandError) : (ofError e).isOk = false := by
  cases e <;> decide

end ResponseCode

end RailNode
