import RailNode.Service.Teaching.Learning
import RailNode.Service.Teaching.Reading

/-
  The service that teaches events. Learn mode gates the commands that name no node (EVLRN, EVULN,
  REQEV) and the clearing of the table; the other reads work in any mode.
-/
namespace RailNode.Teaching

/-- The messages that name this node. -/
def handleNamed (c : Cycle) (m : Message) (o : Opcode) (t : Turn Teaching) : Turn Teaching :=
  match o with
  | .nnuln => t.configure (·.setLearning false)
  | .mode => obeyMode m t
  | .nnclr => clear t
  | .nnevn => t.reply .evnlf [UInt8.ofNat t.config.freeCount]
  | .rqevn => t.reply .numev [UInt8.ofNat t.config.storedCount]
  | .nerd => startListing c.now .events 0 t.config.layout.slots t
  | .nenrd => answerEvent m t
  | .reval => answerSlotVariable c m t
  | _ => t

def handle (c : Cycle) (m : Message) (t : Turn Teaching) : Except Halt (Turn Teaching) :=
  match m.opcode? with
  | none => .ok t
  | some .nnlrn => .ok (yieldLearning m t)
  | some .evlrn => if t.config.learning then learn m t else .ok t
  | some .evuln => if t.config.learning then unlearn m t else .ok t
  | some .reqev => .ok (if t.config.learning then answerVariable c m t else t)
  | some o => .ok (if t.isNamedBy m then handleNamed c m o t else t)

def turn (c : Cycle) (t : Turn Teaching) : Except Halt (Turn Teaching) :=
  match c.received? with
  | some m => (handle c m t).map (pollListing c)
  | none => .ok (pollListing c t)

def diagnosticCount : Nat := 3

def diagnostic? (config : Configuration) (s : Teaching) (code : Nat) : Option UInt16 :=
  match code with
  | 1 => some (UInt16.ofNat config.storedCount)
  | 2 => some (UInt16.ofNat config.freeCount)
  | 3 => some s.learned
  | _ => none

end RailNode.Teaching
