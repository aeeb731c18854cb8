import RailNode.Service.MinimumNode.Basic

/-
  The heartbeat of a node in normal mode. The next is due an interval after the last one was, but
  not before now.
-/
namespace RailNode.MinimumNode

/-- Whether the heart of a node beats. -/
def isBeating (c : Configuration) : Bool := c.mode = .normal && c.heartbeat

/-- When the heartbeat is due; the first an interval from now. -/
def nextBeat (now interval : Time) (s : MinimumNode) : Time :=
  s.heartbeatDue.getD (Time.deadline now interval)

/-- Sends a heartbeat that was due at `due`. -/
def beat (now interval due : Time) (t : Turn MinimumNode) : Turn MinimumNode :=
  let number := t.self.heartbeatNumber
  { t with
    self.heartbeatNumber := number + 1
    self.heartbeatDue := some (max (Time.deadline due interval) now) }
    |>.reply .heartb [number, 0, 0]

/-- Sends the heartbeat when it is due. -/
def pollHeartbeat (now interval : Time) (t : Turn MinimumNode) : Turn MinimumNode :=
  if isBeating t.config then
    let due := nextBeat now interval t.self
    if now < due then { t with self.heartbeatDue := some due } else beat now interval due t
  else { t with self.heartbeatDue := none }

end RailNode.MinimumNode
