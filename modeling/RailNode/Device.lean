import RailNode.Node

/-
  A device: a store and a link that outlive restarts, and a node that runs over them between two.
-/
namespace RailNode

/-- How the node of a device is put together at each start. -/
structure Build where
  layout : Layout
  info : ModuleInfo
  timing : Timing
  services : List Service

inductive Device where
  /-- No node runs. -/
  | idle (store : Store) (link : Link)
  | running (node : Node)

/-- What came of a start. -/
inductive BootResult where
  | started (services : List ServiceInfo)
  /-- The store was virgin, and the device has restarted. -/
  | restarted
  | layoutError (e : LayoutError)
  | tooManyServices
deriving DecidableEq, Repr

namespace Device

def store : Device → Store
  | idle store _ => store
  | running n => n.config.store

def link : Device → Link
  | idle _ link => link
  | running n => n.link

def node? : Device → Option Node
  | idle _ _ => none
  | running n => some n

def setLink (link : Link) : Device → Device
  | idle store _ => idle store link
  | running n => running { n with link }

/-- What is left of a device when it restarts. -/
def left (config : Configuration) (link : Link) : Device := idle config.store link

/-- Starts a node that is put together: it reads its configuration and drops what is in the link.
    A virgin store is reset instead, and the device restarts. -/
def start (n : Node) : Device × BootResult :=
  match n.config.start with
  | .restart config => (left config n.link, .restarted)
  | .ready config =>
    (running { n with config, link := n.link.reset, indication := { mode := config.mode } },
      .started n.services)

/-- Starts a device anew, after a factory reset of its store if `format` says so. -/
def boot (b : Build) (format : Bool) (d : Device) : Device × BootResult :=
  match Configuration.ofStore b.layout d.store with
  | .error e => (idle d.store d.link, .layoutError e)
  | .ok config =>
    let config := if format then config.factoryReset else config
    match Node.assemble? config d.link b.info b.timing b.services with
    | none => (left config d.link, .tooManyServices)
    | some n => start n

/-- The driver hands a received frame in; `none` if there is no room. -/
def deliver? (f : Frame) (d : Device) : Option Device := (d.link.deliver? f).map d.setLink

/-- The driver takes every frame that waits for transmission. -/
def collect (d : Device) : List Frame × Device :=
  (d.link.outgoing.items, d.setLink { d.link with outgoing := d.link.outgoing.clear })

/-- A cycle of a running node. On a restart the node is gone; `none` stands for a fault. -/
def cycle? (now : Time) (n : Node) : Option Device :=
  match n.cycle now with
  | .ok outcome => some (running outcome.node)
  | .error (.restart shared _) => some (left shared.config shared.link)
  | .error .fault => none

/-- Resets the store of a running node to its factory state and restarts. -/
def factoryRestart (n : Node) : Device := left n.config.factoryReset n.link

end Device

end RailNode
