import Mathlib
import JaspyNexus.Routes.Connections
import JaspyNexus.Routes.Devices

/-! # The cached topology

`cached_topology_data` of `routes/dev/weathermap.rs` among the operations that change
devices, interfaces or links. The lock of the cache controller is held by an operation
that invalidates; the lock of the cached topology is held by whoever looks at it, and by
a rebuild from its look to its end. A thread that comes to a lock that is held waits. -/

namespace JaspyNexus.Routes.Weathermap
open JaspyNexus.Lib JaspyNexus.Models

/-! ## The topology -/

structure ConnectedTo where
  fqdn : String
  interface : String
  deriving DecidableEq, Repr

structure WeathermapDeviceInterface where
  name : String
  ifIndex : Int
  connectedTo : Option ConnectedTo
  deriving DecidableEq, Repr

structure WeathermapDevice where
  fqdn : String
  interfaces : PMap String WeathermapDeviceInterface

/-- `WeathermapBase`, by the fqdn of each device. -/
abbrev WeathermapBase := PMap String WeathermapDevice

/-- The queries of `get_topology_data`. -/
inductive Query : Type → Type where
  | allDevices : Query (List Device)
  | interfacesOf (deviceId : Int) : Query (List Interface)
  | interfaceById (id : Int) : Query (Option Interface)
  | deviceById (id : Int) : Query (Option Device)

def Query.exec : {β : Type} → Query β → Answer → Store → β
  | _, .allDevices, answer, store => Store.select Device.id answer store.devices
  | _, .interfacesOf deviceId, answer, store =>
    Store.select Interface.id answer (store.interfaces.filter fun row => row.deviceId = deviceId)
  | _, .interfaceById id, answer, store => Store.first answer store.interfaces fun row => row.id = id
  | _, .deviceById id, answer, store => Store.first answer store.devices fun row => row.id = id

/-- Where an interface is connected to. The device of the peer is unwrapped: without it,
the rebuild panics. -/
def connectedTo (interface : Interface) : Prog Query (Option (Option ConnectedTo)) :=
  match interface.virtualConnection.or interface.connectedInterface with
  | none => .done (some none)
  | some id =>
    (Prog.lift (.interfaceById id)).bind fun
      | none => .done (some none)
      | some peerInterface =>
        (Prog.lift (.deviceById peerInterface.deviceId)).bind fun
          | none => .done none
          | some peerDevice => .done (some (some ⟨peerDevice.fqdn, peerInterface.shownName⟩))

def addInterfaces (device : WeathermapDevice) : List Interface → Prog Query (Option WeathermapDevice)
  | [] => .done (some device)
  | interface :: rest =>
    (connectedTo interface).bind fun
      | none => .done none
      | some connected =>
        addInterfaces
          { device with
            interfaces := device.interfaces.insert interface.shownName
              ⟨interface.shownName, interface.index, connected⟩ } rest

def addDevices (wmap : WeathermapBase) : List Device → Prog Query (Option WeathermapBase)
  | [] => .done (some wmap)
  | device :: rest =>
    (Prog.lift (.interfacesOf device.id)).bind fun interfaces =>
    (addInterfaces ⟨device.fqdn, PMap.empty⟩ interfaces).bind fun
      | none => .done none
      | some added => addDevices (wmap.insert device.fqdn added) rest

/-- `get_topology_data`. -/
def getTopologyData : Prog Query (Option WeathermapBase) :=
  (Prog.lift .allDevices).bind (addDevices PMap.empty)

/-! ## Operations -/

inductive Operation where
  | ingestDevice (discovered : Utilities.Discovery.DiscoveredDevice)
  | ingestLinks (links : Utilities.Discovery.LinkInfo)
  | clearDeviceConnection (deviceFqdn : String)
  | create (new : NewDevice)
  | deviceCreate (submitted : NewDevice)
  | deviceDelete (deviceFqdn : String)

def Operation.prog : Operation → Prog Call Unit
  | .ingestDevice discovered => Utilities.Discovery.ingestDevice discovered
  | .ingestLinks links => Utilities.Discovery.ingestLinks links
  | .clearDeviceConnection deviceFqdn => Connections.clearDeviceConnection deviceFqdn
  | .create new => (Routes.create new).bind fun _ => .done ()
  | .deviceCreate submitted => (Routes.deviceCreate submitted).bind fun _ => .done ()
  | .deviceDelete deviceFqdn => (Routes.deviceDelete deviceFqdn).bind fun _ => .done ()

/-- The statement has written a device or an interface. -/
def wrote : {β : Type} → Call β → β → Bool
  | _, .createDevice _, created => created.isSome
  | _, .updateDevice _, ok => ok
  | _, .deleteDevice _, ok => ok
  | _, .createInterface _, ok => ok
  | _, .updateInterface _ _, ok => ok
  | _, .deleteInterface _, ok => ok
  | _, _, _ => false

/-! ## Threads -/

/-- What is logged: nothing else of a step matters to the order of reads and writes. -/
inductive Event where
  | other
  /-- an operation returns, its last write at that time -/
  | returned (op : Operation) (written : Option Nat)
  /-- a read returns, started at that time: a topology read from `readAt` on, or the empty
  one when the lock is poisoned -/
  | served (readAt : Option Nat) (startedAt : Nat)

/-- `CachedWeathermapTopology`, and when it was read. -/
structure Cached where
  validUntil : Nat
  topology : WeathermapBase
  readAt : Nat

/-- Where a read is. -/
inductive Reading where
  | start
  /-- it has the cached topology's lock to take -/
  | lock (startedAt : Nat)
  /-- it holds the lock, and has asked the database from `readAt` on -/
  | build (startedAt : Nat) (readAt : Option Nat) (rest : Prog Query (Option WeathermapBase))
  | done

/-- Where an operation is, with the time of its last write, and whether it has
invalidated the cache since. -/
inductive Writing where
  | run (written : Option Nat) (covered : Bool) (rest : Prog Call Unit)
  /-- it holds the controller's lock, and has the cached topology's to take -/
  | invalidate (written : Option Nat) (rest : Prog Call Unit)
  | done

inductive Thread where
  | read (reading : Reading)
  | write (op : Operation) (writing : Writing)

structure System where
  store : Store
  cached : Option Cached
  /-- the thread that holds the controller's lock -/
  controllerLock : Option Nat
  /-- the thread that holds the cached topology's lock -/
  cacheLock : Option Nat
  /-- a thread has panicked while it held the cached topology's lock -/
  poisoned : Bool
  log : List Event
  threads : Nat → Thread

/-- What a step meets: how a statement is answered, and the time. -/
structure Turn where
  thread : Nat
  answer : Answer
  time : Nat

namespace System
variable (sys : System)

/-- A thread goes on, and an event is logged. -/
def goOn (i : Nat) (thread : Thread) (event : Event) : System :=
  { sys with threads := Function.update sys.threads i thread, log := sys.log ++ [event] }

/-- One step of a read. -/
def readStep (i : Nat) (turn : Turn) : Reading → System
  | .start =>
    if sys.controllerLock.isSome then sys else sys.goOn i (.read (.lock sys.log.length)) .other
  | .lock startedAt =>
    if sys.cacheLock.isSome then sys
    else if sys.poisoned then sys.goOn i (.read .done) (.served none startedAt)
    else match sys.cached.filter fun cached => turn.time < cached.validUntil with
      | some cached => sys.goOn i (.read .done) (.served (some cached.readAt) startedAt)
      | none =>
        ({ sys with cacheLock := some i }).goOn i (.read (.build startedAt none getTopologyData)) .other
  | .build startedAt readAt (.call query next) =>
    sys.goOn i (.read (.build startedAt (readAt.or (some sys.log.length)) (next (query.exec turn.answer sys.store))))
      .other
  | .build startedAt readAt (.done (some topology)) =>
    ({ sys with
      cached := some ⟨turn.time + 30, topology, readAt.getD sys.log.length⟩
      cacheLock := none }).goOn i (.read .done) (.served readAt startedAt)
  | .build _ _ (.done none) =>
    ({ sys with cacheLock := none, poisoned := true }).goOn i (.read .done) .other
  | .done => sys

/-- A statement of an operation, or the lock that an invalidation takes first. -/
def callStep (i : Nat) (turn : Turn) (op : Operation) (written : Option Nat) (covered : Bool) :
    {β : Type} → Call β → (β → Prog Call Unit) → System
  | _, .invalidateWeathermap, next =>
    if sys.controllerLock.isSome then sys
    else ({ sys with controllerLock := some i }).goOn i (.write op (.invalidate written (next ()))) .other
  | _, call, next =>
    let out := Call.exec _ call turn.answer sys.store
    let writing :=
      if wrote call out.2 then Writing.run (some sys.log.length) false (next out.2)
      else .run written covered (next out.2)
    ({ sys with store := out.1 }).goOn i (.write op writing) .other

/-- One step of an operation. -/
def writeStep (i : Nat) (turn : Turn) (op : Operation) : Writing → System
  | .run written covered (.call call next) => sys.callStep i turn op written covered call next
  | .run written _ (.done _) => sys.goOn i (.write op .done) (.returned op written)
  | .invalidate written rest =>
    if sys.cacheLock.isSome then sys
    else
      ({ sys with
        cached := if sys.poisoned then sys.cached else sys.cached.map fun (cached : Cached) => { cached with validUntil := 0 }
        controllerLock := none }).goOn i (.write op (.run written true rest)) .other
  | .done => sys

def step (turn : Turn) : System :=
  match sys.threads turn.thread with
  | .read reading => sys.readStep turn.thread turn reading
  | .write op writing => sys.writeStep turn.thread turn op writing

end System

/-- What a thread is to do. -/
inductive Task where
  | read
  | operate (op : Operation)

/-- The process has just started, and has its tasks to do. -/
def System.started (store : Store) (tasks : Nat → Task) : System where
  store := store
  cached := none
  controllerLock := none
  cacheLock := none
  poisoned := false
  log := []
  threads i := match tasks i with
    | .read => .read .start
    | .operate op => .write op (.run none false op.prog)

end JaspyNexus.Routes.Weathermap
