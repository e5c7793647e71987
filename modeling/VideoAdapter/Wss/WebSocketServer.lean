import Std.Data.ExtTreeMap
import Mathlib.Data.List.Basic

namespace VideoAdapter.Wss

-- The members of the JSON object that is sent to a viewer.
structure Reply where
  code : Int
  result : Option String := none
  token : Option String := none
  num : Option Nat := none
deriving DecidableEq, Repr

structure Connection where
  socketid : Int
  buffer : List Reply := []
  keyValueMap : Std.ExtTreeMap String String := ∅
  timestamp : UInt64 := 0

-- An absent name reads as the empty string.
def Connection.value (c : Connection) (name : String) : String := c.keyValueMap[name]?.getD ""

def Connection.setValue (c : Connection) (name value : String) : Connection :=
  { c with keyValueMap := c.keyValueMap.insert name value }

-- `map<int,Connection*>`: `none` as a value is a null pointer, which the writable
-- callback stores for a socket that has no entry.
abbrev Connections := Std.ExtTreeMap Int (Option Connection)

namespace Connections

-- `find`, then a write through the pointer found. Without an entry nothing happens;
-- with a null entry the process ends.
def update (connections : Connections) (socketID : Int) (f : Connection → Connection) :
    Option Connections :=
  match connections[socketID]? with
  | none => some connections
  | some none => none
  | some (some c) => some (connections.insert socketID (some (f c)))

def send (connections : Connections) (socketID : Int) (data : Reply) : Option Connections :=
  connections.update socketID fun c => { c with buffer := c.buffer ++ [data] }

def setValue (connections : Connections) (socketID : Int) (name value : String) :
    Option Connections :=
  connections.update socketID fun c => c.setValue name value

def updateTimestamp (connections : Connections) (socketID : Int) (timestamp : UInt64) :
    Option Connections :=
  connections.update socketID fun c => { c with timestamp }

def getValue (connections : Connections) (socketID : Int) (name : String) : Option String :=
  match connections[socketID]? with
  | none => some ""
  | some none => none
  | some (some c) => some (c.value name)

def removeConnection (connections : Connections) (socketID : Int) : Connections :=
  connections.erase socketID

-- Whether a message to the socket is put into a buffer.
def registered (connections : Connections) (socketID : Int) : Bool :=
  match connections[socketID]? with
  | some (some _) => true
  | _ => false

-- The room id kept for a registered socket.
def roomid (connections : Connections) (socketID : Int) : Option String :=
  match connections[socketID]? with
  | some (some c) => some (c.value "roomid")
  | _ => none

end Connections

end VideoAdapter.Wss
