import Mathlib.Data.List.Basic
import Mathlib.Data.Rat.Defs

namespace VideoAdapter.Wss

namespace Json

-- A parsed value. A double stands as the rational number it is.
inductive Value where
  | null
  | int (n : Int)
  | uint (n : Nat)
  | real (x : Rat)
  | string (s : String)
  | boolean (b : Bool)
  | array (items : List Value)
  | object (members : List (String × Value))

namespace Value

-- `operator[](const char*)`: a null value reads as an empty object, a missing member
-- as null, and any other type fails an assertion, which ends the process.
def member (value : Value) (name : String) : Option Value :=
  match value with
  | null => some null
  | object members => some ((members.lookup name).getD null)
  | _ => none

def minInt : Int := -2147483648

def maxInt : Int := 2147483647

def inIntRange (n : Int) : Option Int := if minInt ≤ n ∧ n ≤ maxInt then some n else none

-- No result stands for the exception the function throws.
def asInt : Value → Option Int
  | null => some 0
  | int n => inIntRange n
  | uint n => inIntRange n
  | real x => if (minInt : Rat) ≤ x ∧ x ≤ (maxInt : Rat) then some (x.num.tdiv x.den) else none
  | boolean b => some (if b then 1 else 0)
  | string _ => none
  | array _ => none
  | object _ => none

def asString : Value → Option String
  | null => some ""
  | string s => some s
  | boolean b => some (if b then "true" else "false")
  | int _ => none
  | uint _ => none
  | real _ => none
  | array _ => none
  | object _ => none

end Value

end Json

-- What `handle_request` makes of the parser's outcome.
inductive Request where
  | abort
  | reject
  | fields (cmd : Int) (cmsid devid : String)
deriving DecidableEq, Repr

-- The members are read in order inside one `try`: the first failing conversion is
-- caught, a failing assertion is not.
def decodeRequest : Option Json.Value → Request
  | none => .reject
  | some value =>
      match value.member "cmd", value.member "cmsid", value.member "devid" with
      | some cmd, some cmsid, some devid =>
          match cmd.asInt, cmsid.asString, devid.asString with
          | some cmd, some cmsid, some devid => .fields cmd cmsid devid
          | _, _, _ => .reject
      | _, _, _ => .abort

-- The message of a viewer, as the page sends it.
def message (cmd : Int) (cmsid devid : String) : Option Json.Value :=
  some (.object [("cmd", .int cmd), ("cmsid", .string cmsid), ("devid", .string devid)])

theorem decodeRequest_message {cmd : Int} (hlo : Json.Value.minInt ≤ cmd) (hhi : cmd ≤ Json.Value.maxInt)
    (cmsid devid : String) : decodeRequest (message cmd cmsid devid) = .fields cmd cmsid devid := by
  have hcmd : (Json.Value.int cmd).asInt = some cmd := if_pos ⟨hlo, hhi⟩
  simp [decodeRequest, message, Json.Value.member, Json.Value.asString, hcmd, List.lookup_cons]

end VideoAdapter.Wss
