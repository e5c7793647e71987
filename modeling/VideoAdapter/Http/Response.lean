import VideoAdapter.Http.Request
import VideoAdapter.Lib.Text

namespace VideoAdapter.Http

-- A `std::stringstream`: all that was written, and where the next read begins.
structure StringStream where
  bytes : Str := []
  pos : Nat := 0
  eofbit : Bool := false
  failbit : Bool := false
deriving DecidableEq, Repr

namespace StringStream

def good (ss : StringStream) : Bool := !ss.eofbit && !ss.failbit

def write (ss : StringStream) (text : Str) : StringStream := { ss with bytes := ss.bytes ++ text }

-- What is read, which is less than the count only at the end.
def read (ss : StringStream) (count : Nat) : StringStream × Str :=
  if ss.good then
    let text := (ss.bytes.drop ss.pos).take count
    ({ ss with
        pos := ss.pos + text.length
        eofbit := decide (text.length < count)
        failbit := decide (text.length < count) }, text)
  else ({ ss with failbit := true }, [])

def clear (ss : StringStream) : StringStream := { ss with eofbit := false, failbit := false }

def tellg (ss : StringStream) : Int := if ss.good then ss.pos else -1

-- A position outside of the text is an error.
def seekg (ss : StringStream) (pos : Int) : StringStream :=
  if ss.failbit then { ss with eofbit := false }
  else if 0 ≤ pos ∧ pos ≤ ss.bytes.length then { ss with eofbit := false, pos := pos.toNat }
  else { ss with eofbit := false, failbit := true }

end StringStream

structure CodeMsg where
  statusCode : Int
  msg : Str
deriving DecidableEq, Repr

def STATUS_OK : CodeMsg := ⟨200, "OK".toList⟩

def STATUS_NOT_FOUND : CodeMsg := ⟨404, "Not Found".toList⟩

def STATUS_METHOD_NOT_ALLOWED : CodeMsg := ⟨405, "Method Not Allowed".toList⟩

def STATUS_LENGTH_REQUIRED : CodeMsg := ⟨411, "Length Required".toList⟩

def EHTTP_VERSION : Str := "1.0.3".toList

structure Response where
  isWrited : Bool := false
  codeMsg : CodeMsg := STATUS_OK
  body : Str := []
  headers : List (Str × Str) := []
  resBytes : StringStream := {}
deriving DecidableEq, Repr

namespace Response

def setHead (res : Response) (name value : Str) : Response :=
  { res with headers := mapSet res.headers name value }

def hasHead (res : Response) (name : Str) : Bool := res.headers.any fun header => header.1 = name

def CRLF : Str := "\r\n".toList

def headLine (header : Str × Str) : Str := header.1 ++ ": ".toList ++ header.2 ++ CRLF

-- What `gen_response` writes in front of the body.
def genHead (res : Response) (httpVersion : Str) (isKeepalive : Bool) : Str :=
  httpVersion ++ " ".toList ++ (toString res.codeMsg.statusCode).toList ++ " ".toList ++
    res.codeMsg.msg ++ CRLF ++
  headLine ("Server".toList, "ehttp/".toList ++ EHTTP_VERSION) ++
  (if res.hasHead "Content-Type".toList then []
    else headLine ("Content-Type".toList, "application/json; charset=UTF-8".toList)) ++
  (if res.hasHead "Content-Length".toList then []
    else headLine ("Content-Length".toList, (toString res.body.length).toList)) ++
  (if isKeepalive then headLine ("Connection".toList, "Keep-Alive".toList)
    else headLine ("Connection".toList, "close".toList)) ++
  res.headers.flatMap headLine ++ CRLF

def genResponse (res : Response) (httpVersion : Str) (isKeepalive : Bool) : Response :=
  { res with resBytes := res.resBytes.write (res.genHead httpVersion isKeepalive ++ res.body) }

-- The bytes that were read, and 1 if the end was not seen.
def readsome (res : Response) (bufferSize : Nat) : Response × Str × Int :=
  ({ res with resBytes := (res.resBytes.read bufferSize).1 }, (res.resBytes.read bufferSize).2,
    if (res.resBytes.read bufferSize).1.eofbit then 0 else 1)

-- The position is cast to an `int`.
def rollback (res : Response) (num : Nat) : Response × Int :=
  let ss := if res.resBytes.eofbit then res.resBytes.clear else res.resBytes
  let ss := ss.seekg (Lib.toInt ss.tellg - num)
  ({ res with resBytes := ss }, if ss.good then 0 else -1)

end Response

end VideoAdapter.Http
