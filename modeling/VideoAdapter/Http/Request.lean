import VideoAdapter.Http.Multipart
import VideoAdapter.Lib.Text

namespace VideoAdapter.Http

-- `operator[]` of a `std::map`, written and read.
def mapSet : List (Str × Str) → Str → Str → List (Str × Str)
  | [], name, value => [(name, value)]
  | (other, old) :: rest, name, value =>
      if name = other then (name, value) :: rest
      else if name < other then (name, value) :: (other, old) :: rest
      else (other, old) :: mapSet rest name value

def mapGet (map : List (Str × Str)) (name : Str) : Str := (map.lookup name).getD []

-- The functions of `RequestParam`. The entries of one key stand in the order they were inserted, and
-- `find` gives the first.
def getParam (params : List (Str × Str)) (name : Str) : Str :=
  ((params.find? fun param => param.1 = name).map Prod.snd).getD []

def getParams (params : List (Str × Str)) (name : Str) : List Str :=
  (params.filter fun param => param.1 = name).map Prod.snd

-- The inner loop of `parse_query_url`, over what `getline` reads up to each `=`.
def keyValues : List Str → List (Str × Str)
  | [] => []
  | [key] => [(key, [])]
  | key :: value :: rest => (key, value) :: keyValues rest

def parseQueryUrl (params : List (Str × Str)) (queryUrl : Str) : List (Str × Str) :=
  params ++ (queryUrl.splitOn '&').flatMap fun keyValue => keyValues (keyValue.splitOn '=')

structure RequestLine where
  param : List (Str × Str) := []
  method : Str := []
  requestUrl : Str := []
  httpVersion : Str := []
deriving DecidableEq, Repr

namespace RequestLine

def getRequestUri (line : RequestLine) : Str := (line.requestUrl.splitOn '?').headD []

-- Only what stands between the first two question marks is read.
def parseRequestUrlParams (line : RequestLine) : RequestLine :=
  match line.requestUrl.splitOn '?' with
  | _ :: queryUrl :: _ => { line with param := parseQueryUrl line.param queryUrl }
  | _ => line

end RequestLine

-- `PARSE_REQ_LINE` and the others.
inductive ParsePart where
  | reqLine
  | reqHead
  | reqBody
  | reqOver
  | reqHeadOver
deriving DecidableEq, Repr

def NEED_MORE_STATUS : Int := 1

def PARSE_LEN_REQUIRED : Int := 2

def MAX_REQ_SIZE : Int := 10485760

structure Request where
  parsePart : ParsePart := .reqLine
  totalReqSize : Int := 0
  lastWasValue : Bool := true
  parseErr : Int := 0
  headerFields : List Str := []
  headerValues : List Str := []
  line : RequestLine := {}
  headers : List (Str × Str) := []
  body : RequestBody := {}
deriving DecidableEq, Repr

-- What the callbacks read of the parser: the method's number and the version.
structure ParserLine where
  method : Nat
  httpMajor : Nat
  httpMinor : Nat
deriving DecidableEq, Repr

-- The callbacks that `Request` gives to `http_parser`, with their data.
inductive ParserEvent where
  | url (buf : Str)
  | headerField (line : ParserLine) (buf : Str)
  | headerValue (buf : Str)
  | headersComplete
  | body (buf : Str)
  | messageComplete
deriving DecidableEq, Repr

-- `v[v.size() - 1] += s`
def appendLast (texts : List Str) (s : Str) : List Str :=
  match texts.getLast? with
  | none => texts
  | some last => texts.dropLast ++ [last ++ s]

def ishex (c : Char) : Bool :=
  ('a' ≤ c && c ≤ 'f') || ('A' ≤ c && c ≤ 'F') || ('0' ≤ c && c ≤ '9')

-- `strtol` for one digit.
def hexValue (c : Char) : Nat :=
  if '0' ≤ c ∧ c ≤ '9' then c.toNat - '0'.toNat
  else if 'a' ≤ c ∧ c ≤ 'f' then c.toNat - 'a'.toNat + 10
  else c.toNat - 'A'.toNat + 10

def unescapeParam : Str → Str
  | '%' :: first :: second :: rest =>
      if ishex first && ishex second then
        Char.ofNat (hexValue first * 16 + hexValue second) :: unescapeParam rest
      else '%' :: unescapeParam (first :: second :: rest)
  | '+' :: rest => ' ' :: unescapeParam rest
  | c :: rest => c :: unescapeParam rest
  | [] => []

namespace Request

def getHeader (req : Request) (name : Str) : Str := mapGet req.headers name

def getParam (req : Request) (name : Str) : Str :=
  if req.line.method = "GET".toList then Http.getParam req.line.param name
  else if req.line.method = "POST".toList then Http.getParam req.body.reqParams name
  else []

def getUnescapeParam (req : Request) (name : Str) : Str := unescapeParam (req.getParam name)

def onUrl (req : Request) (buf : Str) : Request :=
  { req with line := { req.line with requestUrl := req.line.requestUrl ++ buf } }

-- The request line, which is complete when the first header begins.
def onRequestLine (req : Request) (line : ParserLine) : Request :=
  let method : Str :=
    if line.method = 1 then "GET".toList
    else if line.method = 3 then "POST".toList
    else req.line.method
  let parsed := { req.line with method := method }.parseRequestUrlParams
  let httpVersion : Str :=
    if line.httpMajor = 1 ∧ line.httpMinor = 0 then "HTTP/1.0".toList
    else if line.httpMajor = 1 ∧ line.httpMinor = 1 then "HTTP/1.1".toList
    else parsed.httpVersion
  { req with line := { parsed with httpVersion := httpVersion }, parsePart := .reqHead }

def onHeaderField (req : Request) (line : ParserLine) (buf : Str) : Request :=
  let req := if req.parsePart = .reqLine then req.onRequestLine line else req
  if req.lastWasValue then
    { req with headerFields := req.headerFields ++ [buf], lastWasValue := false }
  else { req with headerFields := appendLast req.headerFields buf }

def onHeaderValue (req : Request) (buf : Str) : Request :=
  { req with
    headerValues :=
      if req.lastWasValue then appendLast req.headerValues buf else req.headerValues ++ [buf]
    lastWasValue := true }

def addHeaders (req : Request) (headers : List (Str × Str)) : Request :=
  { req with headers := headers.foldl (fun map header => mapSet map header.1 header.2) req.headers }

def onHeadersComplete (req : Request) : Request × Int :=
  if req.headerFields.length ≠ req.headerValues.length then (req, -1)
  else
    let req := { req.addHeaders (req.headerFields.zip req.headerValues) with parsePart := .reqHeadOver }
    if req.line.method = "POST".toList ∧ req.getHeader "Content-Length".toList = [] then
      ({ req with parseErr := PARSE_LEN_REQUIRED }, -1)
    else (req, 0)

def onBody (req : Request) (buf : Str) : Request :=
  { req with
    body := { req.body with rawString := req.body.rawString ++ buf }, parsePart := .reqBody }

def onMessageComplete (req : Request) : Request :=
  let contentType := req.getHeader "Content-Type".toList
  let body :=
    if contentType = "application/x-www-form-urlencoded".toList ∧ req.body.rawString ≠ [] then
      { req.body with reqParams := parseQueryUrl req.body.reqParams req.body.rawString }
    else req.body
  let body :=
    if (Lib.findWord "multipart/form-data".toList contentType).isSome then
      ssParseMultipartData contentType body
    else body
  { req with body := body, parsePart := .reqOver }

def on (req : Request) : ParserEvent → Request × Int
  | .url buf => (req.onUrl buf, 0)
  | .headerField line buf => (req.onHeaderField line buf, 0)
  | .headerValue buf => (req.onHeaderValue buf, 0)
  | .headersComplete => req.onHeadersComplete
  | .body buf => (req.onBody buf, 0)
  | .messageComplete => (req.onMessageComplete, 0)

end Request

-- `http_parser`: what it has in memory, and what `http_parser_execute` does with more bytes. For each
-- callback there is the number that is returned if it fails, and there is the number that is returned
-- if none does.
structure HttpParser (Parser : Type*) where
  init : Parser
  execute : Parser → Str → Parser × List (ParserEvent × Nat) × Nat

namespace Request

def onAll (req : Request) : List (ParserEvent × Nat) → Nat → Request × Nat
  | [], nparsed => (req, nparsed)
  | (event, stopped) :: rest, nparsed =>
      if (req.on event).2 = 0 then (req.on event).1.onAll rest nparsed else ((req.on event).1, stopped)

variable {Parser : Type*} (http : HttpParser Parser)

def parseRequest (req : Request) (parser : Parser) (readBuffer : Str) : Request × Parser × Int :=
  let req := { req with totalReqSize := req.totalReqSize + readBuffer.length }
  if req.totalReqSize > MAX_REQ_SIZE then (req, parser, -1)
  else
    let (parser, events, nparsed) := http.execute parser readBuffer
    let (req, nparsed) := req.onAll events nparsed
    if nparsed ≠ readBuffer.length then (req, parser, -1)
    else if req.parseErr ≠ 0 then (req, parser, req.parseErr)
    else if req.parsePart ≠ .reqOver then (req, parser, NEED_MORE_STATUS)
    else (req, parser, 0)

end Request

end VideoAdapter.Http
