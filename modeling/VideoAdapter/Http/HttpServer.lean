import VideoAdapter.Http.Response
import VideoAdapter.Http.Session

namespace VideoAdapter.Http

-- A `method_handler_ptr` with its `userdata`. It may look at the world, and it answers through the
-- status, the headers and the body of the response.
structure Handler (World : Type*) where
  run : World → Request → Response → Response
  isWrited : ∀ world req res, (run world req res).isWrited = res.isWrited
  resBytes : ∀ world req res, (run world req res).resBytes = res.resBytes

-- A `json_handler_ptr` is given with the text of the value that it makes.
structure Resource (World : Type*) where
  methodNames : List Str
  handlerPtr : Option (Handler World) := none
  jsonPtr : Option (World → Request → Str) := none

-- What a call of `recv` comes to. No bytes are what a peer that has closed sends.
inductive Received where
  | interrupted
  | failed
  | bytes (buffer : Str)
deriving DecidableEq, Repr

-- What the socket and the world come to during one call: `send` is the number of bytes the socket can
-- take, or nothing if it fails.
structure HttpInput (World : Type*) where
  received : Received
  send : Option Nat
  world : World

structure HttpContext (Parser : Type*) where
  fd : Nat
  req : Request := {}
  parser : Parser
  res : Response := {}

def SS_WRITE_BUFFER_SIZE : Nat := 4096

-- `strcasecmp`
def sameText (first second : Str) : Bool :=
  decide ((first.takeWhile (· ≠ '\x00')).map Char.toLower =
    (second.takeWhile (· ≠ '\x00')).map Char.toLower)

structure HttpEpollWatcher (World Parser : Type*) where
  http : HttpParser Parser
  -- the entries of the map, of which no two have the same path
  resourceMap : List (Str × Resource World)

namespace HttpEpollWatcher

variable {World Parser : Type*} (watcher : HttpEpollWatcher World Parser)

def handleRequest (world : World) (req : Request) (res : Response) : Response :=
  let res := ((res.setHead "Access-Control-Allow-Origin".toList "*".toList).setHead
    "Access-Control-Allow-Methods".toList "POST,GET".toList).setHead
    "Access-Control-Allow-Headers".toList
    "Cache-Control,X-Proxy-Authorization,X-Requested-With,Content-Type".toList
  match watcher.resourceMap.lookup req.line.getRequestUri with
  | none => { res with codeMsg := STATUS_NOT_FOUND, body := STATUS_NOT_FOUND.msg }
  | some resource =>
      if req.line.method ∉ resource.methodNames then
        { ({ res with codeMsg := STATUS_METHOD_NOT_ALLOWED } : Response).setHead "Allow".toList
            (resource.methodNames.headD []) with body := [] }
      else
        match resource.jsonPtr, resource.handlerPtr with
        | some json, _ => { res with body := json world req }
        | none, some handler => handler.run world req res
        | none, none => res

def newContext (fd : Nat) : HttpContext Parser := { fd := fd, parser := watcher.http.init }

def onReadable (ctx : HttpContext Parser) (input : HttpInput World) : HttpContext Parser × ReadRet :=
  match input.received with
  | .interrupted => (ctx, .readContinue)
  | .failed => (ctx, .readClose)
  | .bytes [] => (ctx, .readClose)
  | .bytes buffer =>
      let (req, parser, ret) := ctx.req.parseRequest watcher.http ctx.parser buffer
      let ctx := { ctx with req := req, parser := parser }
      if ret < 0 then (ctx, .readClose)
      else if ret = NEED_MORE_STATUS then (ctx, .readContinue)
      else if ret = PARSE_LEN_REQUIRED then
        ({ ctx with res := { ctx.res with
            codeMsg := STATUS_LENGTH_REQUIRED, body := STATUS_LENGTH_REQUIRED.msg } }, .readOver)
      else ({ ctx with res := watcher.handleRequest input.world ctx.req ctx.res }, .readOver)

def isKeepalive (req : Request) : Bool :=
  sameText (req.getHeader "Connection".toList) "keep-alive".toList

-- The response as it is when the next of its bytes are read.
def written (ctx : HttpContext Parser) : Response :=
  if ctx.res.isWrited then ctx.res
  else { ctx.res.genResponse ctx.req.line.httpVersion (isKeepalive ctx.req) with isWrited := true }

-- What is offered to the socket.
def offered (ctx : HttpContext Parser) : Str := ((written ctx).readsome SS_WRITE_BUFFER_SIZE).2.1

-- What the socket takes of it.
def taken (ctx : HttpContext Parser) (input : HttpInput World) : Str :=
  (offered ctx).take (input.send.getD 0)

def onWriteable (ctx : HttpContext Parser) (input : HttpInput World) :
    HttpContext Parser × WriteRet :=
  let res := ((written ctx).readsome SS_WRITE_BUFFER_SIZE).1
  let ret := ((written ctx).readsome SS_WRITE_BUFFER_SIZE).2.2
  match input.send with
  | none => ({ ctx with res := res }, .writeConnClose)
  | some _ =>
      let readSize := (offered ctx).length
      let nwrite := (taken ctx input).length
      let res := if nwrite < readSize then (res.rollback (readSize - nwrite)).1 else res
      if ret = 1 then ({ ctx with res := res }, .writeConnContinue)
      else if isKeepalive ctx.req ∧ 0 < nwrite then (watcher.newContext ctx.fd, .writeConnAlive)
      else ({ ctx with res := res }, .writeConnClose)

def epollSocketWatcher : EpollSocketWatcher (HttpContext Parser) (HttpInput World) where
  onAccept := watcher.newContext
  onReadable := watcher.onReadable
  onWriteable := watcher.onWriteable

end HttpEpollWatcher

end VideoAdapter.Http
