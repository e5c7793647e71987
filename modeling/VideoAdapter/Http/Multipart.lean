import Mathlib.Data.List.Basic

namespace VideoAdapter.Http

-- A `std::string`, one character for each byte.
abbrev Str := List Char

theorem forall_mem_of_all {p : Char → Prop} [DecidablePred p] {text : Str}
    (h : text.all (fun c => decide (p c)) = true) : ∀ c ∈ text, p c :=
  fun c hc => of_decide_eq_true (List.all_eq_true.mp h c hc)

def CR : Char := '\r'

def LF : Char := '\n'

inductive MultipartState where
  | sStart
  | sStartBoundary
  | sHeaderFieldStart
  | sHeaderField
  | sHeadersAlmostDone
  | sHeaderValueStart
  | sHeaderValue
  | sHeaderValueAlmostDone
  | sPartDataStart
  | sPartData
  | sPartDataAlmostBoundary
  | sPartDataBoundary
  | sPartDataAlmostEnd
  | sPartDataEnd
  | sPartDataFinalHyphen
  | sEnd
deriving DecidableEq, Repr

-- The bytes that `lookbehind` has held before are never read again, so only what was written since
-- the last `CR` stands in it.
structure MultipartParser where
  multipartBoundary : Str
  index : Nat := 0
  state : MultipartState := .sStart
  lookbehind : Str := []
deriving DecidableEq, Repr

-- The functions of `multipart_parser_settings` and what they are called with.
inductive Notice where
  | headerField (text : Str)
  | headerValue (text : Str)
  | partData (text : Str)
  | partDataBegin
  | headersComplete
  | partDataEnd
  | bodyEnd
deriving DecidableEq, Repr

-- The parser in the middle of a buffer, with the user's data and the bytes from `mark` on.
structure Cursor (Data : Type*) where
  parser : MultipartParser
  data : Data
  marked : Str := []

namespace MultipartParser

variable {Data : Type*} (on : Data → Notice → Data × Int)

-- A function that does not return zero ends the parsing.
def notify (cur : Cursor Data) (notice : Notice) : Except Data (Cursor Data) :=
  if (on cur.data notice).2 = 0 then .ok { cur with data := (on cur.data notice).1 }
  else .error (on cur.data notice).1

def goto (cur : Cursor Data) (state : MultipartState) : Cursor Data :=
  { cur with parser := { cur.parser with state := state } }

def startBoundary (cur : Cursor Data) (c : Char) : Except Data (Cursor Data) :=
  if cur.parser.index = cur.parser.multipartBoundary.length then
    if c = CR then .ok { cur with parser := { cur.parser with index := cur.parser.index + 1 } }
    else .error cur.data
  else if cur.parser.index = cur.parser.multipartBoundary.length + 1 then
    if c = LF then
      (notify on { cur with parser := { cur.parser with index := 0 } } .partDataBegin).map
        fun cur => goto cur .sHeaderFieldStart
    else .error cur.data
  else if cur.parser.multipartBoundary[cur.parser.index]? = some c then
    .ok { cur with parser := { cur.parser with index := cur.parser.index + 1 } }
  else .error cur.data

def headerField (cur : Cursor Data) (c : Char) (isLast : Bool) : Except Data (Cursor Data) :=
  if c = CR then .ok (goto cur .sHeadersAlmostDone)
  else if c = ':' then
    (notify on cur (.headerField cur.marked)).map fun cur => goto cur .sHeaderValueStart
  else if c ≠ '-' ∧ (c.toLower < 'a' ∨ 'z' < c.toLower) then .error cur.data
  else if isLast then notify on cur (.headerField (cur.marked ++ [c]))
  else .ok { cur with marked := cur.marked ++ [c] }

def headerValue (cur : Cursor Data) (c : Char) (isLast : Bool) : Except Data (Cursor Data) :=
  if c = CR then
    (notify on cur (.headerValue cur.marked)).map fun cur => goto cur .sHeaderValueAlmostDone
  else if isLast then notify on cur (.headerValue (cur.marked ++ [c]))
  else .ok { cur with marked := cur.marked ++ [c] }

def partData (cur : Cursor Data) (c : Char) (isLast : Bool) : Except Data (Cursor Data) :=
  if c = CR then
    (notify on cur (.partData cur.marked)).map fun cur => { cur with
      marked := []
      parser := { cur.parser with state := .sPartDataAlmostBoundary, lookbehind := [CR] } }
  else if isLast then notify on cur (.partData (cur.marked ++ [c]))
  else .ok { cur with marked := cur.marked ++ [c] }

-- `mark = i --`: what was taken for a boundary is data, and the byte that showed it is read again.
def backToData (cur : Cursor Data) (c : Char) (isLast : Bool) : Except Data (Cursor Data) :=
  match notify on cur (.partData cur.parser.lookbehind) with
  | .error data => .error data
  | .ok cur => partData on { goto cur .sPartData with marked := [] } c isLast

-- One byte.
def step (cur : Cursor Data) (c : Char) (isLast : Bool) : Except Data (Cursor Data) :=
  match cur.parser.state with
  | .sStart =>
      startBoundary on { cur with parser := { cur.parser with index := 0, state := .sStartBoundary } } c
  | .sStartBoundary => startBoundary on cur c
  | .sHeaderFieldStart => headerField on { goto cur .sHeaderField with marked := [] } c isLast
  | .sHeaderField => headerField on cur c isLast
  | .sHeadersAlmostDone => if c = LF then .ok (goto cur .sPartDataStart) else .error cur.data
  | .sHeaderValueStart =>
      if c = ' ' then .ok cur else headerValue on { goto cur .sHeaderValue with marked := [] } c isLast
  | .sHeaderValue => headerValue on cur c isLast
  | .sHeaderValueAlmostDone => if c = LF then .ok (goto cur .sHeaderFieldStart) else .error cur.data
  | .sPartDataStart =>
      match notify on cur .headersComplete with
      | .error data => .error data
      | .ok cur => partData on { goto cur .sPartData with marked := [] } c isLast
  | .sPartData => partData on cur c isLast
  | .sPartDataAlmostBoundary =>
      if c = LF then
        .ok { cur with parser := { cur.parser with
          state := .sPartDataBoundary, lookbehind := cur.parser.lookbehind ++ [LF], index := 0 } }
      else backToData on cur c isLast
  | .sPartDataBoundary =>
      if cur.parser.multipartBoundary[cur.parser.index]? = some c then
        let next := { cur with parser := { cur.parser with
          lookbehind := cur.parser.lookbehind ++ [c], index := cur.parser.index + 1 } }
        if next.parser.index = next.parser.multipartBoundary.length then
          (notify on next .partDataEnd).map fun cur => goto cur .sPartDataAlmostEnd
        else .ok next
      else backToData on cur c isLast
  | .sPartDataAlmostEnd =>
      if c = '-' then .ok (goto cur .sPartDataFinalHyphen)
      else if c = CR then .ok (goto cur .sPartDataEnd)
      else .error cur.data
  | .sPartDataFinalHyphen =>
      if c = '-' then (notify on cur .bodyEnd).map fun cur => goto cur .sEnd else .error cur.data
  | .sPartDataEnd =>
      if c = LF then notify on (goto cur .sHeaderFieldStart) .partDataBegin else .error cur.data
  | .sEnd => .ok cur

-- The user's data after `multipart_parser_execute`, and what that returns when `i` bytes were parsed
-- before.
def execute (cur : Cursor Data) : Str → Nat → Data × Nat
  | [], i => (cur.data, i)
  | c :: rest, i =>
      match step on cur c rest.isEmpty with
      | .error data => (data, i)
      | .ok next => execute next rest (i + 1)

end MultipartParser

structure FileItem where
  isFile : Bool := false
  -- a `bool`, so every state but `PARSE_MULTI_DISPOSITION` is stored as `true`
  parseState : Bool := false
  contentType : Str := []
  name : Str := []
  filename : Str := []
  data : Str := []
deriving DecidableEq, Repr

structure RequestBody where
  rawString : Str := []
  -- the entries of the multimap, those of one key in the order they were inserted
  reqParams : List (Str × Str) := []
  fileItems : List FileItem := []
deriving DecidableEq, Repr

-- `while (std::getline(ss, token, s))`: behind the last separator there is no empty token.
def ssSplitStr (input : Str) (s : Char) : List Str :=
  if (input.splitOn s).getLast? = some [] then (input.splitOn s).dropLast else input.splitOn s

-- No result stands for -1.
def ssParseDispositionValue (input : Str) : Option Str :=
  match ssSplitStr input '=' with
  | [_, output] =>
      if output = "\x22\x22".toList then some []
      else
        let output := (output.drop 1).take (output.length - 2)
        if output = [] then none else some output
  | _ => none

def ssParseMultiDisposition (input : Str) (item : FileItem) : FileItem × Int :=
  match ssSplitStr input ';' with
  | _ :: first :: rest =>
      match ssParseDispositionValue first with
      | none => (item, -1)
      | some fieldname =>
          match rest with
          | [] => ({ item with name := fieldname }, 0)
          | second :: _ =>
              match ssParseDispositionValue second with
              | none => ({ item with name := fieldname, isFile := true }, -1)
              | some filename =>
                  ({ item with name := fieldname, isFile := true, filename := filename }, 0)
  | _ => (item, -1)

namespace RequestBody

-- The last of the items.
def withLast (body : RequestBody) (f : FileItem → FileItem × Int) (empty : Int) : RequestBody × Int :=
  match body.fileItems.getLast? with
  | none => (body, empty)
  | some item => ({ body with fileItems := body.fileItems.dropLast ++ [(f item).1] }, (f item).2)

def onMultipartName (body : RequestBody) (s : Str) : RequestBody × Int :=
  if s = "Content-Disposition".toList then ({ body with fileItems := body.fileItems ++ [{}] }, 0)
  else if s = "Content-Type".toList then
    body.withLast (fun item => ({ item with parseState := true }, 0)) 1
  else (body, 0)

def onMultipartValue (body : RequestBody) (s : Str) : RequestBody × Int :=
  body.withLast (fun item =>
    if item.parseState then ({ item with contentType := s }, 0) else ssParseMultiDisposition s item) (-1)

def onMultipartData (body : RequestBody) (s : Str) : RequestBody × Int :=
  if s = [] then (body, 0)
  else body.withLast (fun item => ({ item with data := item.data ++ s }, 0)) 1

def onMultipartDataOver (body : RequestBody) : RequestBody × Int :=
  body.withLast (fun item => ({ item with parseState := true }, 0)) 1

def parseMultiParams (body : RequestBody) : RequestBody :=
  { body with reqParams := body.reqParams ++ body.fileItems.map fun item => (item.name, item.data) }

-- `mp_settings`; the other two functions are null.
def onMultipart (body : RequestBody) : Notice → RequestBody × Int
  | .headerField s => body.onMultipartName s
  | .headerValue s => body.onMultipartValue s
  | .partData s => body.onMultipartData s
  | .partDataEnd => body.onMultipartDataOver
  | .bodyEnd => (body.parseMultiParams, 0)
  | .partDataBegin => (body, 0)
  | .headersComplete => (body, 0)

end RequestBody

-- What is left of the body of a request with such a `Content-Type`.
def ssParseMultipartData (contentType : Str) (body : RequestBody) : RequestBody :=
  if body.rawString = [] then body
  else
    match ssSplitStr contentType ';' with
    | [_, second] =>
        match ssSplitStr second '=' with
        | [_, token] =>
            -- the boundary is copied as a C string
            let boundary := ("--".toList ++ token).takeWhile (· ≠ '\x00')
            (MultipartParser.execute RequestBody.onMultipart
              { parser := { multipartBoundary := boundary }, data := body } body.rawString 0).1
        | _ => body
    | _ => body

end VideoAdapter.Http
