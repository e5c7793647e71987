import VideoAdapter.Http.Request

namespace VideoAdapter.Http

-- What a client sends as one request.
structure Message where
  line : ParserLine
  url : Str
  headers : List (Str × Str)
  body : Str
deriving DecidableEq, Repr

-- A request in the pieces in which the parser hands it out, with one call for each piece.
structure Spelling where
  line : ParserLine
  url : List Str
  headers : List (List Str × List Str)
  body : List Str
deriving DecidableEq, Repr

namespace Spelling

def message (s : Spelling) : Message where
  line := s.line
  url := s.url.flatten
  headers := s.headers.map fun header => (header.1.flatten, header.2.flatten)
  body := s.body.flatten

def headerEvents (line : ParserLine) (header : List Str × List Str) : List ParserEvent :=
  header.1.map (.headerField line) ++ header.2.map .headerValue

def head (s : Spelling) : List ParserEvent :=
  s.url.map .url ++ s.headers.flatMap (headerEvents s.line)

def events (s : Spelling) : List ParserEvent :=
  s.head ++ .headersComplete :: (s.body.map .body ++ [.messageComplete])

-- Every name and every value is handed out, also one that is empty.
def Named (s : Spelling) : Prop := ∀ header ∈ s.headers, header.1 ≠ [] ∧ header.2 ≠ []

instance (s : Spelling) : Decidable s.Named :=
  inferInstanceAs (Decidable (∀ header ∈ s.headers, _))

end Spelling

namespace Request

-- The callbacks one after the other, whatever they return.
def onEvents (req : Request) (events : List ParserEvent) : Request :=
  events.foldl (fun req event => (req.on event).1) req

-- None of the callbacks fails.
def Smooth (req : Request) : List ParserEvent → Prop
  | [] => True
  | event :: rest => (req.on event).2 = 0 ∧ (req.on event).1.Smooth rest

theorem onEvents_append (req : Request) (first second : List ParserEvent) :
    req.onEvents (first ++ second) = (req.onEvents first).onEvents second :=
  List.foldl_append

theorem smooth_append (req : Request) (first second : List ParserEvent) :
    req.Smooth (first ++ second) ↔ req.Smooth first ∧ (req.onEvents first).Smooth second := by
  induction first generalizing req with
  | nil => simp [Smooth, onEvents]
  | cons event rest ih =>
      simp only [List.cons_append, Smooth, ih, onEvents, List.foldl_cons]
      exact and_assoc.symm

theorem smooth_of_notMem {events : List ParserEvent} (h : .headersComplete ∉ events) (req : Request) :
    req.Smooth events := by
  induction events generalizing req with
  | nil => trivial
  | cons event rest ih =>
      obtain ⟨hevent, hrest⟩ := not_or.mp (mt List.mem_cons.mpr h)
      refine ⟨?_, ih hrest _⟩
      cases event with
      | headersComplete => exact absurd rfl hevent
      | _ => rfl

theorem onAll_of_smooth {req : Request} {calls : List (ParserEvent × Nat)}
    (h : req.Smooth (calls.map Prod.fst)) (nparsed : Nat) :
    req.onAll calls nparsed = (req.onEvents (calls.map Prod.fst), nparsed) := by
  induction calls generalizing req with
  | nil => rfl
  | cons call rest ih =>
      obtain ⟨event, stopped⟩ := call
      obtain ⟨hevent, hrest⟩ := h
      change (req.on event).2 = 0 at hevent
      rw [onAll, if_pos hevent, ih hrest]
      rfl

def headed (req : Request) : Request :=
  { req.addHeaders (req.headerFields.zip req.headerValues) with parsePart := .reqHeadOver }

-- A POST request whose header does not tell the length of its body.
def LengthMissing (req : Request) : Prop :=
  req.line.method = "POST".toList ∧ req.headed.getHeader "Content-Length".toList = []

instance (req : Request) : Decidable req.LengthMissing := inferInstanceAs (Decidable (_ ∧ _))

theorem onHeadersComplete_of_missing {req : Request}
    (hlengths : req.headerFields.length = req.headerValues.length) (hmissing : req.LengthMissing) :
    req.onHeadersComplete = ({ req.headed with parseErr := PARSE_LEN_REQUIRED }, -1) :=
  (if_neg (not_not.mpr hlengths)).trans (if_pos hmissing)

theorem onHeadersComplete_of_given {req : Request}
    (hlengths : req.headerFields.length = req.headerValues.length) (hgiven : ¬ req.LengthMissing) :
    req.onHeadersComplete = (req.headed, 0) :=
  (if_neg (not_not.mpr hlengths)).trans (if_neg hgiven)

-- The size of what was read is counted beside the callbacks.
theorem on_withSize (req : Request) (event : ParserEvent) (size : Int) :
    { req with totalReqSize := size }.on event =
      ({ (req.on event).1 with totalReqSize := size }, (req.on event).2) := by
  cases event with
  | headerField line buf =>
      have hline : { req with totalReqSize := size }.onRequestLine line =
          { req.onRequestLine line with totalReqSize := size } := rfl
      simp only [on, onHeaderField, hline]
      by_cases hpart : req.parsePart = .reqLine
      · simp only [if_pos hpart]
        split <;> rfl
      · simp only [if_neg hpart]
        split <;> rfl
  | headersComplete =>
      change { req with totalReqSize := size }.onHeadersComplete = _
      by_cases hlengths : req.headerFields.length = req.headerValues.length
      · by_cases hmissing : req.LengthMissing
        · rw [onHeadersComplete_of_missing (by exact hlengths) (by exact hmissing),
            show (req.on .headersComplete) = _ from onHeadersComplete_of_missing hlengths hmissing]
          rfl
        · rw [onHeadersComplete_of_given (by exact hlengths) (by exact hmissing),
            show (req.on .headersComplete) = _ from onHeadersComplete_of_given hlengths hmissing]
          rfl
      · rw [onHeadersComplete, if_pos (by exact hlengths)]
        rw [show (req.on .headersComplete) = _ from if_pos hlengths]
  | _ => rfl

theorem onEvents_withSize (req : Request) (events : List ParserEvent) (size : Int) :
    { req with totalReqSize := size }.onEvents events =
      { req.onEvents events with totalReqSize := size } := by
  induction events generalizing req with
  | nil => rfl
  | cons event rest ih =>
      simp only [onEvents, List.foldl_cons, on_withSize]
      exact ih (req.on event).1

theorem smooth_withSize (req : Request) (events : List ParserEvent) (size : Int) :
    { req with totalReqSize := size }.Smooth events ↔ req.Smooth events := by
  induction events generalizing req with
  | nil => exact Iff.rfl
  | cons event rest ih => simp only [Smooth, on_withSize, ih]

theorem onRequestLine_parsePart (req : Request) (line : ParserLine) :
    (req.onRequestLine line).parsePart ≠ .reqLine := by
  change ParsePart.reqHead ≠ .reqLine
  decide

-- Between two requests, and at the start of each header.
structure Ready (req : Request) : Prop where
  lastWasValue : req.lastWasValue = true
  lengths : req.headerFields.length = req.headerValues.length

theorem onEvents_url (req : Request) (pieces : List Str) :
    req.onEvents (pieces.map .url) = req.onUrl pieces.flatten := by
  induction pieces generalizing req with
  | nil => simp [onEvents, onUrl]
  | cons piece rest ih =>
      change (req.onUrl piece).onEvents (rest.map .url) = _
      rw [ih]
      simp [onUrl]

theorem onEvents_body (req : Request) (pieces : List Str) :
    ((req.onEvents (pieces.map .body)).onEvents [.messageComplete]) =
      (req.onBody pieces.flatten).onMessageComplete := by
  induction pieces generalizing req with
  | nil =>
      have hempty : req.onBody [].flatten = { req with parsePart := .reqBody } := by simp [onBody]
      rw [hempty]
      rfl
  | cons piece rest ih =>
      change ((req.onBody piece).onEvents (rest.map .body)).onEvents [.messageComplete] = _
      rw [ih]
      simp [onBody]

theorem onEvents_moreField {req : Request} (hpart : req.parsePart ≠ .reqLine)
    (hlast : req.lastWasValue = false) {before : List Str} {field : Str}
    (hfields : req.headerFields = before ++ [field]) (line : ParserLine) (pieces : List Str) :
    req.onEvents (pieces.map (.headerField line)) =
      { req with headerFields := before ++ [field ++ pieces.flatten] } := by
  induction pieces generalizing req field with
  | nil => simp [onEvents, ← hfields]
  | cons piece rest ih =>
      have hstep : (req.on (.headerField line piece)).1 =
          { req with headerFields := before ++ [field ++ piece] } := by
        simp [on, onHeaderField, hpart, hlast, hfields, appendLast]
      change ((req.on (.headerField line piece)).1).onEvents (rest.map (.headerField line)) = _
      rw [hstep, ih (by exact hpart) (by exact hlast) rfl]
      simp

theorem onEvents_moreValue {req : Request} (hlast : req.lastWasValue = true) {before : List Str}
    {value : Str} (hvalues : req.headerValues = before ++ [value]) (pieces : List Str) :
    req.onEvents (pieces.map .headerValue) =
      { req with headerValues := before ++ [value ++ pieces.flatten] } := by
  induction pieces generalizing req value with
  | nil => simp [onEvents, ← hvalues]
  | cons piece rest ih =>
      have hstep : (req.on (.headerValue piece)).1 =
          { req with headerValues := before ++ [value ++ piece] } := by
        simp [on, onHeaderValue, hlast, hvalues, appendLast]
      change ((req.on (.headerValue piece)).1).onEvents (rest.map .headerValue) = _
      rw [hstep, ih (by exact hlast) rfl]
      simp

-- A name and its value, each in as many pieces as there are.
theorem onEvents_header {req : Request} (hpart : req.parsePart ≠ .reqLine)
    (hlast : req.lastWasValue = true) (line : ParserLine) {header : List Str × List Str}
    (hname : header.1 ≠ []) (hvalue : header.2 ≠ []) :
    req.onEvents (Spelling.headerEvents line header) =
      { req with
        headerFields := req.headerFields ++ [header.1.flatten]
        headerValues := req.headerValues ++ [header.2.flatten] } := by
  obtain ⟨names, values⟩ := header
  obtain ⟨name, names, rfl⟩ := List.exists_cons_of_ne_nil hname
  obtain ⟨value, values, rfl⟩ := List.exists_cons_of_ne_nil hvalue
  have hfirst : (req.on (.headerField line name)).1 =
      { req with headerFields := req.headerFields ++ [name], lastWasValue := false } := by
    simp [on, onHeaderField, hpart, hlast]
  have hfields : req.onEvents ((name :: names).map (.headerField line)) =
      { req with
        headerFields := req.headerFields ++ [(name :: names).flatten], lastWasValue := false } := by
    change ((req.on (.headerField line name)).1).onEvents (names.map (.headerField line)) = _
    rw [hfirst, onEvents_moreField (by exact hpart) rfl rfl]
    rfl
  rw [Spelling.headerEvents, onEvents_append, hfields, List.map_cons]
  generalize hreq : ({ req with
    headerFields := req.headerFields ++ [(name :: names).flatten]
    lastWasValue := false } : Request) = mid
  have hvalues : (mid.on (.headerValue value)).1 =
      { mid with headerValues := mid.headerValues ++ [value], lastWasValue := true } := by
    subst hreq
    rfl
  change ((mid.on (.headerValue value)).1).onEvents (values.map .headerValue) = _
  rw [hvalues, onEvents_moreValue rfl rfl]
  subst hreq
  simp [hlast]

theorem onEvents_headers {req : Request} (hpart : req.parsePart ≠ .reqLine)
    (hlast : req.lastWasValue = true) (line : ParserLine) {headers : List (List Str × List Str)}
    (hnamed : ∀ header ∈ headers, header.1 ≠ [] ∧ header.2 ≠ []) :
    req.onEvents (headers.flatMap (Spelling.headerEvents line)) =
      { req with
        headerFields := req.headerFields ++ headers.map (·.1.flatten)
        headerValues := req.headerValues ++ headers.map (·.2.flatten) } := by
  induction headers generalizing req with
  | nil => simp [onEvents]
  | cons header rest ih =>
      have hheader := hnamed header (by simp)
      rw [List.flatMap_cons, onEvents_append, onEvents_header hpart hlast line hheader.1 hheader.2,
        ih (by exact hpart) (by exact hlast) fun other hother => hnamed other (by simp [hother])]
      simp

-- The first header ends the request line.
theorem onEvents_firstHeader {req : Request} (hpart : req.parsePart = .reqLine) (line : ParserLine)
    {headers : List (List Str × List Str)} (hheaders : headers ≠ [])
    (hnamed : ∀ header ∈ headers, header.1 ≠ [] ∧ header.2 ≠ []) :
    req.onEvents (headers.flatMap (Spelling.headerEvents line)) =
      (req.onRequestLine line).onEvents (headers.flatMap (Spelling.headerEvents line)) := by
  obtain ⟨⟨names, values⟩, rest, rfl⟩ := List.exists_cons_of_ne_nil hheaders
  obtain ⟨name, names, rfl⟩ := List.exists_cons_of_ne_nil (hnamed (names, values) (by simp)).1
  have hfirst : (req.on (.headerField line name)).1 =
      ((req.onRequestLine line).on (.headerField line name)).1 := by
    simp only [on, onHeaderField, if_pos hpart, if_neg (onRequestLine_parsePart req line)]
  simp only [List.flatMap_cons, Spelling.headerEvents, List.map_cons, List.cons_append, onEvents,
    List.foldl_cons, hfirst]

end Request

namespace Message

-- The request line, which is taken over at the first header.
def readLine (m : Message) (req : Request) : Request :=
  if req.parsePart = .reqLine ∧ m.headers ≠ [] then (req.onUrl m.url).onRequestLine m.line
  else req.onUrl m.url

-- The request behind the header, which is what it is in one piece.
def readHead (m : Message) (req : Request) : Request :=
  { m.readLine req with
    headerFields := req.headerFields ++ m.headers.map Prod.fst
    headerValues := req.headerValues ++ m.headers.map Prod.snd }

theorem readLine_eq (m : Message) (req : Request) :
    m.readLine req =
      { req with parsePart := (m.readLine req).parsePart, line := (m.readLine req).line } := by
  unfold readLine
  split <;> rfl

def read (m : Message) (req : Request) : Request :=
  ((m.readHead req).onHeadersComplete.1.onBody m.body).onMessageComplete

end Message

namespace Request

theorem onEvents_head {req : Request} (hready : req.Ready) {s : Spelling} (hnamed : s.Named) :
    req.onEvents s.head = s.message.readHead req := by
  have hfst : s.headers.map (·.1.flatten) = s.message.headers.map Prod.fst := by
    simp [Spelling.message, Function.comp_def]
  have hsnd : s.headers.map (·.2.flatten) = s.message.headers.map Prod.snd := by
    simp [Spelling.message, Function.comp_def]
  have hsome : s.message.headers ≠ [] ↔ s.headers ≠ [] := by simp [Spelling.message]
  rw [Spelling.head, onEvents_append, onEvents_url]
  change (req.onUrl s.message.url).onEvents _ = _
  by_cases hpart : req.parsePart = .reqLine
  · by_cases hheaders : s.headers = []
    · have hnone : s.message.headers = [] := by simp [Spelling.message, hheaders]
      have hline : s.message.readLine req = req.onUrl s.message.url :=
        if_neg fun h => h.2 hnone
      simp [Message.readHead, hline, hheaders, hnone, onEvents, onUrl]
    · have hline : s.message.readLine req = (req.onUrl s.message.url).onRequestLine s.line :=
        if_pos ⟨hpart, hsome.mpr hheaders⟩
      rw [onEvents_firstHeader (by exact hpart) s.line hheaders hnamed,
        onEvents_headers (onRequestLine_parsePart _ _) (by exact hready.lastWasValue) s.line hnamed,
        hfst, hsnd, Message.readHead, hline]
      rfl
  · have hline : s.message.readLine req = req.onUrl s.message.url := if_neg fun h => hpart h.1
    rw [onEvents_headers (by exact hpart) (by exact hready.lastWasValue) s.line hnamed, hfst, hsnd,
      Message.readHead, hline]
    rfl

-- However a request is handed out, what is left of it is the same.
theorem onEvents_spelling {req : Request} (hready : req.Ready) {s : Spelling} (hnamed : s.Named) :
    req.onEvents s.events = s.message.read req := by
  rw [Spelling.events, onEvents_append, onEvents_head hready hnamed]
  change ((s.message.readHead req).onHeadersComplete.1).onEvents _ = _
  rw [onEvents_append, onEvents_body]
  rfl

theorem smooth_spelling {req : Request} (hready : req.Ready) {s : Spelling} (hnamed : s.Named) :
    req.Smooth s.events ↔ (s.message.readHead req).onHeadersComplete.2 = 0 := by
  have hhead : .headersComplete ∉ s.head := by simp [Spelling.head, Spelling.headerEvents]
  have htail : .headersComplete ∉ s.body.map ParserEvent.body ++ [.messageComplete] := by simp
  rw [Spelling.events, smooth_append, onEvents_head hready hnamed]
  constructor
  · exact fun h => h.2.1
  · exact fun h => ⟨smooth_of_notMem hhead req, h, smooth_of_notMem htail _⟩

end Request

end VideoAdapter.Http
