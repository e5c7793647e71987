import VideoAdapter.Http.Request.Reading

namespace VideoAdapter.Http

section Map

theorem mapGet_mapSet (map : List (Str × Str)) (name value other : Str) :
    mapGet (mapSet map name value) other = if other = name then value else mapGet map other := by
  induction map with
  | nil =>
      by_cases hother : other = name
      · subst hother
        simp [mapSet, mapGet]
      · have hne : (other == name) = false := by simp [hother]
        simp [mapSet, mapGet, hother, List.lookup_cons, hne]
  | cons entry rest ih =>
      obtain ⟨key, old⟩ := entry
      unfold mapGet at ih ⊢
      rw [mapSet]
      by_cases hkey : name = key
      · subst hkey
        rw [if_pos rfl]
        by_cases hother : other = name
        · subst hother
          simp
        · have hne : (other == name) = false := by simp [hother]
          simp [List.lookup_cons, hne, hother]
      · rw [if_neg hkey]
        split
        · by_cases hother : other = name
          · subst hother
            simp
          · have hne : (other == name) = false := by simp [hother]
            simp [List.lookup_cons, hne, hother]
        · by_cases hfound : other = key
          · subst hfound
            simp [Ne.symm hkey]
          · have hne : (other == key) = false := by simp [hfound]
            simp only [List.lookup_cons, hne, ih]

-- The value of the last header of a name.
def lastValue (headers : List (Str × Str)) (name : Str) : Option Str :=
  (headers.reverse.find? fun header => header.1 = name).map Prod.snd

theorem lastValue_append (first second : List (Str × Str)) (name : Str) :
    lastValue (first ++ second) name = (lastValue second name).or (lastValue first name) := by
  simp [lastValue, List.find?_append, Option.map_or]

theorem lastValue_mem {headers : List (Str × Str)} {name value : Str}
    (h : lastValue headers name = some value) : (name, value) ∈ headers := by
  obtain ⟨⟨key, held⟩, hfind, rfl⟩ := Option.map_eq_some_iff.mp h
  have hkey := List.find?_some hfind
  have hmem := List.mem_of_find?_eq_some hfind
  simp only [decide_eq_true_eq] at hkey
  subst hkey
  exact List.mem_reverse.mp hmem

theorem mapGet_foldl (headers map : List (Str × Str)) (name : Str) :
    mapGet (headers.foldl (fun map header => mapSet map header.1 header.2) map) name =
      (lastValue headers name).getD (mapGet map name) := by
  induction headers generalizing map with
  | nil => rfl
  | cons header rest ih =>
      have happend := lastValue_append [header] rest name
      rw [List.singleton_append] at happend
      rw [List.foldl_cons, ih, mapGet_mapSet, happend]
      cases lastValue rest name with
      | some value => rfl
      | none =>
          by_cases hname : name = header.1
          · simp [lastValue, hname]
          · simp [lastValue, hname, Ne.symm hname]

end Map

def ParserLine.methodName (line : ParserLine) : Str :=
  if line.method = 1 then "GET".toList else if line.method = 3 then "POST".toList else []

def ParserLine.versionName (line : ParserLine) : Str :=
  if line.httpMajor = 1 ∧ line.httpMinor = 0 then "HTTP/1.0".toList
  else if line.httpMajor = 1 ∧ line.httpMinor = 1 then "HTTP/1.1".toList
  else []

def queryParams (url : Str) : List (Str × Str) :=
  match url.splitOn '?' with
  | _ :: query :: _ => parseQueryUrl [] query
  | _ => []

namespace Message

def header (m : Message) (name : Str) : Str := (lastValue m.headers name).getD []

-- The request line is taken over at the first header. Without one only the URL is known.
def requestLine (m : Message) : RequestLine :=
  if m.headers = [] then { requestUrl := m.url }
  else
    { param := queryParams m.url
      method := m.line.methodName
      requestUrl := m.url
      httpVersion := m.line.versionName }

def requestBody (m : Message) : RequestBody :=
  let contentType := m.header "Content-Type".toList
  let body : RequestBody := { rawString := m.body }
  let body :=
    if contentType = "application/x-www-form-urlencoded".toList ∧ m.body ≠ [] then
      { body with reqParams := parseQueryUrl [] m.body }
    else body
  if (Lib.findWord "multipart/form-data".toList contentType).isSome then
    ssParseMultipartData contentType body
  else body

-- What the server has of a message when it has read it.
def request (m : Message) (size : Int) : Request where
  parsePart := .reqOver
  totalReqSize := size
  headerFields := m.headers.map Prod.fst
  headerValues := m.headers.map Prod.snd
  line := m.requestLine
  headers := m.headers.foldl (fun map header => mapSet map header.1 header.2) []
  body := m.requestBody

def Unframed (m : Message) : Prop :=
  m.headers ≠ [] ∧ m.line.method = 3 ∧ m.header "Content-Length".toList = []

instance (m : Message) : Decidable m.Unframed := inferInstanceAs (Decidable (_ ∧ _ ∧ _))

theorem getHeader_request (m : Message) (size : Int) (name : Str) :
    (m.request size).getHeader name = m.header name :=
  mapGet_foldl m.headers [] name

end Message

namespace Request

theorem zip_headers (headers : List (Str × Str)) :
    (headers.map Prod.fst).zip (headers.map Prod.snd) = headers := by
  simp [List.zip_map']

theorem ready_empty : ({} : Request).Ready := ⟨rfl, rfl⟩

theorem readHead_ready {req : Request} (hready : req.Ready) (m : Message) : (m.readHead req).Ready := by
  obtain ⟨hlast, hlengths⟩ := hready
  rw [Message.readHead, Message.readLine_eq]
  exact ⟨hlast, by simp [hlengths]⟩

-- What is in the header after all requests that were read.
theorem getHeader_headed {req : Request} (hready : req.Ready) (m : Message) (name : Str) :
    (m.readHead req).headed.getHeader name =
      (lastValue (req.headerFields.zip req.headerValues ++ m.headers) name).getD
        (req.getHeader name) := by
  have hzip : (m.readHead req).headerFields.zip (m.readHead req).headerValues =
      req.headerFields.zip req.headerValues ++ m.headers := by
    change (req.headerFields ++ m.headers.map Prod.fst).zip
      (req.headerValues ++ m.headers.map Prod.snd) = _
    rw [List.zip_append hready.lengths, zip_headers]
  have hmap : (m.readHead req).headers = req.headers := by
    rw [Message.readHead, Message.readLine_eq]
  change mapGet (((m.readHead req).headerFields.zip (m.readHead req).headerValues).foldl
    (fun map header => mapSet map header.1 header.2) (m.readHead req).headers) name = _
  rw [hzip, hmap, mapGet_foldl]
  rfl

theorem parseRequestUrlParams_eq {line : RequestLine} (hparam : line.param = []) :
    line.parseRequestUrlParams = { line with param := queryParams line.requestUrl } := by
  obtain ⟨param, method, requestUrl, httpVersion⟩ := line
  change param = [] at hparam
  subst hparam
  unfold RequestLine.parseRequestUrlParams queryParams
  rcases requestUrl.splitOn '?' with _ | ⟨uri, _ | ⟨query, rest⟩⟩ <;> rfl

theorem line_readLine (m : Message) : (m.readLine {}).line = m.requestLine := by
  unfold Message.readLine Message.requestLine
  by_cases hheaders : m.headers = []
  · rw [if_neg fun h => h.2 hheaders, if_pos hheaders]
    rfl
  · let line : RequestLine := { method := m.line.methodName, requestUrl := m.url }
    have hline : ((({} : Request).onUrl m.url).onRequestLine m.line).line =
        { line.parseRequestUrlParams with
          httpVersion :=
            if m.line.httpMajor = 1 ∧ m.line.httpMinor = 0 then "HTTP/1.0".toList
            else if m.line.httpMajor = 1 ∧ m.line.httpMinor = 1 then "HTTP/1.1".toList
            else line.parseRequestUrlParams.httpVersion } := rfl
    rw [if_pos ⟨rfl, hheaders⟩, if_neg hheaders, hline, parseRequestUrlParams_eq rfl]
    rfl

theorem headed_readHead (m : Message) :
    (m.readHead {}).headed =
      { parsePart := .reqHeadOver
        headerFields := m.headers.map Prod.fst
        headerValues := m.headers.map Prod.snd
        line := m.requestLine
        headers := m.headers.foldl (fun map header => mapSet map header.1 header.2) [] } := by
  unfold headed
  rw [Message.readHead, Message.readLine_eq, line_readLine]
  simp [addHeaders, zip_headers]

theorem lengthMissing_readHead (m : Message) : (m.readHead {}).LengthMissing ↔ m.Unframed := by
  have hline : (m.readHead {}).line = m.requestLine := line_readLine m
  have hlength := getHeader_headed ready_empty m "Content-Length".toList
  change _ = (lastValue m.headers "Content-Length".toList).getD [] at hlength
  unfold LengthMissing Message.Unframed Message.header
  rw [hline, hlength, Message.requestLine]
  by_cases hheaders : m.headers = []
  · simp [hheaders]
  · rw [if_neg hheaders]
    have hpost : m.line.methodName = "POST".toList ↔ m.line.method = 3 := by
      unfold ParserLine.methodName
      by_cases hget : m.line.method = 1
      · simp [hget]
      · by_cases hthree : m.line.method = 3
        · simp [hthree]
        · simp [hget, hthree]
    simp only [hpost, ne_eq, hheaders, not_false_eq_true, true_and]

theorem read_eq_request {m : Message} (hframed : ¬ m.Unframed) : m.read {} = m.request 0 := by
  have hlengths := (readHead_ready ready_empty m).lengths
  have hgiven := mt (lengthMissing_readHead m).mp hframed
  have htype := mapGet_foldl m.headers [] "Content-Type".toList
  rw [Message.read, onHeadersComplete_of_given hlengths hgiven, headed_readHead]
  unfold onMessageComplete getHeader onBody Message.request Message.requestBody
  dsimp only
  rw [htype]
  rfl

variable {Parser : Type*} {http : HttpParser Parser} {buffers : List Str}

theorem delivers_ne_nil {events : List ParserEvent} (hd : http.Delivers http.init buffers events)
    (hevents : events ≠ []) : buffers ≠ [] := by
  rintro rfl
  exact hevents hd.events.symm

-- A request is what its client meant, however it is cut on its way and however the parser hands it out.
theorem parseAll_of_spelling {s : Spelling} (hnamed : s.Named)
    (hd : http.Delivers http.init buffers s.events) (hframed : ¬ s.message.Unframed)
    (hsize : buffers.flatten.length ≤ MAX_REQ_SIZE) :
    ∃ parser, ({} : Request).parseAll http http.init buffers =
      (s.message.request buffers.flatten.length, parser, 0) := by
  have hread := (onEvents_spelling ready_empty hnamed).trans (read_eq_request hframed)
  have hgiven := onHeadersComplete_of_given (readHead_ready ready_empty s.message).lengths
    (mt (lengthMissing_readHead s.message).mp hframed)
  have hsmooth := (smooth_spelling ready_empty hnamed).mpr (congrArg Prod.snd hgiven)
  have hne := delivers_ne_nil hd (by simp [Spelling.events])
  have hstart : (0 : Int) + buffers.flatten.length = buffers.flatten.length := by omega
  obtain ⟨parser, hall⟩ := parseAll_of_smooth hne hd hsmooth rfl (by decide)
    (by rw [hread]; rfl) (by change (0 : Int) + _ ≤ _; omega)
  refine ⟨parser, hall.trans ?_⟩
  rw [hread]
  change ({ s.message.request 0 with totalReqSize := (0 : Int) + buffers.flatten.length }, _, _) = _
  rw [hstart]
  rfl

-- A parser that knows the buffers of one connection and takes nothing of any other.
def recorded (exchange : List (Str × List (ParserEvent × Nat))) : HttpParser Nat where
  init := 0
  execute n buffer :=
    match exchange[n]? with
    | some (known, calls) => if known = buffer then (n + 1, calls, buffer.length) else (n, [], 0)
    | none => (n, [], 0)

theorem stopsAtHeader_recorded {exchange : List (Str × List (ParserEvent × Nat))}
    (h : ∀ entry ∈ exchange, ∀ call ∈ entry.2, call.1 = .headersComplete → call.2 < entry.1.length) :
    (recorded exchange).StopsAtHeader := by
  intro n buffer stopped hmem
  unfold recorded at hmem
  dsimp only at hmem
  cases hentry : exchange[n]? with
  | none =>
      rw [hentry] at hmem
      cases hmem
  | some entry =>
      rw [hentry] at hmem
      dsimp only at hmem
      split at hmem
      · rename_i hknown
        rw [← hknown]
        exact h entry (List.mem_of_getElem? hentry) _ hmem rfl
      · cases hmem

def unframedExchange : List (Str × List (ParserEvent × Nat)) :=
  [("POST /a HTTP/1.1\r\nHost: h\r\n\r\n".toList,
    [(.url "/a".toList, 8), (.headerField ⟨3, 1, 1⟩ "Host".toList, 23), (.headerValue "h".toList, 26),
      (.headersComplete, 28), (.messageComplete, 29)])]

-- What is left of requests that were read one after the other.
structure Gathered (req : Request) (first : Message) (messages : List Message) : Prop where
  ready : req.Ready
  finished : req.parsePart = .reqOver
  parseErr : req.parseErr = 0
  headers : req.headerFields.zip req.headerValues = messages.flatMap Message.headers
  values : ∀ name, req.getHeader name = (lastValue (messages.flatMap Message.headers) name).getD []
  url : req.line.requestUrl = messages.flatMap Message.url
  method : req.line.method = first.requestLine.method

theorem Gathered.begun {req : Request} {first : Message} {messages : List Message}
    (h : req.Gathered first messages) : req.parsePart ≠ .reqLine := by
  rw [h.finished]
  decide

theorem gathered_first {first : Message} (hframed : ¬ first.Unframed) :
    (first.read {}).Gathered first [first] := by
  rw [read_eq_request hframed]
  constructor
  · exact ⟨rfl, by simp [Message.request]⟩
  · rfl
  · rfl
  · change (first.headers.map Prod.fst).zip (first.headers.map Prod.snd) = _
    simp [zip_headers]
  · intro name
    rw [first.getHeader_request]
    simp [Message.header]
  · change first.requestLine.requestUrl = _
    unfold Message.requestLine
    split <;> simp
  · rfl

-- The next request is read into the one that is there: its method and its version are not looked at.
theorem Gathered.read {req : Request} {first : Message} {messages : List Message}
    (h : req.Gathered first messages) (m : Message) (hgiven : ¬ (m.readHead req).LengthMissing) :
    (m.read req).Gathered first (messages ++ [m]) := by
  have hline : m.readLine req = req.onUrl m.url := if_neg fun hno => h.begun hno.1
  have hready := readHead_ready h.ready m
  have hheader := getHeader_headed h.ready m
  have hread : m.read req = ((m.readHead req).headed.onBody m.body).onMessageComplete := by
    rw [Message.read, onHeadersComplete_of_given hready.lengths hgiven]
  rw [hread]
  constructor
  · exact ⟨hready.lastWasValue, hready.lengths⟩
  · rfl
  · change (m.readLine req).parseErr = 0
    rw [hline]
    exact h.parseErr
  · change (req.headerFields ++ m.headers.map Prod.fst).zip
      (req.headerValues ++ m.headers.map Prod.snd) = _
    rw [List.zip_append h.ready.lengths, zip_headers, h.headers]
    simp
  · intro name
    change (m.readHead req).headed.getHeader name = _
    rw [hheader, h.headers, h.values, List.flatMap_append, List.flatMap_singleton, lastValue_append]
    cases lastValue m.headers name with
    | some value => rfl
    | none => cases lastValue (messages.flatMap Message.headers) name <;> rfl
  · change (m.readLine req).line.requestUrl = _
    rw [hline]
    change req.line.requestUrl ++ m.url = _
    rw [h.url]
    simp
  · change (m.readLine req).line.method = _
    rw [hline]
    exact h.method

-- A length that was given stays.
theorem Gathered.given {req : Request} {first : Message} {messages : List Message}
    (h : req.Gathered first messages)
    (hkept : req.line.method = "POST".toList → req.getHeader "Content-Length".toList ≠ []) {m : Message}
    (hlength : ∀ value, ("Content-Length".toList, value) ∈ m.headers → value ≠ []) :
    req.line.method = "POST".toList →
      (m.readHead req).headed.getHeader "Content-Length".toList ≠ [] := by
  intro hpost
  have hbefore := hkept hpost
  rw [h.values] at hbefore
  rw [getHeader_headed h.ready, h.headers, lastValue_append]
  cases hlast : lastValue m.headers "Content-Length".toList with
  | some value => exact hlength value (lastValue_mem hlast)
  | none =>
      cases hold : lastValue (messages.flatMap Message.headers) "Content-Length".toList with
      | some value => rw [hold] at hbefore; exact hbefore
      | none => rw [hold] at hbefore; exact absurd rfl hbefore

theorem Gathered.onEvents {req : Request} {first : Message} {messages : List Message}
    (h : req.Gathered first messages)
    (hkept : req.line.method = "POST".toList → req.getHeader "Content-Length".toList ≠ [])
    {rest : List Spelling} (hnamed : ∀ s ∈ rest, s.Named)
    (hlength : ∀ s ∈ rest, ∀ value,
      ("Content-Length".toList, value) ∈ s.message.headers → value ≠ []) :
    req.Smooth (rest.flatMap Spelling.events) ∧
      (req.onEvents (rest.flatMap Spelling.events)).Gathered first
        (messages ++ rest.map Spelling.message) := by
  induction rest generalizing req messages with
  | nil => exact ⟨trivial, by simpa [Request.onEvents] using h⟩
  | cons s rest ih =>
      have hs := hnamed s (by simp)
      have hgiven := h.given hkept (hlength s (by simp))
      have hline : (s.message.readHead req).line.method = req.line.method := by
        change (s.message.readLine req).line.method = _
        rw [Message.readLine, if_neg fun hno => h.begun hno.1]
        rfl
      have hmissing : ¬ (s.message.readHead req).LengthMissing :=
        fun hno => hgiven (hline.symm.trans hno.1) hno.2
      have hcomplete := onHeadersComplete_of_given (readHead_ready h.ready s.message).lengths hmissing
      have hread : (s.message.read req) =
          ((s.message.readHead req).headed.onBody s.message.body).onMessageComplete := by
        rw [Message.read, hcomplete]
      obtain ⟨hsmooth, hgathered⟩ := ih (h.read s.message hmissing)
        (by
          rw [hread]
          exact fun hpost => hgiven (hline.symm.trans hpost))
        (fun other hother => hnamed other (by simp [hother]))
        (fun other hother => hlength other (by simp [hother]))
      rw [List.flatMap_cons, smooth_append, onEvents_append, onEvents_spelling h.ready hs,
        smooth_spelling h.ready hs]
      refine ⟨⟨congrArg Prod.snd hcomplete, hsmooth⟩, ?_⟩
      rw [List.map_cons, ← List.singleton_append, ← List.append_assoc]
      exact hgathered

def pipelinedExchange : List (Str × List (ParserEvent × Nat)) :=
  [("GET /a HTTP/1.1\r\nHost: h\r\n\r\nGET /b HTTP/1.1\r\nHost: h\r\n\r\n".toList,
    [(.url "/a".toList, 7), (.headerField ⟨1, 1, 1⟩ "Host".toList, 22), (.headerValue "h".toList, 25),
      (.headersComplete, 27), (.messageComplete, 28), (.url "/b".toList, 35),
      (.headerField ⟨1, 1, 1⟩ "Host".toList, 50), (.headerValue "h".toList, 53), (.headersComplete, 55),
      (.messageComplete, 56)])]

end Request

end VideoAdapter.Http
