import VideoAdapter.Http.Request.Delivery

namespace VideoAdapter.Http

namespace HttpParser

variable {Parser : Type*} (http : HttpParser Parser)

-- What the parser calls for one buffer after the other, and how much of each it takes.
def feed (parser : Parser) : List Str → List (List (ParserEvent × Nat) × Nat)
  | [] => []
  | buffer :: rest => (http.execute parser buffer).2 :: feed (http.execute parser buffer).1 rest

-- The buffers hold these events, and no request ends before the last of them.
structure Delivers (parser : Parser) (buffers : List Str) (events : List ParserEvent) : Prop where
  events : (http.feed parser buffers).flatMap (fun calls => calls.1.map Prod.fst) = events
  parsed : (http.feed parser buffers).map Prod.snd = buffers.map List.length
  unfinished : ∀ calls ∈ (http.feed parser buffers).dropLast,
    .messageComplete ∉ calls.1.map Prod.fst

-- `http_parser_execute` returns the position of the byte that ended the header when the callback for
-- it fails.
def StopsAtHeader : Prop :=
  ∀ (parser : Parser) (buffer : Str) (stopped : Nat),
    (.headersComplete, stopped) ∈ (http.execute parser buffer).2.1 → stopped < buffer.length

variable {http} {parser : Parser} {buffer : Str} {rest : List Str} {events : List ParserEvent}

theorem Delivers.step (h : http.Delivers parser (buffer :: rest) events) :
    ∃ later,
      events = (http.execute parser buffer).2.1.map Prod.fst ++ later ∧
      (http.execute parser buffer).2.2 = buffer.length ∧
      http.Delivers (http.execute parser buffer).1 rest later ∧
      (rest ≠ [] → .messageComplete ∉ (http.execute parser buffer).2.1.map Prod.fst) := by
  obtain ⟨hevents, hparsed, hunfinished⟩ := h
  simp only [feed, List.flatMap_cons, List.map_cons, List.cons.injEq] at hevents hparsed
  refine ⟨_, hevents.symm, hparsed.1, ⟨rfl, hparsed.2, ?_⟩, ?_⟩
  · intro calls hcalls
    apply hunfinished calls
    rw [feed]
    cases hfeed : http.feed (http.execute parser buffer).1 rest with
    | nil => rw [hfeed] at hcalls; cases hcalls
    | cons next others =>
        rw [hfeed] at hcalls
        rw [List.dropLast_cons_cons]
        exact List.mem_cons_of_mem _ hcalls
  · intro hrest
    obtain ⟨next, others, rfl⟩ := List.exists_cons_of_ne_nil hrest
    apply hunfinished (http.execute parser buffer).2
    rw [feed, feed, List.dropLast_cons_cons]
    exact List.mem_cons_self

end HttpParser

namespace Request

variable {Parser : Type*} (http : HttpParser Parser)

-- `parse_request` for one buffer after the other, as long as it needs more.
def parseAll (req : Request) (parser : Parser) : List Str → Request × Parser × Int
  | [] => (req, parser, NEED_MORE_STATUS)
  | buffer :: rest =>
      let (req, parser, result) := req.parseRequest http parser buffer
      if result = NEED_MORE_STATUS then req.parseAll parser rest else (req, parser, result)

theorem on_parsePart {req : Request} (hpart : req.parsePart ≠ .reqOver) {event : ParserEvent}
    (hevent : event ≠ .messageComplete) : (req.on event).1.parsePart ≠ .reqOver := by
  cases event with
  | url buf => exact hpart
  | headerField line buf =>
      simp only [on, onHeaderField]
      by_cases hline : req.parsePart = .reqLine
      · have hhead : (req.onRequestLine line).parsePart ≠ .reqOver := by
          change ParsePart.reqHead ≠ .reqOver
          decide
        simp only [if_pos hline]
        split <;> exact hhead
      · simp only [if_neg hline]
        split <;> exact hpart
  | headerValue buf => exact hpart
  | headersComplete =>
      change req.onHeadersComplete.1.parsePart ≠ .reqOver
      by_cases hlengths : req.headerFields.length = req.headerValues.length
      · by_cases hmissing : req.LengthMissing
        · rw [onHeadersComplete_of_missing hlengths hmissing]
          change ParsePart.reqHeadOver ≠ .reqOver
          decide
        · rw [onHeadersComplete_of_given hlengths hmissing]
          change ParsePart.reqHeadOver ≠ .reqOver
          decide
      · rw [onHeadersComplete, if_pos hlengths]
        exact hpart
  | body buf =>
      change ParsePart.reqBody ≠ .reqOver
      decide
  | messageComplete => exact absurd rfl hevent

theorem onEvents_parsePart {req : Request} (hpart : req.parsePart ≠ .reqOver)
    {events : List ParserEvent} (hevents : .messageComplete ∉ events) :
    (req.onEvents events).parsePart ≠ .reqOver := by
  induction events generalizing req with
  | nil => exact hpart
  | cons event rest ih =>
      obtain ⟨hevent, hrest⟩ := not_or.mp (mt List.mem_cons.mpr hevents)
      exact ih (on_parsePart hpart (Ne.symm hevent)) hrest

theorem on_parseErr {req : Request} {event : ParserEvent} (h : (req.on event).2 = 0) :
    (req.on event).1.parseErr = req.parseErr := by
  cases event with
  | headerField line buf =>
      simp only [on, onHeaderField]
      by_cases hline : req.parsePart = .reqLine
      · simp only [if_pos hline]
        split <;> rfl
      · simp only [if_neg hline]
        split <;> rfl
  | headersComplete =>
      change req.onHeadersComplete.2 = 0 at h
      change req.onHeadersComplete.1.parseErr = _
      by_cases hlengths : req.headerFields.length = req.headerValues.length
      · by_cases hmissing : req.LengthMissing
        · rw [onHeadersComplete_of_missing hlengths hmissing] at h
          exact absurd h (show (-1 : Int) ≠ 0 by decide)
        · rw [onHeadersComplete_of_given hlengths hmissing]
          rfl
      · rw [onHeadersComplete, if_pos hlengths]
  | _ => rfl

theorem onEvents_parseErr {req : Request} {events : List ParserEvent} (h : req.Smooth events) :
    (req.onEvents events).parseErr = req.parseErr := by
  induction events generalizing req with
  | nil => rfl
  | cons event rest ih =>
      obtain ⟨hevent, hrest⟩ := h
      change ((req.on event).1.onEvents rest).parseErr = _
      rw [ih hrest, on_parseErr hevent]

-- The header is where the callbacks fail.
theorem onAll_of_rough {req : Request} {calls : List (ParserEvent × Nat)}
    (h : ¬ req.Smooth (calls.map Prod.fst)) (nparsed : Nat) :
    ∃ stopped, (.headersComplete, stopped) ∈ calls ∧ (req.onAll calls nparsed).2 = stopped := by
  induction calls generalizing req with
  | nil => exact absurd trivial h
  | cons call rest ih =>
      obtain ⟨event, stopped⟩ := call
      by_cases hevent : (req.on event).2 = 0
      · have hrest : ¬ (req.on event).1.Smooth (rest.map Prod.fst) := fun hrest => h ⟨hevent, hrest⟩
        obtain ⟨stopped', hmem, hresult⟩ := ih hrest
        refine ⟨stopped', List.mem_cons_of_mem _ hmem, ?_⟩
        rw [onAll, if_pos hevent, hresult]
      · have hheader : event = .headersComplete := by
          cases event with
          | headersComplete => rfl
          | _ => exact absurd rfl hevent
        subst hheader
        refine ⟨stopped, List.mem_cons_self, ?_⟩
        rw [onAll, if_neg hevent]

variable {http} {parser : Parser} {req : Request} {buffer : Str}

theorem parseRequest_eq (hsize : req.totalReqSize + buffer.length ≤ MAX_REQ_SIZE) {next : Request}
    {nparsed : Nat}
    (hall : { req with totalReqSize := req.totalReqSize + buffer.length }.onAll
      (http.execute parser buffer).2.1 (http.execute parser buffer).2.2 = (next, nparsed)) :
    req.parseRequest http parser buffer =
      if nparsed ≠ buffer.length then (next, (http.execute parser buffer).1, -1)
      else if next.parseErr ≠ 0 then (next, (http.execute parser buffer).1, next.parseErr)
      else if next.parsePart ≠ .reqOver then
        (next, (http.execute parser buffer).1, NEED_MORE_STATUS)
      else (next, (http.execute parser buffer).1, 0) := by
  simp only [parseRequest, if_neg (Int.not_lt.mpr hsize), hall]

-- One buffer in which no callback fails.
theorem parseRequest_of_smooth
    (hsize : req.totalReqSize + buffer.length ≤ MAX_REQ_SIZE)
    (hsmooth : req.Smooth ((http.execute parser buffer).2.1.map Prod.fst))
    (hparsed : (http.execute parser buffer).2.2 = buffer.length) (herr : req.parseErr = 0) :
    req.parseRequest http parser buffer =
      ({ req.onEvents ((http.execute parser buffer).2.1.map Prod.fst) with
          totalReqSize := req.totalReqSize + buffer.length },
        (http.execute parser buffer).1,
        if (req.onEvents ((http.execute parser buffer).2.1.map Prod.fst)).parsePart = .reqOver then 0
        else NEED_MORE_STATUS) := by
  have hall := onAll_of_smooth ((smooth_withSize req _ (req.totalReqSize + buffer.length)).mpr hsmooth)
    (http.execute parser buffer).2.2
  rw [onEvents_withSize] at hall
  rw [parseRequest_eq hsize hall, if_neg (not_not.mpr hparsed),
    if_neg (not_not.mpr ((onEvents_parseErr hsmooth).trans herr))]
  by_cases hover :
      (req.onEvents ((http.execute parser buffer).2.1.map Prod.fst)).parsePart = .reqOver
  · rw [if_neg (not_not.mpr hover), if_pos hover]
  · rw [if_pos hover, if_neg hover]

-- One buffer in which a callback fails, or which is too much.
theorem parseRequest_of_rough (hstops : http.StopsAtHeader)
    (hrough : ¬ req.Smooth ((http.execute parser buffer).2.1.map Prod.fst)) :
    (req.parseRequest http parser buffer).2.2 = -1 := by
  by_cases hsize : req.totalReqSize + buffer.length > MAX_REQ_SIZE
  · simp only [parseRequest, if_pos hsize]
  · obtain ⟨stopped, hmem, hresult⟩ := onAll_of_rough
      (mt (smooth_withSize req _ (req.totalReqSize + buffer.length)).mp hrough)
      (http.execute parser buffer).2.2
    have hshort := hstops parser buffer stopped hmem
    simp only [parseRequest, if_neg hsize, hresult, if_pos (Nat.ne_of_lt hshort)]

-- The number for an answer 411 is not returned: where it is set, the parser has not taken the buffer.
theorem parseRequest_ne_lenRequired (hstops : http.StopsAtHeader) (herr : req.parseErr = 0)
    (parser : Parser) (buffer : Str) :
    (req.parseRequest http parser buffer).2.2 ≠ PARSE_LEN_REQUIRED ∧
      ((req.parseRequest http parser buffer).2.2 = NEED_MORE_STATUS →
        (req.parseRequest http parser buffer).1.parseErr = 0) := by
  by_cases hsmooth : req.Smooth ((http.execute parser buffer).2.1.map Prod.fst)
  · by_cases hsize : req.totalReqSize + buffer.length ≤ MAX_REQ_SIZE
    · have hnone := (onEvents_parseErr hsmooth).trans herr
      have hall := onAll_of_smooth
        ((smooth_withSize req _ (req.totalReqSize + buffer.length)).mpr hsmooth)
        (http.execute parser buffer).2.2
      rw [onEvents_withSize] at hall
      rw [parseRequest_eq hsize hall]
      split
      · exact ⟨show (-1 : Int) ≠ PARSE_LEN_REQUIRED by decide, fun _ => hnone⟩
      · rw [if_neg (not_not.mpr hnone)]
        split
        · exact ⟨show NEED_MORE_STATUS ≠ PARSE_LEN_REQUIRED by decide, fun _ => hnone⟩
        · exact ⟨show (0 : Int) ≠ PARSE_LEN_REQUIRED by decide, fun _ => hnone⟩
    · have hbig : (req.parseRequest http parser buffer).2.2 = -1 := by
        simp only [parseRequest, if_pos (Int.not_le.mp hsize)]
      rw [hbig]
      exact ⟨by decide, fun h => absurd h (by decide)⟩
  · rw [parseRequest_of_rough hstops hsmooth]
    exact ⟨by decide, fun h => absurd h (by decide)⟩

theorem parseAll_ne_lenRequired (hstops : http.StopsAtHeader) (herr : req.parseErr = 0)
    (buffers : List Str) : (req.parseAll http parser buffers).2.2 ≠ PARSE_LEN_REQUIRED := by
  induction buffers generalizing req parser with
  | nil =>
      change NEED_MORE_STATUS ≠ PARSE_LEN_REQUIRED
      decide
  | cons buffer rest ih =>
      obtain ⟨hnever, hmore⟩ := parseRequest_ne_lenRequired hstops herr parser buffer
      simp only [parseAll]
      split
      · rename_i h
        exact ih (hmore h)
      · exact hnever

variable {buffers : List Str} {events : List ParserEvent}

-- However a request is cut, it is read to its end, and what is left of it depends on the events alone.
theorem parseAll_of_smooth (hne : buffers ≠ []) (hd : http.Delivers parser buffers events)
    (hsmooth : req.Smooth events) (herr : req.parseErr = 0) (hpart : req.parsePart ≠ .reqOver)
    (hover : (req.onEvents events).parsePart = .reqOver)
    (hsize : req.totalReqSize + buffers.flatten.length ≤ MAX_REQ_SIZE) :
    ∃ parser',
      req.parseAll http parser buffers =
        ({ req.onEvents events with totalReqSize := req.totalReqSize + buffers.flatten.length },
          parser', 0) := by
  induction buffers generalizing req parser events with
  | nil => exact absurd rfl hne
  | cons buffer rest ih =>
      obtain ⟨later, rfl, hparsed, hlater, hunfinished⟩ := hd.step
      obtain ⟨hnow, hthen⟩ := (smooth_append req _ later).mp hsmooth
      rw [List.flatten_cons, List.length_append] at hsize
      have hfit : req.totalReqSize + buffer.length ≤ MAX_REQ_SIZE := by omega
      have hfirst := parseRequest_of_smooth hfit hnow hparsed herr
      rw [onEvents_append] at hover ⊢
      cases rest with
      | nil =>
          have hnone : later = [] := hlater.events.symm
          subst hnone
          rw [if_pos (by exact hover)] at hfirst
          refine ⟨(http.execute parser buffer).1, ?_⟩
          simp only [parseAll, hfirst]
          rw [if_neg (by decide)]
          simp [onEvents]
      | cons next others =>
          have hmore := onEvents_parsePart hpart (hunfinished (List.cons_ne_nil _ _))
          rw [if_neg hmore] at hfirst
          have hgoes := (smooth_withSize _ later (req.totalReqSize + buffer.length)).mpr hthen
          obtain ⟨parser', hrest⟩ := ih (List.cons_ne_nil _ _) hlater hgoes
            ((onEvents_parseErr hnow).trans herr) hmore
            (by rw [onEvents_withSize]; exact hover)
            (by change req.totalReqSize + buffer.length + _ ≤ MAX_REQ_SIZE; omega)
          refine ⟨parser', ?_⟩
          rw [parseAll, hfirst]
          change (if NEED_MORE_STATUS = NEED_MORE_STATUS then _ else _) = _
          rw [if_pos rfl, hrest, onEvents_withSize]
          simp only [List.flatten_cons, List.length_append, Int.natCast_add, Int.add_assoc]

-- A callback that fails is noticed in the buffer that holds its event, with the same answer each time.
theorem parseAll_of_rough (hstops : http.StopsAtHeader) (hd : http.Delivers parser buffers events)
    (hrough : ¬ req.Smooth events) (herr : req.parseErr = 0) (hpart : req.parsePart ≠ .reqOver) :
    (req.parseAll http parser buffers).2.2 = -1 := by
  induction buffers generalizing req parser events with
  | nil =>
      have hnone : events = [] := hd.events.symm
      exact absurd (hnone ▸ trivial) hrough
  | cons buffer rest ih =>
      obtain ⟨later, rfl, hparsed, hlater, hunfinished⟩ := hd.step
      by_cases hnow : req.Smooth ((http.execute parser buffer).2.1.map Prod.fst)
      · have hthen := fun h => hrough ((smooth_append req _ later).mpr ⟨hnow, h⟩)
        have hrest : rest ≠ [] := by
          rintro rfl
          exact hthen (hlater.events ▸ trivial)
        have hmore := onEvents_parsePart hpart (hunfinished hrest)
        by_cases hsize : req.totalReqSize + buffer.length ≤ MAX_REQ_SIZE
        · rw [parseAll, parseRequest_of_smooth hsize hnow hparsed herr]
          simp only [if_neg hmore, if_true]
          exact ih hlater (mt (smooth_withSize _ _ _).mp hthen) ((onEvents_parseErr hnow).trans herr)
            hmore
        · have hbig : (req.parseRequest http parser buffer).2.2 = -1 := by
            simp only [parseRequest, if_pos (Int.not_le.mp hsize)]
          simp only [parseAll, hbig]
          rfl
      · have hfail := parseRequest_of_rough hstops hnow
        simp only [parseAll, hfail]
        rfl

end Request

end VideoAdapter.Http
