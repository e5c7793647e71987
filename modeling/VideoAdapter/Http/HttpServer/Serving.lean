import VideoAdapter.Http.HttpServer.Delivery
import VideoAdapter.Http.Request.Theorems

namespace VideoAdapter.Http

namespace HttpEpollWatcher

variable {World Parser : Type*} (watcher : HttpEpollWatcher World Parser) (world : World)

-- `on_readable` for one buffer after the other, as long as it asks for more.
def readAll (ctx : HttpContext Parser) : List Str → HttpContext Parser × ReadRet
  | [] => (ctx, .readContinue)
  | buffer :: rest =>
      let (ctx, ret) := watcher.onReadable ctx { received := .bytes buffer, send := none, world := world }
      if ret = .readContinue then readAll ctx rest else (ctx, ret)

variable {watcher world} {ctx : HttpContext Parser} {buffer : Str} {buffers : List Str} {req : Request}
  {parser : Parser}

theorem onReadable_more (hbuffer : buffer ≠ [])
    (hparse : ctx.req.parseRequest watcher.http ctx.parser buffer = (req, parser, NEED_MORE_STATUS)) :
    watcher.onReadable ctx { received := .bytes buffer, send := none, world := world } =
      ({ ctx with req := req, parser := parser }, .readContinue) := by
  obtain ⟨c, rest, rfl⟩ := List.exists_cons_of_ne_nil hbuffer
  simp only [onReadable, hparse]
  rfl

theorem onReadable_over (hbuffer : buffer ≠ [])
    (hparse : ctx.req.parseRequest watcher.http ctx.parser buffer = (req, parser, 0)) :
    watcher.onReadable ctx { received := .bytes buffer, send := none, world := world } =
      ({ ctx with req := req, parser := parser, res := watcher.handleRequest world req ctx.res },
        .readOver) := by
  obtain ⟨c, rest, rfl⟩ := List.exists_cons_of_ne_nil hbuffer
  simp only [onReadable, hparse]
  rfl

-- A request that was parsed to its end is answered as soon as its last buffer is there.
theorem readAll_of_parseAll (hbuffers : ∀ buffer ∈ buffers, buffer ≠ [])
    (hparse : ctx.req.parseAll watcher.http ctx.parser buffers = (req, parser, 0)) :
    watcher.readAll world ctx buffers =
      ({ ctx with req := req, parser := parser, res := watcher.handleRequest world req ctx.res },
        .readOver) := by
  induction buffers generalizing ctx with
  | nil => cases hparse
  | cons buffer rest ih =>
      have hbuffer := hbuffers buffer List.mem_cons_self
      rw [Request.parseAll] at hparse
      rcases hone : ctx.req.parseRequest watcher.http ctx.parser buffer with ⟨req', parser', ret⟩
      rw [hone] at hparse
      dsimp only at hparse
      by_cases hmore : ret = NEED_MORE_STATUS
      · subst hmore
        rw [if_pos rfl] at hparse
        rw [readAll, onReadable_more hbuffer hone]
        exact ih (fun other hother => hbuffers other (List.mem_cons_of_mem _ hother)) hparse
      · rw [if_neg hmore] at hparse
        cases hparse
        rw [readAll, onReadable_over hbuffer hone]
        rfl

theorem handleRequest_without_method (hmethod : req.line.method = [])
    (hnames : ∀ entry ∈ watcher.resourceMap, [] ∉ entry.2.methodNames) (res : Response) :
    (watcher.handleRequest world req res).codeMsg =
      if (watcher.resourceMap.lookup req.line.getRequestUri).isSome then STATUS_METHOD_NOT_ALLOWED
      else STATUS_NOT_FOUND := by
  unfold handleRequest
  cases hlookup : watcher.resourceMap.lookup req.line.getRequestUri with
  | none => rfl
  | some resource =>
      obtain ⟨before, behind, hmap, -⟩ := List.lookup_eq_some_iff.mp hlookup
      have hname := hnames (req.line.getRequestUri, resource) (by rw [hmap]; simp)
      dsimp only
      rw [hmethod, if_pos hname]
      rfl

def cutExchange : List (Str × List (ParserEvent × Nat)) :=
  [("GET /a?x=1 HTTP/1.1\r\nHo".toList,
      [(.url "/a?x=1".toList, 11), (.headerField ⟨1, 1, 1⟩ "Ho".toList, 23)]),
    ("st: h\r\n\r\n".toList,
      [(.headerField ⟨1, 1, 1⟩ "st".toList, 3), (.headerValue "h".toList, 6), (.headersComplete, 8),
        (.messageComplete, 9)])]

def echoServer (exchange : List (Str × List (ParserEvent × Nat))) : HttpEpollWatcher Unit Nat where
  http := Request.recorded exchange
  resourceMap :=
    [("/a".toList,
      { methodNames := ["GET".toList], jsonPtr := some fun _ req => req.getUnescapeParam "x".toList })]

def cutMessage : Message where
  line := ⟨1, 1, 1⟩
  url := "/a?x=1".toList
  headers := [("Host".toList, "h".toList)]
  body := []

-- A request without a header is never given to a handler, as its method is not looked at.
theorem readAll_headerless {s : Spelling} (hnone : s.headers = [])
    (hd : watcher.http.Delivers watcher.http.init buffers s.events)
    (hsize : buffers.flatten.length ≤ MAX_REQ_SIZE) (hbuffers : ∀ buffer ∈ buffers, buffer ≠ [])
    (hnames : ∀ entry ∈ watcher.resourceMap, [] ∉ entry.2.methodNames) (fd : Nat) :
    ∃ ctx, watcher.readAll world (watcher.newContext fd) buffers = (ctx, .readOver) ∧
      ctx.res.codeMsg =
        (if (watcher.resourceMap.lookup s.message.requestLine.getRequestUri).isSome then
          STATUS_METHOD_NOT_ALLOWED
        else STATUS_NOT_FOUND) ∧
      ∃ rest, (begin ctx).text = ' ' :: rest := by
  have hnamed : s.Named := by simp [Spelling.Named, hnone]
  have hheaders : s.message.headers = [] := by simp [Spelling.message, hnone]
  have hline : s.message.requestLine = { requestUrl := s.message.url } := if_pos hheaders
  have hframed : ¬ s.message.Unframed := fun h => h.1 hheaders
  obtain ⟨parser, hparse⟩ := Request.parseAll_of_spelling hnamed hd hframed hsize
  have hstart : (watcher.newContext fd).req.parseAll watcher.http (watcher.newContext fd).parser
      buffers = _ := hparse
  refine ⟨_, readAll_of_parseAll hbuffers hstart, ?_, ?_⟩
  · apply handleRequest_without_method
    · change s.message.requestLine.method = []
      rw [hline]
    · exact hnames
  · have hversion : (s.message.request buffers.flatten.length).line.httpVersion = [] := by
      change s.message.requestLine.httpVersion = []
      rw [hline]
    rw [Delivery.text, begin]
    dsimp only
    rw [hversion]
    exact ⟨_, rfl⟩

def headerlessExchange : List (Str × List (ParserEvent × Nat)) :=
  [("GET /a HTTP/1.0\r\n\r\n".toList,
    [(.url "/a".toList, 7), (.headersComplete, 18), (.messageComplete, 19)])]

theorem readAll_headerless_get :
    ∃ ctx, (echoServer headerlessExchange).readAll () ((echoServer headerlessExchange).newContext 5)
        (headerlessExchange.map Prod.fst) = (ctx, .readOver) ∧
      ctx.res.codeMsg =
        (if ((echoServer headerlessExchange).resourceMap.lookup "/a".toList).isSome then
          STATUS_METHOD_NOT_ALLOWED
        else STATUS_NOT_FOUND) ∧
      ∃ rest, (begin ctx).text = ' ' :: rest :=
  @readAll_headerless _ _ (echoServer headerlessExchange) () _ ⟨⟨1, 1, 0⟩, ["/a".toList], [], []⟩ rfl
    ⟨by decide +kernel, by decide +kernel, by decide +kernel⟩ (by decide +kernel) (by decide +kernel)
    (by simp [echoServer]) 5

end HttpEpollWatcher

end VideoAdapter.Http
