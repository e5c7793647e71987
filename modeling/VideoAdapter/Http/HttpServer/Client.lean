import VideoAdapter.Http.HttpServer.Theorems
import VideoAdapter.Lib.Lines

namespace VideoAdapter.Http

open Lib

-- A client: it reads the head of a response, and then as many bytes as the head says.
section Client

def headerOf (line : Str) : Str × Str :=
  (line.takeWhile (· ≠ ':'), (line.dropWhile (· ≠ ':')).drop 2)

def contentLength (lines : List Str) : Option Nat :=
  (lines.find? fun line => sameText (headerOf line).1 "Content-Length".toList).map
    fun line => Nat.ofDigitChars 10 (headerOf line).2 0

def readResponse (wire : Str) : Option (Str × Str) :=
  match readHead CR LF wire with
  | none => none
  | some (lines, rest) =>
      match contentLength lines.tail with
      | none => none
      | some length => if length ≤ rest.length then some (rest.take length, rest.drop length) else none

end Client

namespace Response

def statusLine (res : Response) (httpVersion : Str) : Str :=
  httpVersion ++ " ".toList ++ (toString res.codeMsg.statusCode).toList ++ " ".toList ++ res.codeMsg.msg

def headerLine (header : Str × Str) : Str := header.1 ++ ": ".toList ++ header.2

-- The lines of a response in front of its `Content-Length`, and behind it.
def linesBefore (res : Response) : List Str :=
  headerLine ("Server".toList, "ehttp/".toList ++ EHTTP_VERSION) ::
    if res.hasHead "Content-Type".toList then []
    else [headerLine ("Content-Type".toList, "application/json; charset=UTF-8".toList)]

def lengthLine (res : Response) : Str :=
  headerLine ("Content-Length".toList, (toString res.body.length).toList)

def linesBehind (res : Response) (isKeepalive : Bool) : List Str :=
  (if isKeepalive then headerLine ("Connection".toList, "Keep-Alive".toList)
    else headerLine ("Connection".toList, "close".toList)) :: res.headers.map headerLine

def headLines (res : Response) (httpVersion : Str) (isKeepalive : Bool) : List Str :=
  res.statusLine httpVersion :: (res.linesBefore ++ res.lengthLine :: res.linesBehind isKeepalive)

theorem headLine_eq (header : Str × Str) : headLine header = writeLine CR LF (headerLine header) := rfl

theorem flatMap_headLine (headers : List (Str × Str)) :
    headers.flatMap headLine = (headers.map headerLine).flatMap (writeLine CR LF) := by
  rw [List.flatMap_map]
  rfl

theorem genHead_eq {res : Response} (hlength : res.hasHead "Content-Length".toList = false)
    (httpVersion : Str) (isKeepalive : Bool) :
    res.genHead httpVersion isKeepalive =
      (res.headLines httpVersion isKeepalive).flatMap (writeLine CR LF) ++ writeLine CR LF [] := by
  have hconnection :
      (if isKeepalive then headLine ("Connection".toList, "Keep-Alive".toList)
        else headLine ("Connection".toList, "close".toList)) =
      writeLine CR LF (if isKeepalive then headerLine ("Connection".toList, "Keep-Alive".toList)
        else headerLine ("Connection".toList, "close".toList)) := by
    cases isKeepalive <;> rfl
  have htype :
      (if res.hasHead "Content-Type".toList then []
        else headLine ("Content-Type".toList, "application/json; charset=UTF-8".toList)) =
      (if res.hasHead "Content-Type".toList then []
        else [headerLine ("Content-Type".toList, "application/json; charset=UTF-8".toList)]).flatMap
        (writeLine CR LF) := by
    split
    · rfl
    · rw [List.flatMap_singleton, headLine_eq]
  have hstatus : writeLine CR LF (res.statusLine httpVersion) =
      httpVersion ++ " ".toList ++ (toString res.codeMsg.statusCode).toList ++ " ".toList ++
        res.codeMsg.msg ++ CRLF := rfl
  unfold genHead headLines linesBefore linesBehind
  rw [hlength, hconnection, htype, flatMap_headLine]
  simp only [List.flatMap_cons, List.flatMap_append, List.append_assoc, Bool.false_eq_true, if_false,
    hstatus]
  rfl

theorem notMem_toString {c : Char} (hdigit : c.isDigit = false) (hminus : c ≠ '-') (n : Int) :
    c ∉ (toString n).toList := by
  have hnat (k : Nat) : c ∉ k.repr.toList := by
    intro hmem
    rw [Nat.toList_repr] at hmem
    have hc := Nat.isDigit_of_mem_toDigits (by decide) (by decide) hmem
    exact Bool.noConfusion (hdigit.symm.trans hc)
  cases n with
  | ofNat n => exact hnat n
  | negSucc n =>
      intro hmem
      have htext : (toString (Int.negSucc n)).toList = "-".toList ++ (n + 1).repr.toList :=
        String.toList_append
      rw [htext, List.mem_append] at hmem
      rcases hmem with h | h
      · exact hminus (List.mem_singleton.mp h)
      · exact hnat (n + 1) h

-- What a handler has put into a response that a client can read.
structure Plain (res : Response) (httpVersion : Str) : Prop where
  httpVersion : CR ∉ httpVersion
  msg : CR ∉ res.codeMsg.msg
  headers : ∀ header ∈ res.headers, CR ∉ header.1 ∧ CR ∉ header.2
  framed : res.hasHead "Content-Length".toList = false

instance (res : Response) (httpVersion : Str) : Decidable (res.Plain httpVersion) :=
  decidable_of_iff (CR ∉ httpVersion ∧ CR ∉ res.codeMsg.msg ∧
    (∀ header ∈ res.headers, CR ∉ header.1 ∧ CR ∉ header.2) ∧
      res.hasHead "Content-Length".toList = false)
    ⟨fun h => ⟨h.1, h.2.1, h.2.2.1, h.2.2.2⟩, fun h => ⟨h.1, h.2, h.3, h.4⟩⟩

theorem headerLine_readable {header : Str × Str} (hname : CR ∉ header.1) (hvalue : CR ∉ header.2) :
    headerLine header ≠ [] ∧ CR ∉ headerLine header := by
  refine ⟨by simp [headerLine], ?_⟩
  simp only [headerLine, List.mem_append, not_or]
  exact ⟨⟨hname, by decide⟩, hvalue⟩

theorem headLines_readable {res : Response} {httpVersion : Str} (h : res.Plain httpVersion)
    (isKeepalive : Bool) :
    ∀ line ∈ res.headLines httpVersion isKeepalive, line ≠ [] ∧ CR ∉ line := by
  have hstatus : res.statusLine httpVersion ≠ [] ∧ CR ∉ res.statusLine httpVersion := by
    refine ⟨by simp [statusLine], ?_⟩
    have hcode : CR ∉ (toString res.codeMsg.statusCode).toList := notMem_toString (by decide) (by decide) _
    simp only [statusLine, List.mem_append, not_or]
    exact ⟨⟨⟨⟨h.httpVersion, by decide⟩, hcode⟩, by decide⟩, h.msg⟩
  intro line hline
  rcases List.mem_cons.mp hline with rfl | hline
  · exact hstatus
  rcases List.mem_append.mp hline with hbefore | hline
  · rcases List.mem_cons.mp hbefore with rfl | htype
    · exact headerLine_readable (by decide) (by decide)
    · split at htype
      · cases htype
      · rw [List.mem_singleton.mp htype]
        exact headerLine_readable (by decide) (by decide)
  rcases List.mem_cons.mp hline with rfl | hbehind
  · have hdigits : CR ∉ (toString res.body.length).toList :=
      notMem_toString (by decide) (by decide) (res.body.length : Int)
    exact headerLine_readable (show CR ∉ "Content-Length".toList by decide) hdigits
  rcases List.mem_cons.mp hbehind with rfl | hheader
  · cases isKeepalive
    · exact headerLine_readable (by decide) (by decide)
    · exact headerLine_readable (by decide) (by decide)
  · obtain ⟨header, hmem, rfl⟩ := List.mem_map.mp hheader
    exact headerLine_readable (h.headers header hmem).1 (h.headers header hmem).2

theorem headerOf_headerLine {header : Str × Str} (hname : ':' ∉ header.1) :
    headerOf (headerLine header) = header := by
  have hall : ∀ c ∈ header.1, decide (c ≠ ':') = true := by
    intro c hc
    rw [decide_eq_true_eq]
    rintro rfl
    exact hname hc
  rw [headerOf, headerLine, List.append_assoc, List.takeWhile_append_of_pos hall,
    List.dropWhile_append_of_pos hall]
  simp

theorem contentLength_headLines (res : Response) (httpVersion : Str) (isKeepalive : Bool) :
    contentLength (res.headLines httpVersion isKeepalive).tail = some res.body.length := by
  have hbefore : (res.linesBefore.find? fun line =>
      sameText (headerOf line).1 "Content-Length".toList) = none := by
    unfold linesBefore
    split
    · decide +kernel
    · decide +kernel
  have hline : headerOf res.lengthLine =
      ("Content-Length".toList, (toString res.body.length).toList) :=
    headerOf_headerLine (show ':' ∉ "Content-Length".toList by decide)
  have hsame : sameText "Content-Length".toList "Content-Length".toList = true := by decide
  have hfind : ((res.headLines httpVersion isKeepalive).tail.find? fun line =>
      sameText (headerOf line).1 "Content-Length".toList) = some res.lengthLine := by
    rw [headLines, List.tail_cons, List.find?_append, hbefore, Option.none_or, List.find?_cons, hline,
      hsame]
  have hdigits : Nat.ofDigitChars 10 (toString res.body.length).toList 0 = res.body.length := by
    change Nat.ofDigitChars 10 res.body.length.repr.toList 0 = _
    rw [Nat.toList_repr, Nat.ofDigitChars_ten_toDigits]
  rw [contentLength, hfind, Option.map_some, hline, hdigits]

-- A response is read back, whatever stands behind it on the wire.
theorem readResponse_text {res : Response} {httpVersion : Str} (h : res.Plain httpVersion)
    (isKeepalive : Bool) (rest : Str) :
    readResponse (res.genHead httpVersion isKeepalive ++ res.body ++ rest) = some (res.body, rest) := by
  have hhead : readHead CR LF _ = some (_, res.body ++ rest) :=
    readHead_writeLines (headLines_readable h isKeepalive) (res.body ++ rest)
  have hfits : res.body.length ≤ (res.body ++ rest).length := by simp
  rw [genHead_eq h.framed, List.append_assoc, List.append_assoc, readResponse, hhead]
  dsimp only
  rw [contentLength_headLines]
  dsimp only
  rw [if_pos hfits, List.take_left, List.drop_left]

end Response

namespace HttpEpollWatcher

variable {World Parser : Type*} {watcher : HttpEpollWatcher World Parser}

theorem Record.ended_begins (rec : Record World Parser) : rec.ended <+: rec.deliveries := by
  unfold Record.ended
  split
  · split
    · exact List.dropLast_prefix _
    · exact List.prefix_refl _
  · exact List.prefix_refl _

-- However the threads are scheduled and however the requests are cut, a client finds the bodies of the
-- responses on its connection, each whole and in the order of its requests, as long as none of the
-- last calls of `send` was short.
theorem client_reads {threads : Nat}
    {history : List (Action (HttpInput World) × Option (Nat × Call (HttpInput World)))}
    {server : EpollSocket (HttpContext Parser)}
    (run : Run (EpollSocket.step watcher.epollSocketWatcher) free (EpollSocket.started threads) history
      server) (ptr : Nat) :
    ∃ rec, record watcher (Custody.callsOf ptr (history.map Prod.snd)) = some rec ∧
      ((∀ delivery ∈ rec.deliveries, delivery.text.length < 2 ^ 31) →
        (∀ delivery ∈ rec.ended, delivery.short = false ∧ delivery.res.Plain delivery.httpVersion) →
          ∃ rest, readMany readResponse rec.ended.length (rec.deliveries.flatMap Delivery.taken) =
            some (rec.ended.map (·.res.body), rest)) := by
  obtain ⟨rec, hrec⟩ := exists_record run ptr
  refine ⟨rec, hrec, fun hsmall hended => ?_⟩
  obtain ⟨-, hsettled⟩ := (record_sound hrec hsmall).taken
  obtain ⟨current, hcurrent⟩ := rec.ended_begins
  have hwhole : rec.ended.flatMap Delivery.taken = rec.ended.flatMap Delivery.text := by
    apply List.flatMap_congr
    intro delivery hmem
    exact (hsettled delivery hmem).whole_iff.mpr (hended delivery hmem).1
  refine ⟨current.flatMap Delivery.taken, ?_⟩
  rw [← hcurrent, List.flatMap_append, hwhole]
  apply readMany_flatMap
  intro delivery hmem rest
  exact Response.readResponse_text (hended delivery hmem).2 delivery.isKeepalive rest

theorem client_reads_kept :
    ∃ (history : List (Action (HttpInput Unit) × Option (Nat × Call (HttpInput Unit))))
      (server : EpollSocket (HttpContext Nat)),
      Run (EpollSocket.step emptyServer.epollSocketWatcher) free (EpollSocket.started 1) history server ∧
        ∃ rec, record emptyServer (Custody.callsOf 0 (history.map Prod.snd)) = some rec ∧
          ∃ rest, readMany readResponse 1 (rec.deliveries.flatMap Delivery.taken) =
            some (["Not Found".toList], rest) := by
  obtain ⟨history, server, run, htest⟩ := exists_run_of_ends
    (EpollSocket.step emptyServer.epollSocketWatcher) free (EpollSocket.started 1) (exchanges 4096)
    (fun history _ =>
      (record emptyServer (Custody.callsOf 0 (history.map Prod.snd))).elim false fun rec =>
        decide ((∀ delivery ∈ rec.deliveries, delivery.text.length < 2 ^ 31) ∧
          (∀ delivery ∈ rec.ended,
            delivery.short = false ∧ delivery.res.Plain delivery.httpVersion) ∧
          rec.ended.map (·.res.body) = ["Not Found".toList]))
    (guarded_free _ _ _) (by decide +kernel)
  obtain ⟨rec, hrec, hreads⟩ := client_reads run 0
  rw [hrec] at htest
  obtain ⟨hsmall, hended, hbodies⟩ := of_decide_eq_true htest
  obtain ⟨rest, hread⟩ := hreads hsmall hended
  have hone : rec.ended.length = 1 := by
    have hlength := congrArg List.length hbodies
    simpa using hlength
  rw [hone, hbodies] at hread
  exact ⟨history, server, run, rec, hrec, rest, hread⟩

end HttpEpollWatcher

end VideoAdapter.Http
