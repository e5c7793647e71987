import VideoAdapter.Http.EpollSocket.Refinement
import VideoAdapter.Http.HttpServer.Delivery
import VideoAdapter.Http.Request.Theorems

namespace VideoAdapter.Http

open Lib

namespace HttpEpollWatcher

variable {World Parser : Type*} {watcher : HttpEpollWatcher World Parser}

-- The responses for which nothing more is sent.
def Record.ended (rec : Record World Parser) : List Delivery :=
  match rec.session with
  | .live .writing ctx => if ctx.res.isWrited then rec.deliveries.dropLast else rec.deliveries
  | _ => rec.deliveries

theorem Sound.taken {session : Session (HttpContext Parser)} {deliveries : List Delivery}
    (h : Sound session deliveries) :
    (∀ delivery ∈ deliveries, delivery.taken <+: delivery.text) ∧
      ∀ delivery ∈ (⟨session, deliveries⟩ : Record World Parser).ended, delivery.Settled := by
  cases h with
  | absent => exact ⟨by simp, by simp [Record.ended]⟩
  | reading hfresh hall => exact ⟨fun delivery hmem => (hall delivery hmem).prefix_text, hall⟩
  | waiting hunwritten hbytes hall =>
      refine ⟨fun delivery hmem => (hall delivery hmem).prefix_text, ?_⟩
      simpa [Record.ended, hunwritten] using hall
  | @sending ctx deliveries current hwritten hread hbegins hall =>
      refine ⟨fun delivery hmem => ?_, ?_⟩
      · rcases List.mem_append.mp hmem with h | h
        · exact (hall delivery h).prefix_text
        · rw [List.mem_singleton.mp h]
          exact hbegins
      · simpa [Record.ended, hwritten] using hall
  | closing hall => exact ⟨fun delivery hmem => (hall delivery hmem).prefix_text, hall⟩
  | closed hall => exact ⟨fun delivery hmem => (hall delivery hmem).prefix_text, hall⟩

-- Every connection of a run has its record.
theorem exists_record {threads : Nat}
    {history : List (Action (HttpInput World) × Option (Nat × Call (HttpInput World)))}
    {server : EpollSocket (HttpContext Parser)}
    (run : Run (EpollSocket.step watcher.epollSocketWatcher) free (EpollSocket.started threads) history
      server) (ptr : Nat) :
    ∃ rec, record watcher (Custody.callsOf ptr (history.map Prod.snd)) = some rec := by
  obtain ⟨conns, -, -, hcalls⟩ := EpollSocket.run_custody run
  have hsession := record_session watcher (Custody.callsOf ptr (history.map Prod.snd))
  rw [hcalls ptr] at hsession
  obtain ⟨rec, hrec, -⟩ := Option.map_eq_some_iff.mp hsession
  exact ⟨rec, hrec⟩

-- However the threads are scheduled, and however much the sockets take at a time, what a client gets
-- is a prefix of each response, in the order of its requests. It is the whole of one that is done with
-- exactly if the last call of `send` took all that it was given: what it left is never sent.
theorem responses_in_order {threads : Nat}
    {history : List (Action (HttpInput World) × Option (Nat × Call (HttpInput World)))}
    {server : EpollSocket (HttpContext Parser)}
    (run : Run (EpollSocket.step watcher.epollSocketWatcher) free (EpollSocket.started threads) history
      server) (ptr : Nat) :
    ∃ rec, record watcher (Custody.callsOf ptr (history.map Prod.snd)) = some rec ∧
      ((∀ delivery ∈ rec.deliveries, delivery.text.length < 2 ^ 31) →
        (∀ delivery ∈ rec.deliveries, delivery.taken <+: delivery.text) ∧
          ∀ delivery ∈ rec.ended, (delivery.taken = delivery.text ↔ delivery.short = false)) := by
  obtain ⟨rec, hrec⟩ := exists_record run ptr
  refine ⟨rec, hrec, fun hsmall => ?_⟩
  obtain ⟨hbegins, hended⟩ := (record_sound hrec hsmall).taken
  exact ⟨hbegins, fun delivery hmem => (hended delivery hmem).whole_iff⟩

def keptExchange : List (Str × List (ParserEvent × Nat)) :=
  [("GET /a HTTP/1.1\r\nConnection: keep-alive\r\n\r\n".toList,
    [(.url "/a".toList, 7), (.headerField ⟨1, 1, 1⟩ "Connection".toList, 28),
      (.headerValue "keep-alive".toList, 40), (.headersComplete, 42), (.messageComplete, 43)])]

def emptyServer : HttpEpollWatcher Unit Nat where
  http := Request.recorded keptExchange
  resourceMap := []

-- The socket has room for so many bytes.
def roomFor (room : Nat) : HttpInput Unit where
  received := .bytes "GET /a HTTP/1.1\r\nConnection: keep-alive\r\n\r\n".toList
  send := some room
  world := ()

-- A client connects, sends its request, and is ready for the answer.
def exchanges (room : Nat) : List (Action (HttpInput Unit)) :=
  let turn : Action (HttpInput Unit) := .loop { input := roomFor room }
  let worker : Action (HttpInput Unit) := .worker 0 { input := roomFor room }
  [turn, .listen, turn, .loop { accepted := some 5, input := roomFor room }, turn, turn, turn, turn,
    turn, .deliver 5 .readable, turn, turn, worker, worker, worker, turn, turn, .deliver 5 .writeable,
    turn, turn, turn]

theorem responses_in_order_narrow :
    ∃ (history : List (Action (HttpInput Unit) × Option (Nat × Call (HttpInput Unit))))
      (server : EpollSocket (HttpContext Nat)),
      Run (EpollSocket.step emptyServer.epollSocketWatcher) free (EpollSocket.started 1) history server ∧
        ∃ rec, record emptyServer (Custody.callsOf 0 (history.map Prod.snd)) = some rec ∧
          rec.deliveries.map (fun delivery => (delivery.text.length, delivery.taken.length)) =
            [(315, 100)] ∧
          ∀ delivery ∈ rec.ended, (delivery.taken = delivery.text ↔ delivery.short = false) := by
  obtain ⟨history, server, run, htest⟩ := exists_run_of_ends
    (EpollSocket.step emptyServer.epollSocketWatcher) free (EpollSocket.started 1) (exchanges 100)
    (fun history _ => decide ((record emptyServer (Custody.callsOf 0 (history.map Prod.snd))).map
      (fun rec => rec.deliveries.map fun delivery => (delivery.text.length, delivery.taken.length)) =
        some [(315, 100)]))
    (guarded_free _ _ _) (by decide +kernel)
  have hlengths := of_decide_eq_true htest
  obtain ⟨rec, hrec, hsound⟩ := responses_in_order run 0
  rw [hrec, Option.map_some, Option.some.injEq] at hlengths
  refine ⟨history, server, run, rec, hrec, hlengths, (hsound fun delivery hmem => ?_).2⟩
  have hlength := List.mem_map_of_mem (f := fun delivery : Delivery =>
    (delivery.text.length, delivery.taken.length)) hmem
  rw [hlengths, List.mem_singleton, Prod.mk.injEq] at hlength
  omega

section Keepalive

-- What the calls of `on_writeable` for one response return.
def writes (watcher : HttpEpollWatcher World Parser) (ctx : HttpContext Parser) :
    List (HttpInput World) → List WriteRet
  | [] => []
  | input :: rest =>
      (watcher.onWriteable ctx input).2 ::
        if (watcher.onWriteable ctx input).2 = .writeConnContinue then
          writes watcher (watcher.onWriteable ctx input).1 rest
        else []

-- The socket takes all that it is offered.
def Whole (input : HttpInput World) : Prop := ∃ n, input.send = some n ∧ SS_WRITE_BUFFER_SIZE ≤ n

theorem taken_whole {input : HttpInput World} (h : Whole input) (ctx : HttpContext Parser) :
    taken ctx input = offered ctx := by
  obtain ⟨n, hsend, hn⟩ := h
  rw [taken, hsend]
  apply List.take_of_length_le
  have hlength : (offered ctx).length ≤ SS_WRITE_BUFFER_SIZE := by
    simp only [offered, Response.readsome, StringStream.read]
    split
    · exact List.length_take_le _ _
    · exact Nat.zero_le _
  exact hlength.trans hn

theorem writes_of_readTo {inputs : List (HttpInput World)} (hwhole : ∀ input ∈ inputs, Whole input)
    {ctx : HttpContext Parser} {text : Str} {k : Nat} (hread : ReadTo ctx text k)
    (hsmall : text.length < 2 ^ 31)
    (hcalls : inputs.length = (text.length - k) / SS_WRITE_BUFFER_SIZE + 1) :
    writes watcher ctx inputs =
      List.replicate ((text.length - k) / SS_WRITE_BUFFER_SIZE) .writeConnContinue ++
        [if isKeepalive ctx.req ∧ (text.length - k) % SS_WRITE_BUFFER_SIZE ≠ 0 then .writeConnAlive
          else .writeConnClose] := by
  have hsize : 0 < SS_WRITE_BUFFER_SIZE := by decide
  induction inputs generalizing ctx k with
  | nil => simp at hcalls
  | cons input rest ih =>
      have hinput := hwhole input List.mem_cons_self
      have htaken := taken_whole hinput ctx
      have hoffered := length_offered hread
      rw [List.length_cons, Nat.add_right_cancel_iff] at hcalls
      by_cases hmore : SS_WRITE_BUFFER_SIZE ≤ text.length - k
      · obtain ⟨n, hsend, -⟩ := hinput
        obtain ⟨res, hret, hwritten, hbytes⟩ := onWriteable_more watcher input hread hsmall hmore
          (by rw [hsend]; exact Option.some_ne_none n)
        have hlength : (taken ctx input).length = SS_WRITE_BUFFER_SIZE := by
          rw [htaken, hoffered]
          omega
        have hnext : ReadTo { ctx with res := res } text (k + SS_WRITE_BUFFER_SIZE) := by
          refine ⟨?_, by omega⟩
          rw [written, if_pos hwritten]
          exact hbytes.trans (by rw [hlength])
        have hrest : text.length - k = text.length - (k + SS_WRITE_BUFFER_SIZE) + SS_WRITE_BUFFER_SIZE :=
          by omega
        rw [hrest, Nat.add_div_right _ hsize] at hcalls
        have hlater := ih (fun other hother => hwhole other (List.mem_cons_of_mem _ hother)) hnext hcalls
        rw [writes, hret, if_pos rfl, hlater, hrest, Nat.add_div_right _ hsize, Nat.add_mod_right,
          List.replicate_succ, List.cons_append]
      · have hless := Nat.lt_of_not_le hmore
        have hnone : rest = [] := by
          rw [Nat.div_eq_of_lt hless] at hcalls
          exact List.length_eq_zero_iff.mp hcalls
        have hlength : (taken ctx input).length = text.length - k := by
          rw [htaken, hoffered]
          omega
        subst hnone
        rw [Nat.div_eq_of_lt hless, Nat.mod_eq_of_lt hless, List.replicate_zero, List.nil_append]
        rcases onWriteable_last watcher input hread hless with
          ⟨hkeep, hsome, hret⟩ | ⟨hno, hret⟩
        · rw [writes, hret, if_neg (show WriteRet.writeConnAlive ≠ .writeConnContinue by decide),
            if_pos ⟨hkeep, by omega⟩]
        · rw [writes, hret, if_neg (show WriteRet.writeConnClose ≠ .writeConnContinue by decide),
            if_neg fun h => hno ⟨h.1, by omega⟩]

-- With a socket that takes all it is offered, a response needs one call for each full buffer and one
-- for the rest. The connection that the response has promised to keep is closed behind it when there
-- is no rest.
theorem writes_whole {ctx : HttpContext Parser} (hunwritten : ctx.res.isWrited = false)
    (hbytes : ctx.res.resBytes = {}) {text : Str} (htext : (begin ctx).text = text)
    (hsmall : text.length < 2 ^ 31) {inputs : List (HttpInput World)}
    (hwhole : ∀ input ∈ inputs, Whole input)
    (hcalls : inputs.length = text.length / SS_WRITE_BUFFER_SIZE + 1) :
    writes watcher ctx inputs =
      List.replicate (text.length / SS_WRITE_BUFFER_SIZE) .writeConnContinue ++
        [if isKeepalive ctx.req ∧ text.length % SS_WRITE_BUFFER_SIZE ≠ 0 then .writeConnAlive
          else .writeConnClose] := by
  have hread := readTo_unwritten hunwritten hbytes
  rw [htext] at hread
  exact writes_of_readTo hwhole hread hsmall hcalls

theorem writes_whole_keepalive :
    writes emptyServer
        ({ fd := 5, parser := 0,
           req := { headers := [("Connection".toList, "Keep-Alive".toList)] } } : HttpContext Nat)
        [{ received := .interrupted, send := some 4096, world := () }] =
      [.writeConnAlive] :=
  (writes_whole rfl rfl rfl (by decide +kernel)
    (fun _ hmem => ⟨4096, by rw [List.mem_singleton.mp hmem], by decide⟩) (by decide +kernel)).trans
    (by decide +kernel)

end Keepalive

end HttpEpollWatcher

end VideoAdapter.Http
