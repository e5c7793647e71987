import VideoAdapter.Lib.Run
import VideoAdapter.Wss.PlayMngr

namespace VideoAdapter.Wss

open Adapter Lib

def WS_MAX_DATA_LEN : Nat := 1024

-- A message object whose text and length are both set.
structure BufferString where
  p : Bytes
  nonempty : 0 < p.length
  fits : p.length ≤ WS_MAX_DATA_LEN
deriving DecidableEq

def BufferString.getLength (buf : BufferString) : Nat := buf.p.length

-- The object that `push_back` stores. The constructor copies a longer text over the end of `p`,
-- and the copy constructor leaves the length of an empty message unset: neither is a message.
def BufferString.ofData (data : Bytes) : Option BufferString :=
  if h : 0 < data.length ∧ data.length ≤ WS_MAX_DATA_LEN then some ⟨data, h.1, h.2⟩ else none

-- One registered connection: its buffer, the message that the writable callback has popped and
-- not yet written, and whether an object was made that is no message.
structure Line where
  buffer : List BufferString := []
  popped : Option BufferString := none
  undefined : Bool := false
deriving DecidableEq

-- The regions under `locker`, and the call of `lws_write` between two of them.
inductive LineEvent where
  | send (data : Bytes)
  | popFront
  | lwsWrite (charsSent : Int)
deriving DecidableEq, Repr

inductive LineOutput where
  | quiet
  | written (buf : BufferString)
  | error (buf : BufferString)
deriving DecidableEq

namespace Line

def send (line : Line) (data : Bytes) : Line :=
  match BufferString.ofData data with
  | none => { line with undefined := true }
  | some buf => { line with buffer := line.buffer ++ [buf] }

-- One round of the loop up to the write. An empty buffer ends the loop.
def popFront (line : Line) : Line :=
  match line.buffer with
  | [] => line
  | buf :: rest => { line with buffer := rest, popped := some buf }

-- Whatever `lws_write` accepted, the message is in the buffer no more.
def lwsWrite (line : Line) (buf : BufferString) (charsSent : Int) : Line × LineOutput :=
  ({ line with popped := none },
    if charsSent < buf.getLength then .error buf else .written buf)

end Line

def lineStep (line : Line) : LineEvent → Option (Line × LineOutput)
  | .send data => some (line.send data, .quiet)
  | .popFront => if line.popped = none then some (line.popFront, .quiet) else none
  | .lwsWrite charsSent => line.popped.map fun buf => line.lwsWrite buf charsSent

-- The messages that `send` was called with, in the order of the calls.
def queued : List (LineEvent × LineOutput) → List Bytes
  | [] => []
  | (.send data, _) :: history => queued history ++ [data]
  | (.popFront, _) :: history => queued history
  | (.lwsWrite _, _) :: history => queued history

-- The messages that `lws_write` accepted whole, in the order of the writes.
def accepted : List (LineEvent × LineOutput) → List Bytes
  | [] => []
  | (_, .written buf) :: history => accepted history ++ [buf.p]
  | (_, .error _) :: history => accepted history
  | (_, .quiet) :: history => accepted history

-- Nothing was lost or moved: whenever no message is on its way to `lws_write`, the accepted
-- messages and then the buffer are what was sent.
def Lossless (history : List (LineEvent × LineOutput)) (line : Line) : Prop :=
  line.undefined = false ∧
    (line.popped = none → accepted history ++ line.buffer.map BufferString.p = queued history)

-- A message that fills its object and a write that takes the whole message.
def Carried (_ : List (LineEvent × LineOutput)) (line : Line) : LineEvent → Prop
  | .send data => 0 < data.length ∧ data.length ≤ WS_MAX_DATA_LEN
  | .popFront => True
  | .lwsWrite charsSent => ∀ buf, line.popped = some buf → (buf.getLength : Int) ≤ charsSent

-- The same at every moment, the message on its way included.
def Accounted (history : List (LineEvent × LineOutput)) (line : Line) : Prop :=
  line.undefined = false ∧
    accepted history ++ (line.popped.toList ++ line.buffer).map BufferString.p = queued history

variable {history : List (LineEvent × LineOutput)} {line after : Line} {event : LineEvent}
  {output : LineOutput}

theorem Accounted.lossless (h : Accounted history line) : Lossless history line := by
  refine ⟨h.1, fun hnone => ?_⟩
  have hall := h.2
  rwa [hnone, Option.toList_none, List.nil_append] at hall

theorem Line.send_of_fits {data : Bytes} (hd : 0 < data.length ∧ data.length ≤ WS_MAX_DATA_LEN) :
    line.send data = { line with buffer := line.buffer ++ [⟨data, hd.1, hd.2⟩] } := by
  unfold Line.send BufferString.ofData
  rw [dif_pos hd]

theorem Line.send_of_not_fits {data : Bytes}
    (hd : ¬ (0 < data.length ∧ data.length ≤ WS_MAX_DATA_LEN)) :
    line.send data = { line with undefined := true } := by
  unfold Line.send BufferString.ofData
  rw [dif_neg hd]

theorem accounted_send (h : Accounted history line) (data : Bytes) :
    (0 < data.length ∧ data.length ≤ WS_MAX_DATA_LEN) ↔
      Accounted ((.send data, .quiet) :: history) (line.send data) := by
  by_cases hd : 0 < data.length ∧ data.length ≤ WS_MAX_DATA_LEN
  · rw [Line.send_of_fits hd]
    refine iff_of_true hd ⟨h.1, ?_⟩
    show accepted history ++ _ = queued history ++ [data]
    rw [← h.2]
    simp
  · rw [Line.send_of_not_fits hd]
    refine iff_of_false hd fun hbad => ?_
    cases hbad.1

theorem accounted_popFront (h : Accounted history line) (hnone : line.popped = none) :
    Accounted ((.popFront, .quiet) :: history) line.popFront := by
  have hall := h.2
  rw [hnone] at hall
  unfold Line.popFront
  cases hb : line.buffer with
  | nil =>
      refine ⟨h.1, ?_⟩
      rw [hb] at hall
      simpa [accepted, queued, hnone, hb] using hall
  | cons buf rest =>
      refine ⟨h.1, ?_⟩
      rw [hb] at hall
      simpa [accepted, queued] using hall

-- A message that was not accepted is in neither list.
theorem accounted_lwsWrite {buf : BufferString} (h : Accounted history line)
    (hsome : line.popped = some buf) (charsSent : Int) :
    (buf.getLength : Int) ≤ charsSent ↔
      Accounted ((.lwsWrite charsSent, (line.lwsWrite buf charsSent).2) :: history)
        (line.lwsWrite buf charsSent).1 := by
  have hall := h.2
  rw [hsome] at hall
  unfold Line.lwsWrite
  by_cases hw : charsSent < buf.getLength
  · rw [if_pos hw]
    refine iff_of_false (by omega) fun hbad => ?_
    have hlost : accepted history ++ line.buffer.map BufferString.p = queued history := hbad.2
    have hlen := congrArg List.length (hlost.trans hall.symm)
    simp at hlen
  · rw [if_neg hw]
    refine iff_of_true (by omega) ⟨h.1, ?_⟩
    show (accepted history ++ [buf.p]) ++ line.buffer.map BufferString.p = queued history
    rw [← hall]
    simp

theorem carried_iff_accounted (h : Accounted history line)
    (hs : lineStep line event = some (after, output)) :
    Carried history line event ↔ Accounted ((event, output) :: history) after := by
  cases event with
  | send data =>
      cases hs
      exact accounted_send h data
  | popFront =>
      simp only [lineStep] at hs
      split at hs
      · rename_i hnone
        cases hs
        exact iff_of_true trivial (accounted_popFront h hnone)
      · cases hs
  | lwsWrite charsSent =>
      obtain ⟨buf, hsome, he⟩ := Option.map_eq_some_iff.mp hs
      cases he
      refine Iff.trans ?_ (accounted_lwsWrite h hsome charsSent)
      exact ⟨fun hall => hall buf hsome, fun hw other ho => Option.some.inj (hsome.symm.trans ho) ▸ hw⟩

-- Where every state passed loses nothing at rest, the message on its way was accounted for too:
-- it was popped from a buffer that lacked nothing.
theorem accounted_of_lossless (run : Run lineStep free {} history line)
    (hall : ∀ earlier state, earlier <:+ history → Run lineStep free {} earlier state →
      Lossless earlier state) : Accounted history line := by
  induction run with
  | init => exact ⟨rfl, rfl⟩
  | @next history before after event output hbefore hfree hs ih =>
      have hacc := ih fun earlier state hsuffix => hall earlier state
        (hsuffix.trans (List.suffix_cons _ _))
      have hlast := hall _ after (List.suffix_refl _) (hbefore.next hfree hs)
      rw [← carried_iff_accounted hacc hs]
      cases event with
      | send data =>
          cases hs
          by_contra hd
          have hbad := hlast.1
          rw [Line.send_of_not_fits hd] at hbad
          cases hbad
      | popFront => trivial
      | lwsWrite charsSent =>
          obtain ⟨buf, hsome, he⟩ := Option.map_eq_some_iff.mp hs
          cases he
          have hlost : Accounted _ (before.lwsWrite buf charsSent).1 := ⟨hlast.1, hlast.2 rfl⟩
          exact (carried_iff_accounted hacc hs).mpr hlost

-- Delivery loses and moves nothing in exactly the runs in which every message sent has between 1
-- and 1024 bytes and every write is accepted whole.
theorem run_carried_iff_lossless (run : Run lineStep free {} history line) :
    Run lineStep Carried {} history line ↔
      ∀ earlier state, earlier <:+ history → Run lineStep free {} earlier state →
        Lossless earlier state := by
  rw [run.guarded_iff Accounted ⟨rfl, rfl⟩ fun _ _ _ _ _ h hs => carried_iff_accounted h hs]
  constructor
  · exact fun hall earlier state hsuffix hrun => (hall earlier state hsuffix hrun).lossless
  · exact fun hall earlier state hsuffix hrun => accounted_of_lossless hrun fun first state hfirst =>
      hall first state (hfirst.trans hsuffix)

theorem run_carried_iff_lossless_sent :
    ∃ history, ∃ line : Line, (queued history = [[65]] ∧ accepted history = [[65]] ∧ line.buffer = []) ∧
      ∀ earlier state, earlier <:+ history → Run lineStep free {} earlier state →
        Lossless earlier state := by
  let buf : BufferString := ⟨[65], by decide, by decide⟩
  have hsent : Run lineStep Carried {} [(.send [65], .quiet)] { buffer := [buf] } :=
    .next .init ⟨by decide, by decide⟩ rfl
  have hpopped : Run lineStep Carried {} [(.popFront, .quiet), (.send [65], .quiet)]
      { popped := some buf } := .next hsent trivial rfl
  have run : Run lineStep Carried {}
      [(.lwsWrite 1, .written buf), (.popFront, .quiet), (.send [65], .quiet)] {} := by
    refine .next hpopped ?_ rfl
    rintro other ho
    cases ho
    decide
  exact ⟨_, {}, ⟨rfl, rfl, rfl⟩, (run_carried_iff_lossless run.unguarded).mp run⟩

-- A message whose write fails is gone from the buffer, and no one has it.
theorem failed_write_loses_message : ¬ ∀ history line, Run lineStep free {} history line →
    Lossless history line := by
  intro hall
  let buf : BufferString := ⟨[65], by decide, by decide⟩
  have hsent : Run lineStep free {} [(.send [65], .quiet)] { buffer := [buf] } :=
    .next .init trivial rfl
  have run : Run lineStep free {}
      [(.lwsWrite (-1), .error buf), (.popFront, .quiet), (.send [65], .quiet)] {} :=
    .next (.next hsent trivial rfl) trivial rfl
  have hbad : ([] : List Bytes) = [[65]] := (hall _ _ run).2 rfl
  cases hbad

section Callback

variable {texts : List BufferString} {charsSent : Nat → Int}

-- The rounds of a callback during which nothing is sent, and the test that ends its loop.
def rounds (charsSent : Nat → Int) : Nat → Nat → List LineEvent
  | _, 0 => [.popFront]
  | i, n + 1 => .popFront :: .lwsWrite (charsSent i) :: rounds charsSent (i + 1) n

-- What came of the writes, in their order.
def writes (history : List (LineEvent × LineOutput)) : List LineOutput :=
  (history.reverse.map Prod.snd).filter (· ≠ .quiet)

def outcome (charsSent : Nat → Int) (round : BufferString × Nat) : LineOutput :=
  if charsSent round.2 < round.1.getLength then .error round.1 else .written round.1

theorem writes_round (buf : BufferString) (i : Nat) :
    writes ((.lwsWrite (charsSent i), outcome charsSent (buf, i)) :: (.popFront, .quiet) :: history) =
      writes history ++ [outcome charsSent (buf, i)] := by
  have hne : outcome charsSent (buf, i) ≠ .quiet := by
    unfold outcome
    split <;> simp
  simp [writes, hne]

-- A callback alone writes every message that is in the buffer, in order, and leaves it empty.
theorem exec_rounds (texts : List BufferString) (charsSent : Nat → Int) (i : Nat)
    (history : List (LineEvent × LineOutput)) :
    ∃ record, exec lineStep { buffer := texts } history (rounds charsSent i texts.length) =
        some ({}, record) ∧
      writes record = writes history ++ (texts.zipIdx i).map (outcome charsSent) := by
  induction texts generalizing i history with
  | nil => exact ⟨_, rfl, by simp [writes]⟩
  | cons buf rest ih =>
      obtain ⟨record, he, hw⟩ := ih (i + 1)
        ((.lwsWrite (charsSent i), outcome charsSent (buf, i)) :: (.popFront, .quiet) :: history)
      refine ⟨record, he, ?_⟩
      rw [hw, writes_round, List.zipIdx_cons, List.map_cons, List.append_assoc]
      rfl

-- A reply that the service puts into a buffer is a message sent on that connection.
theorem send_line {connections after : Connections} {s : Int} {c : Connection} {data : Reply}
    (text : Reply → BufferString) (hc : connections[s]? = some (some c))
    (hs : connections.send s data = some after) :
    ∃ c' : Connection, after[s]? = some (some c') ∧
      ({ buffer := c'.buffer.map text } : Line) =
        Line.send { buffer := c.buffer.map text } (text data).p := by
  simp only [Connections.send, Connections.update, hc, Option.some.injEq] at hs
  subst hs
  refine ⟨{ c with buffer := c.buffer ++ [data] }, by simp, ?_⟩
  rw [Line.send_of_fits ⟨(text data).nonempty, (text data).fits⟩, List.map_append]
  rfl

-- What the callback of the service hands to `lws_write`, for a text of each reply.
def Output.outcome (text : Reply → BufferString) : Output → Option LineOutput
  | .written _ data true => some (.written (text data))
  | .written _ data false => some (.error (text data))
  | _ => none

-- The callback of the service, which runs to its end, is such a callback.
theorem writeable_rounds {w : Service} {fd : Int} {c : Connection} (text : Reply → BufferString)
    (charsSent : Nat → Int) {whole : Nat → Bool} (hc : w.connections[fd]? = some (some c))
    (hwhole : ∀ i data, c.buffer[i]? = some data →
      whole i = decide ((text data).getLength ≤ charsSent i)) :
    ∃ record, exec lineStep { buffer := c.buffer.map text } [] (rounds charsSent 0 c.buffer.length) =
        some ({}, record) ∧
      writes record = (w.writeable fd whole).2.filterMap (Output.outcome text) ∧
      (w.writeable fd whole).1.connections[fd]? = some (some { c with buffer := [] }) := by
  obtain ⟨record, he, hw⟩ := exec_rounds (c.buffer.map text) charsSent 0 []
  rw [List.length_map] at he
  refine ⟨record, he, ?_, ?_⟩
  · simp only [Service.writeable, hc]
    rw [hw, List.filterMap_map, List.zipIdx_map, List.map_map, ← List.filterMap_eq_map]
    refine List.filterMap_congr ?_
    rintro ⟨data, i⟩ hmem
    have hi := hwhole i data (List.mem_zipIdx_iff_getElem?.mp hmem)
    by_cases hshort : charsSent i < (text data).getLength
    · have hfalse : whole i = false := by rw [hi, decide_eq_false_iff_not]; omega
      simp [Output.outcome, outcome, hfalse, hshort]
    · have htrue : whole i = true := by rw [hi, decide_eq_true_eq]; omega
      simp [Output.outcome, outcome, htrue, hshort]
  · simp only [Service.writeable, hc]
    simp

end Callback

end VideoAdapter.Wss
