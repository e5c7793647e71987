import VideoAdapter.Lib.Run
import VideoAdapter.Lib.Wire
import VideoAdapter.Adapter.Frames

namespace VideoAdapter.Adapter

open Lib

-- What `send` answers inside the loop of `ETSend`: the number of bytes it took, or `EAGAIN`,
-- after which the loop sleeps and tries again.
inductive SendResult where
  | nwritten (n : Nat)
  | eagain
deriving DecidableEq, Repr

-- The calls of `ETSend` on one descriptor, one after the other as they came in, each with what
-- stands before `ptr` and the `nleft` bytes from there on.
abbrev Socket := Wire UInt8

inductive SendEvent where
  | etSend (frame : OutFrame)
  | send (call : Nat) (result : SendResult)

def sendStep (socket : Socket) : SendEvent → Option (Socket × Unit)
  | .etSend frame => frame.build.map fun vptr => (socket.enter vptr, ())
  | .send i result =>
      match socket.writers[i]? with
      | none => none
      | some call =>
          -- the loop ends at `nleft == 0`
          if call.left = [] then none
          else
            match result with
            | .eagain => some (socket, ())
            | .nwritten n =>
                if 0 < n ∧ n ≤ call.left.length then some (socket.write i call n, ()) else none

-- No byte is taken from a call while another one is between its first and its last byte.
def alone (_ : List (SendEvent × Unit)) (socket : Socket) : SendEvent → Prop
  | .send i (.nwritten _) =>
      ∀ j other, socket.writers[j]? = some other → other.PartWay → j = i
  | _ => True

-- The frames of the completed calls, in some order, and the beginning of at most one more.
def NeverTorn (socket : Socket) : Prop :=
  ∃ (order : List Nat) (rest : Bytes), socket.Whole order rest

theorem sendStep_cases {socket after : Socket} {event : SendEvent} {output : Unit}
    (h : sendStep socket event = some (after, output)) :
    (∃ frame vptr, event = .etSend frame ∧ after = socket.enter vptr) ∨
      (∃ i, event = .send i .eagain ∧ after = socket) ∨
        ∃ i n call, event = .send i (.nwritten n) ∧ socket.writers[i]? = some call ∧
          0 < n ∧ n ≤ call.left.length ∧ after = socket.write i call n := by
  cases event with
  | etSend frame =>
      obtain ⟨vptr, -, hs⟩ := Option.map_eq_some_iff.mp h
      cases hs
      exact .inl ⟨frame, vptr, rfl, rfl⟩
  | send i result =>
      simp only [sendStep] at h
      split at h
      · cases h
      next call hcall =>
        split at h
        · cases h
        cases result with
        | eagain =>
            cases h
            exact .inr (.inl ⟨i, rfl, rfl⟩)
        | nwritten n =>
            simp only at h
            split at h
            · next hn =>
                cases h
                exact .inr (.inr ⟨i, n, call, rfl, hcall, hn.1, hn.2, rfl⟩)
            · cases h

theorem frames_never_torn {history : List (SendEvent × Unit)} {socket : Socket}
    (run : Run sendStep alone {} history socket) : NeverTorn socket := by
  refine run.invariant (fun _ socket => NeverTorn socket) ⟨[], [], Wire.whole_empty⟩ ?_
  rintro history before event after output ⟨order, rest, hwhole⟩ halone hs
  obtain ⟨frame, vptr, rfl, rfl⟩ | ⟨i, rfl, rfl⟩ | ⟨i, n, call, rfl, hcall, hn, hleft, rfl⟩ :=
    sendStep_cases hs
  · obtain ⟨order', hwhole'⟩ := hwhole.enter_block vptr
    exact ⟨order', rest, hwhole'⟩
  · exact ⟨order, rest, hwhole⟩
  · exact hwhole.write_alone hcall hn halone hleft

def aloneCheck (_ : List (SendEvent × Unit)) (socket : Socket) : SendEvent → Bool
  | .send i (.nwritten _) => (List.range socket.writers.length).all fun j =>
      j == i || socket.writers[j]?.all fun other => other.sent.isEmpty || other.left.isEmpty
  | _ => true

theorem alone_of_check (history : List (SendEvent × Unit)) (socket : Socket) (event : SendEvent)
    (h : aloneCheck history socket event = true) : alone history socket event := by
  cases event with
  | etSend frame => trivial
  | send i result =>
      cases result with
      | eagain => trivial
      | nwritten n =>
          intro j other hother hpart
          have hj : j < socket.writers.length := (List.getElem?_eq_some_iff.mp hother).1
          have hcheck := List.all_eq_true.mp h j (List.mem_range.mpr hj)
          rw [hother, Bool.or_eq_true] at hcheck
          refine beq_iff_eq.mp (hcheck.resolve_right fun hidle => ?_)
          rcases Bool.or_eq_true _ _ ▸ hidle with hsent | hleft
          · exact hpart.1 (List.isEmpty_iff.mp hsent)
          · exact hpart.2 (List.isEmpty_iff.mp hleft)

-- A keep-alive answer under back-pressure, and the request that waits for it.
def oneAfterTheOther : List SendEvent :=
  [.etSend (.keepAliveRe 7), .send 0 (.nwritten 40), .etSend (.reqPush [65] id), .send 1 .eagain,
    .send 0 (.nwritten 40), .send 1 (.nwritten 184)]

theorem frames_never_torn_two :
    ∃ history socket, Run sendStep alone {} history socket ∧
      (socket.writers.length = 2 ∧ socket.received.length = 264) ∧ NeverTorn socket := by
  obtain ⟨history, socket, run, htest⟩ := exists_run_of_ends sendStep alone {} oneAfterTheOther
    (fun _ socket => socket.writers.length == 2 && socket.received.length == 264)
    (guarded_of_passes aloneCheck alone_of_check (by decide +kernel)) (by decide +kernel)
  exact ⟨history, socket, run, by simpa using htest, frames_never_torn run⟩

-- The request does not wait: its frame lands in the middle of the answer.
def oneInsideTheOther : List SendEvent :=
  [.etSend (.keepAliveRe 7), .send 0 (.nwritten 40), .etSend (.reqPush [65] id),
    .send 1 (.nwritten 184), .send 0 (.nwritten 40)]

theorem order_of_two {order : List Nat} (hnodup : order.Nodup) (hmem : ∀ i, i ∈ order ↔ i = 0 ∨ i = 1) :
    order = [0, 1] ∨ order = [1, 0] := by
  have hperm : order.Perm [0, 1] := by
    refine (List.perm_ext_iff_of_nodup hnodup (by decide)).mpr fun i => ?_
    rw [hmem i]
    simp
  obtain ⟨a, b, rfl⟩ := List.length_eq_two.mp hperm.length_eq
  have ha := (hmem a).mp (by simp)
  have hb := (hmem b).mp (by simp)
  have hne : a ≠ b := by simpa using hnodup
  rcases ha with rfl | rfl <;> rcases hb with rfl | rfl <;> simp at hne ⊢

theorem torn_of_orders {socket : Socket} {first second : Writer UInt8}
    (hwriters : socket.writers = [first, second]) (hfirst : first.left = []) (hsecond : second.left = [])
    (hone : socket.received ≠ socket.blocks [0, 1])
    (htwo : socket.received ≠ socket.blocks [1, 0]) : ¬ NeverTorn socket := by
  rintro ⟨order, rest, hwhole⟩
  have hrest : rest = [] := by
    refine hwhole.rest_eq_nil fun writer hwriter hpart => ?_
    rw [hwriters] at hwriter
    rcases List.mem_pair.mp hwriter with rfl | rfl
    · exact hpart.2 hfirst
    · exact hpart.2 hsecond
  have horder : ∀ i, i ∈ order ↔ i = 0 ∨ i = 1 := by
    intro i
    rw [hwhole.finished i, hwriters]
    rcases i with _ | _ | i
    · simp [Writer.Done, hfirst]
    · simp [Writer.Done, hsecond]
    · simp
  have hreceived := hwhole.received_eq
  rw [hrest, List.append_nil] at hreceived
  rcases order_of_two hwhole.nodup horder with rfl | rfl
  · exact hone hreceived
  · exact htwo hreceived

theorem frames_torn :
    ∃ history socket, Run sendStep free {} history socket ∧ ¬ NeverTorn socket := by
  obtain ⟨history, socket, run, htest⟩ := exists_run_of_ends sendStep free {} oneInsideTheOther
    (fun _ socket => socket.writers.length == 2 &&
      socket.writers.all (·.left.isEmpty) &&
      socket.received != socket.blocks [0, 1] && socket.received != socket.blocks [1, 0])
    (guarded_free _ _ _) (by decide +kernel)
  refine ⟨history, socket, run, ?_⟩
  simp only [Bool.and_eq_true, beq_iff_eq, bne_iff_ne] at htest
  obtain ⟨⟨⟨hlength, hdone⟩, hone⟩, htwo⟩ := htest
  obtain ⟨first, second, hwriters⟩ := List.length_eq_two.mp hlength
  rw [hwriters] at hdone
  simp only [List.all_cons, List.all_nil, Bool.and_true, Bool.and_eq_true, List.isEmpty_iff] at hdone
  exact torn_of_orders hwriters hdone.1 hdone.2 hone htwo

end VideoAdapter.Adapter
