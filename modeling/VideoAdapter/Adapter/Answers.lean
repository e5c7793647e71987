import VideoAdapter.Lib.Buffer
import VideoAdapter.Adapter.Mailbox
import VideoAdapter.Adapter.ReadTask
import VideoAdapter.Adapter.Server

namespace VideoAdapter.Adapter

open Lib

-- `result`, `resv[64]`
def sizeofRespStopPush : Nat := 68

-- The structure that `NotifyPush` or `NotifyStopPush` has for its answer.
def answerSize (iType : Int) : Option Nat :=
  if iType = RESP_PUSH then some sizeofRespPush
  else if iType = RESP_STOP_PUSH then some sizeofRespStopPush
  else none

-- The `memcpy` of `WaitforResponse`, of the whole message into the caller's zeroed structure.
def answerCopy (size : Nat) (buf : Bytes) : Option Bytes := copyAt (zeros size) 0 buf

-- The copy stays in the structure, and what it does not reach is still zero.
def AnswerFits (iType : Int) (buf : Bytes) : Prop :=
  ∀ size, answerSize iType = some size → ∃ resp, answerCopy size buf = some resp ∧
    resp.take buf.length = buf ∧ resp.drop buf.length = zeros (size - buf.length)

-- Every message is the body of a frame that the read task took from some bytes received.
def fromReader (_ : MailHistory) (_ : Mailbox) : MailEvent → Prop
  | .insertMsg iType seqnum buf _ => ∃ avail rest, readTask avail = some (some ⟨iType, seqnum, buf⟩, rest)
  | _ => True

-- The message was made by a call of `InsertMsg`.
def Inserted (history : MailHistory) (m : Message) : Prop :=
  ∃ tick, (MailEvent.insertMsg m.node.iType m.node.seqnum m.node.buf tick, MailOutput.quiet) ∈ history

-- The frames that a registered adapter answers with go to `InsertMsg`.
theorem handlerRead_answer {srv : TcpServer} {fd cmd seq : Int} {buf : Bytes} {env : FrameEnv}
    {pClient : CMSClient} (hclient : srv.findClient fd = some pClient) (hcmd : (answerSize cmd).isSome) :
    handlerRead srv fd cmd seq buf env =
      some (srv.onClient fd fun p => p.insertMsg cmd seq buf env.tick, []) := by
  have hne : cmd ≠ KEEP_ALIVE ∧ cmd ≠ UPDATE_CHANGE := by
    constructor
    · rintro rfl
      exact absurd hcmd (by decide)
    · rintro rfl
      exact absurd hcmd (by decide)
  rw [handlerRead, hclient]
  dsimp only
  rw [if_neg hne.1, if_neg hne.2]

section Steps

variable {box after : Mailbox} {event : MailEvent} {output : MailOutput} {history : MailHistory}

-- Only `InsertMsg` makes a message.
theorem mailStep_pending (h : mailStep box event = some (after, output)) :
    ∀ m ∈ after.pending, m ∈ box.pending ∨
      ∃ tick, event = .insertMsg m.node.iType m.node.seqnum m.node.buf tick ∧ output = .quiet := by
  intro m hm
  cases event with
  | insertMsg iType seqnum buf tick =>
      obtain ⟨made, hmade, heq⟩ := Option.map_eq_some_iff.mp h
      cases heq
      unfold Mailbox.insertMsg at hmade
      split at hmade
      · cases hmade
        exact .inl hm
      split at hmade
      · cases hmade
      obtain ⟨sampled, hsampled, rfl⟩ := Option.map_eq_some_iff.mp hmade
      obtain ⟨-, rfl⟩ := sample_eq_some hsampled
      rcases List.mem_append.mp hm with hm | hm
      · exact .inl hm
      · rw [List.mem_singleton.mp hm]
        exact .inr ⟨tick, rfl, rfl⟩
  | pushBack i =>
      obtain ⟨arrived, -, heq⟩ := Option.map_eq_some_iff.mp h
      cases heq
      exact .inl (List.mem_of_mem_eraseIdx hm)
  | waitforResponse iType seqnum =>
      cases h
      exact .inl hm
  | refresh i ticks =>
      obtain ⟨waiter, -, h⟩ := Option.bind_eq_some_iff.mp h
      split at h
      · simp only [Mailbox.refresh] at h
        split at h
        · cases h
          exact .inl hm
        · cases h
      · cases h
  | start i tick =>
      obtain ⟨waiter, -, h⟩ := Option.bind_eq_some_iff.mp h
      split at h
      · obtain ⟨started, hstarted, heq⟩ := Option.map_eq_some_iff.mp h
        cases heq
        obtain ⟨sampled, hsampled, rfl⟩ := Option.map_eq_some_iff.mp hstarted
        obtain ⟨-, rfl⟩ := sample_eq_some hsampled
        exact .inl hm
      · cases h
  | wake i tick =>
      obtain ⟨waiter, -, h⟩ := Option.bind_eq_some_iff.mp h
      split at h
      · obtain ⟨woken, hwoken, heq⟩ := Option.map_eq_some_iff.mp h
        cases heq
        obtain ⟨sampled, hsampled, rfl⟩ := Option.map_eq_some_iff.mp hwoken
        obtain ⟨-, rfl⟩ := sample_eq_some hsampled
        split at hm
        · exact .inl hm
        · exact .inl hm
      · cases h
  | find i =>
      obtain ⟨waiter, -, h⟩ := Option.bind_eq_some_iff.mp h
      split at h
      · simp only [Mailbox.find, Option.some.injEq] at h
        split at h
        · cases h
          exact .inl hm
        · cases h
          exact .inl hm
      · cases h

theorem Inserted.cons {m : Message} (h : Inserted history m) (entry : MailEvent × MailOutput) :
    Inserted (entry :: history) m := by
  obtain ⟨tick, hmem⟩ := h
  exact ⟨tick, List.mem_cons_of_mem _ hmem⟩

theorem inserted_step (h : ∀ m ∈ arrivals history ++ box.pending, Inserted history m)
    (hs : mailStep box event = some (after, output)) :
    ∀ m ∈ arrivals ((event, output) :: history) ++ after.pending, Inserted ((event, output) :: history) m := by
  intro m hm
  rcases List.mem_append.mp hm with hm | hm
  · rw [arrivals_cons] at hm
    rcases List.mem_append.mp hm with hold | hnew
    · exact (h m (List.mem_append_left _ hold)).cons _
    · -- a message that comes into the list was waiting for it
      have hwaiting : m ∈ box.pending := by
        clear hm
        cases mailStep_move hs with
        | arrived hwaiting =>
            rw [List.mem_singleton.mp hnew]
            exact List.mem_of_getElem? hwaiting
        | idle => cases hnew
        | made => cases hnew
        | compared => cases hnew
        | handed => cases hnew
      exact (h m (List.mem_append_right _ hwaiting)).cons _
  · rcases mailStep_pending hs m hm with hold | ⟨tick, rfl, rfl⟩
    · exact (h m (List.mem_append_right _ hold)).cons _
    · exact ⟨tick, List.mem_cons_self⟩

end Steps

theorem answerFits_iff (iType : Int) (buf : Bytes) :
    AnswerFits iType buf ↔ ∀ size, answerSize iType = some size → buf.length ≤ size := by
  refine forall₂_congr fun size _ => ?_
  constructor
  · rintro ⟨resp, hcopy, -⟩
    have hle := le_of_copyAt hcopy
    rwa [length_zeros, Nat.zero_add] at hle
  · intro hle
    refine ⟨buf ++ zeros (size - buf.length), ?_, List.take_left, List.drop_left⟩
    exact copyAt_zeros [] buf hle

-- The structure of `NotifyPush` with an answer in it.
def respStruct (buf : Bytes) : Bytes := buf ++ zeros (sizeofRespPush - buf.length)

-- What `NotifyPush` reads from its structure is what the body says, with zeros past its end.
theorem respPush_decode_struct {buf : Bytes} (hle : buf.length ≤ sizeofRespPush) :
    RespPush.decode (respStruct buf) = RespPush.decode buf := by
  have hint : ∀ offset, intAt (buf ++ zeros (sizeofRespPush - buf.length)) offset = intAt buf offset := by
    intro offset
    unfold intAt
    simp only [getD_append_zeros]
  have htake : (buf ++ zeros (sizeofRespPush - buf.length)).take sizeofRespPush =
      buf ++ zeros (sizeofRespPush - buf.length) :=
    List.take_of_length_le (by rw [List.length_append, length_zeros]; omega)
  have htoken : cstring ((buf ++ zeros (sizeofRespPush - buf.length)).drop 264) = cstring (buf.drop 264) := by
    have hdrop : (zeros (sizeofRespPush - buf.length)).drop (264 - buf.length) =
        zeros (sizeofRespPush - buf.length - (264 - buf.length)) := List.drop_replicate
    rw [List.drop_append, hdrop, cstring_append_zeros]
  unfold RespPush.decode cstrAt respStruct
  rw [hint, htake, List.take_of_length_le hle]
  exact congrArg (fun token => RespPush.mk _ (String.ofList (token.map fun b => Char.ofNat b.toNat))) htoken

-- The bytes that a call has returned are the body of a frame of its type and number, and they
-- fit the structure of its caller exactly when they are no more than that.
theorem answer_fits_iff {tick : UInt64} {history : MailHistory} {box : Mailbox}
    (run : Run mailStep fromReader { tick } history box) {i : Nat} {waiter : Waiter} {buf : Bytes}
    (hwaiter : box.waiters[i]? = some waiter) (hphase : waiter.phase = .returned 0 buf) :
    ∃ avail rest, readTask avail = some (some ⟨waiter.iType, waiter.seqnum, buf⟩, rest) ∧
      (AnswerFits waiter.iType buf ↔
        ∀ size, answerSize waiter.iType = some size → buf.length ≤ size) := by
  have hinv : MailInvariant history box := run.invariant MailInvariant (.init tick)
    fun _ _ _ _ _ h _ hs => h.step (mailStep_move hs)
  have hinserted : ∀ m ∈ arrivals history ++ box.pending, Inserted history m :=
    run.invariant (fun history box => ∀ m ∈ arrivals history ++ box.pending, Inserted history m)
      (by simp [arrivals]) fun _ _ _ _ _ h _ hs => inserted_step h hs
  obtain ⟨m, hmem, rfl, hfor⟩ := hinv.served i waiter buf hwaiter hphase
  obtain ⟨htype, hseq⟩ := (waiter.isFor_iff m).mp hfor
  have hgone : m ∈ gone history :=
    (handedOut_sublist_gone history).subset (List.mem_flatMap.mpr ⟨_, hmem, List.mem_singleton_self m⟩)
  have harrived := hinv.ledger.perm.mem_iff.mpr (List.mem_append_right _ hgone)
  obtain ⟨stamp, hevent⟩ := hinserted m (List.mem_append_left _ harrived)
  obtain ⟨later, earlier, rfl⟩ := List.mem_iff_append.mp hevent
  obtain ⟨before, after, -, hguard, -⟩ := run.step_of_suffix (List.suffix_append later _)
  obtain ⟨avail, rest, hread⟩ := hguard
  rw [← htype, ← hseq]
  exact ⟨avail, rest, hread, answerFits_iff _ _⟩

-- The bytes of an answer with a body of this length, and the events that bring it to a call.
def stopAnswer (size : Nat) : Bytes :=
  field "atb" 4 ++ intBytes RESP_STOP_PUSH ++ intBytes 5 ++ intBytes size ++ field "" 64 ++ zeros size

def answerEvents (size : Nat) : List MailEvent :=
  [.insertMsg RESP_STOP_PUSH 5 (zeros size) 10, .pushBack 0, .waitforResponse RESP_STOP_PUSH 5,
    .refresh 0 [20], .start 0 30, .wake 0 70, .find 0]

theorem exists_answered (size : Nat)
    (hread : readTask (stopAnswer size) = some (some ⟨RESP_STOP_PUSH, 5, zeros size⟩, []))
    (hends : ends mailStep { tick := 0 } (answerEvents size)
      (fun _ box => box.waiters == [⟨RESP_STOP_PUSH, 5, .returned 0 (zeros size)⟩]) = true) :
    ∃ history box, Run mailStep fromReader { tick := 0 } history box ∧
      box.waiters[0]? = some ⟨RESP_STOP_PUSH, 5, .returned 0 (zeros size)⟩ := by
  have hguarded : Guarded mailStep fromReader { tick := 0 } [] (answerEvents size) := by
    refine .cons ⟨_, _, hread⟩ fun _ _ _ => ?_
    refine .cons trivial fun _ _ _ => .cons trivial fun _ _ _ => .cons trivial fun _ _ _ => ?_
    exact .cons trivial fun _ _ _ => .cons trivial fun _ _ _ => .cons trivial fun _ _ _ => trivial
  obtain ⟨history, box, run, htest⟩ := exists_run_of_ends mailStep fromReader _ _ _ hguarded hends
  exact ⟨history, box, run, by rw [beq_iff_eq.mp htest]; rfl⟩

-- An answer of 4 bytes fits, with zeros behind it.
theorem answer_fits_iff_short : ∃ history box,
    Run mailStep fromReader { tick := 0 } history box ∧
      box.waiters[0]? = some ⟨RESP_STOP_PUSH, 5, .returned 0 (zeros 4)⟩ ∧
      AnswerFits RESP_STOP_PUSH (zeros 4) := by
  obtain ⟨history, box, run, hwaiter⟩ := exists_answered 4 (by decide +kernel) (by decide +kernel)
  obtain ⟨-, -, -, hiff⟩ := answer_fits_iff run hwaiter rfl
  refine ⟨history, box, run, hwaiter, hiff.mpr fun size hsize => ?_⟩
  cases hsize
  decide

-- An answer of 69 bytes is copied over the end of the structure.
theorem long_answer_overruns : ∃ history box,
    Run mailStep fromReader { tick := 0 } history box ∧
      box.waiters[0]? = some ⟨RESP_STOP_PUSH, 5, .returned 0 (zeros 69)⟩ ∧
      ¬ AnswerFits RESP_STOP_PUSH (zeros 69) := by
  obtain ⟨history, box, run, hwaiter⟩ := exists_answered 69 (by decide +kernel) (by decide +kernel)
  refine ⟨history, box, run, hwaiter, fun hfits => ?_⟩
  have hle := (answerFits_iff _ _).mp hfits sizeofRespStopPush rfl
  revert hle
  decide

end VideoAdapter.Adapter
