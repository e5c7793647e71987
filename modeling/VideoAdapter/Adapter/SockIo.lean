import VideoAdapter.Lib.Buffer
import VideoAdapter.Adapter.ReadTask
import VideoAdapter.Adapter.Sending

namespace VideoAdapter.Adapter.SOCKIO

open Lib

-- What one `send` of the loop in `ETSend` comes to: the number of bytes the kernel took, at least
-- one, or a failure, whose `errno` is `EAGAIN` or another one.
inductive SendOutcome where
  | nwritten (k : Nat)
  | eagain
  | error
deriving DecidableEq, Repr

-- The same for one `recv` of the loop in `ETRecv`, which may also find the connection closed.
inductive RecvOutcome where
  | nread (k : Nat)
  | eagain
  | error
  | eof
deriving DecidableEq, Repr

-- A call of `ETSend` that has returned: the value, the bytes the kernel accepted, and the outcomes
-- for which no `send` was made.
structure SendReturn where
  value : Int
  accepted : Bytes
  unused : List SendOutcome
deriving DecidableEq, Repr

-- A call of `ETRecv` that has returned: the value, the buffer, and what is left of the stream.
structure RecvReturn where
  value : Int
  vptr : Bytes
  stream : Bytes
  unused : List RecvOutcome
deriving DecidableEq, Repr

-- `ptr` is an offset into `vptr`. There is no result while the loop has another `send` to make.
def etSendLoop (vptr : Bytes) (n : Nat) (accepted : Bytes) (ptr nleft : Nat) :
    List SendOutcome → Option SendReturn
  | [] => if nleft = 0 then some ⟨n - nleft, accepted, []⟩ else none
  | outcome :: rest =>
      if nleft = 0 then some ⟨n - nleft, accepted, outcome :: rest⟩
      else
        match outcome with
        | .nwritten k =>
            etSendLoop vptr n (accepted ++ (vptr.drop ptr).take k) (ptr + k) (nleft - k) rest
        -- `usleep`, then the same `send` again
        | .eagain => etSendLoop vptr n accepted ptr nleft rest
        | .error => some ⟨-1, accepted, rest⟩

def etSend (vptr : Bytes) (n : Nat) (outcomes : List SendOutcome) : Option SendReturn :=
  etSendLoop vptr n [] 0 n outcomes

-- `recv` copies the next bytes of the stream to `ptr`; a copy that leaves the buffer has no result.
def etRecvLoop (n : Nat) (vptr stream : Bytes) (ptr nleft : Nat) :
    List RecvOutcome → Option RecvReturn
  | [] => if nleft = 0 then some ⟨n - nleft, vptr, stream, []⟩ else none
  | outcome :: rest =>
      if nleft = 0 then some ⟨n - nleft, vptr, stream, outcome :: rest⟩
      else
        match outcome with
        | .nread k =>
            (copyAt vptr ptr (stream.take k)).bind fun vptr =>
              etRecvLoop n vptr (stream.drop k) (ptr + k) (nleft - k) rest
        -- each of the three leaves the loop by its own `break`
        | .eagain => some ⟨n - nleft, vptr, stream, rest⟩
        | .error => some ⟨n - nleft, vptr, stream, rest⟩
        | .eof => some ⟨n - nleft, vptr, stream, rest⟩

def etRecv (vptr : Bytes) (n : Nat) (stream : Bytes) (outcomes : List RecvOutcome) :
    Option RecvReturn :=
  etRecvLoop n vptr stream 0 n outcomes

-- The kernel takes at least one byte and no more than it is offered. Nothing is said of the outcomes
-- that the loop does not come to.
def SendCounts : Nat → List SendOutcome → Prop
  | _, [] => True
  | nleft, outcome :: rest =>
      nleft ≠ 0 →
        match outcome with
        | .nwritten k => 0 < k ∧ k ≤ nleft ∧ SendCounts (nleft - k) rest
        | .eagain => SendCounts nleft rest
        | .error => True

-- It hands over at least one byte, no more than there is room for, and no more than the stream has.
def RecvCounts : Nat → Nat → List RecvOutcome → Prop
  | _, _, [] => True
  | nleft, avail, outcome :: rest =>
      nleft ≠ 0 →
        match outcome with
        | .nread k => 0 < k ∧ k ≤ nleft ∧ k ≤ avail ∧ RecvCounts (nleft - k) (avail - k) rest
        | _ => True

-- All the bytes of a list of outcomes.
def written : List SendOutcome → Nat
  | [] => 0
  | .nwritten k :: rest => k + written rest
  | _ :: rest => written rest

-- The bytes that come before the first would-block, error or end of file.
def readBefore : List RecvOutcome → Nat
  | [] => 0
  | .nread k :: rest => k + readBefore rest
  | _ :: _ => 0

def RecvOutcome.stops : RecvOutcome → Bool
  | .nread _ => false
  | _ => true

-- The buffer once and in order, or a beginning of it and -1.
structure SentOnce (vptr : Bytes) (used : List SendOutcome) (sent : SendReturn) : Prop where
  value_iff : sent.value = vptr.length ↔ .error ∉ used
  whole : .error ∉ used → sent.accepted = vptr
  failed : .error ∈ used → sent.value = -1 ∧ sent.accepted <+: vptr

-- The first `k` bytes of the stream are the first `k` bytes of the buffer; behind them the buffer is
-- as it was, and the stream goes on.
structure ReadOnce (vptr stream : Bytes) (k : Nat) (read : RecvReturn) : Prop where
  value_eq : read.value = k
  le_stream : k ≤ stream.length
  vptr_eq : read.vptr = stream.take k ++ vptr.drop k
  stream_eq : read.stream = stream.drop k

theorem etSendLoop_of_done (vptr : Bytes) (n : Nat) (accepted : Bytes) (ptr : Nat)
    (outcomes : List SendOutcome) :
    etSendLoop vptr n accepted ptr 0 outcomes = some ⟨n, accepted, outcomes⟩ := by
  cases outcomes <;> simp [etSendLoop]

theorem etRecvLoop_of_done (n : Nat) (vptr stream : Bytes) (ptr : Nat)
    (outcomes : List RecvOutcome) :
    etRecvLoop n vptr stream ptr 0 outcomes = some ⟨n, vptr, stream, outcomes⟩ := by
  cases outcomes <;> simp [etRecvLoop]

-- The loop of `ETSend` ends when everything is taken or an error comes, and not before.
theorem etSendLoop_isSome (vptr : Bytes) (n : Nat) (accepted : Bytes) (ptr nleft : Nat)
    (outcomes : List SendOutcome) :
    (etSendLoop vptr n accepted ptr nleft outcomes).isSome ↔
      .error ∈ outcomes ∨ nleft ≤ written outcomes := by
  induction outcomes generalizing accepted ptr nleft with
  | nil =>
      rw [etSendLoop, written]
      by_cases hleft : nleft = 0
      · simp [hleft]
      · simp [hleft]
  | cons outcome rest ih =>
      by_cases hleft : nleft = 0
      · subst hleft
        rw [etSendLoop_of_done]
        simp
      · cases outcome with
        | nwritten k =>
            simp only [etSendLoop, if_neg hleft, ih, written, List.mem_cons, reduceCtorEq, false_or]
            refine or_congr_right ?_
            omega
        | eagain =>
            simp only [etSendLoop, if_neg hleft, ih, written, List.mem_cons, reduceCtorEq, false_or]
        | error => simp [etSendLoop, hleft]

-- The end of a call: the whole buffer without an error, or a beginning of it and then the error.
def SendEnds (vptr : Bytes) (n : Nat) (outcomes : List SendOutcome) (sent : SendReturn) : Prop :=
  ∃ used, outcomes = used ++ sent.unused ∧
    (.error ∉ used ∧ sent.value = n ∧ sent.accepted = vptr ∨
      .error ∈ used ∧ sent.value = -1 ∧ sent.accepted <+: vptr)

theorem SendEnds.cons {vptr : Bytes} {n : Nat} {outcomes : List SendOutcome} {sent : SendReturn}
    (h : SendEnds vptr n outcomes sent) {outcome : SendOutcome} (houtcome : outcome ≠ .error) :
    SendEnds vptr n (outcome :: outcomes) sent := by
  obtain ⟨used, rfl, hend⟩ := h
  refine ⟨outcome :: used, rfl, ?_⟩
  simp only [List.mem_cons, houtcome.symm, false_or]
  exact hend

theorem sendEnds_of_done {vptr : Bytes} {n : Nat} {accepted : Bytes} {ptr : Nat}
    {outcomes : List SendOutcome} {sent : SendReturn}
    (hblock : (Writer.mk accepted (vptr.drop ptr)).block = vptr) (hleft : (vptr.drop ptr).length = 0)
    (hsend : etSendLoop vptr n accepted ptr 0 outcomes = some sent) :
    SendEnds vptr n outcomes sent := by
  rw [Writer.block, List.length_eq_zero_iff.mp hleft, List.append_nil] at hblock
  rw [etSendLoop_of_done] at hsend
  obtain rfl := Option.some.inj hsend
  exact ⟨[], rfl, .inl ⟨List.not_mem_nil, rfl, hblock⟩⟩

-- What is accepted and what is still to send are the buffer together, in every round.
theorem etSendLoop_ends {vptr : Bytes} {n : Nat} {accepted : Bytes} {ptr nleft : Nat}
    {outcomes : List SendOutcome} {sent : SendReturn} (hcounts : SendCounts nleft outcomes)
    (hblock : (Writer.mk accepted (vptr.drop ptr)).block = vptr)
    (hleft : (vptr.drop ptr).length = nleft)
    (hsend : etSendLoop vptr n accepted ptr nleft outcomes = some sent) :
    SendEnds vptr n outcomes sent := by
  induction outcomes generalizing accepted ptr nleft with
  | nil =>
      by_cases hdone : nleft = 0
      · subst hdone
        exact sendEnds_of_done hblock hleft hsend
      · simp [etSendLoop, hdone] at hsend
  | cons outcome rest ih =>
      by_cases hdone : nleft = 0
      · subst hdone
        exact sendEnds_of_done hblock hleft hsend
      have hcount := hcounts hdone
      cases outcome with
      | nwritten k =>
          obtain ⟨-, -, hrest⟩ := hcount
          simp only [etSendLoop, if_neg hdone] at hsend
          have hnext : (vptr.drop ptr).drop k = vptr.drop (ptr + k) := List.drop_drop
          refine (ih hrest ?_ ?_ hsend).cons SendOutcome.noConfusion
          · -- the bytes taken in this round move from one side to the other
            rw [← hnext]
            exact (Writer.block_advance _ k).trans hblock
          · rw [← hnext, List.length_drop, hleft]
      | eagain =>
          simp only [etSendLoop, if_neg hdone] at hsend
          exact (ih hcount hblock hleft hsend).cons SendOutcome.noConfusion
      | error =>
          simp only [etSendLoop, if_neg hdone] at hsend
          obtain rfl := Option.some.inj hsend
          refine ⟨[.error], rfl, .inr ⟨List.mem_singleton_self _, rfl, vptr.drop ptr, hblock⟩⟩

theorem SendEnds.sentOnce {vptr : Bytes} {outcomes : List SendOutcome} {sent : SendReturn}
    (h : SendEnds vptr vptr.length outcomes sent) :
    ∃ used, outcomes = used ++ sent.unused ∧ SentOnce vptr used sent := by
  obtain ⟨used, hused, ⟨herror, hvalue, haccepted⟩ | ⟨herror, hvalue, hprefix⟩⟩ := h
  · refine ⟨used, hused, iff_of_true hvalue herror, fun _ => haccepted, ?_⟩
    exact fun h => absurd h herror
  · refine ⟨used, hused, iff_of_false ?_ (not_not.mpr herror), ?_, fun _ => ⟨hvalue, hprefix⟩⟩
    · rw [hvalue]
      omega
    · exact fun h => absurd herror h

-- One `recv` stores its bytes behind those of the rounds before.
theorem copyAt_behind (taken buffer data : Bytes) (h : data.length ≤ buffer.length) :
    copyAt (taken ++ buffer) taken.length data =
      some (taken ++ data ++ buffer.drop data.length) := by
  have hold : (buffer.take data.length).length = data.length := by
    rw [List.length_take]
    omega
  have hsplit : taken ++ buffer = taken ++ buffer.take data.length ++ buffer.drop data.length := by
    rw [List.append_assoc, List.take_append_drop]
  rw [hsplit]
  exact copyAt_middle taken _ _ data hold.symm

theorem etRecvLoop_nread {n : Nat} {taken buffer stream : Bytes} {nleft k : Nat}
    {rest : List RecvOutcome} (hdone : nleft ≠ 0) (hroom : k ≤ buffer.length)
    (havail : k ≤ stream.length) :
    etRecvLoop n (taken ++ buffer) stream taken.length nleft (.nread k :: rest) =
      etRecvLoop n (taken ++ stream.take k ++ buffer.drop k) (stream.drop k)
        (taken ++ stream.take k).length (nleft - k) rest := by
  have hlength : (stream.take k).length = k := List.length_take_of_le havail
  have hcopy := copyAt_behind taken buffer (stream.take k) (hlength.le.trans hroom)
  rw [hlength] at hcopy
  simp only [etRecvLoop, if_neg hdone, hcopy, Option.bind_some, List.length_append, hlength]

section Stops

variable {outcome : RecvOutcome}

theorem exists_nread (h : ¬ outcome.stops = true) : ∃ k, outcome = .nread k := by
  cases outcome with
  | nread k => exact ⟨k, rfl⟩
  | eagain => exact absurd rfl h
  | error => exact absurd rfl h
  | eof => exact absurd rfl h

-- A would-block, an error and the end of the file do the same.
theorem etRecvLoop_of_stops (h : outcome.stops = true) (n : Nat) (vptr stream : Bytes) (ptr : Nat)
    {nleft : Nat} (hdone : nleft ≠ 0) (rest : List RecvOutcome) :
    etRecvLoop n vptr stream ptr nleft (outcome :: rest) = some ⟨n - nleft, vptr, stream, rest⟩ := by
  cases outcome with
  | nread k => cases h
  | eagain => exact if_neg hdone
  | error => exact if_neg hdone
  | eof => exact if_neg hdone

theorem readBefore_of_stops (h : outcome.stops = true) (rest : List RecvOutcome) :
    readBefore (outcome :: rest) = 0 := by
  cases outcome with
  | nread k => cases h
  | eagain => rfl
  | error => rfl
  | eof => rfl

end Stops

-- The loop of `ETRecv` ends when the buffer is full or a `recv` fails, and not before.
theorem etRecvLoop_isSome {n : Nat} {taken buffer stream : Bytes} {nleft : Nat}
    {outcomes : List RecvOutcome} (hcounts : RecvCounts nleft stream.length outcomes)
    (hroom : nleft ≤ buffer.length) :
    (etRecvLoop n (taken ++ buffer) stream taken.length nleft outcomes).isSome ↔
      outcomes.any RecvOutcome.stops ∨ nleft ≤ readBefore outcomes := by
  induction outcomes generalizing taken buffer stream nleft with
  | nil =>
      rw [etRecvLoop, readBefore]
      by_cases hdone : nleft = 0
      · simp [hdone]
      · simp [hdone]
  | cons outcome rest ih =>
      by_cases hdone : nleft = 0
      · subst hdone
        rw [etRecvLoop_of_done]
        simp
      by_cases hstops : outcome.stops = true
      · rw [etRecvLoop_of_stops hstops _ _ _ _ hdone]
        simp [hstops]
      · obtain ⟨k, rfl⟩ := exists_nread hstops
        obtain ⟨-, hk, havail, hrest⟩ := hcounts hdone
        rw [← List.length_drop] at hrest
        rw [etRecvLoop_nread hdone (by omega) havail, ih hrest (by rw [List.length_drop]; omega)]
        simp only [List.any_cons, RecvOutcome.stops, Bool.false_or, readBefore]
        refine or_congr_right ?_
        omega

-- A loop that leaves here has read nothing more.
theorem read_nothing_more {n nleft : Nat} {taken buffer stream : Bytes} {unused : List RecvOutcome}
    {read : RecvReturn}
    (hread : some (⟨n - nleft, taken ++ buffer, stream, unused⟩ : RecvReturn) = some read) :
    read.value = n - nleft + (0 : Nat) ∧ read.vptr = taken ++ stream.take 0 ++ buffer.drop 0 ∧
      read.stream = stream.drop 0 := by
  obtain rfl := Option.some.inj hread
  refine ⟨?_, ?_, rfl⟩
  · exact (Int.add_zero _).symm
  · rw [List.take_zero, List.append_nil, List.drop_zero]

-- The bytes of the rounds before stand in front, and those of the rounds to come follow them.
theorem etRecvLoop_spec {n : Nat} {taken buffer stream : Bytes} {nleft : Nat}
    {outcomes : List RecvOutcome} {read : RecvReturn}
    (hcounts : RecvCounts nleft stream.length outcomes) (hroom : nleft ≤ buffer.length)
    (hread : etRecvLoop n (taken ++ buffer) stream taken.length nleft outcomes = some read) :
    ∃ k, k = min nleft (readBefore outcomes) ∧ k ≤ stream.length ∧
      read.value = n - nleft + k ∧ read.vptr = taken ++ stream.take k ++ buffer.drop k ∧
      read.stream = stream.drop k := by
  induction outcomes generalizing taken buffer stream nleft with
  | nil =>
      by_cases hdone : nleft = 0
      · subst hdone
        exact ⟨0, rfl, Nat.zero_le _, read_nothing_more hread⟩
      · simp [etRecvLoop, hdone] at hread
  | cons outcome rest ih =>
      by_cases hdone : nleft = 0
      · subst hdone
        rw [etRecvLoop_of_done, ← Int.sub_zero n] at hread
        exact ⟨0, (Nat.zero_min _).symm, Nat.zero_le _, read_nothing_more hread⟩
      by_cases hstops : outcome.stops = true
      · rw [etRecvLoop_of_stops hstops _ _ _ _ hdone] at hread
        rw [readBefore_of_stops hstops]
        exact ⟨0, (Nat.min_zero _).symm, Nat.zero_le _, read_nothing_more hread⟩
      · obtain ⟨j, rfl⟩ := exists_nread hstops
        obtain ⟨-, hj, havail, hrest⟩ := hcounts hdone
        rw [← List.length_drop] at hrest
        rw [etRecvLoop_nread hdone (by omega) havail] at hread
        obtain ⟨k, hk, hle, hvalue, hvptr, hstream⟩ :=
          ih hrest (by rw [List.length_drop]; omega) hread
        rw [List.length_drop] at hle
        refine ⟨j + k, ?_, by omega, by omega, ?_, ?_⟩
        · rw [hk, readBefore]
          omega
        · rw [hvptr, List.take_add, List.drop_drop]
          simp only [List.append_assoc]
        · rw [hstream, List.drop_drop]

theorem etRecv_readOnce {vptr stream : Bytes} {outcomes : List RecvOutcome} {read : RecvReturn}
    (hcounts : RecvCounts vptr.length stream.length outcomes)
    (hread : etRecv vptr vptr.length stream outcomes = some read) :
    ReadOnce vptr stream (min vptr.length (readBefore outcomes)) read := by
  obtain ⟨k, rfl, hle, hvalue, hvptr, hstream⟩ :=
    @etRecvLoop_spec vptr.length [] vptr stream vptr.length outcomes read hcounts le_rfl hread
  refine ⟨?_, hle, hvptr, hstream⟩
  rw [hvalue, Int.sub_self, Int.zero_add]

theorem transfers_once_in_order {vptr : Bytes} {sends : List SendOutcome}
    (hsends : SendCounts vptr.length sends) {buffer stream : Bytes} {reads : List RecvOutcome}
    (hreads : RecvCounts buffer.length stream.length reads) :
    (((etSend vptr vptr.length sends).isSome ↔ .error ∈ sends ∨ vptr.length ≤ written sends) ∧
        ∀ sent, etSend vptr vptr.length sends = some sent →
          ∃ used, sends = used ++ sent.unused ∧ SentOnce vptr used sent) ∧
      (((etRecv buffer buffer.length stream reads).isSome ↔
          reads.any RecvOutcome.stops ∨ buffer.length ≤ readBefore reads) ∧
        ∀ read, etRecv buffer buffer.length stream reads = some read →
          ReadOnce buffer stream (min buffer.length (readBefore reads)) read) := by
  refine ⟨⟨etSendLoop_isSome vptr vptr.length [] 0 vptr.length sends, ?_⟩, ?_, ?_⟩
  · intro sent hsend
    exact (etSendLoop_ends hsends rfl rfl hsend).sentOnce
  · exact @etRecvLoop_isSome buffer.length [] buffer stream buffer.length reads hreads le_rfl
  · intro read hread
    exact etRecv_readOnce hreads hread

-- Three bytes in two pieces with a retry between them, and two of four before the stream is empty.
theorem transfers_once_in_order_pieces :
    (∃ sent, etSend [1, 2, 3] 3 [.nwritten 1, .eagain, .nwritten 2] = some sent ∧
        ∃ used, [.nwritten 1, .eagain, .nwritten 2] = used ++ sent.unused ∧
          SentOnce [1, 2, 3] used sent) ∧
      ∃ read, etRecv [0, 0, 0, 0] 4 [7, 8] [.nread 1, .nread 1, .eof] = some read ∧
        ReadOnce [0, 0, 0, 0] [7, 8] 2 read := by
  obtain ⟨⟨-, hsent⟩, -, hread⟩ := @transfers_once_in_order [1, 2, 3]
    [.nwritten 1, .eagain, .nwritten 2] (by simp [SendCounts]) [0, 0, 0, 0] [7, 8]
    [.nread 1, .nread 1, .eof] (by simp [RecvCounts])
  exact ⟨⟨_, rfl, hsent _ rfl⟩, _, rfl, hread _ rfl⟩

-- A round as a step of the socket; the round that fails gives the kernel nothing.
def SendOutcome.event (i : Nat) : SendOutcome → Option SendEvent
  | .nwritten k => some (.send i (.nwritten k))
  | .eagain => some (.send i .eagain)
  | .error => none

theorem sendStep_nwritten {socket : Socket} {i k : Nat} {call : Writer UInt8}
    (hcall : socket.writers[i]? = some call) (hk : 0 < k) (hleft : k ≤ call.left.length) :
    sendStep socket (.send i (.nwritten k)) = some (socket.write i call k, ()) := by
  have hsome : call.left ≠ [] := List.ne_nil_of_length_pos (by omega)
  simp [sendStep, hcall, hsome, hk, hleft]

theorem sendStep_eagain {socket : Socket} {i : Nat} {call : Writer UInt8}
    (hcall : socket.writers[i]? = some call) (hleft : call.left.length ≠ 0) :
    sendStep socket (.send i .eagain) = some (socket, ()) := by
  have hsome : call.left ≠ [] := fun h => hleft (List.length_eq_zero_iff.mpr h)
  simp [sendStep, hcall, hsome]

-- The rounds of a call are steps of the socket that bring what the kernel accepts onto the wire.
theorem exec_etSendLoop {socket : Socket} {i : Nat} {vptr : Bytes} {n : Nat} {accepted : Bytes}
    {ptr nleft : Nat} {outcomes : List SendOutcome} {sent : SendReturn}
    (hcall : socket.writers[i]? = some ⟨accepted, vptr.drop ptr⟩)
    (hleft : (vptr.drop ptr).length = nleft) (hcounts : SendCounts nleft outcomes)
    (hsend : etSendLoop vptr n accepted ptr nleft outcomes = some sent)
    {earlier : Bytes} (hreceived : socket.received = earlier ++ accepted)
    (history : List (SendEvent × Unit)) :
    ∃ used after record, outcomes = used ++ sent.unused ∧
      exec sendStep socket history (used.filterMap (SendOutcome.event i)) = some (after, record) ∧
        after.received = earlier ++ sent.accepted := by
  induction outcomes generalizing socket accepted ptr nleft history with
  | nil =>
      by_cases hdone : nleft = 0
      · subst hdone
        rw [etSendLoop_of_done] at hsend
        obtain rfl := Option.some.inj hsend
        exact ⟨[], socket, history, rfl, rfl, hreceived⟩
      · simp [etSendLoop, hdone] at hsend
  | cons outcome rest ih =>
      by_cases hdone : nleft = 0
      · subst hdone
        rw [etSendLoop_of_done] at hsend
        obtain rfl := Option.some.inj hsend
        exact ⟨[], socket, history, rfl, rfl, hreceived⟩
      have hcount := hcounts hdone
      cases outcome with
      | nwritten k =>
          obtain ⟨hk, hroom, hrest⟩ := hcount
          simp only [etSendLoop, if_neg hdone] at hsend
          have hnext : (vptr.drop ptr).drop k = vptr.drop (ptr + k) := List.drop_drop
          have hwriter : (socket.write i ⟨accepted, vptr.drop ptr⟩ k).writers[i]? =
              some ⟨accepted ++ (vptr.drop ptr).take k, vptr.drop (ptr + k)⟩ := by
            rw [Wire.getElem?_write hcall, if_pos rfl, Writer.advance, hnext]
          have hwire : (socket.write i ⟨accepted, vptr.drop ptr⟩ k).received =
              earlier ++ (accepted ++ (vptr.drop ptr).take k) := by
            rw [Wire.write, hreceived, List.append_assoc]
          have hs := sendStep_nwritten hcall hk (hleft ▸ hroom)
          obtain ⟨used, after, record, hused, hexec, hafter⟩ :=
            ih hwriter (by rw [← hnext, List.length_drop, hleft]) hrest hsend hwire
              ((.send i (.nwritten k), ()) :: history)
          refine ⟨.nwritten k :: used, after, record, by rw [hused, List.cons_append], ?_, hafter⟩
          exact (exec_cons hs history _).trans hexec
      | eagain =>
          simp only [etSendLoop, if_neg hdone] at hsend
          have hs := sendStep_eagain hcall (hleft ▸ hdone)
          obtain ⟨used, after, record, hused, hexec, hafter⟩ :=
            ih hcall hleft hcount hsend hreceived ((.send i .eagain, ()) :: history)
          refine ⟨.eagain :: used, after, record, by rw [hused, List.cons_append], ?_, hafter⟩
          exact (exec_cons hs history _).trans hexec
      | error =>
          simp only [etSendLoop, if_neg hdone] at hsend
          obtain rfl := Option.some.inj hsend
          exact ⟨[.error], socket, history, rfl, rfl, hreceived⟩

-- A frame that has the socket to itself: all that arrives is what its call got accepted.
theorem exists_run_etSend {frame : OutFrame} {vptr : Bytes} {outcomes : List SendOutcome}
    {sent : SendReturn} (hbuild : frame.build = some vptr)
    (hcounts : SendCounts vptr.length outcomes)
    (hsend : etSend vptr vptr.length outcomes = some sent) :
    ∃ history socket, Run sendStep free {} history socket ∧ socket.received = sent.accepted := by
  have hs : sendStep {} (.etSend frame) = some (({} : Socket).enter vptr, ()) := by
    rw [sendStep, hbuild, Option.map_some]
  have hcall : (({} : Socket).enter vptr).writers[0]? = some ⟨[], vptr.drop 0⟩ := rfl
  obtain ⟨used, socket, history, -, hexec, hreceived⟩ :=
    @exec_etSendLoop _ 0 vptr _ _ 0 _ _ _ hcall rfl hcounts hsend [] rfl [(.etSend frame, ())]
  exact ⟨history, socket, (Run.init.next trivial hs).exec (guarded_free _ _ _) hexec, hreceived⟩

-- A `recv` that fails only when there is nothing to read makes this the call that the tasks use.
theorem etRecv_eq_of_drained {vptr stream : Bytes} {outcomes : List RecvOutcome} {read : RecvReturn}
    (hcounts : RecvCounts vptr.length stream.length outcomes)
    (hread : etRecv vptr vptr.length stream outcomes = some read)
    (hdrained : read.stream = [] ∨ read.value = vptr.length) :
    Adapter.etRecv stream vptr.length = (read.vptr.take read.value.toNat, read.stream) := by
  obtain ⟨hvalue, hle, hvptr, hstream⟩ := etRecv_readOnce hcounts hread
  generalize hk : min vptr.length (readBefore outcomes) = k at hvalue hle hvptr hstream
  have htake : read.vptr.take read.value.toNat = stream.take k := by
    rw [hvptr, hvalue, Int.toNat_natCast]
    exact List.take_left' (List.length_take_of_le hle)
  rw [etRecv_eq, htake, hstream]
  rcases hdrained with hempty | hfull
  · -- both take everything there is
    have hlen : stream.length ≤ k := List.drop_eq_nil_iff.mp (hstream.symm.trans hempty)
    have hn : k ≤ vptr.length := hk ▸ Nat.min_le_left _ _
    rw [List.take_of_length_le hlen, List.take_of_length_le (hlen.trans hn),
      List.drop_of_length_le hlen, List.drop_of_length_le (hlen.trans hn)]
  · obtain rfl : k = vptr.length := by omega
    rfl

end VideoAdapter.Adapter.SOCKIO
