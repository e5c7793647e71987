import Std.Data.ExtTreeMap
import Mathlib.Logic.Relation
import VideoAdapter.Lib.Run
import VideoAdapter.Adapter.ReadTask

namespace VideoAdapter.Adapter

open Lib

-- Where a call stands that works on a descriptor: a `TaskTcpReadMsg` before its header or its
-- body, before `ResetOneshot`, in `HandlerRead` or in `HandleLoginEx`; any of the calls that send
-- on the descriptor and remove the client if that fails; and `DelClient(fd)` before the list or
-- before `close`. What was read last came from the connection `source`.
inductive FdPhase where
  | header
  | body (h : MsgHeader)
  | reset (source : Option Nat) (call : ReadCall)
  | handle (source : Option Nat) (call : ReadCall)
  | login (source : Option Nat) (cmsid : String)
  | send
  | erase
  | close
  | done
deriving DecidableEq, Repr

-- `conn` is the connection that the call is about, `fd` the number it works with.
structure FdCall where
  conn : Nat
  fd : Int
  phase : FdPhase
deriving DecidableEq, Repr

-- A registered client: the connection that logged in, and the number it was given.
structure FdClient where
  conn : Nat
  fd : Int
  cmsid : String
deriving DecidableEq, Repr

-- Connections are counted as they are accepted. `fds` are the open descriptors, `avail` the bytes
-- that have arrived on each connection and were not read.
structure Descriptors where
  fds : Std.ExtTreeMap Int Nat := ∅
  avail : List Bytes := []
  clientlist : List FdClient := []
  calls : List FdCall := []

inductive FdEvent where
  | accept (connfd : Int)
  | arrive (conn : Nat) (bytes : Bytes)
  | readable (fd : Int)
  | poolFull (call : Nat)
  | advance (call : Nat) (ok : Bool)
  | request (cmsid : String)
  | delClient (cmsid : String)
  | heartbeat (cmsid : String)

-- What a call about one connection does to a connection.
inductive FdAction where
  | read (conn : Nat)
  | unregistered (conn : Nat)
  | closed (conn : Nat)
deriving DecidableEq, Repr

def FdAction.conn : FdAction → Nat
  | .read conn => conn
  | .unregistered conn => conn
  | .closed conn => conn

-- The connection a step is about, and what it does.
structure FdOutput where
  about : Nat := 0
  actions : List FdAction := []
deriving DecidableEq, Repr

def FdOutput.Own (output : FdOutput) : Prop := ∀ action ∈ output.actions, action.conn = output.about

namespace Descriptors

def goto (s : Descriptors) (i : Nat) (call : FdCall) (phase : FdPhase) : Descriptors :=
  { s with calls := s.calls.set i { call with phase } }

-- `recv` on a number that is not open fails.
def recv (s : Descriptors) (fd : Int) (n : Int) : Descriptors × Bytes :=
  match s.fds[fd]? with
  | none => (s, [])
  | some conn =>
      let (data, rest) := etRecv (s.avail.getD conn []) n
      ({ s with avail := s.avail.set conn rest }, data)

def header (s : Descriptors) (i : Nat) (call : FdCall) : Descriptors × FdOutput :=
  let (after, bytes) := s.recv call.fd sizeofMsgHeader
  let h := MsgHeader.decode bytes
  let phase :=
    if bytes.length ≠ sizeofMsgHeader then .erase
    else if bytes.take 3 ≠ field "atb" 3 then .erase
    else if h.size = 0 then .reset (s.fds[call.fd]?) ⟨h.cmd, 0, []⟩
    else .body h
  (after.goto i call phase, { about := call.conn, actions := (s.fds[call.fd]?.map .read).toList })

-- More data than the array holds runs over it: no result then.
def body (s : Descriptors) (i : Nat) (call : FdCall) (h : MsgHeader) : Option (Descriptors × FdOutput) :=
  let (after, data) := s.recv call.fd h.size
  if MAX_BUF_SIZE < data.length then none
  else
    let phase :=
      if data.length ≠ h.size then .erase else .reset (s.fds[call.fd]?) ⟨h.cmd, h.seq, data⟩
    some (after.goto i call phase,
      { about := call.conn, actions := (s.fds[call.fd]?.map .read).toList })

def close (s : Descriptors) (i : Nat) (call : FdCall) : Descriptors × FdOutput :=
  (goto { s with fds := s.fds.erase call.fd } i call .done,
    { about := call.conn, actions := (s.fds[call.fd]?.map FdAction.closed).toList })

def erase (s : Descriptors) (i : Nat) (call : FdCall) : Descriptors × FdOutput :=
  (goto { s with clientlist := s.clientlist.eraseP fun p => p.fd == call.fd } i call .close,
    { about := call.conn
      actions := ((s.clientlist.find? fun p => p.fd == call.fd).map fun p =>
        FdAction.unregistered p.conn).toList })

-- The client's list entry, or the first request of a connection without one.
def handlePhase (s : Descriptors) (fd : Int) (source : Option Nat) (call : ReadCall) : FdPhase :=
  match s.clientlist.find? fun p => p.fd == fd with
  | none =>
      if call.cmd ≠ REQ_LOGIN ∨ call.buf.length ≠ sizeofReqLogin then .close
      else .login source (ReqLogin.decode call.buf).cmsid
  | some _ => if call.cmd = KEEP_ALIVE then .send else .done

-- `ok` is what the world contributes: whether the login is accepted, whether a frame is sent.
def advance (s : Descriptors) (i : Nat) (ok : Bool) (call : FdCall) : Option (Descriptors × FdOutput) :=
  match call.phase with
  | .header => some (s.header i call)
  | .body h => s.body i call h
  | .reset source read => some (s.goto i call (.handle source read), { about := call.conn })
  | .handle source read =>
      some (s.goto i call (s.handlePhase call.fd source read), { about := call.conn })
  | .login source cmsid =>
      let clientlist := if ok then s.clientlist ++ [⟨source.getD call.conn, call.fd, cmsid⟩] else s.clientlist
      some (goto { s with clientlist } i call .send, { about := call.conn })
  | .send => some (s.goto i call (if ok then .done else .erase), { about := call.conn })
  | .erase => some (s.erase i call)
  | .close => some (s.close i call)
  | .done => none

def enter (s : Descriptors) (call : FdCall) : Descriptors := { s with calls := s.calls ++ [call] }

end Descriptors

open Descriptors in
def fdStep (s : Descriptors) : FdEvent → Option (Descriptors × FdOutput)
  -- the kernel gives out any number that is not open
  | .accept connfd => match s.fds[connfd]? with
      | some _ => none
      | none => some ({ s with fds := s.fds.insert connfd s.avail.length, avail := s.avail ++ [[]] }, {})
  | .arrive conn bytes => some ({ s with avail := s.avail.modify conn (· ++ bytes) }, {})
  | .readable fd => s.fds[fd]?.map fun conn => (s.enter ⟨conn, fd, .header⟩, {})
  -- `add_task` refuses the task, and `Run` calls `DelClient` itself
  | .poolFull i => s.calls[i]?.bind fun call =>
      if call.phase = .header then some (s.goto i call .erase, { about := call.conn }) else none
  | .advance i ok => s.calls[i]?.bind (s.advance i ok)
  -- a request of another thread finds the client and sends a frame to it
  | .request cmsid => (s.clientlist.find? fun p => p.cmsid == cmsid).map fun p =>
      (s.enter ⟨p.conn, p.fd, .send⟩, {})
  | .delClient cmsid => (s.clientlist.find? fun p => p.cmsid == cmsid).map fun p =>
      (enter { s with clientlist := s.clientlist.eraseP fun p => p.cmsid == cmsid } ⟨p.conn, p.fd, .close⟩,
        { about := p.conn, actions := [.unregistered p.conn] })
  -- the refresh of `Run` closes and erases a silent client without releasing `lock_`
  | .heartbeat cmsid => (s.clientlist.find? fun p => p.cmsid == cmsid).map fun p =>
      ({ s with fds := s.fds.erase p.fd
                clientlist := s.clientlist.eraseP fun p => p.cmsid == cmsid },
        { about := p.conn
          actions := (s.fds[p.fd]?.map FdAction.closed).toList ++ [.unregistered p.conn] })

-- A number is given out only when no call still works with it and no client is listed under it.
def freshNumber (_ : List (FdEvent × FdOutput)) (s : Descriptors) : FdEvent → Prop
  | .accept connfd => (∀ call ∈ s.calls, call.phase ≠ .done → call.fd ≠ connfd) ∧
      ∀ p ∈ s.clientlist, p.fd ≠ connfd
  | _ => True

-- Something in the server stands for this connection under this number.
def Holds (s : Descriptors) (fd : Int) (conn : Nat) : Prop :=
  s.fds[fd]? = some conn ∨
    (∃ call ∈ s.calls, call.phase ≠ .done ∧ call.fd = fd ∧ call.conn = conn) ∨
      ∃ p ∈ s.clientlist, p.fd = fd ∧ p.conn = conn

def FdPhase.source : FdPhase → Option Nat
  | .reset source _ => source
  | .handle source _ => source
  | .login source _ => source
  | _ => none

structure FdInvariant (s : Descriptors) : Prop where
  agree : ∀ fd conn conn', Holds s fd conn → Holds s fd conn' → conn = conn'
  source : ∀ call ∈ s.calls, ∀ conn, call.phase.source = some conn → conn = call.conn

namespace FdInvariant

variable {s s' : Descriptors} {i : Nat} {call : FdCall}

theorem of_call (hcall : s.calls[i]? = some call) (hactive : call.phase ≠ .done) :
    Holds s call.fd call.conn :=
  .inr (.inl ⟨call, List.mem_of_getElem? hcall, hactive, rfl, rfl⟩)

theorem of_holds (h : FdInvariant s) (hholds : ∀ fd conn, Holds s' fd conn → Holds s fd conn)
    (hsource : ∀ call ∈ s'.calls, ∀ conn, call.phase.source = some conn → conn = call.conn) :
    FdInvariant s' where
  agree fd conn conn' hconn hconn' :=
    h.agree fd conn conn' (hholds fd conn hconn) (hholds fd conn' hconn')
  source := hsource

-- A call moves on. It may close descriptors, drop clients and register its own connection.
theorem goto (h : FdInvariant s) (hcall : s.calls[i]? = some call) (hactive : call.phase ≠ .done)
    {phase : FdPhase} (hsource : ∀ conn, phase.source = some conn → conn = call.conn)
    (hcalls : s'.calls = s.calls)
    (hfds : ∀ (fd : Int) (conn : Nat), s'.fds[fd]? = some conn → s.fds[fd]? = some conn)
    (hclients : ∀ p ∈ s'.clientlist, p ∈ s.clientlist ∨ p.fd = call.fd ∧ p.conn = call.conn) :
    FdInvariant (s'.goto i call phase) := by
  refine h.of_holds ?_ ?_
  · rintro fd conn (hopen | ⟨other, hother, hother_active, hfd, hconn⟩ | ⟨p, hp, hfd, hconn⟩)
    · exact .inl (hfds fd conn hopen)
    · rcases List.mem_or_eq_of_mem_set hother with hmem | rfl
      · rw [hcalls] at hmem
        exact .inr (.inl ⟨other, hmem, hother_active, hfd, hconn⟩)
      · have hown := of_call hcall hactive
        rwa [← hfd, ← hconn]
    · rcases hclients p hp with hmem | ⟨hfd', hconn'⟩
      · exact .inr (.inr ⟨p, hmem, hfd, hconn⟩)
      · rw [← hfd, ← hconn, hfd', hconn']
        exact of_call hcall hactive
  · intro other hother conn hconn
    rcases List.mem_or_eq_of_mem_set hother with hmem | rfl
    · rw [hcalls] at hmem
      exact h.source other hmem conn hconn
    · exact hsource conn hconn

-- A new call for a connection that is held under its number.
theorem enter (h : FdInvariant s) {new : FdCall} (hheld : Holds s new.fd new.conn)
    (hphase : new.phase.source = none) (hcalls : s'.calls = s.calls)
    (hfds : ∀ (fd : Int) (conn : Nat), s'.fds[fd]? = some conn → s.fds[fd]? = some conn)
    (hclients : ∀ p ∈ s'.clientlist, p ∈ s.clientlist) : FdInvariant (s'.enter new) := by
  refine h.of_holds ?_ ?_
  · rintro fd conn (hopen | ⟨other, hother, hother_active, hfd, hconn⟩ | ⟨p, hp, hfd, hconn⟩)
    · exact .inl (hfds fd conn hopen)
    · rw [Descriptors.enter, hcalls] at hother
      rcases List.mem_append.mp hother with hmem | hmem
      · exact .inr (.inl ⟨other, hmem, hother_active, hfd, hconn⟩)
      · obtain rfl := List.mem_singleton.mp hmem
        exact hfd ▸ hconn ▸ hheld
    · exact .inr (.inr ⟨p, hclients p hp, hfd, hconn⟩)
  · intro other hother conn hconn
    rw [Descriptors.enter, hcalls] at hother
    rcases List.mem_append.mp hother with hmem | hmem
    · exact h.source other hmem conn hconn
    · obtain rfl := List.mem_singleton.mp hmem
      rw [hphase] at hconn
      cases hconn

-- The connection behind an open number that a call works with is the call's own.
theorem open_eq (h : FdInvariant s) (hcall : s.calls[i]? = some call) (hactive : call.phase ≠ .done)
    {conn : Nat} (hopen : s.fds[call.fd]? = some conn) : conn = call.conn :=
  h.agree call.fd conn call.conn (.inl hopen) (of_call hcall hactive)

theorem client_eq (h : FdInvariant s) (hcall : s.calls[i]? = some call) (hactive : call.phase ≠ .done)
    {p : FdClient} (hp : p ∈ s.clientlist) (hfd : p.fd = call.fd) : p.conn = call.conn :=
  h.agree call.fd p.conn call.conn (.inr (.inr ⟨p, hp, hfd, rfl⟩)) (of_call hcall hactive)

theorem own_open (h : FdInvariant s) (hcall : s.calls[i]? = some call) (hactive : call.phase ≠ .done)
    (action : Nat → FdAction) (haction : ∀ conn, (action conn).conn = conn) :
    FdOutput.Own { about := call.conn, actions := (s.fds[call.fd]?.map action).toList } := by
  intro done hdone
  obtain ⟨conn, hopen, rfl⟩ := Option.map_eq_some_iff.mp (Option.mem_toList.mp hdone)
  rw [haction]
  exact h.open_eq hcall hactive hopen

end FdInvariant

theorem recv_frame (s : Descriptors) (fd n : Int) :
    (s.recv fd n).1.fds = s.fds ∧ (s.recv fd n).1.clientlist = s.clientlist ∧
      (s.recv fd n).1.calls = s.calls := by
  unfold Descriptors.recv
  split <;> exact ⟨rfl, rfl, rfl⟩

-- Where a read task stands that has read its frame.
def FdPhase.ofRead (conn : Nat) : Option ReadCall → FdPhase
  | none => .erase
  | some read => .reset (some conn) read

theorem recv_open {s : Descriptors} {fd : Int} {conn : Nat} (hopen : s.fds[fd]? = some conn)
    (n : Int) :
    s.recv fd n = ({ s with avail := s.avail.set conn (etRecv (s.avail.getD conn []) n).2 },
      (etRecv (s.avail.getD conn []) n).1) := by
  simp only [Descriptors.recv, hopen]

-- The steps of a call that follow each other with nothing in between.
abbrev Advances (i : Nat) : Descriptors → Descriptors → Prop :=
  Relation.ReflTransGen fun before after =>
    ∃ ok output, fdStep before (.advance i ok) = some (after, output)

theorem advances_body {s : Descriptors} {i conn : Nat} {call : FdCall} {m : MsgHeader}
    (hcall : s.calls[i]? = some call) (hphase : call.phase = .body m)
    (hopen : s.fds[call.fd]? = some conn) {data rest : Bytes}
    (hrecv : etRecv (s.avail.getD conn []) m.size = (data, rest))
    (hfits : ¬ MAX_BUF_SIZE < data.length) :
    Advances i s (Descriptors.goto { s with avail := s.avail.set conn rest } i call
      (if data.length ≠ m.size then .erase else .reset (some conn) ⟨m.cmd, m.seq, data⟩)) := by
  refine .single ⟨true, { about := call.conn, actions := [.read conn] }, ?_⟩
  simp only [fdStep, hcall, Option.bind_some, Descriptors.advance, hphase, Descriptors.body,
    recv_open hopen, hrecv, hopen, if_neg hfits]
  rfl

-- The body comes from what the header has left.
theorem advances_frame {s : Descriptors} {i conn : Nat} {call : FdCall} {m : MsgHeader}
    (hcall : s.calls[i]? = some call) (hopen : s.fds[call.fd]? = some conn)
    {header left data rest : Bytes} {output : FdOutput}
    (hfirst : etRecv (s.avail.getD conn []) sizeofMsgHeader = (header, left))
    (hlength : header.length = sizeofMsgHeader)
    (hstep : fdStep s (.advance i true) = some (Descriptors.goto
      { s with avail := s.avail.set conn left } i call (.body m), output))
    (hrecv : etRecv left m.size = (data, rest)) (hfits : ¬ MAX_BUF_SIZE < data.length) :
    Advances i s (Descriptors.goto { s with avail := s.avail.set conn rest } i call
      (if data.length ≠ m.size then .erase else .reset (some conn) ⟨m.cmd, m.seq, data⟩)) := by
  -- something was read, so the connection is one of those accepted
  have hconn : conn < s.avail.length := by
    by_contra hge
    have hnone : s.avail.getD conn [] = [] := by
      rw [List.getD_eq_getElem?_getD, List.getElem?_eq_none (Nat.le_of_not_lt hge)]
      rfl
    rw [hnone, etRecv_eq] at hfirst
    cases hfirst
    cases hlength
  have hlt : i < s.calls.length := (List.getElem?_eq_some_iff.mp hcall).1
  have hcall' : (Descriptors.goto { s with avail := s.avail.set conn left } i call
      (.body m)).calls[i]? = some { call with phase := .body m } := List.getElem?_set_self hlt
  have hleft : (s.avail.set conn left).getD conn [] = left := by
    simp [List.getD_eq_getElem?_getD, hconn]
  have hbody := advances_body hcall' rfl hopen (hleft ▸ hrecv) hfits
  simp only [Descriptors.goto, List.set_set] at hbody
  exact Relation.ReflTransGen.head ⟨true, output, hstep⟩ hbody

-- A read task that nobody disturbs reads what `readTask` reads.
theorem advances_readTask {s : Descriptors} {i conn : Nat} {call : FdCall}
    {read : Option ReadCall} {rest : Bytes} (hcall : s.calls[i]? = some call)
    (hphase : call.phase = .header) (hopen : s.fds[call.fd]? = some conn)
    (h : readTask (s.avail.getD conn []) = some (read, rest)) :
    Advances i s
      (Descriptors.goto { s with avail := s.avail.set conn rest } i call (.ofRead conn read)) := by
  have hstep : fdStep s (.advance i true) = some (s.header i call) := by
    simp [fdStep, hcall, Descriptors.advance, hphase]
  simp only [Descriptors.header, recv_open hopen, hopen] at hstep
  simp only [readTask] at h
  obtain ⟨⟨header, left⟩, hfirst⟩ :
      ∃ first, etRecv (s.avail.getD conn []) sizeofMsgHeader = first := ⟨_, rfl⟩
  simp only [hfirst] at h hstep
  obtain ⟨⟨data, last⟩, hsecond⟩ :
      ∃ second, etRecv left (MsgHeader.decode header).size = second := ⟨_, rfl⟩
  simp only [hsecond] at h
  split_ifs at h with hshort hmagic hempty hlong hcut
  · cases h
    rw [if_pos hshort] at hstep
    exact .single ⟨true, _, hstep⟩
  · cases h
    rw [if_neg hshort, if_pos hmagic] at hstep
    exact .single ⟨true, _, hstep⟩
  · cases h
    rw [if_neg hshort, if_neg hmagic, if_pos hempty] at hstep
    exact .single ⟨true, _, hstep⟩
  · cases h
    rw [if_neg hshort, if_neg hmagic, if_neg hempty] at hstep
    have hframe := advances_frame hcall hopen hfirst (not_not.mp hshort) hstep hsecond hlong
    rw [if_pos hcut] at hframe
    exact hframe
  · cases h
    rw [if_neg hshort, if_neg hmagic, if_neg hempty] at hstep
    have hframe := advances_frame hcall hopen hfirst (not_not.mp hshort) hstep hsecond hlong
    rw [if_neg hcut] at hframe
    exact hframe

section Advance

variable {s after : Descriptors} {i : Nat} {call : FdCall} {output : FdOutput} (h : FdInvariant s)
  (hcall : s.calls[i]? = some call) (hactive : call.phase ≠ .done)

include h hcall hactive

theorem header_own : FdInvariant (s.header i call).1 ∧ (s.header i call).2.Own := by
  obtain ⟨hfds, hclients, hcalls⟩ := recv_frame s call.fd sizeofMsgHeader
  refine ⟨?_, h.own_open hcall hactive .read fun _ => rfl⟩
  refine h.goto hcall hactive ?_ hcalls (fun _ _ hopen => hfds ▸ hopen) fun p hp => .inl (hclients ▸ hp)
  intro conn hconn
  split_ifs at hconn
  · cases hconn
  · cases hconn
  · exact h.open_eq hcall hactive hconn
  · cases hconn

theorem body_own {m : MsgHeader} (hs : s.body i call m = some (after, output)) :
    FdInvariant after ∧ output.Own := by
  obtain ⟨hfds, hclients, hcalls⟩ := recv_frame s call.fd m.size
  simp only [Descriptors.body] at hs
  split at hs
  · cases hs
  cases hs
  refine ⟨?_, h.own_open hcall hactive .read fun _ => rfl⟩
  refine h.goto hcall hactive ?_ hcalls (fun _ _ hopen => hfds ▸ hopen) fun p hp => .inl (hclients ▸ hp)
  intro conn hconn
  split_ifs at hconn
  · cases hconn
  · exact h.open_eq hcall hactive hconn

theorem erase_own : FdInvariant (s.erase i call).1 ∧ (s.erase i call).2.Own := by
  constructor
  · refine h.goto hcall hactive (by simp [FdPhase.source]) rfl (fun _ _ hopen => hopen) fun p hp => .inl ?_
    exact List.mem_of_mem_eraseP hp
  · intro action haction
    obtain ⟨p, hp, rfl⟩ := Option.map_eq_some_iff.mp (Option.mem_toList.mp haction)
    exact h.client_eq hcall hactive (List.mem_of_find?_eq_some hp) (by simpa using List.find?_some hp)

theorem close_own : FdInvariant (s.close i call).1 ∧ (s.close i call).2.Own := by
  refine ⟨?_, h.own_open hcall hactive .closed fun _ => rfl⟩
  refine h.goto hcall hactive (by simp [FdPhase.source]) rfl ?_ fun p hp => .inl hp
  intro fd conn hopen
  rw [Std.ExtTreeMap.getElem?_erase] at hopen
  split at hopen
  · cases hopen
  · exact hopen

theorem advance_own {ok : Bool} (hs : s.advance i ok call = some (after, output)) :
    FdInvariant after ∧ output.Own := by
  have hnothing : ∀ conn, FdOutput.Own { about := conn } := fun _ action haction => by cases haction
  have hsource := h.source call (List.mem_of_getElem? hcall)
  unfold Descriptors.advance at hs
  cases hphase : call.phase with
  | header =>
      rw [hphase] at hs
      cases hs
      exact header_own h hcall hactive
  | body m =>
      rw [hphase] at hs
      exact body_own h hcall hactive hs
  | reset source read =>
      rw [hphase] at hs hsource
      cases hs
      refine ⟨?_, hnothing _⟩
      exact h.goto hcall hactive hsource rfl (fun _ _ hopen => hopen) fun p hp => .inl hp
  | handle source read =>
      rw [hphase] at hs hsource
      cases hs
      refine ⟨?_, hnothing _⟩
      refine h.goto hcall hactive ?_ rfl (fun _ _ hopen => hopen) fun p hp => .inl hp
      intro conn hconn
      unfold Descriptors.handlePhase at hconn
      split at hconn
      · split at hconn
        · cases hconn
        · exact hsource conn hconn
      · split at hconn <;> cases hconn
  | login source cmsid =>
      rw [hphase] at hs hsource
      cases hs
      refine ⟨?_, hnothing _⟩
      refine h.goto hcall hactive (by simp [FdPhase.source]) rfl (fun _ _ hopen => hopen) ?_
      intro p hp
      have hown : source.getD call.conn = call.conn := by
        cases source with
        | none => rfl
        | some conn => exact hsource conn rfl
      split at hp
      · rcases List.mem_append.mp hp with hp | hp
        · exact .inl hp
        · obtain rfl := List.mem_singleton.mp hp
          exact .inr ⟨rfl, hown⟩
      · exact .inl hp
  | send =>
      rw [hphase] at hs
      cases hs
      refine ⟨?_, hnothing _⟩
      refine h.goto hcall hactive ?_ rfl (fun _ _ hopen => hopen) fun p hp => .inl hp
      split <;> simp [FdPhase.source]
  | erase =>
      rw [hphase] at hs
      cases hs
      exact erase_own h hcall hactive
  | close =>
      rw [hphase] at hs
      cases hs
      exact close_own h hcall hactive
  | done => exact absurd hphase hactive

end Advance

theorem FdInvariant.init : FdInvariant {} where
  agree fd conn conn' hconn := by
    rcases hconn with hopen | ⟨call, hmem, -⟩ | ⟨p, hmem, -⟩
    · simp at hopen
    · cases hmem
    · cases hmem
  source call hmem := by cases hmem

theorem FdInvariant.accept {s : Descriptors} (h : FdInvariant s) {connfd : Int}
    (hcalls : ∀ call ∈ s.calls, call.phase ≠ .done → call.fd ≠ connfd)
    (hclients : ∀ p ∈ s.clientlist, p.fd ≠ connfd) (conn : Nat) (avail : List Bytes) :
    FdInvariant { s with fds := s.fds.insert connfd conn, avail } := by
  have hnew : ∀ fd conn', Holds { s with fds := s.fds.insert connfd conn, avail } fd conn' →
      if fd = connfd then conn' = conn else Holds s fd conn' := by
    rintro fd conn' (hopen | ⟨call, hmem, hactive, rfl, hconn⟩ | ⟨p, hmem, rfl, hconn⟩)
    · rw [Std.ExtTreeMap.getElem?_insert] at hopen
      by_cases hfd : fd = connfd
      · rw [if_pos (by simp [hfd])] at hopen
        rw [if_pos hfd]
        exact (Option.some.inj hopen).symm
      · rw [if_neg (by simpa using Ne.symm hfd)] at hopen
        rw [if_neg hfd]
        exact .inl hopen
    · rw [if_neg (hcalls call hmem hactive)]
      exact .inr (.inl ⟨call, hmem, hactive, rfl, hconn⟩)
    · rw [if_neg (hclients p hmem)]
      exact .inr (.inr ⟨p, hmem, rfl, hconn⟩)
  refine ⟨fun fd one other hone hother => ?_, h.source⟩
  have hone := hnew fd one hone
  have hother := hnew fd other hother
  split at hone
  · rw [if_pos ‹_›] at hother
    exact hone.trans hother.symm
  · rw [if_neg ‹_›] at hother
    exact h.agree fd one other hone hother

theorem fdStep_own {history : List (FdEvent × FdOutput)} {s after : Descriptors} {event : FdEvent}
    {output : FdOutput} (h : FdInvariant s) (hguard : freshNumber history s event)
    (hs : fdStep s event = some (after, output)) : FdInvariant after ∧ output.Own := by
  have hnothing : FdOutput.Own {} := fun action haction => by cases haction
  cases event with
  | accept connfd =>
      simp only [fdStep] at hs
      split at hs
      · cases hs
      cases hs
      exact ⟨h.accept hguard.1 hguard.2 _ _, hnothing⟩
  | arrive conn bytes =>
      cases hs
      exact ⟨h.of_holds (fun _ _ hholds => hholds) h.source, hnothing⟩
  | readable fd =>
      obtain ⟨conn, hopen, heq⟩ := Option.map_eq_some_iff.mp hs
      cases heq
      exact ⟨h.enter (.inl hopen) rfl rfl (fun _ _ hopen => hopen) fun p hp => hp, hnothing⟩
  | poolFull i =>
      obtain ⟨call, hcall, hs⟩ := Option.bind_eq_some_iff.mp hs
      split at hs
      · next hphase =>
          cases hs
          refine ⟨?_, fun action haction => by cases haction⟩
          exact h.goto hcall (by simp [hphase]) (by simp [FdPhase.source]) rfl
            (fun _ _ hopen => hopen) fun p hp => .inl hp
      · cases hs
  | advance i ok =>
      obtain ⟨call, hcall, hs⟩ := Option.bind_eq_some_iff.mp hs
      by_cases hactive : call.phase = .done
      · rw [Descriptors.advance, hactive] at hs
        cases hs
      · exact advance_own h hcall hactive hs
  | request cmsid =>
      obtain ⟨p, hp, heq⟩ := Option.map_eq_some_iff.mp hs
      cases heq
      have hheld : Holds s p.fd p.conn := .inr (.inr ⟨p, List.mem_of_find?_eq_some hp, rfl, rfl⟩)
      exact ⟨h.enter hheld rfl rfl (fun _ _ hopen => hopen) fun p hp => hp, hnothing⟩
  | delClient cmsid =>
      obtain ⟨p, hp, heq⟩ := Option.map_eq_some_iff.mp hs
      cases heq
      have hheld : Holds s p.fd p.conn := .inr (.inr ⟨p, List.mem_of_find?_eq_some hp, rfl, rfl⟩)
      refine ⟨?_, fun action haction => by rw [List.mem_singleton.mp haction]; rfl⟩
      exact h.enter hheld rfl rfl (fun _ _ hopen => hopen) fun p hp => List.mem_of_mem_eraseP hp
  | heartbeat cmsid =>
      obtain ⟨p, hp, heq⟩ := Option.map_eq_some_iff.mp hs
      cases heq
      have hmem := List.mem_of_find?_eq_some hp
      constructor
      · refine h.of_holds ?_ h.source
        rintro fd conn (hopen | hholds | ⟨other, hother, hsame⟩)
        · rw [Std.ExtTreeMap.getElem?_erase] at hopen
          split at hopen
          · cases hopen
          · exact .inl hopen
        · exact .inr (.inl hholds)
        · exact .inr (.inr ⟨other, List.mem_of_mem_eraseP hother, hsame⟩)
      · intro action haction
        rcases List.mem_append.mp haction with haction | haction
        · obtain ⟨conn, hopen, rfl⟩ := Option.map_eq_some_iff.mp (Option.mem_toList.mp haction)
          exact h.agree p.fd conn p.conn (.inl hopen) (.inr (.inr ⟨p, hmem, rfl, rfl⟩))
        · rw [List.mem_singleton.mp haction]
          rfl

-- Where numbers are given out afresh, no call reads from, unregisters or closes a connection other
-- than its own.
theorem calls_hit_own {history : List (FdEvent × FdOutput)} {s : Descriptors}
    (run : Run fdStep freshNumber {} history s) : ∀ entry ∈ history, entry.2.Own := by
  have hinv := run.invariant
    (fun history s => FdInvariant s ∧ ∀ entry ∈ history, entry.2.Own) ⟨.init, by simp⟩ ?_
  · exact hinv.2
  · rintro history before event after output ⟨hbefore, hown⟩ hguard hs
    obtain ⟨hafter, hlast⟩ := fdStep_own hbefore hguard hs
    exact ⟨hafter, List.forall_mem_cons.mpr ⟨hlast, hown⟩⟩

instance (history : List (FdEvent × FdOutput)) (s : Descriptors) (event : FdEvent) :
    Decidable (freshNumber history s event) :=
  match event with
  | .accept _ => inferInstanceAs (Decidable (_ ∧ _))
  | .arrive _ _ | .readable _ | .poolFull _ | .advance _ _ | .request _ | .delClient _
  | .heartbeat _ => isTrue trivial

instance (output : FdOutput) : Decidable output.Own :=
  inferInstanceAs (Decidable (∀ action ∈ output.actions, action.conn = output.about))

def deeds (history : List (FdEvent × FdOutput)) : List (Nat × FdAction) :=
  history.reverse.flatMap fun entry => entry.2.actions.map (entry.2.about, ·)

def loginBytes : Bytes :=
  field "atb" 4 ++ intBytes REQ_LOGIN ++ intBytes 1 ++ intBytes 104 ++ List.replicate 64 0 ++
    field "c" 20 ++ List.replicate 84 0

-- A login, then a broken frame: the task removes the connection and its client, and the next
-- connection gets the number.
def oneAtATime : List FdEvent :=
  [.accept 5, .arrive 0 loginBytes, .readable 5, .advance 0 true, .advance 0 true, .advance 0 true,
    .advance 0 true, .advance 0 true, .advance 0 true, .arrive 0 [1], .readable 5, .advance 1 true,
    .advance 1 true, .advance 1 true, .accept 5, .arrive 1 [2], .readable 5, .advance 2 true]

theorem calls_hit_own_at_a_time :
    ∃ history s, Run fdStep freshNumber {} history s ∧
      deeds history = [(0, .read 0), (0, .read 0), (0, .read 0), (0, .unregistered 0), (0, .closed 0),
        (1, .read 1)] ∧ ∀ entry ∈ history, entry.2.Own := by
  obtain ⟨history, s, run, htest⟩ := exists_run_of_ends fdStep freshNumber {} oneAtATime
    (fun history _ => deeds history == [(0, .read 0), (0, .read 0), (0, .read 0),
      (0, .unregistered 0), (0, .closed 0), (1, .read 1)])
    (guarded_of_passes (fun history s event => decide (freshNumber history s event))
      (fun _ _ _ => of_decide_eq_true) (by decide +kernel)) (by decide +kernel)
  exact ⟨history, s, run, beq_iff_eq.mp htest, calls_hit_own run⟩

-- Two events before the first task runs: the second task closes the connection that has got the
-- number in the meantime.
def twoTasks : List FdEvent :=
  [.accept 5, .arrive 0 [1], .readable 5, .arrive 0 [2], .readable 5, .advance 0 true, .advance 0 true,
    .advance 0 true, .accept 5, .advance 1 true, .advance 1 true, .advance 1 true]

theorem call_closes_other :
    ∃ history s, Run fdStep free {} history s ∧
      deeds history = [(0, .read 0), (0, .closed 0), (0, .read 1), (0, .closed 1)] ∧
        ¬ ∀ entry ∈ history, entry.2.Own := by
  obtain ⟨history, s, run, htest⟩ := exists_run_of_ends fdStep free {} twoTasks
    (fun history _ => decide (deeds history = [(0, .read 0), (0, .closed 0), (0, .read 1),
      (0, .closed 1)]) && decide (¬ ∀ entry ∈ history, entry.2.Own))
    (guarded_free _ _ _) (by decide +kernel)
  rw [Bool.and_eq_true, decide_eq_true_iff, decide_eq_true_iff] at htest
  exact ⟨history, s, run, htest.1, htest.2⟩

end VideoAdapter.Adapter
