import Mathlib.Data.List.Nodup
import Mathlib.Data.List.Perm.Basic
import VideoAdapter.Lib.Ledger
import VideoAdapter.Lib.Run
import VideoAdapter.Adapter.CmsClient

namespace VideoAdapter.Adapter

open Lib

-- A message with the node that holds it, numbered as the nodes are allocated.
structure Message where
  id : Nat
  node : MessageNode
deriving DecidableEq, Repr

-- Where a call of `WaitforResponse` stands: before the region that clears old messages, before it
-- samples `cur`, in its sleep, before the region that looks for its message, or returned.
inductive WaitPhase where
  | refresh
  | start
  | sleep (cur : UInt64)
  | find (cur : UInt64)
  | returned (ret : Int) (buf : Bytes)
deriving DecidableEq, Repr

structure Waiter where
  iType : Int
  seqnum : Int
  phase : WaitPhase
deriving DecidableEq, Repr

def Waiter.isFor (waiter : Waiter) (m : Message) : Bool :=
  m.node.iType == waiter.iType && m.node.seqnum == waiter.seqnum

-- The messages of one client: the nodes of the `InsertMsg` calls that wait for `lock_`, the list
-- itself and the calls of `WaitforResponse`. `tick` is the last value of `GetTickCount`, and
-- `nodes` counts the nodes made so far.
structure Mailbox where
  tick : UInt64 := 0
  nodes : Nat := 0
  pending : List Message := []
  msglist : List Message := []
  waiters : List Waiter := []
deriving DecidableEq, Repr

inductive MailEvent where
  | insertMsg (iType seqnum : Int) (buf : Bytes) (tick : UInt64)
  | pushBack (call : Nat)
  | waitforResponse (iType seqnum : Int)
  | refresh (call : Nat) (ticks : List UInt64)
  | start (call : Nat) (tick : UInt64)
  | wake (call : Nat) (tick : UInt64)
  | find (call : Nat)
deriving DecidableEq, Repr

inductive MailOutput where
  | quiet
  | arrived (m : Message)
  | compared (seen : List (Message × UInt64))
  | handed (m : Message)
deriving DecidableEq, Repr

-- The age of a message as the loop computes it, in 64 bits.
def expired (seen : Message × UInt64) : Bool := decide (seen.2 - seen.1.node.timestamp > 6000)

namespace Mailbox

def goto (box : Mailbox) (i : Nat) (waiter : Waiter) (phase : WaitPhase) : Mailbox :=
  { box with waiters := box.waiters.set i { waiter with phase } }

-- The clock never goes back.
def sample (box : Mailbox) (tick : UInt64) : Option Mailbox :=
  if box.tick ≤ tick then some { box with tick } else none

-- A null or empty buffer is refused with -1, and a body beyond `buf_` would be copied over the
-- end of the node.
def insertMsg (box : Mailbox) (iType seqnum : Int) (buf : Bytes) (tick : UInt64) : Option Mailbox :=
  if buf = [] then some box
  else if MAX_BUF_SIZE < buf.length then none
  else (box.sample tick).map fun box =>
    { box with
      nodes := box.nodes + 1
      pending := box.pending ++ [⟨box.nodes, { iType, seqnum, timestamp := tick, buf }⟩] }

def pushBack (box : Mailbox) (i : Nat) : Option (Mailbox × MailOutput) :=
  box.pending[i]?.map fun m =>
    ({ box with pending := box.pending.eraseIdx i, msglist := box.msglist ++ [m] }, .arrived m)

-- Each node is compared with a tick of its own.
def refresh (box : Mailbox) (i : Nat) (waiter : Waiter) (ticks : List UInt64) :
    Option (Mailbox × MailOutput) :=
  if ticks.length = box.msglist.length ∧ (box.tick :: ticks).Pairwise (· ≤ ·) then
    let seen := box.msglist.zip ticks
    some (goto { box with
      tick := ticks.getLastD box.tick
      msglist := (seen.filter fun pair => !expired pair).map Prod.fst } i waiter .start,
      .compared seen)
  else none

def start (box : Mailbox) (i : Nat) (waiter : Waiter) (tick : UInt64) : Option Mailbox :=
  (box.sample tick).map fun box => box.goto i waiter (.sleep tick)

def wake (box : Mailbox) (i : Nat) (waiter : Waiter) (cur tick : UInt64) : Option Mailbox :=
  (box.sample tick).map fun box =>
    if tick - cur > 12 * 1000 then box.goto i waiter (.returned (-1) [])
    else box.goto i waiter (.find cur)

def find (box : Mailbox) (i : Nat) (waiter : Waiter) (cur : UInt64) : Mailbox × MailOutput :=
  match box.msglist.find? waiter.isFor with
  | none => (box.goto i waiter (.sleep cur), .quiet)
  | some m =>
      (goto { box with msglist := box.msglist.eraseP waiter.isFor } i waiter
        (.returned 0 m.node.buf), .handed m)

def quietly (box : Option Mailbox) : Option (Mailbox × MailOutput) := box.map (·, .quiet)

end Mailbox

open Mailbox in
def mailStep (box : Mailbox) : MailEvent → Option (Mailbox × MailOutput)
  | .insertMsg iType seqnum buf tick => quietly (box.insertMsg iType seqnum buf tick)
  | .pushBack i => box.pushBack i
  | .waitforResponse iType seqnum =>
      some ({ box with waiters := box.waiters ++ [⟨iType, seqnum, .refresh⟩] }, .quiet)
  | .refresh i ticks => box.waiters[i]?.bind fun waiter =>
      if waiter.phase = .refresh then box.refresh i waiter ticks else none
  | .start i tick => box.waiters[i]?.bind fun waiter =>
      if waiter.phase = .start then quietly (box.start i waiter tick) else none
  | .wake i tick => box.waiters[i]?.bind fun waiter =>
      match waiter.phase with
      | .sleep cur => quietly (box.wake i waiter cur tick)
      | _ => none
  | .find i => box.waiters[i]?.bind fun waiter =>
      match waiter.phase with
      | .find cur => some (box.find i waiter cur)
      | _ => none

-- The calls that have returned 0 did so before.
def NoneServed (before after : Mailbox) : Prop :=
  ∀ (i : Nat) (waiter : Waiter) (buf : Bytes), after.waiters[i]? = some waiter →
    waiter.phase = .returned 0 buf → before.waiters[i]? = some waiter

-- What a step does to the messages.
inductive MailMove (box : Mailbox) : MailEvent → MailOutput → Mailbox → Prop
  | idle {event : MailEvent} {after : Mailbox} (nodes : after.nodes = box.nodes)
      (pending : after.pending = box.pending) (msglist : after.msglist = box.msglist)
      (tick : box.tick ≤ after.tick) (served : NoneServed box after) : MailMove box event .quiet after
  | made {event : MailEvent} {after : Mailbox} (node : MessageNode) (nodes : after.nodes = box.nodes + 1)
      (pending : after.pending = box.pending ++ [⟨box.nodes, node⟩])
      (msglist : after.msglist = box.msglist) (tick : box.tick ≤ after.tick)
      (stamp : node.timestamp = after.tick) (served : NoneServed box after) :
      MailMove box event .quiet after
  | arrived {i : Nat} {m : Message} (waiting : box.pending[i]? = some m) :
      MailMove box (.pushBack i) (.arrived m)
        { box with pending := box.pending.eraseIdx i, msglist := box.msglist ++ [m] }
  | compared {i : Nat} {ticks : List UInt64} {after : Mailbox}
      (length : ticks.length = box.msglist.length)
      (clock : (box.tick :: ticks).Pairwise (· ≤ ·)) (nodes : after.nodes = box.nodes)
      (pending : after.pending = box.pending) (tick : after.tick = ticks.getLastD box.tick)
      (msglist : after.msglist = ((box.msglist.zip ticks).filter fun pair => !expired pair).map Prod.fst)
      (served : NoneServed box after) :
      MailMove box (.refresh i ticks) (.compared (box.msglist.zip ticks)) after
  | handed {i : Nat} {waiter : Waiter} {m : Message} (call : box.waiters[i]? = some waiter)
      (found : box.msglist.find? waiter.isFor = some m) :
      MailMove box (.find i) (.handed m)
        (Mailbox.goto { box with msglist := box.msglist.eraseP waiter.isFor } i waiter
          (.returned 0 m.node.buf))

theorem sample_eq_some {box after : Mailbox} {tick : UInt64} (h : box.sample tick = some after) :
    box.tick ≤ tick ∧ after = { box with tick } := by
  unfold Mailbox.sample at h
  split at h
  · next hle => exact ⟨hle, (Option.some.inj h).symm⟩
  · cases h

theorem noneServed_goto {before box : Mailbox} {i : Nat} {waiter : Waiter} {phase : WaitPhase}
    (h : NoneServed before box) (hphase : ∀ buf, phase ≠ .returned 0 buf) :
    NoneServed before (box.goto i waiter phase) := by
  intro j other buf hother hserved
  by_cases hj : i = j
  · subst hj
    have hlt : i < box.waiters.length := by
      have hlt := (List.getElem?_eq_some_iff.mp hother).1
      rwa [Mailbox.goto, List.length_set] at hlt
    rw [Mailbox.goto, List.getElem?_set_self hlt] at hother
    obtain rfl := Option.some.inj hother
    exact absurd hserved (hphase buf)
  · rw [Mailbox.goto, List.getElem?_set_ne hj] at hother
    exact h j other buf hother hserved

theorem mailStep_move {box after : Mailbox} {event : MailEvent} {output : MailOutput}
    (h : mailStep box event = some (after, output)) : MailMove box event output after := by
  have hsame : ∀ tick, NoneServed box { box with tick } := fun _ _ _ _ hwaiter _ => hwaiter
  cases event with
  | insertMsg iType seqnum buf tick =>
      obtain ⟨made, hmade, heq⟩ := Option.map_eq_some_iff.mp h
      cases heq
      unfold Mailbox.insertMsg at hmade
      split at hmade
      · cases hmade
        exact .idle rfl rfl rfl (UInt64.le_refl _) (hsame _)
      split at hmade
      · cases hmade
      obtain ⟨sampled, hsampled, rfl⟩ := Option.map_eq_some_iff.mp hmade
      obtain ⟨hle, rfl⟩ := sample_eq_some hsampled
      exact .made _ rfl rfl rfl hle rfl (hsame tick)
  | pushBack i =>
      obtain ⟨m, hm, heq⟩ := Option.map_eq_some_iff.mp h
      cases heq
      exact .arrived hm
  | waitforResponse iType seqnum =>
      cases h
      refine .idle rfl rfl rfl (UInt64.le_refl _) ?_
      intro j waiter buf hwaiter hserved
      rcases Nat.lt_or_ge j box.waiters.length with hj | hj
      · rwa [List.getElem?_append_left hj] at hwaiter
      · rw [List.getElem?_append_right hj] at hwaiter
        obtain rfl := List.mem_singleton.mp (List.mem_of_getElem? hwaiter)
        cases hserved
  | refresh i ticks =>
      obtain ⟨waiter, -, h⟩ := Option.bind_eq_some_iff.mp h
      split at h
      · simp only [Mailbox.refresh] at h
        split at h
        · next hticks =>
            cases h
            exact .compared hticks.1 hticks.2 rfl rfl rfl rfl
              (noneServed_goto (fun _ _ _ hwaiter _ => hwaiter) (by simp))
        · cases h
      · cases h
  | start i tick =>
      obtain ⟨waiter, -, h⟩ := Option.bind_eq_some_iff.mp h
      split at h
      · obtain ⟨started, hstarted, heq⟩ := Option.map_eq_some_iff.mp h
        cases heq
        obtain ⟨sampled, hsampled, rfl⟩ := Option.map_eq_some_iff.mp hstarted
        obtain ⟨hle, rfl⟩ := sample_eq_some hsampled
        exact .idle rfl rfl rfl hle (noneServed_goto (hsame _) (by simp))
      · cases h
  | wake i tick =>
      obtain ⟨waiter, -, h⟩ := Option.bind_eq_some_iff.mp h
      split at h
      · obtain ⟨woken, hwoken, heq⟩ := Option.map_eq_some_iff.mp h
        cases heq
        obtain ⟨sampled, hsampled, rfl⟩ := Option.map_eq_some_iff.mp hwoken
        obtain ⟨hle, rfl⟩ := sample_eq_some hsampled
        split
        · exact .idle rfl rfl rfl hle (noneServed_goto (hsame _) (by simp))
        · exact .idle rfl rfl rfl hle (noneServed_goto (hsame _) (by simp))
      · cases h
  | find i =>
      obtain ⟨waiter, hwaiter, h⟩ := Option.bind_eq_some_iff.mp h
      split at h
      · simp only [Mailbox.find, Option.some.injEq] at h
        split at h
        · cases h
          exact .idle rfl rfl rfl (UInt64.le_refl _)
            (noneServed_goto (fun _ _ _ hwaiter _ => hwaiter) (by simp))
        · next m hm =>
            cases h
            exact .handed hwaiter hm
      · cases h

abbrev MailHistory := List (MailEvent × MailOutput)

namespace MailOutput

def arrivals : MailOutput → List Message
  | .arrived m => [m]
  | _ => []

def handedOut : MailOutput → List Message
  | .handed m => [m]
  | _ => []

def dropped : MailOutput → List Message
  | .compared seen => (seen.filter expired).map Prod.fst
  | _ => []

end MailOutput

-- The messages in the order they came into the list.
def arrivals (history : MailHistory) : List Message :=
  history.reverse.flatMap fun entry => entry.2.arrivals

def handedOut (history : MailHistory) : List Message :=
  history.flatMap fun entry => entry.2.handedOut

def gone (history : MailHistory) : List Message :=
  history.flatMap fun entry => entry.2.handedOut ++ entry.2.dropped

theorem arrivals_cons (event : MailEvent) (output : MailOutput) (history : MailHistory) :
    arrivals ((event, output) :: history) = arrivals history ++ output.arrivals := by
  simp [arrivals]

theorem arrivals_cons_of_none (event : MailEvent) {output : MailOutput} (h : output.arrivals = [])
    (history : MailHistory) : arrivals ((event, output) :: history) = arrivals history := by
  rw [arrivals_cons, h, List.append_nil]

theorem gone_cons (event : MailEvent) (output : MailOutput) (history : MailHistory) :
    gone ((event, output) :: history) = (output.handedOut ++ output.dropped) ++ gone history :=
  List.flatMap_cons

-- Some call of `WaitforResponse` compared the message with a tick more than six seconds after its
-- stamp.
def OldAtCall (history : MailHistory) (m : Message) : Prop :=
  ∃ (i : Nat) (ticks : List UInt64) (seen : List (Message × UInt64)) (tick : UInt64),
    (MailEvent.refresh i ticks, MailOutput.compared seen) ∈ history ∧ (m, tick) ∈ seen ∧
      m.node.timestamp.toNat + 6000 < tick.toNat

structure MailInvariant (history : MailHistory) (box : Mailbox) : Prop where
  ledger : Ledger (arrivals history) box.msglist (gone history)
  ids : ((arrivals history ++ box.pending).map Message.id).Nodup
  fresh : ∀ m ∈ arrivals history ++ box.pending, m.id < box.nodes
  stamps : ∀ m ∈ arrivals history ++ box.pending, m.node.timestamp ≤ box.tick
  old : ∀ m ∈ gone history, m ∈ handedOut history ∨ OldAtCall history m
  served : ∀ (i : Nat) (waiter : Waiter) (buf : Bytes), box.waiters[i]? = some waiter →
    waiter.phase = .returned 0 buf → ∃ m, (MailEvent.find i, MailOutput.handed m) ∈ history ∧
      buf = m.node.buf ∧ waiter.isFor m = true

theorem OldAtCall.cons {history : MailHistory} {m : Message} (h : OldAtCall history m)
    (entry : MailEvent × MailOutput) : OldAtCall (entry :: history) m := by
  obtain ⟨i, ticks, seen, tick, hentry, hseen, hage⟩ := h
  exact ⟨i, ticks, seen, tick, List.mem_cons_of_mem _ hentry, hseen, hage⟩

-- The age cannot wrap: the tick was sampled after the stamp.
theorem expired_iff {m : Message} {tick : UInt64} (h : m.node.timestamp ≤ tick) :
    expired (m, tick) = true ↔ m.node.timestamp.toNat + 6000 < tick.toNat := by
  have hle : m.node.timestamp.toNat ≤ tick.toNat := UInt64.le_iff_toNat_le.mp h
  rw [expired, decide_eq_true_iff, gt_iff_lt, UInt64.lt_iff_toNat_lt, UInt64.toNat_sub_of_le _ _ h]
  change 6000 < _ ↔ _
  omega

namespace MailInvariant

variable {history : MailHistory} {box after : Mailbox}

theorem init (tick : UInt64) : MailInvariant [] { tick } where
  ledger := .empty
  ids := List.nodup_nil
  fresh := by simp [arrivals]
  stamps := by simp [arrivals]
  old := by simp [gone]
  served := by simp

theorem old_cons (h : MailInvariant history box) (entry : MailEvent × MailOutput) {m : Message}
    (hm : m ∈ gone history) : m ∈ handedOut (entry :: history) ∨ OldAtCall (entry :: history) m := by
  rcases h.old m hm with hhanded | hold
  · exact .inl (List.mem_append_right _ hhanded)
  · exact .inr (hold.cons entry)

theorem served_cons (h : MailInvariant history box) (hserved : NoneServed box after)
    (entry : MailEvent × MailOutput) {i : Nat} {waiter : Waiter} {buf : Bytes}
    (hwaiter : after.waiters[i]? = some waiter) (hphase : waiter.phase = .returned 0 buf) :
    ∃ m, (MailEvent.find i, MailOutput.handed m) ∈ entry :: history ∧ buf = m.node.buf ∧
      waiter.isFor m = true := by
  obtain ⟨m, hm, hbuf, hfor⟩ := h.served i waiter buf (hserved i waiter buf hwaiter hphase) hphase
  exact ⟨m, List.mem_cons_of_mem _ hm, hbuf, hfor⟩

theorem idle (h : MailInvariant history box) (event : MailEvent) (hnodes : after.nodes = box.nodes)
    (hpending : after.pending = box.pending) (hmsglist : after.msglist = box.msglist)
    (htick : box.tick ≤ after.tick) (hserved : NoneServed box after) :
    MailInvariant ((event, .quiet) :: history) after := by
  have harrivals : arrivals ((event, .quiet) :: history) = arrivals history :=
    arrivals_cons_of_none event rfl history
  have hgone : gone ((event, .quiet) :: history) = gone history := gone_cons event .quiet history
  constructor
  · rw [harrivals, hgone, hmsglist]
    exact h.ledger
  · rw [harrivals, hpending]
    exact h.ids
  · rw [harrivals, hpending, hnodes]
    exact h.fresh
  · rw [harrivals, hpending]
    exact fun m hm => UInt64.le_trans (h.stamps m hm) htick
  · rw [hgone]
    exact fun m hm => h.old_cons _ hm
  · exact fun i waiter buf hwaiter hphase => h.served_cons hserved _ hwaiter hphase

theorem made (h : MailInvariant history box) (event : MailEvent) {node : MessageNode}
    (hnodes : after.nodes = box.nodes + 1) (hpending : after.pending = box.pending ++ [⟨box.nodes, node⟩])
    (hmsglist : after.msglist = box.msglist) (htick : box.tick ≤ after.tick)
    (hstamp : node.timestamp = after.tick) (hserved : NoneServed box after) :
    MailInvariant ((event, .quiet) :: history) after := by
  have harrivals : arrivals ((event, .quiet) :: history) = arrivals history :=
    arrivals_cons_of_none event rfl history
  have hgone : gone ((event, .quiet) :: history) = gone history := gone_cons event .quiet history
  constructor
  · rw [harrivals, hgone, hmsglist]
    exact h.ledger
  · rw [harrivals, hpending, ← List.append_assoc, List.map_append, List.map_singleton,
      ← List.concat_eq_append]
    refine h.ids.concat fun hmem => ?_
    obtain ⟨m, hm, hid⟩ := List.mem_map.mp hmem
    exact Nat.lt_irrefl _ (hid ▸ h.fresh m hm)
  · rw [harrivals, hpending, hnodes, ← List.append_assoc]
    intro m hm
    rcases List.mem_append.mp hm with hm | hm
    · exact Nat.lt_succ_of_lt (h.fresh m hm)
    · rw [List.mem_singleton.mp hm]
      exact Nat.lt_succ_self _
  · rw [harrivals, hpending, ← List.append_assoc]
    intro m hm
    rcases List.mem_append.mp hm with hm | hm
    · exact UInt64.le_trans (h.stamps m hm) htick
    · rw [List.mem_singleton.mp hm, hstamp]
      exact UInt64.le_refl _
  · rw [hgone]
    exact fun m hm => h.old_cons _ hm
  · exact fun i waiter buf hwaiter hphase => h.served_cons hserved _ hwaiter hphase

theorem arrived (h : MailInvariant history box) {i : Nat} {m : Message} (hm : box.pending[i]? = some m) :
    MailInvariant ((.pushBack i, .arrived m) :: history)
      { box with pending := box.pending.eraseIdx i, msglist := box.msglist ++ [m] } := by
  have harrivals : arrivals ((.pushBack i, .arrived m) :: history) = arrivals history ++ [m] :=
    arrivals_cons _ _ _
  have hgone : gone ((.pushBack i, .arrived m) :: history) = gone history := gone_cons _ _ _
  have hperm : (arrivals history ++ [m] ++ box.pending.eraseIdx i).Perm
      (arrivals history ++ box.pending) := by
    obtain ⟨hi, rfl⟩ := List.getElem?_eq_some_iff.mp hm
    rw [List.append_assoc]
    exact (List.getElem_cons_eraseIdx_perm hi).append_left _
  constructor
  · rw [harrivals, hgone]
    exact h.ledger.arrive m
  · rw [harrivals]
    exact (hperm.map Message.id).nodup_iff.mpr h.ids
  · rw [harrivals]
    exact fun n hn => h.fresh n (hperm.mem_iff.mp hn)
  · rw [harrivals]
    exact fun n hn => h.stamps n (hperm.mem_iff.mp hn)
  · rw [hgone]
    exact fun n hn => h.old_cons _ hn
  · exact fun j waiter buf hwaiter hphase =>
      h.served_cons (fun _ _ _ hsame _ => hsame) _ hwaiter hphase

theorem compared (h : MailInvariant history box) {i : Nat} {ticks : List UInt64}
    (hlength : ticks.length = box.msglist.length) (hclock : (box.tick :: ticks).Pairwise (· ≤ ·))
    (hnodes : after.nodes = box.nodes) (hpending : after.pending = box.pending)
    (htick : after.tick = ticks.getLastD box.tick)
    (hmsglist : after.msglist = ((box.msglist.zip ticks).filter fun pair => !expired pair).map Prod.fst)
    (hserved : NoneServed box after) :
    MailInvariant ((.refresh i ticks, .compared (box.msglist.zip ticks)) :: history) after := by
  have harrivals : arrivals ((.refresh i ticks, .compared (box.msglist.zip ticks)) :: history) =
      arrivals history := arrivals_cons_of_none _ rfl history
  have hgone : gone ((.refresh i ticks, .compared (box.msglist.zip ticks)) :: history) =
      ((box.msglist.zip ticks).filter expired).map Prod.fst ++ gone history := gone_cons _ _ _
  have hfst : (box.msglist.zip ticks).map Prod.fst = box.msglist := List.map_fst_zip (by omega)
  have hlater : ∀ tick ∈ ticks, box.tick ≤ tick := (List.pairwise_cons.mp hclock).1
  have hnow : box.tick ≤ after.tick := by
    rw [htick]
    cases hlast : ticks.getLast? with
    | none =>
        rw [List.getLastD_eq_getLast?, hlast]
        exact UInt64.le_refl _
    | some last =>
        rw [List.getLastD_eq_getLast?, hlast]
        exact hlater last (List.mem_of_getLast? hlast)
  constructor
  · rw [harrivals, hgone, hmsglist]
    refine h.ledger.remove ?_ ?_
    · have hsplit := (perm_filter_not expired (box.msglist.zip ticks)).map Prod.fst
      rwa [hfst, List.map_append] at hsplit
    · have hsub := (List.filter_sublist (p := fun pair => !expired pair)
        (l := box.msglist.zip ticks)).map Prod.fst
      rwa [hfst] at hsub
  · rw [harrivals, hpending]
    exact h.ids
  · rw [harrivals, hpending, hnodes]
    exact h.fresh
  · rw [harrivals, hpending]
    exact fun m hm => UInt64.le_trans (h.stamps m hm) hnow
  · rw [hgone]
    intro m hm
    rcases List.mem_append.mp hm with hm | hm
    · obtain ⟨pair, hpair, rfl⟩ := List.mem_map.mp hm
      obtain ⟨hseen, hexpired⟩ := List.mem_filter.mp hpair
      have hmem := List.of_mem_zip hseen
      have hstamp : pair.1.node.timestamp ≤ box.tick :=
        h.stamps pair.1 (List.mem_append_left _ (h.ledger.order.subset hmem.1))
      have hle := UInt64.le_trans hstamp (hlater pair.2 hmem.2)
      exact .inr ⟨i, ticks, _, pair.2, List.mem_cons_self, hseen, (expired_iff hle).mp hexpired⟩
    · exact h.old_cons _ hm
  · exact fun j waiter buf hwaiter hphase => h.served_cons hserved _ hwaiter hphase

theorem handed (h : MailInvariant history box) {i : Nat} {waiter : Waiter} {m : Message}
    (hcall : box.waiters[i]? = some waiter) (hfound : box.msglist.find? waiter.isFor = some m) :
    MailInvariant ((.find i, .handed m) :: history)
      (Mailbox.goto { box with msglist := box.msglist.eraseP waiter.isFor } i waiter
        (.returned 0 m.node.buf)) := by
  have harrivals : arrivals ((.find i, .handed m) :: history) = arrivals history :=
    arrivals_cons_of_none _ rfl history
  have hgone : gone ((.find i, .handed m) :: history) = [m] ++ gone history := gone_cons _ _ _
  constructor
  · rw [harrivals, hgone]
    exact h.ledger.remove (perm_eraseP hfound) List.eraseP_sublist
  · rw [harrivals]
    exact h.ids
  · rw [harrivals]
    exact h.fresh
  · rw [harrivals]
    exact h.stamps
  · rw [hgone]
    intro n hn
    rcases List.mem_append.mp hn with hn | hn
    · exact .inl (List.mem_append_left _ hn)
    · exact h.old_cons _ hn
  · intro j other buf hother hphase
    have hlt := (List.getElem?_eq_some_iff.mp hcall).1
    by_cases hj : i = j
    · subst hj
      rw [Mailbox.goto, List.getElem?_set_self hlt] at hother
      obtain rfl := Option.some.inj hother
      cases hphase
      exact ⟨m, List.mem_cons_self, rfl, List.find?_some hfound⟩
    · rw [Mailbox.goto, List.getElem?_set_ne hj] at hother
      exact h.served_cons (fun _ _ _ hsame _ => hsame) _ hother hphase

theorem step (h : MailInvariant history box) {event : MailEvent} {output : MailOutput}
    (hmove : MailMove box event output after) : MailInvariant ((event, output) :: history) after := by
  cases hmove with
  | idle hnodes hpending hmsglist htick hserved =>
      exact h.idle event hnodes hpending hmsglist htick hserved
  | made node hnodes hpending hmsglist htick hstamp hserved =>
      exact h.made event hnodes hpending hmsglist htick hstamp hserved
  | arrived hwaiting => exact h.arrived hwaiting
  | compared hlength hclock hnodes hpending htick hmsglist hserved =>
      exact h.compared hlength hclock hnodes hpending htick hmsglist hserved
  | handed hcall hfound => exact h.handed hcall hfound

end MailInvariant

-- Every message goes to one call at most, a call that returns 0 has the oldest message it asked
-- for, and what was not handed out or found too old is in the list, in the order it came.
structure MailDiscipline (tick : UInt64) (history : MailHistory) (box : Mailbox) : Prop where
  once : ((handedOut history).map Message.id).Nodup
  served : ∀ (i : Nat) (waiter : Waiter) (buf : Bytes), box.waiters[i]? = some waiter →
    waiter.phase = .returned 0 buf → ∃ m, (MailEvent.find i, MailOutput.handed m) ∈ history ∧
      buf = m.node.buf ∧ m.node.iType = waiter.iType ∧ m.node.seqnum = waiter.seqnum
  oldest : ∀ (i : Nat) (m : Message) (earlier : MailHistory) (before : Mailbox),
    (MailEvent.find i, MailOutput.handed m) :: earlier <:+ history →
    Run mailStep free { tick } earlier before →
    ∃ waiter front back, before.waiters[i]? = some waiter ∧ before.msglist = front ++ m :: back ∧
      m.node.iType = waiter.iType ∧ m.node.seqnum = waiter.seqnum ∧
        ∀ n ∈ front, ¬ (n.node.iType = waiter.iType ∧ n.node.seqnum = waiter.seqnum)
  kept : ∀ m ∈ arrivals history, m ∉ handedOut history → ¬ OldAtCall history m → m ∈ box.msglist
  order : box.msglist.Sublist (arrivals history)

theorem Waiter.isFor_iff (waiter : Waiter) (m : Message) :
    waiter.isFor m = true ↔ m.node.iType = waiter.iType ∧ m.node.seqnum = waiter.seqnum := by
  simp [Waiter.isFor]

theorem handedOut_sublist_gone (history : MailHistory) : (handedOut history).Sublist (gone history) := by
  induction history with
  | nil => exact .refl _
  | cons entry history ih =>
      refine List.Sublist.append ?_ ih
      exact List.sublist_append_left _ _

theorem mailbox_discipline {tick : UInt64} {history : MailHistory} {box : Mailbox}
    (run : Run mailStep free { tick } history box) : MailDiscipline tick history box := by
  have hinv : MailInvariant history box := run.invariant MailInvariant (.init tick)
    fun _ _ _ _ _ h _ hs => h.step (mailStep_move hs)
  constructor
  · have hids := (List.nodup_append.mp (List.map_append ▸ hinv.ids)).1
    have hgone := (hinv.ledger.perm.map Message.id).nodup_iff.mp hids
    rw [List.map_append] at hgone
    exact ((handedOut_sublist_gone history).map Message.id).nodup (List.nodup_append.mp hgone).2.1
  · intro i waiter buf hwaiter hphase
    obtain ⟨m, hm, hbuf, hfor⟩ := hinv.served i waiter buf hwaiter hphase
    exact ⟨m, hm, hbuf, (waiter.isFor_iff m).mp hfor⟩
  · intro i m earlier before hsuffix hrun
    obtain ⟨before', after, hrun', -, hs⟩ := run.step_of_suffix hsuffix
    obtain rfl := hrun.unique hrun'
    cases mailStep_move hs with
    | @handed _ waiter _ hcall hfound =>
        obtain ⟨hfor, front, back, hsplit, hfront⟩ := List.find?_eq_some_iff_append.mp hfound
        have hasked := (waiter.isFor_iff m).mp hfor
        refine ⟨waiter, front, back, hcall, hsplit, hasked.1, hasked.2, fun n hn hsame => ?_⟩
        have hnot := hfront n hn
        rw [(waiter.isFor_iff n).mpr hsame] at hnot
        cases hnot
  · intro m hm hhanded hold
    refine hinv.ledger.mem_present hm fun hgone => ?_
    rcases hinv.old m hgone with h | h
    · exact hhanded h
    · exact hold h
  · exact hinv.ledger.order

-- Two answers with the same number, and two calls that wait for it.
def twoAnswers : List MailEvent :=
  [.insertMsg RESP_PUSH 5 [1] 10, .insertMsg RESP_PUSH 5 [2] 11, .pushBack 1, .pushBack 0,
    .waitforResponse RESP_PUSH 5, .waitforResponse RESP_PUSH 5, .refresh 0 [20, 20],
    .refresh 1 [20, 21], .start 0 30, .start 1 30, .wake 0 70, .wake 1 70, .find 1, .find 0]

theorem mailbox_discipline_two :
    ∃ history box, Run mailStep free { tick := 0 } history box ∧
      box.waiters.map Waiter.phase = [.returned 0 [1], .returned 0 [2]] ∧
        MailDiscipline 0 history box := by
  obtain ⟨history, box, run, htest⟩ := exists_run_of_ends mailStep free { tick := 0 } twoAnswers
    (fun _ box => box.waiters.map Waiter.phase == [.returned 0 [1], .returned 0 [2]])
    (guarded_free _ _ _) (by decide +kernel)
  exact ⟨history, box, run, beq_iff_eq.mp htest, mailbox_discipline run⟩

end VideoAdapter.Adapter
