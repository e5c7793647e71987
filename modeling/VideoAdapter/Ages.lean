import VideoAdapter.Lib.Age
import VideoAdapter.Lib.Run
import VideoAdapter.Wss.LiveRoom
import VideoAdapter.Wss.WebSocketServer

namespace VideoAdapter.Ages

open Lib Wss

-- The stamps that a thread renews by itself, outside every lock.
inductive Stamp where
  | livecount (client : Nat)
  | timestamp (socketID : Int)
deriving DecidableEq, Repr

-- Where an age check stands. `CMSClient::CheckState` has sampled `cur`; `CheckConnectionState` was
-- called with `cur` and waits for `slocker_`, goes through the connections, or has read the room id
-- of one; the sweep goes through the rooms and has, for one of them, sampled `cur`, or seen that
-- it is empty.
inductive Check where
  | checkState (client : Nat) (cur : UInt64)
  | locking (cur : UInt64)
  | visit (cur : UInt64) (keys : List Int)
  | connection (cur : UInt64) (roomid : String) (key : Int) (keys : List Int)
  | sweep (rooms : List Nat)
  | size (cur : UInt64) (p : Nat) (rooms : List Nat)
  | room (cur : UInt64) (p : Nat) (rooms : List Nat)
  | finished
deriving DecidableEq, Repr

-- The peers of the server: the adapters by their `livecount_`, the viewers and the rooms. `none`
-- stands for a deleted adapter or room. A renewal is a tick on its way into a stamp.
structure Peers where
  tick : UInt64 := 0
  clients : List (Option UInt64) := []
  connections : Connections := ∅
  heap : List (Option LiveRoom) := []
  renewals : List (Stamp × UInt64) := []
  checks : List Check := []

inductive Event where
  | addClient (tick : UInt64)
  | established (socketID : Int) (timestamp : UInt64)
  | removeConnection (socketID : Int)
  | setValue (socketID : Int) (roomid : String)
  | newRoom (cmsid devid token : String)
  | join (p : Nat) (fd : Int)
  | quit (p : Nat) (fd : Int) (tick : UInt64)
  | sample (stamp : Stamp) (tick : UInt64)
  | store (renewal : Nat)
  | checkState (client : Nat) (tick : UInt64)
  | checkConnectionState (tick : UInt64)
  | stateThread (rooms : List Nat)
  | advance (check : Nat) (tick : UInt64)

-- What a check found: the limit, the stamp it read, its sample and what it made of them.
inductive Verdict where
  | quiet
  | checked (limit : Nat) (stamp cur : UInt64) (expired : Bool)
deriving DecidableEq, Repr

-- A peer is taken for expired only if the limit has passed.
def Verdict.Right : Verdict → Prop
  | .quiet => True
  | .checked limit stamp cur expired => expired = true → Passed limit stamp cur

namespace Peers

-- The clock never goes back.
def sample (s : Peers) (tick : UInt64) : Option Peers :=
  if s.tick ≤ tick then some { s with tick } else none

def goto (s : Peers) (i : Nat) (check : Check) : Peers := { s with checks := s.checks.set i check }

def store (s : Peers) : Stamp → UInt64 → Option Peers
  | .livecount client, tick =>
      s.clients[client]?.join.map fun _ => { s with clients := s.clients.set client (some tick) }
  | .timestamp socketID, tick =>
      (s.connections.updateTimestamp socketID tick).map fun connections => { s with connections }

-- The heartbeat of an adapter. Its client is deleted when it has stopped.
def checkState (s : Peers) (i client : Nat) (cur livecount : UInt64) : Peers × Verdict :=
  let expired := overdue (20 * 1000) livecount cur
  let clients := if expired then s.clients.set client none else s.clients
  (goto { s with clients } i .finished, .checked (20 * 1000) livecount cur expired)

-- The branch that calls `onTimeout` clears the room id and does not advance the iterator.
def checkConnection (s : Peers) (i : Nat) (cur : UInt64) (roomid : String) (key : Int)
    (keys : List Int) (c : Connection) : Peers × Verdict :=
  let expired := overdue (30 * 1000) c.timestamp cur && decide (roomid ≠ "")
  let next := if expired then
      goto { s with connections := s.connections.insert key (some (c.setValue "roomid" "")) } i
        (.visit cur (key :: keys))
    else s.goto i (.visit cur keys)
  (next, .checked (30 * 1000) c.timestamp cur expired)

def checkRoom (s : Peers) (i : Nat) (cur : UInt64) (p : Nat) (rooms : List Nat) (room : LiveRoom) :
    Peers × Verdict :=
  let expired := overdue (60 * 1000) room.timestamp cur
  let heap := if expired then s.heap.set p none else s.heap
  (goto { s with heap } i (.sweep rooms), .checked (60 * 1000) room.timestamp cur expired)

def quietly (s : Option Peers) : Option (Peers × Verdict) := s.map (·, .quiet)

-- One step of a check. A pointer to something deleted has no result.
def advance (s : Peers) (i : Nat) (tick : UInt64) : Check → Option (Peers × Verdict)
  | .checkState client cur => s.clients[client]?.join.map (s.checkState i client cur)
  | .locking cur => some (s.goto i (.visit cur s.connections.keys), .quiet)
  | .visit _ [] => some (s.goto i .finished, .quiet)
  | .visit cur (key :: keys) => s.connections[key]?.join.map fun c =>
      (s.goto i (.connection cur (c.value "roomid") key keys), .quiet)
  | .connection cur roomid key keys =>
      s.connections[key]?.join.map (s.checkConnection i cur roomid key keys)
  | .sweep [] => some (s.goto i .finished, .quiet)
  | .sweep (p :: rooms) => quietly ((s.sample tick).map (·.goto i (.size tick p rooms)))
  | .size cur p rooms => s.heap[p]?.join.map fun room =>
      (s.goto i (if room.size = 0 then .room cur p rooms else .sweep rooms), .quiet)
  | .room cur p rooms => s.heap[p]?.join.map (s.checkRoom i cur p rooms)
  | .finished => none

end Peers

open Peers in
def ageStep (s : Peers) : Event → Option (Peers × Verdict)
  | .addClient tick => quietly ((s.sample tick).map fun s => { s with clients := s.clients ++ [some tick] })
  -- the constructor leaves `timestamp` as it finds it
  | .established socketID timestamp =>
      some ({ s with connections := s.connections.insert socketID (some { socketid := socketID, timestamp }) },
        .quiet)
  | .removeConnection socketID =>
      some ({ s with connections := s.connections.removeConnection socketID }, .quiet)
  | .setValue socketID roomid => quietly
      ((s.connections.setValue socketID "roomid" roomid).map fun connections => { s with connections })
  | .newRoom cmsid devid token =>
      some ({ s with heap := s.heap ++ [some { cmsid, devid, token }] }, .quiet)
  | .join p fd => s.heap[p]?.join.map fun room =>
      ({ s with heap := s.heap.set p (some (room.join fd)) }, .quiet)
  | .quit p fd tick => s.heap[p]?.join.bind fun room =>
      quietly ((s.sample tick).map fun s => { s with heap := s.heap.set p (some (room.quit fd tick)) })
  | .sample stamp tick => quietly
      ((s.sample tick).map fun s => { s with renewals := s.renewals ++ [(stamp, tick)] })
  | .store r => s.renewals[r]?.bind fun renewal =>
      quietly (store { s with renewals := s.renewals.eraseIdx r } renewal.1 renewal.2)
  | .checkState client tick => quietly
      ((s.sample tick).map fun s => { s with checks := s.checks ++ [.checkState client tick] })
  | .checkConnectionState tick => quietly
      ((s.sample tick).map fun s => { s with checks := s.checks ++ [.locking tick] })
  | .stateThread rooms => some ({ s with checks := s.checks ++ [.sweep rooms] }, .quiet)
  | .advance i tick => s.checks[i]?.bind (s.advance i tick)

-- The check does not read a stamp that is later than its own sample.
def Check.ReadsInOrder (s : Peers) : Check → Prop
  | .checkState client cur => ∀ livecount, s.clients[client]?.join = some livecount →
      InOrder (20 * 1000) livecount cur
  | .connection cur roomid key _ => roomid ≠ "" → ∀ c, s.connections[key]?.join = some c →
      InOrder (30 * 1000) c.timestamp cur
  | .room cur p _ => ∀ room, s.heap[p]?.join = some room → InOrder (60 * 1000) room.timestamp cur
  | _ => True

def readsInOrder (_ : List (Event × Verdict)) (s : Peers) : Event → Prop
  | .advance i _ => ∀ check, s.checks[i]? = some check → check.ReadsInOrder s
  | _ => True

theorem right_quietly {s : Option Peers} {after : Peers} {verdict : Verdict}
    (h : Peers.quietly s = some (after, verdict)) : verdict.Right := by
  obtain ⟨s, -, heq⟩ := Option.map_eq_some_iff.mp h
  cases heq
  trivial

theorem advance_right_iff {s after : Peers} {i : Nat} {tick : UInt64} {check : Check}
    {verdict : Verdict} (h : s.advance i tick check = some (after, verdict)) :
    check.ReadsInOrder s ↔ verdict.Right := by
  cases check with
  | checkState client cur =>
      obtain ⟨livecount, hread, heq⟩ := Option.map_eq_some_iff.mp h
      cases heq
      rw [Check.ReadsInOrder, Verdict.Right, overdue_right_iff, hread]
      exact ⟨fun hall => hall livecount rfl, fun hright _ hsame => Option.some.inj hsame ▸ hright⟩
  | locking cur =>
      cases h
      exact Iff.rfl
  | visit cur keys =>
      cases keys with
      | nil =>
          cases h
          exact Iff.rfl
      | cons key keys =>
          obtain ⟨c, -, heq⟩ := Option.map_eq_some_iff.mp h
          cases heq
          exact Iff.rfl
  | connection cur roomid key keys =>
      obtain ⟨c, hread, heq⟩ := Option.map_eq_some_iff.mp h
      cases heq
      rw [Check.ReadsInOrder, hread]
      by_cases hroom : roomid = ""
      · exact iff_of_true (fun hne => absurd hroom hne) (by simp [Verdict.Right, hroom])
      · have hexpired : (overdue (30 * 1000) c.timestamp cur && decide (roomid ≠ "")) =
            overdue (30 * 1000) c.timestamp cur := by
          rw [decide_eq_true hroom, Bool.and_true]
        rw [Verdict.Right, hexpired, overdue_right_iff]
        exact ⟨fun hall => hall hroom c rfl, fun hright _ _ hsame => Option.some.inj hsame ▸ hright⟩
  | sweep rooms =>
      cases rooms with
      | nil =>
          cases h
          exact Iff.rfl
      | cons p rooms => exact iff_of_true trivial (right_quietly h)
  | size cur p rooms =>
      obtain ⟨room, -, heq⟩ := Option.map_eq_some_iff.mp h
      cases heq
      exact Iff.rfl
  | room cur p rooms =>
      obtain ⟨room, hread, heq⟩ := Option.map_eq_some_iff.mp h
      cases heq
      rw [Check.ReadsInOrder, Verdict.Right, overdue_right_iff, hread]
      exact ⟨fun hall => hall room rfl, fun hright _ hsame => Option.some.inj hsame ▸ hright⟩
  | finished => cases h

theorem ageStep_right_iff {s after : Peers} {event : Event} {verdict : Verdict}
    (h : ageStep s event = some (after, verdict)) (history : List (Event × Verdict)) :
    readsInOrder history s event ↔ verdict.Right := by
  cases event with
  | advance i tick =>
      obtain ⟨check, hcheck, h⟩ := Option.bind_eq_some_iff.mp h
      rw [← advance_right_iff h]
      exact ⟨fun hall => hall check hcheck, fun hreads other hsame =>
        Option.some.inj (hcheck.symm.trans hsame) ▸ hreads⟩
  | quit p fd tick =>
      obtain ⟨room, -, h⟩ := Option.bind_eq_some_iff.mp h
      exact iff_of_true trivial (right_quietly h)
  | store r =>
      obtain ⟨renewal, -, h⟩ := Option.bind_eq_some_iff.mp h
      exact iff_of_true trivial (right_quietly h)
  | join p fd =>
      obtain ⟨room, -, heq⟩ := Option.map_eq_some_iff.mp h
      cases heq
      exact Iff.rfl
  | addClient tick => exact iff_of_true trivial (right_quietly h)
  | setValue socketID roomid => exact iff_of_true trivial (right_quietly h)
  | sample stamp tick => exact iff_of_true trivial (right_quietly h)
  | checkState client tick => exact iff_of_true trivial (right_quietly h)
  | checkConnectionState tick => exact iff_of_true trivial (right_quietly h)
  | established socketID timestamp =>
      cases h
      exact Iff.rfl
  | removeConnection socketID =>
      cases h
      exact Iff.rfl
  | newRoom cmsid devid token =>
      cases h
      exact Iff.rfl
  | stateThread rooms =>
      cases h
      exact Iff.rfl

-- In a run, every check is right about every peer exactly if no check reads a stamp that is later
-- than its own sample.
theorem checks_right_iff {tick : UInt64} {history : List (Event × Verdict)} {s : Peers}
    (run : Run ageStep free { tick } history s) :
    (∀ entry ∈ history, entry.2.Right) ↔ Run ageStep readsInOrder { tick } history s := by
  induction run with
  | init => exact iff_of_true (by simp) .init
  | @next history before after event verdict hbefore _ hs ih =>
      rw [List.forall_mem_cons, ih]
      constructor
      · rintro ⟨hright, hrun⟩
        exact hrun.next ((ageStep_right_iff hs history).mpr hright) hs
      · intro hrun
        cases hrun with
        | next hrun hguard hs' =>
            obtain rfl := hrun.unique hbefore
            exact ⟨(ageStep_right_iff hs' history).mp hguard, hrun⟩

instance (verdict : Verdict) : Decidable verdict.Right :=
  match verdict with
  | .quiet => isTrue trivial
  | .checked _ _ _ _ => inferInstanceAs (Decidable (_ → _))

def verdicts (history : List (Event × Verdict)) : List Verdict :=
  (history.reverse.map Prod.snd).filter (· ≠ .quiet)

-- An adapter that has stopped, and an adapter, a viewer and a room that were renewed before the
-- checks sampled the clock.
def inTime : List Event :=
  [.addClient 1, .addClient 2, .checkState 0 90000, .advance 0 0, .sample (.livecount 1) 90000,
    .store 0, .checkState 1 90001, .advance 1 0, .established 7 0, .sample (.timestamp 7) 90002,
    .store 0, .setValue 7 "cd", .checkConnectionState 90003, .advance 2 0, .advance 2 0, .advance 2 0,
    .newRoom "c" "d" "t", .join 0 7, .quit 0 7 90004, .stateThread [0], .advance 3 90005,
    .advance 3 0, .advance 3 0]

theorem checks_right_iff_in_time :
    ∃ history s, Run ageStep free { tick := 0 } history s ∧
      verdicts history = [.checked 20000 1 90000 true, .checked 20000 90000 90001 false,
        .checked 30000 90002 90003 false, .checked 60000 90004 90005 false] ∧
      (∀ entry ∈ history, entry.2.Right) ∧ Run ageStep readsInOrder { tick := 0 } history s := by
  obtain ⟨history, s, run, htest⟩ := exists_run_of_ends ageStep free { tick := 0 } inTime
    (fun history _ => decide (verdicts history = [.checked 20000 1 90000 true,
      .checked 20000 90000 90001 false, .checked 30000 90002 90003 false,
      .checked 60000 90004 90005 false]) && decide (∀ entry ∈ history, entry.2.Right))
    (guarded_free _ _ _) (by decide +kernel)
  rw [Bool.and_eq_true, decide_eq_true_iff, decide_eq_true_iff] at htest
  exact ⟨history, s, run, htest.1, htest.2, (checks_right_iff run).mp htest.2⟩

-- Renewals between the sample and the read: each of the three checks ends a live peer.
def tooLate : List Event :=
  [.addClient 1, .checkState 0 90000, .sample (.livecount 0) 90001, .store 0, .advance 0 0,
    .established 7 0, .setValue 7 "cd", .checkConnectionState 90002, .sample (.timestamp 7) 90003,
    .store 0, .advance 1 0, .advance 1 0, .advance 1 0, .newRoom "c" "d" "t", .join 0 7,
    .stateThread [0], .advance 2 90004, .quit 0 7 90005, .advance 2 0, .advance 2 0]

theorem renewed_peers_expire :
    ∃ history s, Run ageStep free { tick := 0 } history s ∧
      verdicts history = [.checked 20000 90001 90000 true, .checked 30000 90003 90002 true,
        .checked 60000 90005 90004 true] ∧ ¬ ∀ entry ∈ history, entry.2.Right := by
  obtain ⟨history, s, run, htest⟩ := exists_run_of_ends ageStep free { tick := 0 } tooLate
    (fun history _ => decide (verdicts history = [.checked 20000 90001 90000 true,
      .checked 30000 90003 90002 true, .checked 60000 90005 90004 true]) &&
      decide (¬ ∀ entry ∈ history, entry.2.Right))
    (guarded_free _ _ _) (by decide +kernel)
  rw [Bool.and_eq_true, decide_eq_true_iff, decide_eq_true_iff] at htest
  exact ⟨history, s, run, htest.1, htest.2⟩

end VideoAdapter.Ages
