import VideoAdapter.Adapter.Pushing
import VideoAdapter.Wss.Join

namespace VideoAdapter.Wss

open Adapter Lib
open Service (RequestEnv)

namespace Joins

variable (m : Joins) (s x : Int) (pc : Pc) (k : String)

@[simp] theorem rooms_goto : (m.goto s pc).rooms = m.rooms := rfl

@[simp] theorem heap_goto : (m.goto s pc).heap = m.heap := rfl

@[simp] theorem server_goto : (m.goto s pc).server = m.server := rfl

@[simp] theorem call_goto : (m.goto s pc).call x = if x = s then some pc else m.call x := by
  by_cases hx : x = s
  · simp [goto, call, hx]
  · simp [goto, call, Std.ExtTreeMap.getElem?_insert, hx, Ne.symm hx]

-- The calls do not see what else is changed.
@[simp] theorem call_mk (connections : Connections) (server : TcpServer)
    (rooms : Std.ExtTreeMap String Nat) (heap : List (Option LiveRoom)) :
    call ⟨connections, server, rooms, heap, m.calls⟩ x = m.call x := rfl

@[simp] theorem call_delete : (m.delete k).call x = m.call x := by
  unfold delete
  split <;> rfl

@[simp] theorem server_delete : (m.delete k).server = m.server := by
  unfold delete
  split <;> rfl

@[simp] theorem rooms_delete : (m.delete k).rooms[k]? = none := by
  unfold delete
  split
  · assumption
  · simp

-- Deleting the stored room frees one heap cell and leaves the others as they are.
theorem heap_delete {p : Nat} {room : LiveRoom} (h : (m.delete k).heap[p]? = some (some room)) :
    m.heap[p]? = some (some room) := by
  unfold delete at h
  split at h
  · exact h
  · rw [List.getElem?_set] at h
    split at h
    · split at h <;> cases h
    · exact h

@[simp] theorem length_heap_delete : (m.delete k).heap.length = m.heap.length := by
  unfold delete
  split <;> simp

end Joins

-- Everything the call of a socket can do, from each point where it can stand.
inductive JoinMove (c d : String) (m : Joins) (s : Int) (env : RequestEnv) : Pc → Joins → Prop
  | checked (ret : Int) (hs : AdapterServer.checkStatus m.server c d = some ret) :
      JoinMove c d m s env .check (m.goto s (.lookup ret))
  | offline (ret : Int) (hret : ret = 100 ∨ ret = 101) :
      JoinMove c d m s env (.lookup ret) ((m.delete (c ++ d)).goto s (.reply offlineReply))
  | deleted : JoinMove c d m s env (.lookup 102) ((m.delete (c ++ d)).goto s .start)
  | found (p : Nat) (hr : m.rooms[c ++ d]? = some p) :
      JoinMove c d m s env (.lookup 200) (m.goto s (.found p))
  | unexpected (ret : Int) (h102 : ret ≠ 102) (hr : ret = 200 → m.rooms[c ++ d]? = none) :
      JoinMove c d m s env (.lookup ret) (m.goto s (.reply unexpectedReply))
  | failed (hret : (AdapterServer.notifyStartPush m.server c d env.start).1.ret ≠ 0) :
      JoinMove c d m s env .start
        (Joins.goto { m with server := (AdapterServer.notifyStartPush m.server c d env.start).2.1 } s
          (.reply (failReply (AdapterServer.notifyStartPush m.server c d env.start).1.result)))
  | started (hret : (AdapterServer.notifyStartPush m.server c d env.start).1.ret = 0) :
      JoinMove c d m s env .start
        (Joins.goto { m with server := (AdapterServer.notifyStartPush m.server c d env.start).2.1 } s
          (.create (AdapterServer.notifyStartPush m.server c d env.start).1.token))
  | created (token : String) : JoinMove c d m s env (.create token) (m.create s c d token)
  | stored (p : Nat) (resp : Reply) : JoinMove c d m s env (.store p resp)
      (Joins.goto { m with rooms := m.rooms.insert (c ++ d) p } s (.accept resp))
  | joined (p : Nat) (room : LiveRoom) (hp : m.heap[p]? = some (some room)) :
      JoinMove c d m s env (.found p)
        (Joins.goto { m with heap := m.heap.set p (some (room.join s)) } s
          (.joined p (room.join s).size))
  | read (p count : Nat) (room : LiveRoom) (hp : m.heap[p]? = some (some room)) :
      JoinMove c d m s env (.joined p count)
        (m.goto s (.accept (joinReply room.rdy room.token count)))
  | replied (resp : Reply) (connections : Connections) :
      JoinMove c d m s env (.reply resp) (Joins.goto { m with connections } s (.done resp.code))
  | accepted (resp : Reply) (connections : Connections) :
      JoinMove c d m s env (.accept resp) (Joins.goto { m with connections } s (.done resp.code))

variable {c d : String} {m after : Joins} {s : Int} {env : RequestEnv} {out : List Output}

theorem Joins.send_connections {resp : Reply} (h : m.send s resp = some (after, out)) :
    ∃ connections, after = { m with connections } := by
  obtain ⟨connections, -, he⟩ := Option.map_eq_some_iff.mp h
  cases he
  exact ⟨connections, rfl⟩

theorem Joins.accept_connections {k : String} {resp : Reply} {tick : UInt64}
    (h : m.accept s k resp tick = some (after, out)) : ∃ connections, after = { m with connections } := by
  simp only [Joins.accept, Option.bind_eq_bind, Option.bind_eq_some_iff, Option.pure_def,
    Option.some.injEq, Prod.mk.injEq] at h
  obtain ⟨⟨mid, sent⟩, hsend, -, -, connections, -, rfl, -⟩ := h
  obtain ⟨_, rfl⟩ := Joins.send_connections hsend
  exact ⟨connections, rfl⟩

theorem lookup_move (m : Joins) (s : Int) (env : RequestEnv) (ret : Int) :
    JoinMove c d m s env (.lookup ret) (m.lookup s (c ++ d) ret) := by
  unfold Joins.lookup
  split
  · rename_i hret
    exact .offline ret hret
  · split
    · rename_i h102
      subst h102
      exact .deleted
    · rename_i h102
      split
      · rename_i h200
        subst h200
        split
        · rename_i p hr
          exact .found p hr
        · rename_i hr
          exact .unexpected 200 h102 fun _ => hr
      · rename_i h200
        exact .unexpected ret h102 fun h => absurd h h200

theorem startPlay_move (m : Joins) (s : Int) (env : RequestEnv) :
    JoinMove c d m s env .start (m.startPlay s c d env).1 := by
  unfold Joins.startPlay
  by_cases hret : (AdapterServer.notifyStartPush m.server c d env.start).1.ret = 0
  · simpa [hret] using JoinMove.started hret
  · simpa [hret] using JoinMove.failed hret

theorem joinStep_move (h : joinStep c d m (s, env) = some (after, out)) :
    ∃ pc, m.call s = some pc ∧ JoinMove c d m s env pc after := by
  simp only [joinStep] at h
  split at h
  · cases h
  · rename_i hpc
    obtain ⟨ret, hs, he⟩ := Option.map_eq_some_iff.mp h
    cases he
    exact ⟨_, hpc, .checked ret hs⟩
  · rename_i ret hpc
    cases h
    exact ⟨_, hpc, lookup_move m s env ret⟩
  · rename_i hpc
    obtain rfl := congrArg Prod.fst (Option.some.inj h)
    exact ⟨_, hpc, startPlay_move m s env⟩
  · rename_i token hpc
    cases h
    exact ⟨_, hpc, .created token⟩
  · rename_i p resp hpc
    cases h
    exact ⟨_, hpc, .stored p resp⟩
  · rename_i p hpc
    obtain ⟨next, hj, he⟩ := Option.map_eq_some_iff.mp h
    cases he
    unfold Joins.joinRoom at hj
    split at hj
    · rename_i room hp
      cases hj
      exact ⟨_, hpc, .joined p room hp⟩
    · cases hj
  · rename_i p count hpc
    obtain ⟨next, hj, he⟩ := Option.map_eq_some_iff.mp h
    cases he
    unfold Joins.readRoom at hj
    split at hj
    · rename_i room hp
      cases hj
      exact ⟨_, hpc, .read p count room hp⟩
    · cases hj
  · rename_i resp hpc
    obtain ⟨⟨next, sent⟩, hj, he⟩ := Option.map_eq_some_iff.mp h
    cases he
    obtain ⟨connections, rfl⟩ := Joins.send_connections hj
    exact ⟨_, hpc, .replied resp connections⟩
  · rename_i resp hpc
    obtain ⟨⟨next, sent⟩, hj, he⟩ := Option.map_eq_some_iff.mp h
    cases he
    obtain ⟨connections, rfl⟩ := Joins.accept_connections hj
    exact ⟨_, hpc, .accepted resp connections⟩
  · cases h

theorem JoinMove.other {pc : Pc} (h : JoinMove c d m s env pc after) {x : Int} (hx : x ≠ s) :
    after.call x = m.call x := by
  cases h <;> simp [Joins.create, hx]

end VideoAdapter.Wss
