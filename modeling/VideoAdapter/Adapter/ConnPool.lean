import VideoAdapter.Adapter.Queries

namespace VideoAdapter.Adapter

open Lib Prog

namespace Db

section Balance

variable {α β : Type}

theorem steady_executeSql {k : Bool → DbProg α} (sql : Sql) (hk : ∀ ok, Steady (k ok)) :
    Steady (executeSql sql >>= k) := fun ok => hk ok

theorem steady_storeResult {k : Option (List Row) → DbProg α} (hk : ∀ res, Steady (k res)) :
    Steady (storeResult >>= k) := fun res => hk res

-- A statement whose failure ends the block.
theorem steady_executeSql_or {k : DbProg α} (sql : Sql) (failure : α) (hk : Steady k) :
    Steady (do if !(← executeSql sql) then return failure else k) := by
  refine steady_executeSql sql fun ok => ?_
  split
  · exact steady_pure _
  · exact hk

-- The frame of the functions: no connection, or the block and then the connection back.
theorem balanced_connected {body : DbProg α} (hbody : Steady body) (failure : β) (f : α → β) :
    Balanced false (do
      if !(← fetchConnection) then return failure
      let ret ← body
      recycleConnection
      return f ret : DbProg β) := by
  refine ⟨rfl, fun ok => ?_⟩
  cases ok with
  | false => exact rfl
  | true => exact hbody.balanced_bind fun ret => ⟨rfl, rfl⟩

theorem checkLogin_steady (groupid password : String) : Steady (checkLogin.body groupid password) := by
  refine steady_executeSql_or _ _ (steady_storeResult fun res => ?_)
  split
  · exact steady_pure _
  · exact steady_pure _
  · split
    · exact steady_pure _
    · split
      · exact steady_pure _
      · split
        · exact steady_pure _
        · split <;> exact steady_pure _

theorem checkStartPush_steady (mktime : Tm → Int) (groupid pid strtime : String) :
    Steady (checkStartPush.body mktime groupid pid strtime) := by
  refine steady_executeSql_or _ _ (steady_storeResult fun res => ?_)
  split <;> exact steady_pure _

theorem getUserGroup_steady (kid : String) : Steady (getUserGroup.body kid) := by
  refine steady_executeSql_or _ _ (steady_storeResult fun res => ?_)
  split
  · exact steady_pure _
  · exact steady_pure _
  · refine steady_executeSql_or _ _ (steady_storeResult fun res => ?_)
    split <;> exact steady_pure _

theorem getGroupInfoEx_steady (groupid : String) : Steady (getGroupInfoEx.body groupid) := by
  refine steady_executeSql_or _ _ (steady_storeResult fun res => ?_)
  split <;> exact steady_pure _

theorem getGroupInfo_steady (kid groupid : String) : Steady (getGroupInfo.body kid groupid) := by
  refine steady_executeSql_or _ _ (steady_storeResult fun res => ?_)
  split
  · exact steady_pure _
  · exact steady_pure _
  · refine steady_executeSql_or _ _ (steady_storeResult fun res => ?_)
    split
    · exact steady_pure _
    · split
      · trivial
      · exact steady_pure _

theorem addGroup_steady (kid password name : String) (draws : Nat → Nat) (strtime : String) :
    Steady (addGroup.body kid password name draws strtime) := by
  refine steady_executeSql_or _ _ (steady_storeResult fun res => ?_)
  split
  · exact steady_pure _
  · exact steady_pure _
  · split
    · exact steady_pure _
    · dsimp only
      split
      · exact steady_pure _
      · exact steady_executeSql_or _ _ (steady_executeSql_or _ _ (steady_pure _))

theorem delGroup_count_steady (kid : String) : Steady (delGroup.count kid) := by
  refine steady_executeSql_or _ _ (steady_storeResult fun res => ?_)
  split
  · exact steady_pure _
  · exact steady_pure _
  · split
    · exact steady_pure _
    · dsimp only
      split
      · exact steady_pure _
      · exact steady_executeSql_or _ _ (steady_pure _)

theorem delGroup_steady (kid groupid strtime : String) : Steady (delGroup.body kid groupid strtime) := by
  refine steady_executeSql_or _ _ (steady_storeResult fun res => ?_)
  split
  · exact steady_pure _
  · exact steady_pure _
  · split
    · refine steady_executeSql_or _ _ (steady_executeSql_or _ _ (steady_executeSql_or _ _ ?_))
      exact delGroup_count_steady kid
    · exact steady_pure _

theorem modGroup_steady (groupid : String) (type : Int) (value curtime : String) :
    Steady (modGroup.body groupid type value curtime) :=
  steady_executeSql_or _ _ (steady_pure _)

theorem addDevice_steady (info : TBDevice) (iSize : Int) (w : Windows) (strtime : String) :
    Steady (addDevice.body info iSize w strtime) := by
  refine steady_executeSql_or _ _ (steady_storeResult fun res => ?_)
  split
  · exact steady_pure _
  · exact steady_pure _
  · refine steady_executeSql_or _ _ (steady_storeResult fun res => ?_)
    split
    · exact steady_pure _
    · exact steady_pure _
    · split
      · exact steady_executeSql_or _ _ (steady_pure _)
      · exact steady_pure _

theorem delDevice_steady (groupid pid : String) : Steady (delDevice.body groupid pid) := by
  refine steady_executeSql_or _ _ (steady_storeResult fun res => ?_)
  split
  · exact steady_pure _
  · exact steady_pure _
  · split
    · exact steady_executeSql_or _ _ (steady_pure _)
    · exact steady_pure _

theorem modDevice_steady (info : TBDevice) (iSize : Int) (w : Windows) (curtime : String) :
    Steady (modDevice.body info iSize w curtime) :=
  steady_executeSql_or _ _ (steady_pure _)

-- A call of one of the functions, with the time and the draws it reads.
inductive Call where
  | checkLogin (groupid password : String)
  | checkStartPush (groupid pid strtime : String)
  | getUserGroup (kid : String)
  | getGroupInfoEx (groupid : String)
  | getGroupInfo (kid groupid : String)
  | addGroup (kid password name : String) (draws : Nat → Nat) (strtime : String)
  | delGroup (kid groupid strtime : String)
  | modGroup (groupid : String) (type : Int) (value curtime : String)
  | addDevice (info : TBDevice) (strtime : String)
  | delDevice (groupid pid : String)
  | modDevice (info : TBDevice) (curtime : String)

-- What a call does to the pool; its result does not matter there.
def Call.prog (mktime : Tm → Int) : Call → DbProg Unit
  | .checkLogin groupid password => (Db.checkLogin groupid password).bind fun _ => .ret ()
  | .checkStartPush groupid pid strtime =>
      (Db.checkStartPush mktime groupid pid strtime).bind fun _ => .ret ()
  | .getUserGroup kid => (Db.getUserGroup kid).bind fun _ => .ret ()
  | .getGroupInfoEx groupid => (Db.getGroupInfoEx groupid).bind fun _ => .ret ()
  | .getGroupInfo kid groupid => (Db.getGroupInfo kid groupid).bind fun _ => .ret ()
  | .addGroup kid password name draws strtime =>
      (Db.addGroup kid password name draws strtime).bind fun _ => .ret ()
  | .delGroup kid groupid strtime => (Db.delGroup kid groupid strtime).bind fun _ => .ret ()
  | .modGroup groupid type value curtime =>
      (Db.modGroup groupid type value curtime).bind fun _ => .ret ()
  | .addDevice info strtime => (Db.addDevice mktime info strtime).bind fun _ => .ret ()
  | .delDevice groupid pid => (Db.delDevice groupid pid).bind fun _ => .ret ()
  | .modDevice info curtime => (Db.modDevice mktime info curtime).bind fun _ => .ret ()

theorem addDevice_balanced (mktime : Tm → Int) (info : TBDevice) (strtime : String) :
    Balanced false (Db.addDevice mktime info strtime) := by
  unfold Db.addDevice
  split
  · trivial
  · rename_i iSize w _
    split
    · exact rfl
    · exact balanced_connected (addDevice_steady info iSize w strtime) 1 id

theorem modDevice_balanced (mktime : Tm → Int) (info : TBDevice) (curtime : String) :
    Balanced false (Db.modDevice mktime info curtime) := by
  unfold Db.modDevice
  split
  · trivial
  · rename_i iSize w _
    split
    · exact rfl
    · exact balanced_connected (modDevice_steady info iSize w curtime) 1 id

-- Every path through every function gives back exactly what it took.
theorem Call.prog_balanced (mktime : Tm → Int) (call : Call) : Balanced false (call.prog mktime) := by
  cases call with
  | checkLogin groupid password =>
      exact (balanced_connected (checkLogin_steady groupid password) (1, "") id).map _
  | checkStartPush groupid pid strtime =>
      exact (balanced_connected (checkStartPush_steady mktime groupid pid strtime) 1 id).map _
  | getUserGroup kid => exact (balanced_connected (getUserGroup_steady kid) (1, []) id).map _
  | getGroupInfoEx groupid =>
      exact (balanced_connected (getGroupInfoEx_steady groupid) none some).map _
  | getGroupInfo kid groupid =>
      exact (balanced_connected (getGroupInfo_steady kid groupid) (1, []) id).map _
  | addGroup kid password name draws strtime =>
      exact (balanced_connected (addGroup_steady kid password name draws strtime) (1, "") id).map _
  | delGroup kid groupid strtime =>
      exact (balanced_connected (delGroup_steady kid groupid strtime) 1 id).map _
  | modGroup groupid type value curtime =>
      exact (balanced_connected (modGroup_steady groupid type value curtime) 1 id).map _
  | addDevice info strtime => exact (addDevice_balanced mktime info strtime).map _
  | delDevice groupid pid => exact (balanced_connected (delDevice_steady groupid pid) 1 id).map _
  | modDevice info curtime => exact (modDevice_balanced mktime info curtime).map _

end Balance

end Db

def MAX_POOL_SIZE : Nat := 256

-- The number of connections `openConnPool` opens.
def connNum (coreConnNum : Int) : Nat :=
  if coreConnNum > MAX_POOL_SIZE ∨ coreConnNum ≤ 0 then MAX_POOL_SIZE else coreConnNum.toNat

abbrev MysqlConnectionPool := Pool DbQuery.Answer Unit Nat

-- The pool after all connections were made, numbered in the order they were pushed.
def openConnPool (coreConnNum : Int) : MysqlConnectionPool := .opened (List.range (connNum coreConnNum))

abbrev connPoolStep (mktime : Tm → Int) (p : MysqlConnectionPool) (event : PoolEvent DbQuery.Answer Db.Call) :
    Option (MysqlConnectionPool × Unit) := poolStep (Db.Call.prog mktime) p event

theorem sound_of_run (mktime : Tm → Int) (coreConnNum : Int)
    {history : List (PoolEvent DbQuery.Answer Db.Call × Unit)} {p : MysqlConnectionPool}
    (run : Run (connPoolStep mktime) free (openConnPool coreConnNum) history p) :
    p.Sound (List.range (connNum coreConnNum)) := by
  refine run.invariant (fun _ p => p.Sound (List.range (connNum coreConnNum))) ?_ ?_
  · exact Pool.sound_opened _
  · intro _ before event after output hsound _ hstep
    exact hsound.step (Db.Call.prog_balanced mktime) hstep

-- No connection is in two places, the front is never taken from an empty deque, and when all
-- calls are over the pool is as it was opened.
theorem connections_conserved (mktime : Tm → Int) (coreConnNum : Int)
    (history : List (PoolEvent DbQuery.Answer Db.Call × Unit)) (p : MysqlConnectionPool)
    (run : Run (connPoolStep mktime) free (openConnPool coreConnNum) history p) :
    (p.deque ++ p.threads.flatMap PoolThread.conns).Nodup ∧
      (∀ next, .waited next ∈ p.threads → p.deque ≠ []) ∧
      ((∀ t ∈ p.threads, t.Finished) →
        p.deque.Perm (List.range (connNum coreConnNum)) ∧ p.sem = connNum coreConnNum) := by
  have hsound := sound_of_run mktime coreConnNum run
  refine ⟨?_, fun next hwaited => hsound.deque_ne_nil hwaited, fun hdone => ?_⟩
  · exact hsound.conserved.nodup_iff.mpr List.nodup_range
  · obtain ⟨hperm, hsem⟩ := hsound.all_back hdone
    exact ⟨hperm, by rw [hsem, List.length_range]⟩

-- A database that executes every statement and has no row to show.
def emptyWorld : (query : DbQuery) → query.Answer
  | .execute _ => true
  | .storeResult => some []

-- Two calls that overlap on a pool of two: one of them finds no camera to delete.
def overlapping : List (PoolEvent DbQuery.Answer Db.Call) :=
  [.start (.delDevice "c" "p"), .start (.getGroupInfoEx "c"), .wait 0 true, .wait 1 true, .pop 1, .pop 0,
    .answer 0 emptyWorld, .answer 1 emptyWorld, .answer 0 emptyWorld, .push 0, .answer 1 emptyWorld,
    .push 1, .post 1, .post 0]

theorem connections_conserved_two : ∃ p : MysqlConnectionPool,
    p.threads.length = 2 ∧ p.deque.Perm [0, 1] ∧ p.sem = 2 := by
  obtain ⟨history, p, run, htest⟩ := exists_run_of_ends (connPoolStep fun tm => tm.seconds) free
    (openConnPool 2) overlapping
    (fun _ p => decide (p.threads.length = 2 ∧ ∀ t ∈ p.threads, t.Finished)) (guarded_free _ _ _)
    (by decide +kernel)
  obtain ⟨hlength, hdone⟩ := of_decide_eq_true htest
  obtain ⟨-, -, hback⟩ := connections_conserved _ 2 history p run
  obtain ⟨hperm, hsem⟩ := hback hdone
  exact ⟨p, hlength, hperm, hsem⟩

end VideoAdapter.Adapter
