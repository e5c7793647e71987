import VideoAdapter.Adapter.Server

namespace VideoAdapter.Adapter

-- A row of a result set: `none` for a column that is NULL.
abbrev Row := Nat → Option String

-- How one query can end: the pool has no connection to give, the statement fails, there is
-- no result set, or the rows of the result set.
inductive QueryResult where
  | noConnection
  | failed
  | noResult
  | rows (rows : List Row)

def MAX_DEVICE_NUM_PER_ADAPTER : Nat := 50

-- White space, a sign and digits; the number ends at the first other character.
def atoi (s : String) : Int :=
  let text := s.toList.dropWhile fun c => c = ' ' ∨ (9 ≤ c.toNat ∧ c.toNat ≤ 13)
  let number := fun (digits : List Char) =>
    (((digits.takeWhile Char.isDigit).foldl (fun n c => 10 * n + (c.toNat - 48)) 0 : Nat) : Int)
  match text with
  | '-' :: digits => -number digits
  | '+' :: digits => number digits
  | digits => number digits

@[simp] theorem atoi_zero : atoi "0" = 0 := by decide

@[simp] theorem atoi_one : atoi "1" = 1 := by decide

namespace DBHelper

-- 0 success, 1 database error, 2 groupid not exist, 3 password error, 100 invalid data;
-- with the `kid` that is filled in on success
def checkLogin (query : QueryResult) (password : String) : Int × String :=
  match query with
  | .noConnection => (1, "")
  | .failed => (1, "")
  | .noResult => (1, "")
  | .rows [] => (2, "")
  | .rows (sqlrow :: _) =>
      match sqlrow 1 with
      | none => (100, "")
      | some psw =>
          if psw.length > 19 then (100, "")
          else if psw ≠ password then (3, "")
          else match sqlrow 5 with
            | none => (100, "")
            | some kid => (0, kid)

-- One row of the camera table; `none` for invalid data.
def readCamera (sqlrow : Row) : Option TBDeviceEx := do
  let pid ← sqlrow 1
  let name ← sqlrow 3
  let text ← sqlrow 4
  let allday := atoi text
  if allday = 1 then return { pid, name, allday }
  let s0 ← sqlrow 5
  let e0 ← sqlrow 6
  match sqlrow 7 with
  | none => return { pid, name, allday, s0, e0 }
  | some s1 =>
      let e1 ← sqlrow 8
      return { pid, name, allday, s0, e0, s1, e1 }

-- The rows up to the first one with invalid data.
def readCameras : List Row → List TBDeviceEx
  | [] => []
  | sqlrow :: rest =>
      match readCamera sqlrow with
      | none => []
      | some camera => camera :: readCameras rest

-- The loop leaves only when it has counted one row more than the array holds. A failed
-- query and invalid data are not reported: the count of the rows so far overwrites the
-- error.
def getGroupInfoEx (query : QueryResult) : Option (List TBDeviceEx) :=
  match query with
  | .noConnection => none
  | .failed => some []
  | .noResult => some []
  | .rows rows => some ((readCameras rows).take (MAX_DEVICE_NUM_PER_ADAPTER + 1))

-- A row is written into the caller's array before its windows are looked at, so the row
-- after a full array is written behind it.
def overruns (query : QueryResult) : Bool :=
  match query with
  | .rows rows =>
      MAX_DEVICE_NUM_PER_ADAPTER ≤ (readCameras rows).length ∧
        rows[MAX_DEVICE_NUM_PER_ADAPTER]?.any fun sqlrow =>
          (sqlrow 1).isSome ∧ (sqlrow 3).isSome ∧ (sqlrow 4).isSome
  | _ => false

end DBHelper

-- The ids of the cameras stay in `sendbuf[10*1024]` behind the header and the answer.
def idsFit (rows : List TBDeviceEx) : Bool :=
  rows.zipIdx.all fun (camera, i) => sizeofMsgHeader + 72 + i * 20 + camera.pid.length ≤ 10 * 1024

-- The `kid` stays with its NUL in `resv[64]`.
def kidFits (kid : String) : Bool := (kid.toList.takeWhile (· ≠ Char.ofNat 0)).length < 64

-- What the world contributes to one login: the tick, the outcomes of the two queries, and
-- whether the answer was sent whole.
structure LoginEnv where
  tick : UInt64
  ada : QueryResult
  cam : QueryResult
  sent : Bool

namespace LoginEnv

def checkLogin (env : LoginEnv) (req : ReqLogin) : Int := (DBHelper.checkLogin env.ada req.password).1

def strkid (env : LoginEnv) (req : ReqLogin) : String := (DBHelper.checkLogin env.ada req.password).2

-- The camera rows that were loaded.
def cameras (env : LoginEnv) : List TBDeviceEx := (DBHelper.getGroupInfoEx env.cam).getD []

def frameEnv (env : LoginEnv) (req : ReqLogin) : FrameEnv where
  tick := env.tick
  checkLogin := env.checkLogin req
  strkid := env.strkid req
  rows := DBHelper.getGroupInfoEx env.cam
  sent := env.sent

-- What a successful login copies stays inside its buffers: the rows in the array, the ids and
-- the `kid`.
def fits (env : LoginEnv) (req : ReqLogin) : Bool :=
  !DBHelper.overruns env.cam && idsFit env.cameras && kidFits (env.strkid req)

end LoginEnv

-- `HandleLoginEx` over the queries themselves. A copy that leaves its buffer has no result.
def TcpServer.handleLoginExDb (srv : TcpServer) (fd seq : Int) (buf : Bytes) (env : LoginEnv) :
    Option (TcpServer × List Sent) :=
  let req := ReqLogin.decode buf
  if (srv.getClient req.cmsid).isNone ∧ env.checkLogin req = 0 ∧ ¬ env.fits req then none
  else some (handleLoginEx srv fd seq buf (env.frameEnv req))

-- `HandlerRead` over the queries.
def TcpServer.handlerReadDb (srv : TcpServer) (fd cmd seq : Int) (buf : Bytes) (env : LoginEnv) :
    Option (TcpServer × List Sent) :=
  if (srv.findClient fd).isNone ∧ cmd = REQ_LOGIN ∧ buf.length = sizeofReqLogin then
    srv.handleLoginExDb fd seq buf env
  else handlerRead srv fd cmd seq buf (env.frameEnv (ReqLogin.decode buf))

-- Whenever it has a result, `HandlerRead` does with the outcomes of the queries what it does
-- with the values that the queries return.
theorem handlerReadDb_eq {srv after : TcpServer} {fd cmd seq : Int} {buf : Bytes} {env : LoginEnv}
    {out : List Sent} (h : srv.handlerReadDb fd cmd seq buf env = some (after, out)) :
    handlerRead srv fd cmd seq buf (env.frameEnv (ReqLogin.decode buf)) = some (after, out) := by
  unfold TcpServer.handlerReadDb at h
  split at h
  · rename_i hlogin
    obtain ⟨hnone, hcmd, hsize⟩ := hlogin
    unfold TcpServer.handleLoginExDb at h
    dsimp only at h
    split at h
    · cases h
    · unfold handlerRead
      rw [Option.isNone_iff_eq_none.mp hnone]
      dsimp only
      rw [if_neg (by simp [hcmd, hsize])]
      exact h
  · exact h

end VideoAdapter.Adapter
