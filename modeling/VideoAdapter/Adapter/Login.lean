import VideoAdapter.Adapter.DBHelper

namespace VideoAdapter.Adapter

-- The connection has a client with this id.
def TcpServer.registered (srv : TcpServer) (fd : Int) (cmsid : String) : Prop :=
  ∃ p ∈ srv.clientlist, p.fd = fd ∧ p.cmsid = cmsid

-- The answer says success exactly if the client is registered, and then its size is the
-- number of camera rows that were loaded into the client.
def LoginTruthful (fd : Int) (cmsid : String) (env : LoginEnv) (after : TcpServer)
    (out : List Sent) : Prop :=
  ∃ seq result size resv pids, out = [(fd, .respLogin seq result size resv pids)] ∧
    (result = 0 ↔ after.registered fd cmsid) ∧
    (result = 0 → size = env.cameras.length ∧
      ∀ p ∈ after.clientlist, p.fd = fd → p.cmsid = cmsid → p.devlist = loadRows env.cameras)

variable {srv after : TcpServer} {fd seq : Int} {buf : Bytes} {env : LoginEnv} {out : List Sent}

theorem fd_ne_of_findClient (h : srv.findClient fd = none) {p : CMSClient}
    (hp : p ∈ srv.clientlist) : p.fd ≠ fd := by
  have hno := List.find?_eq_none.mp h p hp
  simpa using hno

theorem not_registered (h : srv.findClient fd = none) (cmsid : String) :
    ¬ srv.registered fd cmsid := by
  rintro ⟨p, hp, hfd, -⟩
  exact fd_ne_of_findClient h hp hfd

theorem getGroupInfoEx_eq_none {query : QueryResult} :
    DBHelper.getGroupInfoEx query = none ↔ query = .noConnection := by
  cases query <;> simp [DBHelper.getGroupInfoEx]

-- An answer with another code goes to a connection that stays unregistered.
theorem loginTruthful_refused (hnew : srv.findClient fd = none) (cmsid : String) (seq size : Int)
    (resv : String) (pids : List String) {result : Int} (hr : result ≠ 0) :
    LoginTruthful fd cmsid env srv [(fd, .respLogin seq result size resv pids)] :=
  ⟨seq, result, size, resv, pids, rfl, iff_of_false hr (not_registered hnew cmsid),
    fun h => absurd h hr⟩

theorem loginTruthful_added (hnew : srv.findClient fd = none) (cmsid : String) (seq : Int)
    (resv : String) (pids : List String) (tick : UInt64) :
    LoginTruthful fd cmsid env
      (srv.addClient { fd, cmsid, livecount := tick, devlist := loadRows env.cameras, msglist := [] })
      [(fd, .respLogin seq 0 env.cameras.length resv pids)] := by
  refine ⟨seq, 0, _, resv, pids, rfl, iff_of_true rfl ?_, fun _ => ⟨rfl, ?_⟩⟩
  · exact ⟨_, List.mem_append_right _ (List.mem_singleton_self _), rfl, rfl⟩
  · intro p hp hfd _
    rcases List.mem_append.mp hp with hp | hp
    · exact absurd hfd (fd_ne_of_findClient hnew hp)
    · rw [List.mem_singleton.mp hp]

-- Success without a client.
theorem not_loginTruthful_unregistered (hnew : srv.findClient fd = none) (cmsid : String)
    (seq size : Int) (resv : String) (pids : List String) :
    ¬ LoginTruthful fd cmsid env srv [(fd, .respLogin seq 0 size resv pids)] := by
  rintro ⟨seq', result, size', resv', pids', he, hiff, -⟩
  cases he
  exact not_registered hnew cmsid (hiff.mp rfl)

-- The answer to a login is sent and tells the truth exactly if the account is already logged
-- in, or `check_login` refuses it, or the pool has a connection for the camera rows and all
-- copies stay inside their buffers.
theorem login_truthful_iff (srv : TcpServer) (fd seq : Int) (buf : Bytes) (env : LoginEnv)
    (hnew : srv.findClient fd = none) (hsent : env.sent = true) :
    (∃ after out, srv.handleLoginExDb fd seq buf env = some (after, out) ∧
      LoginTruthful fd (ReqLogin.decode buf).cmsid env after out) ↔
    (srv.getClient (ReqLogin.decode buf).cmsid).isSome ∨ env.checkLogin (ReqLogin.decode buf) ≠ 0 ∨
      (env.cam ≠ .noConnection ∧ env.fits (ReqLogin.decode buf)) := by
  unfold TcpServer.handleLoginExDb
  dsimp only
  by_cases hreg : (srv.getClient (ReqLogin.decode buf).cmsid).isSome
  · -- the account is logged in: code 4
    refine iff_of_true ?_ (.inl hreg)
    rw [if_neg (by simp [Option.isNone_iff_eq_none, Option.isSome_iff_ne_none.mp hreg])]
    refine ⟨srv, _, ?_, loginTruthful_refused hnew _ seq 0 "" [] (by decide : (4 : Int) ≠ 0)⟩
    simp [handleLoginEx, loginCheck, hreg, LoginEnv.frameEnv, hsent]
  · by_cases hcheck : env.checkLogin (ReqLogin.decode buf) = 0
    · by_cases hfits : env.fits (ReqLogin.decode buf) = true
      · rw [if_neg (by simp [hfits])]
        by_cases hcam : env.cam = .noConnection
        · -- success is answered, and nobody is registered
          refine iff_of_false ?_ (by simp [hreg, hcheck, hcam])
          rintro ⟨after, out, he, htrue⟩
          simp [handleLoginEx, loginCheck, hreg, LoginEnv.frameEnv, hsent, hcheck,
            getGroupInfoEx_eq_none.mpr hcam] at he
          obtain ⟨rfl, rfl⟩ := he
          exact not_loginTruthful_unregistered hnew _ seq _ _ _ htrue
        · refine iff_of_true ?_ (.inr (.inr ⟨hcam, hfits⟩))
          obtain ⟨rows, hrows⟩ := Option.ne_none_iff_exists'.mp
            fun hn => hcam (getGroupInfoEx_eq_none.mp hn)
          have hcameras : env.cameras = rows := by simp [LoginEnv.cameras, hrows]
          refine ⟨_, _, ?_, loginTruthful_added hnew _ seq (env.strkid (ReqLogin.decode buf))
            (rows.map (·.pid)) env.tick⟩
          simp [handleLoginEx, loginCheck, hreg, LoginEnv.frameEnv, hsent, hcheck, hrows, hcameras]
      · refine iff_of_false ?_ (by simp [hreg, hcheck, hfits])
        rw [if_pos (by simp [hcheck, hfits, Option.isSome_iff_ne_none.not_left.mp hreg])]
        rintro ⟨after, out, he, -⟩
        cases he
    · -- `check_login` refuses, and its code is the answer
      refine iff_of_true ?_ (.inr (.inl hcheck))
      rw [if_neg (by simp [hcheck])]
      refine ⟨srv, _, ?_, loginTruthful_refused hnew _ seq 0 "" [] hcheck⟩
      simp [handleLoginEx, loginCheck, hreg, LoginEnv.frameEnv, hsent, hcheck]

-- The row of an account with this password, and the row of an all-day camera.
def accountRow (password : String) : Row := fun i => if i = 1 ∨ i = 5 then some password else none

def allDayRow (pid : String) : Row := fun i => if i = 4 then some "1" else some pid

-- A login that finds its account, with the outcome of the camera query.
def loginEnv (password : String) (cam : QueryResult) : LoginEnv :=
  { tick := 0, ada := .rows [accountRow password], cam, sent := true }

theorem login_truthful_with_camera :
    ∃ after out, (⟨[]⟩ : TcpServer).handleLoginExDb 7 1 (ReqLogin.encode ⟨"A", "k"⟩)
        (loginEnv "k" (.rows [allDayRow "d"])) = some (after, out) ∧
      LoginTruthful 7 "A" (loginEnv "k" (.rows [allDayRow "d"])) after out := by
  have hid : (ReqLogin.decode (ReqLogin.encode ⟨"A", "k"⟩)).cmsid = "A" := by decide +kernel
  have htrue := (login_truthful_iff ⟨[]⟩ 7 1 (ReqLogin.encode ⟨"A", "k"⟩)
    (loginEnv "k" (.rows [allDayRow "d"])) rfl rfl).mpr
    (.inr (.inr ⟨by simp [loginEnv], by decide +kernel⟩))
  rwa [hid] at htrue

-- The pool runs out of connections between the two queries: the answer is success, and the
-- connection stays unregistered.
theorem login_not_truthful :
    ¬ ∀ srv fd seq buf env after out, TcpServer.findClient srv fd = none → env.sent = true →
      srv.handleLoginExDb fd seq buf env = some (after, out) →
      LoginTruthful fd (ReqLogin.decode buf).cmsid env after out := by
  intro hall
  have hrun : (⟨[]⟩ : TcpServer).handleLoginExDb 7 1 (ReqLogin.encode ⟨"A", "k"⟩)
      (loginEnv "k" .noConnection) = some (⟨[]⟩, [(7, .respLogin 1 0 0 "k" [])]) := by
    have hgap : ¬ (((⟨[]⟩ : TcpServer).getClient
        (ReqLogin.decode (ReqLogin.encode ⟨"A", "k"⟩)).cmsid).isNone ∧
        (loginEnv "k" .noConnection).checkLogin (ReqLogin.decode (ReqLogin.encode ⟨"A", "k"⟩)) = 0 ∧
        ¬ (loginEnv "k" .noConnection).fits (ReqLogin.decode (ReqLogin.encode ⟨"A", "k"⟩))) := by
      decide +kernel
    have hcheck : (loginEnv "k" .noConnection).checkLogin
        (ReqLogin.decode (ReqLogin.encode ⟨"A", "k"⟩)) = 0 := by decide +kernel
    have hkid : (loginEnv "k" .noConnection).strkid
        (ReqLogin.decode (ReqLogin.encode ⟨"A", "k"⟩)) = "k" := by decide +kernel
    unfold TcpServer.handleLoginExDb
    dsimp only
    rw [if_neg hgap]
    simp only [handleLoginEx, loginCheck, LoginEnv.frameEnv, hcheck, hkid]
    rfl
  exact not_loginTruthful_unregistered rfl _ 1 0 "k" [] (hall _ 7 1 _ _ _ _ rfl rfl hrun)

end VideoAdapter.Adapter
