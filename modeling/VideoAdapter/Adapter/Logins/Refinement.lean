import VideoAdapter.Adapter.Logins

namespace VideoAdapter.Adapter

open Lib

-- A call that runs to its end while the others wait, in a world that contributes the same to
-- all its steps: six steps are enough.
def Logins.runCall (i : Nat) (env : LoginEnv) : Nat → Logins → Option (Logins × List Sent)
  | 0, m => some (m, [])
  | fuel + 1, m =>
      match m.calls[i]? with
      | none => none
      | some call =>
          match call.pc with
          | .done => some (m, [])
          | _ => (m.advance i call env).bind fun moved =>
              (runCall i env fuel moved.1).map fun rest => (rest.1, moved.2.frames ++ rest.2)

-- What a sequential reader sees of the result.
def Logins.view (result : Option (Logins × List Sent)) : Option (TcpServer × List Sent) :=
  result.map fun r => (r.1.server, r.2)

variable {m after : Logins} {call : LoginCall} {i fuel : Nat} {env : LoginEnv} {out : LoginOut}
  {pc : LoginPc}

@[simp] theorem server_goto (m : Logins) (i : Nat) (pc : LoginPc) :
    (m.goto i pc).server = m.server := rfl

theorem server_delClient (m : Logins) (fd : Int) :
    (m.delClient fd).server = m.server.delClient fd := by
  refine congrArg TcpServer.mk ?_
  exact map_updateFirst (fun p : Nat × CMSClient => p.2) (fun p => decide (p.fd = fd))
    (fun _ => none) (fun _ => rfl) (fun _ => rfl) m.clients

theorem call_goto (hc : m.calls[i]? = some call) (pc : LoginPc) :
    (m.goto i pc).calls[i]? = some { call with pc } := by
  simp [Logins.goto, hc]

theorem runCall_done (hc : m.calls[i]? = some call) (hpc : call.pc = .done) :
    Logins.runCall i env fuel m = some (m, []) := by
  cases fuel with
  | zero => rfl
  | succ fuel =>
      unfold Logins.runCall
      simp only [hc, hpc]

theorem runCall_step (hc : m.calls[i]? = some call) (hpc : call.pc ≠ .done) :
    Logins.runCall i env (fuel + 1) m = (m.advance i call env).bind fun moved =>
      (Logins.runCall i env fuel moved.1).map fun rest => (rest.1, moved.2.frames ++ rest.2) := by
  conv_lhs => unfold Logins.runCall
  rw [hc]
  dsimp only
  split
  · rename_i hdone
    exact absurd hdone hpc
  · rfl

-- A step that sends nothing.
theorem runCall_silent (hc : m.calls[i]? = some call) (hpc : call.pc ≠ .done)
    (hs : m.advance i call env = some (after, out)) (hout : out.frames = []) :
    Logins.runCall i env (fuel + 1) m = Logins.runCall i env fuel after := by
  rw [runCall_step hc hpc, hs, Option.bind_some, hout]
  cases Logins.runCall i env fuel after <;> rfl

-- The answer, at the end of every call.
def answer (srv : TcpServer) (fd seq ret : Int) (kid : String) (rows : List TBDeviceEx)
    (sent : Bool) : Option (TcpServer × List Sent) :=
  if ret = 0 ∧ ¬ kidFits kid then none
  else if sent then
    some (srv, [(fd, .respLogin seq ret rows.length (if ret = 0 then kid else "") (rows.map (·.pid)))])
  else some (srv.delClient fd, [])

theorem view_send {ret : Int} {kid : String} {rows : List TBDeviceEx}
    (hc : m.calls[i]? = some call) (hpc : call.pc = .send ret kid rows) (fuel : Nat)
    (env : LoginEnv) :
    Logins.view (Logins.runCall i env (fuel + 1) m) =
      answer m.server call.fd call.seq ret kid rows env.sent := by
  rw [runCall_step hc (by simp [hpc])]
  unfold Logins.advance answer
  simp only [hpc]
  split
  · rfl
  · split
    · rw [Option.bind_some, runCall_done (call_goto hc .done) rfl]
      rfl
    · have hdone : ((m.delClient call.fd).goto i .done).calls[i]? = some { call with pc := .done } :=
        call_goto hc .done
      rw [Option.bind_some, runCall_done hdone rfl, ← server_delClient]
      rfl

theorem handleLoginEx_answer (srv : TcpServer) (fd seq : Int) (buf : Bytes) (env : LoginEnv)
    (ret : Int) (kid : String) (rows : List TBDeviceEx) (added : TcpServer)
    (hcheck : loginCheck srv fd (ReqLogin.decode buf).cmsid (env.frameEnv (ReqLogin.decode buf)) =
      (ret, added, rows)) (hkid : ret = 0 → env.strkid (ReqLogin.decode buf) = kid)
    (hfit : ret = 0 → kidFits kid = true) :
    some (handleLoginEx srv fd seq buf (env.frameEnv (ReqLogin.decode buf))) =
      answer added fd seq ret kid rows env.sent := by
  unfold handleLoginEx answer
  rw [hcheck, if_neg (fun h => h.2 (hfit h.1))]
  by_cases hret : ret = 0
  · simp only [hret, if_true, LoginEnv.frameEnv, hkid hret]
    split <;> rfl
  · simp only [hret, if_false, LoginEnv.frameEnv]
    split <;> rfl

-- The cameras of a new client are written through its pointer, which no other client has.
theorem addCameras_added {added : Logins} (hfresh : ∀ p ∈ m.clients, p.1 < m.next)
    (client : CMSClient) (hadded : added.clients = m.clients ++ [(m.next, client)])
    (rows : List TBDeviceEx) (hempty : client.devlist = ∅) :
    ∃ loaded, added.addCameras m.next rows = some loaded ∧ loaded.calls = added.calls ∧
      loaded.server = m.server.addClient { client with devlist := loadRows rows } := by
  unfold Logins.addCameras
  by_cases hrows : rows = []
  · subst hrows
    refine ⟨added, if_pos rfl, rfl, ?_⟩
    simp only [Logins.server, hadded, TcpServer.addClient, List.map_append, loadRows,
      List.foldl_nil, ← hempty]
    rfl
  · have hno : m.clients.find? (fun p => decide (p.1 = m.next)) = none := by
      refine List.find?_eq_none.mpr fun p hp => ?_
      simpa using Nat.ne_of_lt (hfresh p hp)
    have hany : added.clients.any (fun p => decide (p.1 = m.next)) = true := by
      simp [hadded]
    rw [if_neg hrows, if_pos hany]
    refine ⟨_, rfl, rfl, ?_⟩
    simp only [Logins.server, hadded, updateFirst_append_of_none hno]
    simp [updateFirst, TcpServer.addClient, loadRows, loadCameras, hempty]

theorem view_insert (hfresh : ∀ p ∈ m.clients, p.1 < m.next) {kid : String}
    {rows : List TBDeviceEx} (hc : m.calls[i]? = some call) (hpc : call.pc = .insert kid rows)
    (fuel : Nat) (env : LoginEnv) :
    Logins.view (Logins.runCall i env (fuel + 3) m) =
      if idsFit rows then
        answer (m.server.addClient (call.client env.tick (loadRows rows))) call.fd call.seq 0 kid
          rows env.sent
      else none := by
  have hinsert : m.advance i call env = some ((m.addClient (call.client env.tick ∅)).goto i
      (.load kid rows m.next), { inserted := some (m.next, call.req.cmsid) }) := by
    simp only [Logins.advance, hpc, LoginCall.client]
  have hc1 : ((m.addClient (call.client env.tick ∅)).goto i (.load kid rows m.next)).calls[i]? =
      some { call with pc := .load kid rows m.next } := call_goto hc _
  rw [runCall_silent hc (by simp [hpc]) hinsert rfl, runCall_step hc1 (by simp)]
  have hadded : ((m.addClient (call.client env.tick ∅)).goto i (.load kid rows m.next)).clients =
      m.clients ++ [(m.next, call.client env.tick ∅)] := rfl
  obtain ⟨loaded, hload, hcalls, hserver⟩ := addCameras_added hfresh _ hadded rows rfl
  simp only [Logins.advance]
  split
  · rw [hload, Option.map_some, Option.bind_some]
    have hcl : loaded.calls[i]? = some { call with pc := .load kid rows m.next } := by
      rw [hcalls]
      exact hc1
    have hview := view_send (call_goto hcl (.send 0 kid rows)) rfl fuel env
    rw [server_goto, hserver] at hview
    rw [← show _ = answer (m.server.addClient (call.client env.tick (loadRows rows))) call.fd
      call.seq 0 kid rows env.sent from hview]
    simp [Logins.view]
  · rfl

-- The end of a call whose account has passed the check.
def LoginCall.finish (call : LoginCall) (srv : TcpServer) (kid : String) (env : LoginEnv) :
    Option (TcpServer × List Sent) :=
  if DBHelper.overruns env.cam then none
  else match DBHelper.getGroupInfoEx env.cam with
    | none => answer srv call.fd call.seq 0 kid [] env.sent
    | some rows =>
        if idsFit rows then
          answer (srv.addClient (call.client env.tick (loadRows rows))) call.fd call.seq 0 kid rows
            env.sent
        else none

theorem view_cameras (hfresh : ∀ p ∈ m.clients, p.1 < m.next) {kid : String}
    (hc : m.calls[i]? = some call) (hpc : call.pc = .cameras kid) (fuel : Nat) (env : LoginEnv) :
    Logins.view (Logins.runCall i env (fuel + 4) m) = call.finish m.server kid env := by
  unfold LoginCall.finish
  by_cases hover : DBHelper.overruns env.cam = true
  · rw [runCall_step hc (by simp [hpc]), if_pos hover]
    simp [Logins.advance, hpc, hover, Logins.view]
  · rw [if_neg hover]
    cases hrows : DBHelper.getGroupInfoEx env.cam with
    | none =>
        have hs : m.advance i call env = some (m.goto i (.send 0 kid []), {}) := by
          simp [Logins.advance, hpc, hover, hrows]
        rw [runCall_silent hc (by simp [hpc]) hs rfl, view_send (call_goto hc _) rfl, server_goto]
    | some rows =>
        have hs : m.advance i call env = some (m.goto i (.insert kid rows), {}) := by
          simp [Logins.advance, hpc, hover, hrows]
        rw [runCall_silent hc (by simp [hpc]) hs rfl]
        exact view_insert (m := m.goto i (.insert kid rows)) hfresh (call_goto hc _) rfl fuel env

-- A login that has passed the check, where only the `kid` may be too long.
theorem handleLoginExDb_fits {srv added : TcpServer} {fd seq : Int} {buf : Bytes} {env : LoginEnv}
    {rows : List TBDeviceEx} (hnone : srv.getClient (ReqLogin.decode buf).cmsid = none)
    (hret : env.checkLogin (ReqLogin.decode buf) = 0)
    (hfits : env.fits (ReqLogin.decode buf) = true ↔
      kidFits (env.strkid (ReqLogin.decode buf)) = true)
    (hcheck : loginCheck srv fd (ReqLogin.decode buf).cmsid (env.frameEnv (ReqLogin.decode buf)) =
      (0, added, rows)) :
    (if (srv.getClient (ReqLogin.decode buf).cmsid).isNone ∧
        env.checkLogin (ReqLogin.decode buf) = 0 ∧ ¬ env.fits (ReqLogin.decode buf) then none
      else some (handleLoginEx srv fd seq buf (env.frameEnv (ReqLogin.decode buf)))) =
      answer added fd seq 0 (env.strkid (ReqLogin.decode buf)) rows env.sent := by
  by_cases hkid : kidFits (env.strkid (ReqLogin.decode buf)) = true
  · rw [if_neg (fun h => h.2.2 (hfits.mpr hkid))]
    exact handleLoginEx_answer srv fd seq buf env 0 _ rows added hcheck (fun _ => rfl) fun _ => hkid
  · rw [if_pos ⟨by simp [hnone], hret, fun h => hkid (hfits.mp h)⟩]
    exact (if_pos ⟨rfl, hkid⟩).symm

-- With the queries at hand, `HandleLoginEx` in the order in which a call makes its steps.
theorem handleLoginExDb_eq (srv : TcpServer) (fd seq : Int) (buf : Bytes) (env : LoginEnv) :
    srv.handleLoginExDb fd seq buf env =
      if (srv.getClient (ReqLogin.decode buf).cmsid).isSome then answer srv fd seq 4 "" [] env.sent
      else if env.checkLogin (ReqLogin.decode buf) = 0 then
        LoginCall.finish ⟨fd, seq, ReqLogin.decode buf, .lookup⟩ srv
          (env.strkid (ReqLogin.decode buf)) env
      else answer srv fd seq (env.checkLogin (ReqLogin.decode buf)) "" [] env.sent := by
  unfold TcpServer.handleLoginExDb
  dsimp only
  by_cases hreg : (srv.getClient (ReqLogin.decode buf).cmsid).isSome
  · rw [if_neg (by simp [Option.isSome_iff_ne_none.mp hreg]), if_pos hreg]
    refine handleLoginEx_answer srv fd seq buf env 4 "" [] srv ?_ ?_ ?_
    · simp only [loginCheck, hreg, if_true]
    · exact fun h => absurd h (by decide)
    · exact fun h => absurd h (by decide)
  · have hnone : srv.getClient (ReqLogin.decode buf).cmsid = none := by simpa using hreg
    rw [if_neg hreg]
    by_cases hret : env.checkLogin (ReqLogin.decode buf) = 0
    · rw [if_pos hret]
      unfold LoginCall.finish
      by_cases hover : DBHelper.overruns env.cam = true
      · rw [if_pos ⟨by simp [hnone], hret, by simp [LoginEnv.fits, hover]⟩, if_pos hover]
      · rw [if_neg hover]
        have hfits : env.fits (ReqLogin.decode buf) = true ↔
            idsFit env.cameras = true ∧ kidFits (env.strkid (ReqLogin.decode buf)) = true := by
          simp [LoginEnv.fits, hover]
        cases hrows : DBHelper.getGroupInfoEx env.cam with
        | none =>
            have hids : idsFit env.cameras = true := by simp [LoginEnv.cameras, hrows, idsFit]
            refine handleLoginExDb_fits hnone hret (hfits.trans (and_iff_right hids)) ?_
            simp [loginCheck, hnone, LoginEnv.frameEnv, hret, hrows]
        | some rows =>
            have hcameras : env.cameras = rows := by simp [LoginEnv.cameras, hrows]
            rw [hcameras] at hfits
            dsimp only
            by_cases hids : idsFit rows = true
            · rw [if_pos hids]
              refine handleLoginExDb_fits hnone hret (hfits.trans (and_iff_right hids)) ?_
              simp [loginCheck, hnone, LoginEnv.frameEnv, hret, hrows, LoginCall.client]
            · rw [if_neg hids, if_pos ⟨by simp [hnone], hret, fun h => hids (hfits.mp h).1⟩]
    · rw [if_neg (by simp [hret]), if_neg hret]
      refine handleLoginEx_answer srv fd seq buf env _ "" [] srv ?_ ?_ ?_
      · simp [loginCheck, hreg, LoginEnv.frameEnv, hret]
      · exact fun h => absurd h hret
      · exact fun h => absurd h hret

-- A call that runs alone does to the list, and answers, what `HandleLoginEx` does.
theorem runCall_eq_handleLoginEx (hfresh : ∀ p ∈ m.clients, p.1 < m.next) {fd seq : Int}
    {buf : Bytes} (hc : m.calls[i]? = some ⟨fd, seq, ReqLogin.decode buf, .lookup⟩)
    (env : LoginEnv) :
    Logins.view (Logins.runCall i env 6 m) = m.server.handleLoginExDb fd seq buf env := by
  rw [handleLoginExDb_eq]
  by_cases hreg : (m.server.getClient (ReqLogin.decode buf).cmsid).isSome
  · have hlook : m.advance i ⟨fd, seq, ReqLogin.decode buf, .lookup⟩ env =
        some (m.goto i (.send 4 "" []), { lookedUp := some i }) := by
      simp only [Logins.advance, hreg, if_true]
    rw [if_pos hreg, runCall_silent hc (by simp) hlook rfl, view_send (call_goto hc _) rfl,
      server_goto]
  · have hlook : m.advance i ⟨fd, seq, ReqLogin.decode buf, .lookup⟩ env =
        some (m.goto i .check, { lookedUp := some i }) := by
      simp only [Logins.advance, hreg]
      rfl
    have hc1 := call_goto hc .check
    rw [if_neg hreg, runCall_silent hc (by simp) hlook rfl]
    by_cases hret : env.checkLogin (ReqLogin.decode buf) = 0
    · have hcheck : (m.goto i .check).advance i ⟨fd, seq, ReqLogin.decode buf, .check⟩ env =
          some ((m.goto i .check).goto i (.cameras (env.strkid (ReqLogin.decode buf))), {}) := by
        simp [Logins.advance, LoginEnv.strkid, show (DBHelper.checkLogin _ _).1 = 0 from hret]
      rw [if_pos hret, runCall_silent hc1 (by simp) hcheck rfl]
      have hview := view_cameras (m := (m.goto i .check).goto i _) hfresh
        (call_goto hc1 (.cameras (env.strkid (ReqLogin.decode buf)))) rfl 0 env
      exact hview
    · have hcheck : (m.goto i .check).advance i ⟨fd, seq, ReqLogin.decode buf, .check⟩ env =
          some ((m.goto i .check).goto i (.send (env.checkLogin (ReqLogin.decode buf)) "" []), {}) := by
        simp [Logins.advance, LoginEnv.checkLogin, show ¬ (DBHelper.checkLogin _ _).1 = 0 from hret]
      rw [if_neg hret, runCall_silent hc1 (by simp) hcheck rfl, view_send (call_goto hc1 _) rfl,
        server_goto, server_goto]

end VideoAdapter.Adapter
