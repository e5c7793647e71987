import Mathlib.Data.List.Nodup
import VideoAdapter.Adapter.Login
import VideoAdapter.Lib.Run

namespace VideoAdapter.Adapter

open Lib

-- The adapter server with the descriptors of its open connections.
structure Sessions where
  server : TcpServer
  fds : List Int

-- Everything that reaches the client list: new connections, frames with the outcome of the
-- queries they make, the operations of the adapter server (frames aside), and the pushes and
-- stops that the play manager asks for.
inductive SessionEvent where
  | accept (fd : Int)
  | frame (fd cmd seq : Int) (buf : Bytes) (env : LoginEnv)
  | operation (event : AdapterEvent)
  | startPush (cmsid deviceid : String) (env : StartEnv)
  | stopPush (cmsid deviceid : String) (env : StopEnv)

-- What was sent, and which descriptors were closed.
structure SessionOut where
  frames : List Sent := []
  closed : List Int := []

namespace TcpServer

def fdsOf (client : Option CMSClient) : List Int := client.toList.map (·.fd)

-- The descriptors that `HandlerRead` closes.
def frameCloses (srv : TcpServer) (fd cmd : Int) (buf : Bytes) (sent : Bool) : List Int :=
  match srv.findClient fd with
  | none =>
      if cmd ≠ REQ_LOGIN ∨ buf.length ≠ sizeofReqLogin then [fd] else if sent then [] else [fd]
  | some _ => if cmd = KEEP_ALIVE ∧ sent = false then [fd] else []

-- `DelClient` closes its descriptor even if it has found no client for it.
def operationCloses (srv : TcpServer) : AdapterEvent → List Int
  | .frame .. => []
  | .addCamera cmsid _ _ _ _ _ _ _ _ sent => if sent then [] else fdsOf (srv.getClient cmsid)
  | .delCamera cmsid pid _ sent =>
      if sent then [] else fdsOf ((srv.getClient cmsid).filter fun p => p.devlist[pid]?.isSome)
  | .modifyCamera .. => []
  | .checkState cur outside sent =>
      (srv.clientlist.filter fun p => !(p.checkState (cur p.fd) outside (sent p.fd)).1).map (·.fd)
  | .delClient fd => [fd]
  | .writeoff cmsid => fdsOf (srv.getClient cmsid)

end TcpServer

-- The server after an event, with the descriptors that are still open.
def Sessions.settle (s : Sessions) (closed : List Int) (result : TcpServer × List Sent) :
    Sessions × SessionOut :=
  ({ server := result.1, fds := s.fds.filter (· ∉ closed) }, { frames := result.2, closed })

def sessionStep (s : Sessions) : SessionEvent → Option (Sessions × SessionOut)
  | .accept fd => some ({ s with fds := fd :: s.fds }, {})
  | .frame fd cmd seq buf env =>
      (s.server.handlerReadDb fd cmd seq buf env).map
        (s.settle (s.server.frameCloses fd cmd buf env.sent))
  | .operation (.frame ..) => none
  | .operation event => (adapterStep s.server event).map (s.settle (s.server.operationCloses event))
  | .startPush cmsid deviceid env =>
      let (res, result) := AdapterServer.notifyStartPush s.server cmsid deviceid env
      some (s.settle (if res.lost then TcpServer.fdsOf (s.server.getClient cmsid) else []) result)
  | .stopPush cmsid deviceid env =>
      let (res, result) := AdapterServer.notifyStopPush s.server cmsid deviceid env
      some (s.settle (if res.lost then TcpServer.fdsOf (s.server.getClient cmsid) else []) result)

abbrev SessionHistory := List (SessionEvent × SessionOut)

-- The kernel gives a new connection a descriptor that is not open, and frames come in on
-- open descriptors.
def kernel (_ : SessionHistory) (s : Sessions) : SessionEvent → Prop
  | .accept fd => fd ∉ s.fds
  | .frame fd _ _ _ _ => fd ∈ s.fds
  | _ => True

def noSessions : Sessions := { server := ⟨[]⟩, fds := [] }

-- The client `cmsid` on descriptor `fd` was created by a login frame of the right size that
-- came in on this connection and passed `check_login`, and the connection has been open and
-- the client in the list ever since.
inductive CreatedBy (fd : Int) (cmsid : String) : SessionHistory → Sessions → Prop
  | login {history : SessionHistory} {before after : Sessions} {out : SessionOut} {seq : Int}
      {buf : Bytes} {env : LoginEnv} (run : Run sessionStep kernel noSessions history before)
      (hopen : fd ∈ before.fds) (hnew : before.server.findClient fd = none)
      (hsize : buf.length = sizeofReqLogin) (hid : (ReqLogin.decode buf).cmsid = cmsid)
      (hcheck : env.checkLogin (ReqLogin.decode buf) = 0)
      (hs : sessionStep before (.frame fd REQ_LOGIN seq buf env) = some (after, out))
      (hclosed : fd ∉ out.closed) (hin : after.server.registered fd cmsid) :
      CreatedBy fd cmsid ((.frame fd REQ_LOGIN seq buf env, out) :: history) after
  | kept {history : SessionHistory} {before after : Sessions} {event : SessionEvent}
      {out : SessionOut} (created : CreatedBy fd cmsid history before)
      (hs : sessionStep before event = some (after, out)) (hclosed : fd ∉ out.closed)
      (hin : after.server.registered fd cmsid) : CreatedBy fd cmsid ((event, out) :: history) after

def clientKey (p : CMSClient) : Int × String := (p.fd, p.cmsid)

def FdsDistinct (srv : TcpServer) : Prop := (srv.clientlist.map (·.fd)).Nodup

-- An event that adds no client: those that are left have the ids and descriptors they had,
-- and none of their descriptors was closed.
structure Shrinks (srv after : TcpServer) (closed : List Int) : Prop where
  sublist : (after.clientlist.map clientKey).Sublist (srv.clientlist.map clientKey)
  alive : FdsDistinct srv → ∀ p ∈ after.clientlist, p.fd ∉ closed

variable {srv after : TcpServer} {closed : List Int}

theorem Shrinks.refl (srv : TcpServer) : Shrinks srv srv [] :=
  ⟨.refl _, fun _ _ _ => by simp⟩

-- A descriptor without a client can be closed.
theorem Shrinks.of_unknown {fd : Int} (h : srv.findClient fd = none) : Shrinks srv srv [fd] :=
  ⟨.refl _, fun _ p hp => by simpa using fd_ne_of_findClient h hp⟩

theorem Shrinks.write {test : CMSClient → Bool} {f : CMSClient → CMSClient}
    (hf : ∀ p, clientKey (f p) = clientKey p) :
    Shrinks srv ⟨updateFirst test (fun p => some (f p)) srv.clientlist⟩ [] := by
  refine ⟨map_updateFirst_sublist ?_ _, fun _ _ _ => by simp⟩
  rintro x y ⟨⟩
  exact hf x

theorem fds_sublist (h : (after.clientlist.map clientKey).Sublist (srv.clientlist.map clientKey)) :
    (after.clientlist.map (·.fd)).Sublist (srv.clientlist.map (·.fd)) := by
  have hfst := h.map Prod.fst
  simpa [List.map_map, Function.comp_def, clientKey] using hfst

theorem Shrinks.fdsDistinct (h : Shrinks srv after closed) (hd : FdsDistinct srv) :
    FdsDistinct after := hd.sublist (fds_sublist h.sublist)

-- A write, and then `DelClient`.
theorem Shrinks.trans {mid : TcpServer} (h : Shrinks srv mid []) (h' : Shrinks mid after closed) :
    Shrinks srv after closed :=
  ⟨h'.sublist.trans h.sublist, fun hd => h'.alive (h.fdsDistinct hd)⟩

-- The first client that passes the test is removed, and its descriptor closed.
theorem Shrinks.remove (test : CMSClient → Bool) (srv : TcpServer) :
    Shrinks srv ⟨updateFirst test (fun _ => none) srv.clientlist⟩
      (TcpServer.fdsOf (srv.clientlist.find? test)) := by
  refine ⟨map_updateFirst_sublist (fun _ _ hf => by cases hf) _, fun hd p hp => ?_⟩
  cases hx : srv.clientlist.find? test with
  | none => simp [TcpServer.fdsOf]
  | some x => simpa [TcpServer.fdsOf] using ne_of_mem_updateFirst_none hd hx hp

theorem delClient_shrinks (srv : TcpServer) (fd : Int) : Shrinks srv (srv.delClient fd) [fd] := by
  have hremove := Shrinks.remove (fun p => decide (p.fd = fd)) srv
  refine ⟨hremove.sublist, fun hd p hp => ?_⟩
  cases hx : srv.clientlist.find? fun p => decide (p.fd = fd) with
  | none =>
      have hsame : srv.delClient fd = srv := by
        unfold TcpServer.delClient
        rw [updateFirst_eq_self hx]
      rw [hsame] at hp
      simpa using fd_ne_of_findClient hx hp
  | some x =>
      have hxfd : x.fd = fd := by simpa using List.find?_some hx
      have hne := hremove.alive hd p hp
      simpa [TcpServer.fdsOf, hx, hxfd] using hne

theorem delClientById_shrinks (srv : TcpServer) (cmsid : String) :
    Shrinks srv (srv.delClientById cmsid) (TcpServer.fdsOf (srv.getClient cmsid)) :=
  .remove _ srv

theorem notifyChange_shrinks (srv : TcpServer) (p : CMSClient) (devlist : DevList) (type : Int)
    (pid : String) (draws : Nat → Nat) (sent : Bool) :
    Shrinks srv (srv.notifyChange p devlist type pid draws sent).1 (if sent then [] else [p.fd]) := by
  have hset : Shrinks srv (srv.setDevlist p.cmsid devlist) [] := .write fun _ => rfl
  unfold TcpServer.notifyChange
  cases sent with
  | true => exact hset
  | false => exact hset.trans (delClient_shrinks _ _)

theorem afterNotify_shrinks (srv : TcpServer) (p : CMSClient)
    (out : NotifyResult × DevList × List Outgoing) :
    Shrinks srv (AdapterServer.afterNotify srv p out).2.1 (if out.1.lost then [p.fd] else []) := by
  unfold AdapterServer.afterNotify
  dsimp only
  split
  · exact delClient_shrinks srv p.fd
  · exact .write fun _ => rfl

theorem notifyStartPush_shrinks (srv : TcpServer) (cmsid deviceid : String) (env : StartEnv) :
    Shrinks srv (AdapterServer.notifyStartPush srv cmsid deviceid env).2.1
      (if (AdapterServer.notifyStartPush srv cmsid deviceid env).1.lost then
        TcpServer.fdsOf (srv.getClient cmsid) else []) := by
  unfold AdapterServer.notifyStartPush
  by_cases hname : cmsid = "" ∨ deviceid = ""
  · rw [if_pos hname]
    exact .refl srv
  · rw [if_neg hname]
    by_cases hdb : env.db ≠ 0
    · rw [if_pos hdb]
      exact .refl srv
    · rw [if_neg hdb]
      cases hc : srv.getClient cmsid with
      | none => exact .refl srv
      | some p => exact afterNotify_shrinks srv p _

theorem notifyStopPush_shrinks (srv : TcpServer) (cmsid deviceid : String) (env : StopEnv) :
    Shrinks srv (AdapterServer.notifyStopPush srv cmsid deviceid env).2.1
      (if (AdapterServer.notifyStopPush srv cmsid deviceid env).1.lost then
        TcpServer.fdsOf (srv.getClient cmsid) else []) := by
  unfold AdapterServer.notifyStopPush
  by_cases hname : cmsid = "" ∨ deviceid = ""
  · rw [if_pos hname]
    exact .refl srv
  · rw [if_neg hname]
    cases hc : srv.getClient cmsid with
    | none => exact .refl srv
    | some p => exact afterNotify_shrinks srv p _

theorem checkState_key (p : CMSClient) (cur : UInt64) (outside : DeviceNode → Bool) (sent : Bool) :
    clientKey (p.checkState cur outside sent).2.1 = clientKey p := by
  unfold CMSClient.checkState
  split
  · rfl
  · dsimp only
    split_ifs <;> rfl

-- A pass that keeps some of the clients, changed but for their keys.
theorem filterMap_key_sublist (keep : CMSClient → Bool) (f : CMSClient → CMSClient)
    (hf : ∀ p, clientKey (f p) = clientKey p) (l : List CMSClient) :
    ((l.filterMap fun p => if keep p then some (f p) else none).map clientKey).Sublist
      (l.map clientKey) := by
  induction l with
  | nil => exact .slnil
  | cons p rest ih =>
      by_cases hk : keep p = true
      · simpa [hk, hf] using ih
      · simpa [hk] using ih.cons _

theorem checkStates_shrinks (srv : TcpServer) (cur : Int → UInt64) (outside : DeviceNode → Bool)
    (sent : Int → Bool) :
    Shrinks srv (srv.checkStates cur outside sent).1
      (srv.operationCloses (.checkState cur outside sent)) := by
  have hlist : (srv.checkStates cur outside sent).1.clientlist = srv.clientlist.filterMap fun p =>
      if (p.checkState (cur p.fd) outside (sent p.fd)).1 then
        some (p.checkState (cur p.fd) outside (sent p.fd)).2.1 else none := by
    unfold TcpServer.checkStates
    simp only [List.filterMap_map, Function.comp_def]
  refine ⟨?_, fun hd p hp hclosed => ?_⟩
  · rw [hlist]
    exact filterMap_key_sublist (fun p => (p.checkState (cur p.fd) outside (sent p.fd)).1) _
      (fun p => checkState_key ..) _
  · rw [hlist] at hp
    obtain ⟨old, ho, he⟩ := List.mem_filterMap.mp hp
    split at he
    · rename_i hkept
      cases he
      obtain ⟨gone, hg, hfd⟩ := List.mem_map.mp hclosed
      obtain ⟨hgm, hgone⟩ := List.mem_filter.mp hg
      have hkey := congrArg Prod.fst (checkState_key old (cur old.fd) outside (sent old.fd))
      have hsame : gone = old := List.inj_on_of_nodup_map hd hgm ho (hfd.trans hkey)
      subst hsame
      simp [hkept] at hgone
    · cases he

-- The operations of the adapter server add no client.
theorem adapterStep_shrinks {event : AdapterEvent} {frames : List Sent}
    (hframe : ∀ fd cmd seq buf env, event ≠ .frame fd cmd seq buf env)
    (h : adapterStep srv event = some (after, frames)) :
    Shrinks srv after (srv.operationCloses event) := by
  cases event with
  | frame fd cmd seq buf env => exact absurd rfl (hframe fd cmd seq buf env)
  | addCamera cmsid pid name allday s0 e0 s1 e1 draws sent =>
      simp only [adapterStep] at h
      split at h
      · rename_i hc
        cases h
        cases sent <;> simpa [TcpServer.operationCloses, hc, TcpServer.fdsOf] using Shrinks.refl _
      · rename_i p hc
        obtain rfl := congrArg Prod.fst (Option.some.inj h)
        simpa [TcpServer.operationCloses, hc, TcpServer.fdsOf] using notifyChange_shrinks srv p
          (addCamera p.devlist pid name allday s0 e0 s1 e1) 1 pid draws sent
  | delCamera cmsid pid draws sent =>
      simp only [adapterStep] at h
      split at h
      · rename_i hc
        cases h
        cases sent <;> simpa [TcpServer.operationCloses, hc, TcpServer.fdsOf] using Shrinks.refl _
      · rename_i p hc
        split at h
        · rename_i hn
          have hm : pid ∉ p.devlist := by simpa using hn
          cases h
          cases sent <;> simpa [TcpServer.operationCloses, hc, TcpServer.fdsOf, Option.filter, hm]
            using Shrinks.refl _
        · rename_i hn
          have hm : pid ∈ p.devlist := by simpa using hn
          obtain rfl := congrArg Prod.fst (Option.some.inj h)
          simpa [TcpServer.operationCloses, hc, TcpServer.fdsOf, Option.filter, hm]
            using notifyChange_shrinks srv p (delCamera p.devlist pid) 0 pid draws sent
  | modifyCamera cmsid pid allday s0 e0 s1 e1 =>
      simp only [adapterStep] at h
      split at h
      · cases h
        exact .refl _
      · cases h
        exact .write fun _ => rfl
  | checkState cur outside sent =>
      obtain rfl := congrArg Prod.fst (Option.some.inj h)
      exact checkStates_shrinks srv cur outside sent
  | delClient fd =>
      cases h
      exact delClient_shrinks srv fd
  | writeoff cmsid =>
      cases h
      exact delClientById_shrinks srv cmsid

-- A frame of a known client writes to that client, or drops it.
theorem known_frame_shrinks {fd cmd seq : Int} {buf : Bytes} {env : LoginEnv} {frames : List Sent}
    {p : CMSClient} (hp : srv.findClient fd = some p)
    (h : srv.handlerReadDb fd cmd seq buf env = some (after, frames)) :
    Shrinks srv after (srv.frameCloses fd cmd buf env.sent) := by
  simp only [TcpServer.frameCloses, hp]
  cases handlerRead_move (handlerReadDb_eq h) with
  | refused hnew hother =>
      rw [hp] at hnew
      cases hnew
  | login hnew hcmd hsize hlogin =>
      rw [hp] at hnew
      cases hnew
  | keepAlive hclient hcmd halive =>
      obtain rfl := congrArg Prod.fst halive
      have hwrite : Shrinks srv (srv.onClient fd fun p => { p with livecount := env.tick }) [] :=
        .write fun _ => rfl
      cases hsent : env.sent with
      | true => simpa [updateLivecount, LoginEnv.frameEnv, hsent] using hwrite
      | false =>
          simpa [updateLivecount, LoginEnv.frameEnv, hsent, hcmd] using
            hwrite.trans (delClient_shrinks _ fd)
  | updateChange hclient hcmd hchange =>
      have halive : cmd ≠ KEEP_ALIVE := by
        rw [hcmd]
        decide
      rw [if_neg fun hk => halive hk.1]
      exact .write fun _ => rfl
  | message hclient halive hchange =>
      rw [if_neg fun hk => halive hk.1]
      refine .write fun p => ?_
      unfold CMSClient.insertMsg
      split <;> rfl

-- A login leaves the server as it is, or has passed the check and appends its client.
theorem loginCheck_cases (srv : TcpServer) (fd : Int) (cmsid : String) (env : FrameEnv) :
    (loginCheck srv fd cmsid env).2.1 = srv ∨
      ∃ client : CMSClient, (loginCheck srv fd cmsid env).2.1 = srv.addClient client ∧
        client.fd = fd ∧ client.cmsid = cmsid ∧ env.checkLogin = 0 ∧ client.msglist = [] := by
  unfold loginCheck
  split
  · exact .inl rfl
  · split
    · exact .inl rfl
    · rename_i hcheck
      split
      · exact .inl rfl
      · exact .inr ⟨_, rfl, rfl, rfl, not_not.mp hcheck, rfl⟩

theorem handleLoginEx_server (srv : TcpServer) (fd seq : Int) (buf : Bytes) (env : FrameEnv) :
    (handleLoginEx srv fd seq buf env).1 =
      if env.sent then (loginCheck srv fd (ReqLogin.decode buf).cmsid env).2.1
      else (loginCheck srv fd (ReqLogin.decode buf).cmsid env).2.1.delClient fd := by
  unfold handleLoginEx
  dsimp only
  split <;> rfl

theorem delClient_addClient {fd : Int} {client : CMSClient} (hnew : srv.findClient fd = none)
    (hfd : client.fd = fd) : (srv.addClient client).delClient fd = srv := by
  unfold TcpServer.delClient TcpServer.addClient
  rw [updateFirst_append_of_none hnew]
  simp [updateFirst, hfd]

-- A frame on a descriptor without a client changes no client: it leaves the list as it is,
-- or is a login that passes the check and appends its own client.
theorem unknown_frame_cases {fd cmd seq : Int} {buf : Bytes} {env : LoginEnv} {frames : List Sent}
    (hnew : srv.findClient fd = none)
    (h : srv.handlerReadDb fd cmd seq buf env = some (after, frames)) :
    after = srv ∨ ∃ client : CMSClient, after = srv.addClient client ∧ client.fd = fd ∧
      client.cmsid = (ReqLogin.decode buf).cmsid ∧ cmd = REQ_LOGIN ∧ buf.length = sizeofReqLogin ∧
      env.checkLogin (ReqLogin.decode buf) = 0 ∧ env.sent = true ∧ client.msglist = [] := by
  have hknown : ∀ {p : CMSClient}, srv.findClient fd ≠ some p := by
    intro p hp
    rw [hnew] at hp
    cases hp
  cases handlerRead_move (handlerReadDb_eq h) with
  | refused _ hother => exact .inl rfl
  | login _ hcmd hsize hlogin =>
      have hafter := congrArg Prod.fst hlogin
      rw [handleLoginEx_server] at hafter
      rcases loginCheck_cases srv fd (ReqLogin.decode buf).cmsid (env.frameEnv (ReqLogin.decode buf))
        with hsame | ⟨client, hadd, hfd, hid, hcheck, hempty⟩
      · refine .inl ?_
        rw [hsame] at hafter
        split at hafter
        · exact hafter.symm
        · refine hafter.symm.trans ?_
          unfold TcpServer.delClient
          rw [updateFirst_eq_self hnew]
      · rw [hadd] at hafter
        split at hafter
        · rename_i hsent
          exact .inr ⟨client, hafter.symm, hfd, hid, hcmd, hsize, hcheck, hsent, hempty⟩
        · rw [delClient_addClient hnew hfd] at hafter
          exact .inl hafter.symm
  | keepAlive hclient hcmd halive => exact absurd hclient hknown
  | updateChange hclient hcmd hchange => exact absurd hclient hknown
  | message hclient halive hchange => exact absurd hclient hknown

-- What holds of the list along a run: descriptors are distinct, and every client has an open
-- connection and was created on it.
structure SessionsSound (history : SessionHistory) (s : Sessions) : Prop where
  run : Run sessionStep kernel noSessions history s
  distinct : FdsDistinct s.server
  created : ∀ p ∈ s.server.clientlist, p.fd ∈ s.fds ∧ CreatedBy p.fd p.cmsid history s

variable {history : SessionHistory} {s last : Sessions} {event : SessionEvent} {out : SessionOut}

-- An event that adds no client.
theorem SessionsSound.shrink (h : SessionsSound history s) (hguard : kernel history s event)
    (hs : sessionStep s event = some (last, out)) (hshrink : Shrinks s.server last.server out.closed)
    (hfds : ∀ fd ∈ s.fds, fd ∉ out.closed → fd ∈ last.fds) :
    SessionsSound ((event, out) :: history) last := by
  refine ⟨h.run.next hguard hs, hshrink.fdsDistinct h.distinct, fun p hp => ?_⟩
  have hkey : clientKey p ∈ s.server.clientlist.map clientKey :=
    hshrink.sublist.subset (List.mem_map_of_mem hp)
  obtain ⟨old, ho, he⟩ := List.mem_map.mp hkey
  have hfd : old.fd = p.fd := congrArg Prod.fst he
  have hid : old.cmsid = p.cmsid := congrArg Prod.snd he
  obtain ⟨hopen, hcreated⟩ := h.created old ho
  rw [hfd] at hopen hcreated
  rw [hid] at hcreated
  have halive := hshrink.alive h.distinct p hp
  exact ⟨hfds p.fd hopen halive, .kept hcreated hs halive ⟨p, hp, rfl, rfl⟩⟩

theorem settle_fds (s : Sessions) (closed : List Int) (result : TcpServer × List Sent) (fd : Int)
    (hopen : fd ∈ s.fds) (hnot : fd ∉ closed) : fd ∈ (s.settle closed result).1.fds := by
  simp [Sessions.settle, hopen, hnot]

-- A login that passes its check.
theorem SessionsSound.login (h : SessionsSound history s) {fd seq : Int} {buf : Bytes}
    {env : LoginEnv} {client : CMSClient} (hnew : s.server.findClient fd = none)
    (hopen : fd ∈ s.fds) (hs : sessionStep s (.frame fd REQ_LOGIN seq buf env) = some (last, out))
    (hadd : last.server = s.server.addClient client) (hfds : last.fds = s.fds)
    (hclosed : out.closed = []) (hfd : client.fd = fd)
    (hid : client.cmsid = (ReqLogin.decode buf).cmsid) (hsize : buf.length = sizeofReqLogin)
    (hcheck : env.checkLogin (ReqLogin.decode buf) = 0) :
    SessionsSound ((.frame fd REQ_LOGIN seq buf env, out) :: history) last := by
  have hlist : last.server.clientlist = s.server.clientlist ++ [client] := by
    rw [hadd]
    rfl
  refine ⟨h.run.next hopen hs, ?_, fun p hp => ?_⟩
  · unfold FdsDistinct
    rw [hlist, List.map_append, List.map_cons, List.map_nil]
    refine List.nodup_append.mpr ⟨h.distinct, by simp, ?_⟩
    rintro x hx y hy rfl
    obtain ⟨p, hp, rfl⟩ := List.mem_map.mp hx
    exact fd_ne_of_findClient hnew hp ((List.mem_singleton.mp hy).trans hfd)
  · have hin : last.server.registered p.fd p.cmsid := ⟨p, hp, rfl, rfl⟩
    rw [hlist] at hp
    rcases List.mem_append.mp hp with hp | hp
    · obtain ⟨hpopen, hcreated⟩ := h.created p hp
      exact ⟨hfds ▸ hpopen, .kept hcreated hs (by simp [hclosed]) hin⟩
    · obtain rfl := List.mem_singleton.mp hp
      subst hfd
      refine ⟨hfds ▸ hopen, ?_⟩
      exact .login h.run hopen hnew hsize hid.symm hcheck hs (by simp [hclosed]) hin

theorem SessionsSound.frame (h : SessionsSound history s) {fd cmd seq : Int} {buf : Bytes}
    {env : LoginEnv} (hopen : fd ∈ s.fds)
    (hs : sessionStep s (.frame fd cmd seq buf env) = some (last, out)) :
    SessionsSound ((.frame fd cmd seq buf env, out) :: history) last := by
  obtain ⟨⟨server, frames⟩, hread, he⟩ := Option.map_eq_some_iff.mp hs
  cases hfind : s.server.findClient fd with
  | some p =>
      have hshrink := known_frame_shrinks hfind hread
      cases he
      exact h.shrink hopen hs hshrink (settle_fds s _ _)
  | none =>
      rcases unknown_frame_cases hfind hread
        with rfl | ⟨client, rfl, hfd, hid, rfl, hsize, hcheck, hsent, -⟩
      · -- nobody is registered on the descriptor, so it may be closed
        have hshrink : Shrinks s.server s.server (s.server.frameCloses fd cmd buf env.sent) := by
          simp only [TcpServer.frameCloses, hfind]
          split_ifs
          · exact .of_unknown hfind
          · exact .refl _
          · exact .of_unknown hfind
        cases he
        exact h.shrink hopen hs hshrink (settle_fds s _ _)
      · have hcloses : s.server.frameCloses fd REQ_LOGIN buf env.sent = [] := by
          simp [TcpServer.frameCloses, hfind, hsize, hsent]
        rw [hcloses] at he
        cases he
        exact h.login hfind hopen hs rfl (by simp) rfl hfd hid hsize hcheck

theorem SessionsSound.step (h : SessionsSound history s) (hguard : kernel history s event)
    (hs : sessionStep s event = some (last, out)) : SessionsSound ((event, out) :: history) last := by
  cases event with
  | accept fd =>
      cases hs
      exact h.shrink hguard rfl (.refl _) fun x hx _ => List.mem_cons_of_mem _ hx
  | frame fd cmd seq buf env => exact h.frame hguard hs
  | operation event =>
      by_cases hframe : ∃ fd cmd seq buf env, event = .frame fd cmd seq buf env
      · obtain ⟨fd, cmd, seq, buf, env, rfl⟩ := hframe
        cases hs
      · have hne : ∀ fd cmd seq buf env, event ≠ .frame fd cmd seq buf env :=
          fun fd cmd seq buf env he => hframe ⟨fd, cmd, seq, buf, env, he⟩
        have hstep : sessionStep s (.operation event) =
            (adapterStep s.server event).map (s.settle (s.server.operationCloses event)) := by
          cases event <;> first | rfl | exact absurd rfl (hne _ _ _ _ _)
        obtain ⟨⟨server, frames⟩, ha, he⟩ := Option.map_eq_some_iff.mp (hstep.symm.trans hs)
        cases he
        exact h.shrink hguard hs (adapterStep_shrinks hne ha) (settle_fds s _ _)
  | startPush cmsid deviceid env =>
      cases hs
      exact h.shrink hguard rfl (notifyStartPush_shrinks s.server cmsid deviceid env) (settle_fds s _ _)
  | stopPush cmsid deviceid env =>
      cases hs
      exact h.shrink hguard rfl (notifyStopPush_shrinks s.server cmsid deviceid env) (settle_fds s _ _)

theorem sessionsSound_of_run (run : Run sessionStep kernel noSessions history s) :
    SessionsSound history s := by
  refine run.invariant SessionsSound ⟨.init, ?_, ?_⟩ ?_
  · simp [FdsDistinct, noSessions]
  · intro p hp
    simp [noSessions] at hp
  · intro history before event after out hsound hguard hs
    exact hsound.step hguard hs

-- Who is in the client list of the adapter server, along every run: every client was created
-- by a login of the right size on its own connection, still open, that passed `check_login`; no
-- two clients have one descriptor; and a frame on a descriptor without a client leaves all
-- clients as they are and adds at most one for that descriptor.
theorem clients_authenticated (run : Run sessionStep kernel noSessions history s) :
    (∀ p ∈ s.server.clientlist, p.fd ∈ s.fds ∧ CreatedBy p.fd p.cmsid history s) ∧
    (s.server.clientlist.map (·.fd)).Nodup ∧
    ∀ fd cmd seq buf env after out, s.server.findClient fd = none →
      sessionStep s (.frame fd cmd seq buf env) = some (after, out) →
      ∃ new, after.server.clientlist = s.server.clientlist ++ new ∧ new.length ≤ 1 ∧
        ∀ p ∈ new, p.fd = fd := by
  have hsound := sessionsSound_of_run run
  refine ⟨hsound.created, hsound.distinct, ?_⟩
  intro fd cmd seq buf env after out hnew hs
  obtain ⟨⟨server, frames⟩, hread, he⟩ := Option.map_eq_some_iff.mp hs
  cases he
  rcases unknown_frame_cases hnew hread with rfl | ⟨client, rfl, hfd, -⟩
  · exact ⟨[], by simp, by simp, by simp⟩
  · exact ⟨[client], rfl, by simp, by simpa using hfd⟩

-- A test that is enough for the kernel's part of an event.
def kernelAllows (_ : SessionHistory) (s : Sessions) (event : SessionEvent) : Bool :=
  match event with
  | .accept fd => !s.fds.contains fd
  | .frame fd _ _ _ _ => s.fds.contains fd
  | _ => true

theorem kernel_of_kernelAllows (history : SessionHistory) (s : Sessions) (event : SessionEvent)
    (h : kernelAllows history s event = true) : kernel history s event := by
  cases event with
  | accept fd => simpa [kernelAllows, kernel] using h
  | frame fd cmd seq buf env => simpa [kernelAllows, kernel] using h
  | operation event => trivial
  | startPush cmsid deviceid env => trivial
  | stopPush cmsid deviceid env => trivial

-- An adapter connects, sends a heartbeat too early and is dropped; on its second connection
-- it logs in.
theorem clients_authenticated_after_login :
    ∃ history s p, Run sessionStep kernel noSessions history s ∧ p ∈ s.server.clientlist ∧
      CreatedBy p.fd p.cmsid history s := by
  obtain ⟨history, s, run, ht⟩ := exists_run_of_ends sessionStep kernel noSessions
    [.accept 7, .frame 7 KEEP_ALIVE 0 [] (loginEnv "k" .failed), .accept 7,
      .frame 7 REQ_LOGIN 1 (ReqLogin.encode ⟨"A", "k"⟩) (loginEnv "k" (.rows [allDayRow "d"]))]
    (fun _ s => !s.server.clientlist.isEmpty)
    (guarded_of_passes kernelAllows kernel_of_kernelAllows (by decide +kernel)) (by decide +kernel)
  obtain ⟨p, hp⟩ := List.exists_mem_of_ne_nil s.server.clientlist (by simpa using ht)
  exact ⟨history, s, p, run, hp, ((clients_authenticated run).1 p hp).2⟩

end VideoAdapter.Adapter
