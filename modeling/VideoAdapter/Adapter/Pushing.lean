import Mathlib.Data.List.Nodup
import VideoAdapter.Adapter.Server

namespace VideoAdapter.Adapter

open Lib

-- Whether `CheckStatus` takes the device for a playing one, on some client of this id.
def Pushing (srv : TcpServer) (c d : String) : Prop :=
  ∃ client ∈ srv.clientlist, client.cmsid = c ∧
    ∃ n, getState client.devlist d = some n ∧ n ≠ 0 ∧ n ≠ 1

-- No two clients have one id or one descriptor.
structure Distinct (srv : TcpServer) : Prop where
  cmsid : (srv.clientlist.map (·.cmsid)).Nodup
  fd : (srv.clientlist.map (·.fd)).Nodup

-- Where the states of a device table come from after a change: a device is off line or
-- online, or has the state it had, or a state that the change itself has set.
def StatesFrom (old new : DevList) (extra : String → Int → Prop) : Prop :=
  ∀ d n, getState new d = some n → n = 0 ∨ n = 1 ∨ getState old d = some n ∨ extra d n

-- The same for all clients, with distinct ids kept distinct.
structure Follows (srv after : TcpServer) (extra : String → String → Int → Prop) : Prop where
  distinct : Distinct srv → Distinct after
  states : ∀ client ∈ after.clientlist, ∀ d n, getState client.devlist d = some n →
    n = 0 ∨ n = 1 ∨ (∃ old ∈ srv.clientlist, old.cmsid = client.cmsid ∧ getState old.devlist d = some n) ∨
      extra client.cmsid d n

variable {srv after : TcpServer} {old new devlist : DevList} {c d : String}

theorem StatesFrom.refl (devlist : DevList) (extra : String → Int → Prop) :
    StatesFrom devlist devlist extra := fun _ _ hn => .inr (.inr (.inl hn))

theorem StatesFrom.trans {mid : DevList} {extra : String → Int → Prop}
    (h : StatesFrom old mid extra) (h' : StatesFrom mid new extra) : StatesFrom old new extra := by
  intro d n hn
  rcases h' d n hn with h0 | h1 | hmid | hx
  · exact .inl h0
  · exact .inr (.inl h1)
  · exact h d n hmid
  · exact .inr (.inr (.inr hx))

theorem Follows.refl (srv : TcpServer) (extra : String → String → Int → Prop) :
    Follows srv srv extra :=
  ⟨id, fun client hc _ _ hn => .inr (.inr (.inl ⟨client, hc, rfl, hn⟩))⟩

theorem Follows.trans {mid : TcpServer} {extra : String → String → Int → Prop}
    (h : Follows srv mid extra) (h' : Follows mid after extra) : Follows srv after extra := by
  refine ⟨fun hd => h'.distinct (h.distinct hd), ?_⟩
  intro client hc d n hn
  rcases h'.states client hc d n hn with h0 | h1 | ⟨old, ho, hid, hn'⟩ | hx
  · exact .inl h0
  · exact .inr (.inl h1)
  · rcases h.states old ho d n hn' with h0 | h1 | ⟨older, ho', hid', hn''⟩ | hx
    · exact .inl h0
    · exact .inr (.inl h1)
    · exact .inr (.inr (.inl ⟨older, ho', hid'.trans hid, hn''⟩))
    · exact .inr (.inr (.inr (hid ▸ hx)))
  · exact .inr (.inr (.inr hx))

-- A device pushes after a change only if it pushed before or the change has set its state.
theorem Follows.pushing {extra : String → String → Int → Prop} (h : Follows srv after extra)
    (hp : Pushing after c d) : Pushing srv c d ∨ ∃ n, extra c d n ∧ n ≠ 0 ∧ n ≠ 1 := by
  obtain ⟨client, hc, rfl, n, hn, h0, h1⟩ := hp
  rcases h.states client hc d n hn with h0' | h1' | ⟨old, ho, hid, hn'⟩ | hx
  · exact absurd h0' h0
  · exact absurd h1' h1
  · exact .inl ⟨old, ho, hid, n, hn', h0, h1⟩
  · exact .inr ⟨n, hx, h0, h1⟩

theorem Follows.updateFirst {test : CMSClient → Bool} {f : CMSClient → Option CMSClient}
    {extra : String → String → Int → Prop}
    (hid : ∀ x y, f x = some y → y.cmsid = x.cmsid ∧ y.fd = x.fd)
    (hstates : ∀ x y, srv.clientlist.find? test = some x → f x = some y →
      StatesFrom x.devlist y.devlist (extra x.cmsid)) :
    Follows srv ⟨updateFirst test f srv.clientlist⟩ extra := by
  refine ⟨fun hd => ⟨?_, ?_⟩, ?_⟩
  · exact hd.cmsid.sublist (map_updateFirst_sublist (fun x y hf => (hid x y hf).1) _)
  · exact hd.fd.sublist (map_updateFirst_sublist (fun x y hf => (hid x y hf).2) _)
  intro client hc d n hn
  rcases mem_updateFirst hc with hm | ⟨x, hx, hf⟩
  · exact .inr (.inr (.inl ⟨client, hm, rfl, hn⟩))
  · rcases hstates x client hx hf d n hn with h0 | h1 | hold | hx'
    · exact .inl h0
    · exact .inr (.inl h1)
    · exact .inr (.inr (.inl ⟨x, List.mem_of_find?_eq_some hx, (hid x client hf).1.symm, hold⟩))
    · exact .inr (.inr (.inr ((hid x client hf).1 ▸ hx')))

theorem delClient_follows (srv : TcpServer) (fd : Int) (extra : String → String → Int → Prop) :
    Follows srv (srv.delClient fd) extra :=
  .updateFirst (fun _ _ hf => by cases hf) fun _ _ _ hf => by cases hf

theorem delClientById_follows (srv : TcpServer) (cmsid : String)
    (extra : String → String → Int → Prop) : Follows srv (srv.delClientById cmsid) extra :=
  .updateFirst (fun _ _ hf => by cases hf) fun _ _ _ hf => by cases hf

theorem onClient_follows {fd : Int} {f : CMSClient → CMSClient}
    {extra : String → String → Int → Prop} (hid : ∀ p, (f p).cmsid = p.cmsid ∧ (f p).fd = p.fd)
    (hstates : ∀ p, srv.findClient fd = some p → StatesFrom p.devlist (f p).devlist (extra p.cmsid)) :
    Follows srv (srv.onClient fd f) extra := by
  refine .updateFirst ?_ ?_
  · rintro x y ⟨⟩
    exact hid x
  · rintro x y hx ⟨⟩
    exact hstates x hx

theorem getClient_cmsid {p : CMSClient} (hp : srv.getClient c = some p) : p.cmsid = c := by
  simpa using List.find?_some hp

theorem setDevlist_follows {p : CMSClient} {extra : String → String → Int → Prop}
    (hp : srv.getClient c = some p) (hstates : StatesFrom p.devlist devlist (extra c)) :
    Follows srv (srv.setDevlist c devlist) extra := by
  refine .updateFirst ?_ ?_
  · rintro x y ⟨⟩
    exact ⟨rfl, rfl⟩
  · rintro x y hx ⟨⟩
    have hxp : some x = some p := hx.symm.trans hp
    cases hxp
    rw [getClient_cmsid hp]
    exact hstates

theorem getState_insert (devlist : DevList) (pid d : String) (p : DeviceNode) :
    getState (devlist.insert pid p) d = if pid = d then some p.state else getState devlist d := by
  by_cases hd : pid = d <;> simp [getState, Std.ExtTreeMap.getElem?_insert, hd]

theorem getState_modify (devlist : DevList) (pid d : String) (f : DeviceNode → DeviceNode) :
    getState (devlist.modify pid f) d =
      if pid = d then devlist[pid]?.map fun p => (f p).state else getState devlist d := by
  by_cases hd : pid = d
  · subst hd
    simp [getState, Function.comp_def]
  · simp [getState, Std.ExtTreeMap.getElem?_modify, hd]

theorem StatesFrom.insert {pid : String} {p : DeviceNode} {extra : String → Int → Prop}
    (hp : p.state = 0 ∨ p.state = 1 ∨ getState devlist pid = some p.state ∨ extra pid p.state) :
    StatesFrom devlist (devlist.insert pid p) extra := by
  intro d n hn
  rw [getState_insert] at hn
  split at hn
  · rename_i hd
    cases hn
    exact hd ▸ hp
  · exact .inr (.inr (.inl hn))

theorem addCamera_states (devlist : DevList) (pid name : String) (allday : Int)
    (s0 e0 s1 e1 : String) (extra : String → Int → Prop) :
    StatesFrom devlist (addCamera devlist pid name allday s0 e0 s1 e1) extra := by
  exact .insert (.inl (newCamera_state ..))

theorem delCamera_states (devlist : DevList) (pid : String) (extra : String → Int → Prop) :
    StatesFrom devlist (delCamera devlist pid) extra := by
  intro d n hn
  refine .inr (.inr (.inl ?_))
  by_cases hd : pid = d
  · simp [getState, delCamera, hd] at hn
  · simpa [getState, delCamera, Std.ExtTreeMap.getElem?_erase, hd] using hn

theorem modifyCamera_states (devlist : DevList) (pid : String) (allday : Int)
    (s0 e0 s1 e1 : String) (extra : String → Int → Prop) :
    StatesFrom devlist (modifyCamera devlist pid allday s0 e0 s1 e1) extra := by
  intro d n hn
  refine .inr (.inr (.inl ?_))
  rw [modifyCamera, getState_modify] at hn
  split at hn
  · rename_i hd
    exact hd ▸ hn
  · exact hn

theorem stopDue_states (outside : DeviceNode → Bool) (devlist : DevList)
    (extra : String → Int → Prop) : StatesFrom devlist (stopDue outside devlist) extra := by
  intro d n hn
  simp only [getState, stopDue, Std.ExtTreeMap.getElem?_map, Option.map_map] at hn
  obtain ⟨p, hp, hs⟩ := Option.map_eq_some_iff.mp hn
  simp only [Function.comp_apply] at hs
  split at hs
  · exact .inr (.inl hs.symm)
  · exact .inr (.inr (.inl (by simp [getState, hp, hs])))

theorem setState_states {items : List StateItem} {item : StateItem} (hitem : item ∈ items)
    (devlist : DevList) : StatesFrom devlist (setState devlist item)
      fun d n => ∃ item ∈ items, item.pid = d ∧ item.flag = n := by
  intro d n hn
  rw [setState, getState_modify] at hn
  split at hn
  · rename_i hd
    obtain ⟨_, -, hflag⟩ := Option.map_eq_some_iff.mp hn
    exact .inr (.inr (.inr ⟨item, hitem, hd, hflag⟩))
  · exact .inr (.inr (.inl hn))

theorem StatesFrom.foldl {α : Type*} {f : DevList → α → DevList} {extra : String → Int → Prop}
    (l : List α) (hf : ∀ x ∈ l, ∀ devlist, StatesFrom devlist (f devlist x) extra)
    (devlist : DevList) : StatesFrom devlist (l.foldl f devlist) extra := by
  induction l generalizing devlist with
  | nil => exact .refl _ _
  | cons x rest ih =>
      have hrest := ih (fun y hy => hf y (List.mem_cons_of_mem _ hy)) (f devlist x)
      exact (hf x List.mem_cons_self devlist).trans hrest

theorem handleUpdateChange_states {buf : Bytes} (hu : handleUpdateChange devlist buf = some new) :
    StatesFrom devlist new fun d n => ∃ item ∈ stateItems buf, item.pid = d ∧ item.flag = n := by
  unfold handleUpdateChange at hu
  split at hu
  · cases hu
  · cases hu
    exact .foldl _ (fun item hitem devlist => setState_states hitem devlist) devlist

theorem loadRows_states (rows : List TBDeviceEx) {n : Int} (hn : getState (loadRows rows) d = some n) :
    n = 0 ∨ n = 1 := by
  have hload : StatesFrom ∅ (loadRows rows) fun _ _ => False :=
    .foldl rows (fun r _ devlist => addCamera_states devlist _ _ _ _ _ _ _ _) ∅
  rcases hload d n hn with h0 | h1 | hempty | hx
  · exact .inl h0
  · exact .inr h1
  · simp [getState] at hempty
  · exact hx.elim

theorem addClient_follows {client : CMSClient} {extra : String → String → Int → Prop}
    (hnew : srv.getClient client.cmsid = none) (hfd : srv.findClient client.fd = none)
    (hstates : ∀ d n, getState client.devlist d = some n → n = 0 ∨ n = 1) :
    Follows srv (srv.addClient client) extra := by
  refine ⟨?_, ?_⟩
  · intro hd
    refine ⟨?_, ?_⟩
    · simp only [TcpServer.addClient, List.map_append, List.map_cons, List.map_nil]
      refine List.nodup_append.mpr ⟨hd.cmsid, by simp, ?_⟩
      rintro x hx y hy rfl
      obtain ⟨p, hp, rfl⟩ := List.mem_map.mp hx
      exact List.find?_eq_none.mp hnew p hp (by simpa using hy)
    · simp only [TcpServer.addClient, List.map_append, List.map_cons, List.map_nil]
      refine List.nodup_append.mpr ⟨hd.fd, by simp, ?_⟩
      rintro x hx y hy rfl
      obtain ⟨p, hp, rfl⟩ := List.mem_map.mp hx
      exact List.find?_eq_none.mp hfd p hp (by simpa using hy)
  · intro p hp d n hn
    rcases List.mem_append.mp hp with hp | hp
    · exact .inr (.inr (.inl ⟨p, hp, rfl, hn⟩))
    · cases List.mem_singleton.mp hp
      exact (hstates d n hn).imp id .inl

theorem loginCheck_follows {fd : Int} (hfd : srv.findClient fd = none) (cmsid : String)
    (env : FrameEnv) (extra : String → String → Int → Prop) :
    Follows srv (loginCheck srv fd cmsid env).2.1 extra := by
  unfold loginCheck
  split
  · exact .refl _ _
  · rename_i hnew
    split
    · exact .refl _ _
    · split
      · exact .refl _ _
      · rename_i rows hrows
        exact addClient_follows (by simpa using hnew) hfd fun d n hn => loadRows_states rows hn

theorem handleLoginEx_follows {fd : Int} (hfd : srv.findClient fd = none) (seq : Int)
    (buf : Bytes) (env : FrameEnv) (extra : String → String → Int → Prop) :
    Follows srv (handleLoginEx srv fd seq buf env).1 extra := by
  have hcheck := loginCheck_follows hfd (ReqLogin.decode buf).cmsid env extra
  unfold handleLoginEx
  generalize loginCheck srv fd (ReqLogin.decode buf).cmsid env = res at hcheck
  obtain ⟨ret, mid, rows⟩ := res
  by_cases hsent : env.sent = true
  · simpa [hsent] using hcheck
  · simpa [hsent] using hcheck.trans (delClient_follows mid fd extra)

theorem updateLivecount_follows (srv : TcpServer) (fd seq : Int) (env : FrameEnv)
    (extra : String → String → Int → Prop) :
    Follows srv (updateLivecount srv fd seq env).1 extra := by
  have hlive : Follows srv (srv.onClient fd fun p => { p with livecount := env.tick }) extra :=
    onClient_follows (fun _ => ⟨rfl, rfl⟩) fun p _ => .refl _ _
  unfold updateLivecount
  split
  · exact hlive
  · exact hlive.trans (delClient_follows _ _ _)

-- What an `UPDATE_CHANGE` frame of a known client sets.
def reported (srv : TcpServer) (event : AdapterEvent) (c d : String) (n : Int) : Prop :=
  match event with
  | .frame fd cmd _ buf _ => cmd = UPDATE_CHANGE ∧ (∃ p, srv.findClient fd = some p ∧ p.cmsid = c) ∧
      ∃ item ∈ stateItems buf, item.pid = d ∧ item.flag = n
  | _ => False

theorem handlerRead_follows {fd cmd seq : Int} {buf : Bytes} {env : FrameEnv} {frames : List Sent}
    (h : handlerRead srv fd cmd seq buf env = some (after, frames)) :
    Follows srv after (reported srv (.frame fd cmd seq buf env)) := by
  cases handlerRead_move h with
  | refused hnew hother => exact .refl _ _
  | login hnew hcmd hsize hlogin =>
      obtain rfl := congrArg Prod.fst hlogin
      exact handleLoginEx_follows hnew _ _ _ _
  | keepAlive hclient hcmd halive =>
      obtain rfl := congrArg Prod.fst halive
      exact updateLivecount_follows _ _ _ _ _
  | @updateChange p devlist hclient hcmd hu =>
      refine onClient_follows (fun _ => ⟨rfl, rfl⟩) ?_
      intro q hq
      rw [hclient] at hq
      cases hq
      intro d n hn
      rcases handleUpdateChange_states hu d n hn with h0 | h1 | hold | hitem
      · exact .inl h0
      · exact .inr (.inl h1)
      · exact .inr (.inr (.inl hold))
      · exact .inr (.inr (.inr ⟨hcmd, ⟨p, hclient, rfl⟩, hitem⟩))
  | message hclient halive hchange =>
      refine onClient_follows (fun q => ?_) fun q _ => ?_
      · unfold CMSClient.insertMsg
        split <;> exact ⟨rfl, rfl⟩
      · unfold CMSClient.insertMsg
        split <;> exact .refl _ _

theorem notifyChange_follows {p : CMSClient} {type : Int} {pid : String} {draws : Nat → Nat}
    {sent : Bool} {extra : String → String → Int → Prop} (hp : srv.getClient c = some p)
    (hstates : StatesFrom p.devlist devlist (extra c)) :
    Follows srv (srv.notifyChange p devlist type pid draws sent).1 extra := by
  have hset : Follows srv (srv.setDevlist p.cmsid devlist) extra := by
    rw [getClient_cmsid hp]
    exact setDevlist_follows hp hstates
  unfold TcpServer.notifyChange
  split
  · exact hset
  · exact hset.trans (delClient_follows _ _ _)

theorem checkState_states (client : CMSClient) (cur : UInt64) (outside : DeviceNode → Bool)
    (sent : Bool) (extra : String → Int → Prop) :
    (client.checkState cur outside sent).2.1.cmsid = client.cmsid ∧
      (client.checkState cur outside sent).2.1.fd = client.fd ∧
      StatesFrom client.devlist (client.checkState cur outside sent).2.1.devlist extra := by
  have hstop := stopDue_states outside client.devlist extra
  unfold CMSClient.checkState
  split
  · exact ⟨rfl, rfl, .refl _ _⟩
  · dsimp only
    split
    · exact ⟨rfl, rfl, hstop⟩
    · split <;> exact ⟨rfl, rfl, hstop⟩

theorem checkStates_clientlist (srv : TcpServer) (cur : Int → UInt64) (outside : DeviceNode → Bool)
    (sent : Int → Bool) :
    (srv.checkStates cur outside sent).1.clientlist = srv.clientlist.filterMap fun p =>
      let pass := p.checkState (cur p.fd) outside (sent p.fd)
      if pass.1 then some pass.2.1 else none := by
  simp only [TcpServer.checkStates, List.filterMap_map]
  rfl

-- A key that every pass keeps: the keys after the passes are among those before, in order.
theorem checkStates_sublist {β : Type*} {key : CMSClient → β} {cur : Int → UInt64}
    {outside : DeviceNode → Bool} {sent : Int → Bool}
    (hkey : ∀ p : CMSClient, key (p.checkState (cur p.fd) outside (sent p.fd)).2.1 = key p) :
    ((srv.checkStates cur outside sent).1.clientlist.map key).Sublist (srv.clientlist.map key) := by
  rw [checkStates_clientlist]
  induction srv.clientlist with
  | nil => exact .slnil
  | cons p rest ih =>
      by_cases hkept : (p.checkState (cur p.fd) outside (sent p.fd)).1 = true
      · simpa [hkept, hkey p] using ih
      · simpa [hkept] using ih.cons _

theorem checkStates_follows (srv : TcpServer) (cur : Int → UInt64) (outside : DeviceNode → Bool)
    (sent : Int → Bool) (extra : String → String → Int → Prop) :
    Follows srv (srv.checkStates cur outside sent).1 extra := by
  have hpass := fun p : CMSClient =>
    checkState_states p (cur p.fd) outside (sent p.fd) (extra p.cmsid)
  refine ⟨fun hd => ⟨?_, ?_⟩, ?_⟩
  · exact hd.cmsid.sublist (checkStates_sublist fun p => (hpass p).1)
  · exact hd.fd.sublist (checkStates_sublist fun p => (hpass p).2.1)
  · intro client hc d n hn
    rw [checkStates_clientlist] at hc
    obtain ⟨p, hp, hpass⟩ := List.mem_filterMap.mp hc
    dsimp only at hpass
    split at hpass
    · cases hpass
      obtain ⟨hid, -, hstates⟩ := hpass p
      rw [hid]
      rcases hstates d n hn with h0 | h1 | hold | hx
      · exact .inl h0
      · exact .inr (.inl h1)
      · exact .inr (.inr (.inl ⟨p, hp, rfl, hold⟩))
      · exact .inr (.inr (.inr hx))
    · cases hpass

-- Only an `UPDATE_CHANGE` frame makes a device push that did not, among the operations
-- on the adapter side.
theorem adapterStep_follows {event : AdapterEvent} {frames : List Sent}
    (h : adapterStep srv event = some (after, frames)) : Follows srv after (reported srv event) := by
  cases event with
  | frame fd cmd seq buf env => exact handlerRead_follows h
  | addCamera cmsid pid name allday s0 e0 s1 e1 draws sent =>
      simp only [adapterStep] at h
      split at h
      · cases h
        exact .refl _ _
      · rename_i p hp
        obtain rfl := congrArg Prod.fst (Option.some.inj h)
        exact notifyChange_follows hp (addCamera_states _ _ _ _ _ _ _ _ _)
  | delCamera cmsid pid draws sent =>
      simp only [adapterStep] at h
      split at h
      · cases h
        exact .refl _ _
      · rename_i p hp
        split at h
        · cases h
          exact .refl _ _
        · obtain rfl := congrArg Prod.fst (Option.some.inj h)
          exact notifyChange_follows hp (delCamera_states _ _ _)
  | modifyCamera cmsid pid allday s0 e0 s1 e1 =>
      simp only [adapterStep] at h
      split at h
      · cases h
        exact .refl _ _
      · rename_i p hp
        cases h
        exact setDevlist_follows hp (modifyCamera_states _ _ _ _ _ _ _ _)
  | checkState cur outside sent =>
      obtain rfl := congrArg Prod.fst (Option.some.inj h)
      exact checkStates_follows _ _ _ _ _
  | delClient fd =>
      cases h
      exact delClient_follows _ _ _
  | writeoff cmsid =>
      cases h
      exact delClientById_follows _ _ _

theorem afterNotify_follows {p : CMSClient} {out : NotifyResult × DevList × List Outgoing}
    {extra : String → String → Int → Prop} (hp : srv.getClient c = some p)
    (hstates : StatesFrom p.devlist out.2.1 (extra c)) :
    Follows srv (AdapterServer.afterNotify srv p out).2.1 extra := by
  unfold AdapterServer.afterNotify
  dsimp only
  split
  · exact delClient_follows _ _ _
  · rw [getClient_cmsid hp]
    exact setDevlist_follows hp hstates

theorem notifyPush_states (devlist : DevList) (devid : String) (env : PushEnv) :
    StatesFrom devlist (notifyPush devlist devid env).2.1
      fun d n => d = devid ∧ n = 2 ∧ (notifyPush devlist devid env).1.ret = 0 := by
  unfold notifyPush
  split
  · exact .refl _ _
  · split
    · exact .refl _ _
    · split
      · exact .refl _ _
      · dsimp only
        split
        · exact .refl _ _
        · split
          · exact .insert (.inr (.inr (.inr ⟨rfl, rfl, rfl⟩)))
          · exact .refl _ _

theorem notifyStopPush_states (devlist : DevList) (devid : String) (env : StopEnv)
    (extra : String → Int → Prop) :
    StatesFrom devlist (notifyStopPush devlist devid env).2.1 extra := by
  unfold notifyStopPush
  split
  · exact .refl _ _
  · split
    · exact .refl _ _
    · split
      · exact .refl _ _
      · dsimp only
        split
        · exact .insert (.inr (.inl rfl))
        · exact .refl _ _

theorem notifyStartPush_follows (srv : TcpServer) (c d : String) (env : StartEnv) :
    Follows srv (AdapterServer.notifyStartPush srv c d env).2.1 fun c' d' n =>
      c' = c ∧ d' = d ∧ n = 2 ∧ (AdapterServer.notifyStartPush srv c d env).1.ret = 0 := by
  unfold AdapterServer.notifyStartPush
  split
  · exact .refl _ _
  · split
    · exact .refl _ _
    · split
      · exact .refl _ _
      · rename_i p hp
        refine afterNotify_follows hp ?_
        intro x n hn
        rcases notifyPush_states p.devlist d env.push x n hn with h0 | h1 | hold | hx
        · exact .inl h0
        · exact .inr (.inl h1)
        · exact .inr (.inr (.inl hold))
        · exact .inr (.inr (.inr ⟨rfl, hx⟩))

theorem notifyStopPush_follows (srv : TcpServer) (c d : String) (env : StopEnv) :
    Follows srv (AdapterServer.notifyStopPush srv c d env).2.1 fun _ _ _ => False := by
  unfold AdapterServer.notifyStopPush
  split
  · exact .refl _ _
  · split
    · exact .refl _ _
    · rename_i p hp
      exact afterNotify_follows hp (notifyStopPush_states _ _ _ _)

theorem getClient_of_mem {p : CMSClient} (hd : Distinct srv) (hp : p ∈ srv.clientlist) :
    srv.getClient p.cmsid = some p := by
  cases hf : srv.getClient p.cmsid with
  | none =>
      have hne := List.find?_eq_none.mp hf p hp
      simp at hne
  | some q =>
      have hq := List.mem_of_find?_eq_some hf
      rw [List.inj_on_of_nodup_map hd.cmsid hq hp (getClient_cmsid hf)]

theorem checkStatus_playing (hd : Distinct srv) :
    AdapterServer.checkStatus srv c d = some 200 ↔ Pushing srv c d := by
  have hstate : ∀ n : Int, (if n = 0 then (101 : Int) else if n = 1 then 102 else 200) = 200 ↔
      n ≠ 0 ∧ n ≠ 1 := by
    intro n
    split
    · rename_i h0
      simp [h0]
    · split <;> simp_all
  constructor
  · intro hs
    unfold AdapterServer.checkStatus at hs
    split at hs
    · cases hs
    · rename_i p hp
      obtain ⟨n, hn, h200⟩ := Option.map_eq_some_iff.mp hs
      exact ⟨p, List.mem_of_find?_eq_some hp, getClient_cmsid hp, n, hn, (hstate n).mp h200⟩
  · rintro ⟨p, hp, rfl, n, hn, hne⟩
    simp only [AdapterServer.checkStatus, getClient_of_mem hd hp, hn, Option.map_some, (hstate n).mpr hne]

theorem not_mem_delClient {p : CMSClient} (hd : Distinct srv) :
    p ∉ (srv.delClient p.fd).clientlist :=
  not_mem_updateFirst_none (g := CMSClient.fd) hd.fd p

theorem getClient_setDevlist {p : CMSClient} (hp : srv.getClient c = some p) :
    (srv.setDevlist c devlist).getClient c = some { p with devlist } := by
  refine find?_updateFirst ?_ hp rfl
  rintro x y hx ⟨⟩
  exact hx

-- A stop that is answered, or that loses the client, leaves the device not pushing.
theorem not_pushing_of_stop {env : StopEnv} (hd : Distinct srv) (hc : c ≠ "") (hdev : d ≠ "")
    (hknown : ∀ p ∈ srv.clientlist, ∀ n, getState p.devlist d = some n → n = 0 ∨ n = 1 ∨ n = 2)
    (hans : Pushing srv c d → env.sent = true → env.answered = true) :
    ¬ Pushing (AdapterServer.notifyStopPush srv c d env).2.1 c d := by
  intro hafter
  have hfollows := notifyStopPush_follows srv c d env
  have hbefore : Pushing srv c d := (hfollows.pushing hafter).resolve_right fun ⟨_, hx, _⟩ => hx
  have hanswered := hans hbefore
  obtain ⟨p, hm, rfl, n, hn, h0, h1⟩ := hbefore
  obtain rfl : n = 2 := (hknown p hm n hn).resolve_left h0 |>.resolve_left h1
  obtain ⟨item, hitem, hstate⟩ := Option.map_eq_some_iff.mp hn
  have hget := getClient_of_mem hd hm
  obtain ⟨q, hq, hid, m, hm', hne⟩ := hafter
  have hget' := getClient_of_mem (hfollows.distinct hd) hq
  rw [hid] at hget'
  cases hsent : env.sent with
  | false =>
      -- the client is lost
      have hstop : (AdapterServer.notifyStopPush srv p.cmsid d env).2.1 = srv.delClient p.fd := by
        simp [AdapterServer.notifyStopPush, hc, hdev, hget, AdapterServer.afterNotify, notifyStopPush,
          hitem, hstate, hsent]
      rw [hstop] at hq
      have hsame : q ∈ srv.clientlist := by
        rcases mem_updateFirst hq with h | ⟨_, -, h⟩
        · exact h
        · cases h
      have hqp : q = p := by
        have hgq := getClient_of_mem hd hsame
        rw [hid, hget] at hgq
        exact (Option.some.inj hgq).symm
      exact not_mem_delClient hd (hqp ▸ hq)
  | true =>
      have hstop : (AdapterServer.notifyStopPush srv p.cmsid d env).2.1 =
          srv.setDevlist p.cmsid (p.devlist.insert d { item with state := 1 }) := by
        simp [AdapterServer.notifyStopPush, hc, hdev, hget, AdapterServer.afterNotify, notifyStopPush,
          hitem, hstate, hsent, hanswered hsent]
      rw [hstop, getClient_setDevlist hget] at hget'
      cases hget'
      simp only [getState_insert, if_true, Option.some.injEq] at hm'
      exact hne.2 hm'.symm

-- A start that succeeds for a device that was online leaves it playing.
theorem playing_of_start {env : StartEnv}
    (hs : AdapterServer.checkStatus srv c d = some 102)
    (hret : (AdapterServer.notifyStartPush srv c d env).1.ret = 0) :
    AdapterServer.checkStatus (AdapterServer.notifyStartPush srv c d env).2.1 c d = some 200 := by
  unfold AdapterServer.checkStatus at hs
  split at hs
  · cases hs
  · rename_i p hp
    obtain ⟨n, hn, h102⟩ := Option.map_eq_some_iff.mp hs
    obtain ⟨item, hitem, rfl⟩ := Option.map_eq_some_iff.mp hn
    have hne : item.state ≠ 2 := by
      intro h2
      simp [h2] at h102
    unfold AdapterServer.notifyStartPush at hret ⊢
    split at hret
    · cases hret
    · rename_i hparam
      split at hret
      · cases hret
      · rename_i hdb
        simp only [if_neg hparam, if_neg hdb, hp] at hret ⊢
        simp only [AdapterServer.afterNotify, notifyPush, hitem, if_neg hne] at hret ⊢
        split at hret
        · cases hret
        · rename_i hsent
          simp only [hsent]
          split at hret
          · cases hret
          · rename_i resp hresp
            split at hret
            · rename_i h100
              simp [h100, getClient_cmsid hp, AdapterServer.checkStatus, getClient_setDevlist hp,
                getState_insert, DeviceNode.pushing]
            · cases hret

end VideoAdapter.Adapter
