import VideoAdapter.Wss.Calls.Moves

namespace VideoAdapter.Wss

open Adapter Lib
open Service (RequestEnv)

variable {m after : Mngr} {i : Nat} {s : Int} {c d token key : String} {shown : Shown}
  {env : RequestEnv}

-- No step of a call adds or removes a connection, and messages go to connected sockets only.
structure Wired (before after : Connections) (out : List Output) : Prop where
  registered : ∀ x, after.registered x = before.registered x
  replies : ∀ x data, .reply x data ∈ out → before.registered x = true

theorem Wired.silent (connections : Connections) {out : List Output}
    (hout : ∀ x data, .reply x data ∉ out) : Wired connections connections out :=
  ⟨fun _ => rfl, fun x data h => absurd h (hout x data)⟩

theorem send_wired {j final : Joins} {data : Reply} {out : List Output}
    (h : j.send s data = some (final, out)) : Wired j.connections final.connections out := by
  refine ⟨send_registered h, fun x reply hr => ?_⟩
  obtain ⟨connections, -, he⟩ := Option.map_eq_some_iff.mp h
  cases he
  by_cases hreg : j.connections.registered s = true
  · rw [if_pos hreg] at hr
    cases List.mem_singleton.mp hr
    exact hreg
  · rw [if_neg hreg] at hr
    cases hr

theorem accept_wired {j final : Joins} {data : Reply} {tick : UInt64} {out : List Output}
    (h : j.accept s key data tick = some (final, out)) :
    Wired j.connections final.connections out := by
  simp only [Joins.accept, Option.bind_eq_bind, Option.bind_eq_some_iff, Option.pure_def,
    Option.some.injEq, Prod.mk.injEq] at h
  obtain ⟨⟨mid, sent⟩, hsend, named, hvalue, connections, htick, rfl, rfl⟩ := h
  refine ⟨fun x => ?_, (send_wired hsend).replies⟩
  rw [registered_update htick, registered_update hvalue]
  exact (send_wired hsend).registered x

theorem broadcast_wired {data : Reply} {users : List Int} {j final : Joins} {out : List Output}
    (h : Joins.broadcast data users j = some (final, out)) :
    Wired j.connections final.connections out := by
  induction users generalizing j out with
  | nil =>
      cases h
      exact .silent _ (by simp)
  | cons user rest ih =>
      obtain ⟨⟨mid, sent⟩, hsend, hrest⟩ := Option.bind_eq_some_iff.mp h
      obtain ⟨⟨last, more⟩, hmore, he⟩ := Option.map_eq_some_iff.mp hrest
      cases he
      have hfirst := send_wired hsend
      have hlast := ih hmore
      refine ⟨fun x => (hlast.registered x).trans (hfirst.registered x), fun x reply hr => ?_⟩
      rcases List.mem_append.mp hr with hr | hr
      · exact hfirst.replies x reply hr
      · exact (hfirst.registered x).symm.trans (hlast.replies x reply hr)

theorem lookup_connections (j : Joins) (s : Int) (key : String) (ret : Int) :
    (j.lookup s key ret).connections = j.connections := by
  have hdelete : (j.delete key).connections = j.connections := by
    unfold Joins.delete
    split <;> rfl
  unfold Joins.lookup
  split_ifs
  · exact hdelete
  · exact hdelete
  · split <;> rfl
  · rfl

theorem joinStep_wired {j final : Joins} {out : List Output}
    (h : joinStep c d j (s, env) = some (final, out)) :
    Wired j.connections final.connections out := by
  have hquiet : ∀ frames : List Sent, ∀ x data, .reply x data ∉ frames.map Output.sent := by simp
  simp only [joinStep] at h
  split at h
  · cases h
  · obtain ⟨ret, -, he⟩ := Option.map_eq_some_iff.mp h
    cases he
    exact .silent _ (by simp)
  · cases h
    rw [lookup_connections]
    exact .silent _ (by simp)
  · cases h
    exact .silent _ (hquiet _)
  · cases h
    exact .silent _ (by simp)
  · cases h
    exact .silent _ (by simp)
  · obtain ⟨next, hjoin, he⟩ := Option.map_eq_some_iff.mp h
    cases he
    unfold Joins.joinRoom at hjoin
    split at hjoin <;> cases hjoin
    exact .silent _ (by simp)
  · obtain ⟨next, hread, he⟩ := Option.map_eq_some_iff.mp h
    cases he
    unfold Joins.readRoom at hread
    split at hread <;> cases hread
    exact .silent _ (by simp)
  · obtain ⟨⟨next, sent⟩, hsend, he⟩ := Option.map_eq_some_iff.mp h
    cases he
    have hwired := send_wired hsend
    exact ⟨hwired.registered, hwired.replies⟩
  · obtain ⟨⟨next, sent⟩, haccept, he⟩ := Option.map_eq_some_iff.mp h
    cases he
    have hwired := accept_wired haccept
    exact ⟨hwired.registered, hwired.replies⟩
  · cases h

theorem advanceHls_wired {pc : HlsPc} (h : m.advanceHls i token pc = some (after, shown)) :
    Wired m.connections after.connections shown.out := by
  cases pc with
  | search =>
      simp only [Mngr.advanceHls] at h
      split at h
      · cases h
      · split at h
        · cases h
          exact .silent _ (by simp)
        · cases h
          exact .silent _ (by simp)
  | ready p =>
      obtain ⟨room, -, he⟩ := Option.map_eq_some_iff.mp h
      cases he
      exact .silent _ (by simp)
  | size p =>
      obtain ⟨room, -, he⟩ := Option.map_eq_some_iff.mp h
      cases he
      exact .silent _ (by simp)
  | broadcast p isize =>
      obtain ⟨room, -, hsend⟩ := Option.bind_eq_some_iff.mp h
      obtain ⟨⟨j, out⟩, hall, he⟩ := Option.map_eq_some_iff.mp hsend
      cases he
      have hwired := broadcast_wired hall
      exact ⟨hwired.registered, hwired.replies⟩
  | done p => cases h

theorem advanceJoin_wired {pc : Pc} (h : m.advanceJoin i s c d pc env = some (after, shown)) :
    Wired m.connections after.connections shown.out := by
  unfold Mngr.advanceJoin at h
  dsimp only at h
  split at h
  · cases h
  · obtain ⟨⟨j, out⟩, hstep, he⟩ := Option.map_eq_some_iff.mp h
    cases he
    have hwired := joinStep_wired hstep
    exact ⟨hwired.registered, hwired.replies⟩

theorem advanceQuit_wired {pc : QuitPc} (h : m.advanceQuit i s c d pc env = some (after, shown)) :
    Wired m.connections after.connections shown.out := by
  unfold Mngr.advanceQuit at h
  cases pc with
  | check =>
      obtain ⟨ret, -, he⟩ := Option.map_eq_some_iff.mp h
      cases he
      exact .silent _ (by simp)
  | lookup ret =>
      dsimp only at h
      split at h
      · cases h
      · split at h
        · split at h <;> cases h <;> exact .silent _ (by simp)
        · cases h
          have hdelete : (m.shared.delete (c ++ d)).connections = m.connections := by
            unfold Joins.delete
            split <;> rfl
          refine ⟨fun x => ?_, by simp⟩
          exact congrArg (·.registered x) hdelete
  | found p =>
      obtain ⟨room, -, he⟩ := Option.map_eq_some_iff.mp h
      cases he
      exact .silent _ (by simp)
  | clear =>
      obtain ⟨connections, hu, he⟩ := Option.map_eq_some_iff.mp h
      cases he
      exact ⟨registered_update hu, by simp⟩
  | reply =>
      obtain ⟨⟨j, out⟩, hsend, he⟩ := Option.map_eq_some_iff.mp h
      cases he
      have hwired := send_wired hsend
      exact ⟨hwired.registered, hwired.replies⟩
  | done => cases h

theorem advance_wired (h : m.advance i env = some (after, shown)) :
    Wired m.connections after.connections shown.out := by
  unfold Mngr.advance at h
  split at h
  · cases h
  · exact advanceJoin_wired h
  · exact advanceQuit_wired h
  · exact advanceHls_wired h

end VideoAdapter.Wss
