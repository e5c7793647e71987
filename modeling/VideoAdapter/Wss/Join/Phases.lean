import VideoAdapter.Wss.Join.Moves

namespace VideoAdapter.Wss

open Adapter Lib
open Service (RequestEnv)

-- A call that will not be answered 101 or 102.
def Pc.doomed : Pc → Prop
  | .lookup ret => ret = 100 ∨ ret = 101
  | .reply resp => resp.code ≠ 101 ∧ resp.code ≠ 102
  | .done code => code ≠ 101 ∧ code ≠ 102
  | _ => False

namespace Joins

-- A call that has seen the device not playing and has not started it yet.
def starting (m : Joins) (s : Int) : Prop :=
  m.call s = some (.lookup 102) ∨ m.call s = some .start

-- A call that has started the device and has not stored its room yet.
def owner (m : Joins) (s : Int) : Prop :=
  (∃ token, m.call s = some (.create token)) ∨ ∃ p resp, m.call s = some (.store p resp)

end Joins

-- A call checks the status of a device that is not playing only while no other call is
-- about to start it.
def oneStarter (c d : String) (_ : List ((Int × RequestEnv) × List Output)) (m : Joins)
    (event : Int × RequestEnv) : Prop :=
  m.call event.1 = some .check → AdapterServer.checkStatus m.server c d = some 102 →
    ∀ s, ¬ m.starting s

-- What a call may be doing once the room is stored: it has the stored room and no other,
-- and is among its users from its join on.
def Pc.inRoom (p : Nat) (room : LiveRoom) (s : Int) : Pc → Prop
  | .check => True
  | .lookup ret => ret = 200
  | .found q => q = p
  | .joined q _ => q = p ∧ s ∈ room.users
  | .accept _ => s ∈ room.users
  | .done _ => s ∈ room.users
  | _ => False

-- The course of the calls: one of them fails, or all of them check a device that is not
-- playing until one call starts it, or the device plays and the room is on its way, or it
-- plays and the room is stored.
inductive Phase (c d : String) (m : Joins) : Prop
  | ready (h : m.Ready (c ++ d))
  | doomed (s : Int) (pc : Pc) (hpc : m.call s = some pc) (hd : pc.doomed)
  | starting (hs : AdapterServer.checkStatus m.server c d = some 102)
      (hpcs : ∀ s pc, m.call s = some pc →
        pc = .check ∨ pc = .lookup 102 ∨ pc = .start ∧ m.rooms[c ++ d]? = none)
      (hone : ∀ s s', m.starting s → m.starting s' → s = s')
  | started (hs : AdapterServer.checkStatus m.server c d = some 200)
      (hr : m.rooms[c ++ d]? = none)
      (hpcs : ∀ s pc, m.call s = some pc → pc = .check ∨ pc = .lookup 200 ∨ m.owner s)
      (hone : ∀ s s', m.owner s → m.owner s' → s = s')
      (hstore : ∀ s p resp, m.call s = some (.store p resp) →
        ∃ room : LiveRoom, m.heap[p]? = some (some room) ∧ s ∈ room.users)
  | playing (hs : AdapterServer.checkStatus m.server c d = some 200) (p : Nat) (room : LiveRoom)
      (hr : m.rooms[c ++ d]? = some p) (hp : m.heap[p]? = some (some room))
      (hpcs : ∀ s pc, m.call s = some pc → pc.inRoom p room s)

variable {c d : String} {m after : Joins} {s : Int} {env : RequestEnv} {pc : Pc}

theorem unique_of_self (s : Int) {P : Int → Prop} (hself : ∀ x, P x → x = s) :
    ∀ x y, P x → P y → x = y :=
  fun x y hx hy => (hself x hx).trans (hself y hy).symm

-- A call that fails goes on failing.
theorem JoinMove.doomed (h : JoinMove c d m s env pc after) (hd : pc.doomed) :
    ∃ next, after.call s = some next ∧ next.doomed := by
  cases h with
  | checked ret hs => exact hd.elim
  | offline ret hret => exact ⟨_, by simp; rfl, by simp [Pc.doomed, offlineReply]⟩
  | deleted => rcases hd with hd | hd <;> simp at hd
  | found p hr => rcases hd with hd | hd <;> simp at hd
  | unexpected ret h102 hr => exact ⟨_, by simp; rfl, by simp [Pc.doomed, unexpectedReply]⟩
  | failed hret => exact hd.elim
  | started hret => exact hd.elim
  | created token => exact hd.elim
  | stored p resp => exact hd.elim
  | joined p room hp => exact hd.elim
  | read p count room hp => exact hd.elim
  | replied resp connections => exact ⟨.done resp.code, by simp, hd⟩
  | accepted resp connections => exact hd.elim

theorem Phase.step_doomed (h : JoinMove c d m s env pc after) (hpc : m.call s = some pc) {x : Int}
    {failing : Pc} (hx : m.call x = some failing) (hd : failing.doomed) : Phase c d after := by
  by_cases hxs : x = s
  · subst hxs
    rw [hpc] at hx
    cases hx
    obtain ⟨next, hn, hd'⟩ := h.doomed hd
    exact .doomed x next hn hd'
  · exact .doomed x failing ((h.other hxs).trans hx) hd

-- The first check decides in which phase the calls go on.
theorem Phase.step_ready (hv : m.Ready (c ++ d)) (h : JoinMove c d m s env pc after)
    (hpc : m.call s = some pc) : Phase c d after := by
  cases hv.idle s pc hpc
  cases h with
  | checked ret hs =>
      have hcalls : ∀ x pc, (m.goto s (.lookup ret)).call x = some pc →
          pc = .check ∨ x = s ∧ pc = .lookup ret := by
        intro x pc hx
        rw [Joins.call_goto] at hx
        split at hx
        · rename_i hxs
          exact .inr ⟨hxs, (Option.some.inj hx).symm⟩
        · exact .inl (hv.idle x pc hx)
      rcases AdapterServer.checkStatus_cases hs with rfl | rfl | rfl | rfl
      · exact .doomed s (.lookup 100) (by simp) (.inl rfl)
      · exact .doomed s (.lookup 101) (by simp) (.inr rfl)
      · refine .starting hs ?_ (unique_of_self s ?_)
        · intro x pc hx
          rcases hcalls x pc hx with rfl | ⟨-, rfl⟩
          · exact .inl rfl
          · exact .inr (.inl rfl)
        · rintro x (hx | hx)
          · exact ((hcalls x _ hx).resolve_left (by simp)).1
          · rcases hcalls x _ hx with hx | ⟨-, hx⟩ <;> cases hx
      · cases hr : m.rooms[c ++ d]? with
        | none =>
            refine .started hs hr ?_ ?_ ?_
            · intro x pc hx
              rcases hcalls x pc hx with rfl | ⟨-, rfl⟩
              · exact .inl rfl
              · exact .inr (.inl rfl)
            · rintro x y (⟨token, hx⟩ | ⟨p, resp, hx⟩) -
              · rcases hcalls x _ hx with hx | ⟨-, hx⟩ <;> cases hx
              · rcases hcalls x _ hx with hx | ⟨-, hx⟩ <;> cases hx
            · intro x p resp hx
              rcases hcalls x _ hx with hx | ⟨-, hx⟩ <;> cases hx
        | some p =>
            obtain ⟨room, hp⟩ := hv.live p hr
            refine .playing hs p room hr hp ?_
            intro x pc hx
            rcases hcalls x pc hx with rfl | ⟨-, rfl⟩
            · trivial
            · rfl

-- The start has succeeded, and every other call is still to check.
theorem Phase.of_started (hs : AdapterServer.checkStatus m.server c d = some 102)
    (hret : (AdapterServer.notifyStartPush m.server c d env.start).1.ret = 0)
    (hr : m.rooms[c ++ d]? = none)
    (hother : ∀ x next, x ≠ s → m.call x = some next → next = .check) :
    Phase c d (Joins.goto { m with server := (AdapterServer.notifyStartPush m.server c d env.start).2.1 }
      s (.create (AdapterServer.notifyStartPush m.server c d env.start).1.token)) := by
  refine .started (playing_of_start hs hret) hr ?_ (unique_of_self s ?_) ?_
  · intro x next hx
    by_cases hxs : x = s
    · exact .inr (.inr (.inl ⟨_, by simp [hxs]; rfl⟩))
    · rw [Joins.call_goto, if_neg hxs] at hx
      exact .inl (hother x next hxs hx)
  · intro x hx
    by_contra hxs
    simp only [Joins.owner, Joins.call_goto, if_neg hxs] at hx
    rcases hx with ⟨token, hx⟩ | ⟨p, resp, hx⟩
    · cases hother x _ hxs hx
    · cases hother x _ hxs hx
  · intro x p resp hx
    rw [Joins.call_goto] at hx
    split at hx
    · cases hx
    · rename_i hxs
      cases hother x _ hxs hx

theorem Phase.step_starting (hs : AdapterServer.checkStatus m.server c d = some 102)
    (hpcs : ∀ s pc, m.call s = some pc →
      pc = .check ∨ pc = .lookup 102 ∨ pc = .start ∧ m.rooms[c ++ d]? = none)
    (hone : ∀ s s', m.starting s → m.starting s' → s = s')
    (hguard : pc = .check → ∀ x, ¬ m.starting x)
    (h : JoinMove c d m s env pc after) (hpc : m.call s = some pc) : Phase c d after := by
  rcases hpcs s pc hpc with rfl | rfl | ⟨rfl, hr⟩
  · cases h with
    | checked ret hs' =>
        rw [hs] at hs'
        cases hs'
        refine .starting hs ?_ (unique_of_self s ?_)
        · intro x next hx
          rw [Joins.call_goto] at hx
          split at hx
          · exact .inr (.inl (Option.some.inj hx).symm)
          · exact hpcs x next hx
        · intro x hx
          by_contra hxs
          simp only [Joins.starting, Joins.call_goto, if_neg hxs] at hx
          exact hguard rfl x hx
  · cases h with
    | offline ret hret => simp at hret
    | deleted =>
        have hold : ∀ x, ((m.delete (c ++ d)).goto s .start).starting x → m.starting x := by
          intro x hx
          by_cases hxs : x = s
          · exact .inl (hxs ▸ hpc)
          · simpa [Joins.starting, hxs] using hx
        refine .starting (by simpa using hs) ?_ fun x y hx hy => hone x y (hold x hx) (hold y hy)
        intro x next hx
        rw [Joins.call_goto, Joins.call_delete] at hx
        split at hx
        · exact .inr (.inr ⟨(Option.some.inj hx).symm, by simp⟩)
        · rcases hpcs x next hx with hp | hp | ⟨hp, -⟩
          · exact .inl hp
          · exact .inr (.inl hp)
          · exact .inr (.inr ⟨hp, by simp⟩)
    | unexpected ret h102 hr => exact absurd rfl h102
  · cases h with
    | failed hret => exact .doomed s _ (by simp; rfl) (by simp [Pc.doomed, failReply])
    | started hret =>
        -- every other call is still to check
        have hother : ∀ x next, x ≠ s → m.call x = some next → next = .check := by
          intro x next hxs hx
          rcases hpcs x next hx with hp | rfl | ⟨rfl, -⟩
          · exact hp
          · exact absurd (hone x s (.inl hx) (.inr hpc)) hxs
          · exact absurd (hone x s (.inr hx) (.inr hpc)) hxs
        exact .of_started hs hret hr hother

-- A call that checks the device sees it playing.
theorem Phase.started_checked (hs : AdapterServer.checkStatus m.server c d = some 200)
    (hr : m.rooms[c ++ d]? = none)
    (hpcs : ∀ s pc, m.call s = some pc → pc = .check ∨ pc = .lookup 200 ∨ m.owner s)
    (hone : ∀ s s', m.owner s → m.owner s' → s = s')
    (hstore : ∀ s p resp, m.call s = some (.store p resp) →
      ∃ room : LiveRoom, m.heap[p]? = some (some room) ∧ s ∈ room.users) :
    Phase c d (m.goto s (.lookup 200)) := by
  have howner : ∀ x, (m.goto s (.lookup 200)).owner x → m.owner x := by
    intro x hx
    by_cases hxs : x = s
    · simp [Joins.owner, hxs] at hx
    · simpa [Joins.owner, hxs] using hx
  refine .started hs hr ?_ (fun x y hx hy => hone x y (howner x hx) (howner y hy)) ?_
  · intro x next hx
    by_cases hxs : x = s
    · rw [Joins.call_goto, if_pos hxs] at hx
      exact .inr (.inl (Option.some.inj hx).symm)
    · rw [Joins.call_goto, if_neg hxs] at hx
      rcases hpcs x next hx with hp | hp | hp
      · exact .inl hp
      · exact .inr (.inl hp)
      · exact .inr (.inr (by simpa [Joins.owner, hxs] using hp))
  · intro x p resp hx
    rw [Joins.call_goto] at hx
    split at hx
    · cases hx
    · exact hstore x p resp hx

-- The call that has started the device creates its room; the others have done nothing yet.
theorem Phase.started_created (hs : AdapterServer.checkStatus m.server c d = some 200)
    (hr : m.rooms[c ++ d]? = none) (token : String)
    (hother : ∀ x next, x ≠ s → m.call x = some next → next = .check ∨ next = .lookup 200) :
    Phase c d (m.create s c d token) := by
  refine .started hs hr ?_ (unique_of_self s ?_) ?_
  · intro x next hx
    by_cases hxs : x = s
    · subst hxs
      exact .inr (.inr (.inr ⟨_, _, (Joins.call_goto ..).trans (if_pos rfl)⟩))
    · simp only [Joins.create, Joins.call_goto, if_neg hxs] at hx
      rcases hother x next hxs hx with hp | hp
      · exact .inl hp
      · exact .inr (.inl hp)
  · intro x hx
    by_contra hxs
    simp only [Joins.owner, Joins.create, Joins.call_goto, if_neg hxs] at hx
    rcases hx with ⟨token, hx⟩ | ⟨p, resp, hx⟩
    · rcases hother x _ hxs hx with hp | hp <;> cases hp
    · rcases hother x _ hxs hx with hp | hp <;> cases hp
  · intro x p resp hx
    simp only [Joins.create, Joins.call_goto] at hx
    split at hx
    · rename_i hxs
      cases hx
      exact ⟨_, by simp [Joins.create]; rfl, by simp [hxs]⟩
    · rename_i hxs
      rcases hother x _ hxs hx with hp | hp <;> cases hp

theorem Phase.step_started (hs : AdapterServer.checkStatus m.server c d = some 200)
    (hr : m.rooms[c ++ d]? = none)
    (hpcs : ∀ s pc, m.call s = some pc → pc = .check ∨ pc = .lookup 200 ∨ m.owner s)
    (hone : ∀ s s', m.owner s → m.owner s' → s = s')
    (hstore : ∀ s p resp, m.call s = some (.store p resp) →
      ∃ room : LiveRoom, m.heap[p]? = some (some room) ∧ s ∈ room.users)
    (h : JoinMove c d m s env pc after) (hpc : m.call s = some pc) : Phase c d after := by
  rcases hpcs s pc hpc with rfl | rfl | howner
  · cases h with
    | checked ret hs' =>
        rw [hs] at hs'
        cases hs'
        exact .started_checked hs hr hpcs hone hstore
  · cases h with
    | offline ret hret => simp at hret
    | found p hr' =>
        rw [hr] at hr'
        cases hr'
    | unexpected ret h102 hr =>
        exact .doomed s _ (by simp; rfl) (by simp [Pc.doomed, unexpectedReply])
  · -- the call that has started the device goes on to its room
    have hother : ∀ x next, x ≠ s → m.call x = some next → next = .check ∨ next = .lookup 200 := by
      intro x next hxs hx
      rcases hpcs x next hx with hp | hp | hp
      · exact .inl hp
      · exact .inr hp
      · exact absurd (hone x s hp howner) hxs
    rcases howner with ⟨token, hc⟩ | ⟨p, resp, hc⟩
    · rw [hc] at hpc
      cases hpc
      cases h with
      | created token => exact .started_created hs hr token hother
    · rw [hc] at hpc
      cases hpc
      cases h with
      | stored p resp =>
          obtain ⟨room, hp, hmem⟩ := hstore s p resp hc
          refine .playing hs p room (by simp) hp ?_
          intro x next hx
          rw [Joins.call_goto] at hx
          split at hx
          · rename_i hxs
            cases hx
            exact hxs ▸ hmem
          · rename_i hxs
            rcases hother x next hxs hx with rfl | rfl
            · trivial
            · rfl

theorem Pc.inRoom.mono {p : Nat} {room room' : LiveRoom} (h : pc.inRoom p room s)
    (husers : s ∈ room.users → s ∈ room'.users) : pc.inRoom p room' s := by
  cases pc with
  | check => trivial
  | lookup ret => exact h
  | start => exact h
  | create token => exact h
  | store q resp => exact h
  | found q => exact h
  | joined q count => exact ⟨h.1, husers h.2⟩
  | reply resp => exact h
  | accept resp => exact husers h
  | done code => exact husers h

theorem Phase.step_playing (hs : AdapterServer.checkStatus m.server c d = some 200) {p : Nat}
    {room : LiveRoom} (hr : m.rooms[c ++ d]? = some p) (hp : m.heap[p]? = some (some room))
    (hpcs : ∀ s pc, m.call s = some pc → pc.inRoom p room s)
    (h : JoinMove c d m s env pc after) (hpc : m.call s = some pc) : Phase c d after := by
  -- a move that leaves the room as it is and takes the call to a point that fits
  have hgoto : ∀ next : Pc, next.inRoom p room s → ∀ x pc, (m.goto s next).call x = some pc →
      pc.inRoom p room x := by
    intro next hnext x pc hx
    rw [Joins.call_goto] at hx
    split at hx
    · rename_i hxs
      cases hx
      exact hxs ▸ hnext
    · exact hpcs x pc hx
  have hin := hpcs s pc hpc
  cases h with
  | checked ret hs' =>
      rw [hs] at hs'
      cases hs'
      exact .playing hs p room hr hp (hgoto (.lookup 200) rfl)
  | offline ret hret =>
      have h200 : ret = 200 := hin
      rcases hret with hret | hret <;> omega
  | deleted =>
      have h200 : (102 : Int) = 200 := hin
      omega
  | found q hq =>
      rw [hr] at hq
      cases hq
      exact .playing hs p room hr hp (hgoto (.found p) rfl)
  | unexpected ret h102 hnone =>
      rw [hr] at hnone
      cases hnone hin
  | failed hret => exact hin.elim
  | started hret => exact hin.elim
  | created token => exact hin.elim
  | stored q resp => exact hin.elim
  | joined q room' hq =>
      have hqp : q = p := hin
      subst hqp
      rw [hp] at hq
      cases hq
      have hlt : q < m.heap.length := (List.getElem?_eq_some_iff.mp hp).1
      refine .playing hs q (room.join s) hr (by simp [hlt]) ?_
      intro x pc hx
      rw [Joins.call_goto] at hx
      split at hx
      · rename_i hxs
        cases hx
        exact ⟨rfl, by simp [hxs]⟩
      · exact (hpcs x pc hx).mono fun hm => (LiveRoom.mem_join _ _ _).mpr (.inl hm)
  | read q count room' hq => exact .playing hs p room hr hp (hgoto (.accept _) hin.2)
  | replied resp connections => exact hin.elim
  | accepted resp connections => exact .playing hs p room hr hp (hgoto (.done resp.code) hin)

theorem Phase.step (hv : Phase c d m) (hguard : oneStarter c d [] m (s, env))
    (h : JoinMove c d m s env pc after) (hpc : m.call s = some pc) : Phase c d after := by
  cases hv with
  | ready hv => exact step_ready hv h hpc
  | doomed x failing hx hd => exact step_doomed h hpc hx hd
  | starting hs hpcs hone =>
      exact step_starting hs hpcs hone (fun he => hguard (he ▸ hpc) hs) h hpc
  | started hs hr hpcs hone hstore => exact step_started hs hr hpcs hone hstore h hpc
  | playing hs p room hr hp hpcs => exact step_playing hs hr hp hpcs h hpc

end VideoAdapter.Wss
