import VideoAdapter.Wss.Calls.Reaper

namespace VideoAdapter.Wss

open Adapter Lib
open Service (RequestEnv SweepEnv)

-- The events that take a viewer out of the room of a key.
def CallEvent.leaves (s : Int) (key : String) : CallEvent → Prop
  | .quit x c d => x = s ∧ c ++ d = key
  | .leave x roomid _ => x = s ∧ roomid = key
  | _ => False

-- The room of the key is not taken off `rooms_`, and the viewer stays connected and does not
-- leave it.
structure Stays (s : Int) (key : String) (m : Mngr) (event : CallEvent) : Prop where
  takes : m.takes event ≠ some key
  connected : m.connections.registered s = true
  remains : ¬ event.leaves s key

def stays (s : Int) (key : String) (_ : CallHistory) (m : Mngr) (event : CallEvent) : Prop :=
  Stays s key m event

-- A message with code 101 has been put into the viewer's buffer.
def Heard (s : Int) (history : CallHistory) : Prop :=
  ∃ data : Reply, data.code = 101 ∧ ∃ record ∈ history, .reply s data ∈ record.2.out

-- A call of `NotifyHls` for the room is through.
def Mngr.Notified (m : Mngr) (p : Nat) : Prop :=
  ∃ (j : Nat) (token : String), m.calls[j]? = some (Call.hls token (.done (some p)))

-- A join of the viewer goes on to the stored room: it is among the users before it reads the
-- flag, and if it has read the flag as not ready, then no notification is through yet that
-- the viewer has not heard.
def Pc.follows (p : Nat) (users : List Int) (s : Int) (heard notified : Prop) : Pc → Prop
  | .check => True
  | .lookup ret => ret = 100 ∨ ret = 101 ∨ ret = 102 ∨ ret = 200
  | .found q => q = p
  | .joined q _ => q = p ∧ s ∈ users
  | .accept resp => s ∈ users ∧ (resp.code = 101 ∨ resp.code = 102 ∧ (notified → heard))
  | .done code => s ∈ users ∧ (code = 101 ∧ heard ∨ code = 102 ∧ (notified → heard))
  | _ => False

-- From the write of the flag on.
def HlsPc.announced (p : Nat) : HlsPc → Prop
  | .size q => q = p
  | .broadcast q _ => q = p
  | .done q => q = some p
  | _ => False

def QuitPc.misses (p : Nat) : QuitPc → Prop
  | .found q => q ≠ p
  | _ => True

structure Watched (s : Int) (c d : String) (p : Nat) (room : LiveRoom) (history : CallHistory)
    (m : Mngr) : Prop where
  sound : m.Sound
  stored : m.rooms[c ++ d]? = some p
  live : m.room p = some room
  joins : ∀ (i : Nat) (pc : Pc), m.calls[i]? = some (Call.join s c d pc) →
    pc.follows p room.users s (Heard s history) (m.Notified p)
  ready : ∀ (j : Nat) (token : String) (pc : HlsPc), m.calls[j]? = some (Call.hls token pc) →
    pc.announced p → room.rdy = true
  quits : ∀ (i : Nat) (x y : String) (pc : QuitPc), m.calls[i]? = some (Call.quit s x y pc) →
    x ++ y ≠ c ++ d ∧ pc.misses p

variable {m base after : Mngr} {i j : Nat} {call call' : Call} {s : Int} {c d : String} {p : Nat}
  {room last : LiveRoom} {event : CallEvent} {shown : Shown} {out : List Output}
  {history : CallHistory} {pc : Pc} {heard heard' notified notified' : Prop} {users users' : List Int}

-- The viewer stays in the room, and the flag stays set.
structure Grows (s : Int) (room last : LiveRoom) : Prop where
  users : s ∈ room.users → s ∈ last.users
  rdy : room.rdy = true → last.rdy = true

theorem Grows.refl (s : Int) (room : LiveRoom) : Grows s room room := ⟨id, id⟩

theorem grows_join (s x : Int) (room : LiveRoom) : Grows s room (room.join x) :=
  ⟨fun h => by simp [h], fun h => by simp [h]⟩

theorem quit_rdy (room : LiveRoom) (x : Int) (tick : UInt64) : (room.quit x tick).rdy = room.rdy := by
  unfold LiveRoom.quit
  split <;> rfl

theorem grows_quit {x : Int} (hne : s ≠ x) (room : LiveRoom) (tick : UInt64) :
    Grows s room (room.quit x tick) :=
  ⟨LiveRoom.mem_quit_of_ne tick hne, fun h => by rwa [quit_rdy]⟩

-- A write to any room.
theorem grows_write {q : Nat} {old : LiveRoom} (hp : m.room p = some room) (hq : m.room q = some old)
    (hgrows : q = p → Grows s old last) :
    ∃ next, (m.write q last).room p = some next ∧ Grows s room next := by
  rw [room_write hq]
  split
  · rename_i he
    subst he
    rw [hp] at hq
    cases hq
    exact ⟨last, rfl, hgrows rfl⟩
  · exact ⟨room, hp, .refl s room⟩

theorem Pc.follows.mono (h : pc.follows p users s heard notified)
    (husers : s ∈ users → s ∈ users') (hheard : heard → heard')
    (hnotified : s ∈ users → notified' → heard' ∨ notified) :
    pc.follows p users' s heard' notified' := by
  cases pc with
  | check => trivial
  | lookup ret => exact h
  | found q => exact h
  | joined q count => exact ⟨h.1, husers h.2⟩
  | accept resp =>
      refine ⟨husers h.1, h.2.imp_right fun h2 => ⟨h2.1, fun hn => ?_⟩⟩
      rcases hnotified h.1 hn with hh | hn
      · exact hh
      · exact hheard (h2.2 hn)
  | done code =>
      refine ⟨husers h.1, ?_⟩
      rcases h.2 with ⟨hcode, hh⟩ | ⟨hcode, hlater⟩
      · exact .inl ⟨hcode, hheard hh⟩
      · refine .inr ⟨hcode, fun hn => ?_⟩
        rcases hnotified h.1 hn with hh | hn
        · exact hh
        · exact hheard (hlater hn)
  | start => exact h
  | create token => exact h
  | store q resp => exact h
  | reply resp => exact h

theorem Heard.cons (h : Heard s history) (record : CallEvent × Shown) :
    Heard s (record :: history) := by
  obtain ⟨data, hcode, old, hm, hr⟩ := h
  exact ⟨data, hcode, old, List.mem_cons_of_mem _ hm, hr⟩

theorem heard_now {data : Reply} (hcode : data.code = 101) (h : .reply s data ∈ shown.out) :
    Heard s ((event, shown) :: history) :=
  ⟨data, hcode, _, List.mem_cons_self, h⟩

-- A step of a call that does not take the room off, and is not the viewer's own quit.
theorem Move.room_kept (hmove : Move m call base call' out) (hsound : m.Sound)
    (hstored : m.rooms[c ++ d]? = some p) (hlive : m.room p = some room)
    (htakes : call.takes ≠ some (c ++ d))
    (hquit : ∀ x y q, call = .quit s x y (.found q) → q ≠ p) :
    base.rooms[c ++ d]? = some p ∧ ∃ last, base.room p = some last ∧ Grows s room last := by
  have hsame : m.rooms[c ++ d]? = some p ∧ ∃ last, m.room p = some last ∧ Grows s room last :=
    ⟨hstored, room, hlive, .refl s room⟩
  have hdelete : ∀ key, call.takes = some key →
      (m.delete key).rooms[c ++ d]? = some p ∧
        ∃ last, (m.delete key).room p = some last ∧ Grows s room last := by
    intro key hkey
    have hne : c ++ d ≠ key := fun he => htakes (he ▸ hkey)
    refine ⟨by rw [rooms_delete, if_neg hne, hstored], room, ?_, .refl s room⟩
    rw [room_delete fun he => hne (hsound.inj _ _ p hstored he), hlive]
  cases hmove with
  | joinChecked s' c' d' ret _ hret => exact hsame
  | joinRefused s' c' d' ret pc _ hret hpc => exact hdelete _ (if_pos hret)
  | joinFound s' c' d' q _ hr => exact hsame
  | joinUnexpected s' c' d' ret _ hret hr => exact hsame
  | joinStarted s' c' d' server pc _ hpc => exact hsame
  | joinCreated s' c' d' token =>
      refine ⟨hstored, room, ?_, .refl s room⟩
      rw [room_append, if_neg (Nat.ne_of_lt (hsound.lt hstored)), hlive]
  | joinStored s' c' d' q resp =>
      have hne : c ++ d ≠ c' ++ d' := fun he => htakes (he ▸ rfl)
      refine ⟨?_, room, hlive, .refl s room⟩
      rw [Std.ExtTreeMap.getElem?_insert]
      simpa [Ne.symm hne] using hstored
  | joinJoined s' c' d' q old _ hq =>
      exact ⟨hstored, grows_write hlive hq fun _ => grows_join s s' old⟩
  | joinRead s' c' d' q count old _ hq => exact hsame
  | joinReplied s' c' d' resp connections => exact hsame
  | joinAccepted s' c' d' resp connections => exact hsame
  | quitChecked s' c' d' ret => exact hsame
  | quitFound s' c' d' q _ hr => exact hsame
  | quitAbsent s' c' d' => exact hsame
  | quitRefused s' c' d' ret _ hret => exact hdelete _ (if_neg hret)
  | quitQuit s' c' d' q old tick _ hq =>
      refine ⟨hstored, grows_write hlive hq fun he => grows_quit ?_ old tick⟩
      rintro rfl
      exact hquit c' d' q rfl he
  | quitCleared s' c' d' connections => exact hsame
  | quitReplied s' c' d' connections => exact hsame
  | hlsFound token q _ hq => exact hsame
  | hlsAbsent token _ hq => exact hsame
  | hlsReady token q old _ hq => exact ⟨hstored, grows_write hlive hq fun _ => ⟨id, fun _ => rfl⟩⟩
  | hlsSized token q old _ hq => exact hsame
  | hlsBroadcast token q isize old connections _ hq => exact hsame

-- The next step of the viewer's own join.
theorem Move.follows {pc' : Pc} (hmove : Move m (.join s c d pc) base (.join s c d pc') out)
    (h : pc.follows p room.users s heard notified) (hstored : m.rooms[c ++ d]? = some p)
    (hlive : m.room p = some room) (hlast : base.room p = some last) (hgrows : Grows s room last)
    (htakes : Call.takes (.join s c d pc) ≠ some (c ++ d))
    (hready : notified → room.rdy = true) (hheard : heard → heard')
    (hnow : ∀ data : Reply, data.code = 101 → .reply s data ∈ out → heard')
    (hreg : m.connections.registered s = true) :
    pc'.follows p last.users s heard' notified := by
  cases hmove with
  | joinChecked _ _ _ ret _ hret => exact hret
  | joinRefused _ _ _ ret _ _ hret hpc => exact absurd (if_pos hret) htakes
  | joinFound _ _ _ q _ hr => exact Option.some.inj (hr.symm.trans hstored)
  | joinUnexpected _ _ _ ret _ hret hr =>
      have h200 : ret = 200 := by
        have hset : ret = 100 ∨ ret = 101 ∨ ret = 102 ∨ ret = 200 := h
        omega
      rw [hr h200] at hstored
      cases hstored
  | joinStarted _ _ _ server _ _ hpc => exact h.elim
  | joinCreated _ _ _ token => exact h.elim
  | joinStored _ _ _ q resp => exact h.elim
  | joinJoined _ _ _ q old _ hq =>
      have he : q = p := h
      subst he
      rw [room_write hq, if_pos rfl] at hlast
      cases hlast
      exact ⟨rfl, by simp⟩
  | joinRead _ _ _ q count old _ hq =>
      obtain ⟨rfl, hm⟩ : q = p ∧ s ∈ room.users := h
      rw [hlive] at hq
      cases hq
      refine ⟨hgrows.users hm, ?_⟩
      cases hrdy : room.rdy with
      | true => exact .inl rfl
      | false => exact .inr ⟨rfl, fun hn => by simp [hready hn] at hrdy⟩
  | joinReplied _ _ _ resp connections => exact h.elim
  | joinAccepted _ _ _ resp connections _ hout =>
      refine ⟨hgrows.users h.1, ?_⟩
      rcases h.2 with h101 | ⟨h102, hlater⟩
      · exact .inl ⟨h101, hnow resp h101 (hout hreg)⟩
      · exact .inr ⟨h102, fun hn => hheard (hlater hn)⟩

-- Which calls there are after one of them has moved.
theorem getElem?_goto {x : Call} (hc : m.calls[i]? = some call) (hbase : base.calls = m.calls)
    (h : (base.goto i call').calls[j]? = some x) :
    (j = i ∧ x = call') ∨ (j ≠ i ∧ m.calls[j]? = some x) := by
  have hget : (base.goto i call').calls[j]? = if j = i then some call' else m.calls[j]? := by
    simpa using bind_goto some hc hbase call' j
  rw [h] at hget
  split at hget
  · rename_i hj
    exact .inl ⟨hj, Option.some.inj hget⟩
  · rename_i hj
    exact .inr ⟨hj, hget.symm⟩

theorem getElem?_append_one {x : Call} {calls : List Call} (h : (calls ++ [call])[j]? = some x) :
    calls[j]? = some x ∨ x = call := by
  rw [List.getElem?_append] at h
  split at h
  · exact .inl h
  · exact .inr (List.mem_singleton.mp (List.mem_of_getElem? h))

-- A notification that gets through reaches a viewer in the room.
theorem Move.reaches (hmove : Move m call base call' shown.out) (hc : m.calls[i]? = some call)
    (hlive : m.room p = some room) (hreg : m.connections.registered s = true)
    (hm : s ∈ room.users) (h : (base.goto i call').Notified p) :
    Heard s ((event, shown) :: history) ∨ m.Notified p := by
  obtain ⟨j, token, hj⟩ := h
  rcases getElem?_goto hc hmove.calls hj with ⟨-, rfl⟩ | ⟨-, hj⟩
  · cases hmove with
    | hlsBroadcast _ _ isize old connections _ hp hout =>
        rw [hlive] at hp
        cases hp
        exact .inl (heard_now rfl (hout s hm hreg))
  · exact .inr ⟨j, token, hj⟩

theorem Move.of_join (hmove : Move m call base (.join s c d pc) out) :
    ∃ old, call = .join s c d old := by
  cases hmove <;> exact ⟨_, rfl⟩

theorem Move.of_hls {token : String} {pc : HlsPc} (hmove : Move m call base (.hls token pc) out) :
    ∃ old, call = .hls token old := by
  cases hmove <;> exact ⟨_, rfl⟩

theorem Move.of_quit {x y : String} {pc : QuitPc} (hmove : Move m call base (.quit s x y pc) out) :
    ∃ old, call = .quit s x y old := by
  cases hmove <;> exact ⟨_, rfl⟩

-- A move of a call that is no `NotifyHls` completes none.
theorem Move.notified_before (hmove : Move m call base (.join s c d pc) out)
    (hc : m.calls[i]? = some call) (h : (base.goto i (.join s c d pc)).Notified p) :
    m.Notified p := by
  obtain ⟨j, token, hj⟩ := h
  rcases getElem?_goto hc hmove.calls hj with ⟨-, he⟩ | ⟨-, hj⟩
  · cases he
  · exact ⟨j, token, hj⟩

-- The moves of a `NotifyHls` call set the flag before it is announced.
theorem Move.announced {token : String} {pc pc' : HlsPc}
    (hmove : Move m (.hls token pc) base (.hls token pc') out) (ha : pc'.announced p) :
    pc.announced p ∨ ∃ old, base.room p = some old ∧ old.rdy = true := by
  cases hmove with
  | hlsFound _ q _ hq => exact ha.elim
  | hlsAbsent _ _ hq => cases ha
  | hlsReady _ q old _ hq =>
      have he : q = p := ha
      subst he
      exact .inr ⟨_, by rw [room_write hq, if_pos rfl], rfl⟩
  | hlsSized _ q old _ hq => exact .inl ha
  | hlsBroadcast _ q isize old connections _ hq => exact .inl (Option.some.inj ha)

theorem Watched.advance {env : RequestEnv} (h : Watched s c d p room history m)
    (hguard : Stays s (c ++ d) m (.advance i env)) (hc : m.calls[i]? = some call)
    (hmove : Move m call base call' shown.out) (hsound : (base.goto i call').Sound) :
    ∃ last, Watched s c d p last ((.advance i env, shown) :: history) (base.goto i call') := by
  have hreg := hguard.connected
  have htake : call.takes ≠ some (c ++ d) := by simpa [Mngr.takes, hc] using hguard.takes
  have hquit : ∀ x y q, call = .quit s x y (.found q) → q ≠ p := by
    rintro x y q rfl
    exact (h.quits i x y _ hc).2
  obtain ⟨hstored, last, hlast, hgrows⟩ := hmove.room_kept h.sound h.stored h.live htake hquit
  refine ⟨last, hsound, hstored, hlast, ?_, ?_, ?_⟩
  · intro j pc hj
    rcases getElem?_goto hc hmove.calls hj with ⟨-, rfl⟩ | ⟨-, hj⟩
    · obtain ⟨old, rfl⟩ := hmove.of_join
      have hready : m.Notified p → room.rdy = true := by
        rintro ⟨j, token, hj⟩
        exact h.ready j token _ hj rfl
      have hnext := hmove.follows (h.joins i old hc) h.stored h.live hlast hgrows htake hready
        (fun hh => hh.cons (.advance i env, shown)) (fun data hcode hr => heard_now hcode hr) hreg
      exact hnext.mono id id fun _ hn => .inr (hmove.notified_before hc hn)
    · refine (h.joins j pc hj).mono hgrows.users (fun hh => hh.cons _) fun hm hn => ?_
      exact hmove.reaches hc h.live hreg hm hn
  · intro j token pc hj ha
    rcases getElem?_goto hc hmove.calls hj with ⟨-, rfl⟩ | ⟨-, hj⟩
    · obtain ⟨old, rfl⟩ := hmove.of_hls
      rcases hmove.announced ha with ha | ⟨next, hnext, hrdy⟩
      · exact hgrows.rdy (h.ready i token old hc ha)
      · rw [hlast] at hnext
        cases hnext
        exact hrdy
    · exact hgrows.rdy (h.ready j token pc hj ha)
  · intro j x y pc hj
    rcases getElem?_goto hc hmove.calls hj with ⟨-, rfl⟩ | ⟨-, hj⟩
    · obtain ⟨old, rfl⟩ := hmove.of_quit
      have hne := (h.quits i x y old hc).1
      refine ⟨hne, ?_⟩
      cases hmove with
      | quitFound _ _ _ q _ hr => exact fun he => hne (h.sound.inj _ _ q hr (he ▸ h.stored))
      | quitChecked _ _ _ ret => trivial
      | quitAbsent _ _ _ => trivial
      | quitRefused _ _ _ ret _ hret => trivial
      | quitQuit _ _ _ q old tick _ hq => trivial
      | quitCleared _ _ _ connections => trivial
      | quitReplied _ _ _ connections => trivial
    · exact h.quits j x y pc hj

-- An event that moves no call.
theorem Watched.calls_kept (h : Watched s c d p room history m) (hcalls : after.calls = m.calls)
    (hsound : after.Sound) (hstored : after.rooms[c ++ d]? = some p)
    (hlast : after.room p = some last) (hgrows : Grows s room last) :
    Watched s c d p last ((event, shown) :: history) after := by
  refine ⟨hsound, hstored, hlast, ?_, ?_, ?_⟩
  · intro j pc hj
    rw [hcalls] at hj
    refine (h.joins j pc hj).mono hgrows.users (fun hh => hh.cons _) fun _ hn => .inr ?_
    unfold Mngr.Notified at hn ⊢
    rwa [hcalls] at hn
  · intro j token pc hj ha
    rw [hcalls] at hj
    exact hgrows.rdy (h.ready j token pc hj ha)
  · intro j x y pc hj
    rw [hcalls] at hj
    exact h.quits j x y pc hj

theorem Watched.step (h : Watched s c d p room history m)
    (hguard : Stays s (c ++ d) m event) (hs : callStep m event = some (after, shown)) :
    ∃ last, Watched s c d p last ((event, shown) :: history) after := by
  have hsound := h.sound.step hs
  cases callStep_move hs with
  | began event call hb =>
      refine ⟨room, hsound, h.stored, h.live, ?_, ?_, ?_⟩
      · intro j pc hj
        rcases getElem?_append_one hj with hj | rfl
        · refine (h.joins j pc hj).mono id (fun hh => hh.cons _) ?_
          rintro - ⟨k, token, hk⟩
          rcases getElem?_append_one hk with hk | rfl
          · exact .inr ⟨k, token, hk⟩
          · cases event <;> cases hb
        · cases event <;> cases hb
          trivial
      · intro j token pc hj ha
        rcases getElem?_append_one hj with hj | rfl
        · exact h.ready j token pc hj ha
        · cases event <;> cases hb
          exact ha.elim
      · intro j x y pc hj
        rcases getElem?_append_one hj with hj | rfl
        · exact h.quits j x y pc hj
        · cases event <;> cases hb
          exact ⟨fun he => hguard.remains ⟨rfl, he⟩, trivial⟩
  | advanced i env call call' base _ hc hmove _ => exact h.advance hguard hc hmove hsound
  | reaped env key rest server out hsweeper =>
      have htakes : m.takes (.sweep env) = some key := by simp [Mngr.takes, hsweeper]
      have hne : c ++ d ≠ key := fun he => hguard.takes (he ▸ htakes)
      refine ⟨room, h.calls_kept rfl hsound ?_ ?_ (.refl s room)⟩
      · exact (rooms_delete m key (c ++ d)).trans (by rw [if_neg hne, h.stored])
      · exact (room_delete fun he => hne (h.sound.inj _ _ p h.stored he)).trans h.live
  | left x roomid tick q old hr hq =>
      have hother : q = p → Grows s old (old.quit x tick) := by
        intro he
        refine grows_quit (fun hx => hguard.remains ⟨hx.symm, ?_⟩) old tick
        exact h.sound.inj _ _ q hr (he ▸ h.stored)
      obtain ⟨last, hlast, hgrows⟩ := grows_write h.live hq hother
      exact ⟨last, h.calls_kept rfl hsound h.stored hlast hgrows⟩
  | aside event connections server sweeper out htakes hb hstill =>
      exact ⟨room, h.calls_kept rfl hsound h.stored h.live (.refl s room)⟩

theorem Mngr.Settled.watched (h : m.Settled) (hstored : m.rooms[c ++ d]? = some p) (s : Int) :
    ∃ room, Watched s c d p room [] m := by
  obtain ⟨room, hroom⟩ := h.live _ p hstored
  refine ⟨room, h.sound, hstored, hroom, ?_, ?_, ?_⟩ <;> simp [h.calls]

theorem watched_of_run {start : Mngr} (hstart : start.Settled)
    (hstored : start.rooms[c ++ d]? = some p)
    (run : Run callStep (stays s (c ++ d)) start history m) :
    ∃ room, Watched s c d p room history m := by
  refine run.invariant (fun history m => ∃ room, Watched s c d p room history m)
    (hstart.watched hstored s) ?_
  rintro history before event after shown ⟨room, h⟩ hguard hs
  exact h.step hguard hs

-- No ready notification is missed: while the room stays, and the viewer stays connected and
-- in it, a join of the viewer for the camera and a `NotifyHls` for this room that are both
-- through have put a message with code 101 into the viewer's buffer, in whatever order their
-- steps were taken among those of all other calls.
theorem ready_not_missed {start : Mngr} {token : String} {code : Int} (hstart : start.Settled)
    (hstored : start.rooms[c ++ d]? = some p)
    (run : Run callStep (stays s (c ++ d)) start history m)
    (hjoin : m.calls[i]? = some (.join s c d (.done code)))
    (hhls : m.calls[j]? = some (.hls token (.done (some p)))) : Heard s history := by
  obtain ⟨room, h⟩ := watched_of_run hstart hstored run
  obtain ⟨-, ⟨-, hheard⟩ | ⟨-, hlater⟩⟩ := h.joins i _ hjoin
  · exact hheard
  · exact hlater ⟨j, token, hhls⟩

-- A test that is enough for the room and its viewer to stay.
def staysTest (s : Int) (key : String) (_ : CallHistory) (m : Mngr) (event : CallEvent) : Bool :=
  m.takes event ≠ some key && m.connections.registered s &&
    match event with
    | .quit x _ _ => x ≠ s
    | .leave x _ _ => x ≠ s
    | _ => true

theorem stays_of_staysTest (s : Int) (key : String) (history : CallHistory) (m : Mngr)
    (event : CallEvent) (h : staysTest s key history m event = true) :
    stays s key history m event := by
  simp only [staysTest, Bool.and_eq_true, decide_eq_true_eq] at h
  obtain ⟨⟨htakes, hreg⟩, hremains⟩ := h
  refine ⟨htakes, hreg, ?_⟩
  cases event <;> simp_all [CallEvent.leaves]

-- A camera that is playing, its room without viewers, and a connected socket.
def playingClient : CMSClient where
  fd := 7
  cmsid := "A"
  livecount := 0
  devlist := (∅ : DevList).insert "d" { pid := "d", state := 2 }
  msglist := []

def playingMngr : Mngr where
  connections := (∅ : Connections).insert 1 (some { socketid := 1 })
  server := ⟨[playingClient]⟩
  rooms := (∅ : Std.ExtTreeMap String Nat).insert "Ad" 0
  heap := [some { cmsid := "A", devid := "d", token := "t" }]
  calls := []
  sweeper := .idle

theorem playingMngr_rooms {k : String} {q : Nat} (h : playingMngr.rooms[k]? = some q) :
    k = "Ad" ∧ q = 0 := by
  simp only [playingMngr, Std.ExtTreeMap.getElem?_insert, Std.compare_eq_iff_eq] at h
  split at h
  · rename_i hk
    cases h
    exact ⟨hk.symm, rfl⟩
  · simp at h

theorem playingMngr_settled : playingMngr.Settled where
  calls := rfl
  live := by
    intro k q hq
    rw [(playingMngr_rooms hq).2]
    exact ⟨_, rfl⟩
  inj := by
    intro k k' q hq hq'
    rw [(playingMngr_rooms hq).1, (playingMngr_rooms hq').1]

-- The viewer reads the flag just before it is set, and is told by the broadcast.
theorem ready_not_missed_between :
    ∃ history m, Run callStep (stays 1 ("A" ++ "d")) playingMngr history m ∧
      m.calls = [.join 1 "A" "d" (.done 102), .hls "t" (.done (some 0))] ∧ Heard 1 history := by
  obtain ⟨history, m, run, ht⟩ := exists_run_of_ends callStep (stays 1 ("A" ++ "d"))
    playingMngr ([.join 1 "A" "d", .notifyHls "t"] ++ advanceCall 0 3 0 ++ advanceCall 1 1 0 ++
      advanceCall 0 1 0 ++ advanceCall 1 3 0 ++ advanceCall 0 1 0)
    (fun _ m => m.calls == [.join 1 "A" "d" (.done 102), .hls "t" (.done (some 0))])
    (guarded_of_passes (staysTest 1 ("A" ++ "d")) (stays_of_staysTest 1 ("A" ++ "d"))
      (by decide +kernel)) (by decide +kernel)
  have hcalls : m.calls = [.join 1 "A" "d" (.done 102), .hls "t" (.done (some 0))] := by
    simpa using ht
  refine ⟨history, m, run, hcalls, ?_⟩
  have hstored : playingMngr.rooms["A" ++ "d"]? = some 0 := by decide +kernel
  have hjoin : m.calls[0]? = some (.join 1 "A" "d" (.done 102)) := by rw [hcalls]; rfl
  have hhls : m.calls[1]? = some (.hls "t" (.done (some 0))) := by rw [hcalls]; rfl
  exact ready_not_missed playingMngr_settled hstored run hjoin hhls

end VideoAdapter.Wss
