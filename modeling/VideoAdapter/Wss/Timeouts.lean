import Mathlib.Data.List.Nodup
import VideoAdapter.Wss.NullEntries

namespace VideoAdapter.Wss

namespace Service

-- Where the loop of `CheckConnectionState` stands: the keys from the iterator on, and the calls of
-- `onTimeout` so far.
structure Pass where
  left : List Int
  w : Service
  calls : List Output := []

section Rounds

variable (cur : UInt64) (tick : Int → UInt64)

-- One round of the loop, which is over when no key is left. No result where it reads a null
-- pointer. The look at `keyValueMap["roomid"]` leaves an empty text under a name that was absent;
-- both read the same.
def checkRound (pass : Pass) : Option Pass :=
  match pass.left with
  | [] => some pass
  | key :: rest =>
      match pass.w.connections[key]? with
      | none => some { pass with left := rest }
      | some none => none
      | some (some c) =>
          let roomid := c.value "roomid"
          if cur - c.timestamp > 30 * 1000 ∧ roomid ≠ "" then
            let w := pass.w.quitRoom c.socketid roomid (tick c.socketid)
            let w := { w with connections := w.connections.insert key (some (c.setValue "roomid" "")) }
            some { pass with w, calls := pass.calls ++ [.timeout c.socketid roomid] }
          else some { pass with left := rest }

def checkRounds : Nat → Pass → Option Pass
  | 0, pass => some pass
  | n + 1, pass => (checkRound cur tick pass).bind (checkRounds n)

theorem checkRounds_add (m n : Nat) (pass : Pass) :
    checkRounds cur tick (m + n) pass = (checkRounds cur tick m pass).bind (checkRounds cur tick n) := by
  induction m generalizing pass with
  | zero => simp [checkRounds]
  | succ m ih =>
      rw [Nat.add_right_comm, checkRounds, checkRounds, Option.bind_assoc]
      exact congrArg _ (funext ih)

-- The room that a socket is to be taken out of.
def expired (w : Service) (s : Int) : Option String :=
  match w.connections[s]? with
  | some (some c) =>
      if cur - c.timestamp > 30 * 1000 ∧ c.value "roomid" ≠ "" then some (c.value "roomid") else none
  | _ => none

-- What the loop does about one key.
def expire (w : Service) (key : Int) : Service :=
  match w.expired cur key with
  | none => w
  | some roomid =>
      { w.quitRoom key roomid (tick key) with
        connections := w.connections.modify key (Option.map fun c => c.setValue "roomid" "") }

def calls (w : Service) (key : Int) : List Output :=
  ((w.expired cur key).map fun roomid => Output.timeout key roomid).toList

end Rounds

variable {cur : UInt64} {tick : Int → UInt64} {w : Service}

theorem expired_eq_some_iff {s : Int} {roomid : String} :
    w.expired cur s = some roomid ↔ ∃ c, w.connections[s]? = some (some c) ∧
      cur - c.timestamp > 30 * 1000 ∧ roomid ≠ "" ∧ c.value "roomid" = roomid := by
  unfold expired
  split
  · rename_i c hc
    split
    · rename_i hdue
      constructor
      · intro h
        cases h
        exact ⟨c, hc, hdue.1, hdue.2, rfl⟩
      · rintro ⟨c', hc', -, -, hroom⟩
        rw [hc] at hc'
        cases hc'
        rw [hroom]
    · rename_i hnot
      refine iff_of_false (by simp) ?_
      rintro ⟨c', hc', hold, hne, rfl⟩
      rw [hc] at hc'
      cases hc'
      exact hnot ⟨hold, hne⟩
  · rename_i hno
    refine iff_of_false (by simp) ?_
    rintro ⟨c, hc, -⟩
    exact hno c hc

theorem value_setValue_roomid (c : Connection) : (c.setValue "roomid" "").value "roomid" = "" := by
  simp [Connection.setValue, Connection.value]

theorem expire_connections (w : Service) (key s : Int) :
    (w.expire cur tick key).connections[s]? =
      if s = key ∧ (w.expired cur key).isSome then
        (w.connections[s]?).map (Option.map fun c => c.setValue "roomid" "")
      else w.connections[s]? := by
  unfold expire
  cases w.expired cur key with
  | none => simp
  | some roomid =>
      dsimp only
      rw [Std.ExtTreeMap.getElem?_modify]
      by_cases hs : s = key
      · subst hs
        simp
      · simp [hs, Ne.symm hs]

-- A socket that was taken out of its room is not due again.
theorem expired_expire (w : Service) (key s : Int) :
    (w.expire cur tick key).expired cur s = if s = key then none else w.expired cur s := by
  by_cases hs : s = key
  · subst hs
    rw [if_pos rfl]
    cases hexp : w.expired cur s with
    | none =>
        have hkeep : w.expire cur tick s = w := by
          unfold expire
          rw [hexp]
        rw [hkeep, hexp]
    | some roomid =>
        obtain ⟨c, hc, -⟩ := expired_eq_some_iff.mp hexp
        unfold expired
        rw [expire_connections, hexp, hc]
        simp [value_setValue_roomid]
  · unfold expired
    rw [expire_connections, if_neg (fun h => hs h.1), if_neg hs]

theorem noNull_expire (h : w.connections.NoNull) (key : Int) :
    (w.expire cur tick key).connections.NoNull := by
  intro s hs
  rw [expire_connections] at hs
  split at hs
  · obtain ⟨entry, he, hm⟩ := Option.map_eq_some_iff.mp hs
    cases entry with
    | none => exact h s he
    | some c => cases hm
  · exact h s hs

theorem keyed_expire (h : w.Keyed) (key : Int) : (w.expire cur tick key).Keyed := by
  intro s c hc
  rw [expire_connections] at hc
  split at hc
  · obtain ⟨entry, he, hm⟩ := Option.map_eq_some_iff.mp hc
    obtain ⟨c', rfl, rfl⟩ := Option.map_eq_some_iff.mp hm
    exact h s c' he
  · exact h s c hc

theorem checkRound_pass (hnull : w.connections.NoNull) {key : Int} (hexp : w.expired cur key = none)
    (rest : List Int) (out : List Output) :
    checkRound cur tick { left := key :: rest, w, calls := out } =
      some { left := rest, w, calls := out } := by
  unfold checkRound
  dsimp only
  split
  · rfl
  · rename_i hkey
    exact absurd hkey (hnull key)
  · rename_i c hkey
    rw [if_neg]
    rintro ⟨hold, hne⟩
    have hdue := expired_eq_some_iff.mpr ⟨c, hkey, hold, hne, rfl⟩
    rw [hexp] at hdue
    cases hdue

-- The iterator stays on an entry that is due.
theorem checkRound_due (hkeyed : w.Keyed) {key : Int} {roomid : String}
    (hexp : w.expired cur key = some roomid) (rest : List Int) (out : List Output) :
    checkRound cur tick { left := key :: rest, w, calls := out } =
      some { left := key :: rest, w := w.expire cur tick key, calls := out ++ [.timeout key roomid] } := by
  obtain ⟨c, hkey, hold, hne, rfl⟩ := expired_eq_some_iff.mp hexp
  have hid : c.socketid = key := hkeyed key c hkey
  have hmap : w.connections.insert key (some (c.setValue "roomid" "")) =
      w.connections.modify key (Option.map fun c => c.setValue "roomid" "") := by
    refine Std.ExtTreeMap.ext_getElem? fun {s} => ?_
    rw [Std.ExtTreeMap.getElem?_insert, Std.ExtTreeMap.getElem?_modify]
    split
    · rename_i hs
      obtain rfl : key = s := Std.LawfulEqCmp.eq_of_compare hs
      rw [hkey]
      rfl
    · rfl
  simp only [checkRound, hkey, expire, hexp, hid, quitRoom_connections, hmap]
  rw [if_pos ⟨hold, hne⟩]

-- An entry that is due takes two rounds, any other takes one.
theorem checkRounds_visit (hnull : w.connections.NoNull) (hkeyed : w.Keyed) (key : Int) (rest : List Int)
    (out : List Output) :
    ∃ n ≤ 2, checkRounds cur tick n { left := key :: rest, w, calls := out } =
      some { left := rest, w := w.expire cur tick key, calls := out ++ w.calls cur key } := by
  cases hexp : w.expired cur key with
  | none =>
      have hkeep : w.expire cur tick key = w := by
        unfold expire
        rw [hexp]
      refine ⟨1, by decide, ?_⟩
      simp only [checkRounds, checkRound_pass hnull hexp, Option.bind_some, hkeep, calls, hexp,
        Option.map_none, Option.toList_none, List.append_nil]
  | some roomid =>
      have hagain : (w.expire cur tick key).expired cur key = none := by
        rw [expired_expire, if_pos rfl]
      refine ⟨2, Nat.le_refl 2, ?_⟩
      simp only [checkRounds, checkRound_due hkeyed hexp, Option.bind_some,
        checkRound_pass (noNull_expire hnull key) hagain, calls, hexp, Option.map_some,
        Option.toList_some]

-- The whole loop: at most two rounds for each key, each key dealt with once.
theorem checkRounds_ends (keys : List Int) (hnodup : keys.Nodup) (hnull : w.connections.NoNull)
    (hkeyed : w.Keyed) (out : List Output) :
    ∃ n ≤ 2 * keys.length, checkRounds cur tick n { left := keys, w, calls := out } =
      some { left := [], w := keys.foldl (expire cur tick) w,
             calls := out ++ keys.flatMap (w.calls cur) } := by
  induction keys generalizing w out with
  | nil => exact ⟨0, by decide, by simp [checkRounds]⟩
  | cons key rest ih =>
      obtain ⟨hnot, hrest⟩ := List.nodup_cons.mp hnodup
      obtain ⟨m, hm, hvisit⟩ := @checkRounds_visit cur tick w hnull hkeyed key rest out
      obtain ⟨n, hn, hends⟩ := ih hrest (@noNull_expire cur tick w hnull key)
        (keyed_expire hkeyed key) (out ++ w.calls cur key)
      have hcalls : rest.flatMap ((w.expire cur tick key).calls cur) = rest.flatMap (w.calls cur) := by
        refine List.flatMap_congr fun s hs => ?_
        have hne : s ≠ key := fun h => hnot (h ▸ hs)
        simp only [calls, expired_expire, if_neg hne]
      refine ⟨m + n, by rw [List.length_cons]; omega, ?_⟩
      rw [checkRounds_add, hvisit, Option.bind_some, hends, hcalls, List.flatMap_cons, List.append_assoc,
        List.foldl_cons]

theorem foldl_expire_connections (keys : List Int) (hnodup : keys.Nodup) (w : Service) (s : Int) :
    (keys.foldl (expire cur tick) w).connections[s]? =
      if s ∈ keys ∧ (w.expired cur s).isSome then
        (w.connections[s]?).map (Option.map fun c => c.setValue "roomid" "")
      else w.connections[s]? := by
  induction keys generalizing w with
  | nil => simp
  | cons key rest ih =>
      obtain ⟨hnot, hrest⟩ := List.nodup_cons.mp hnodup
      rw [List.foldl_cons, ih hrest, expire_connections, expired_expire]
      by_cases hs : s = key
      · subst hs
        simp [hnot]
      · simp [hs]

theorem expire_rooms (w : Service) (key : Int) (k : String) :
    (w.expire cur tick key).rooms[k]? =
      if w.expired cur key = some k then (w.rooms[k]?).map fun room => room.quit key (tick key)
      else w.rooms[k]? := by
  unfold expire
  cases hexp : w.expired cur key with
  | none => simp
  | some roomid =>
      obtain ⟨-, -, -, hne, -⟩ := expired_eq_some_iff.mp hexp
      simp only [quitRoom, if_neg hne, Std.ExtTreeMap.getElem?_modify, Option.some.injEq,
        Std.LawfulEqCmp.compare_eq_iff_eq]
      split
      · rename_i hk
        rw [hk]
      · rfl

-- A room loses the sockets that named it, one after the other.
theorem foldl_expire_rooms (keys : List Int) (hnodup : keys.Nodup) (w : Service) (k : String) :
    (keys.foldl (expire cur tick) w).rooms[k]? = (w.rooms[k]?).map fun room =>
      (keys.filter fun s => w.expired cur s = some k).foldl (fun room s => room.quit s (tick s)) room := by
  induction keys generalizing w with
  | nil => simp
  | cons key rest ih =>
      obtain ⟨hnot, hrest⟩ := List.nodup_cons.mp hnodup
      have hfilter : (rest.filter fun s => (w.expire cur tick key).expired cur s = some k) =
          rest.filter fun s => w.expired cur s = some k := by
        refine List.filter_congr fun s hs => ?_
        have hne : s ≠ key := fun h => hnot (h ▸ hs)
        rw [expired_expire, if_neg hne]
      rw [List.foldl_cons, ih hrest, hfilter, expire_rooms]
      by_cases hexp : w.expired cur key = some k
      · rw [if_pos hexp, List.filter_cons_of_pos (by simpa using hexp), Option.map_map]
        rfl
      · rw [if_neg hexp, List.filter_cons_of_neg (by simpa using hexp)]

theorem expire_server (w : Service) (key : Int) : (w.expire cur tick key).server = w.server := by
  unfold expire quitRoom
  split
  · rfl
  · dsimp only
    split <;> rfl

theorem foldl_expire_server (keys : List Int) (w : Service) :
    (keys.foldl (expire cur tick) w).server = w.server := by
  induction keys generalizing w with
  | nil => rfl
  | cons key rest ih => rw [List.foldl_cons, ih, expire_server]

end Service

-- A room after several quits: who is left, and since when it is empty.
structure QuitBy (tick : Int → UInt64) (gone : Int → Prop) (room room' : LiveRoom) : Prop where
  same : { room' with users := room.users, timestamp := room.timestamp } = room
  users : ∀ s, s ∈ room'.users ↔ s ∈ room.users ∧ ¬ gone s
  order : room'.users.Sublist room.users
  timestamp : room'.timestamp = room.timestamp ∨
    room'.users = [] ∧ ∃ s ∈ room.users, room'.timestamp = tick s

theorem quitBy_refl (tick : Int → UInt64) (room : LiveRoom) : QuitBy tick (fun _ => False) room room where
  same := rfl
  users s := by simp
  order := List.Sublist.refl _
  timestamp := .inl rfl

theorem quitBy_quit (tick : Int → UInt64) (s : Int) {room : LiveRoom} (hnodup : room.users.Nodup) :
    QuitBy tick (· = s) room (room.quit s (tick s)) where
  same := by
    unfold LiveRoom.quit
    split <;> rfl
  users u := by
    rw [LiveRoom.quit_users, hnodup.mem_erase_iff]
    exact and_comm
  order := by
    rw [LiveRoom.quit_users]
    exact List.erase_sublist
  timestamp := by
    by_cases hs : s ∈ room.users
    · simp only [LiveRoom.quit, if_pos hs]
      split
      · rename_i hempty
        exact .inr ⟨List.length_eq_zero_iff.mp (Nat.lt_one_iff.mp hempty), s, hs, rfl⟩
      · exact .inl rfl
    · simp only [LiveRoom.quit, if_neg hs, true_or]

theorem QuitBy.trans {tick : Int → UInt64} {gone gone' : Int → Prop} {room room' room'' : LiveRoom}
    (h : QuitBy tick gone room room') (h' : QuitBy tick gone' room' room'') :
    QuitBy tick (fun s => gone s ∨ gone' s) room room'' where
  same := by
    have hsame := congrArg
      (fun r : LiveRoom => { r with users := room.users, timestamp := room.timestamp }) h'.same
    exact hsame.trans h.same
  users s := by
    rw [h'.users, h.users]
    tauto
  order := h'.order.trans h.order
  timestamp := by
    rcases h'.timestamp with heq | ⟨hempty, s, hs, hlast⟩
    · rcases h.timestamp with heq' | ⟨hempty, hlast⟩
      · exact .inl (heq.trans heq')
      · rw [← heq] at hlast
        exact .inr ⟨List.sublist_nil.mp (hempty ▸ h'.order), hlast⟩
    · exact .inr ⟨hempty, s, h.order.subset hs, hlast⟩

theorem foldl_quit (tick : Int → UInt64) (sockets : List Int) {room : LiveRoom}
    (hnodup : room.users.Nodup) :
    QuitBy tick (· ∈ sockets) room (sockets.foldl (fun room s => room.quit s (tick s)) room) := by
  induction sockets generalizing room with
  | nil => simpa using quitBy_refl tick room
  | cons s rest ih =>
      have hlast := (quitBy_quit tick s hnodup).trans (ih (LiveRoom.nodup_quit s (tick s) hnodup))
      simpa only [List.mem_cons, List.foldl_cons] using hlast

-- What a pass leaves behind. `calls` are its calls of `onTimeout`.
structure TimedOut (cur : UInt64) (tick : Int → UInt64) (w w' : Service) (calls : List Output) : Prop where
  called : ∀ s roomid, w.expired cur s = some roomid → calls.count (.timeout s roomid) = 1
  only : ∀ call ∈ calls, ∃ s roomid, w.expired cur s = some roomid ∧ call = .timeout s roomid
  cleared : ∀ s c, w.connections[s]? = some (some c) → (w.expired cur s).isSome →
    w'.connections[s]? = some (some (c.setValue "roomid" ""))
  kept : ∀ s, w.expired cur s = none → w'.connections[s]? = w.connections[s]?
  unknown : ∀ key : String, w.rooms[key]? = none → w'.rooms[key]? = none
  rooms : ∀ (key : String) (room : LiveRoom), w.rooms[key]? = some room →
    ∃ room', w'.rooms[key]? = some room' ∧ QuitBy tick (fun s => w.expired cur s = some key) room room'
  server : w'.server = w.server

open Service

theorem calls_count {cur : UInt64} {w : Service} {s : Int} {roomid : String}
    (h : w.expired cur s = some roomid) :
    (w.connections.keys.flatMap (w.calls cur)).count (.timeout s roomid) = 1 := by
  obtain ⟨c, hc, -⟩ := expired_eq_some_iff.mp h
  have hmem : s ∈ w.connections.keys :=
    Std.ExtTreeMap.mem_keys.mpr (Std.ExtTreeMap.mem_iff_isSome_getElem?.mpr (by rw [hc]; rfl))
  have hnodup : (w.connections.keys.flatMap (w.calls cur)).Nodup := by
    unfold Service.calls
    rw [← List.filterMap_eq_flatMap_toList]
    refine List.Nodup.filterMap (fun a a' b hb hb' => ?_) Std.ExtTreeMap.nodup_keys
    obtain ⟨r, -, rfl⟩ := Option.map_eq_some_iff.mp hb
    obtain ⟨r', -, heq⟩ := Option.map_eq_some_iff.mp hb'
    cases heq
    rfl
  refine List.count_eq_one_of_mem hnodup (List.mem_flatMap.mpr ⟨s, hmem, ?_⟩)
  simp [Service.calls, h]

-- With more fuel than rounds the recursion of `checkLoop` does what the rounds do.
theorem checkLoop_of_rounds {cur : UInt64} {tick : Int → UInt64} {n : Nat} {left : List Int}
    {w w' : Service} {out out' : List Output}
    (h : checkRounds cur tick n { left, w, calls := out } = some { left := [], w := w', calls := out' })
    {fuel : Nat} (hfuel : n < fuel) :
    ∃ more, out' = out ++ more ∧ checkLoop cur tick fuel left w = some (w', more) := by
  induction n generalizing left w out fuel with
  | zero =>
      cases h
      cases fuel with
      | zero => omega
      | succ fuel => exact ⟨[], by simp, rfl⟩
  | succ n ih =>
      obtain ⟨pass, hround, hrounds⟩ := Option.bind_eq_some_iff.mp h
      cases left with
      | nil =>
          cases hround
          exact ih hrounds (by omega)
      | cons key rest =>
          cases fuel with
          | zero => omega
          | succ fuel =>
              unfold checkRound at hround
              unfold checkLoop
              dsimp only at hround
              cases hkey : w.connections[key]? with
              | none =>
                  simp only [hkey] at hround
                  cases hround
                  exact ih hrounds (by omega)
              | some entry =>
                  cases entry with
                  | none =>
                      simp only [hkey] at hround
                      cases hround
                  | some c =>
                      simp only [hkey] at hround
                      dsimp only
                      split at hround
                      · rename_i hdue
                        cases hround
                        obtain ⟨more, hmore, hloop⟩ := ih hrounds (show n < fuel by omega)
                        rw [if_pos hdue, hloop]
                        exact ⟨_, by rw [hmore, List.append_assoc]; rfl, rfl⟩
                      · rename_i hnot
                        cases hround
                        rw [if_neg hnot]
                        exact ih hrounds (by omega)

theorem timedOut_foldl (w : Service) (cur : UInt64) (tick : Int → UInt64)
    (hnodup : ∀ (key : String) (room : LiveRoom), w.rooms[key]? = some room → room.users.Nodup) :
    TimedOut cur tick w (w.connections.keys.foldl (expire cur tick) w)
      (w.connections.keys.flatMap (w.calls cur)) := by
  have hkeys : w.connections.keys.Nodup := Std.ExtTreeMap.nodup_keys
  have hpresent (s : Int) (hs : w.expired cur s ≠ none) : s ∈ w.connections.keys := by
    obtain ⟨roomid, hroom⟩ := Option.ne_none_iff_exists'.mp hs
    obtain ⟨c, hc, -⟩ := expired_eq_some_iff.mp hroom
    exact Std.ExtTreeMap.mem_keys.mpr (Std.ExtTreeMap.mem_iff_isSome_getElem?.mpr (by rw [hc]; rfl))
  refine ⟨fun s roomid => calls_count, fun call hcall => ?_, fun s c hc hdue => ?_, fun s hs => ?_,
    fun key hkey => ?_, fun key room hkey => ?_, foldl_expire_server _ w⟩
  · obtain ⟨s, -, hs⟩ := List.mem_flatMap.mp hcall
    obtain ⟨roomid, hroom, rfl⟩ := Option.map_eq_some_iff.mp (Option.mem_toList.mp hs)
    exact ⟨s, roomid, hroom, rfl⟩
  · have hmem := hpresent s (Option.isSome_iff_ne_none.mp hdue)
    rw [foldl_expire_connections _ hkeys, if_pos ⟨hmem, hdue⟩, hc]
    rfl
  · rw [foldl_expire_connections _ hkeys, if_neg (by simp [hs])]
  · rw [foldl_expire_rooms _ hkeys, hkey]
    rfl
  · have hquit := foldl_quit tick (w.connections.keys.filter fun s => w.expired cur s = some key)
      (hnodup key room hkey)
    refine ⟨_, by rw [foldl_expire_rooms _ hkeys, hkey]; rfl, ?_⟩
    have hgone : (fun s => s ∈ w.connections.keys.filter fun s => w.expired cur s = some key) =
        fun s => w.expired cur s = some key := by
      funext s
      simp only [List.mem_filter, decide_eq_true_eq, eq_iff_iff, and_iff_right_iff_imp]
      exact fun hs => hpresent s (by rw [hs]; exact Option.some_ne_none key)
    rw [hgone] at hquit
    exact hquit

-- The loop ends, after at most two rounds for each connection, and its effect is the one of the
-- timeouts. `checkConnectionState` computes it.
theorem checkConnectionState_exact (w : Service) (cur : UInt64) (tick : Int → UInt64)
    (hnull : w.connections.NoNull) (hkeyed : w.Keyed)
    (hnodup : ∀ (key : String) (room : LiveRoom), w.rooms[key]? = some room → room.users.Nodup) :
    ∃ n ≤ 2 * w.connections.keys.length, ∃ w' calls,
      checkRounds cur tick n { left := w.connections.keys, w } = some { left := [], w := w', calls } ∧
      TimedOut cur tick w w' calls ∧ w.checkConnectionState cur tick = some (w', calls) := by
  obtain ⟨n, hn, hends⟩ :=
    @checkRounds_ends cur tick w w.connections.keys Std.ExtTreeMap.nodup_keys hnull hkeyed []
  rw [List.nil_append] at hends
  obtain ⟨more, hmore, hloop⟩ := checkLoop_of_rounds hends (show n < 2 * w.connections.keys.length + 1 by omega)
  rw [List.nil_append] at hmore
  refine ⟨n, hn, _, _, hends, timedOut_foldl w cur tick hnodup, ?_⟩
  rw [hmore]
  exact hloop

def silentViewer : Connection where
  socketid := 1
  keyValueMap := (∅ : Std.ExtTreeMap String String).insert "roomid" "Ad"

def silentService : Service where
  connections := (∅ : Connections).insert 1 (some silentViewer)
  rooms := (∅ : Std.ExtTreeMap String LiveRoom).insert "Ad"
    { cmsid := "A", devid := "d", token := "t", users := [1] }
  server := ⟨[]⟩

-- A viewer that was last heard of forty seconds ago.
theorem checkConnectionState_exact_silent : ∃ w' calls,
    silentService.checkConnectionState 40000 (fun _ => 40000) = some (w', calls) ∧
      calls.count (.timeout 1 "Ad") = 1 := by
  have hone {β : Type} (b : β) (s : Int) (b' : β)
      (h : ((∅ : Std.ExtTreeMap Int β).insert 1 b)[s]? = some b') : s = 1 ∧ b' = b := by
    rw [Std.ExtTreeMap.getElem?_insert] at h
    split at h
    · rename_i hs
      exact ⟨(Std.LawfulEqCmp.eq_of_compare hs).symm, (Option.some.inj h).symm⟩
    · simp at h
  obtain ⟨n, -, w', calls, -, htimed, hpass⟩ :=
    checkConnectionState_exact silentService 40000 (fun _ => 40000)
      (fun s hs => by cases (hone _ s _ hs).2)
      (fun s c hc => by
        obtain ⟨rfl, heq⟩ := hone _ s _ hc
        cases heq
        rfl)
      (fun key room hroom => by
        change ((∅ : Std.ExtTreeMap String LiveRoom).insert "Ad" _)[key]? = some room at hroom
        rw [Std.ExtTreeMap.getElem?_insert] at hroom
        split at hroom
        · cases hroom
          decide
        · simp at hroom)
  refine ⟨w', calls, hpass, htimed.called 1 "Ad" ?_⟩
  refine expired_eq_some_iff.mpr ⟨silentViewer, by simp [silentService], by decide, by decide, ?_⟩
  simp [silentViewer, Connection.value]

end VideoAdapter.Wss
