import VideoAdapter.Wss.Calls.Ready

namespace VideoAdapter.Wss

open Adapter Lib
open Service (RequestEnv)

-- The adapter has reported the token, and one join is about to build the room.
structure Creating (m : Mngr) (s : Int) (c d token : String) : Prop where
  calls : m.calls = [.join s c d (.create token)]
  live : ∀ (k : String) (q : Nat), m.rooms[k]? = some q → ∃ room, m.room q = some room

-- Nothing goes on but the join and calls of `NotifyHls` for the token.
def notifies (token : String) (_ : CallHistory) (_ : Mngr) : CallEvent → Prop
  | .notifyHls t => t = token
  | .advance _ _ => True
  | _ => False

-- No room before this key, in the order of the map, has the token.
def Mngr.Foremost (m : Mngr) (token key : String) : Prop :=
  ∀ (k : String) (q : Nat) (room : LiveRoom), m.rooms[k]? = some q → m.room q = some room →
    room.token = token → compare k key ≠ .lt

-- A room was stored under the key.
def Stored (key : String) (history : CallHistory) : Prop :=
  ∃ record ∈ history, ∃ p, record.2.region = some (.store key p)

-- A search for the token was made after a room had been stored under the key.
def SearchedAfterStore (token key : String) : CallHistory → Prop
  | [] => False
  | record :: history =>
      (record.2.region = some (.search token) ∧ Stored key history) ∨
        SearchedAfterStore token key history

variable {m base after : Mngr} {i j : Nat} {call call' : Call} {s : Int} {c d token key : String}
  {p : Nat} {room : LiveRoom} {event : CallEvent} {shown : Shown} {history : CallHistory}
  {env : RequestEnv}

-- A search finds the room of the least key with the token.
theorem search_eq_some_iff {q : Nat} :
    m.search token = some q ↔ ∃ k : String, m.rooms[k]? = some q ∧
      (m.room q).any (·.token = token) = true ∧
      ∀ (k' : String) (q' : Nat), m.rooms[k']? = some q' →
        (m.room q').any (·.token = token) = true → compare k' k ≠ .lt := by
  have horder := m.rooms.ordered_keys_toList
  have hasymm : ∀ a b : String × Nat, compare a.1 b.1 = .lt → ¬ compare b.1 a.1 = .lt :=
    fun a b hab hba => by simp [Std.OrientedCmp.gt_of_lt hab] at hba
  unfold Mngr.search
  rw [Option.map_eq_some_iff]
  constructor
  · rintro ⟨⟨k, q'⟩, hfind, rfl⟩
    obtain ⟨hm, ht, hleast⟩ := (find?_eq_some_iff_least hasymm horder).mp hfind
    refine ⟨k, Std.ExtTreeMap.mem_toList_iff_getElem?_eq_some.mp hm, ht, fun k' q' hk' ht' => ?_⟩
    exact hleast (k', q') (Std.ExtTreeMap.mem_toList_iff_getElem?_eq_some.mpr hk') ht'
  · rintro ⟨k, hk, ht, hleast⟩
    refine ⟨(k, q), (find?_eq_some_iff_least hasymm horder).mpr ⟨?_, ht, ?_⟩, rfl⟩
    · exact Std.ExtTreeMap.mem_toList_iff_getElem?_eq_some.mpr hk
    · rintro ⟨k', q'⟩ hm ht'
      exact hleast k' q' (Std.ExtTreeMap.mem_toList_iff_getElem?_eq_some.mp hm) ht'

-- How far the join has come. Its room has the pointer that is next in the heap at the start.
inductive Stage (start : Mngr) (s : Int) (c d token : String) (history : CallHistory) (m : Mngr) :
    Prop
  | building (hc : m.calls[0]? = some (Call.join s c d (.create token)))
      (hrooms : m.rooms = start.rooms) (hlen : m.heap.length = start.heap.length)
      (hnot : ¬ Stored (c ++ d) history)
  | built (resp : Reply)
      (hc : m.calls[0]? = some (Call.join s c d (.store start.heap.length resp)))
      (hrooms : m.rooms = start.rooms)
      (hroom : m.room start.heap.length = some (newRoom c d token s))
      (hnot : ¬ Stored (c ++ d) history)
  | stored (pc : Pc) (room : LiveRoom) (hc : m.calls[0]? = some (Call.join s c d pc))
      (hpc : (∃ resp, pc = .accept resp) ∨ ∃ code, pc = .done code)
      (hrooms : m.rooms = start.rooms.insert (c ++ d) start.heap.length)
      (hroom : m.room start.heap.length = some room) (htoken : room.token = token)
      (huser : s ∈ room.users) (hst : Stored (c ++ d) history)

-- From the search on.
def HlsPc.onto (p : Nat) : HlsPc → Prop
  | .search => False
  | .ready q => q = p
  | .size q => q = p
  | .broadcast q _ => q = p
  | .done q => q = some p

structure Making (start : Mngr) (s : Int) (c d token : String) (history : CallHistory)
    (m : Mngr) : Prop where
  stage : Stage start s c d token history m
  others : ∀ (i : Nat) (call : Call), m.calls[i]? = some call →
    i = 0 ∨ ∃ pc, call = .hls token pc
  tokens : ∀ q, q < start.heap.length →
    (m.room q).map (·.token) = (start.room q).map (·.token)
  found : ∀ (i : Nat) (pc : HlsPc), m.calls[i]? = some (Call.hls token pc) →
    pc.onto start.heap.length →
    start.Foremost token (c ++ d) ∧ SearchedAfterStore token (c ++ d) history

variable {start : Mngr} {record : CallEvent × Shown}

theorem stored_cons (hrecord : ∀ q, record.2.region ≠ some (.store key q)) :
    Stored key (record :: history) ↔ Stored key history := by
  constructor
  · rintro ⟨old, hm, q, hq⟩
    rcases List.mem_cons.mp hm with rfl | hm
    · exact absurd hq (hrecord q)
    · exact ⟨old, hm, q, hq⟩
  · rintro ⟨old, hm, q, hq⟩
    exact ⟨old, List.mem_cons_of_mem _ hm, q, hq⟩

theorem stored_of_searched (h : SearchedAfterStore token key history) : Stored key history := by
  induction history with
  | nil => exact h.elim
  | cons record history ih =>
      have hold : Stored key history := by
        rcases h with ⟨-, h⟩ | h
        · exact h
        · exact ih h
      obtain ⟨old, hm, q, hq⟩ := hold
      exact ⟨old, List.mem_cons_of_mem _ hm, q, hq⟩

theorem Creating.lt (h : Creating start s c d token) {k : String} {q : Nat}
    (hq : start.rooms[k]? = some q) : q < start.heap.length := by
  obtain ⟨room, hroom⟩ := h.live k q hq
  exact (List.getElem?_eq_some_iff.mp (heap_of_room hroom)).1

theorem any_token {r r' : Option LiveRoom} (h : r.map (·.token) = r'.map (·.token)) :
    r.any (·.token = token) = r'.any (·.token = token) := by
  cases r <;> cases r' <;> simp_all

-- A search finds the new room exactly if it is stored, and the foremost with the token.
theorem Making.search_iff (hstart : Creating start s c d token)
    (h : Making start s c d token history m) :
    m.search token = some start.heap.length ↔
      Stored (c ++ d) history ∧ start.Foremost token (c ++ d) := by
  have hold : m.rooms = start.rooms → m.search token ≠ some start.heap.length := by
    intro hrooms hsearch
    obtain ⟨k, hk, -⟩ := search_eq_some_iff.mp hsearch
    rw [hrooms] at hk
    exact Nat.lt_irrefl _ (hstart.lt hk)
  cases h.stage with
  | building hc hrooms hlen hnot => exact iff_of_false (hold hrooms) fun hst => hnot hst.1
  | built resp hc hrooms hroom hnot => exact iff_of_false (hold hrooms) fun hst => hnot hst.1
  | stored pc room hc hpc hrooms hroom htoken huser hst =>
      have hget : ∀ k : String, m.rooms[k]? =
          if k = c ++ d then some start.heap.length else start.rooms[k]? := by
        intro k
        rw [hrooms, Std.ExtTreeMap.getElem?_insert]
        by_cases hk : k = c ++ d
        · simp [hk]
        · simp [hk, Ne.symm hk]
      have hself : compare (c ++ d) (c ++ d) ≠ Ordering.lt := by simp
      constructor
      · intro hsearch
        obtain ⟨k, hk, ht, hleast⟩ := search_eq_some_iff.mp hsearch
        have hkey : k = c ++ d := by
          by_contra hne
          rw [hget, if_neg hne] at hk
          exact Nat.lt_irrefl _ (hstart.lt hk)
        subst hkey
        refine ⟨hst, fun k' q old hq hold htok => ?_⟩
        by_cases hk' : k' = c ++ d
        · rw [hk']
          exact hself
        · refine hleast k' q (by rw [hget, if_neg hk', hq]) ?_
          rw [any_token (h.tokens q (hstart.lt hq)), hold]
          simpa using htok
      · rintro ⟨-, hforemost⟩
        refine search_eq_some_iff.mpr ⟨c ++ d, by simp [hget], by simp [hroom, htoken], ?_⟩
        intro k' q hq ht
        rw [hget] at hq
        split at hq
        · rename_i hk'
          rw [hk']
          exact hself
        · rw [any_token (h.tokens q (hstart.lt hq))] at ht
          obtain ⟨old, hold⟩ := hstart.live k' q hq
          exact hforemost k' q old hq hold (by simpa [hold] using ht)

-- A step of another call: it may change the new room only if this is stored.
theorem Stage.keep (h : Stage start s c d token history m) (hcall : after.calls[0]? = m.calls[0]?)
    (hrooms : after.rooms = m.rooms) (hlen : after.heap.length = m.heap.length)
    (hroom : ∀ room, m.room start.heap.length = some room → ∃ last,
      after.room start.heap.length = some last ∧ last.token = room.token ∧
      last.users = room.users ∧ (Stored (c ++ d) history ∨ last = room))
    (hrecord : ∀ q, record.2.region ≠ some (.store (c ++ d) q)) :
    Stage start s c d token (record :: history) after := by
  have hstored : Stored (c ++ d) (record :: history) ↔ Stored (c ++ d) history :=
    stored_cons hrecord
  cases h with
  | building hc hr hl hnot =>
      exact .building (hcall.trans hc) (hrooms.trans hr) (hlen.trans hl) (hstored.not.mpr hnot)
  | built resp hc hr hp hnot =>
      obtain ⟨last, hlast, -, -, hst | rfl⟩ := hroom _ hp
      · exact absurd hst hnot
      · exact .built resp (hcall.trans hc) (hrooms.trans hr) hlast (hstored.not.mpr hnot)
  | stored pc room hc hpc hr hp htoken huser hst =>
      obtain ⟨last, hlast, htok, husers, -⟩ := hroom _ hp
      refine .stored pc last (hcall.trans hc) hpc (hrooms.trans hr) hlast (htok.trans htoken) ?_
        (hstored.mpr hst)
      rwa [husers]

-- Everything a step can be: a new `NotifyHls`, or a move of the join or of a `NotifyHls`.
theorem Making.cases (h : Making start s c d token history m)
    (hguard : notifies token history m event) (hs : callStep m event = some (after, shown)) :
    (after = { m with calls := m.calls ++ [.hls token .search] } ∧ shown = {}) ∨
    (∃ base pc pc', m.calls[0]? = some (.join s c d pc) ∧
      Move m (.join s c d pc) base (.join s c d pc') shown.out ∧
      shown.region = pc.region (c ++ d) ∧ after = base.goto 0 (.join s c d pc')) ∨
    ∃ i base pc pc', i ≠ 0 ∧ m.calls[i]? = some (.hls token pc) ∧
      Move m (.hls token pc) base (.hls token pc') shown.out ∧
      shown.region = Call.region (.hls token pc) ∧ after = base.goto i (.hls token pc') := by
  have hjoin : ∃ pc, m.calls[0]? = some (.join s c d pc) := by
    cases h.stage with
    | building hc hrooms hlen hnot => exact ⟨_, hc⟩
    | built resp hc hrooms hroom hnot => exact ⟨_, hc⟩
    | stored pc room hc hpc hrooms hroom htoken huser hst => exact ⟨_, hc⟩
  obtain ⟨pc₀, hc₀⟩ := hjoin
  cases event with
  | notifyHls t =>
      cases hguard
      cases hs
      exact .inl ⟨rfl, rfl⟩
  | advance i env =>
      obtain ⟨call, base, call', hc, hmove, rfl, hregion⟩ := advance_move hs
      by_cases hi : i = 0
      · subst hi
        rw [hc₀] at hc
        cases hc
        obtain ⟨pc', rfl⟩ : ∃ pc', call' = .join s c d pc' := by
          cases hmove <;> exact ⟨_, rfl⟩
        exact .inr (.inl ⟨base, pc₀, pc', hc₀, hmove, hregion, rfl⟩)
      · obtain ⟨pc, rfl⟩ := (h.others i call hc).resolve_left hi
        obtain ⟨pc', rfl⟩ : ∃ pc', call' = .hls token pc' := by
          cases hmove <;> exact ⟨_, rfl⟩
        exact .inr (.inr ⟨i, base, pc, pc', hi, hc, hmove, hregion, rfl⟩)
  | join s' c' d' => exact hguard.elim
  | quit s' c' d' => exact hguard.elim
  | sweep env => exact hguard.elim
  | leave s' roomid tick => exact hguard.elim
  | established s' tick => exact hguard.elim
  | removeConnection s' => exact hguard.elim
  | adapter event => exact hguard.elim

-- A change of the flag of one room.
theorem write_tokens {q : Nat} (hq : m.room q = some room) (x : Nat) :
    ((m.write q { room with rdy := true }).room x).map (·.token) = (m.room x).map (·.token) := by
  rw [room_write hq]
  split
  · rename_i hx
    subst hx
    simp [hq]
  · rfl

theorem Making.hls {pc pc' : HlsPc} (hstart : Creating start s c d token)
    (h : Making start s c d token history m) (hi : i ≠ 0)
    (hc : m.calls[i]? = some (.hls token pc))
    (hmove : Move m (.hls token pc) base (.hls token pc') shown.out)
    (hregion : shown.region = Call.region (.hls token pc)) :
    Making start s c d token ((event, shown) :: history) (base.goto i (.hls token pc')) := by
  have hrecord : ∀ q, shown.region ≠ some (.store (c ++ d) q) := by
    rw [hregion]
    cases pc <;> simp [Call.region]
  have hcall : (base.goto i (.hls token pc')).calls[0]? = m.calls[0]? := by
    simp [Mngr.goto, hmove.calls, hi]
  have hsame : ∀ room, m.room start.heap.length = some room → ∃ last,
      m.room start.heap.length = some last ∧ last.token = room.token ∧ last.users = room.users ∧
      (Stored (c ++ d) history ∨ last = room) := fun r hr => ⟨r, hr, rfl, rfl, .inr rfl⟩
  refine ⟨?_, ?_, ?_, ?_⟩
  · cases hmove with
    | hlsFound _ q _ hq => exact h.stage.keep hcall rfl rfl hsame hrecord
    | hlsAbsent _ _ hq => exact h.stage.keep hcall rfl rfl hsame hrecord
    | hlsReady _ q old _ hq =>
        refine h.stage.keep hcall rfl (by simp [Mngr.goto, Mngr.write]) (fun r hr => ?_) hrecord
        have hwrite := room_write hq { old with rdy := true } start.heap.length
        split at hwrite
        · rename_i he
          subst he
          rw [hr] at hq
          cases hq
          exact ⟨_, hwrite, rfl, rfl, .inl (stored_of_searched (h.found i _ hc rfl).2)⟩
        · exact ⟨r, hwrite.trans hr, rfl, rfl, .inr rfl⟩
    | hlsSized _ q old _ hq => exact h.stage.keep hcall rfl rfl hsame hrecord
    | hlsBroadcast _ q isize old connections _ hq =>
        exact h.stage.keep hcall rfl rfl hsame hrecord
  · intro j call hj
    rcases getElem?_goto hc hmove.calls hj with ⟨-, rfl⟩ | ⟨-, hj⟩
    · exact .inr ⟨pc', rfl⟩
    · exact h.others j call hj
  · intro q hq
    rw [← h.tokens q hq]
    cases hmove with
    | hlsReady _ q' old _ hq' => exact write_tokens hq' q
    | hlsFound _ q' _ hq' => rfl
    | hlsAbsent _ _ hq' => rfl
    | hlsSized _ q' old _ hq' => rfl
    | hlsBroadcast _ q' isize old connections _ hq' => rfl
  · intro j pcj hj ho
    rcases getElem?_goto hc hmove.calls hj with ⟨-, he⟩ | ⟨-, hj⟩
    · cases he
      cases hmove with
      | hlsFound _ q _ hq =>
          have he : q = start.heap.length := ho
          subst he
          obtain ⟨hst, hforemost⟩ := (h.search_iff hstart).mp hq
          exact ⟨hforemost, .inl ⟨hregion, hst⟩⟩
      | hlsAbsent _ _ hq => cases ho
      | hlsReady _ q old _ hq => exact (h.found i _ hc ho).imp_right .inr
      | hlsSized _ q old _ hq => exact (h.found i _ hc ho).imp_right .inr
      | hlsBroadcast _ q isize old connections _ hq =>
          exact (h.found i _ hc (Option.some.inj ho)).imp_right .inr
    · exact (h.found j pcj hj ho).imp_right .inr

theorem Making.began (h : Making start s c d token history m) :
    Making start s c d token ((event, {}) :: history)
      { m with calls := m.calls ++ [.hls token .search] } := by
  have hne : m.calls ≠ [] := by
    intro he
    cases h.stage with
    | building hc hrooms hlen hnot => simp [he] at hc
    | built resp hc hrooms hroom hnot => simp [he] at hc
    | stored pc room hc hpc hrooms hroom htoken huser hst => simp [he] at hc
  have hcall : (m.calls ++ [.hls token .search])[0]? = m.calls[0]? :=
    List.getElem?_append_left (List.length_pos_iff.mpr hne)
  refine ⟨?_, ?_, h.tokens, ?_⟩
  · exact h.stage.keep hcall rfl rfl (fun r hr => ⟨r, hr, rfl, rfl, .inr rfl⟩) (by simp)
  · intro j call hj
    rcases getElem?_append_one hj with hj | rfl
    · exact h.others j call hj
    · exact .inr ⟨_, rfl⟩
  · intro j pc hj ho
    rcases getElem?_append_one hj with hj | he
    · exact (h.found j pc hj ho).imp_right .inr
    · cases he
      exact ho.elim

theorem Making.join {pc pc' : Pc} (h : Making start s c d token history m)
    (hc : m.calls[0]? = some (.join s c d pc))
    (hmove : Move m (.join s c d pc) base (.join s c d pc') shown.out)
    (hregion : shown.region = pc.region (c ++ d)) :
    Making start s c d token ((event, shown) :: history) (base.goto 0 (.join s c d pc')) := by
  have hcall : (base.goto 0 (.join s c d pc')).calls[0]? = some (.join s c d pc') := by
    have hlt : 0 < m.calls.length := (List.getElem?_eq_some_iff.mp hc).1
    simp [Mngr.goto, hmove.calls, hlt]
  have hothers : ∀ (j : Nat) (call : Call),
      (base.goto 0 (.join s c d pc')).calls[j]? = some call →
      j = 0 ∨ ∃ pc, call = .hls token pc := by
    intro j call hj
    rcases getElem?_goto hc hmove.calls hj with ⟨rfl, -⟩ | ⟨-, hj⟩
    · exact .inl rfl
    · exact h.others j call hj
  have hfound : ∀ (j : Nat) (q : HlsPc),
      (base.goto 0 (.join s c d pc')).calls[j]? = some (Call.hls token q) →
      q.onto start.heap.length →
      start.Foremost token (c ++ d) ∧ SearchedAfterStore token (c ++ d) ((event, shown) :: history) := by
    intro j q hj ho
    rcases getElem?_goto hc hmove.calls hj with ⟨-, he⟩ | ⟨-, hj⟩
    · cases he
    · exact (h.found j q hj ho).imp_right .inr
  cases h.stage with
  | building hc' hrooms hlen hnot =>
      rw [hc] at hc'
      cases hc'
      cases hmove with
      | joinCreated _ _ _ _ =>
          refine ⟨?_, hothers, ?_, hfound⟩
          · refine .built (joinReply false token 1) (hcall.trans (by rw [hlen])) hrooms ?_
              ((stored_cons ?_).not.mpr hnot)
            · exact (room_append m _ _).trans (if_pos hlen.symm)
            · simp [hregion, Pc.region]
          · intro q hq
            rw [← h.tokens q hq]
            exact congrArg _ ((room_append m _ q).trans (if_neg (by omega)))
  | built resp hc' hrooms hroom hnot =>
      rw [hc] at hc'
      cases hc'
      cases hmove with
      | joinStored _ _ _ _ _ =>
          refine ⟨?_, hothers, h.tokens, hfound⟩
          refine .stored _ _ hcall (.inl ⟨_, rfl⟩) ?_ hroom rfl (by simp [newRoom]) ?_
          · exact congrArg (·.insert (c ++ d) start.heap.length) hrooms
          · exact ⟨_, List.mem_cons_self, _, hregion⟩
  | stored pc₀ room hc' hpc hrooms hroom htoken huser hst =>
      rw [hc] at hc'
      cases hc'
      rcases hpc with ⟨resp, rfl⟩ | ⟨code, rfl⟩
      · cases hmove with
        | joinAccepted _ _ _ _ connections _ hout =>
            refine ⟨?_, hothers, h.tokens, hfound⟩
            refine .stored _ room hcall (.inr ⟨_, rfl⟩) hrooms hroom htoken huser ?_
            obtain ⟨old, hm, q, hq⟩ := hst
            exact ⟨old, List.mem_cons_of_mem _ hm, q, hq⟩
      · cases hmove

theorem Creating.making (h : Creating m s c d token) : Making m s c d token [] m := by
  refine ⟨.building (by simp [h.calls]) rfl rfl ?_, ?_, fun _ _ => rfl, ?_⟩
  · rintro ⟨record, hm, -⟩
    cases hm
  · intro j call hj
    rw [h.calls] at hj
    exact .inl (by have := (List.getElem?_eq_some_iff.mp hj).1; simpa using this)
  · intro j pc hj
    rw [h.calls] at hj
    cases List.mem_singleton.mp (List.mem_of_getElem? hj)

theorem Making.step (hstart : Creating start s c d token) (h : Making start s c d token history m)
    (hguard : notifies token history m event) (hs : callStep m event = some (after, shown)) :
    Making start s c d token ((event, shown) :: history) after := by
  rcases h.cases hguard hs with ⟨rfl, rfl⟩ | ⟨base, pc, pc', hc, hmove, hregion, rfl⟩ |
    ⟨i, base, pc, pc', hi, hc, hmove, hregion, rfl⟩
  · exact h.began
  · exact h.join hc hmove hregion
  · exact h.hls hstart hi hc hmove hregion

end VideoAdapter.Wss
