import VideoAdapter.Adapter.DeviceStates

namespace VideoAdapter.Adapter

open Lib

-- `map<string,DeviceNode*>`: `none` as a value is a null pointer. An operation that reads
-- through a null pointer has no result.
abbrev DevTable := Std.ExtTreeMap String (Option DeviceNode)

namespace DevTable

-- `find`, and what is done with the record that was found.
def onEntry {α : Type} (table : DevTable) (pid : String) (unknown : α) (found : DeviceNode → α) :
    Option α :=
  match table[pid]? with
  | none => some unknown
  | some none => none
  | some (some p) => some (found p)

-- `devlist_[pid]`: an unknown id gets an entry with a null pointer.
def index (table : DevTable) (pid : String) : DevTable :=
  match table[pid]? with
  | none => table.insert pid none
  | some _ => table

-- The table after the look-up, and the state read through the pointer.
def getState (table : DevTable) (pid : String) : DevTable × Option Int :=
  (table.index pid, (table.index pid)[pid]?.bind fun entry => entry.map (·.state))

def checkPush (table : DevTable) (pid key : String) : Option Bool :=
  table.onEntry pid false fun p => p.key = key

-- The records behind the pointers, for a loop that reads through all of them.
def records (table : DevTable) : Option DevList :=
  if table.toList.all (·.2.isSome) then some (table.filterMap fun _ entry => entry) else none

-- The members of the answer: the id, the name and the state of every device.
def getDeviceList (table : DevTable) : Option (List (String × String × Int)) :=
  table.records.map fun devices => devices.values.map fun p => (p.pid, p.name, p.state)

def addCamera (table : DevTable) (pid name : String) (allday : Int) (s0 e0 s1 e1 : String) :
    DevTable :=
  table.insert pid (some (newCamera pid name allday s0 e0 s1 e1))

-- `delete` of a null pointer does nothing.
def delCamera (table : DevTable) (pid : String) : DevTable := table.erase pid

def modifyCamera (table : DevTable) (pid : String) (allday : Int) (s0 e0 s1 e1 : String) :
    Option DevTable :=
  table.onEntry pid table fun p => table.insert pid (some { p with allday, s0, e0, s1, e1 })

def notifyPush (table : DevTable) (devid : String) (env : PushEnv) :
    Option (NotifyResult × DevTable × List Outgoing) :=
  table.onEntry devid ({ ret := -1, result := "camera id invalid!" }, table, []) fun pItem =>
    if pItem.state = 2 then ({ ret := 0, result := "success!", token := pItem.token }, table, [])
    else if !env.sent then ({ ret := -1, result := "network error!", lost := true }, table, [])
    else
      let request := [pushRequest devid env.draws]
      match env.answer.map RespPush.decode with
      | none => ({ ret := -1, result := "notify to start push time out!" }, table, request)
      | some resp =>
          if resp.result = 100 then
            ({ ret := 0, result := "success!", token := resp.token },
              table.insert devid (some (pItem.pushing resp.token (generalToken env.draws 10))), request)
          else ({ ret := -1, result := pushError resp.result }, table, request)

def notifyStopPush (table : DevTable) (devid : String) (env : StopEnv) :
    Option (NotifyResult × DevTable × List Outgoing) :=
  table.onEntry devid ({ ret := -1, result := "camera id invalid!" }, table, []) fun pItem =>
    if pItem.state ≠ 2 then
      ({ ret := -1, result := "camera is  not in pushing state!" }, table, [])
    else if !env.sent then
      ({ ret := -1, result := "adapter client network error!", lost := true }, table, [])
    else
      let request := [Outgoing.reqStopPush (generalSeqnumber env.draws) devid]
      if env.answered then
        ({ ret := 0, result := "success!" }, table.insert devid (some { pItem with state := 1 }), request)
      else ({ ret := -3, result := "adapter client time out!" }, table, request)

def setState (table : DevTable) (item : StateItem) : Option DevTable :=
  table.onEntry item.pid table fun p => table.insert item.pid (some { p with state := item.flag })

def handleUpdateChange (table : DevTable) (buf : Bytes) : Option DevTable :=
  if buf = [] ∨ (MAX_BUF_SIZE : Int) < 4 + sizeofStateItem * intAt buf 0 then none
  else (stateItems buf).foldlM setState table

-- The pass over the devices, once the client is known to be alive.
def checkDevices (table : DevTable) (outside : DeviceNode → Bool) (sent : Bool) :
    Option (DevTable × List Outgoing) :=
  table.records.map fun devices =>
    let pids := (devices.values.filter (stopped outside)).map (·.pid)
    (table.map fun _ entry => entry.map fun p => if stopped outside p then { p with state := 1 } else p,
      if pids = [] then [] else if sent then [.groupStopPush pids] else [])

end DevTable

-- The operations that only ask.
inductive Query where
  | getState (pid : String)
  | checkPush (pid key : String)
  | getDeviceList

-- A client with its table as the map of pointers that it is. Reading through a null pointer
-- ends the process, and the table stays as it was at that moment.
structure PointerClient where
  livecount : UInt64
  devlist : DevTable
  ended : Bool := false

inductive TableEvent where
  | operation (event : DeviceEvent)
  | query (query : Query)

namespace PointerClient

def crash (client : PointerClient) : PointerClient := { client with ended := true }

-- The table an operation leaves, or the end of the process.
def settle (client : PointerClient) (result : Option (DevTable × List Outgoing)) :
    PointerClient × List Outgoing :=
  match result with
  | none => (client.crash, [])
  | some (devlist, out) => ({ client with devlist }, out)

def operate (client : PointerClient) : DeviceEvent → PointerClient × List Outgoing
  | .addCamera pid name allday s0 e0 s1 e1 draws sent =>
      client.settle (some (client.devlist.addCamera pid name allday s0 e0 s1 e1,
        changeFrame 1 pid draws sent))
  | .delCamera pid draws sent =>
      client.settle (if client.devlist[pid]?.isNone then some (client.devlist, [])
        else some (client.devlist.delCamera pid, changeFrame 0 pid draws sent))
  | .modifyCamera pid allday s0 e0 s1 e1 =>
      client.settle ((client.devlist.modifyCamera pid allday s0 e0 s1 e1).map (·, []))
  | .notifyPush devid env => client.settle ((client.devlist.notifyPush devid env).map (·.2))
  | .notifyStopPush devid env => client.settle ((client.devlist.notifyStopPush devid env).map (·.2))
  | .checkState cur outside sent =>
      client.settle (if cur - client.livecount > 20 * 1000 then some (client.devlist, [])
        else client.devlist.checkDevices outside sent)
  | .handleUpdateChange buf => client.settle ((client.devlist.handleUpdateChange buf).map (·, []))

def ask (client : PointerClient) : Query → PointerClient
  | .getState pid =>
      match client.devlist.getState pid with
      | (devlist, some _) => { client with devlist }
      | (devlist, none) => { client with devlist, ended := true }
  | .checkPush pid key => if (client.devlist.checkPush pid key).isSome then client else client.crash
  | .getDeviceList => if client.devlist.getDeviceList.isSome then client else client.crash

end PointerClient

-- Nothing happens any more after the process has ended.
def tableStep (client : PointerClient) (event : TableEvent) :
    Option (PointerClient × List Outgoing) :=
  if client.ended then none
  else match event with
    | .operation event => some (client.operate event)
    | .query query => some (client.ask query, [])

-- Every entry is a record that carries its own key.
def DevTable.WellFormed (table : DevTable) : Prop :=
  ∀ (pid : String) (entry : Option DeviceNode), table[pid]? = some entry →
    ∃ p, entry = some p ∧ p.pid = pid

-- The pointer table of a client without null pointers.
def pointers (devlist : DevList) : DevTable := devlist.map fun _ p => some p

def DevList.Keyed (devlist : DevList) : Prop :=
  ∀ (pid : String) (p : DeviceNode), devlist[pid]? = some p → p.pid = pid

@[simp] theorem pointers_getElem? (devlist : DevList) (pid : String) :
    (pointers devlist)[pid]? = devlist[pid]?.map some := by
  simp [pointers]

theorem pointers_insert (devlist : DevList) (pid : String) (p : DeviceNode) :
    (pointers devlist).insert pid (some p) = pointers (devlist.insert pid p) := by
  ext x entry
  rw [Std.ExtTreeMap.getElem?_insert, pointers_getElem?, pointers_getElem?,
    Std.ExtTreeMap.getElem?_insert]
  split <;> rfl

theorem pointers_erase (devlist : DevList) (pid : String) :
    (pointers devlist).erase pid = pointers (devlist.erase pid) := by
  ext x entry
  rw [Std.ExtTreeMap.getElem?_erase, pointers_getElem?, pointers_getElem?,
    Std.ExtTreeMap.getElem?_erase]
  split <;> rfl

-- The well-formed tables are the tables without null pointers whose records carry their keys.
theorem DevTable.wellFormed_iff (table : DevTable) :
    table.WellFormed ↔ ∃ devlist, table = pointers devlist ∧ DevList.Keyed devlist := by
  constructor
  · intro h
    refine ⟨table.filterMap fun _ entry => entry, ?_, ?_⟩
    · ext pid entry
      rw [pointers_getElem?, Std.ExtTreeMap.getElem?_filterMap']
      cases ht : table[pid]? with
      | none => simp
      | some e =>
          obtain ⟨p, rfl, -⟩ := h pid e ht
          simp
    · intro pid p hp
      rw [Std.ExtTreeMap.getElem?_filterMap'] at hp
      obtain ⟨entry, he, rfl⟩ := Option.bind_eq_some_iff.mp hp
      obtain ⟨p', hpp, hid⟩ := h pid _ he
      cases hpp
      exact hid
  · rintro ⟨devlist, rfl, hkeyed⟩ pid entry he
    rw [pointers_getElem?] at he
    obtain ⟨p, hp, rfl⟩ := Option.map_eq_some_iff.mp he
    exact ⟨p, rfl, hkeyed pid p hp⟩

theorem records_pointers (devlist : DevList) : (pointers devlist).records = some devlist := by
  unfold DevTable.records
  have hall : (pointers devlist).toList.all (·.2.isSome) = true := by
    rw [List.all_eq_true]
    rintro ⟨pid, entry⟩ hm
    have he := Std.ExtTreeMap.mem_toList_iff_getElem?_eq_some.mp hm
    rw [pointers_getElem?] at he
    obtain ⟨p, -, rfl⟩ := Option.map_eq_some_iff.mp he
    rfl
  rw [if_pos hall]
  congr 1
  ext pid p
  rw [Std.ExtTreeMap.getElem?_filterMap', pointers_getElem?]
  cases devlist[pid]? <;> simp

theorem onEntry_pointers {α : Type} (devlist : DevList) (pid : String) (unknown : α)
    (found : DeviceNode → α) :
    (pointers devlist).onEntry pid unknown found = some ((devlist[pid]?.map found).getD unknown) := by
  unfold DevTable.onEntry
  rw [pointers_getElem?]
  cases devlist[pid]? <;> rfl

-- A write through the pointer of an entry.
theorem onEntry_pointers_modify (devlist : DevList) (pid : String) (f : DeviceNode → DeviceNode) :
    (pointers devlist).onEntry pid (pointers devlist)
      (fun p => (pointers devlist).insert pid (some (f p))) = some (pointers (devlist.modify pid f)) := by
  rw [onEntry_pointers]
  congr 1
  ext x entry
  rw [pointers_getElem?, Std.ExtTreeMap.getElem?_modify]
  cases hp : devlist[pid]? with
  | none =>
      by_cases hx : pid = x
      · subst hx
        simp [hp]
      · simp [hx]
  | some p =>
      by_cases hx : pid = x
      · subst hx
        simp
      · simp [hx, Std.ExtTreeMap.getElem?_insert]

theorem notifyPush_pointers (devlist : DevList) (devid : String) (env : PushEnv) :
    (pointers devlist).notifyPush devid env =
      some ((notifyPush devlist devid env).1, pointers (notifyPush devlist devid env).2.1,
        (notifyPush devlist devid env).2.2) := by
  unfold DevTable.notifyPush notifyPush
  rw [onEntry_pointers]
  cases devlist[devid]? with
  | none => rfl
  | some pItem =>
      simp only [Option.map_some, Option.getD_some, pointers_insert]
      split_ifs
      · rfl
      · rfl
      · cases env.answer with
        | none => rfl
        | some answer =>
            simp only [Option.map_some]
            split_ifs <;> rfl

theorem notifyStopPush_pointers (devlist : DevList) (devid : String) (env : StopEnv) :
    (pointers devlist).notifyStopPush devid env =
      some ((notifyStopPush devlist devid env).1, pointers (notifyStopPush devlist devid env).2.1,
        (notifyStopPush devlist devid env).2.2) := by
  unfold DevTable.notifyStopPush notifyStopPush
  rw [onEntry_pointers]
  cases devlist[devid]? with
  | none => rfl
  | some pItem =>
      simp only [Option.map_some, Option.getD_some, pointers_insert]
      split_ifs <;> rfl

theorem foldlM_setState_pointers (items : List StateItem) (devlist : DevList) :
    items.foldlM DevTable.setState (pointers devlist) =
      some (pointers (items.foldl setState devlist)) := by
  induction items generalizing devlist with
  | nil => rfl
  | cons item rest ih =>
      rw [List.foldlM_cons, List.foldl_cons]
      have hset : (pointers devlist).setState item = some (pointers (setState devlist item)) :=
        onEntry_pointers_modify devlist item.pid _
      rw [hset]
      exact ih (setState devlist item)

theorem handleUpdateChange_pointers (devlist : DevList) (buf : Bytes) :
    (pointers devlist).handleUpdateChange buf = (handleUpdateChange devlist buf).map pointers := by
  unfold DevTable.handleUpdateChange handleUpdateChange
  split
  · rfl
  · exact foldlM_setState_pointers (stateItems buf) devlist

theorem checkDevices_pointers (devlist : DevList) (outside : DeviceNode → Bool) (sent : Bool) :
    (pointers devlist).checkDevices outside sent =
      some (pointers (stopDue outside devlist),
        if (devlist.values.filter (stopped outside)).map (·.pid) = [] then []
        else if sent then [.groupStopPush ((devlist.values.filter (stopped outside)).map (·.pid))]
        else []) := by
  have hmap : ((pointers devlist).map fun _ entry => entry.map fun p =>
      if stopped outside p then { p with state := 1 } else p) = pointers (stopDue outside devlist) := by
    ext pid entry
    simp only [pointers_getElem?, Std.ExtTreeMap.getElem?_map, stopDue, Option.map_map]
    rfl
  unfold DevTable.checkDevices
  rw [records_pointers, Option.map_some, hmap]

def PointerClient.of (client : CMSClient) : PointerClient where
  livecount := client.livecount
  devlist := pointers client.devlist

theorem operate_checkState (client : CMSClient) (cur : UInt64) (outside : DeviceNode → Bool)
    (sent : Bool) :
    (PointerClient.of client).operate (.checkState cur outside sent) =
      (.of (client.checkState cur outside sent).2.1, (client.checkState cur outside sent).2.2) := by
  simp only [PointerClient.operate, PointerClient.of, checkDevices_pointers, CMSClient.checkState]
  split_ifs <;> rfl

-- Without null pointers the operations do what they do on the table of records.
theorem operate_of {client last : CMSClient} {event : DeviceEvent} {out : List Outgoing}
    (hd : deviceStep client event = some (last, out)) :
    (PointerClient.of client).operate event = (.of last, out) := by
  cases event with
  | addCamera pid name allday s0 e0 s1 e1 draws sent =>
      cases hd
      simp only [PointerClient.operate, PointerClient.settle, PointerClient.of, DevTable.addCamera,
        pointers_insert, addCamera]
  | delCamera pid draws sent =>
      simp only [deviceStep] at hd
      simp only [PointerClient.operate, PointerClient.of, pointers_getElem?, Option.isNone_map,
        DevTable.delCamera, pointers_erase]
      split at hd
      · rename_i hn
        cases hd
        rw [if_pos hn]
        rfl
      · rename_i hn
        cases hd
        rw [if_neg hn]
        rfl
  | modifyCamera pid allday s0 e0 s1 e1 =>
      cases hd
      have hm := onEntry_pointers_modify client.devlist pid fun p => { p with allday, s0, e0, s1, e1 }
      simp only [PointerClient.operate, PointerClient.of, DevTable.modifyCamera, hm, modifyCamera]
      rfl
  | notifyPush devid env =>
      cases hd
      simp only [PointerClient.operate, PointerClient.of, notifyPush_pointers]
      rfl
  | notifyStopPush devid env =>
      cases hd
      simp only [PointerClient.operate, PointerClient.of, notifyStopPush_pointers]
      rfl
  | checkState cur outside sent =>
      have he : (client.checkState cur outside sent).2 = (last, out) := Option.some.inj hd
      rw [operate_checkState, he]
  | handleUpdateChange buf =>
      obtain ⟨devlist, hu, he⟩ := Option.map_eq_some_iff.mp hd
      cases he
      simp only [PointerClient.operate, PointerClient.of, handleUpdateChange_pointers, hu]
      rfl

-- The only operation without a result is a report that reads outside its frame.
theorem operate_of_none {client : CMSClient} {event : DeviceEvent}
    (hd : deviceStep client event = none) :
    (PointerClient.of client).operate event = ((PointerClient.of client).crash, []) := by
  cases event with
  | addCamera pid name allday s0 e0 s1 e1 draws sent => cases hd
  | delCamera pid draws sent =>
      simp only [deviceStep] at hd
      split at hd <;> cases hd
  | modifyCamera pid allday s0 e0 s1 e1 => cases hd
  | notifyPush devid env => cases hd
  | notifyStopPush devid env => cases hd
  | checkState cur outside sent => cases hd
  | handleUpdateChange buf =>
      have hu := Option.map_eq_none_iff.mp hd
      simp only [PointerClient.operate, PointerClient.of, handleUpdateChange_pointers, hu]
      rfl

namespace DevList

variable {devlist : DevList}

theorem Keyed.insert (h : Keyed devlist) (pid : String) (p : DeviceNode) (hp : p.pid = pid) :
    Keyed (devlist.insert pid p) := by
  intro x p' hp'
  rw [Std.ExtTreeMap.getElem?_insert] at hp'
  split at hp'
  · rename_i hx
    cases hp'
    rw [hp, Std.LawfulEqCmp.eq_of_compare hx]
  · exact h x p' hp'

theorem Keyed.erase (h : Keyed devlist) (pid : String) : Keyed (devlist.erase pid) := by
  intro x p' hp'
  rw [Std.ExtTreeMap.getElem?_erase] at hp'
  split at hp'
  · cases hp'
  · exact h x p' hp'

theorem Keyed.modify (h : Keyed devlist) (pid : String) (f : DeviceNode → DeviceNode)
    (hf : ∀ p, (f p).pid = p.pid) : Keyed (devlist.modify pid f) := by
  intro x p' hp'
  rw [Std.ExtTreeMap.getElem?_modify] at hp'
  split at hp'
  · rename_i hx
    obtain ⟨p, hp, rfl⟩ := Option.map_eq_some_iff.mp hp'
    rw [hf, ← Std.LawfulEqCmp.eq_of_compare hx]
    exact h pid p hp
  · exact h x p' hp'

theorem Keyed.notifyPush (h : Keyed devlist) (devid : String) (env : PushEnv) :
    Keyed (notifyPush devlist devid env).2.1 := by
  rcases notifyPush_cases devlist devid env with hsame | ⟨pItem, answer, hp, -, -, -, -, hi⟩
  · rw [hsame]
    exact h
  · rw [hi]
    exact h.insert devid _ (h devid pItem hp)

theorem Keyed.notifyStopPush (h : Keyed devlist) (devid : String) (env : StopEnv) :
    Keyed (notifyStopPush devlist devid env).2.1 := by
  unfold Adapter.notifyStopPush
  split
  · exact h
  · rename_i pItem hp
    split_ifs
    · exact h
    · exact h
    · exact h.insert devid _ (h devid pItem hp)
    · exact h

theorem Keyed.stopDue (h : Keyed devlist) (outside : DeviceNode → Bool) :
    Keyed (stopDue outside devlist) := by
  intro x p' hp'
  rw [Adapter.stopDue, Std.ExtTreeMap.getElem?_map] at hp'
  obtain ⟨p, hp, rfl⟩ := Option.map_eq_some_iff.mp hp'
  split <;> exact h x p hp

theorem Keyed.checkState {client : CMSClient} (h : Keyed client.devlist) (cur : UInt64)
    (outside : DeviceNode → Bool) (sent : Bool) :
    Keyed (client.checkState cur outside sent).2.1.devlist := by
  unfold CMSClient.checkState
  split
  · exact h
  · dsimp only
    split_ifs <;> exact h.stopDue outside

theorem Keyed.report (h : Keyed devlist) (items : List StateItem) :
    Keyed (items.foldl setState devlist) := by
  induction items generalizing devlist with
  | nil => exact h
  | cons item rest ih => exact ih (h.modify item.pid _ fun _ => rfl)

end DevList

theorem deviceStep_keyed {client last : CMSClient} {event : DeviceEvent} {out : List Outgoing}
    (h : DevList.Keyed client.devlist) (hd : deviceStep client event = some (last, out)) :
    DevList.Keyed last.devlist := by
  cases event with
  | addCamera pid name allday s0 e0 s1 e1 draws sent =>
      cases hd
      exact h.insert pid _ (newCamera_pid ..)
  | delCamera pid draws sent =>
      simp only [deviceStep] at hd
      split at hd
      · cases hd
        exact h
      · cases hd
        exact h.erase pid
  | modifyCamera pid allday s0 e0 s1 e1 =>
      cases hd
      exact h.modify pid _ fun _ => rfl
  | notifyPush devid env =>
      cases hd
      exact h.notifyPush devid env
  | notifyStopPush devid env =>
      cases hd
      exact h.notifyStopPush devid env
  | checkState cur outside sent =>
      have hc := h.checkState cur outside sent
      rwa [Option.some.inj hd] at hc
  | handleUpdateChange buf =>
      obtain ⟨devlist, hu, he⟩ := Option.map_eq_some_iff.mp hd
      cases he
      rw [handleUpdateChange_eq hu]
      exact h.report _

-- A client whose table is well-formed has the devices of a client without null pointers.
theorem exists_of_wellFormed {client : PointerClient} (h : client.devlist.WellFormed)
    (halive : client.ended = false) :
    ∃ c, client = .of c ∧ DevList.Keyed c.devlist := by
  obtain ⟨devlist, hd, hkeyed⟩ := (DevTable.wellFormed_iff _).mp h
  refine ⟨{ fd := 0, cmsid := "", livecount := client.livecount, devlist, msglist := [] }, ?_, hkeyed⟩
  obtain ⟨livecount, table, ended⟩ := client
  cases hd
  cases halive
  rfl

theorem wellFormed_of {c : CMSClient} (h : DevList.Keyed c.devlist) :
    (PointerClient.of c).devlist.WellFormed :=
  (DevTable.wellFormed_iff _).mpr ⟨c.devlist, rfl, h⟩

theorem operate_wellFormed {c : CMSClient} (h : DevList.Keyed c.devlist) (event : DeviceEvent) :
    ((PointerClient.of c).operate event).1.devlist.WellFormed := by
  cases hd : deviceStep c event with
  | none =>
      rw [operate_of_none hd]
      exact wellFormed_of h
  | some pair =>
      rw [operate_of hd]
      exact wellFormed_of (deviceStep_keyed h hd)

-- The questions that only look for an entry leave the client as it is.
theorem ask_checkPush (c : CMSClient) (pid key : String) :
    (PointerClient.of c).ask (.checkPush pid key) = .of c := by
  have hsome : ((pointers c.devlist).checkPush pid key).isSome = true := by
    unfold DevTable.checkPush
    rw [onEntry_pointers]
    rfl
  exact if_pos hsome

theorem ask_getDeviceList (c : CMSClient) :
    (PointerClient.of c).ask .getDeviceList = .of c := by
  have hsome : (pointers c.devlist).getDeviceList.isSome = true := by
    unfold DevTable.getDeviceList
    rw [records_pointers]
    rfl
  exact if_pos hsome

theorem ask_getState_known {c : CMSClient} {pid : String} {p : DeviceNode}
    (hp : c.devlist[pid]? = some p) : (PointerClient.of c).ask (.getState pid) = .of c := by
  have hi : (pointers c.devlist).index pid = pointers c.devlist := by
    simp [DevTable.index, hp]
  simp [PointerClient.ask, PointerClient.of, DevTable.getState, hi, hp]

-- The state of an unknown device is read through the null pointer that the look-up stored.
theorem ask_getState_unknown {c : CMSClient} {pid : String} (hn : c.devlist[pid]? = none) :
    (PointerClient.of c).ask (.getState pid) =
      { livecount := c.livecount, devlist := (pointers c.devlist).insert pid none, ended := true } := by
  have hi : (pointers c.devlist).index pid = (pointers c.devlist).insert pid none := by
    simp [DevTable.index, hn]
  simp [PointerClient.ask, PointerClient.of, DevTable.getState, hi]

-- `GetState` is asked only for a device that the adapter has.
def asksKnown (_ : List (TableEvent × List Outgoing)) (client : PointerClient) : TableEvent → Prop
  | .query (.getState pid) => pid ∈ client.devlist
  | _ => True

theorem mem_pointers {devlist : DevList} {pid : String} :
    pid ∈ pointers devlist ↔ ∃ p, devlist[pid]? = some p := by
  rw [Std.ExtTreeMap.mem_iff_isSome_getElem?, pointers_getElem?, Option.isSome_map,
    Option.isSome_iff_exists]

theorem step_wellFormed_iff {history : List (TableEvent × List Outgoing)}
    {client after : PointerClient} {event : TableEvent} {out : List Outgoing}
    (h : client.devlist.WellFormed) (hs : tableStep client event = some (after, out)) :
    asksKnown history client event ↔ after.devlist.WellFormed := by
  unfold tableStep at hs
  split at hs
  · cases hs
  rename_i halive
  obtain ⟨c, rfl, hkeyed⟩ := exists_of_wellFormed h (by simpa using halive)
  cases event with
  | operation event =>
      have he : ((PointerClient.of c).operate event).1 = after := congrArg Prod.fst (Option.some.inj hs)
      rw [← he]
      exact iff_of_true trivial (operate_wellFormed hkeyed event)
  | query query =>
      cases hs
      cases query with
      | getState pid =>
          cases hp : c.devlist[pid]? with
          | none =>
              rw [ask_getState_unknown hp]
              refine iff_of_false (fun hmem => ?_) (fun hwf => ?_)
              · obtain ⟨p, hp'⟩ := mem_pointers.mp hmem
                simp [hp] at hp'
              · obtain ⟨p, he, -⟩ := hwf pid none (by simp)
                cases he
          | some p =>
              rw [ask_getState_known hp]
              exact iff_of_true (mem_pointers.mpr ⟨p, hp⟩) h
      | checkPush pid key =>
          rw [ask_checkPush]
          exact iff_of_true trivial h
      | getDeviceList =>
          rw [ask_getDeviceList]
          exact iff_of_true trivial h

-- A question leaves a well-formed table as it is, or spoils it.
theorem ask_keeps_known {client after : PointerClient} {query : Query} {out : List Outgoing}
    (h : client.devlist.WellFormed) (hs : tableStep client (.query query) = some (after, out))
    (hafter : after.devlist.WellFormed) : after.devlist = client.devlist := by
  have hguard : asksKnown [] client (.query query) := (step_wellFormed_iff h hs).mpr hafter
  unfold tableStep at hs
  split at hs
  · cases hs
  rename_i halive
  obtain ⟨c, rfl, hkeyed⟩ := exists_of_wellFormed h (by simpa using halive)
  cases hs
  cases query with
  | getState pid =>
      obtain ⟨p, hp⟩ := mem_pointers.mp hguard
      rw [ask_getState_known hp]
  | checkPush pid key => rw [ask_checkPush]
  | getDeviceList => rw [ask_getDeviceList]

-- The client of a login with these camera rows.
def tableLoaded (livecount : UInt64) (rows : List TBDeviceEx) : PointerClient where
  livecount := livecount
  devlist := pointers (loadRows rows)

theorem tableLoaded_wellFormed (livecount : UInt64) (rows : List TBDeviceEx) :
    (tableLoaded livecount rows).devlist.WellFormed := by
  refine (DevTable.wellFormed_iff _).mpr ⟨loadRows rows, rfl, ?_⟩
  exact loadRows_forall (fun pid p => p.pid = pid) newCamera_pid rows

-- The table is well-formed in every state of a run, and every question leaves the set of
-- known devices as it is, exactly if `GetState` is asked only for known devices.
theorem table_wellFormed_iff {livecount : UInt64} {rows : List TBDeviceEx}
    {history : List (TableEvent × List Outgoing)} {final : PointerClient}
    (run : Run tableStep free (tableLoaded livecount rows) history final) :
    Run tableStep asksKnown (tableLoaded livecount rows) history final ↔
      ∀ earlier client, earlier <:+ history →
        Run tableStep free (tableLoaded livecount rows) earlier client →
        client.devlist.WellFormed ∧
        ∀ query out rest before, earlier = (.query query, out) :: rest →
          Run tableStep free (tableLoaded livecount rows) rest before →
          ∀ pid, pid ∈ client.devlist ↔ pid ∈ before.devlist := by
  rw [run.guarded_iff (fun _ client => client.devlist.WellFormed)
    (tableLoaded_wellFormed livecount rows) fun _ _ _ _ _ hwf hs => step_wellFormed_iff hwf hs]
  constructor
  · intro hall earlier client hsuffix hrun
    refine ⟨hall earlier client hsuffix hrun, ?_⟩
    rintro query out rest before rfl hbefore pid
    cases hrun with
    | next hrest _ hs =>
        obtain rfl := hrest.unique hbefore
        have hwf := hall rest _ ((List.suffix_cons _ _).trans hsuffix) hbefore
        rw [ask_keeps_known hwf hs (hall _ _ hsuffix (hrest.next trivial hs))]
  · exact fun hall earlier client hsuffix hrun => (hall earlier client hsuffix hrun).1

-- A test that is enough for a question after a state: the device is in the table.
def asksListed (_ : List (TableEvent × List Outgoing)) (client : PointerClient)
    (event : TableEvent) : Bool :=
  match event with
  | .query (.getState pid) => client.devlist.contains pid
  | _ => true

theorem asksKnown_of_asksListed (history : List (TableEvent × List Outgoing))
    (client : PointerClient) (event : TableEvent) (h : asksListed history client event = true) :
    asksKnown history client event := by
  cases event with
  | operation event => trivial
  | query query =>
      cases query with
      | getState pid => exact Std.ExtTreeMap.mem_iff_contains.mpr h
      | checkPush pid key => trivial
      | getDeviceList => trivial

def cameraRow (pid : String) : TBDeviceEx := { pid, name := pid, allday := 1 }

-- A known device is asked for, goes on line and is pushed.
theorem table_wellFormed_after_push :
    ∃ history client, Run tableStep asksKnown (tableLoaded 0 [cameraRow "d"]) history client ∧
      history.length = 4 ∧ client.devlist.WellFormed := by
  obtain ⟨history, client, run, ht⟩ := exists_run_of_ends tableStep asksKnown
    (tableLoaded 0 [cameraRow "d"])
    [.query (.getState "d"), .operation (.handleUpdateChange (encodeItems [⟨"d", 1⟩])),
      .operation (.notifyPush "d" (pushAnswered "t")), .query (.checkPush "x" "k")]
    (fun history _ => history.length = 4)
    (guarded_of_passes asksListed asksKnown_of_asksListed (by decide +kernel)) (by decide +kernel)
  have hfree := run.unguarded
  exact ⟨history, client, run, of_decide_eq_true ht,
    ((table_wellFormed_iff hfree).mp run history client (List.suffix_refl _) hfree).1⟩

-- The look-up of an unknown device stores a null pointer under its id.
theorem table_not_wellFormed :
    ¬ ∀ livecount rows history client,
      Run tableStep free (tableLoaded livecount rows) history client →
      client.devlist.WellFormed := by
  intro hall
  obtain ⟨history, client, run, ht⟩ := exists_run_of_ends tableStep free
    (tableLoaded 0 [cameraRow "d"]) [.query (.getState "x")]
    (fun _ client => client.devlist["x"]?.any (·.isNone)) (guarded_free ..) (by decide +kernel)
  obtain ⟨entry, he, hnone⟩ := (Option.any_eq_true _ _).mp ht
  obtain ⟨p, rfl, -⟩ := hall 0 [cameraRow "d"] history client run "x" entry he
  cases hnone

end VideoAdapter.Adapter
