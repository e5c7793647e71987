import VideoAdapter.Adapter.Frames
import VideoAdapter.Adapter.Schedule

namespace VideoAdapter.Adapter

open Lib

-- What the loop of `CheckState` works on.
structure StopPass where
  devlist : DevList
  sendbuf : Bytes
  iNum : Nat

section Pass

variable (mktime : Tm → Int)

-- One round of the loop. No result where the copy leaves the array.
def stopEntry (strtime : String) (pass : StopPass) (entry : String × DeviceNode) : Option StopPass :=
  let p := entry.2
  if p.state = 2 ∧ p.allday = 0 then
    if p.s0 = "" then some pass
    else if checkInternal mktime strtime p.s0 p.e0 then some pass
    else if p.s1 ≠ "" ∧ checkInternal mktime strtime p.s1 p.e1 then some pass
    else
      (copyAt pass.sendbuf (sizeofMsgHeader + pass.iNum * 20) (idBytes p.pid)).map fun sendbuf =>
        { devlist := pass.devlist.insert entry.1 { p with state := 1 }, sendbuf, iNum := pass.iNum + 1 }
  else some pass

def stopLoop (strtime : String) : List (String × DeviceNode) → StopPass → Option StopPass
  | [], pass => some pass
  | entry :: rest, pass => (stopEntry mktime strtime pass entry).bind (stopLoop strtime rest)

-- `CheckState` with its buffer: the result, the client and the frames handed to the socket.
def CMSClient.checkStatePass (client : CMSClient) (cur : UInt64) (strtime : String) (sent : Bool) :
    Option (Bool × CMSClient × List Bytes) :=
  if cur - client.livecount > 20 * 1000 then some (false, client, [])
  else do
    let pass ← stopLoop mktime strtime client.devlist.toList
      { devlist := client.devlist, sendbuf := zeros (5 * 1024), iNum := 0 }
    let client := { client with devlist := pass.devlist }
    if pass.iNum = 0 then return (true, client, [])
    let size := 20 * pass.iNum
    let sendbuf ← copyAt pass.sendbuf 0 (header GROUP_STOP_PUSH 0 size)
    -- the send reads this many bytes of the array
    if sizeofMsgHeader + size > 5 * 1024 then none
    return (sent, client, [sendbuf.take (sizeofMsgHeader + size)])

end Pass

instance (starttime endtime : String) (t : Tm) : Decidable (Inside starttime endtime t) :=
  match hS : strptime starttime, hE : strptime endtime with
  | some tmS, some tmE =>
      decidable_of_iff (tmS.seconds ≤ t.seconds ∧ t.seconds ≤ tmE.seconds)
        ⟨fun h => ⟨tmS, tmE, hS, hE, h⟩, fun ⟨a, b, ha, hb, h⟩ => by
          rw [hS] at ha
          rw [hE] at hb
          cases ha
          cases hb
          exact h⟩
  | none, _ => isFalse fun ⟨_, _, ha, _⟩ => by rw [hS] at ha; cases ha
  | some _, none => isFalse fun ⟨_, _, _, hb, _⟩ => by rw [hE] at hb; cases hb

-- The devices that have to stop at a time of day.
def Due (t : Tm) (p : DeviceNode) : Prop :=
  p.state = 2 ∧ p.allday = 0 ∧ p.s0 ≠ "" ∧ ¬ Inside p.s0 p.e0 t ∧ (p.s1 ≠ "" → ¬ Inside p.s1 p.e1 t)

instance (t : Tm) (p : DeviceNode) : Decidable (Due t p) :=
  inferInstanceAs (Decidable (_ ∧ _ ∧ _ ∧ _ ∧ (_ → _)))

def dueEntries (t : Tm) (entries : List (String × DeviceNode)) : List (String × DeviceNode) :=
  entries.filter fun entry => Due t entry.2

def stop (p : DeviceNode) : DeviceNode := { p with state := 1 }

section Due

variable {mktime : Tm → Int}

-- The conditions as the loop asks for them, one after the other.
theorem due_iff_checks (hmk : Increasing mktime) (t : TimeOfDay) (p : DeviceNode) :
    Due t.toTm p ↔ (p.state = 2 ∧ p.allday = 0) ∧ p.s0 ≠ "" ∧
      ¬ checkInternal mktime (getCurrentTime t) p.s0 p.e0 = true ∧
      ¬ (p.s1 ≠ "" ∧ checkInternal mktime (getCurrentTime t) p.s1 p.e1 = true) := by
  unfold Due
  by_cases h0 : p.s0 = ""
  · simp [h0]
  · rw [checkInternal_iff hmk t h0]
    by_cases h1 : p.s1 = ""
    · simp [h1, and_assoc]
    · rw [checkInternal_iff hmk t h1]
      simp [h1, and_assoc]

theorem stopEntry_eq (hmk : Increasing mktime) (t : TimeOfDay) (pass : StopPass)
    (entry : String × DeviceNode) :
    stopEntry mktime (getCurrentTime t) pass entry =
      if Due t.toTm entry.2 then
        (copyAt pass.sendbuf (sizeofMsgHeader + pass.iNum * 20) (idBytes entry.2.pid)).map fun sendbuf =>
          { devlist := pass.devlist.insert entry.1 (stop entry.2), sendbuf, iNum := pass.iNum + 1 }
      else some pass := by
  have hdue := due_iff_checks hmk t entry.2
  unfold stopEntry
  dsimp only
  by_cases hpush : entry.2.state = 2 ∧ entry.2.allday = 0
  · rw [if_pos hpush]
    by_cases h0 : entry.2.s0 = ""
    · rw [if_pos h0, if_neg fun h => (hdue.mp h).2.1 h0]
    · rw [if_neg h0]
      by_cases hin : checkInternal mktime (getCurrentTime t) entry.2.s0 entry.2.e0 = true
      · rw [if_pos hin, if_neg fun h => (hdue.mp h).2.2.1 hin]
      · rw [if_neg hin]
        by_cases hin' : entry.2.s1 ≠ "" ∧
            checkInternal mktime (getCurrentTime t) entry.2.s1 entry.2.e1 = true
        · rw [if_pos hin', if_neg fun h => (hdue.mp h).2.2.2 hin']
        · rw [if_neg hin', if_pos (hdue.mpr ⟨hpush, h0, hin, hin'⟩)]
          rfl
  · rw [if_neg hpush, if_neg fun h => hpush (hdue.mp h).1]

-- The loop copies the ids of the devices that are due into the slots behind the header.
theorem stopLoop_eq (hmk : Increasing mktime) (t : TimeOfDay) (entries : List (String × DeviceNode))
    (pass : StopPass) :
    stopLoop mktime (getCurrentTime t) entries pass =
      (copySlots 20 pass.sendbuf (sizeofMsgHeader + pass.iNum * 20)
        ((dueEntries t.toTm entries).map fun entry => idBytes entry.2.pid)).map fun sendbuf =>
          { devlist := (dueEntries t.toTm entries).foldl
              (fun devlist entry => devlist.insert entry.1 (stop entry.2)) pass.devlist,
            sendbuf, iNum := pass.iNum + (dueEntries t.toTm entries).length } := by
  induction entries generalizing pass with
  | nil => rfl
  | cons entry rest ih =>
      rw [stopLoop, stopEntry_eq hmk]
      by_cases hdue : Due t.toTm entry.2
      · have hfilter : dueEntries t.toTm (entry :: rest) = entry :: dueEntries t.toTm rest :=
          List.filter_cons_of_pos (decide_eq_true hdue)
        rw [if_pos hdue, hfilter, List.map_cons, copySlots, Option.bind_map, Option.map_bind]
        refine congrArg _ (funext fun sendbuf => ?_)
        simp only [Function.comp_apply, ih, List.foldl_cons, List.length_cons]
        rw [Nat.succ_mul, ← Nat.add_assoc, Nat.add_assoc pass.iNum 1, Nat.add_comm 1]
      · have hfilter : dueEntries t.toTm (entry :: rest) = dueEntries t.toTm rest :=
          List.filter_cons_of_neg (by simpa using hdue)
        rw [if_neg hdue, hfilter]
        exact ih pass

end Due

-- Writes under distinct keys, each seen under its own.
theorem getElem?_foldl_insert {f : DeviceNode → DeviceNode} (entries : List (String × DeviceNode))
    (hkeys : (entries.map (·.1)).Nodup) (devlist : DevList) (pid : String) :
    (entries.foldl (fun devlist entry => devlist.insert entry.1 (f entry.2)) devlist)[pid]? =
      match entries.find? fun entry => entry.1 = pid with
      | some entry => some (f entry.2)
      | none => devlist[pid]? := by
  induction entries generalizing devlist with
  | nil => rfl
  | cons entry rest ih =>
      obtain ⟨hnot, hrest⟩ := List.nodup_cons.mp hkeys
      rw [List.foldl_cons, ih hrest]
      by_cases hpid : entry.1 = pid
      · have hnone : rest.find? (fun entry => entry.1 = pid) = none := by
          rw [List.find?_eq_none]
          intro other hother hsame
          have hsame' : other.1 = pid := by simpa using hsame
          exact hnot (List.mem_map.mpr ⟨other, hother, hsame'.trans hpid.symm⟩)
        rw [hnone, List.find?_cons_of_pos (by simpa using hpid)]
        simp [hpid]
      · rw [List.find?_cons_of_neg (by simpa using hpid)]
        cases rest.find? fun entry => entry.1 = pid with
        | none => simp [Std.ExtTreeMap.getElem?_insert, hpid]
        | some other => rfl

-- What a pass makes of the device table.
theorem getElem?_stopDue (t : Tm) (devlist : DevList) (pid : String) :
    ((dueEntries t devlist.toList).foldl (fun devlist entry => devlist.insert entry.1 (stop entry.2))
      devlist)[pid]? = (devlist[pid]?).map fun p => if Due t p then stop p else p := by
  have hkeys : ((dueEntries t devlist.toList).map (·.1)).Nodup := by
    refine List.Nodup.sublist (List.Sublist.map _ List.filter_sublist) ?_
    rw [Std.ExtTreeMap.map_fst_toList_eq_keys]
    exact Std.ExtTreeMap.nodup_keys
  have hmem (p : DeviceNode) : (pid, p) ∈ dueEntries t devlist.toList ↔ devlist[pid]? = some p ∧ Due t p := by
    rw [dueEntries, List.mem_filter, Std.ExtTreeMap.mem_toList_iff_getElem?_eq_some, decide_eq_true_eq]
  rw [getElem?_foldl_insert _ hkeys]
  split
  · rename_i entry hfind
    obtain rfl : entry.1 = pid := by simpa using List.find?_some hfind
    obtain ⟨hget, hdue⟩ := (hmem entry.2).mp (List.mem_of_find?_eq_some hfind)
    rw [hget, Option.map_some, if_pos hdue]
  · rename_i hnone
    cases hget : devlist[pid]? with
    | none => rfl
    | some p =>
        have hnot : ¬ Due t p := fun hdue => by
          have hno := List.find?_eq_none.mp hnone (pid, p) ((hmem p).mpr ⟨hget, hdue⟩)
          simp at hno
        rw [Option.map_some, if_neg hnot]

theorem not_due_stop (t : Tm) (p : DeviceNode) : ¬ Due t (stop p) := fun h => by
  have hstate : (1 : Int) = 2 := h.1
  omega

-- The devices that a pass stops, in the order of their ids.
def stopList (t : Tm) (devlist : DevList) : List DeviceNode :=
  (dueEntries t devlist.toList).map (·.2)

-- The ids stay inside `sendbuf[5*1024]`, and so does what is sent of it.
def StopListFits (stops : List DeviceNode) : Prop :=
  sizeofMsgHeader + 20 * stops.length ≤ 5 * 1024 ∧
    ∀ i p, stops[i]? = some p → sizeofMsgHeader + 20 * i + (idBytes p.pid).length ≤ 5 * 1024

-- A frame behind its header, as far as it is sent.
theorem decode_taken {sendbuf filled : Bytes} {cmd seq : Int} {size : Nat}
    (h : copyAt sendbuf 0 (header cmd seq size) = some filled) (hsize : size < 2 ^ 31) :
    (MsgHeader.decode (filled.take (sizeofMsgHeader + size))).size = size ∧
      (MsgHeader.decode (filled.take (sizeofMsgHeader + size))).cmd = (BitVec.ofInt 32 cmd).toInt := by
  unfold copyAt at h
  split at h
  · cases h
    rw [List.take_zero, List.nil_append, List.take_append, length_header, List.take_of_length_le
      (by rw [length_header]; omega)]
    obtain ⟨hcmd, hlen⟩ := decode_header cmd seq size _
    rw [hcmd, hlen, toInt_ofInt_of_small (by omega) (by omega)]
    exact ⟨rfl, rfl⟩
  · cases h

-- What a pass at a time of day makes of a client, and what it sends.
structure Enforced (t : Tm) (client client' : CMSClient) (frames : List Bytes) : Prop where
  getElem?_devlist : ∀ pid : String, client'.devlist[pid]? =
    (client.devlist[pid]?).map fun p => if Due t p then { p with state := 1 } else p
  rest_eq : { client' with devlist := client.devlist } = client
  frames_eq_nil_iff : frames = [] ↔ stopList t client.devlist = []
  length_frames_le : frames.length ≤ 1
  stop_frame : ∀ frame ∈ frames, (MsgHeader.decode frame).cmd = GROUP_STOP_PUSH ∧
    (MsgHeader.decode frame).size = 20 * (stopList t client.devlist).length ∧
    frame.length = sizeofMsgHeader + 20 * (stopList t client.devlist).length

section Passes

variable {mktime : Tm → Int}

-- A pass whose heartbeat test succeeds, with the devices it stops as a list.
theorem checkStatePass_eq (hmk : Increasing mktime) {client : CMSClient} {cur : UInt64} (t : TimeOfDay)
    (sent : Bool) (hlive : ¬ cur - client.livecount > 20 * 1000)
    (hfits : StopListFits (stopList t.toTm client.devlist)) :
    ∃ devlist, (∀ pid : String, devlist[pid]? = (client.devlist[pid]?).map fun p =>
        if Due t.toTm p then stop p else p) ∧
      (stopList t.toTm client.devlist = [] ∧
          client.checkStatePass mktime cur (getCurrentTime t) sent = some (true, { client with devlist }, []) ∨
        stopList t.toTm client.devlist ≠ [] ∧ ∃ frame,
          client.checkStatePass mktime cur (getCurrentTime t) sent =
            some (sent, { client with devlist }, [frame]) ∧
          (MsgHeader.decode frame).cmd = GROUP_STOP_PUSH ∧
          (MsgHeader.decode frame).size = 20 * (stopList t.toTm client.devlist).length ∧
          frame.length = sizeofMsgHeader + 20 * (stopList t.toTm client.devlist).length) := by
  refine ⟨_, getElem?_stopDue t.toTm client.devlist, ?_⟩
  have hids : (dueEntries t.toTm client.devlist.toList).map (fun entry => idBytes entry.2.pid) =
      (stopList t.toTm client.devlist).map fun p => idBytes p.pid := by
    rw [stopList, List.map_map]
    rfl
  have hcount : (stopList t.toTm client.devlist).length =
      (dueEntries t.toTm client.devlist.toList).length := List.length_map _
  obtain ⟨sendbuf, hslots, hlen⟩ : ∃ filled, copySlots 20 (zeros (5 * 1024)) (sizeofMsgHeader + 0 * 20)
      ((stopList t.toTm client.devlist).map fun p => idBytes p.pid) = some filled ∧
        filled.length = (zeros (5 * 1024)).length := by
    refine exists_copySlots fun i id hi => ?_
    rw [List.getElem?_map, Option.map_eq_some_iff] at hi
    obtain ⟨p, hp, rfl⟩ := hi
    have hroom := hfits.2 i p hp
    rw [length_zeros]
    omega
  have hloop := stopLoop_eq hmk t client.devlist.toList
    { devlist := client.devlist, sendbuf := zeros (5 * 1024), iNum := 0 }
  rw [hids, hslots, Option.map_some, ← hcount, Nat.zero_add] at hloop
  unfold CMSClient.checkStatePass
  rw [if_neg hlive, hloop]
  by_cases hnone : stopList t.toTm client.devlist = []
  · rw [hnone, List.length_nil]
    exact .inl ⟨rfl, rfl⟩
  · have hsome : (stopList t.toTm client.devlist).length ≠ 0 := by simpa using hnone
    have hroom := hfits.1
    rw [length_zeros] at hlen
    obtain ⟨filled, hfilled⟩ : ∃ filled, copyAt sendbuf 0 (header GROUP_STOP_PUSH 0
        (20 * (stopList t.toTm client.devlist).length : Nat)) = some filled := by
      refine ⟨_, if_pos ?_⟩
      rw [length_header, hlen]
      decide
    obtain ⟨hsize, hcmd⟩ := decode_taken hfilled (by unfold sizeofMsgHeader at hroom; omega)
    refine .inr ⟨hnone, _, ?_, hcmd, ?_, ?_⟩
    · simp only [Option.bind_eq_bind, Option.bind_some, if_neg hsome, hfilled, if_neg (Nat.not_lt.mpr hroom)]
      rfl
    · simpa using hsize
    · rw [List.length_take, length_copyAt hfilled, hlen]
      omega

-- After a pass no device of the table is due.
theorem Enforced.stopList_eq_nil {t : Tm} {client client' : CMSClient} {frames : List Bytes}
    (h : Enforced t client client' frames) : stopList t client'.devlist = [] := by
  rw [stopList, List.map_eq_nil_iff, dueEntries, List.filter_eq_nil_iff]
  rintro ⟨pid, p⟩ hmem hdue
  rw [Std.ExtTreeMap.mem_toList_iff_getElem?_eq_some, h.getElem?_devlist, Option.map_eq_some_iff] at hmem
  obtain ⟨q, -, rfl⟩ := hmem
  have hdue' := of_decide_eq_true hdue
  by_cases hq : Due t q
  · rw [if_pos hq] at hdue'
    exact not_due_stop t q hdue'
  · rw [if_neg hq] at hdue'
    exact hq hdue'

-- A pass over a table without a device that is due leaves the client as it is.
theorem checkStatePass_of_stopList_eq_nil (hmk : Increasing mktime) {client : CMSClient} (cur : UInt64)
    (t : TimeOfDay) (sent : Bool) (hnone : stopList t.toTm client.devlist = []) :
    ∃ ret, client.checkStatePass mktime cur (getCurrentTime t) sent = some (ret, client, []) := by
  by_cases hlive : cur - client.livecount > 20 * 1000
  · exact ⟨false, by rw [CMSClient.checkStatePass, if_pos hlive]⟩
  · have hdue : dueEntries t.toTm client.devlist.toList = [] := List.map_eq_nil_iff.mp hnone
    refine ⟨true, ?_⟩
    rw [CMSClient.checkStatePass, if_neg hlive, stopLoop_eq hmk, hdue]
    rfl

-- The pass with its buffer makes of the table what `checkState` makes of it.
theorem Enforced.devlist_eq (hmk : Increasing mktime) {client client' : CMSClient} {cur : UInt64}
    {t : TimeOfDay} {frames : List Bytes} (sent : Bool) (hlive : ¬ cur - client.livecount > 20 * 1000)
    (h : Enforced t.toTm client client' frames) :
    client'.devlist =
      (client.checkState cur (outsideWindows mktime (getCurrentTime t)) sent).2.1.devlist := by
  refine Std.ExtTreeMap.ext_getElem? fun pid => ?_
  rw [h.getElem?_devlist, checkState_devlist _ _ hlive]
  refine congrArg (Option.map · _) (funext fun p => ?_)
  have hsame : stopped (outsideWindows mktime (getCurrentTime t)) p = true ↔ Due t.toTm p := by
    rw [due_iff_checks hmk]
    simp [stopped, outsideWindows, and_assoc, or_iff_not_imp_left]
  by_cases hdue : Due t.toTm p
  · rw [if_pos hdue, if_pos (hsame.mpr hdue)]
  · rw [if_neg hdue, if_neg (mt hsame.mp hdue)]

-- A pass stops the devices that are due and no others, tells the adapter so, and has nothing left
-- to do at the same time of day.
theorem checkStatePass_exact (hmk : Increasing mktime) {client : CMSClient} {cur : UInt64} (t : TimeOfDay)
    (sent : Bool) (hlive : ¬ cur - client.livecount > 20 * 1000)
    (hfits : StopListFits (stopList t.toTm client.devlist)) :
    ∃ ret client' frames,
      client.checkStatePass mktime cur (getCurrentTime t) sent = some (ret, client', frames) ∧
        Enforced t.toTm client client' frames ∧
        ∀ cur' sent', ∃ ret',
          client'.checkStatePass mktime cur' (getCurrentTime t) sent' = some (ret', client', []) := by
  obtain ⟨devlist, hdevlist, ⟨hnone, hpass⟩ | ⟨hsome, frame, hpass, hcmd, hsize, hlength⟩⟩ :=
    checkStatePass_eq hmk t sent hlive hfits
  · have henforced : Enforced t.toTm client { client with devlist } [] :=
      { getElem?_devlist := hdevlist
        rest_eq := rfl
        frames_eq_nil_iff := iff_of_true rfl hnone
        length_frames_le := Nat.zero_le 1
        stop_frame := fun _ hmem => absurd hmem List.not_mem_nil }
    exact ⟨true, _, [], hpass, henforced, fun cur' sent' =>
      checkStatePass_of_stopList_eq_nil hmk cur' t sent' henforced.stopList_eq_nil⟩
  · have henforced : Enforced t.toTm client { client with devlist } [frame] :=
      { getElem?_devlist := hdevlist
        rest_eq := rfl
        frames_eq_nil_iff := iff_of_false (List.cons_ne_nil frame []) hsome
        length_frames_le := Nat.le_refl 1
        stop_frame := fun other hmem => by
          obtain rfl := List.mem_singleton.mp hmem
          exact ⟨hcmd, hsize, hlength⟩ }
    exact ⟨sent, _, [frame], hpass, henforced, fun cur' sent' =>
      checkStatePass_of_stopList_eq_nil hmk cur' t sent' henforced.stopList_eq_nil⟩

-- At half past twelve the camera with a morning and an afternoon is the one that stops.
theorem checkStatePass_exact_noon :
    ∃ ret client' frames,
      workingClient.checkStatePass (fun tm => tm.seconds) 1000 (getCurrentTime halfPastTwelve) true =
          some (ret, client', frames) ∧
        Enforced halfPastTwelve.toTm workingClient client' frames ∧
        ∀ cur' sent', ∃ ret',
          client'.checkStatePass (fun tm => tm.seconds) cur' (getCurrentTime halfPastTwelve) sent' =
            some (ret', client', []) := by
  refine checkStatePass_exact (fun _ _ => Int.ofNat_le) halfPastTwelve true (by decide) ?_
  have hstops : stopList halfPastTwelve.toTm workingClient.devlist = [workingCamera] := by decide +kernel
  rw [hstops]
  refine ⟨by decide, fun i p hi => ?_⟩
  cases i with
  | zero =>
      cases hi
      decide +kernel
  | succ i => cases hi

end Passes

end VideoAdapter.Adapter
