import VideoAdapter.Lib.Buffer
import VideoAdapter.Adapter.DeviceStates
import VideoAdapter.Adapter.ReadTask

namespace VideoAdapter.Adapter

open Lib

-- `pid[20]` in `StateItem`; `flag` is right behind it.
def sizeofPid : Nat := 20

-- The bytes from each entry on that the loop of `HandleUpdateChange` reaches.
def entries (buf : Bytes) : List Bytes :=
  (List.range (intAt buf 0).toNat).map fun i => buf.drop (4 + sizeofStateItem * i)

-- The two copies of `HandleUpdateChange`, the second for each entry: where they start in the
-- body, and how many bytes they read.
def updateReads (buf : Bytes) : List (Nat × Nat) :=
  (0, 4) :: (List.range (intAt buf 0).toNat).map fun i => (4 + sizeofStateItem * i, sizeofStateItem)

-- Only received bytes are read, also by `find`, which reads the copied entry up to a NUL.
structure ReadsReceived (buf : Bytes) : Prop where
  copies : ∀ read ∈ updateReads buf, read.1 + read.2 ≤ buf.length
  texts : ∀ entry ∈ entries buf, 0 ∈ entry.take sizeofStateItem

-- An entry by its fields: the text of `pid` ends with the field.
def fieldItem (entry : Bytes) : StateItem where
  pid := cstrAt entry 0 sizeofPid
  flag := intAt entry 20

-- The complete entries of a body, at most as many as it announces.
def completeItems (buf : Bytes) : List StateItem :=
  (List.range (min (intAt buf 0).toNat ((buf.length - 4) / sizeofStateItem))).map fun i =>
    fieldItem (buf.drop (4 + sizeofStateItem * i))

-- The frame is served from the bytes received, and every device of the client has the last flag
-- that a complete entry carries for it. Nothing else changes.
def AppliedExactly (srv : TcpServer) (fd seq : Int) (pClient : CMSClient) (buf : Bytes)
    (env : FrameEnv) : Prop :=
  ReadsReceived buf ∧ ∃ after : DevList,
    handlerRead srv fd UPDATE_CHANGE seq buf env =
      some (srv.onClient fd fun p => { p with devlist := after }, []) ∧
    ∀ pid : String, after[pid]? = pClient.devlist[pid]?.map fun p =>
      { p with state := (reports pid (completeItems buf)).getLastD p.state }

-- The text at `info.pid` is that of the field: the NUL is in the field, or is the first byte of
-- `flag`.
def Clear (entry : Bytes) : Prop := 0 ∈ entry.take 21

-- The entry carries the id in its field, or as the text that starts there.
def Names (pid : String) (entry : Bytes) : Prop :=
  cstrAt entry 0 sizeofPid = pid ∨ cstrAt entry 0 sizeofStateItem = pid

instance (pid : String) (entry : Bytes) : Decidable (Names pid entry) :=
  inferInstanceAs (Decidable (_ ∨ _))

-- The body holds the entries it announces, each with a NUL. The last one that names a known
-- device is clear, or none is and the last carries the state the device has.
structure WellReported (devlist : DevList) (buf : Bytes) : Prop where
  count : 4 ≤ buf.length ∧ 4 + sizeofStateItem * intAt buf 0 ≤ buf.length
  texts : ∀ entry ∈ entries buf, 0 ∈ entry.take sizeofStateItem
  known : ∀ (pid : String) (p : DeviceNode), devlist[pid]? = some p →
    ∀ last, ((entries buf).filter (Names pid)).getLast? = some last →
      Clear last ∨ (∀ entry ∈ entries buf, Names pid entry → ¬ Clear entry) ∧ intAt last 20 = p.state

theorem stateItems_eq (buf : Bytes) : stateItems buf = (entries buf).map StateItem.decode := by
  rw [entries, List.map_map]
  rfl

theorem getLast?_filter_of_getLast? {α : Type} {p : α → Bool} {xs : List α} {x : α}
    (h : xs.getLast? = some x) (hx : p x = true) : (xs.filter p).getLast? = some x := by
  obtain ⟨front, rfl⟩ := List.getLast?_eq_some_iff.mp h
  rw [List.filter_append, List.filter_cons_of_pos hx, List.filter_nil]
  exact List.getLast?_concat

section Texts

variable {entry other : Bytes}

theorem length_cstrAt (size : Nat) :
    (cstrAt entry 0 size).length = (cstring (entry.take size)).length := by
  rw [cstrAt, List.drop_zero, String.length_ofList, List.length_map]
  rfl

theorem length_field_le : (cstrAt entry 0 sizeofPid).length ≤ sizeofPid := by
  rw [length_cstrAt]
  exact (length_cstring_le _).trans (List.length_take_le _ _)

theorem Clear.text (h : Clear entry) : cstrAt entry 0 sizeofStateItem = cstrAt entry 0 sizeofPid := by
  have hcstring : cstring (entry.take sizeofStateItem) = cstring (entry.take sizeofPid) :=
    cstring_take h (by decide)
  unfold cstrAt
  rw [List.drop_zero, List.drop_zero]
  exact congrArg (fun s => String.ofList (s.map fun b => Char.ofNat b.toNat)) hcstring

-- A text that runs on has more characters than a field.
theorem text_ne_of_not_clear (hlong : sizeofStateItem ≤ entry.length) (h : ¬ Clear entry) :
    cstrAt entry 0 sizeofStateItem ≠ cstrAt other 0 sizeofPid := by
  intro heq
  have hlonger : 21 ≤ (cstrAt entry 0 sizeofStateItem).length := by
    rw [length_cstrAt, le_length_cstring_iff, List.length_take, List.take_take]
    exact ⟨le_min (by decide) (le_trans (by decide) hlong), h⟩
  have hfield := @length_field_le other
  rw [← heq] at hfield
  exact absurd (hlonger.trans hfield) (by decide)

theorem intAt_emod (bytes : Bytes) (offset : Nat) :
    intAt bytes offset % 256 = (bytes.getD offset 0).toNat := by
  have hbyte : (bytes.getD offset 0).toNat < 256 := UInt8.toNat_lt _
  unfold intAt
  dsimp only
  rw [BitVec.toInt_eq_toNat_cond, BitVec.toNat_ofNat, Nat.add_zero]
  split
  · omega
  · omega

-- Of two entries with one full id in their fields, a clear one and one that is not have
-- different flags: only the first has the byte 0 behind the id.
theorem flag_ne (hlong : sizeofStateItem ≤ entry.length) (h : ¬ Clear entry) (hclear : Clear other)
    (hsame : cstrAt other 0 sizeofPid = cstrAt entry 0 sizeofPid) : intAt other 20 ≠ intAt entry 20 := by
  rw [Clear, List.take_add_one, List.mem_append] at h hclear
  obtain ⟨hfield, hbyte⟩ := not_or.mp h
  have hfull : sizeofPid ≤ (cstrAt entry 0 sizeofPid).length := by
    rw [length_cstrAt, le_length_cstring_iff, List.length_take, List.take_take]
    exact ⟨le_min le_rfl (le_trans (by decide) hlong), hfield⟩
  rw [← hsame, length_cstrAt, le_length_cstring_iff, List.take_take] at hfull
  have hother : other[20]? = some 0 := by
    have hmem := hclear.resolve_left hfull.2
    rwa [Option.mem_toList] at hmem
  have hlt : 20 < entry.length := lt_of_lt_of_le (by decide) hlong
  rw [List.getElem?_eq_getElem hlt, Option.mem_toList, Option.some_inj] at hbyte
  intro heq
  have hlow := congrArg (· % 256) heq
  simp only [intAt_emod, List.getD_eq_getElem?_getD, hother, List.getElem?_eq_getElem hlt,
    Option.getD_some, UInt8.toNat_zero] at hlow
  exact hbyte (UInt8.toNat_inj.mp (Int.ofNat_inj.mp hlow.symm))

end Texts

section Reports

variable {pid : String} {items : List Bytes}

theorem reports_map (decode : Bytes → StateItem) :
    reports pid (items.map decode) =
      (items.filter fun entry => (decode entry).pid = pid).map fun entry => (decode entry).flag := by
  rw [reports, List.filter_map, List.map_map]
  rfl

theorem reports_eq_nil {decode : Bytes → StateItem} (h : ∀ entry ∈ items, (decode entry).pid ≠ pid) :
    reports pid (items.map decode) = [] := by
  rw [reports_map, List.map_eq_nil_iff, List.filter_eq_nil_iff]
  intro entry hentry
  simpa using h entry hentry

theorem mem_reports (decode : Bytes → StateItem) {flag : Int} :
    flag ∈ reports pid (items.map decode) ↔
      ∃ entry ∈ items, (decode entry).pid = pid ∧ (decode entry).flag = flag := by
  rw [reports_map, List.mem_map]
  simp only [List.mem_filter, decide_eq_true_eq, and_assoc]

-- The last entry that names a device decides, if it is read as naming it.
theorem reports_getLast? (decode : Bytes → StateItem) {last : Bytes}
    (hnames : ∀ entry, (decode entry).pid = pid → Names pid entry)
    (hlast : (items.filter (Names pid)).getLast? = some last) (h : (decode last).pid = pid) :
    (reports pid (items.map decode)).getLast? = some (decode last).flag := by
  have hfilter : (items.filter fun entry => (decode entry).pid = pid) =
      (items.filter (Names pid)).filter fun entry => (decode entry).pid = pid := by
    rw [List.filter_filter]
    refine List.filter_congr fun entry _ => ?_
    by_cases hpid : (decode entry).pid = pid
    · simp [hpid, hnames entry hpid]
    · simp [hpid]
  rw [reports_map, List.getLast?_map, hfilter,
    getLast?_filter_of_getLast? hlast (decide_eq_true h), Option.map_some]

-- One device gets the flag of its last complete entry exactly if the last entry that names it is
-- clear, or none is and the last carries the state that it has.
theorem getLastD_reports_iff (hlong : ∀ entry ∈ items, sizeofStateItem ≤ entry.length) (state : Int) :
    (reports pid (items.map StateItem.decode)).getLastD state =
        (reports pid (items.map fieldItem)).getLastD state ↔
      ∀ last, (items.filter (Names pid)).getLast? = some last →
        Clear last ∨ (∀ entry ∈ items, Names pid entry → ¬ Clear entry) ∧ intAt last 20 = state := by
  cases hlast : (items.filter (Names pid)).getLast? with
  | none =>
      have hnone : ∀ entry ∈ items, ¬ Names pid entry := by
        rw [List.getLast?_eq_none_iff, List.filter_eq_nil_iff] at hlast
        simpa using hlast
      have hstring : reports pid (items.map StateItem.decode) = [] :=
        reports_eq_nil fun entry hentry heq => hnone entry hentry (.inr heq)
      have hfield : reports pid (items.map fieldItem) = [] :=
        reports_eq_nil fun entry hentry heq => hnone entry hentry (.inl heq)
      rw [hstring, hfield]
      exact iff_of_true rfl fun last h => by cases h
  | some last =>
      obtain ⟨hmem, hnames⟩ : last ∈ items ∧ Names pid last := by
        simpa using List.mem_filter.mp (List.mem_of_getLast? hlast)
      have hstring := reports_getLast? .decode (fun _ => .inr) hlast
      have hfield := reports_getLast? fieldItem (fun _ => .inl) hlast
      simp only [List.getLastD_eq_getLast?, Option.some.injEq, forall_eq']
      by_cases hclear : Clear last
      · -- both readings of the entry name the device
        refine iff_of_true ?_ (.inl hclear)
        have hpid : cstrAt last 0 sizeofPid = pid :=
          hnames.elim id fun htext => hclear.text.symm.trans htext
        rw [hstring (hclear.text.trans hpid), hfield hpid]
        rfl
      rw [or_iff_right hclear]
      have hlonglast := hlong last hmem
      rcases hnames with hpid | hpid
      · -- the field names the device, and the code looks for a longer id
        rw [hfield hpid, Option.getD_some]
        have hread : ∀ entry ∈ items, cstrAt entry 0 sizeofStateItem = pid → Clear entry := by
          intro entry hentry htext
          by_contra hc
          exact text_ne_of_not_clear (hlong entry hentry) hc (htext.trans hpid.symm)
        cases hflag : (reports pid (items.map StateItem.decode)).getLast? with
        | none =>
            have hnil := List.getLast?_eq_none_iff.mp hflag
            refine ⟨fun h => ⟨fun entry hentry hnamed hc => ?_, h.symm⟩, fun h => h.2.symm⟩
            have htext : cstrAt entry 0 sizeofStateItem = pid := hnamed.elim (hc.text.trans ·) id
            have hmem := (mem_reports .decode).mpr ⟨entry, hentry, htext, rfl⟩
            rw [hnil] at hmem
            cases hmem
        | some flag =>
            obtain ⟨entry, hentry, htext, rfl⟩ := (mem_reports .decode).mp (List.mem_of_getLast? hflag)
            have hc := hread entry hentry htext
            refine iff_of_false ?_ fun h => h.1 entry hentry (.inr htext) hc
            exact flag_ne hlonglast hclear hc (hc.text.symm.trans (htext.trans hpid.symm))
      · -- the longer id is that of a device, and no field can name it
        have hfields : ∀ entry ∈ items, cstrAt entry 0 sizeofPid ≠ pid := fun entry _ heq =>
          text_ne_of_not_clear hlonglast hclear (hpid.trans heq.symm)
        rw [hstring hpid, reports_eq_nil hfields]
        refine (and_iff_right fun entry hentry hnamed hc => ?_).symm
        exact hfields entry hentry (hnamed.elim id fun htext => hc.text.symm.trans htext)

end Reports

section Frames

variable {buf : Bytes} {srv : TcpServer} {fd seq : Int} {pClient : CMSClient} {env : FrameEnv}

theorem handlerRead_update (hclient : srv.findClient fd = some pClient) :
    handlerRead srv fd UPDATE_CHANGE seq buf env =
      (handleUpdateChange pClient.devlist buf).map fun devlist =>
        (srv.onClient fd fun p => { p with devlist }, []) := by
  rw [handlerRead, hclient]
  rfl

-- The copies read received bytes exactly if the body holds the entries it announces.
theorem copies_iff : (∀ read ∈ updateReads buf, read.1 + read.2 ≤ buf.length) ↔
    4 ≤ buf.length ∧ 4 + sizeofStateItem * intAt buf 0 ≤ buf.length := by
  unfold updateReads sizeofStateItem
  rw [List.forall_mem_cons, Nat.zero_add]
  refine and_congr_right fun hnum => ?_
  simp only [List.forall_mem_map, List.mem_range]
  constructor
  · intro h
    by_cases hpos : intAt buf 0 ≤ 0
    · omega
    · have hlast := h ((intAt buf 0).toNat - 1) (by omega)
      omega
  · intro h i hi
    omega

theorem length_of_mem_entries (hcount : 4 + sizeofStateItem * intAt buf 0 ≤ buf.length) :
    ∀ entry ∈ entries buf, sizeofStateItem ≤ entry.length := by
  intro entry hentry
  obtain ⟨i, hi, rfl⟩ := List.mem_map.mp hentry
  rw [List.mem_range] at hi
  rw [List.length_drop]
  unfold sizeofStateItem at hcount ⊢
  omega

theorem completeItems_eq (hcount : 4 + sizeofStateItem * intAt buf 0 ≤ buf.length) :
    completeItems buf = (entries buf).map fieldItem := by
  have hmin : min (intAt buf 0).toNat ((buf.length - 4) / sizeofStateItem) = (intAt buf 0).toNat := by
    refine min_eq_left ((Nat.le_div_iff_mul_le (by decide)).mpr ?_)
    unfold sizeofStateItem at hcount ⊢
    omega
  rw [completeItems, hmin, entries, List.map_map]
  rfl

theorem updated_iff (hsize : buf.length ≤ MAX_BUF_SIZE) (hclient : srv.findClient fd = some pClient)
    (hcount : 4 ≤ buf.length ∧ 4 + sizeofStateItem * intAt buf 0 ≤ buf.length) :
    (∃ after : DevList,
      handlerRead srv fd UPDATE_CHANGE seq buf env =
        some (srv.onClient fd fun p => { p with devlist := after }, []) ∧
      ∀ pid : String, after[pid]? = pClient.devlist[pid]?.map fun p =>
        { p with state := (reports pid (completeItems buf)).getLastD p.state }) ↔
    ∀ (pid : String) (p : DeviceNode), pClient.devlist[pid]? = some p →
      ∀ last, ((entries buf).filter (Names pid)).getLast? = some last → Clear last ∨
        (∀ entry ∈ entries buf, Names pid entry → ¬ Clear entry) ∧ intAt last 20 = p.state := by
  have hlong := length_of_mem_entries hcount.2
  have hupdate : handleUpdateChange pClient.devlist buf =
      some ((stateItems buf).foldl setState pClient.devlist) := by
    refine if_neg (not_or.mpr ⟨?_, by omega⟩)
    rintro rfl
    exact absurd hcount.1 (by decide)
  rw [handlerRead_update hclient, hupdate, Option.map_some, completeItems_eq hcount.2]
  constructor
  · rintro ⟨after, hsrv, hafter⟩ pid p hp
    have hfound : ∀ devlist : DevList, (srv.onClient fd fun p => { p with devlist }).findClient fd =
        some { pClient with devlist } :=
      fun _ => TcpServer.findClient_onClient (fun _ => rfl) hclient
    have hsame := congrArg (TcpServer.findClient · fd) (Prod.mk.inj (Option.some.inj hsrv)).1
    rw [hfound, hfound] at hsame
    obtain rfl := congrArg CMSClient.devlist (Option.some.inj hsame)
    have hstate := hafter pid
    rw [foldl_setState, stateItems_eq, hp] at hstate
    exact (getLastD_reports_iff hlong p.state).mp (congrArg DeviceNode.state (Option.some.inj hstate))
  · intro hknown
    refine ⟨_, rfl, fun pid => ?_⟩
    rw [foldl_setState, stateItems_eq]
    refine Option.map_congr fun p hp => ?_
    rw [(getLastD_reports_iff hlong p.state).mpr (hknown pid p hp)]

theorem appliedExactly_iff (hsize : buf.length ≤ MAX_BUF_SIZE)
    (hclient : srv.findClient fd = some pClient) :
    AppliedExactly srv fd seq pClient buf env ↔ WellReported pClient.devlist buf := by
  constructor
  · rintro ⟨⟨hcopies, htexts⟩, hupdated⟩
    have hcount := copies_iff.mp hcopies
    exact ⟨hcount, htexts, (updated_iff hsize hclient hcount).mp hupdated⟩
  · rintro ⟨hcount, htexts, hknown⟩
    exact ⟨⟨copies_iff.mpr hcount, htexts⟩, (updated_iff hsize hclient hcount).mpr hknown⟩

-- Clear entries are enough, whatever devices the client has.
theorem WellReported.of_clear {devlist : DevList}
    (hcount : 4 ≤ buf.length ∧ 4 + sizeofStateItem * intAt buf 0 ≤ buf.length)
    (hclear : ∀ entry ∈ entries buf, Clear entry) : WellReported devlist buf where
  count := hcount
  texts entry hentry := (List.take_subset_take_left entry (by decide)) (hclear entry hentry)
  known pid p _ last hlast :=
    .inl (hclear last (List.mem_of_mem_filter (List.mem_of_getLast? hlast)))

end Frames

-- An update that reaches `HandleUpdateChange` is applied exactly if the body holds the entries it
-- announces and no known device is last named by an id that runs into its flag, unless that
-- changes nothing.
theorem state_report_exact_iff {avail rest buf : Bytes} {seq : Int}
    (hframe : readTask avail = some (some ⟨UPDATE_CHANGE, seq, buf⟩, rest)) {srv : TcpServer} {fd : Int}
    {pClient : CMSClient} (hclient : srv.findClient fd = some pClient) (env : FrameEnv) :
    AppliedExactly srv fd seq pClient buf env ↔ WellReported pClient.devlist buf :=
  appliedExactly_iff (length_le_of_readTask hframe) hclient

-- A server with one client, which has one device, and a frame with this body.
def reporter (pid : String) : CMSClient where
  fd := 7
  cmsid := "c"
  livecount := 0
  devlist := addCamera ∅ pid "" 1 "" "" "" ""
  msglist := []

def reportFrame (body : Bytes) : Bytes :=
  field "atb" 4 ++ intBytes UPDATE_CHANGE ++ intBytes 0 ++ intBytes body.length ++ field "" 64 ++ body

def Applied (pid : String) (body : Bytes) : Prop :=
  AppliedExactly ⟨[reporter pid]⟩ 7 0 (reporter pid) body ⟨0, 0, "", none, true⟩

theorem state_report_exact_iff_online : Applied "d" (encodeItems [⟨"d", 1⟩]) := by
  have hframe : readTask (reportFrame (encodeItems [⟨"d", 1⟩])) =
      some (some ⟨UPDATE_CHANGE, 0, encodeItems [⟨"d", 1⟩]⟩, []) := by decide +kernel
  refine (state_report_exact_iff hframe rfl _).mpr (.of_clear (by decide +kernel) ?_)
  unfold Clear
  decide +kernel

-- An id that fills its field.
def fullId : String := "33010000001320000001"

-- An empty body, a body with fewer entries than it announces, and a report of a full id.
theorem state_report_misapplied :
    (readTask (reportFrame []) = some (some ⟨UPDATE_CHANGE, 0, []⟩, []) ∧ ¬ Applied "d" []) ∧
    (readTask (reportFrame (intBytes 2 ++ field "d" 20 ++ intBytes 1)) =
        some (some ⟨UPDATE_CHANGE, 0, intBytes 2 ++ field "d" 20 ++ intBytes 1⟩, []) ∧
      ¬ Applied "d" (intBytes 2 ++ field "d" 20 ++ intBytes 1)) ∧
    (readTask (reportFrame (encodeItems [⟨fullId, 1⟩])) =
        some (some ⟨UPDATE_CHANGE, 0, encodeItems [⟨fullId, 1⟩]⟩, []) ∧
      ¬ Applied fullId (encodeItems [⟨fullId, 1⟩])) := by
  refine ⟨⟨by decide +kernel, ?_⟩, ⟨by decide +kernel, ?_⟩, by decide +kernel, ?_⟩
  · rintro ⟨⟨hcopies, -⟩, -⟩
    exact absurd (copies_iff.mp hcopies).1 (by decide)
  · rintro ⟨⟨hcopies, -⟩, -⟩
    exact absurd (copies_iff.mp hcopies).2 (by decide +kernel)
  · intro happlied
    have hwell := (appliedExactly_iff (by decide +kernel) rfl).mp happlied
    have hdevice : (reporter fullId).devlist[fullId]? = some (newCamera fullId "" 1 "" "" "" "") :=
      Std.ExtTreeMap.getElem?_insert_self
    have hlast : ((entries (encodeItems [⟨fullId, 1⟩])).filter (Names fullId)).getLast? =
        some (field fullId 20 ++ intBytes 1) := by decide +kernel
    rcases hwell.known fullId _ hdevice _ hlast with hclear | ⟨-, hflag⟩
    · revert hclear
      unfold Clear
      decide +kernel
    · revert hflag
      decide +kernel

end VideoAdapter.Adapter
