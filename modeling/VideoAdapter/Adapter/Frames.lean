import Mathlib.Algebra.Order.Ring.Nat
import Mathlib.Data.List.GetD
import VideoAdapter.Lib.Buffer
import VideoAdapter.Adapter.DBHelper

namespace VideoAdapter.Adapter

open Lib

def RESP_LOGIN : Int := 0x10001
def KEEP_ALIVE_RE : Int := 0x10011
def REQ_PUSH : Int := 0x10030
def REQ_STOP_PUSH : Int := 0x10032
def NOTIFY_DEVICE_CHANGE : Int := 0x10050
def GROUP_STOP_PUSH : Int := 0x10060

-- `pid[20]`, `key[20]`, `resv[64]`
def sizeofReqPush : Nat := 104

-- `pid[20]`, `resv[64]`
def sizeofReqStopPush : Nat := 84

-- `type`, `pid[20]`
def sizeofDeviceListChange : Nat := 24

-- `result`, `size`, `resv[64]`
def sizeofRespLogin : Nat := 72

-- The frames with device ids, by the bytes of the texts the server puts in. The key of a
-- `REQ_PUSH` and the sequence numbers of the requests come from the draws of the moment.
inductive OutFrame where
  | keepAliveRe (seq : Int)
  | reqPush (pid : Bytes) (draws : Nat → Nat)
  | reqStopPush (pid : Bytes) (draws : Nat → Nat)
  | notifyDeviceChange (added : Bool) (pid : Bytes) (draws : Nat → Nat)
  | respLogin (seq result : Int) (kid : Bytes) (pids : List Bytes)
  | groupStopPush (pids : List Bytes)

-- The bytes of an id, as many as it has characters.
def idBytes (pid : String) : Bytes := pid.toList.map fun c => UInt8.ofNat c.toNat

def pushKey (draws : Nat → Nat) : Bytes :=
  (generalToken draws 10).toList.map fun c => UInt8.ofNat c.toNat

def header (cmd seq size : Int) : Bytes :=
  [97, 116, 98, 0] ++ (intBytes cmd ++ (intBytes seq ++ (intBytes size ++ zeros 64)))

-- A header and a structure of this size in `sendbuf[1024]`, as far as they are sent.
def sendbuf1024 (cmd seq : Int) (size : Nat) (req : Bytes) : Option Bytes := do
  let sendbuf ← copyAt (zeros 1024) 0 (header cmd seq size)
  let sendbuf ← copyAt sendbuf sizeofMsgHeader req
  return sendbuf.take (sizeofMsgHeader + size)

def respLoginStruct (result : Int) (kid : Bytes) (count : Nat) : Option Bytes := do
  let resp ← copyAt (zeros sizeofRespLogin) 0 (intBytes result)
  let resp ← copyAt resp 4 (intBytes count)
  if result = 0 then strcpyAt resp 8 kid else some resp

namespace OutFrame

def build : OutFrame → Option Bytes
  | .keepAliveRe seq => some (header KEEP_ALIVE_RE seq 0)
  | .reqPush pid draws => do
      let req ← strcpyAt (zeros sizeofReqPush) 0 pid
      let req ← strcpyAt req 20 (pushKey draws)
      sendbuf1024 REQ_PUSH (generalSeqnumber draws) sizeofReqPush req
  | .reqStopPush pid draws => do
      let req ← strcpyAt (zeros sizeofReqStopPush) 0 pid
      sendbuf1024 REQ_STOP_PUSH (generalSeqnumber draws) sizeofReqStopPush req
  | .notifyDeviceChange added pid draws => do
      let req ← strcpyAt (zeros sizeofDeviceListChange) 4 pid
      let req ← copyAt req 0 (intBytes (if added then 1 else 0))
      sendbuf1024 NOTIFY_DEVICE_CHANGE (generalSeqnumber draws) sizeofDeviceListChange req
  | .respLogin seq result kid pids => do
      -- the ids come from `devlist[MAX_DEVICE_NUM_PER_ADAPTER]`
      if pids.length > MAX_DEVICE_NUM_PER_ADAPTER then none
      let sendbuf ← copySlots 20 (zeros (10 * 1024)) (sizeofMsgHeader + sizeofRespLogin) pids
      let size := sizeofRespLogin + 20 * pids.length
      let sendbuf ← copyAt sendbuf 0 (header RESP_LOGIN seq size)
      let resp ← respLoginStruct result kid pids.length
      let sendbuf ← copyAt sendbuf sizeofMsgHeader resp
      return sendbuf.take (sizeofMsgHeader + size)
  | .groupStopPush pids => do
      let sendbuf ← copySlots 20 (zeros (5 * 1024)) sizeofMsgHeader pids
      let size := 20 * pids.length
      let sendbuf ← copyAt sendbuf 0 (header GROUP_STOP_PUSH 0 size)
      -- the send reads this many bytes of the array
      if sizeofMsgHeader + size > 5 * 1024 then none
      return sendbuf.take (sizeofMsgHeader + size)

-- What a reader of the frame finds, by the header and the layout of its body.
def ReadsBack (bytes : Bytes) (frame : OutFrame) : Prop :=
  let h := MsgHeader.decode bytes
  (bytes.length : Int) = sizeofMsgHeader + h.size ∧
    match frame with
    | .keepAliveRe _ => h.cmd = KEEP_ALIVE_RE
    | .reqPush pid draws =>
        h.cmd = REQ_PUSH ∧ fieldAt bytes sizeofMsgHeader 20 = pid ∧
          fieldAt bytes (sizeofMsgHeader + 20) 20 = pushKey draws
    | .reqStopPush pid _ => h.cmd = REQ_STOP_PUSH ∧ fieldAt bytes sizeofMsgHeader 20 = pid
    | .notifyDeviceChange added pid _ =>
        h.cmd = NOTIFY_DEVICE_CHANGE ∧ intAt bytes sizeofMsgHeader = (if added then 1 else 0) ∧
          fieldAt bytes (sizeofMsgHeader + 4) 20 = pid
    | .respLogin _ _ _ pids =>
        h.cmd = RESP_LOGIN ∧ slotsAt 20 bytes (sizeofMsgHeader + sizeofRespLogin)
          ((h.size - sizeofRespLogin) / 20).toNat = pids
    | .groupStopPush pids =>
        h.cmd = GROUP_STOP_PUSH ∧ slotsAt 20 bytes sizeofMsgHeader (h.size / 20).toNat = pids

-- The ids that a frame carries unharmed: 20 bytes fill a field or a slot, but only 19 leave room
-- for the NUL at the end of a `DeviceListChange`.
def Fits : OutFrame → Prop
  | .keepAliveRe _ => True
  | .reqPush pid _ => FitsField 20 pid
  | .reqStopPush pid _ => FitsField 20 pid
  | .notifyDeviceChange _ pid _ => FitsField 19 pid
  | .respLogin _ result kid pids =>
      pids.length ≤ MAX_DEVICE_NUM_PER_ADAPTER ∧ (∀ pid ∈ pids, FitsField 20 pid) ∧
        (result = 0 → (cstring kid).length < 64)
  | .groupStopPush pids => pids.length ≤ 252 ∧ ∀ pid ∈ pids, FitsField 20 pid

end OutFrame

theorem length_intBytes (n : Int) : (intBytes n).length = 4 := by simp [intBytes]

theorem length_header (cmd seq size : Int) : (header cmd seq size).length = sizeofMsgHeader := by
  simp [header, length_intBytes, length_zeros, sizeofMsgHeader]

theorem getD_intBytes (n : Int) (after : Bytes) {i : Nat} (hi : i < 4) :
    ((intBytes n ++ after).getD i 0).toNat = (BitVec.ofInt 32 n).toNat / 2 ^ (8 * i) % 256 := by
  have hlt : i < (intBytes n).length := by rw [length_intBytes]; exact hi
  rw [List.getD_append _ _ _ _ hlt, List.getD_eq_getElem _ _ hlt]
  simp [intBytes, Nat.shiftRight_eq_div_pow]

theorem intAt_intBytes (before after : Bytes) (n : Int) :
    intAt (before ++ (intBytes n ++ after)) before.length = (BitVec.ofInt 32 n).toInt := by
  have hbyte : ∀ i < 4, ((before ++ (intBytes n ++ after)).getD (before.length + i) 0).toNat =
      (BitVec.ofInt 32 n).toNat / 2 ^ (8 * i) % 256 := by
    intro i hi
    rw [List.getD_append_right _ _ _ _ (by omega), Nat.add_sub_cancel_left]
    exact getD_intBytes n after hi
  have hvalue : (BitVec.ofInt 32 n).toNat < 2 ^ 32 := (BitVec.ofInt 32 n).isLt
  unfold intAt
  simp only [hbyte 0 (by decide), hbyte 1 (by decide), hbyte 2 (by decide), hbyte 3 (by decide)]
  have hsum : (BitVec.ofInt 32 n).toNat / 2 ^ (8 * 0) % 256 +
      0x100 * ((BitVec.ofInt 32 n).toNat / 2 ^ (8 * 1) % 256) +
      0x10000 * ((BitVec.ofInt 32 n).toNat / 2 ^ (8 * 2) % 256) +
      0x1000000 * ((BitVec.ofInt 32 n).toNat / 2 ^ (8 * 3) % 256) = (BitVec.ofInt 32 n).toNat := by
    omega
  rw [hsum, BitVec.ofNat_toNat, BitVec.setWidth_eq]

theorem toInt_ofInt_of_small {n : Int} (h0 : 0 ≤ n) (h : n < 2 ^ 31) :
    (BitVec.ofInt 32 n).toInt = n := by
  rw [BitVec.toInt_ofInt]
  exact Int.bmod_eq_of_le (by omega) (by omega)

-- The header is read back from the start of a frame.
theorem decode_header (cmd seq size : Int) (body : Bytes) :
    (MsgHeader.decode (header cmd seq size ++ body)).cmd = (BitVec.ofInt 32 cmd).toInt ∧
      (MsgHeader.decode (header cmd seq size ++ body)).size = (BitVec.ofInt 32 size).toInt := by
  constructor
  · have h := intAt_intBytes [97, 116, 98, 0] (intBytes seq ++ (intBytes size ++ zeros 64) ++ body) cmd
    simpa [MsgHeader.decode, header, List.append_assoc] using h
  · have h := intAt_intBytes ([97, 116, 98, 0] ++ (intBytes cmd ++ intBytes seq)) (zeros 64 ++ body) size
    have hlength : ([97, 116, 98, 0] ++ (intBytes cmd ++ intBytes seq) : Bytes).length = 12 := by
      simp [length_intBytes]
    rw [hlength] at h
    simpa [MsgHeader.decode, header, List.append_assoc] using h

theorem length_pushKey (draws : Nat → Nat) : (pushKey draws).length = 10 := by
  simp [pushKey, generalToken]

theorem zero_notMem_pushKey (draws : Nat → Nat) : (0 : UInt8) ∉ pushKey draws := by
  have hchars : (g_arrCharElem.all fun c => UInt8.ofNat c.toNat != 0) = true := by decide
  intro hmem
  obtain ⟨c, hc, hzero⟩ := List.mem_map.mp hmem
  rw [generalToken, String.toList_ofList] at hc
  obtain ⟨i, -, rfl⟩ := List.mem_map.mp hc
  have hi : draws i % LEN < g_arrCharElem.length := Nat.mod_lt _ (by decide)
  rw [List.getD_eq_getElem _ _ hi] at hzero
  exact bne_iff_ne.mp (List.all_eq_true.mp hchars _ (List.getElem_mem hi)) hzero

namespace OutFrame

def cmd : OutFrame → Int
  | .keepAliveRe _ => KEEP_ALIVE_RE
  | .reqPush _ _ => REQ_PUSH
  | .reqStopPush _ _ => REQ_STOP_PUSH
  | .notifyDeviceChange _ _ _ => NOTIFY_DEVICE_CHANGE
  | .respLogin _ _ _ _ => RESP_LOGIN
  | .groupStopPush _ => GROUP_STOP_PUSH

def seq : OutFrame → Int
  | .keepAliveRe seq => seq
  | .reqPush _ draws => generalSeqnumber draws
  | .reqStopPush _ draws => generalSeqnumber draws
  | .notifyDeviceChange _ _ draws => generalSeqnumber draws
  | .respLogin seq _ _ _ => seq
  | .groupStopPush _ => 0

def respLoginBody (result : Int) (kid : Bytes) (count : Nat) : Bytes :=
  intBytes result ++ (intBytes count ++ padded 64 (if result = 0 then cstring kid else []))

-- The body as it is meant, every field and slot filled up with zeros.
def body : OutFrame → Bytes
  | .keepAliveRe _ => []
  | .reqPush pid draws => padded 20 pid ++ (padded 20 (pushKey draws) ++ zeros 64)
  | .reqStopPush pid _ => padded 20 pid ++ zeros 64
  | .notifyDeviceChange added pid _ => intBytes (if added then 1 else 0) ++ padded 20 pid
  | .respLogin _ result kid pids =>
      respLoginBody result kid pids.length ++ pids.flatMap (padded 20)
  | .groupStopPush pids => pids.flatMap (padded 20)

def bodySize : OutFrame → Nat
  | .keepAliveRe _ => 0
  | .reqPush _ _ => sizeofReqPush
  | .reqStopPush _ _ => sizeofReqStopPush
  | .notifyDeviceChange _ _ _ => sizeofDeviceListChange
  | .respLogin _ _ _ pids => sizeofRespLogin + 20 * pids.length
  | .groupStopPush pids => 20 * pids.length

def layout (frame : OutFrame) : Bytes := header frame.cmd frame.seq frame.body.length ++ frame.body

end OutFrame

theorem sendbuf1024_eq (cmd seq : Int) {size : Nat} {req : Bytes} (hreq : req.length = size)
    (hsize : sizeofMsgHeader + size ≤ 1024) :
    sendbuf1024 cmd seq size req = some (header cmd seq req.length ++ req) := by
  rw [hreq]
  have hheader : copyAt (zeros 1024) 0 (header cmd seq size) =
      some (header cmd seq size ++ zeros (1024 - sizeofMsgHeader)) := by
    have h := copyAt_zeros [] (header cmd seq size) (n := 1024) (by rw [length_header]; decide)
    rw [length_header] at h
    exact h
  have hbody := copyAt_zeros (header cmd seq size) req (n := 1024 - sizeofMsgHeader) (by omega)
  rw [length_header] at hbody
  have htake : (header cmd seq size ++ req ++ zeros (1024 - sizeofMsgHeader - req.length)).take
      (sizeofMsgHeader + size) = header cmd seq size ++ req :=
    List.take_left' (by rw [List.length_append, length_header, hreq])
  simp only [sendbuf1024, hheader, hbody, Option.bind_eq_bind, Option.bind_some, Option.pure_def,
    htake]

theorem copyAt_header (size : Nat) (cmd seq len : Int) (rest : Bytes) (hsize : size = sizeofMsgHeader) :
    copyAt (zeros size ++ rest) 0 (header cmd seq len) = some (header cmd seq len ++ rest) :=
  copyAt_middle [] (zeros size) rest _ (by rw [length_header, length_zeros, hsize])

-- The id at the start of a structure that is longer than its field.
theorem strcpyAt_pid {size : Nat} {pid : Bytes} (h : FitsField 20 pid) (hsize : 20 < size) :
    strcpyAt (zeros size) 0 pid = some (padded 20 pid ++ zeros (size - 20)) := by
  have hpid := strcpyAt_zeros [] h.2 (n := size) (Nat.lt_of_le_of_lt h.1 hsize)
  rw [List.nil_append, List.nil_append, append_zeros_eq_padded h.1 (Nat.le_of_lt hsize)] at hpid
  exact hpid

theorem build_reqPush {pid : Bytes} (draws : Nat → Nat) (h : FitsField 20 pid) :
    (OutFrame.reqPush pid draws).build = some (OutFrame.reqPush pid draws).layout := by
  have hkey_fits : (pushKey draws).length ≤ 20 := by
    rw [length_pushKey]
    decide
  have hkey := strcpyAt_zeros (padded 20 pid) (zero_notMem_pushKey draws) (n := sizeofReqPush - 20)
    (Nat.lt_of_le_of_lt hkey_fits (by decide))
  rw [append_zeros_eq_padded hkey_fits (by decide), length_padded h.1] at hkey
  have hlength : (padded 20 pid ++ (padded 20 (pushKey draws) ++ zeros (sizeofReqPush - 20 - 20))).length =
      sizeofReqPush := by
    rw [List.length_append, List.length_append, length_padded h.1, length_zeros,
      length_padded hkey_fits]
    decide
  have hframe := sendbuf1024_eq REQ_PUSH (generalSeqnumber draws) hlength (by decide)
  simp only [OutFrame.build, Option.bind_eq_bind]
  rw [strcpyAt_pid h (by decide), Option.bind_some, hkey, Option.bind_some, hframe]
  rfl

-- A `REQ_PUSH` is built when the id with its NUL stays inside the structure.
theorem exists_build_reqPush_iff {pid : Bytes} {draws : Nat → Nat} :
    (∃ bytes, (OutFrame.reqPush pid draws).build = some bytes) ↔ (cstring pid).length < sizeofReqPush := by
  constructor
  · rintro ⟨bytes, h⟩
    obtain ⟨req, hpid, -⟩ := Option.bind_eq_some_iff.mp h
    have hle := le_of_copyAt hpid
    rw [List.length_append, length_zeros, List.length_singleton] at hle
    omega
  · intro hroom
    obtain ⟨req, hpid⟩ : ∃ req, strcpyAt (zeros sizeofReqPush) 0 pid = some req := by
      refine exists_copyAt_iff.mpr ?_
      rw [List.length_append, length_zeros, List.length_singleton]
      omega
    have hlength := (length_copyAt hpid).trans (length_zeros _)
    obtain ⟨req', hkey⟩ : ∃ req', strcpyAt req 20 (pushKey draws) = some req' := by
      refine exists_copyAt_iff.mpr ?_
      rw [cstring_eq_self (zero_notMem_pushKey draws), List.length_append, length_pushKey, hlength]
      decide
    have hlength' := (length_copyAt hkey).trans hlength
    have hframe := sendbuf1024_eq REQ_PUSH (generalSeqnumber draws) hlength' (by decide)
    exact ⟨_, Option.bind_eq_some_iff.mpr ⟨req, hpid, Option.bind_eq_some_iff.mpr ⟨req', hkey, hframe⟩⟩⟩

-- The key is read back also where the id before it has filled its own field and more.
theorem reqPush_key {pid bytes : Bytes} {draws : Nat → Nat}
    (h : (OutFrame.reqPush pid draws).build = some bytes) :
    (MsgHeader.decode bytes).cmd = REQ_PUSH ∧
      fieldAt bytes (sizeofMsgHeader + 20) 20 = pushKey draws := by
  obtain ⟨req, hpid, h⟩ := Option.bind_eq_some_iff.mp h
  obtain ⟨req', hkey, h⟩ := Option.bind_eq_some_iff.mp h
  have hnul := cstring_eq_self (zero_notMem_pushKey draws)
  have hlength := (length_copyAt hkey).trans ((length_copyAt hpid).trans (length_zeros _))
  rw [sendbuf1024_eq _ _ hlength (by decide)] at h
  obtain rfl := Option.some.inj h
  constructor
  · rw [(decode_header _ _ _ _).1]
    rfl
  · have hfield : fieldAt req' 20 20 = cstring (pushKey draws) :=
      fieldAt_strcpyAt hkey (by rw [hnul, length_pushKey]; decide)
    rw [fieldAt, ← length_header REQ_PUSH (generalSeqnumber draws) req'.length, ← List.drop_drop,
      List.drop_left]
    exact hfield.trans hnul

theorem build_reqStopPush {pid : Bytes} (draws : Nat → Nat) (h : FitsField 20 pid) :
    (OutFrame.reqStopPush pid draws).build = some (OutFrame.reqStopPush pid draws).layout := by
  have hlength : (padded 20 pid ++ zeros (sizeofReqStopPush - 20)).length = sizeofReqStopPush := by
    rw [List.length_append, length_padded h.1, length_zeros]
    decide
  have hframe := sendbuf1024_eq REQ_STOP_PUSH (generalSeqnumber draws) hlength (by decide)
  simp only [OutFrame.build, Option.bind_eq_bind]
  rw [strcpyAt_pid h (by decide), Option.bind_some, hframe]
  rfl

theorem build_notifyDeviceChange (added : Bool) {pid : Bytes} (draws : Nat → Nat)
    (h : FitsField 19 pid) :
    (OutFrame.notifyDeviceChange added pid draws).build =
      some (OutFrame.notifyDeviceChange added pid draws).layout := by
  have hpid := strcpyAt_zeros (zeros 4) h.2 (n := 20) (Nat.lt_of_le_of_lt h.1 (by decide))
  have htype := copyAt_middle [] (zeros 4) (padded 20 pid) (intBytes (if added then 1 else 0))
    (length_intBytes _)
  have hlength : (intBytes (if added then 1 else 0) ++ padded 20 pid).length =
      sizeofDeviceListChange := by
    rw [List.length_append, length_intBytes, length_padded (h.1.trans (by decide))]
    decide
  have hframe := sendbuf1024_eq NOTIFY_DEVICE_CHANGE (generalSeqnumber draws) hlength
    (by decide)
  simp only [OutFrame.build, Option.bind_eq_bind]
  rw [show strcpyAt (zeros sizeofDeviceListChange) 4 pid = some (zeros 4 ++ padded 20 pid) from hpid,
    Option.bind_some,
    show copyAt (zeros 4 ++ padded 20 pid) 0 _ =
      some (intBytes (if added then 1 else 0) ++ padded 20 pid) from htype,
    Option.bind_some, hframe]
  rfl

theorem respLoginStruct_eq (result : Int) (count : Nat) {kid : Bytes}
    (hkid : result = 0 → (cstring kid).length < 64) :
    respLoginStruct result kid count = some (OutFrame.respLoginBody result kid count) := by
  have hresult := copyAt_zeros [] (intBytes result) (n := sizeofRespLogin) (by rw [length_intBytes]; decide)
  have hcount := copyAt_zeros (intBytes result) (intBytes count) (n := sizeofRespLogin - 4)
    (by rw [length_intBytes]; decide)
  rw [length_intBytes] at hresult hcount
  rw [length_intBytes] at hcount
  simp only [respLoginStruct, Option.bind_eq_bind]
  rw [show copyAt (zeros sizeofRespLogin) 0 _ = _ from hresult, Option.bind_some,
    show copyAt ([] ++ intBytes result ++ zeros (sizeofRespLogin - 4)) 4 _ = _ from hcount,
    Option.bind_some]
  have hlength : (intBytes result ++ intBytes count).length = 8 := by
    rw [List.length_append, length_intBytes, length_intBytes]
  rw [OutFrame.respLoginBody, ← List.append_assoc]
  by_cases hok : result = 0
  · rw [if_pos hok, if_pos hok]
    have hnul := zero_notMem_cstring kid
    have htext := strcpyAt_zeros (intBytes result ++ intBytes count) hnul (n := 64) (hkid hok)
    rw [hlength, strcpyAt, cstring_eq_self hnul] at htext
    exact htext
  · rw [if_neg hok, if_neg hok]
    rfl

theorem length_respLoginBody {result : Int} {kid : Bytes}
    (hkid : result = 0 → (cstring kid).length < 64) (count : Nat) :
    (OutFrame.respLoginBody result kid count).length = sizeofRespLogin := by
  have hpad : (padded 64 (if result = 0 then cstring kid else [])).length = 64 := by
    refine length_padded ?_
    split
    · exact Nat.le_of_lt (hkid ‹_›)
    · exact Nat.zero_le _
  rw [OutFrame.respLoginBody, List.length_append, List.length_append, length_intBytes, length_intBytes,
    hpad, sizeofRespLogin]

theorem build_respLogin (seq result : Int) {kid : Bytes} {pids : List Bytes}
    (hcount : pids.length ≤ MAX_DEVICE_NUM_PER_ADAPTER) (hpids : ∀ pid ∈ pids, FitsField 20 pid)
    (hkid : result = 0 → (cstring kid).length < 64) :
    (OutFrame.respLogin seq result kid pids).build = some (OutFrame.respLogin seq result kid pids).layout := by
  have hfits : ∀ pid ∈ pids, pid.length ≤ 20 := fun pid hpid => (hpids pid hpid).1
  have hroom : 20 * pids.length ≤ 10 * 1024 - (sizeofMsgHeader + sizeofRespLogin) := by
    unfold MAX_DEVICE_NUM_PER_ADAPTER at hcount
    unfold sizeofMsgHeader sizeofRespLogin
    omega
  have hslots := copySlots_zeros hfits (zeros (sizeofMsgHeader + sizeofRespLogin)) hroom
  rw [length_zeros, ← zeros_add, zeros_add sizeofMsgHeader, List.append_assoc, List.append_assoc] at hslots
  have hresp := length_respLoginBody hkid pids.length
  have hbody : (OutFrame.respLogin seq result kid pids).body.length = sizeofRespLogin + 20 * pids.length := by
    rw [OutFrame.body, List.length_append, hresp, length_flatMap_padded hfits]
  have hstruct := copyAt_middle (header RESP_LOGIN seq (sizeofRespLogin + 20 * pids.length : Nat))
    (zeros sizeofRespLogin) (pids.flatMap (padded 20) ++
      zeros (10 * 1024 - (sizeofMsgHeader + sizeofRespLogin) - 20 * pids.length))
    (OutFrame.respLoginBody result kid pids.length) (by rw [hresp, length_zeros])
  rw [length_header, List.append_assoc] at hstruct
  simp only [OutFrame.build, Option.bind_eq_bind]
  rw [if_neg (Nat.not_lt.mpr hcount)]
  simp only [Option.pure_def]
  rw [show zeros (10 * 1024) = zeros (sizeofMsgHeader + sizeofRespLogin +
      (10 * 1024 - (sizeofMsgHeader + sizeofRespLogin))) from rfl, hslots, Option.bind_some,
    copyAt_header _ _ _ _ _ rfl, Option.bind_some, respLoginStruct_eq result pids.length hkid,
    Option.bind_some, hstruct, Option.bind_some, OutFrame.layout, hbody]
  refine congrArg some ?_
  rw [← List.append_assoc, List.append_assoc (header _ _ _)]
  exact List.take_left' (by
    rw [List.length_append, List.length_append, length_header, hresp, length_flatMap_padded hfits])

theorem build_groupStopPush {pids : List Bytes} (hcount : pids.length ≤ 252)
    (hpids : ∀ pid ∈ pids, FitsField 20 pid) :
    (OutFrame.groupStopPush pids).build = some (OutFrame.groupStopPush pids).layout := by
  have hfits : ∀ pid ∈ pids, pid.length ≤ 20 := fun pid hpid => (hpids pid hpid).1
  have hroom : 20 * pids.length ≤ 5 * 1024 - sizeofMsgHeader := by
    unfold sizeofMsgHeader
    omega
  have hslots := copySlots_zeros hfits (zeros sizeofMsgHeader) hroom
  rw [length_zeros, ← zeros_add, List.append_assoc] at hslots
  have hbody : (OutFrame.groupStopPush pids).body.length = 20 * pids.length :=
    length_flatMap_padded hfits
  have hsent : ¬ sizeofMsgHeader + 20 * pids.length > 5 * 1024 := by
    unfold sizeofMsgHeader
    omega
  simp only [OutFrame.build, Option.bind_eq_bind]
  rw [show zeros (5 * 1024) = zeros (sizeofMsgHeader + (5 * 1024 - sizeofMsgHeader)) from rfl, hslots,
    Option.bind_some, copyAt_header _ _ _ _ _ rfl, Option.bind_some, if_neg hsent, OutFrame.layout, hbody]
  refine congrArg some ?_
  rw [← List.append_assoc]
  exact List.take_left' (by rw [List.length_append, length_header, length_flatMap_padded hfits])

theorem build_of_fits {frame : OutFrame} (h : frame.Fits) : frame.build = some frame.layout := by
  cases frame with
  | keepAliveRe seq => simp [OutFrame.build, OutFrame.layout, OutFrame.cmd, OutFrame.seq, OutFrame.body]
  | reqPush pid draws => exact build_reqPush draws h
  | reqStopPush pid draws => exact build_reqStopPush draws h
  | notifyDeviceChange added pid draws => exact build_notifyDeviceChange added draws h
  | respLogin seq result kid pids => exact build_respLogin seq result h.1 h.2.1 h.2.2
  | groupStopPush pids => exact build_groupStopPush h.1 h.2

theorem length_layout (frame : OutFrame) : frame.layout.length = sizeofMsgHeader + frame.body.length := by
  rw [OutFrame.layout, List.length_append, length_header]

theorem cmd_layout (frame : OutFrame) : (MsgHeader.decode frame.layout).cmd = frame.cmd := by
  rw [OutFrame.layout, (decode_header _ _ _ _).1]
  cases frame <;> rfl

theorem size_layout {frame : OutFrame} (h : frame.body.length < 2 ^ 31) :
    (MsgHeader.decode frame.layout).size = frame.body.length := by
  rw [OutFrame.layout, (decode_header _ _ _ _).2]
  exact toInt_ofInt_of_small (by omega) (by omega)

theorem fieldAt_layout {size : Nat} {pid : Bytes} (h : FitsField size pid) {frame : OutFrame}
    (before after : Bytes) (hbody : frame.body = before ++ (padded size pid ++ after)) {offset : Nat}
    (hoffset : offset = sizeofMsgHeader + before.length) :
    fieldAt frame.layout offset size = pid := by
  have hsplit := fieldAt_padded h (header frame.cmd frame.seq frame.body.length ++ before) after
  rw [List.length_append, length_header, List.append_assoc, ← hbody] at hsplit
  rw [OutFrame.layout, hoffset]
  exact hsplit

theorem slotsAt_layout {pids : List Bytes} (h : ∀ pid ∈ pids, FitsField 20 pid) {frame : OutFrame}
    (before : Bytes) (hbody : frame.body = before ++ pids.flatMap (padded 20)) {offset : Nat}
    (hoffset : offset = sizeofMsgHeader + before.length) :
    slotsAt 20 frame.layout offset pids.length = pids := by
  have hsplit := slotsAt_flatMap h (header frame.cmd frame.seq frame.body.length ++ before) []
  rw [List.length_append, length_header, List.append_nil, List.append_assoc, ← hbody] at hsplit
  rw [OutFrame.layout, hoffset]
  exact hsplit

theorem length_body {frame : OutFrame} (h : frame.Fits) : frame.body.length = frame.bodySize := by
  cases frame with
  | keepAliveRe seq => rfl
  | reqPush pid draws =>
      have hkey : (pushKey draws).length ≤ 20 := by rw [length_pushKey]; decide
      simp only [OutFrame.body, OutFrame.bodySize, List.length_append, length_padded h.1,
        length_padded hkey, length_zeros, sizeofReqPush]
  | reqStopPush pid draws =>
      simp only [OutFrame.body, OutFrame.bodySize, List.length_append, length_padded h.1,
        length_zeros, sizeofReqStopPush]
  | notifyDeviceChange added pid draws =>
      have hpid : pid.length ≤ 20 := h.1.trans (by decide)
      simp only [OutFrame.body, OutFrame.bodySize, List.length_append, length_padded hpid, length_intBytes,
        sizeofDeviceListChange]
  | respLogin seq result kid pids =>
      have hpids : ∀ pid ∈ pids, pid.length ≤ 20 := fun pid hpid => (h.2.1 pid hpid).1
      simp only [OutFrame.body, OutFrame.bodySize, List.length_append,
        length_respLoginBody h.2.2, length_flatMap_padded hpids]
  | groupStopPush pids =>
      have hpids : ∀ pid ∈ pids, pid.length ≤ 20 := fun pid hpid => (h.2 pid hpid).1
      simp only [OutFrame.body, OutFrame.bodySize, length_flatMap_padded hpids]

theorem bodySize_lt {frame : OutFrame} (h : frame.Fits) : frame.bodySize < 2 ^ 31 := by
  cases frame with
  | respLogin seq result kid pids =>
      have hcount : pids.length ≤ 50 := h.1
      simp only [OutFrame.bodySize, sizeofRespLogin]
      omega
  | groupStopPush pids =>
      have hcount : pids.length ≤ 252 := h.1
      simp only [OutFrame.bodySize]
      omega
  | _ => simp [OutFrame.bodySize, sizeofReqPush, sizeofReqStopPush, sizeofDeviceListChange]

theorem readsBack_layout {frame : OutFrame} (h : frame.Fits) : frame.ReadsBack frame.layout := by
  have hlength := length_body h
  have hcmd := cmd_layout frame
  have hsize := size_layout (hlength.trans_lt (bodySize_lt h))
  refine ⟨?_, ?_⟩
  · rw [length_layout, hsize]
    push_cast
    rfl
  cases frame with
  | keepAliveRe seq => exact hcmd
  | reqPush pid draws =>
      refine ⟨hcmd, fieldAt_layout h [] _ rfl rfl, ?_⟩
      have hkey : FitsField 20 (pushKey draws) :=
        ⟨by rw [length_pushKey]; decide, zero_notMem_pushKey draws⟩
      refine fieldAt_layout hkey (padded 20 pid) _ rfl ?_
      rw [length_padded h.1]
  | reqStopPush pid draws => exact ⟨hcmd, fieldAt_layout h [] _ rfl rfl⟩
  | notifyDeviceChange added pid draws =>
      refine ⟨hcmd, ?_, ?_⟩
      · have htype := intAt_intBytes (header NOTIFY_DEVICE_CHANGE (generalSeqnumber draws)
          (OutFrame.notifyDeviceChange added pid draws).body.length) (padded 20 pid) (if added then 1 else 0)
        rw [length_header] at htype
        refine htype.trans ?_
        cases added <;> rfl
      · refine fieldAt_layout ⟨h.1.trans (by decide), h.2⟩
          (intBytes (if added then 1 else 0)) [] ?_ ?_
        · rw [List.append_nil]
          rfl
        · rw [length_intBytes]
  | respLogin seq result kid pids =>
      refine ⟨hcmd, ?_⟩
      have hcount : (((MsgHeader.decode (OutFrame.respLogin seq result kid pids).layout).size -
          sizeofRespLogin) / 20).toNat = pids.length := by
        rw [hsize, hlength, OutFrame.bodySize]
        push_cast
        omega
      rw [hcount]
      refine slotsAt_layout h.2.1 _ rfl ?_
      rw [length_respLoginBody h.2.2]
  | groupStopPush pids =>
      refine ⟨hcmd, ?_⟩
      have hcount : ((MsgHeader.decode (OutFrame.groupStopPush pids).layout).size / 20).toNat =
          pids.length := by
        rw [hsize, hlength, OutFrame.bodySize]
        push_cast
        omega
      rw [hcount]
      exact slotsAt_layout h.2 [] rfl rfl

theorem fits_notifyDeviceChange {added : Bool} {pid : Bytes} {draws : Nat → Nat} {bytes : Bytes}
    (hbuild : (OutFrame.notifyDeviceChange added pid draws).build = some bytes)
    (hpid : FitsField 20 pid) : FitsField 19 pid := by
  obtain ⟨req, hreq, -⟩ := Option.bind_eq_some_iff.mp hbuild
  have hroom := le_of_copyAt hreq
  rw [cstring_eq_self hpid.2, List.length_append, List.length_singleton, length_zeros,
    sizeofDeviceListChange] at hroom
  exact ⟨by omega, hpid.2⟩

theorem kid_of_respLoginStruct {kid resp : Bytes} {count : Nat}
    (h : respLoginStruct 0 kid count = some resp) : (cstring kid).length < 64 := by
  simp only [respLoginStruct, Option.bind_eq_bind] at h
  obtain ⟨first, hfirst, h⟩ := Option.bind_eq_some_iff.mp h
  obtain ⟨second, hsecond, h⟩ := Option.bind_eq_some_iff.mp h
  rw [if_pos trivial] at h
  have hroom := le_of_copyAt h
  rw [length_copyAt hsecond, length_copyAt hfirst, length_zeros, List.length_append,
    List.length_singleton, sizeofRespLogin] at hroom
  omega

theorem fits_respLogin {seq result : Int} {kid : Bytes} {pids : List Bytes} {bytes : Bytes}
    (hbuild : (OutFrame.respLogin seq result kid pids).build = some bytes) :
    pids.length ≤ MAX_DEVICE_NUM_PER_ADAPTER ∧ (result = 0 → (cstring kid).length < 64) := by
  simp only [OutFrame.build, Option.bind_eq_bind] at hbuild
  split at hbuild
  · cases hbuild
  have hcount : pids.length ≤ MAX_DEVICE_NUM_PER_ADAPTER := Nat.le_of_not_lt ‹_›
  obtain ⟨slots, -, hbuild⟩ := Option.bind_eq_some_iff.mp hbuild
  obtain ⟨filled, -, hbuild⟩ := Option.bind_eq_some_iff.mp hbuild
  obtain ⟨resp, hresp, -⟩ := Option.bind_eq_some_iff.mp hbuild
  refine ⟨hcount, ?_⟩
  rintro rfl
  exact kid_of_respLoginStruct hresp

theorem fits_groupStopPush {pids : List Bytes} {bytes : Bytes}
    (hbuild : (OutFrame.groupStopPush pids).build = some bytes) : pids.length ≤ 252 := by
  obtain ⟨slots, -, hbuild⟩ := Option.bind_eq_some_iff.mp hbuild
  obtain ⟨filled, -, hbuild⟩ := Option.bind_eq_some_iff.mp hbuild
  split at hbuild
  · cases hbuild
  unfold sizeofMsgHeader at *
  omega

-- A frame is built within its buffer and gives back what was put in exactly when the ids fit.
theorem frame_decodes_iff (frame : OutFrame) :
    (∃ bytes, frame.build = some bytes ∧ frame.ReadsBack bytes) ↔ frame.Fits := by
  constructor
  · rintro ⟨bytes, hbuild, -, hfields⟩
    cases frame with
    | keepAliveRe seq => trivial
    | reqPush pid draws =>
        have hpid := fitsField_fieldAt bytes sizeofMsgHeader 20
        rw [hfields.2.1] at hpid
        exact hpid
    | reqStopPush pid draws =>
        have hpid := fitsField_fieldAt bytes sizeofMsgHeader 20
        rw [hfields.2] at hpid
        exact hpid
    | notifyDeviceChange added pid draws =>
        have hpid := fitsField_fieldAt bytes (sizeofMsgHeader + 4) 20
        rw [hfields.2.2] at hpid
        exact fits_notifyDeviceChange hbuild hpid
    | respLogin seq result kid pids =>
        obtain ⟨hcount, hkid⟩ := fits_respLogin hbuild
        refine ⟨hcount, fun pid hpid => ?_, hkid⟩
        rw [← hfields.2] at hpid
        exact fitsField_of_mem_slotsAt hpid
    | groupStopPush pids =>
        refine ⟨fits_groupStopPush hbuild, fun pid hpid => ?_⟩
        rw [← hfields.2] at hpid
        exact fitsField_of_mem_slotsAt hpid
  · intro h
    exact ⟨frame.layout, build_of_fits h, readsBack_layout h⟩

-- An id of 21 bytes, as `AddCamera` takes it: the key that follows overwrites its last byte, and
-- the note about the new camera does not fit its structure.
def longPid : Bytes := List.replicate 21 65

theorem long_pid_cut :
    (OutFrame.reqPush longPid id).build.map (fieldAt · sizeofMsgHeader 20) = some (List.replicate 20 65) ∧
      (¬ ∃ bytes, (OutFrame.reqPush longPid id).build = some bytes ∧
        (OutFrame.reqPush longPid id).ReadsBack bytes) ∧
      (OutFrame.notifyDeviceChange true longPid id).build = none := by
  refine ⟨by decide +kernel, ?_, by decide +kernel⟩
  rintro ⟨bytes, -, -, hfields⟩
  have hpid := fitsField_fieldAt bytes sizeofMsgHeader 20
  rw [hfields.2.1] at hpid
  exact absurd hpid.1 (by decide)

end VideoAdapter.Adapter
