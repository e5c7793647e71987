import VideoAdapter.Lib.Buffer
import VideoAdapter.Adapter.ReadTask

namespace VideoAdapter.Adapter

open Lib

-- `SOCKIO::ETRecv` with the stores it makes, each with its offset. An arrival is what the kernel
-- has for one `recv`, which takes as much of it as is asked for. An empty one stands for a closed
-- connection, `EAGAIN` or another error.
def etRecvStores : List Bytes → Nat → Nat → List (Nat × Bytes) × List Bytes
  | [], _, _ => ([], [])
  | arrival :: rest, ptr, nleft =>
      if nleft = 0 ∨ arrival = [] then ([], arrival :: rest)
      else if arrival.length ≤ nleft then
        let (stores, left) := etRecvStores rest (ptr + arrival.length) (nleft - arrival.length)
        ((ptr, arrival) :: stores, left)
      else ([(ptr, arrival.take nleft)], arrival.drop nleft :: rest)

-- The bytes that can be read before the kernel has none.
def received (arrivals : List Bytes) : Bytes := (arrivals.takeWhile (· ≠ [])).flatten

def stored (stores : List (Nat × Bytes)) : Bytes := stores.flatMap (·.2)

def StoredAt (stores : List (Nat × Bytes)) (i : Nat) : Prop :=
  ∃ store ∈ stores, store.1 ≤ i ∧ i < store.1 + store.2.length

-- One `TaskTcpReadMsg::run`: the stores into `data`, the call it makes, and what is left.
structure TaskTrace where
  stores : List (Nat × Bytes)
  passed : Option ReadCall
  left : List Bytes

def runTask (arrivals : List Bytes) : TaskTrace :=
  let (stores, left) := etRecvStores arrivals 0 sizeofMsgHeader
  let header := stored stores
  if header.length ≠ sizeofMsgHeader then ⟨[], none, left⟩
  else if header.take 3 ≠ field "atb" 3 then ⟨[], none, left⟩
  else
    let h := MsgHeader.decode header
    if h.size = 0 then ⟨[], some ⟨h.cmd, 0, []⟩, left⟩
    else
      let (stores, left) := etRecvStores left 0 h.size.toNat
      if (stored stores).length ≠ h.size then ⟨stores, none, left⟩
      else ⟨stores, some ⟨h.cmd, h.seq, stored stores⟩, left⟩

-- The `memcpy` of `InsertMsg` into the zeroed `buf_` of a new node.
def insertCopy (buf : Bytes) : Option Bytes := copyAt (zeros MAX_BUF_SIZE) 0 buf

-- No byte is stored outside `data`, and what is passed on fits a node.
structure StaysInside (trace : TaskTrace) : Prop where
  data : ∀ i, StoredAt trace.stores i → i < MAX_BUF_SIZE
  node : ∀ call, trace.passed = some call → (insertCopy call.buf).isSome

-- The size is small enough, or no more than the array holds is there to be read.
def Harmless (bytes : Bytes) : Prop :=
  bytes.take 3 = field "atb" 3 →
    (MsgHeader.decode (bytes.take sizeofMsgHeader)).size ≤ MAX_BUF_SIZE ∨
      bytes.length ≤ sizeofMsgHeader + MAX_BUF_SIZE

theorem received_cons (arrival : Bytes) (rest : List Bytes) :
    received (arrival :: rest) = if arrival = [] then [] else arrival ++ received rest := by
  unfold received
  by_cases h : arrival = []
  · simp [h]
  · simp [h]

theorem stored_cons (store : Nat × Bytes) (stores : List (Nat × Bytes)) :
    stored (store :: stores) = store.2 ++ stored stores := List.flatMap_cons

theorem storedAt_cons {ptr : Nat} {data : Bytes} {stores : List (Nat × Bytes)} {i : Nat} :
    StoredAt ((ptr, data) :: stores) i ↔ (ptr ≤ i ∧ i < ptr + data.length) ∨ StoredAt stores i := by
  simp [StoredAt]

-- The stores lie behind each other, and together they are the first bytes received.
theorem etRecvStores_spec (arrivals : List Bytes) (ptr nleft : Nat) :
    stored (etRecvStores arrivals ptr nleft).1 = (received arrivals).take nleft ∧
      received (etRecvStores arrivals ptr nleft).2 = (received arrivals).drop nleft ∧
      ∀ i, StoredAt (etRecvStores arrivals ptr nleft).1 i ↔
        ptr ≤ i ∧ i < ptr + (stored (etRecvStores arrivals ptr nleft).1).length := by
  induction arrivals generalizing ptr nleft with
  | nil =>
      refine ⟨by simp [etRecvStores, stored, received], by simp [etRecvStores, received], fun i => ?_⟩
      refine iff_of_false ?_ ?_
      · rintro ⟨store, hstore, -⟩
        cases hstore
      · rw [etRecvStores, stored, List.flatMap_nil, List.length_nil]
        omega
  | cons arrival rest ih =>
      rw [etRecvStores]
      by_cases hstop : nleft = 0 ∨ arrival = []
      · rw [if_pos hstop]
        refine ⟨?_, ?_, fun i => iff_of_false ?_ ?_⟩
        · rcases hstop with rfl | rfl
          · rfl
          · simp [received_cons, stored]
        · rcases hstop with rfl | rfl
          · rfl
          · simp [received_cons]
        · rintro ⟨store, hstore, -⟩
          cases hstore
        · rw [stored, List.flatMap_nil, List.length_nil]
          omega
      · obtain ⟨hleft, hsome⟩ := not_or.mp hstop
        rw [if_neg hstop, received_cons, if_neg hsome]
        by_cases hfits : arrival.length ≤ nleft
        · obtain ⟨hstored, hrest, hat⟩ := ih (ptr + arrival.length) (nleft - arrival.length)
          rw [if_pos hfits]
          dsimp only
          refine ⟨?_, ?_, fun i => ?_⟩
          · rw [stored_cons, hstored, List.take_append, List.take_of_length_le hfits]
          · rw [hrest, List.drop_append, List.drop_of_length_le hfits, List.nil_append]
          · rw [storedAt_cons, hat, stored_cons, List.length_append]
            dsimp only
            omega
        · have hshort : nleft ≤ arrival.length := by omega
          rw [if_neg hfits]
          refine ⟨?_, ?_, fun i => ?_⟩
          · rw [List.take_append_of_le_length hshort]
            exact List.flatMap_singleton _ _
          · rw [received_cons, if_neg (by simpa using hfits), List.drop_append_of_le_length hshort]
          · simp [StoredAt, stored]

-- The stores into `data` and what is passed on, by the bytes received.
theorem runTask_cases (arrivals : List Bytes) :
    (runTask arrivals).stores = [] ∧
        (∀ call, (runTask arrivals).passed = some call → call.buf = []) ∧
        ((received arrivals).take 3 = field "atb" 3 →
          (MsgHeader.decode ((received arrivals).take sizeofMsgHeader)).size = 0 ∨
            (received arrivals).length < sizeofMsgHeader) ∨
      (received arrivals).take 3 = field "atb" 3 ∧ sizeofMsgHeader ≤ (received arrivals).length ∧
        stored (runTask arrivals).stores = ((received arrivals).drop sizeofMsgHeader).take
          (MsgHeader.decode ((received arrivals).take sizeofMsgHeader)).size.toNat ∧
        (∀ i, StoredAt (runTask arrivals).stores i ↔ i < (stored (runTask arrivals).stores).length) ∧
        ∀ call, (runTask arrivals).passed = some call → call.buf = stored (runTask arrivals).stores := by
  obtain ⟨hheader, hleft, -⟩ := etRecvStores_spec arrivals 0 sizeofMsgHeader
  have hflag : ((received arrivals).take sizeofMsgHeader).take 3 = (received arrivals).take 3 := by
    rw [List.take_take]
    rfl
  have hnone : ∀ call, (none : Option ReadCall) = some call → call.buf = [] := by
    intro call hcall
    cases hcall
  unfold runTask
  simp only [hheader, hflag]
  split
  · rename_i hshort
    rw [List.length_take] at hshort
    exact .inl ⟨rfl, hnone, fun _ => .inr (by omega)⟩
  · rename_i hlong
    rw [List.length_take] at hlong
    split
    · rename_i hbad
      exact .inl ⟨rfl, hnone, fun hflag => absurd hflag hbad⟩
    · rename_i hatb
      split
      · rename_i hzero
        refine .inl ⟨rfl, ?_, fun _ => .inl hzero⟩
        intro call hcall
        cases hcall
        rfl
      · obtain ⟨hbody, -, hat⟩ := etRecvStores_spec (etRecvStores arrivals 0 sizeofMsgHeader).2 0
          (MsgHeader.decode ((received arrivals).take sizeofMsgHeader)).size.toNat
        rw [hleft] at hbody
        have hindex : ∀ i, StoredAt _ i ↔ i < _ := fun i => by
          rw [hat i, Nat.zero_add]
          exact and_iff_right (Nat.zero_le i)
        refine .inr ⟨not_not.mp hatb, by omega, ?_⟩
        split
        · refine ⟨hbody, hindex, ?_⟩
          intro call hcall
          cases hcall
        · refine ⟨hbody, hindex, ?_⟩
          intro call hcall
          cases hcall
          rfl

-- `readTask` is the task on the bytes received, as long as it stays inside `data`.
theorem readTask_received (arrivals : List Bytes) :
    readTask (received arrivals) =
      if (stored (runTask arrivals).stores).length ≤ MAX_BUF_SIZE then
        some ((runTask arrivals).passed, received (runTask arrivals).left)
      else none := by
  have hrecv : ∀ (avail : Bytes) (n : Int), etRecv avail n = (avail.take n.toNat, avail.drop n.toNat) :=
    fun avail n => etRecv_eq avail n.toNat
  obtain ⟨hheader, hleft, -⟩ := etRecvStores_spec arrivals 0 sizeofMsgHeader
  unfold readTask runTask
  simp only [hrecv, Int.toNat_natCast, hheader, ← hleft]
  split
  · simp [stored]
  · split
    · simp [stored]
    · split
      · simp [stored]
      · obtain ⟨hbody, hrest, -⟩ := etRecvStores_spec (etRecvStores arrivals 0 sizeofMsgHeader).2 0
          (MsgHeader.decode ((received arrivals).take sizeofMsgHeader)).size.toNat
        rw [← hbody, ← hrest]
        split
        · rename_i hover
          split
          · exact (if_neg (Nat.not_le.mpr hover)).symm
          · exact (if_neg (Nat.not_le.mpr hover)).symm
        · rename_i hfits
          split
          · exact (if_pos (Nat.not_lt.mp hfits)).symm
          · exact (if_pos (Nat.not_lt.mp hfits)).symm

theorem insertCopy_isSome {buf : Bytes} : (insertCopy buf).isSome ↔ buf.length ≤ MAX_BUF_SIZE := by
  unfold insertCopy copyAt
  rw [length_zeros, Nat.zero_add]
  split
  · rename_i hfits
    exact iff_of_true rfl hfits
  · rename_i hlong
    exact iff_of_false Bool.false_ne_true hlong

-- The task stays inside the two arrays exactly where the size of the header is no larger than
-- they are, or no more than that arrives.
theorem inbound_stays_iff (arrivals : List Bytes) :
    StaysInside (runTask arrivals) ↔ Harmless (received arrivals) := by
  unfold Harmless
  rcases runTask_cases arrivals with ⟨hnone, hempty, hsmall⟩ | ⟨hatb, hlong, hbody, hat, hpassed⟩
  · refine iff_of_true ⟨fun i hi => ?_, fun call hcall => ?_⟩ fun hatb => ?_
    · obtain ⟨store, hstore, -⟩ := hi
      rw [hnone] at hstore
      cases hstore
    · rw [insertCopy_isSome, hempty call hcall]
      exact Nat.zero_le _
    · rcases hsmall hatb with hzero | hshort
      · rw [hzero]
        exact .inl (Int.natCast_nonneg _)
      · exact .inr (by omega)
  · have hlength : (stored (runTask arrivals).stores).length ≤ MAX_BUF_SIZE ↔
        (MsgHeader.decode ((received arrivals).take sizeofMsgHeader)).size ≤ MAX_BUF_SIZE ∨
          (received arrivals).length ≤ sizeofMsgHeader + MAX_BUF_SIZE := by
      rw [hbody, List.length_take, List.length_drop]
      omega
    constructor
    · intro hstays _
      rw [← hlength]
      by_contra hover
      have hlast := hstays.data MAX_BUF_SIZE ((hat _).mpr (by omega))
      omega
    · intro hharmless
      have hfits := hlength.mpr (hharmless hatb)
      refine ⟨fun i hi => ?_, fun call hcall => ?_⟩
      · have hi' := (hat i).mp hi
        omega
      · rw [insertCopy_isSome, hpassed call hcall]
        exact hfits

-- A header that announces one byte more than the array holds.
def overlongHeader : Bytes :=
  field "atb" 4 ++ intBytes REQ_LOGIN ++ intBytes 1 ++ intBytes 10241 ++ field "" 64

theorem overlong_body_leaves_array : ¬ StaysInside (runTask [overlongHeader, zeros 10241]) := by
  have hlength : overlongHeader.length = sizeofMsgHeader := by decide +kernel
  have hsize : (MsgHeader.decode overlongHeader).size = 10241 := by decide +kernel
  have hflag : overlongHeader.take 3 = field "atb" 3 := by decide +kernel
  have hreceived : received [overlongHeader, zeros 10241] = overlongHeader ++ zeros 10241 := by
    have hne : overlongHeader ≠ [] := by decide +kernel
    have hzeros : zeros 10241 ≠ [] := List.replicate_succ_ne_nil
    rw [received_cons, if_neg hne, received_cons, if_neg hzeros]
    exact congrArg (overlongHeader ++ ·) (List.append_nil _)
  have hheader : (overlongHeader ++ zeros 10241).take sizeofMsgHeader = overlongHeader :=
    List.take_left' hlength
  have hatb : (overlongHeader ++ zeros 10241).take 3 = field "atb" 3 := by
    rw [List.take_append_of_le_length (by rw [hlength]; decide), hflag]
  intro hstays
  rcases runTask_cases [overlongHeader, zeros 10241] with ⟨-, -, hsmall⟩ | ⟨-, -, hbody, hat, -⟩
  · rw [hreceived, hheader, hsize, List.length_append, hlength] at hsmall
    rcases hsmall hatb with hzero | hshort
    · cases hzero
    · omega
  · rw [hreceived, hheader, hsize, List.drop_left' hlength] at hbody
    have hlast := hstays.data MAX_BUF_SIZE ((hat _).mpr ?_)
    · omega
    · rw [hbody, List.length_take, length_zeros]
      decide

end VideoAdapter.Adapter
