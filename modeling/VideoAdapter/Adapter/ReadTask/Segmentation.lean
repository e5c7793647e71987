import VideoAdapter.Lib.Framing
import VideoAdapter.Adapter.ReadTask

namespace VideoAdapter.Adapter

open Lib Connection

-- A well-formed frame: the flag, and a size between 0 and 10240 that is the length of
-- the body.
structure Frame where
  header : Bytes
  body : Bytes
  length_header : header.length = sizeofMsgHeader
  flag : header.take 3 = field "atb" 3
  size : (MsgHeader.decode header).size = body.length
  length_body : body.length ≤ MAX_BUF_SIZE

def Frame.bytes (f : Frame) : Bytes := f.header ++ f.body

-- A frame without a body is handed over with the sequence number 0.
def Frame.call (f : Frame) : ReadCall :=
  if f.body = [] then ⟨(MsgHeader.decode f.header).cmd, 0, []⟩
  else ⟨(MsgHeader.decode f.header).cmd, (MsgHeader.decode f.header).seq, f.body⟩

-- What an adapter sends.
def stream (frames : List Frame) : Bytes := frames.flatMap Frame.bytes

variable {keeps : List ReadCall → Bool} {f : Frame} {frames whole later : List Frame}
  {calls : List ReadCall} {part missing rest : Bytes} {fuel : Nat}

theorem readTask_whole (f : Frame) (rest : Bytes) :
    readTask (f.bytes ++ rest) = some (some f.call, rest) := by
  have hheader : etRecv (f.bytes ++ rest) sizeofMsgHeader = (f.header, f.body ++ rest) := by
    rw [etRecv_eq, Frame.bytes, List.append_assoc, ← f.length_header, List.take_left,
      List.drop_left]
  simp only [readTask, hheader, f.length_header, f.flag, f.size, ne_eq, not_true_eq_false, if_false]
  by_cases hb : f.body = []
  · simp [hb, Frame.call]
  · have hsize : (f.body.length : Int) ≠ 0 := by simpa using hb
    rw [if_neg hsize, etRecv_eq, List.take_left, List.drop_left]
    have hfits : ¬ MAX_BUF_SIZE < f.body.length := Nat.not_lt.mpr f.length_body
    simp [hfits, Frame.call, hb]

-- The task gives up on the first part of a frame.
theorem readTask_part (hm : missing ≠ []) (he : f.bytes = part ++ missing) :
    ∃ rest, readTask part = some (none, rest) := by
  have hmissing := List.length_pos_iff.mpr hm
  have hlen := congrArg List.length he
  simp only [Frame.bytes, List.length_append, f.length_header] at hlen
  simp only [readTask, etRecv_eq]
  by_cases hshort : part.length < sizeofMsgHeader
  · refine ⟨_, if_pos ?_⟩
    rw [List.length_take]
    omega
  · -- the header is there, and the body is not
    have hheader : part.take sizeofMsgHeader = f.header := by
      have htake := congrArg (List.take sizeofMsgHeader) he
      rw [Frame.bytes, ← f.length_header, List.take_left,
        List.take_append_of_le_length (by rw [f.length_header]; omega)] at htake
      rw [← f.length_header, ← htake]
    have hdata : (part.drop sizeofMsgHeader).take f.body.length = part.drop sizeofMsgHeader :=
      List.take_of_length_le (by rw [List.length_drop]; omega)
    have hsize : (f.body.length : Int) ≠ 0 := by omega
    have hfits := f.length_body
    refine ⟨(part.drop sizeofMsgHeader).drop f.body.length, ?_⟩
    rw [hheader]
    simp only [f.length_header, f.flag, f.size, ne_eq, not_true_eq_false, if_false, etRecv_eq, hdata]
    rw [if_neg hsize, if_neg (by rw [List.length_drop]; omega),
      if_pos (by rw [List.length_drop]; omega)]

-- The connection is kept after each of these frames.
def keptOpen (keeps : List ReadCall → Bool) : List ReadCall → List Frame → Bool
  | _, [] => true
  | calls, f :: rest => keeps (calls ++ [f.call]) && keptOpen keeps (calls ++ [f.call]) rest

-- The frames up to the one after which the server closes the connection.
def served (keeps : List ReadCall → Bool) : List ReadCall → List Frame → List Frame
  | _, [] => []
  | calls, f :: rest =>
      f :: if keeps (calls ++ [f.call]) then served keeps (calls ++ [f.call]) rest else []

theorem served_append : served keeps calls (whole ++ later) =
    if keptOpen keeps calls whole then whole ++ served keeps (calls ++ whole.map Frame.call) later
    else served keeps calls whole := by
  induction whole generalizing calls with
  | nil => simp [keptOpen]
  | cons f rest ih =>
      simp only [List.cons_append, served, keptOpen, Bool.and_eq_true, List.map_cons]
      by_cases hk : keeps (calls ++ [f.call])
      · simp only [hk, if_true, true_and, ih, List.append_assoc, List.singleton_append]
        split <;> rfl
      · simp [hk]

theorem served_isPrefix (keeps : List ReadCall → Bool) (calls : List ReadCall) (frames : List Frame) :
    served keeps calls frames <+: frames := by
  induction frames generalizing calls with
  | nil => exact List.nil_prefix
  | cons f rest ih =>
      rw [served, List.cons_prefix_cons]
      refine ⟨rfl, ?_⟩
      split
      · exact ih _
      · exact List.nil_prefix

theorem drain_closed (avail : Bytes) : drain keeps fuel ⟨avail, calls, false⟩ =
    some ⟨avail, calls, false⟩ := by
  cases fuel <;> simp [drain]

theorem drain_empty : drain keeps fuel ⟨[], calls, true⟩ = some ⟨[], calls, true⟩ := by
  cases fuel <;> simp [drain]

theorem Frame.length_bytes (f : Frame) : 80 ≤ f.bytes.length := by
  rw [Frame.bytes, List.length_append, f.length_header, sizeofMsgHeader]
  omega

-- One event reads one frame.
theorem drain_frame (f : Frame) (rest : Bytes) (calls : List ReadCall) :
    drain keeps (fuel + 1) ⟨f.bytes ++ rest, calls, true⟩ =
      drain keeps fuel ⟨rest, calls ++ [f.call], keeps (calls ++ [f.call])⟩ := by
  have hne : f.bytes ++ rest ≠ [] := by
    have hlen := f.length_bytes
    intro hnil
    rw [(List.append_eq_nil_iff.mp hnil).1] at hlen
    simp at hlen
  simp [drain, hne, serve, readTask_whole]

-- A part of a frame closes the connection.
theorem drain_part (keeps : List ReadCall → Bool) (calls : List ReadCall) (hp : part ≠ [])
    (hm : missing ≠ []) (he : f.bytes = part ++ missing) (hfuel : part.length ≤ fuel) :
    ∃ rest, drain keeps fuel ⟨part, calls, true⟩ = some ⟨rest, calls, false⟩ := by
  obtain ⟨rest, hr⟩ := readTask_part hm he
  cases fuel with
  | zero => exact absurd (List.length_eq_zero_iff.mp (Nat.le_zero.mp hfuel)) hp
  | succ fuel =>
      refine ⟨rest, ?_⟩
      simp [drain, hp, serve, hr, drain_closed]

-- Whole frames are read one by one, as long as the connection is kept.
theorem drain_whole (keeps : List ReadCall → Bool) (calls : List ReadCall) (whole : List Frame)
    (part : Bytes) (hfuel : (stream whole ++ part).length ≤ fuel) :
    if keptOpen keeps calls whole then
      ∃ left, part.length ≤ left ∧ drain keeps fuel ⟨stream whole ++ part, calls, true⟩ =
        drain keeps left ⟨part, calls ++ whole.map Frame.call, true⟩
    else ∃ rest, drain keeps fuel ⟨stream whole ++ part, calls, true⟩ =
      some ⟨rest, calls ++ (served keeps calls whole).map Frame.call, false⟩ := by
  induction whole generalizing calls fuel with
  | nil => exact ⟨fuel, by simpa [stream] using hfuel, by simp [stream]⟩
  | cons f rest ih =>
      have hbytes : stream (f :: rest) ++ part = f.bytes ++ (stream rest ++ part) := by
        simp [stream]
      have hlen := f.length_bytes
      rw [hbytes, List.length_append] at hfuel
      rw [hbytes]
      cases fuel with
      | zero => omega
      | succ fuel =>
          rw [drain_frame, keptOpen, served]
          by_cases hk : keeps (calls ++ [f.call])
          · have hrest := ih (calls ++ [f.call]) (show (stream rest ++ part).length ≤ fuel by omega)
            simpa [hk] using hrest
          · rw [Bool.not_eq_true] at hk
            simp [hk, drain_closed]

theorem foldlM_arrive_closed (avail : Bytes) (chunks : List Bytes) :
    chunks.foldlM (arrive keeps) ⟨avail, calls, false⟩ = some ⟨avail, calls, false⟩ := by
  induction chunks with
  | nil => rfl
  | cons chunk rest ih => simpa [List.foldlM_cons, arrive] using ih

theorem arrive_open (chunk : Bytes) : arrive keeps ⟨[], calls, true⟩ chunk =
    drain keeps chunk.length ⟨chunk, calls, true⟩ := by
  simp [arrive]

-- Whole frames arrive, and the connection is kept.
theorem arrive_whole (hkept : keptOpen keeps calls whole = true) :
    arrive keeps ⟨[], calls, true⟩ (stream whole) =
      some ⟨[], calls ++ whole.map Frame.call, true⟩ := by
  have hdrain := drain_whole keeps calls whole [] (Nat.le_refl _)
  rw [if_pos hkept, List.append_nil] at hdrain
  obtain ⟨left, -, hdrain⟩ := hdrain
  rw [arrive_open, hdrain, drain_empty]

-- The server closes the connection after one of the frames.
theorem arrive_closing (part : Bytes) (hkept : keptOpen keeps calls whole ≠ true) :
    ∃ rest, arrive keeps ⟨[], calls, true⟩ (stream whole ++ part) =
      some ⟨rest, calls ++ (served keeps calls whole).map Frame.call, false⟩ := by
  have hdrain := drain_whole keeps calls whole part (Nat.le_refl _)
  rw [if_neg hkept] at hdrain
  rw [arrive_open]
  exact hdrain

-- The chunk ends inside a frame.
theorem arrive_part (hkept : keptOpen keeps calls whole = true) (hp : part ≠ []) (hm : missing ≠ [])
    (he : f.bytes = part ++ missing) :
    ∃ rest, arrive keeps ⟨[], calls, true⟩ (stream whole ++ part) =
      some ⟨rest, calls ++ whole.map Frame.call, false⟩ := by
  have hdrain := drain_whole keeps calls whole part (Nat.le_refl _)
  rw [if_pos hkept] at hdrain
  obtain ⟨left, hleft, hdrain⟩ := hdrain
  obtain ⟨rest, hclosed⟩ := drain_part keeps (calls ++ whole.map Frame.call) hp hm he hleft
  exact ⟨rest, by rw [arrive_open, hdrain, hclosed]⟩

-- Every arrival that ends before the last frame that is served ends with a whole frame.
def cutsAtFrames (keeps : List ReadCall → Bool) (calls : List ReadCall) (frames : List Frame)
    (chunks : List Bytes) : Prop :=
  ∀ early late, chunks = early ++ late →
    early.flatten.length < (stream (served keeps calls frames)).length →
    Aligned Frame.bytes frames early.flatten

variable {chunk : Bytes} {chunks : List Bytes}

-- The first chunk is whole frames: the condition is about the other chunks.
theorem cutsAtFrames_cons (hkept : keptOpen keeps calls whole = true) :
    cutsAtFrames keeps calls (whole ++ later) (stream whole :: chunks) ↔
      cutsAtFrames keeps (calls ++ whole.map Frame.call) later chunks := by
  have hserved : (stream (served keeps calls (whole ++ later))).length =
      (stream whole).length +
        (stream (served keeps (calls ++ whole.map Frame.call) later)).length := by
    rw [served_append, if_pos hkept]
    simp [stream]
  constructor
  · rintro h early late rfl hlt
    have hal := h (stream whole :: early) late rfl (by simpa [hserved] using hlt)
    rw [List.flatten_cons] at hal
    exact aligned_append.mp hal
  · intro h early late he hlt
    cases early with
    | nil => exact aligned_nil
    | cons first early =>
        obtain ⟨rfl, rfl⟩ := List.cons.inj he
        rw [List.flatten_cons, List.length_append, hserved] at hlt
        rw [List.flatten_cons]
        exact aligned_append.mpr (h early late rfl (by omega))

-- All served frames are in the first chunk.
theorem cutsAtFrames_of_le
    (hle : (stream (served keeps calls frames)).length ≤ chunk.length) :
    cutsAtFrames keeps calls frames (chunk :: chunks) := by
  intro early late he hlt
  cases early with
  | nil => exact aligned_nil
  | cons first early =>
      obtain ⟨rfl, rfl⟩ := List.cons.inj he
      rw [List.flatten_cons, List.length_append] at hlt
      omega

-- The first chunk ends inside a frame that is to be served.
theorem not_cutsAtFrames (hkept : keptOpen keeps calls whole = true) (hp : part ≠ [])
    (hm : missing ≠ []) (he : f.bytes = part ++ missing) :
    ¬ cutsAtFrames keeps calls (whole ++ f :: later) ((stream whole ++ part) :: chunks) := by
  intro h
  have hmissing := List.length_pos_iff.mpr hm
  have hlt : [stream whole ++ part].flatten.length <
      (stream (served keeps calls (whole ++ f :: later))).length := by
    rw [served_append, if_pos hkept, served]
    simp only [stream, List.flatten_cons, List.flatten_nil, List.append_nil, List.flatMap_append,
      List.flatMap_cons, List.length_append, he]
    omega
  have hal := h [stream whole ++ part] chunks rfl hlt
  rw [List.flatten_singleton] at hal
  exact not_aligned_of_part hp hm he hal

theorem receive_chunks (keeps : List ReadCall → Bool) (calls : List ReadCall)
    (h : chunks.flatten = stream frames) :
    ∃ conn, chunks.foldlM (arrive keeps) ⟨[], calls, true⟩ = some conn ∧
      (conn.calls = calls ++ (served keeps calls frames).map Frame.call ↔
        cutsAtFrames keeps calls frames chunks) := by
  induction chunks generalizing calls frames with
  | nil =>
      refine ⟨_, rfl, iff_of_true ?_ ?_⟩
      · cases frames with
        | nil => simp [served]
        | cons f rest =>
            have hlen := congrArg List.length h
            have hframe := f.length_bytes
            simp only [stream, List.flatten_nil, List.length_nil, List.flatMap_cons,
              List.length_append] at hlen
            omega
      · rintro early late he -
        rw [(List.append_eq_nil_iff.mp he.symm).1]
        exact aligned_nil
  | cons chunk chunks ih =>
      rw [List.flatten_cons] at h
      obtain ⟨whole, later, part, rfl, hchunk, hpart⟩ := exists_cut h
      replace hchunk : chunk = stream whole ++ part := hchunk
      subst hchunk
      rw [List.foldlM_cons]
      by_cases hkept : keptOpen keeps calls whole = true
      · rcases hpart with rfl | ⟨f, tail, missing, rfl, hp, hm, he⟩
        · -- the chunk ends with a whole frame, and the connection goes on
          have hrest : chunks.flatten = stream later := by simpa [stream] using h
          obtain ⟨conn, hconn, hiff⟩ := ih (calls ++ whole.map Frame.call) hrest
          rw [List.append_nil, arrive_whole hkept]
          refine ⟨conn, hconn, ?_⟩
          rw [cutsAtFrames_cons hkept, ← hiff, served_append, if_pos hkept]
          simp
        · obtain ⟨rest, hclosed⟩ := arrive_part hkept hp hm he
          rw [hclosed]
          refine ⟨_, foldlM_arrive_closed rest chunks, iff_of_false ?_ ?_⟩
          · rw [served_append, if_pos hkept, served]
            simp
          · exact not_cutsAtFrames hkept hp hm he
      · obtain ⟨rest, hclosed⟩ := arrive_closing part hkept
        have hserved : served keeps calls (whole ++ later) = served keeps calls whole := by
          rw [served_append, if_neg hkept]
        rw [hclosed]
        refine ⟨_, foldlM_arrive_closed rest chunks, iff_of_true ?_ ?_⟩
        · rw [hserved]
        · refine cutsAtFrames_of_le ?_
          rw [hserved, List.length_append]
          exact Nat.le_add_right_of_le (length_flatMap_le _ (served_isPrefix keeps calls whole))

theorem cutsAtFrames_map (keeps : List ReadCall → Bool) (calls : List ReadCall)
    (frames : List Frame) : cutsAtFrames keeps calls frames (frames.map Frame.bytes) := by
  intro early late he _
  obtain ⟨whole, later, rfl, rfl, -⟩ := List.map_eq_append_iff.mp he
  exact ⟨whole, List.prefix_append whole later, rfl⟩

-- The calls are those of whole frames exactly when no arrival ends inside a frame that
-- is to be served.
theorem segmentation_iff (keeps : List ReadCall → Bool) (frames : List Frame)
    (chunks : List Bytes) (h : chunks.flatten = stream frames) :
    ∃ conn whole, receive keeps chunks = some conn ∧
      receive keeps (frames.map Frame.bytes) = some whole ∧
      (conn.calls = whole.calls ↔ cutsAtFrames keeps [] frames chunks) := by
  obtain ⟨conn, hconn, hiff⟩ := receive_chunks keeps [] h
  obtain ⟨whole, hwhole, hwiff⟩ := receive_chunks keeps []
    (show (frames.map Frame.bytes).flatten = stream frames from rfl)
  refine ⟨conn, whole, hconn, hwhole, ?_⟩
  rw [hwiff.mpr (cutsAtFrames_map keeps [] frames)]
  exact hiff

def keepAliveFrame : Frame where
  header := field "atb" 4 ++ intBytes KEEP_ALIVE ++ intBytes 5 ++ intBytes 0 ++ field "" 64
  body := []
  length_header := by decide +kernel
  flag := by decide +kernel
  size := by decide +kernel
  length_body := by decide

-- Two frames in one chunk are read one after the other.
theorem segmentation_merged :
    ∃ conn whole, receive (fun _ => true) [stream [keepAliveFrame, keepAliveFrame]] = some conn ∧
      receive (fun _ => true) ([keepAliveFrame, keepAliveFrame].map Frame.bytes) = some whole ∧
      conn.calls = whole.calls := by
  obtain ⟨conn, whole, hconn, hwhole, hiff⟩ := segmentation_iff (fun _ => true)
    [keepAliveFrame, keepAliveFrame] [stream [keepAliveFrame, keepAliveFrame]] (by simp)
  refine ⟨conn, whole, hconn, hwhole, hiff.mpr (cutsAtFrames_of_le ?_)⟩
  exact length_flatMap_le _ (served_isPrefix _ _ _)

-- A header that arrives in two parts closes the connection.
theorem segmentation_header_cut :
    ¬ ∀ keeps frames chunks, chunks.flatten = stream frames →
      (receive keeps chunks).map (·.calls) =
        (receive keeps (frames.map Frame.bytes)).map (·.calls) := by
  intro hall
  have heq := hall (fun _ => true) [keepAliveFrame]
    [keepAliveFrame.bytes.take 40, keepAliveFrame.bytes.drop 40] (by simp [stream])
  revert heq
  decide +kernel

end VideoAdapter.Adapter
