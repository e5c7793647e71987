import VideoAdapter.Adapter.CmsClient

namespace VideoAdapter.Adapter

-- The kernel returns the bytes it has, up to the requested number; `none` is `EAGAIN`.
def recv (avail : Bytes) (n : Nat) : Option (Bytes × Bytes) :=
  if avail = [] then none else some (avail.take n, avail.drop n)

-- The loop of `SOCKIO::ETRecv`. Every round but the last reads at least one byte, so as
-- many rounds as bytes are enough.
def etRecvLoop : Nat → Bytes → Nat → Bytes × Bytes
  | 0, avail, _ => ([], avail)
  | fuel + 1, avail, nleft =>
      if nleft = 0 then ([], avail)
      else match recv avail nleft with
        | none => ([], avail)
        | some (nread, rest) =>
            let (more, rest) := etRecvLoop fuel rest (nleft - nread.length)
            (nread ++ more, rest)

-- What was read, and what is left in the kernel. For a negative `n` the loop is not entered.
def etRecv (avail : Bytes) (n : Int) : Bytes × Bytes := etRecvLoop n.toNat avail n.toNat

theorem etRecv_eq (avail : Bytes) (n : Nat) : etRecv avail n = (avail.take n, avail.drop n) := by
  cases n with
  | zero => rfl
  | succ n =>
      simp only [etRecv, Int.toNat_natCast, etRecvLoop, recv]
      by_cases ha : avail = []
      · simp [ha]
      · rw [if_neg (Nat.succ_ne_zero n), if_neg ha]
        -- the second round finds nothing to ask for, or nothing to read
        have hloop : etRecvLoop n (avail.drop (n + 1)) (n + 1 - (avail.take (n + 1)).length) =
            ([], avail.drop (n + 1)) := by
          cases n with
          | zero => rfl
          | succ n =>
              rw [etRecvLoop]
              split
              · rfl
              · rename_i hleft
                have hshort : avail.drop (n + 1 + 1) = [] := by
                  rw [List.length_take] at hleft
                  exact List.drop_eq_nil_iff.mpr (by omega)
                rw [hshort]
                rfl
        simp only [hloop, List.append_nil]

-- A call of `HandlerRead` for this connection.
structure ReadCall where
  cmd : Int
  seq : Int
  buf : Bytes
deriving DecidableEq, Repr

-- One `TaskTcpReadMsg::run`: the call it makes after `ResetOneshot`, or none when it
-- calls `DelClient`. More data than the array holds runs over it: no result then.
def readTask (avail : Bytes) : Option (Option ReadCall × Bytes) :=
  let (header, rest) := etRecv avail sizeofMsgHeader
  if header.length ≠ sizeofMsgHeader then some (none, rest)
  else if header.take 3 ≠ field "atb" 3 then some (none, rest)
  else
    let h := MsgHeader.decode header
    if h.size = 0 then some (some ⟨h.cmd, 0, []⟩, rest)
    else
      let (data, rest) := etRecv rest h.size
      if MAX_BUF_SIZE < data.length then none
      else if data.length ≠ h.size then some (none, rest)
      else some (some ⟨h.cmd, h.seq, data⟩, rest)

-- What is passed on was stored in the array.
theorem length_le_of_readTask {avail rest : Bytes} {call : ReadCall}
    (h : readTask avail = some (some call, rest)) : call.buf.length ≤ MAX_BUF_SIZE := by
  unfold readTask at h
  dsimp only at h
  split at h
  · cases h
  split at h
  · cases h
  split at h
  · cases h
    exact Nat.zero_le _
  split at h
  · cases h
  · rename_i hfits
    split at h
    · cases h
    · cases h
      exact Nat.not_lt.mp hfits

-- `avail` are the bytes that arrived and were not read.
structure Connection where
  avail : Bytes := []
  calls : List ReadCall := []
  isOpen : Bool := true
deriving DecidableEq, Repr

-- A readable event. `keeps` says whether the server keeps the connection after these
-- calls of `HandlerRead`.
def Connection.serve (keeps : List ReadCall → Bool) (conn : Connection) : Option Connection :=
  (readTask conn.avail).map fun (call, rest) =>
    match call with
    | none => { conn with avail := rest, isOpen := false }
    | some call => ⟨rest, conn.calls ++ [call], keeps (conn.calls ++ [call])⟩

-- The event is raised again while bytes remain.
def Connection.drain (keeps : List ReadCall → Bool) : Nat → Connection → Option Connection
  | 0, conn => some conn
  | fuel + 1, conn =>
      if conn.isOpen ∧ conn.avail ≠ [] then (conn.serve keeps).bind (drain keeps fuel)
      else some conn

-- A chunk arrives. Every task that leaves the connection open has read a byte, so there
-- are at most as many events as bytes.
def Connection.arrive (keeps : List ReadCall → Bool) (conn : Connection) (chunk : Bytes) :
    Option Connection :=
  if conn.isOpen then
    Connection.drain keeps (conn.avail ++ chunk).length { conn with avail := conn.avail ++ chunk }
  else some conn

def receive (keeps : List ReadCall → Bool) (chunks : List Bytes) : Option Connection :=
  chunks.foldlM (Connection.arrive keeps) {}

end VideoAdapter.Adapter
