import Mathlib.Data.List.Basic

namespace VideoAdapter.Wss

-- timestamp: 0 while somebody watches, else the tick of the quit that emptied the room
structure LiveRoom where
  cmsid : String
  devid : String
  token : String
  rdy : Bool := false
  timestamp : UInt64 := 0
  users : List Int := []
deriving DecidableEq, Repr

namespace LiveRoom

def size (room : LiveRoom) : Nat := room.users.length

def join (room : LiveRoom) (fd : Int) : LiveRoom :=
  if fd ∈ room.users then room
  else { room with users := room.users ++ [fd], timestamp := 0 }

def quit (room : LiveRoom) (fd : Int) (tick : UInt64) : LiveRoom :=
  if fd ∈ room.users then
    let users := room.users.erase fd
    { room with users, timestamp := if users.length < 1 then tick else room.timestamp }
  else room

@[simp] theorem join_cmsid (room : LiveRoom) (fd : Int) : (room.join fd).cmsid = room.cmsid := by
  unfold join; split <;> rfl

@[simp] theorem join_devid (room : LiveRoom) (fd : Int) : (room.join fd).devid = room.devid := by
  unfold join; split <;> rfl

@[simp] theorem join_rdy (room : LiveRoom) (fd : Int) : (room.join fd).rdy = room.rdy := by
  unfold join; split <;> rfl

@[simp] theorem join_token (room : LiveRoom) (fd : Int) : (room.join fd).token = room.token := by
  unfold join; split <;> rfl

@[simp] theorem mem_join (room : LiveRoom) (fd other : Int) :
    other ∈ (room.join fd).users ↔ other ∈ room.users ∨ other = fd := by
  unfold join
  split
  · rename_i hm
    constructor
    · exact .inl
    · rintro (h | rfl)
      · exact h
      · exact hm
  · simp

@[simp] theorem quit_cmsid (room : LiveRoom) (fd : Int) (tick : UInt64) :
    (room.quit fd tick).cmsid = room.cmsid := by
  unfold quit; split <;> rfl

@[simp] theorem quit_devid (room : LiveRoom) (fd : Int) (tick : UInt64) :
    (room.quit fd tick).devid = room.devid := by
  unfold quit; split <;> rfl

theorem quit_users (room : LiveRoom) (fd : Int) (tick : UInt64) :
    (room.quit fd tick).users = room.users.erase fd := by
  unfold quit
  split
  · rfl
  · rename_i hm
    rw [List.erase_of_not_mem hm]

theorem mem_of_mem_quit {room : LiveRoom} {fd other : Int} {tick : UInt64}
    (h : other ∈ (room.quit fd tick).users) : other ∈ room.users := by
  rw [quit_users] at h
  exact List.mem_of_mem_erase h

theorem mem_quit_of_ne {room : LiveRoom} {fd other : Int} (tick : UInt64) (hne : other ≠ fd)
    (h : other ∈ room.users) : other ∈ (room.quit fd tick).users := by
  rw [quit_users]
  exact (List.mem_erase_of_ne hne).mpr h

theorem nodup_join {room : LiveRoom} (fd : Int) (h : room.users.Nodup) :
    (room.join fd).users.Nodup := by
  unfold join
  split
  · exact h
  · rename_i hm
    exact List.nodup_append.mpr ⟨h, by simp, by
      intro a ha b hb
      simp only [List.mem_singleton] at hb
      rintro rfl
      exact hm (hb ▸ ha)⟩

theorem nodup_quit {room : LiveRoom} (fd : Int) (tick : UInt64) (h : room.users.Nodup) :
    (room.quit fd tick).users.Nodup := by
  rw [quit_users]
  exact h.erase fd

theorem not_mem_quit_self {room : LiveRoom} (fd : Int) (tick : UInt64) (h : room.users.Nodup) :
    fd ∉ (room.quit fd tick).users := by
  rw [quit_users]
  exact h.not_mem_erase

end LiveRoom

end VideoAdapter.Wss
