import VideoAdapter.Wss.Calls.Moves

namespace VideoAdapter.Wss

open Adapter Lib
open Service (RequestEnv SweepEnv)

-- The pointer that a call has created and not stored yet.
def Call.reserved : Call → Option Nat
  | .join _ _ _ (.store p _) => some p
  | _ => none

-- The key and the room of a join between its look-up and its `LiveRoom::join`.
def Call.found : Call → Option (String × Nat)
  | .join _ c d (.found p) => some (c ++ d, p)
  | _ => none

namespace Mngr

def reserved (m : Mngr) (i : Nat) : Option Nat := m.calls[i]?.bind Call.reserved

-- Every stored pointer and every created one leads to a room of its own.
structure Sound (m : Mngr) : Prop where
  live : ∀ (k : String) (p : Nat), m.rooms[k]? = some p → ∃ room, m.room p = some room
  inj : ∀ (k k' : String) (p : Nat), m.rooms[k]? = some p → m.rooms[k']? = some p → k = k'
  kept : ∀ i p, m.reserved i = some p →
    (∃ room, m.room p = some room) ∧ ∀ k : String, m.rooms[k]? ≠ some p
  once : ∀ i j p, m.reserved i = some p → m.reserved j = some p → i = j

end Mngr

variable {m base after : Mngr} {i j : Nat} {call call' : Call} {key : String} {p : Nat}
  {room : LiveRoom} {event : CallEvent} {shown : Shown} {out : List Output}

theorem bind_goto {α : Type} (f : Call → Option α) (hc : m.calls[i]? = some call)
    (hbase : base.calls = m.calls) (call' : Call) (j : Nat) :
    (base.goto i call').calls[j]?.bind f = if j = i then f call' else m.calls[j]?.bind f := by
  simp only [Mngr.goto, hbase, List.getElem?_set]
  have hlt : i < m.calls.length := (List.getElem?_eq_some_iff.mp hc).1
  by_cases hj : i = j
  · subst hj
    simp [hlt]
  · simp [hj, Ne.symm hj]

theorem bind_append {α : Type} {f : Call → Option α} (hf : f call = none) {x : α}
    (h : (m.calls ++ [call])[j]?.bind f = some x) : m.calls[j]?.bind f = some x := by
  rw [List.getElem?_append] at h
  split at h
  · exact h
  · obtain ⟨last, hl, hx⟩ := Option.bind_eq_some_iff.mp h
    rw [List.mem_singleton.mp (List.mem_of_getElem? hl), hf] at hx
    cases hx

theorem room_write (h : m.room p = some room) (last : LiveRoom) (q : Nat) :
    (m.write p last).room q = if q = p then some last else m.room q := by
  have hlt : p < m.heap.length := (List.getElem?_eq_some_iff.mp (heap_of_room h)).1
  simp only [Mngr.room, Mngr.write, List.getElem?_set]
  by_cases hq : p = q
  · subst hq
    simp [hlt]
  · simp [hq, Ne.symm hq]

theorem room_append (m : Mngr) (room : LiveRoom) (q : Nat) :
    Mngr.room { m with heap := m.heap ++ [some room] } q =
      if q = m.heap.length then some room else m.room q := by
  simp only [Mngr.room, List.getElem?_append]
  by_cases hlt : q < m.heap.length
  · simp [hlt, Nat.ne_of_lt hlt]
  · by_cases hq : q = m.heap.length
    · simp [hq]
    · have hmore : ([some room] : List (Option LiveRoom))[q - m.heap.length]? = none := by
        simp; omega
      simp [hlt, hq, hmore]

theorem rooms_delete (m : Mngr) (key k : String) :
    (m.delete key).rooms[k]? = if k = key then none else m.rooms[k]? := by
  unfold Mngr.delete Joins.delete
  by_cases hk : k = key
  · subst hk
    cases hr : m.rooms[k]? <;> simp [Mngr.shared, Mngr.withShared, hr]
  · cases hr : m.rooms[key]? <;>
      simp [Mngr.shared, Mngr.withShared, hr, hk, Ne.symm hk, Std.ExtTreeMap.getElem?_erase]

-- Deleting the room of a key frees no other room.
theorem room_delete (hne : m.rooms[key]? ≠ some p) : (m.delete key).room p = m.room p := by
  unfold Mngr.delete Joins.delete
  cases hr : m.rooms[key]? with
  | none => simp [Mngr.shared, Mngr.withShared, hr, Mngr.room]
  | some q =>
      have hq : q ≠ p := fun he => hne (he ▸ hr)
      simp [Mngr.shared, Mngr.withShared, hr, Mngr.room, hq]

-- Every room that exists goes on existing.
def Mngr.Survives (m after : Mngr) : Prop :=
  ∀ p room, m.room p = some room → ∃ last, after.room p = some last

-- What one step of a call does to `rooms_` and to the heap: it takes no room off and may
-- have looked one up, or deletes the room of its key, or creates a room, or stores it.
inductive Effect (m : Mngr) (call call' : Call) : Mngr → Prop
  | mild {base : Mngr} (hrooms : base.rooms = m.rooms) (hlive : m.Survives base)
      (htakes : call.takes = none) (hreserved : call'.reserved = none)
      (hfound : ∀ key p, call'.found = some (key, p) → m.rooms[key]? = some p) :
      Effect m call call' base
  | delete (key : String) (htakes : call.takes = some key) (hreserved : call'.reserved = none)
      (hold : call.found = none) (hfound : call'.found = none) : Effect m call call' (m.delete key)
  | create (room : LiveRoom) (htakes : call.takes = none)
      (hreserved : call'.reserved = some m.heap.length) (hfound : call'.found = none) :
      Effect m call call' { m with heap := m.heap ++ [some room] }
  | store (key : String) (p : Nat) (htakes : call.takes = some key)
      (hold : call.reserved = some p ∧ call.found = none)
      (hnew : call'.reserved = none ∧ call'.found = none) :
      Effect m call call' { m with rooms := m.rooms.insert key p }

theorem Mngr.Survives.refl (m : Mngr) : m.Survives m := fun _ room h => ⟨room, h⟩

theorem survives_write (h : m.room p = some room) (last : LiveRoom) :
    m.Survives (m.write p last) := by
  intro q old hq
  rw [room_write h]
  split
  · exact ⟨last, rfl⟩
  · exact ⟨old, hq⟩

-- A step that neither looks up nor creates.
theorem Effect.plain (hrooms : base.rooms = m.rooms) (hlive : m.Survives base)
    (htakes : call.takes = none) (hreserved : call'.reserved = none) (hfound : call'.found = none) :
    Effect m call call' base :=
  .mild hrooms hlive htakes hreserved fun key p h => by simp [hfound] at h

theorem Move.effect (h : Move m call base call' out) : Effect m call call' base := by
  cases h with
  | joinChecked s c d ret _ hret => exact .plain rfl (.refl m) rfl rfl rfl
  | joinRefused s c d ret pc _ hret hpc =>
      have htakes : Call.takes (.join s c d (.lookup ret)) = some (c ++ d) := if_pos hret
      rcases hpc with rfl | rfl
      · exact .delete (c ++ d) htakes rfl rfl rfl
      · exact .delete (c ++ d) htakes rfl rfl rfl
  | joinFound s c d p _ hr =>
      refine .mild rfl (.refl m) (by simp [Call.takes]) rfl fun key q hq => ?_
      cases hq
      exact hr
  | joinUnexpected s c d ret _ hret hr =>
      refine .plain rfl (.refl m) (if_neg ?_) rfl rfl
      omega
  | joinStarted s c d server pc _ hpc =>
      rcases hpc with ⟨result, rfl⟩ | ⟨token, rfl⟩
      · exact .plain rfl (.refl m) rfl rfl rfl
      · exact .plain rfl (.refl m) rfl rfl rfl
  | joinCreated s c d token => exact .create _ rfl rfl rfl
  | joinStored s c d p resp => exact .store (c ++ d) p rfl ⟨rfl, rfl⟩ ⟨rfl, rfl⟩
  | joinJoined s c d p room _ hp => exact .plain rfl (survives_write hp _) rfl rfl rfl
  | joinRead s c d p count room _ hp => exact .plain rfl (.refl m) rfl rfl rfl
  | joinReplied s c d resp connections => exact .plain rfl (.refl m) rfl rfl rfl
  | joinAccepted s c d resp connections => exact .plain rfl (.refl m) rfl rfl rfl
  | quitChecked s c d ret => exact .plain rfl (.refl m) rfl rfl rfl
  | quitFound s c d p _ hr => exact .plain rfl (.refl m) rfl rfl rfl
  | quitAbsent s c d => exact .plain rfl (.refl m) rfl rfl rfl
  | quitRefused s c d ret _ hret => exact .delete (c ++ d) (if_neg hret) rfl rfl rfl
  | quitQuit s c d p room tick _ hp => exact .plain rfl (survives_write hp _) rfl rfl rfl
  | quitCleared s c d connections => exact .plain rfl (.refl m) rfl rfl rfl
  | quitReplied s c d connections => exact .plain rfl (.refl m) rfl rfl rfl
  | hlsFound token p _ hp => exact .plain rfl (.refl m) rfl rfl rfl
  | hlsAbsent token _ hp => exact .plain rfl (.refl m) rfl rfl rfl
  | hlsReady token p room _ hp => exact .plain rfl (survives_write hp _) rfl rfl rfl
  | hlsSized token p room _ hp => exact .plain rfl (.refl m) rfl rfl rfl
  | hlsBroadcast token p isize room connections _ hp => exact .plain rfl (.refl m) rfl rfl rfl

theorem Move.calls (h : Move m call base call' out) : base.calls = m.calls := by
  cases h <;> rfl

theorem Mngr.Sound.lt (h : m.Sound) (hp : m.rooms[key]? = some p) : p < m.heap.length := by
  obtain ⟨room, hroom⟩ := h.live key p hp
  exact (List.getElem?_eq_some_iff.mp (heap_of_room hroom)).1

-- A change that takes no room off and adds no pointer to store.
theorem Mngr.Sound.mild (h : m.Sound) (hrooms : after.rooms = m.rooms) (hlive : m.Survives after)
    (hreserved : ∀ j q, after.reserved j = some q → m.reserved j = some q) : after.Sound := by
  refine ⟨?_, ?_, ?_, ?_⟩
  · intro k p hp
    rw [hrooms] at hp
    obtain ⟨room, hroom⟩ := h.live k p hp
    exact hlive p room hroom
  · rw [hrooms]
    exact h.inj
  · intro i p hi
    rw [hrooms]
    obtain ⟨⟨room, hroom⟩, hfree⟩ := h.kept i p (hreserved i p hi)
    exact ⟨hlive p room hroom, hfree⟩
  · exact fun i j p hi hj => h.once i j p (hreserved i p hi) (hreserved j p hj)

theorem Mngr.Sound.delete (h : m.Sound) (key : String) (hrooms : after.rooms = (m.delete key).rooms)
    (hheap : after.heap = (m.delete key).heap)
    (hreserved : ∀ j q, after.reserved j = some q → m.reserved j = some q) : after.Sound := by
  have hget : ∀ k : String, after.rooms[k]? = if k = key then none else m.rooms[k]? := by
    intro k
    rw [hrooms, rooms_delete]
  have hold : ∀ (k : String) (p : Nat), after.rooms[k]? = some p →
      k ≠ key ∧ m.rooms[k]? = some p := by
    intro k p hp
    rw [hget] at hp
    split at hp
    · cases hp
    · rename_i hk
      exact ⟨hk, hp⟩
  have hroom : ∀ p, m.rooms[key]? ≠ some p → after.room p = m.room p := by
    intro p hp
    rw [← room_delete hp]
    unfold Mngr.room
    rw [hheap]
  refine ⟨?_, ?_, ?_, ?_⟩
  · intro k p hp
    obtain ⟨hk, hp⟩ := hold k p hp
    rw [hroom p fun he => hk (h.inj k key p hp he)]
    exact h.live k p hp
  · exact fun k k' p hp hp' => h.inj k k' p (hold k p hp).2 (hold k' p hp').2
  · intro i p hi
    obtain ⟨hlive, hfree⟩ := h.kept i p (hreserved i p hi)
    rw [hroom p (hfree key)]
    exact ⟨hlive, fun k hp => hfree k (hold k p hp).2⟩
  · exact fun i j p hi hj => h.once i j p (hreserved i p hi) (hreserved j p hj)

theorem Mngr.Sound.create (h : m.Sound) (hrooms : after.rooms = m.rooms)
    (hheap : after.heap = m.heap ++ [some room])
    (hreserved : ∀ j, after.reserved j = if j = i then some m.heap.length else m.reserved j) :
    after.Sound := by
  have hroom : ∀ q, after.room q = if q = m.heap.length then some room else m.room q := by
    intro q
    rw [← room_append]
    unfold Mngr.room
    rw [hheap]
  have hlive : m.Survives after := by
    intro q old hq
    rw [hroom]
    split
    · exact ⟨room, rfl⟩
    · exact ⟨old, hq⟩
  have hkept : ∀ j q, m.reserved j = some q → q < m.heap.length := by
    intro j q hj
    obtain ⟨⟨old, hq⟩, -⟩ := h.kept j q hj
    exact (List.getElem?_eq_some_iff.mp (heap_of_room hq)).1
  refine ⟨?_, ?_, ?_, ?_⟩
  · intro k p hp
    rw [hrooms] at hp
    obtain ⟨old, hold⟩ := h.live k p hp
    exact hlive p old hold
  · rw [hrooms]
    exact h.inj
  · intro j q hj
    rw [hreserved] at hj
    rw [hrooms]
    split at hj
    · cases hj
      refine ⟨⟨room, by simp [hroom]⟩, fun k hk => ?_⟩
      exact Nat.lt_irrefl _ (h.lt hk)
    · obtain ⟨⟨old, hold⟩, hfree⟩ := h.kept j q hj
      exact ⟨hlive q old hold, hfree⟩
  · intro j j' q hj hj'
    rw [hreserved] at hj hj'
    split at hj <;> split at hj'
    · rename_i he he'
      rw [he, he']
    · cases hj
      exact absurd (hkept j' _ hj') (Nat.lt_irrefl _)
    · cases hj'
      exact absurd (hkept j _ hj) (Nat.lt_irrefl _)
    · exact h.once j j' q hj hj'

theorem Mngr.Sound.store (h : m.Sound) (hi : m.reserved i = some p)
    (hrooms : after.rooms = m.rooms.insert key p) (hheap : after.heap = m.heap)
    (hreserved : ∀ j, after.reserved j = if j = i then none else m.reserved j) : after.Sound := by
  obtain ⟨hlive, hfree⟩ := h.kept i p hi
  have hroom : ∀ q, after.room q = m.room q := by
    intro q
    unfold Mngr.room
    rw [hheap]
  have hget : ∀ k : String, after.rooms[k]? = if k = key then some p else m.rooms[k]? := by
    intro k
    rw [hrooms, Std.ExtTreeMap.getElem?_insert]
    by_cases hk : k = key
    · simp [hk]
    · simp [hk, Ne.symm hk]
  refine ⟨?_, ?_, ?_, ?_⟩
  · intro k q hq
    rw [hget] at hq
    rw [hroom]
    split at hq
    · cases hq
      exact hlive
    · exact h.live k q hq
  · intro k k' q hq hq'
    rw [hget] at hq hq'
    split at hq <;> split at hq'
    · rename_i hk hk'
      rw [hk, hk']
    · cases hq
      exact absurd hq' (hfree k')
    · cases hq'
      exact absurd hq (hfree k)
    · exact h.inj k k' q hq hq'
  · intro j q hj
    rw [hreserved] at hj
    split at hj
    · cases hj
    · rename_i hne
      obtain ⟨hq, hqfree⟩ := h.kept j q hj
      refine ⟨by rwa [hroom], fun k hk => ?_⟩
      rw [hget] at hk
      split at hk
      · cases hk
        exact hne (h.once j i p hj hi)
      · exact hqfree k hk
  · intro j j' q hj hj'
    rw [hreserved] at hj hj'
    split at hj
    · cases hj
    · split at hj'
      · cases hj'
      · exact h.once j j' q hj hj'

theorem Mngr.Sound.step (h : m.Sound) (hs : callStep m event = some (after, shown)) :
    after.Sound := by
  cases callStep_move hs with
  | began event call hb =>
      refine h.mild rfl (.refl m) fun j q hq => bind_append ?_ hq
      cases event <;> cases hb <;> rfl
  | advanced i env call call' base _ hc hmove _ =>
      have hcalls := hmove.calls
      have hreserved := bind_goto Call.reserved hc hcalls call'
      cases hmove.effect with
      | mild hrooms hlive htakes hnew hfound =>
          refine h.mild hrooms hlive fun j q hq => ?_
          rw [Mngr.reserved, hreserved, hnew] at hq
          split at hq
          · cases hq
          · exact hq
      | delete key htakes hnew hold hfound =>
          refine h.delete key rfl rfl fun j q hq => ?_
          rw [Mngr.reserved, hreserved, hnew] at hq
          split at hq
          · cases hq
          · exact hq
      | create room htakes hnew hfound =>
          refine h.create (i := i) rfl rfl fun j => ?_
          rw [Mngr.reserved, hreserved, hnew]
          rfl
      | store key p htakes hold hnew =>
          refine h.store (i := i) (p := p) ?_ rfl rfl fun j => ?_
          · simp [Mngr.reserved, hc, hold.1]
          · rw [Mngr.reserved, hreserved, hnew.1]
            rfl
  | reaped env key rest server out hsweeper => exact h.delete key rfl rfl fun _ _ hq => hq
  | left s roomid tick p room hr hp => exact h.mild rfl (survives_write hp _) fun _ _ hq => hq
  | aside event connections server sweeper out htakes hb hstill =>
      exact h.mild rfl (.refl m) fun _ _ hq => hq

end VideoAdapter.Wss
