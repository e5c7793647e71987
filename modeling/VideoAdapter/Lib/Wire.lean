import Mathlib.Data.List.Basic
import Mathlib.Data.List.Nodup

namespace VideoAdapter.Lib

section Wire

variable {α : Type*}

-- One block on its way onto a wire.
structure Writer (α : Type*) where
  sent : List α := []
  left : List α
deriving DecidableEq

namespace Writer

def block (writer : Writer α) : List α := writer.sent ++ writer.left

def Done (writer : Writer α) : Prop := writer.left = []

def PartWay (writer : Writer α) : Prop := writer.sent ≠ [] ∧ writer.left ≠ []

def advance (writer : Writer α) (n : Nat) : Writer α where
  sent := writer.sent ++ writer.left.take n
  left := writer.left.drop n

theorem block_advance (writer : Writer α) (n : Nat) : (writer.advance n).block = writer.block := by
  simp only [block, advance, List.append_assoc, List.take_append_drop]

theorem partWay_advance {writer : Writer α} {n : Nat} (hn : 0 < n) (hleft : n ≤ writer.left.length) :
    (writer.advance n).PartWay ↔ ¬ (writer.advance n).Done := by
  refine ⟨fun h => h.2, fun h => ⟨?_, h⟩⟩
  intro hsent
  have htake : (writer.left.take n).length = 0 := by
    rw [(List.append_eq_nil_iff.mp hsent).2, List.length_nil]
  rw [List.length_take] at htake
  omega

end Writer

-- Any number of writers on one wire, and what has arrived at its other end. Each writer adds a
-- piece of its block at a time.
structure Wire (α : Type*) where
  writers : List (Writer α) := []
  received : List α := []

namespace Wire

def enter (wire : Wire α) (block : List α) : Wire α :=
  { wire with writers := wire.writers ++ [{ left := block }] }

def write (wire : Wire α) (i : Nat) (writer : Writer α) (n : Nat) : Wire α where
  writers := wire.writers.set i (writer.advance n)
  received := wire.received ++ writer.left.take n

def blocks (wire : Wire α) (order : List Nat) : List α :=
  order.flatMap fun i => (wire.writers[i]?.map Writer.block).getD []

-- The finished blocks follow each other, each once and whole, and after them stands at most the
-- beginning of one more block.
structure Whole (wire : Wire α) (order : List Nat) (rest : List α) : Prop where
  nodup : order.Nodup
  finished : ∀ i, i ∈ order ↔ ∃ writer, wire.writers[i]? = some writer ∧ writer.Done
  received_eq : wire.received = wire.blocks order ++ rest
  partWay_eq : ∀ (i : Nat) (writer : Writer α), wire.writers[i]? = some writer →
    writer.PartWay → rest = writer.sent
  partWay_unique : ∀ (i j : Nat) (writer other : Writer α), wire.writers[i]? = some writer →
    wire.writers[j]? = some other → writer.PartWay → other.PartWay → i = j
  rest_eq_nil : (∀ writer ∈ wire.writers, ¬ writer.PartWay) → rest = []

theorem whole_empty : Whole ({} : Wire α) [] [] where
  nodup := List.nodup_nil
  finished := by simp
  received_eq := rfl
  partWay_eq := by simp
  partWay_unique := by simp
  rest_eq_nil := fun _ => rfl

theorem blocks_congr {wire wire' : Wire α} {order : List Nat}
    (h : ∀ i ∈ order, wire'.writers[i]?.map Writer.block = wire.writers[i]?.map Writer.block) :
    wire'.blocks order = wire.blocks order := by
  unfold blocks
  induction order with
  | nil => rfl
  | cons i order ih =>
      rw [List.flatMap_cons, List.flatMap_cons, h i List.mem_cons_self,
        ih fun j hj => h j (List.mem_cons_of_mem _ hj)]

theorem blocks_concat (wire : Wire α) (order : List Nat) {i : Nat} {writer : Writer α}
    (h : wire.writers[i]? = some writer) :
    wire.blocks (order ++ [i]) = wire.blocks order ++ writer.block := by
  simp only [blocks, List.flatMap_append, List.flatMap_singleton, h, Option.map_some,
    Option.getD_some]

theorem getElem?_enter (wire : Wire α) (block : List α) (i : Nat) :
    (wire.enter block).writers[i]? =
      if i = wire.writers.length then some { left := block } else wire.writers[i]? := by
  rw [enter]
  split
  · next h => rw [h, List.getElem?_concat_length]
  · next h =>
      by_cases hi : i < wire.writers.length
      · exact List.getElem?_append_left hi
      · rw [List.getElem?_eq_none (by rw [List.length_append, List.length_singleton]; omega),
          List.getElem?_eq_none (by omega)]

theorem partWay_enter {wire : Wire α} {block : List α} {i : Nat} {writer : Writer α}
    (hwriter : (wire.enter block).writers[i]? = some writer) (hpart : writer.PartWay) :
    wire.writers[i]? = some writer := by
  rw [getElem?_enter] at hwriter
  split at hwriter
  · obtain rfl := Option.some.inj hwriter
    exact absurd rfl hpart.1
  · exact hwriter

-- A new writer joins the finished ones at once if it has nothing to write.
theorem Whole.enter_block [DecidableEq α] {wire : Wire α} {order : List Nat} {rest : List α}
    (h : wire.Whole order rest) (block : List α) :
    ∃ order', (wire.enter block).Whole order' rest := by
  have hsame : (wire.enter block).blocks order = wire.blocks order := by
    refine blocks_congr fun i hi => ?_
    obtain ⟨writer, hwriter, -⟩ := (h.finished i).mp hi
    have hlt := (List.getElem?_eq_some_iff.mp hwriter).1
    rw [getElem?_enter, if_neg (Nat.ne_of_lt hlt)]
  have hlast : (wire.enter block).writers[wire.writers.length]? = some { left := block } := by
    rw [getElem?_enter, if_pos rfl]
  have hfresh : wire.writers.length ∉ order := by
    intro hmem
    obtain ⟨writer, hwriter, -⟩ := (h.finished _).mp hmem
    rw [List.getElem?_eq_none (Nat.le_refl _)] at hwriter
    cases hwriter
  refine ⟨order ++ if block = [] then [wire.writers.length] else [], ?_, ?_, ?_, ?_, ?_, ?_⟩
  · split
    · rw [← List.concat_eq_append]
      exact h.nodup.concat hfresh
    · rw [List.append_nil]
      exact h.nodup
  · intro i
    rw [getElem?_enter]
    by_cases hi : i = wire.writers.length
    · subst hi
      by_cases hblock : block = [] <;> simp [hblock, hfresh, Writer.Done]
    · rw [if_neg hi, ← h.finished i]
      by_cases hblock : block = [] <;> simp [hblock, hi]
  · split
    · next hblock =>
        rw [blocks_concat _ _ hlast, hsame, Writer.block, hblock, List.append_nil, List.append_nil]
        exact h.received_eq
    · rw [List.append_nil, hsame]
      exact h.received_eq
  · exact fun i writer hwriter hpart => h.partWay_eq i writer (partWay_enter hwriter hpart) hpart
  · exact fun i j writer other hwriter hother hpart hother_part =>
      h.partWay_unique i j writer other (partWay_enter hwriter hpart) (partWay_enter hother hother_part)
        hpart hother_part
  · exact fun hnone => h.rest_eq_nil fun writer hwriter => hnone writer (List.mem_append_left _ hwriter)

-- What the writer had sent so far is what follows the finished blocks, if no other one was on
-- its way.
theorem Whole.rest_eq_sent {wire : Wire α} {order : List Nat} {rest : List α}
    (h : wire.Whole order rest) {i : Nat} {writer : Writer α}
    (hwriter : wire.writers[i]? = some writer) (hleft : writer.left ≠ [])
    (halone : ∀ j other, wire.writers[j]? = some other → other.PartWay → j = i) :
    rest = writer.sent := by
  by_cases hpart : writer.PartWay
  · exact h.partWay_eq i writer hwriter hpart
  · have hsent : writer.sent = [] := by
      by_contra hne
      exact hpart ⟨hne, hleft⟩
    rw [hsent]
    refine h.rest_eq_nil fun other hother hother_part => ?_
    obtain ⟨j, hj, rfl⟩ := List.getElem_of_mem hother
    have hget : wire.writers[j]? = some wire.writers[j] := List.getElem?_eq_getElem hj
    obtain rfl := halone j _ hget hother_part
    rw [hget] at hwriter
    obtain rfl := Option.some.inj hwriter
    exact hpart hother_part

theorem getElem?_write {wire : Wire α} {i : Nat} {writer : Writer α}
    (hwriter : wire.writers[i]? = some writer) (n j : Nat) :
    (wire.write i writer n).writers[j]? =
      if j = i then some (writer.advance n) else wire.writers[j]? := by
  have hlt := (List.getElem?_eq_some_iff.mp hwriter).1
  rw [write]
  split
  · next h => rw [h, List.getElem?_set_self hlt]
  · next h => exact List.getElem?_set_ne (Ne.symm h)

theorem blocks_write {wire : Wire α} {i : Nat} {writer : Writer α}
    (hwriter : wire.writers[i]? = some writer) (n : Nat) (order : List Nat) :
    (wire.write i writer n).blocks order = wire.blocks order := by
  refine blocks_congr fun j _ => ?_
  rw [getElem?_write hwriter]
  split
  · next h => rw [h, hwriter, Option.map_some, Option.map_some, Writer.block_advance]
  · rfl

section Write

variable {wire : Wire α} {order : List Nat} {rest : List α} (h : wire.Whole order rest)
  {i : Nat} {writer : Writer α} (hwriter : wire.writers[i]? = some writer) {n : Nat} (hn : 0 < n)
  (halone : ∀ j other, wire.writers[j]? = some other → other.PartWay → j = i)

include h hwriter hn halone

omit h hn in
theorem partWay_write {j : Nat} {other : Writer α}
    (hother : (wire.write i writer n).writers[j]? = some other) (hpart : other.PartWay) : j = i := by
  rw [getElem?_write hwriter] at hother
  split at hother
  · assumption
  · exact halone j other hother hpart

theorem Whole.write_last (hlast : n = writer.left.length) :
    (wire.write i writer n).Whole (order ++ [i]) [] := by
  have hne : writer.left ≠ [] := List.ne_nil_of_length_pos (by omega)
  have hdone : (writer.advance n).Done := by
    rw [Writer.Done, Writer.advance, hlast, List.drop_length]
  have hfresh : i ∉ order := by
    intro hi
    obtain ⟨other, hother, hother_done⟩ := (h.finished i).mp hi
    rw [hwriter] at hother
    obtain rfl := Option.some.inj hother
    exact hne hother_done
  have hself : (wire.write i writer n).writers[i]? = some (writer.advance n) := by
    rw [getElem?_write hwriter, if_pos rfl]
  constructor
  · rw [← List.concat_eq_append]
    exact h.nodup.concat hfresh
  · intro j
    rw [List.mem_append, List.mem_singleton, getElem?_write hwriter, h.finished j]
    by_cases hj : j = i
    · rw [if_pos hj]
      exact ⟨fun _ => ⟨_, rfl, hdone⟩, fun _ => .inr hj⟩
    · rw [if_neg hj]
      exact ⟨fun hor => hor.resolve_right hj, .inl⟩
  · rw [blocks_concat _ _ hself, Writer.block_advance, blocks_write hwriter, List.append_nil]
    have hall : writer.left.take n = writer.left := by rw [hlast, List.take_length]
    rw [write, h.received_eq, h.rest_eq_sent hwriter hne halone, hall, List.append_assoc]
    rfl
  · intro j other hother hpart
    rw [getElem?_write hwriter] at hother
    split at hother
    · obtain rfl := Option.some.inj hother
      exact absurd hdone hpart.2
    · next hj => exact absurd (halone j other hother hpart) hj
  · intro j k one other hone hother hpart hother_part
    exact (partWay_write hwriter halone hone hpart).trans
      (partWay_write hwriter halone hother hother_part).symm
  · exact fun _ => rfl

theorem Whole.write_more (hmore : n < writer.left.length) :
    (wire.write i writer n).Whole order (writer.advance n).sent := by
  have hne : writer.left ≠ [] := List.ne_nil_of_length_pos (by omega)
  have hnot_done : ¬ (writer.advance n).Done := by
    intro hdone
    have hlength := congrArg List.length hdone
    rw [Writer.advance, List.length_drop, List.length_nil] at hlength
    omega
  have hself : (wire.write i writer n).writers[i]? = some (writer.advance n) := by
    rw [getElem?_write hwriter, if_pos rfl]
  constructor
  · exact h.nodup
  · intro j
    rw [getElem?_write hwriter, h.finished j]
    split
    · next hj =>
        rw [hj, hwriter]
        simp only [Option.some.injEq, exists_eq_left', hnot_done, iff_false]
        exact hne
    · rfl
  · rw [blocks_write hwriter, write, h.received_eq, h.rest_eq_sent hwriter hne halone,
      List.append_assoc, Writer.advance]
  · intro j other hother hpart
    rw [getElem?_write hwriter] at hother
    split at hother
    · obtain rfl := Option.some.inj hother
      rfl
    · next hj => exact absurd (halone j other hother hpart) hj
  · intro j k one other hone hother hpart hother_part
    exact (partWay_write hwriter halone hone hpart).trans
      (partWay_write hwriter halone hother hother_part).symm
  · intro hnone
    have hmem := List.mem_of_getElem? hself
    exact absurd ((Writer.partWay_advance hn (Nat.le_of_lt hmore)).mpr hnot_done) (hnone _ hmem)

-- A piece written while no other writer is on its way keeps the wire whole.
theorem Whole.write_alone (hleft : n ≤ writer.left.length) :
    ∃ order' rest', (wire.write i writer n).Whole order' rest' := by
  rcases Nat.lt_or_eq_of_le hleft with hmore | hlast
  · exact ⟨_, _, h.write_more hwriter hn halone hmore⟩
  · exact ⟨_, _, h.write_last hwriter hn halone hlast⟩

end Write

end Wire

end Wire

end VideoAdapter.Lib
