import Mathlib.Data.List.Basic

namespace VideoAdapter.Lib

-- Lines that end with two fixed items, and a head of lines that ends with an empty one.
variable {α β : Type*} [DecidableEq α] (cr lf : α)

-- The first line and what stands behind its end.
def readLine : List α → Option (List α × List α)
  | [] => none
  | c :: rest =>
      if c = cr ∧ rest.head? = some lf then some ([], rest.tail)
      else (readLine rest).map fun line => (c :: line.1, line.2)

-- The lines of a head and what stands behind it, with a bound for their number.
def readLines : Nat → List α → Option (List (List α) × List α)
  | 0, _ => none
  | count + 1, text =>
      match readLine cr lf text with
      | none => none
      | some ([], rest) => some ([], rest)
      | some (line, rest) => (readLines count rest).map fun head => (line :: head.1, head.2)

def readHead (text : List α) : Option (List (List α) × List α) := readLines cr lf text.length text

def writeLine (line : List α) : List α := line ++ [cr, lf]

variable {cr lf}

theorem readLine_writeLine {line : List α} (hline : cr ∉ line) (rest : List α) :
    readLine cr lf (writeLine cr lf line ++ rest) = some (line, rest) := by
  induction line with
  | nil => simp [writeLine, readLine]
  | cons c line ih =>
      obtain ⟨hc, hline⟩ := not_or.mp (mt List.mem_cons.mpr hline)
      have hrest := ih hline
      rw [writeLine, List.cons_append, List.cons_append, readLine, if_neg fun h => hc h.1.symm]
      rw [writeLine] at hrest
      rw [hrest]
      rfl

theorem readLines_writeLines {lines : List (List α)} (hlines : ∀ line ∈ lines, line ≠ [] ∧ cr ∉ line)
    {count : Nat} (hcount : lines.length < count) (rest : List α) :
    readLines cr lf count (lines.flatMap (writeLine cr lf) ++ (writeLine cr lf [] ++ rest)) =
      some (lines, rest) := by
  induction lines generalizing count with
  | nil =>
      obtain ⟨count, rfl⟩ := Nat.exists_eq_add_one.mpr hcount
      rw [List.flatMap_nil, List.nil_append, readLines, readLine_writeLine List.not_mem_nil]
  | cons line lines ih =>
      obtain ⟨hne, hline⟩ := hlines line List.mem_cons_self
      obtain ⟨c, line, rfl⟩ := List.exists_cons_of_ne_nil hne
      obtain ⟨count, rfl⟩ := Nat.exists_eq_add_one.mpr (Nat.zero_lt_of_lt hcount)
      rw [List.length_cons, Nat.add_lt_add_iff_right] at hcount
      have hrest := ih (fun other hother => hlines other (List.mem_cons_of_mem _ hother)) hcount
      rw [List.flatMap_cons, List.append_assoc, readLines, readLine_writeLine hline]
      dsimp only
      rw [hrest]
      rfl

omit [DecidableEq α] in
theorem length_le_writeLines (cr lf : α) (lines : List (List α)) :
    lines.length ≤ (lines.flatMap (writeLine cr lf)).length := by
  induction lines with
  | nil => exact Nat.le_refl _
  | cons line lines ih =>
      rw [List.flatMap_cons, List.length_append, List.length_cons, writeLine, List.length_append,
        List.length_cons]
      omega

-- A head that was written is read back, whatever follows it.
theorem readHead_writeLines {lines : List (List α)} (hlines : ∀ line ∈ lines, line ≠ [] ∧ cr ∉ line)
    (rest : List α) :
    readHead cr lf (lines.flatMap (writeLine cr lf) ++ (writeLine cr lf [] ++ rest)) =
      some (lines, rest) := by
  have hlength := length_le_writeLines cr lf lines
  apply readLines_writeLines hlines
  simp only [List.length_append, writeLine, List.nil_append, List.length_cons] at hlength ⊢
  omega

-- Frames one after the other, each read where the one before has ended.
def readMany (read : List α → Option (β × List α)) : Nat → List α → Option (List β × List α)
  | 0, text => some ([], text)
  | count + 1, text =>
      match read text with
      | none => none
      | some (frame, rest) => (readMany read count rest).map fun frames => (frame :: frames.1, frames.2)

omit [DecidableEq α] in
theorem readMany_flatMap {γ : Type*} {read : List α → Option (β × List α)} {write : γ → List α}
    {meaning : γ → β} {frames : List γ}
    (hread : ∀ frame ∈ frames, ∀ rest, read (write frame ++ rest) = some (meaning frame, rest))
    (rest : List α) :
    readMany read frames.length (frames.flatMap write ++ rest) = some (frames.map meaning, rest) := by
  induction frames with
  | nil => rfl
  | cons frame frames ih =>
      have hlater := ih fun other hother => hread other (List.mem_cons_of_mem _ hother)
      rw [List.flatMap_cons, List.append_assoc, List.length_cons, readMany,
        hread frame List.mem_cons_self]
      dsimp only
      rw [hlater]
      rfl

end VideoAdapter.Lib
