import Mathlib.Tactic.Common

/-!
# SimFerret.Lib.Lines — streams of lines

A stream is a sequence of complete lines, each behind it a separator, and an unfinished line.  A reader that
sees the stream in parts keeps the unfinished line of what it has seen.

* `completeLines`, `unfinishedLine`: the two halves of a stream.
* `completeLines_append`, `unfinishedLine_append`: what more of the stream adds depends on the unfinished line
  only.
* `unbroken_or_line`: a stream has no separator, or starts with a line.
-/

section

variable {α : Type} [DecidableEq α] {sep : α} {line stream : List α}

/-- The lines in front of the separators. -/
def completeLines (sep : α) (stream : List α) : List (List α) := (stream.splitOn sep).dropLast

/-- What stands behind the last separator. -/
def unfinishedLine (sep : α) (stream : List α) : List α := (stream.splitOn sep).getLastD []

theorem splitOn_eq_lines (sep : α) (stream : List α) :
    stream.splitOn sep = completeLines sep stream ++ [unfinishedLine sep stream] := by
  have hne := List.splitOn_ne_nil sep stream
  rw [completeLines, unfinishedLine, List.getLastD_eq_getLast?, List.getLast?_eq_some_getLast hne,
    Option.getD_some, List.dropLast_concat_getLast hne]

theorem completeLines_unbroken (h : sep ∉ stream) : completeLines sep stream = [] := by
  rw [completeLines, List.splitOn_eq_singleton h, List.dropLast_singleton]

theorem unfinishedLine_unbroken (h : sep ∉ stream) : unfinishedLine sep stream = stream := by
  rw [unfinishedLine, List.splitOn_eq_singleton h, List.getLastD_cons, List.getLastD_nil]

theorem splitOn_line (h : sep ∉ line) (rest : List α) :
    (line ++ sep :: rest).splitOn sep = line :: rest.splitOn sep := by
  rw [List.splitOn_append_cons_self, List.splitOn_eq_singleton h, List.singleton_append]

theorem completeLines_line (h : sep ∉ line) (rest : List α) :
    completeLines sep (line ++ sep :: rest) = line :: completeLines sep rest := by
  rw [completeLines, splitOn_line h, List.dropLast_cons_of_ne_nil (List.splitOn_ne_nil _ _), completeLines]

theorem unfinishedLine_line (h : sep ∉ line) (rest : List α) :
    unfinishedLine sep (line ++ sep :: rest) = unfinishedLine sep rest := by
  have hne := List.splitOn_ne_nil sep rest
  rw [unfinishedLine, unfinishedLine, splitOn_line h, List.getLastD_cons, List.getLastD_eq_getLast?,
    List.getLastD_eq_getLast?, List.getLast?_eq_some_getLast hne]
  rfl

/-- A stream has no separator, or starts with a line. -/
theorem unbroken_or_line (sep : α) (stream : List α) :
    sep ∉ stream ∨ ∃ line rest, stream = line ++ sep :: rest ∧ sep ∉ line := by
  by_cases h : sep ∈ stream
  · obtain ⟨line, rest, hstream, hline⟩ := List.eq_append_cons_of_mem h
    exact .inr ⟨line, rest, hstream, hline⟩
  · exact .inl h

/-- An induction over the lines of a stream. -/
theorem line_induction (sep : α) {motive : List α → Prop} (unbroken : ∀ stream, sep ∉ stream → motive stream)
    (line : ∀ line rest, sep ∉ line → motive rest → motive (line ++ sep :: rest)) (stream : List α) :
    motive stream := by
  induction hn : stream.length using Nat.strongRecOn generalizing stream with
  | _ n ih =>
    rcases unbroken_or_line sep stream with h | ⟨first, rest, rfl, hfirst⟩
    · exact unbroken stream h
    · refine line first rest hfirst (ih rest.length ?_ rest rfl)
      rw [← hn, List.length_append, List.length_cons]
      omega

theorem not_mem_unfinishedLine (sep : α) (stream : List α) : sep ∉ unfinishedLine sep stream := by
  induction stream using line_induction sep with
  | unbroken stream h => rwa [unfinishedLine_unbroken h]
  | line first rest hfirst ih => rwa [unfinishedLine_line hfirst]

/-- More of a stream completes the lines that it completes behind the unfinished line. -/
theorem completeLines_append (sep : α) (stream more : List α) : completeLines sep (stream ++ more) =
    completeLines sep stream ++ completeLines sep (unfinishedLine sep stream ++ more) := by
  induction stream using line_induction sep with
  | unbroken stream h => rw [completeLines_unbroken h, unfinishedLine_unbroken h, List.nil_append]
  | line first rest hfirst ih =>
    rw [List.append_assoc, List.cons_append, completeLines_line hfirst, completeLines_line hfirst,
      unfinishedLine_line hfirst, ih, List.cons_append]

theorem unfinishedLine_append (sep : α) (stream more : List α) :
    unfinishedLine sep (stream ++ more) = unfinishedLine sep (unfinishedLine sep stream ++ more) := by
  induction stream using line_induction sep with
  | unbroken stream h => rw [unfinishedLine_unbroken h]
  | line first rest hfirst ih =>
    rw [List.append_assoc, List.cons_append, unfinishedLine_line hfirst, unfinishedLine_line hfirst, ih]

/-- The unfinished line of the front of a stream is the front of a line of the stream. -/
theorem unfinishedLine_le (sep : α) (front more : List α) :
    ∃ line ∈ completeLines sep (front ++ more) ++ [unfinishedLine sep (front ++ more)],
      (unfinishedLine sep front).length ≤ line.length := by
  rw [completeLines_append, unfinishedLine_append sep front more]
  have hfront := not_mem_unfinishedLine sep front
  rcases unbroken_or_line sep more with h | ⟨first, rest, rfl, hfirst⟩
  · refine ⟨_, List.mem_append_right _ (List.mem_singleton_self _), ?_⟩
    rw [unfinishedLine_unbroken (List.mem_append.not.mpr (not_or.mpr ⟨hfront, h⟩)), List.length_append]
    omega
  · refine ⟨unfinishedLine sep front ++ first, ?_, ?_⟩
    · rw [← List.append_assoc, completeLines_line (List.mem_append.not.mpr (not_or.mpr ⟨hfront, hfirst⟩))]
      simp
    · rw [List.length_append]
      omega

/-- Nothing is left behind the last separator of a stream that is empty or ends with one. -/
theorem unfinishedLine_eq_nil (sep : α) (stream : List α) :
    unfinishedLine sep stream = [] ↔ stream = [] ∨ stream.getLast? = some sep := by
  induction stream using line_induction sep with
  | unbroken stream h =>
    rw [unfinishedLine_unbroken h]
    refine ⟨.inl, fun hend => hend.resolve_right fun hlast => ?_⟩
    exact h (List.mem_of_getLast? hlast)
  | line first rest hfirst ih =>
    rw [unfinishedLine_line hfirst, ih]
    cases rest with
    | nil => simp
    | cons next rest => simp [List.getLast?_append, List.getLast?_cons_cons]

end
