import Mathlib.Data.List.Basic

/-! Files of lines that are only ever appended to: a line ends with a separator, and the last line may lack it. -/

namespace Lines
variable {α : Type*} [DecidableEq α] {sep : α} {file line : List α}

/-- The lines of a file, without their separators. -/
def split (sep : α) (file : List α) : List (List α) :=
  let pieces := file.splitOn sep
  if pieces.getLast? = some [] then pieces.dropLast else pieces

/-- What is appended next begins a line. -/
def AtStart (sep : α) (file : List α) : Prop := file = [] ∨ file.getLast? = some sep

instance : Decidable (AtStart sep file) := inferInstanceAs (Decidable (_ ∨ _))

theorem split_of_ne_nil {pieces : List (List α)} (h : file.splitOn sep = pieces ++ [line]) (hline : line ≠ []) :
    split sep file = pieces ++ [line] := by
  unfold split
  rw [h]
  dsimp only
  rw [List.getLast?_concat, if_neg fun heq => hline (Option.some.inj heq)]

theorem split_of_nil {pieces : List (List α)} (h : file.splitOn sep = pieces ++ [[]]) : split sep file = pieces := by
  unfold split
  rw [h]
  dsimp only
  rw [List.getLast?_concat, if_pos rfl, List.dropLast_concat]

theorem splitOn_append_of_atStart (h : AtStart sep file) (rest : List α) :
    (file ++ rest).splitOn sep = split sep file ++ rest.splitOn sep := by
  rcases h with rfl | hlast
  · rfl
  · obtain ⟨whole, rfl⟩ := List.getLast?_eq_some_iff.mp hlast
    have hpieces : (whole ++ [sep]).splitOn sep = whole.splitOn sep ++ [[]] := by
      rw [List.splitOn_append_cons_self, List.splitOn_nil]
    rw [split_of_nil hpieces, List.append_assoc, List.singleton_append, List.splitOn_append_cons_self]

theorem split_append_line (h : AtStart sep file) (hline : sep ∉ line) :
    split sep (file ++ (line ++ [sep])) = split sep file ++ [line] := by
  apply split_of_nil
  rw [splitOn_append_of_atStart h, List.splitOn_append_cons_self, List.splitOn_nil, List.splitOn_eq_singleton hline,
    List.append_assoc]

theorem split_append_last (h : AtStart sep file) (hline : sep ∉ line) (hne : line ≠ []) :
    split sep (file ++ line) = split sep file ++ [line] := by
  apply split_of_ne_nil _ hne
  rw [splitOn_append_of_atStart h, List.splitOn_eq_singleton hline]

end Lines
