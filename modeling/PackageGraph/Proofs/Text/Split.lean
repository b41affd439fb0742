import Mathlib.Data.List.Basic
import PackageGraph.Text.Basic

/-!
# Texts and separators

A text that is cut at a separator has one piece more than it has separators (`length_splitOn`), and
no piece has a separator in it (`not_mem_of_mem_splitOn`). Pieces that are joined in two parts are
joined at one more separator (`intercalate_append`).

The lines of a text come from the first to the last: a line feed ends each, with a carriage return
in front of it or not (`lines_append_newline`). What is said of all texts may be shown line by line
(`lineInduction`).
-/

namespace PackageGraph.Text

/-- A text has one piece more than separators. -/
theorem length_splitOn (separator : Char) (cs : List Char) :
    (cs.splitOn separator).length = cs.count separator + 1 := by
  induction cs with
  | nil => rfl
  | cons c cs ih =>
    rw [List.splitOn_cons_eq_if_modifyHead, List.count_cons]
    split <;> simp [ih]

/-- No piece has a separator in it. -/
theorem not_mem_of_mem_splitOn {separator : Char} {cs part : List Char}
    (h : part ∈ cs.splitOn separator) : separator ∉ part := by
  induction cs generalizing part with
  | nil =>
    obtain rfl : part = [] := by simpa using h
    exact List.not_mem_nil
  | cons c cs ih =>
    obtain ⟨first, rest, hcons⟩ := List.exists_cons_of_ne_nil (List.splitOn_ne_nil separator cs)
    rw [List.splitOn_cons_eq_if_modifyHead, hcons] at h
    rw [hcons] at ih
    split at h
    · -- a separator ends the empty piece before it
      rcases List.mem_cons.1 h with rfl | hpart
      · exact List.not_mem_nil
      · exact ih hpart
    · next hc =>
      -- any other character belongs to the first piece of the rest
      rcases List.mem_cons.1 h with rfl | hpart
      · have hne : separator ≠ c := fun heq => hc (by simp [heq])
        exact List.not_mem_cons_of_ne_of_not_mem hne (ih List.mem_cons_self)
      · exact ih (List.mem_cons_of_mem first hpart)

/-- Joining two lists of pieces puts one more separator between what each of them joins to. -/
theorem intercalate_append (separator : Char) {parts more : List (List Char)} (hparts : parts ≠ [])
    (hmore : more ≠ []) :
    [separator].intercalate (parts ++ more) =
      [separator].intercalate parts ++ separator :: [separator].intercalate more := by
  induction parts with
  | nil => exact absurd rfl hparts
  | cons part rest ih =>
    cases rest with
    | nil =>
      -- the last piece of the first list, with the separator behind it
      rw [List.singleton_append, List.intercalate_cons_of_ne_nil hmore, List.intercalate_singleton,
        List.append_assoc, List.singleton_append]
    | cons next rest =>
      have hrest := ih (List.cons_ne_nil next rest)
      rw [List.cons_append, List.intercalate_cons_of_ne_nil (by simp), hrest,
        List.intercalate_cons_of_ne_nil (List.cons_ne_nil next rest)]
      simp

/-! ### Lines -/

/-- A line feed ends a line, and what follows it has lines of its own. -/
theorem lines_append_newline {line : List Char} (h : '\n' ∉ line) (rest : List Char) :
    lines (line ++ '\n' :: rest) = dropReturn line :: lines rest := by
  obtain ⟨first, more, hmore⟩ := List.exists_cons_of_ne_nil (List.splitOn_ne_nil '\n' rest)
  rw [lines, lines, List.splitOn_append_cons_self_of_not_mem h, hmore, List.dropLast_cons_cons,
    List.getLast?_cons_cons, List.map_cons, List.cons_append]

/-- A text without line feeds is one line, or none if it is empty. -/
theorem lines_of_not_mem {line : List Char} (h : '\n' ∉ line) :
    lines line = if line.isEmpty then [] else [line] := by
  rw [lines, List.splitOn_eq_singleton h]
  cases line <;> rfl

/-- **Induction on the lines of a text.** -/
theorem lineInduction {motive : List Char → Prop}
    (last : ∀ line, '\n' ∉ line → motive line)
    (next : ∀ line rest, '\n' ∉ line → motive rest → motive (line ++ '\n' :: rest))
    (cs : List Char) : motive cs := by
  induction hlength : cs.length using Nat.strongRecOn generalizing cs with
  | ind length ih =>
    by_cases hmem : '\n' ∈ cs
    · -- what follows the first line feed is shorter
      obtain ⟨line, rest, rfl, hline⟩ := List.eq_append_cons_of_mem hmem
      refine next line rest hline (ih rest.length ?_ rest rfl)
      rw [← hlength, List.length_append, List.length_cons]
      omega
    · exact last cs hmem

end PackageGraph.Text
