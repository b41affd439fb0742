import Mathlib.Data.List.Basic
import PackageGraph.Proofs.Dot.Lexing
import PackageGraph.Proofs.Stage
import PackageGraph.Proofs.Text.Decimal

/-!
# The fields of a label

A label is escaped twice. Inside a field, a backslash goes in front of a character that structures
labels; between quotes, one goes in front of a quote and of a backslash, unless that backslash looks
like the escape of a field. Read back in the other order (`readFields?`), a label should have the two
fields that `labelFields` lists.

A backslash in a field is taken for an escape if what follows it structures labels. Inside the
field this does no harm: such a character has an escape of its own in front. Behind the last
character of a field there is none, so a field that ends in a backslash takes the separator or the
closing brace for its own (`settle`). `readFields?_recordLabel` says what is read of every label:
the two fields exactly when neither of them ends in a backslash.
-/

namespace PackageGraph.Dot

/-! ### Reading -/

/-- A text with its escaped quotes undone. -/
def undoQuotes : List Char → List Char
  | '\\' :: '"' :: cs => '"' :: undoQuotes cs
  | c :: cs => c :: undoQuotes cs
  | [] => []

/-- What stands between the outer quotes of a string, with the escaped quotes undone. -/
def unquote (cs : List Char) : List Char := undoQuotes (cs.drop 1).dropLast

/-- A character of a label as it is read: taken as it is, or a part of the label's structure. -/
inductive Mark where
  | literal (c : Char)
  | structural (c : Char)
deriving DecidableEq

/-- A character without a backslash in front. -/
def Mark.ofChar (c : Char) : Mark := if isStructural c then .structural c else .literal c

/-- The marks of a label. A backslash makes the character after it literal, and is refused if there
is none. -/
def marks? : List Char → Option (List Mark)
  | [] => some []
  | ['\\'] => none
  | '\\' :: c :: cs => (marks? cs).map (.literal c :: ·)
  | c :: cs => (marks? cs).map (.ofChar c :: ·)

/-- The text of marks that are all literal. -/
def plainText? (marks : List Mark) : Option (List Char) :=
  marks.mapM fun
    | .literal c => some c
    | .structural _ => none

/-- The fields of a label. Braces enclose the label and bars separate its fields; a field with more
structure than that is refused. -/
def readFields? (label : List Char) : Option (List (List Char)) :=
  match marks? label with
  | some (.structural '\x7b' :: inner) =>
    if inner.getLast? = some (.structural '\x7d') then
      (inner.dropLast.splitOn (.structural '|')).mapM plainText?
    else none
  | _ => none

/-- The two fields that the label of a node should have. -/
def labelFields (node : NodeRecord) : List Char × List Char :=
  let directory := "path: ".toList ++ node.directory.toList
  match node.isGroup, node.displayName with
  | false, some name => ("pkg: ".toList ++ name.toList, directory)
  | _, _ => (directory, "pkg: ".toList ++ Text.decimal node.containedPackages)

/-- The text ends in a backslash. -/
def EndsInBackslash (cs : List Char) : Prop := cs.getLast? = some '\\'

instance (cs : List Char) : Decidable (EndsInBackslash cs) :=
  inferInstanceAs (Decidable (cs.getLast? = some '\\'))

/-! ### Quotes undone -/

/-- A text with a second backslash in front of each one that does not look like an escape. -/
def doubled : List Char → List Char
  | [] => []
  | c :: cs =>
    if c = '\\' ∧ beginsStructural cs = false then '\\' :: '\\' :: doubled cs else c :: doubled cs

/-- A backslash that looks like no escape is doubled. -/
theorem doubled_backslash {cs : List Char} (h : beginsStructural cs = false) :
    doubled ('\\' :: cs) = '\\' :: '\\' :: doubled cs := by
  simp [doubled, h]

/-- An escape of a field stays as it is. -/
theorem doubled_escape {c : Char} (h : isStructural c = true) (cs : List Char) :
    doubled ('\\' :: c :: cs) = '\\' :: c :: doubled cs := by
  simp [doubled, beginsStructural, h, (isStructural_ne h).2]

theorem doubled_plain {c : Char} (h : c ≠ '\\') (cs : List Char) :
    doubled (c :: cs) = c :: doubled cs := by
  simp [doubled, h]

theorem undoQuotes_plain {c : Char} (h : c ≠ '\\') (cs : List Char) :
    undoQuotes (c :: cs) = c :: undoQuotes cs := by
  rw [undoQuotes]
  rintro _ rfl -
  exact h rfl

theorem undoQuotes_backslash {cs : List Char} (h : cs.head? ≠ some '"') :
    undoQuotes ('\\' :: cs) = '\\' :: undoQuotes cs := by
  rw [undoQuotes]
  rintro _ - rfl
  exact h rfl

/-- A quote in an escaped text has a backslash in front. -/
theorem head?_escape (cs : List Char) : (escape cs).head? ≠ some '"' := by
  cases cs using escape_induction with
  | nil => simp
  | quotation cs => simp [escape_quotation]
  | backslash cs h => simp [escape_backslash h]
  | structural cs h => simp [escape_backslash_structural h]
  | plain c cs h => simp [escape_plain h, h.1]

/-- **With its quotes undone** an escaped text has backslashes doubled, but for escapes of fields. -/
theorem undoQuotes_escape (cs : List Char) : undoQuotes (escape cs) = doubled cs := by
  induction cs using escape_induction with
  | nil => rfl
  | quotation cs ih => simp [escape_quotation, undoQuotes, doubled, ih]
  | backslash cs h ih =>
    rw [escape_backslash h, undoQuotes_backslash (by simp), undoQuotes_backslash (head?_escape cs),
      ih, doubled_backslash h]
  | structural cs h ih =>
    rw [escape_backslash_structural h, undoQuotes_backslash (head?_escape cs), ih]
    simp [doubled, h]
  | plain c cs h ih => rw [escape_plain h, undoQuotes_plain h.2, ih, doubled_plain h.2]

/-- Between its quotes, a text is read with some backslashes doubled. -/
theorem unquote_quote (cs : List Char) : unquote (quote cs) = doubled cs := by
  rw [unquote, quote, List.cons_append, List.drop_one, List.tail_cons, List.dropLast_concat,
    undoQuotes_escape]

/-! ### Marks -/

/-- A backslash makes the character after it literal. -/
theorem marks?_pair (c : Char) (cs : List Char) :
    marks? ('\\' :: c :: cs) = (marks? cs).map (.literal c :: ·) := by
  rw [marks?]

/-- A character other than a backslash has a mark of its own. -/
theorem marks?_plain {c : Char} (h : c ≠ '\\') (cs : List Char) :
    marks? (c :: cs) = (marks? cs).map (.ofChar c :: ·) := by
  rw [marks?]
  · rintro rfl -
    exact h rfl
  · rintro _ _ rfl -
    exact h rfl

/-- The marks that a field and the character behind it are read as. A backslash at the end of the
field takes that character for its own. -/
def settle (field : List Char) (behind : Char) : List Mark :=
  if EndsInBackslash field then field.dropLast.map .literal ++ [.literal behind]
  else field.map .literal ++ [.structural behind]

/-- All characters of a field are read as they are, but for a backslash at its end. -/
theorem settle_cons {c : Char} {field : List Char} (h : c = '\\' → field ≠ []) (behind : Char) :
    settle (c :: field) behind = .literal c :: settle field behind := by
  cases field with
  | nil =>
    have hc : c ≠ '\\' := fun hc => h hc rfl
    simp [settle, EndsInBackslash, hc]
  | cons next field =>
    have hlast : EndsInBackslash (c :: next :: field) ↔ EndsInBackslash (next :: field) := by
      rw [EndsInBackslash, EndsInBackslash, List.getLast?_cons_cons]
    rw [settle, settle, List.dropLast_cons_of_ne_nil (List.cons_ne_nil next field)]
    simp only [hlast]
    split <;> rfl

/-- No field begins with a character that structures labels: there is a backslash in front of it. -/
theorem beginsStructural_fieldText_cons (c : Char) (field rest : List Char) :
    beginsStructural (fieldText (c :: field) ++ rest) = false := by
  rw [fieldText, List.flatMap_cons]
  split
  · -- the backslash
    rfl
  · next h => simpa [beginsStructural] using h

/-- **What a field is read as**, together with the character behind it. -/
theorem marks?_fieldText {behind : Char} (h : isStructural behind = true) (field rest : List Char) :
    marks? (doubled (fieldText field ++ behind :: rest)) =
      (marks? (doubled rest)).map (settle field behind ++ ·) := by
  induction field with
  | nil =>
    rw [fieldText_nil, List.nil_append, doubled_plain (isStructural_ne h).2,
      marks?_plain (isStructural_ne h).2, Mark.ofChar, if_pos h]
    rfl
  | cons c field ih =>
    have hcons : fieldText (c :: field) =
        if isStructural c then '\\' :: c :: fieldText field else c :: fieldText field := by
      rw [fieldText, List.flatMap_cons]
      split <;> rfl
    by_cases hc : isStructural c = true
    · -- an escape of the field
      rw [hcons, if_pos hc, List.cons_append, List.cons_append, doubled_escape hc, marks?_pair, ih,
        settle_cons fun hbackslash => absurd hbackslash (isStructural_ne hc).2, Option.map_map]
      rfl
    · rw [hcons, if_neg hc, List.cons_append]
      by_cases hbackslash : c = '\\'
      · subst hbackslash
        cases field with
        | nil =>
          -- the last backslash looks like the escape of what is behind the field
          rw [fieldText_nil, List.nil_append, doubled_escape h, marks?_pair]
          rfl
        | cons next field =>
          -- a backslash inside the field is doubled, since the next character is not structural
          rw [doubled_backslash (beginsStructural_fieldText_cons next field _), marks?_pair, ih,
            settle_cons fun _ => List.cons_ne_nil next field, Option.map_map]
          rfl
      · -- any other character
        rw [doubled_plain hbackslash, marks?_plain hbackslash, ih,
          settle_cons fun h => absurd h hbackslash, Option.map_map, Mark.ofChar, if_neg hc]
        rfl

/-! ### Fields -/

/-- A text without structure is written as it is. -/
theorem fieldText_of_plain {cs : List Char} (h : ∀ c ∈ cs, isStructural c = false) :
    fieldText cs = cs := by
  rw [fieldText]
  conv_rhs => rw [← List.flatMap_singleton' cs]
  refine List.flatMap_congr fun c hc => ?_
  rw [if_neg (Bool.eq_false_iff.1 (h c hc))]

theorem fieldText_decimal (n : Nat) : fieldText (Text.decimal n) = Text.decimal n := by
  refine fieldText_of_plain fun c hc => ?_
  have hdigit := Text.isDigit_of_mem_decimal hc
  by_contra hstructural
  simp only [isStructural, Bool.not_eq_false, Bool.or_eq_true, decide_eq_true_eq] at hstructural
  rcases hstructural with (((rfl | rfl) | rfl) | rfl) | rfl <;> cases hdigit

/-- A label is its two fields between braces, with a bar between them. -/
theorem recordLabel_eq (node : NodeRecord) :
    recordLabel node = '\x7b' :: (fieldText (labelFields node).1 ++
      '|' :: (fieldText (labelFields node).2 ++ ['\x7d'])) := by
  have hpackage (cs : List Char) : fieldText ("pkg: ".toList ++ cs) =
      "pkg".toList ++ (": ".toList ++ fieldText cs) := by
    rw [fieldText_append, fieldText_of_plain (by simp [isStructural])]
    rfl
  have hdirectory (cs : List Char) : fieldText ("path: ".toList ++ cs) =
      "path".toList ++ (": ".toList ++ fieldText cs) := by
    rw [fieldText_append, fieldText_of_plain (by simp [isStructural])]
    rfl
  rw [recordLabel, labelFields]
  cases node.isGroup <;> cases node.displayName <;>
    simp only [twoFields, hpackage, hdirectory, fieldText_decimal, List.cons_append,
      List.append_assoc]

/-- **The marks of a label**: the braces, the bar, and what the two fields are read as. -/
theorem marks?_recordLabel (node : NodeRecord) :
    marks? (unquote (quote (recordLabel node))) =
      some (.structural '\x7b' ::
        (settle (labelFields node).1 '|' ++ settle (labelFields node).2 '\x7d')) := by
  rw [unquote_quote, recordLabel_eq, doubled_plain (by decide), marks?_plain (by decide),
    marks?_fieldText rfl, marks?_fieldText rfl]
  simp [doubled, marks?, Mark.ofChar, isStructural]

/-- Literal marks have their characters as their text. -/
@[simp] theorem plainText?_map_literal (cs : List Char) :
    plainText? (cs.map .literal) = some cs :=
  mapM_map_eq_pure fun _ _ => rfl

theorem structural_not_mem_map_literal (s : Char) (cs : List Char) :
    Mark.structural s ∉ cs.map Mark.literal := by
  simp

/-- A label ends with its closing brace. -/
theorem readFields?_of_marks? {label : List Char} {inner : List Mark} {closing : Mark}
    (h : marks? label = some (.structural '\x7b' :: (inner ++ [closing]))) :
    readFields? label =
      if closing = .structural '\x7d' then (inner.splitOn (.structural '|')).mapM plainText?
      else none := by
  rw [readFields?, h]
  simp

/-- **What is read of a label.** -/
theorem readFields?_recordLabel (node : NodeRecord) :
    readFields? (unquote (quote (recordLabel node))) =
      if EndsInBackslash (labelFields node).2 then none
      else if EndsInBackslash (labelFields node).1 then
        some [(labelFields node).1.dropLast ++ '|' :: (labelFields node).2]
      else some [(labelFields node).1, (labelFields node).2] := by
  have hmarks := marks?_recordLabel node
  generalize labelFields node = fields at hmarks ⊢
  obtain ⟨first, second⟩ := fields
  dsimp only at hmarks ⊢
  by_cases hsecond : EndsInBackslash second
  · -- the closing brace is taken for a part of the second field
    rw [settle.eq_def second, if_pos hsecond, ← List.append_assoc] at hmarks
    rw [readFields?_of_marks? hmarks, if_pos hsecond, if_neg (by simp)]
  · rw [settle.eq_def second, if_neg hsecond, ← List.append_assoc] at hmarks
    rw [readFields?_of_marks? hmarks, if_neg hsecond, if_pos rfl, settle]
    split
    · -- no bar is left to separate the fields
      have hjoined : first.dropLast.map Mark.literal ++ [.literal '|'] ++ second.map .literal =
          (first.dropLast ++ '|' :: second).map .literal := by
        simp
      rw [hjoined, List.splitOn_eq_singleton (structural_not_mem_map_literal '|' _),
        List.mapM_cons, plainText?_map_literal]
      rfl
    · -- the bar separates the fields
      rw [List.append_assoc, List.singleton_append,
        List.splitOn_append_cons_self_of_not_mem (structural_not_mem_map_literal '|' first),
        List.splitOn_eq_singleton (structural_not_mem_map_literal '|' second),
        List.mapM_cons, List.mapM_cons, plainText?_map_literal, plainText?_map_literal]
      rfl

/-! ### Labels that keep their fields -/

/-- The texts of a node that its label shows. -/
def shownTexts (node : NodeRecord) : List String :=
  match node.isGroup, node.displayName with
  | false, some name => [name, node.directory]
  | _, _ => [node.directory]

/-- What a text ends in is decided by its last part, unless this is empty. -/
theorem endsInBackslash_append {start : List Char} (h : ¬EndsInBackslash start) (cs : List Char) :
    EndsInBackslash (start ++ cs) ↔ EndsInBackslash cs := by
  rw [EndsInBackslash, EndsInBackslash, List.getLast?_append]
  cases hlast : cs.getLast? with
  | none => simpa [EndsInBackslash] using h
  | some c => simp

theorem not_endsInBackslash_decimal (n : Nat) : ¬EndsInBackslash (Text.decimal n) := fun h =>
  Text.not_mem_decimal rfl n (List.mem_of_getLast? h)

/-- A field ends in a backslash exactly if a text does that it shows. -/
theorem not_endsInBackslash_labelFields_iff (node : NodeRecord) :
    ¬EndsInBackslash (labelFields node).1 ∧ ¬EndsInBackslash (labelFields node).2 ↔
      ∀ text ∈ shownTexts node, ¬EndsInBackslash text.toList := by
  have hpackage (cs : List Char) : EndsInBackslash ("pkg: ".toList ++ cs) ↔ EndsInBackslash cs :=
    endsInBackslash_append (by decide) cs
  have hdirectory (cs : List Char) : EndsInBackslash ("path: ".toList ++ cs) ↔ EndsInBackslash cs :=
    endsInBackslash_append (by decide) cs
  rw [labelFields, shownTexts]
  cases node.isGroup <;> cases node.displayName <;>
    simp only [hpackage, hdirectory, not_endsInBackslash_decimal, not_false_eq_true, and_true,
      List.forall_mem_cons, List.not_mem_nil, false_implies, implies_true]

/-- **Which labels keep their fields.** Reading the label of a node from between its quotes gives
its two fields, character for character, exactly when no text that it shows ends in a backslash. If
the second field ends in one, then the label is not closed. If only the first one does, then both
fields are read as one. -/
theorem label_recovered (node : NodeRecord) :
    (readFields? (unquote (quote (recordLabel node))) =
        some [(labelFields node).1, (labelFields node).2] ↔
      ∀ text ∈ shownTexts node, ¬EndsInBackslash text.toList) ∧
    readFields? (unquote (quote (recordLabel node))) =
      if EndsInBackslash (labelFields node).2 then none
      else if EndsInBackslash (labelFields node).1 then
        some [(labelFields node).1.dropLast ++ '|' :: (labelFields node).2]
      else some [(labelFields node).1, (labelFields node).2] := by
  refine ⟨?_, readFields?_recordLabel node⟩
  rw [readFields?_recordLabel, ← not_endsInBackslash_labelFields_iff]
  split
  · next hsecond => exact iff_of_false nofun fun h => h.2 hsecond
    -- a label that is not closed has no fields
  · next hsecond =>
    split
    · next hfirst =>
      -- one field is not two
      exact iff_of_false (fun h => nomatch (List.cons.inj (Option.some.inj h)).2)
        fun h => h.1 hfirst
    · next hfirst => exact iff_of_true rfl ⟨hfirst, hsecond⟩

/-- A package in a directory that ends in a backslash, and one whose name does: the label of the
first is not closed, and the label of the second has one field. -/
theorem label_broken :
    readFields? (unquote (quote (recordLabel ⟨"m/x", some "x", "a\\", 0⟩))) = none ∧
      readFields? (unquote (quote (recordLabel ⟨"m/x", some "x\\", "a", 0⟩))) =
        some ["pkg: x|path: a".toList] := by
  decide +kernel

end PackageGraph.Dot
