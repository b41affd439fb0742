import PackageGraph.Proofs.Json.Number
import PackageGraph.Proofs.Json.Units

/-!
# The grammar of JSON

`Spells text value` says that a text is JSON and stands for a value: blanks may stand around every
value, in front of and behind every key and between empty brackets; items and members are separated
by commas, and each key stands before a colon. It mentions no reader.

What is read at the beginning of a text is a text of the grammar (`spells_of_readValue`). A value is
read off its first character, items and members one after another, so the three are shown together,
by induction on the bound on the steps of the reader. The grammar has the blanks around a value
where the reader skips them in front of the next token; so the blanks that a reader leaves behind a
value are put to the value when the next token is found.
-/

namespace PackageGraph.Json

open Text

/-! ### Productions -/

/-- All of the characters are blank. -/
def AreBlank (cs : List Char) : Prop := ∀ c ∈ cs, isBlank c = true

/-- A text between quotes, with its characters. -/
inductive IsQuoted : List Char → Characters → Prop
  | mk {body : List Char} {units : List Nat} {characters : Characters} :
      Quoted.IsBody body units → characters.StandFor units →
      IsQuoted ('"' :: (body ++ ['"'])) characters

/-- A key, which may stand between blanks. -/
def IsKey (keyText : List Char) (key : Characters) : Prop :=
  ∃ before quoted after, keyText = before ++ (quoted ++ after) ∧ AreBlank before ∧
    AreBlank after ∧ IsQuoted quoted key

/-- A member of an object, with the texts of its key and its value. -/
structure Member where
  keyText : List Char
  key : Characters
  valueText : List Char
  value : Value

/-- The text of a member. -/
def Member.text (member : Member) : List Char := member.keyText ++ ':' :: member.valueText

/-- A member as it stands in the value of its object. -/
def Member.entry (member : Member) : Characters × Value := (member.key, member.value)

/-- Put commas between texts. -/
def commaSeparated (texts : List (List Char)) : List Char := [','].intercalate texts

/-- The text is JSON and stands for the value. -/
inductive Spells : List Char → Value → Prop
  | padded {before text after : List Char} {value : Value} : AreBlank before → AreBlank after →
      Spells text value → Spells (before ++ (text ++ after)) value
  | nullWord : Spells ['n', 'u', 'l', 'l'] .null
  | trueWord : Spells ['t', 'r', 'u', 'e'] (.bool true)
  | falseWord : Spells ['f', 'a', 'l', 's', 'e'] (.bool false)
  | number {text : List Char} {value : Value} : IsNumber text value → Spells text value
  | text {quoted : List Char} {characters : Characters} : IsQuoted quoted characters →
      Spells quoted (.text characters)
  | emptyArray {blanks : List Char} : AreBlank blanks →
      Spells ('[' :: (blanks ++ [']'])) (.array [])
  | array {items : List (List Char × Value)} : items ≠ [] →
      (∀ item ∈ items, Spells item.1 item.2) →
      Spells ('[' :: (commaSeparated (items.map Prod.fst) ++ [']'])) (.array (items.map Prod.snd))
  | emptyObject {blanks : List Char} : AreBlank blanks →
      Spells ('{' :: (blanks ++ ['}'])) (.object [])
  | object {members : List Member} : members ≠ [] →
      (∀ member ∈ members, IsKey member.keyText member.key) →
      (∀ member ∈ members, Spells member.valueText member.value) →
      Spells ('{' :: (commaSeparated (members.map Member.text) ++ ['}']))
        (.object (members.map Member.entry))

theorem areBlank_nil : AreBlank [] := nofun

/-- Blanks may stand behind a value. -/
theorem Spells.append_blanks {text blanks : List Char} {value : Value} (h : Spells text value)
    (hblanks : AreBlank blanks) : Spells (text ++ blanks) value :=
  .padded areBlank_nil hblanks h

theorem Spells.blanks_append {text blanks : List Char} {value : Value} (h : Spells text value)
    (hblanks : AreBlank blanks) : Spells (blanks ++ text) value := by
  have hpadded := Spells.padded hblanks areBlank_nil h
  rwa [List.append_nil] at hpadded

theorem commaSeparated_singleton (text : List Char) : commaSeparated [text] = text :=
  List.intercalate_singleton

/-- A comma stands behind a text if more texts follow. -/
theorem commaSeparated_cons {texts : List (List Char)} (h : texts ≠ []) (text : List Char) :
    commaSeparated (text :: texts) = text ++ ',' :: commaSeparated texts := by
  rw [commaSeparated, List.intercalate_cons_of_ne_nil h, List.append_assoc]
  rfl

/-- What stands behind the last of some texts stands behind all of them. -/
theorem commaSeparated_concat_append (texts : List (List Char)) (text more : List Char) :
    commaSeparated (texts ++ [text ++ more]) = commaSeparated (texts ++ [text]) ++ more := by
  induction texts with
  | nil => simp only [List.nil_append, commaSeparated_singleton]
  | cons first texts ih =>
    rw [List.cons_append, List.cons_append, commaSeparated_cons (by simp),
      commaSeparated_cons (by simp), ih, List.append_assoc, List.cons_append]

/-- Blanks in front of the closing bracket belong to the last item. -/
theorem Spells.array_append_blanks {items : List (List Char × Value)} (hne : items ≠ [])
    (h : ∀ item ∈ items, Spells item.1 item.2) {blanks : List Char} (hblanks : AreBlank blanks) :
    Spells ('[' :: (commaSeparated (items.map Prod.fst) ++ (blanks ++ [']'])))
      (.array (items.map Prod.snd)) := by
  obtain ⟨first, ⟨text, value⟩, rfl⟩ := (List.eq_nil_or_concat' items).resolve_left hne
  obtain ⟨hfirst, hlast⟩ := List.forall_mem_append.1 h
  -- the last item, with the blanks behind it, takes the place of the last item
  have hspelled := @Spells.array (first ++ [(text ++ blanks, value)]) (by simp)
    (List.forall_mem_append.2 ⟨hfirst, List.forall_mem_singleton.2
      ((hlast _ List.mem_cons_self).append_blanks hblanks)⟩)
  simp only [List.map_append, List.map_cons, List.map_nil] at hspelled ⊢
  rwa [commaSeparated_concat_append, List.append_assoc] at hspelled

/-- Blanks in front of the closing brace belong to the last member. -/
theorem Spells.object_append_blanks {members : List Member} (hne : members ≠ [])
    (hkeys : ∀ member ∈ members, IsKey member.keyText member.key)
    (h : ∀ member ∈ members, Spells member.valueText member.value) {blanks : List Char}
    (hblanks : AreBlank blanks) :
    Spells ('{' :: (commaSeparated (members.map Member.text) ++ (blanks ++ ['}'])))
      (.object (members.map Member.entry)) := by
  obtain ⟨first, last, rfl⟩ := (List.eq_nil_or_concat' members).resolve_left hne
  obtain ⟨hfirst, hlast⟩ := List.forall_mem_append.1 h
  obtain ⟨hfirstKeys, hlastKey⟩ := List.forall_mem_append.1 hkeys
  -- the last member, with the blanks behind its value, takes the place of the last member
  have hspelled := @Spells.object
    (first ++ [⟨last.keyText, last.key, last.valueText ++ blanks, last.value⟩]) (by simp)
    (List.forall_mem_append.2 ⟨hfirstKeys, List.forall_mem_singleton.2
      (hlastKey last List.mem_cons_self)⟩)
    (List.forall_mem_append.2 ⟨hfirst, List.forall_mem_singleton.2
      ((hlast last List.mem_cons_self).append_blanks hblanks)⟩)
  have htext : Member.text ⟨last.keyText, last.key, last.valueText ++ blanks, last.value⟩ =
      last.text ++ blanks := by
    simp [Member.text]
  simp only [List.map_append, List.map_cons, List.map_nil, htext] at hspelled ⊢
  rwa [commaSeparated_concat_append, List.append_assoc] at hspelled

/-! ### What is read is spelled -/

/-- What is skipped in front of a text is blank. -/
theorem exists_blanks (cs : List Char) : ∃ blanks, AreBlank blanks ∧ cs = blanks ++ skipBlank cs :=
  ⟨cs.takeWhile isBlank, fun _ hc => List.mem_takeWhile_imp hc,
    List.takeWhile_append_dropWhile.symm⟩

/-- What is read as a scalar is one of the words, or a number. -/
theorem spells_of_readScalar {cs rest : List Char} {value : Value}
    (h : readScalar cs = some (value, rest)) :
    ∃ text, cs = text ++ rest ∧ Spells text value := by
  unfold readScalar at h
  split at h
  · next found hfound =>
    -- one of the three words
    obtain rfl := Option.some.inj h
    obtain ⟨⟨word, wordValue⟩, hword, hmap⟩ := List.exists_of_findSome?_eq_some hfound
    obtain ⟨rest', hstrip, hpair⟩ := Option.map_eq_some_iff.1 hmap
    obtain ⟨rfl, rfl⟩ := Prod.mk.inj hpair
    refine ⟨word, stripPrefix?_eq_some.1 hstrip, ?_⟩
    simp only [words, List.mem_cons, List.not_mem_nil, or_false, Prod.mk.injEq] at hword
    rcases hword with ⟨rfl, rfl⟩ | ⟨rfl, rfl⟩ | ⟨rfl, rfl⟩
    · exact .nullWord
    · exact .trueWord
    · exact .falseWord
  · obtain ⟨text, hcs, hnumber⟩ := isNumber_of_readNumber h
    exact ⟨text, hcs, .number hnumber⟩

/-- What is read up to a quote is, with its quotes, a quoted text. -/
theorem isQuoted_of_readCharacters {cs rest : List Char} {characters : Characters}
    (h : readCharacters cs = some (characters, rest)) :
    ∃ quoted, '"' :: cs = quoted ++ rest ∧ IsQuoted quoted characters := by
  obtain ⟨body, units, rfl, hbody, hstand⟩ := readCharacters_eq_some.1 h
  exact ⟨'"' :: (body ++ ['"']), by simp, .mk hbody hstand⟩

/-- What is read as a value is one. -/
def IsSpelledValue (fuel : Nat) : Prop :=
  ∀ cs value rest, readValue fuel cs = some (value, rest) →
    ∃ text, cs = text ++ rest ∧ Spells text value

/-- What is read as items is items, up to the bracket that closes their array. -/
def AreSpelledItems (fuel : Nat) : Prop :=
  ∀ cs values rest, readItems fuel cs = some (values, rest) →
    ∃ items : List (List Char × Value), items ≠ [] ∧ (∀ item ∈ items, Spells item.1 item.2) ∧
      cs = commaSeparated (items.map Prod.fst) ++ ']' :: rest ∧ values = items.map Prod.snd

/-- What is read as members is members, up to the brace that closes their object. -/
def AreSpelledMembers (fuel : Nat) : Prop :=
  ∀ cs entries rest, readMembers fuel cs = some (entries, rest) →
    ∃ members : List Member, members ≠ [] ∧
      (∀ member ∈ members, IsKey member.keyText member.key) ∧
      (∀ member ∈ members, Spells member.valueText member.value) ∧
      cs = commaSeparated (members.map Member.text) ++ '}' :: rest ∧
      entries = members.map Member.entry

/-- An array is closed at once, behind blanks, or has items. -/
theorem spells_array {fuel : Nat} (hitems : AreSpelledItems fuel) {cs rest : List Char}
    {value : Value}
    (h : (match skipBlank cs with
      | ']' :: rest => some (.array [], rest)
      | inner => (readItems fuel inner).map fun (items, rest) => (.array items, rest)) =
      some (value, rest)) :
    ∃ text, '[' :: cs = text ++ rest ∧ Spells text value := by
  obtain ⟨blanks, hblanks, hcs⟩ := exists_blanks cs
  split at h
  · next after hclose =>
    -- closed at once
    obtain ⟨rfl, rfl⟩ := Prod.mk.inj (Option.some.inj h)
    refine ⟨'[' :: (blanks ++ [']']), ?_, .emptyArray hblanks⟩
    rw [hcs, hclose]
    simp
  · obtain ⟨⟨values, rest'⟩, hread, hpair⟩ := Option.map_eq_some_iff.1 h
    obtain ⟨rfl, rfl⟩ := Prod.mk.inj hpair
    -- the blanks that were skipped are read by the first item as well
    rw [readItems_congr (skipBlank_skipBlank cs)] at hread
    obtain ⟨items, hne, hspelled, hcs, rfl⟩ := hitems cs _ _ hread
    refine ⟨'[' :: (commaSeparated (items.map Prod.fst) ++ [']']), ?_, .array hne hspelled⟩
    rw [hcs]
    simp

/-- An object is closed at once, behind blanks, or has members. -/
theorem spells_object {fuel : Nat} (hmembers : AreSpelledMembers fuel) {cs rest : List Char}
    {value : Value}
    (h : (match skipBlank cs with
      | '}' :: rest => some (.object [], rest)
      | inner => (readMembers fuel inner).map fun (members, rest) => (.object members, rest)) =
      some (value, rest)) :
    ∃ text, '{' :: cs = text ++ rest ∧ Spells text value := by
  obtain ⟨blanks, hblanks, hcs⟩ := exists_blanks cs
  split at h
  · next after hclose =>
    -- closed at once
    obtain ⟨rfl, rfl⟩ := Prod.mk.inj (Option.some.inj h)
    refine ⟨'{' :: (blanks ++ ['}']), ?_, .emptyObject hblanks⟩
    rw [hcs, hclose]
    simp
  · obtain ⟨⟨entries, rest'⟩, hread, hpair⟩ := Option.map_eq_some_iff.1 h
    obtain ⟨rfl, rfl⟩ := Prod.mk.inj hpair
    -- the blanks that were skipped are read by the first member as well
    rw [readMembers_congr (skipBlank_skipBlank cs)] at hread
    obtain ⟨members, hne, hkeys, hspelled, hcs, rfl⟩ := hmembers cs _ _ hread
    refine ⟨'{' :: (commaSeparated (members.map Member.text) ++ ['}']), ?_,
      .object hne hkeys hspelled⟩
    rw [hcs]
    simp

/-- A value with more steps is read off its first character. -/
theorem isSpelledValue_succ {fuel : Nat} (hitems : AreSpelledItems fuel)
    (hmembers : AreSpelledMembers fuel) : IsSpelledValue (fuel + 1) := by
  intro cs value rest h
  obtain ⟨blanks, hblanks, hcs⟩ := exists_blanks cs
  have hread : ∃ text, skipBlank cs = text ++ rest ∧ Spells text value := by
    rw [readValue_succ] at h
    split at h
    · next inner hopen =>
      -- a quote begins a text, a bracket an array, a brace an object, and all else is a scalar
      obtain ⟨⟨characters, rest'⟩, hinner, hpair⟩ := Option.map_eq_some_iff.1 h
      obtain ⟨rfl, rfl⟩ := Prod.mk.inj hpair
      obtain ⟨quoted, hquoted, hspelled⟩ := isQuoted_of_readCharacters hinner
      exact ⟨quoted, hopen.trans hquoted, .text hspelled⟩
    · next inner hopen =>
      rw [hopen]
      exact spells_array hitems h
    · next inner hopen =>
      rw [hopen]
      exact spells_object hmembers h
    · exact spells_of_readScalar h
  obtain ⟨text, htext, hspelled⟩ := hread
  refine ⟨blanks ++ text, ?_, ?_⟩
  · rw [List.append_assoc, ← htext]
    exact hcs
  · exact hspelled.blanks_append hblanks

/-- A value that is read is spelled with the blanks behind it, up to the next token. -/
theorem exists_spelled {fuel : Nat} (hvalue : IsSpelledValue fuel) {cs tail : List Char}
    {value : Value} (hread : readValue fuel cs = some (value, tail)) :
    ∃ text, cs = text ++ skipBlank tail ∧ Spells text value := by
  obtain ⟨text, hcs, hspelled⟩ := hvalue cs value tail hread
  obtain ⟨blanks, hblanks, htail⟩ := exists_blanks tail
  refine ⟨text ++ blanks, ?_, hspelled.append_blanks hblanks⟩
  calc cs = text ++ tail := hcs
    _ = text ++ (blanks ++ skipBlank tail) := congrArg (text ++ ·) htail
    _ = text ++ blanks ++ skipBlank tail := (List.append_assoc ..).symm

/-- Items with more steps are one item, and then the others if a comma follows. -/
theorem areSpelledItems_succ {fuel : Nat} (hvalue : IsSpelledValue fuel)
    (hitems : AreSpelledItems fuel) : AreSpelledItems (fuel + 1) := by
  intro cs values rest h
  obtain ⟨value, tail, hread, hend⟩ := readItems_eq_some h
  obtain ⟨text, hcs, hspelled⟩ := exists_spelled hvalue hread
  rcases hend with ⟨hclose, rfl⟩ | ⟨more, others, hcomma, hmore, rfl⟩
  · -- the array ends behind the item
    refine ⟨[(text, value)], List.cons_ne_nil _ _, List.forall_mem_singleton.2 hspelled, ?_, rfl⟩
    rw [List.map_singleton, commaSeparated_singleton, hcs, hclose]
  · -- more items follow, and they are spelled behind the comma
    obtain ⟨items, hne, hothers, rfl, rfl⟩ := hitems more others rest hmore
    refine ⟨(text, value) :: items, List.cons_ne_nil _ _,
      List.forall_mem_cons.2 ⟨hspelled, hothers⟩, ?_, rfl⟩
    rw [List.map_cons, commaSeparated_cons (by simpa using hne), hcs, hcomma]
    simp

/-- What is read up to the end of a member's value is a member. Blanks around its key are put to the
key, and those behind its value to the value. -/
theorem exists_member {fuel : Nat} (hvalue : IsSpelledValue fuel)
    {cs inner afterKey afterColon tail : List Char} {key : Characters} {value : Value}
    (hopen : skipBlank cs = '"' :: inner) (hkey : readCharacters inner = some (key, afterKey))
    (hcolon : skipBlank afterKey = ':' :: afterColon)
    (hread : readValue fuel afterColon = some (value, tail)) :
    ∃ member : Member, IsKey member.keyText member.key ∧
      Spells member.valueText member.value ∧ member.entry = (key, value) ∧
      cs = member.text ++ skipBlank tail := by
  obtain ⟨before, hbefore, hcs⟩ := exists_blanks cs
  obtain ⟨quoted, hquoted, hspelledKey⟩ := isQuoted_of_readCharacters hkey
  obtain ⟨after, hafter, hafterKey⟩ := exists_blanks afterKey
  obtain ⟨text, htext, hspelled⟩ := exists_spelled hvalue hread
  refine ⟨⟨before ++ (quoted ++ after), key, text, value⟩,
    ⟨before, quoted, after, rfl, hbefore, hafter, hspelledKey⟩, hspelled, rfl, ?_⟩
  rw [Member.text, hcs, hopen, hquoted, hafterKey, hcolon, htext]
  simp

/-- Members with more steps are one member, and then the others if a comma follows. -/
theorem areSpelledMembers_succ {fuel : Nat} (hvalue : IsSpelledValue fuel)
    (hmembers : AreSpelledMembers fuel) : AreSpelledMembers (fuel + 1) := by
  intro cs entries rest h
  obtain ⟨inner, key, afterKey, afterColon, value, tail, hopen, hkey, hcolon, hread, hend⟩ :=
    readMembers_eq_some h
  obtain ⟨member, hisKey, hspelled, hentry, hcs⟩ := exists_member hvalue hopen hkey hcolon hread
  rw [← hentry] at hend
  rcases hend with ⟨hclose, rfl⟩ | ⟨more, others, hcomma, hmore, rfl⟩
  · -- the object ends behind the member
    refine ⟨[member], List.cons_ne_nil _ _, List.forall_mem_singleton.2 hisKey,
      List.forall_mem_singleton.2 hspelled, ?_, rfl⟩
    rw [List.map_singleton, commaSeparated_singleton, hcs, hclose]
  · -- more members follow, and they are spelled behind the comma
    obtain ⟨members, hne, hkeys, hothers, rfl, rfl⟩ := hmembers more others rest hmore
    refine ⟨member :: members, List.cons_ne_nil _ _, List.forall_mem_cons.2 ⟨hisKey, hkeys⟩,
      List.forall_mem_cons.2 ⟨hspelled, hothers⟩, ?_, rfl⟩
    rw [List.map_cons, commaSeparated_cons (by simpa using hne), hcs, hcomma]
    simp

/-- **What is read is spelled.** -/
theorem spells_of_readValue {fuel : Nat} :
    IsSpelledValue fuel ∧ AreSpelledItems fuel ∧ AreSpelledMembers fuel := by
  induction fuel with
  | zero =>
    -- without steps nothing is read
    exact ⟨fun _ _ _ h => (nomatch h), fun _ _ _ h => (nomatch h), fun _ _ _ h => (nomatch h)⟩
  | succ fuel ih =>
    obtain ⟨hvalue, hitems, hmembers⟩ := ih
    exact ⟨isSpelledValue_succ hitems hmembers, areSpelledItems_succ hvalue hitems,
      areSpelledMembers_succ hvalue hmembers⟩

end PackageGraph.Json
