import PackageGraph.Proofs.Json.Grammar

/-!
# JSON is read exactly

A text has a value if the grammar gives it one, and it is this value (`ofText?_eq_some_iff`); so the
grammar gives no text two values (`Spells.unique`).

One direction is that what is read is spelled. For the other one, a text of the grammar is read to
its end, whatever follows (`Spells.isRead`), by induction on its derivation; the lists of items and
members are gone through inside it. Only numbers have no end of their own, so for them what follows
has to delimit them. A step of the reader is paid for by a character of the text, or by the mark
that opens or separates, so twice the length of the text is bound enough.

So nothing but blanks may follow a value. Only a number goes on when more is written behind it, and
then to another number (`isNumber_of_ofText?_append`).
-/

namespace PackageGraph.Json

open Text

/-! ### What is spelled is read -/

/-- Is the value a number? -/
def Value.isNumber : Value → Bool
  | .natural _ => true
  | .otherNumber => true
  | _ => false

/-- What the grammar of numbers spells is a number. -/
theorem isNumber_of_isNumber {text : List Char} {value : Value} (h : IsNumber text value) :
    value.isNumber = true := by
  cases h with
  | natural _ => rfl
  | other _ _ _ _ _ => rfl


theorem skipBlank_mark {blanks : List Char} (h : AreBlank blanks) {c : Char}
    (hc : isBlank c = false) (cs : List Char) : skipBlank (blanks ++ c :: cs) = c :: cs := by
  rw [skipBlank_append h, skipBlank_of_not_isBlank hc]

/-- What a spelled value begins with, behind its blanks. This tells numbers from other values. -/
theorem Spells.exists_head {text : List Char} {value : Value} (h : Spells text value) :
    ∃ c cs, (∀ rest, skipBlank (text ++ rest) = c :: (cs ++ rest)) ∧ isBlank c = false ∧
      c ≠ ']' ∧ (value.isNumber = true ↔ IsNumberHead c) := by
  -- a text that begins with a mark of its own is that of no number
  have hmark : ∀ (c : Char) (cs : List Char) (value : Value), isBlank c = false → c ≠ ']' →
      ¬IsNumberHead c → value.isNumber = false →
      ∃ d ds, (∀ rest, skipBlank (c :: cs ++ rest) = d :: (ds ++ rest)) ∧ isBlank d = false ∧
        d ≠ ']' ∧ (value.isNumber = true ↔ IsNumberHead d) := by
    intro c cs value hblank hclosing hno hvalue
    refine ⟨c, cs, fun rest => skipBlank_of_not_isBlank hblank _, hblank, hclosing, ?_⟩
    exact iff_of_false (by rw [hvalue]; exact Bool.false_ne_true) hno
  induction h with
  | @padded before text after value hbefore _ _ ih =>
    obtain ⟨c, cs, hcs, hc⟩ := ih
    refine ⟨c, cs ++ after, fun rest => ?_, hc⟩
    rw [List.append_assoc, skipBlank_append hbefore, List.append_assoc, hcs, List.append_assoc]
  | nullWord => exact hmark 'n' _ _ rfl (by decide) (by decide) rfl
  | trueWord => exact hmark 't' _ _ rfl (by decide) (by decide) rfl
  | falseWord => exact hmark 'f' _ _ rfl (by decide) (by decide) rfl
  | number hnumber =>
    obtain ⟨c, cs, rfl, hc⟩ := hnumber.exists_cons
    exact ⟨c, cs, fun rest => skipBlank_of_not_isBlank hc.isBlank _, hc.isBlank,
      hc.ne (by decide) rfl, iff_of_true (isNumber_of_isNumber hnumber) hc⟩
  | text hquoted =>
    obtain ⟨-, -⟩ := hquoted
    exact hmark '"' _ _ rfl (by decide) (by decide) rfl
  | emptyArray _ => exact hmark '[' _ _ rfl (by decide) (by decide) rfl
  | array _ _ _ => exact hmark '[' _ _ rfl (by decide) (by decide) rfl
  | emptyObject _ => exact hmark '{' _ _ rfl (by decide) (by decide) rfl
  | object _ _ _ _ => exact hmark '{' _ _ rfl (by decide) (by decide) rfl

/-- The value is read off its text, whatever follows; what follows a number has to delimit it. The
reader may leave the blanks behind the value. -/
def IsRead (text : List Char) (value : Value) : Prop :=
  ∀ rest fuel, (value.isNumber = true → Delimited rest) → 2 * text.length < fuel →
    ∃ tail, readValue fuel (text ++ rest) = some (value, tail) ∧ skipBlank tail = skipBlank rest

theorem exists_succ_of_lt {n fuel : Nat} (h : n < fuel) : ∃ left, fuel = left + 1 ∧ n ≤ left :=
  ⟨fuel - 1, by omega, by omega⟩

/-- What reads a text to its end needs no more than a step. -/
theorem isRead_of_step {text : List Char} {value : Value}
    (h : ∀ rest left, (value.isNumber = true → Delimited rest) → 2 * text.length ≤ left →
      readValue (left + 1) (text ++ rest) = some (value, rest)) : IsRead text value := by
  intro rest fuel hrest hfuel
  obtain ⟨left, rfl, hleft⟩ := exists_succ_of_lt hfuel
  exact ⟨rest, h rest left hrest hleft, rfl⟩

/-- Blanks around a value do not keep it from being read. -/
theorem IsRead.padded {before text after : List Char} {value : Value} (hbefore : AreBlank before)
    (hafter : AreBlank after) (h : IsRead text value) :
    IsRead (before ++ (text ++ after)) value := by
  intro rest fuel hrest hfuel
  -- the blanks behind a number delimit it, and without any what follows the whole text does
  have hdelimits : value.isNumber = true → Delimited (after ++ rest) := by
    intro hnumber
    cases after with
    | nil => exact hrest hnumber
    | cons c cs => exact delimited_cons (.inl (hafter c List.mem_cons_self)) _
  simp only [List.length_append] at hfuel
  obtain ⟨tail, hread, htail⟩ := h (after ++ rest) fuel hdelimits (by omega)
  refine ⟨tail, ?_, htail.trans (skipBlank_append hafter rest)⟩
  -- the blanks in front of the value are skipped before it is read
  rw [List.append_assoc, List.append_assoc, readValue_congr (skipBlank_append hbefore _)]
  exact hread

/-- A value in front of a mark is read up to this mark. -/
theorem IsRead.before_mark {text : List Char} {value : Value} (h : IsRead text value) {c : Char}
    (hc : c = ',' ∨ c = ']' ∨ c = '}') (cs : List Char) {fuel : Nat}
    (hfuel : 2 * text.length < fuel) :
    ∃ tail, readValue fuel (text ++ c :: cs) = some (value, tail) ∧ skipBlank tail = c :: cs := by
  have hblank : isBlank c = false := by rcases hc with rfl | rfl | rfl <;> rfl
  obtain ⟨tail, hread, htail⟩ := h (c :: cs) fuel (fun _ => delimited_cons (.inr hc) cs) hfuel
  exact ⟨tail, hread, htail.trans (skipBlank_of_not_isBlank hblank cs)⟩

/-- No word begins with the first character of a number. -/
theorem readScalar_of_number {c : Char} (h : IsNumberHead c) (cs : List Char) :
    readScalar (c :: cs) = readNumber (c :: cs) := by
  -- the words begin with `n`, `t` and `f`
  have hwords : ∀ word ∈ words, stripPrefix? word.1 (c :: cs) = none := by
    intro word hword
    have hn : 'n' ≠ c := (h.ne (by decide) rfl).symm
    have ht : 't' ≠ c := (h.ne (by decide) rfl).symm
    have hf : 'f' ≠ c := (h.ne (by decide) rfl).symm
    simp only [words, List.mem_cons, List.not_mem_nil, or_false] at hword
    rcases hword with rfl | rfl | rfl
    · simp [stripPrefix?, hn]
    · simp [stripPrefix?, ht]
    · simp [stripPrefix?, hf]
  rw [readScalar, List.findSome?_eq_none_iff.2]
  exact fun word hword => by simp [hwords word hword]

theorem isRead_number {text : List Char} {value : Value} (h : IsNumber text value) :
    IsRead text value := by
  refine isRead_of_step fun rest left hrest _ => ?_
  have hread := readNumber_append h (hrest (isNumber_of_isNumber h))
  obtain ⟨c, cs, rfl, hc⟩ := h.exists_cons
  -- what a number begins with opens no text, array or object
  have hopen : c ≠ '"' ∧ c ≠ '[' ∧ c ≠ '{' :=
    ⟨hc.ne (by decide) rfl, hc.ne (by decide) rfl, hc.ne (by decide) rfl⟩
  rw [List.cons_append] at hread ⊢
  rw [readValue_scalar hc.isBlank hopen, readScalar_of_number hc, hread]

/-- A quoted text opens with its quote, and is read up to the other one. -/
theorem IsQuoted.exists_read {quoted : List Char} {characters : Characters}
    (h : IsQuoted quoted characters) (rest : List Char) :
    ∃ inner, quoted ++ rest = '"' :: inner ∧ readCharacters inner = some (characters, rest) := by
  obtain ⟨hbody, hstand⟩ := h
  exact ⟨_, rfl, readCharacters_eq_some.2 ⟨_, _, by simp, hbody, hstand⟩⟩

/-- **Items are read up to the end of their array**, if each of them is read. -/
theorem readItems_append {items : List (List Char × Value)} (hne : items ≠ [])
    (h : ∀ item ∈ items, IsRead item.1 item.2) {fuel : Nat} (rest : List Char)
    (hfuel : 2 * (commaSeparated (items.map Prod.fst)).length + 1 < fuel) :
    readItems fuel (commaSeparated (items.map Prod.fst) ++ ']' :: rest) =
      some (items.map Prod.snd, rest) := by
  induction items generalizing fuel with
  | nil => exact absurd rfl hne
  | cons item items ih =>
    obtain ⟨hitem, hothers⟩ := List.forall_mem_cons.1 h
    obtain ⟨left, rfl, hleft⟩ := exists_succ_of_lt hfuel
    cases items with
    | nil =>
      -- the last item: the closing mark follows it
      rw [List.map_singleton, commaSeparated_singleton] at hleft ⊢
      have hfits : 2 * item.1.length < left := by omega
      obtain ⟨tail, hread, hclose⟩ := hitem.before_mark (.inr (.inl rfl)) rest hfits
      exact readItems_last hread hclose
    | cons next others =>
      -- a comma follows the item, and the others are read behind it
      rw [List.map_cons, commaSeparated_cons (by simp)] at hleft ⊢
      simp only [List.length_append, List.length_cons] at hleft
      rw [List.append_assoc, List.cons_append]
      have hfits : 2 * item.1.length < left := by omega
      obtain ⟨tail, hread, hcomma⟩ := hitem.before_mark (.inl rfl)
        (commaSeparated ((next :: others).map Prod.fst) ++ ']' :: rest) hfits
      exact readItems_cons hread hcomma (ih (List.cons_ne_nil _ _) hothers (by omega))

/-- A member begins with its key and its colon, whatever its value is followed by. -/
theorem Member.exists_open {member : Member} (h : IsKey member.keyText member.key)
    (behind : List Char) : ∃ inner after, AreBlank after ∧
      skipBlank (member.text ++ behind) = '"' :: inner ∧
      readCharacters inner = some (member.key, after ++ ':' :: (member.valueText ++ behind)) := by
  obtain ⟨before, quoted, after, hkeyText, hbefore, hafter, hquoted⟩ := h
  obtain ⟨inner, hinner, hread⟩ :=
    hquoted.exists_read (after ++ ':' :: (member.valueText ++ behind))
  have htext : member.text ++ behind =
      before ++ (quoted ++ (after ++ ':' :: (member.valueText ++ behind))) := by
    simp [Member.text, hkeyText]
  refine ⟨inner, after, hafter, ?_, hread⟩
  rw [htext, skipBlank_append hbefore, hinner, skipBlank_of_not_isBlank rfl]

/-- **Members are read up to the end of their object**, if each of their values is read. -/
theorem readMembers_append {members : List Member} (hne : members ≠ [])
    (hkeys : ∀ member ∈ members, IsKey member.keyText member.key)
    (h : ∀ member ∈ members, IsRead member.valueText member.value) {fuel : Nat} (rest : List Char)
    (hfuel : 2 * (commaSeparated (members.map Member.text)).length + 1 < fuel) :
    readMembers fuel (commaSeparated (members.map Member.text) ++ '}' :: rest) =
      some (members.map Member.entry, rest) := by
  induction members generalizing fuel with
  | nil => exact absurd rfl hne
  | cons member members ih =>
    obtain ⟨hmember, hothers⟩ := List.forall_mem_cons.1 h
    obtain ⟨hkey, hotherKeys⟩ := List.forall_mem_cons.1 hkeys
    obtain ⟨left, rfl, hleft⟩ := exists_succ_of_lt hfuel
    have hlength : member.text.length = member.keyText.length + (member.valueText.length + 1) := by
      rw [Member.text, List.length_append, List.length_cons]
    cases members with
    | nil =>
      -- the last member: the closing mark follows its value
      rw [List.map_singleton, commaSeparated_singleton] at hleft ⊢
      obtain ⟨inner, after, hafter, hopen, hread⟩ := Member.exists_open hkey ('}' :: rest)
      have hfits : 2 * member.valueText.length < left := by omega
      obtain ⟨tail, hvalue, hclose⟩ := hmember.before_mark (.inr (.inr rfl)) rest hfits
      exact readMembers_last hopen hread (skipBlank_mark hafter rfl _) hvalue hclose
    | cons next others =>
      -- a comma follows the value, and the other members are read behind it
      rw [List.map_cons, commaSeparated_cons (by simp)] at hleft ⊢
      simp only [List.length_append, List.length_cons] at hleft
      rw [List.append_assoc, List.cons_append]
      obtain ⟨inner, after, hafter, hopen, hread⟩ := Member.exists_open hkey (',' ::
        (commaSeparated ((next :: others).map Member.text) ++ '}' :: rest))
      have hfits : 2 * member.valueText.length < left := by omega
      obtain ⟨tail, hvalue, hcomma⟩ := hmember.before_mark (.inl rfl)
        (commaSeparated ((next :: others).map Member.text) ++ '}' :: rest) hfits
      exact readMembers_cons hopen hread (skipBlank_mark hafter rfl _) hvalue hcomma
        (ih (List.cons_ne_nil _ _) hotherKeys hothers (by omega))

/-- Texts with commas between them begin with the first of them. -/
theorem exists_commaSeparated_append (text : List Char) (texts : List (List Char))
    (more : List Char) : ∃ behind, commaSeparated (text :: texts) ++ more = text ++ behind := by
  cases texts with
  | nil => exact ⟨more, by rw [commaSeparated_singleton]⟩
  | cons next texts =>
    exact ⟨_, by rw [commaSeparated_cons (List.cons_ne_nil _ _), List.append_assoc]⟩

/-- An array is read if its items are. -/
theorem isRead_array {items : List (List Char × Value)} (hne : items ≠ [])
    (hspelled : ∀ item ∈ items, Spells item.1 item.2) (h : ∀ item ∈ items, IsRead item.1 item.2) :
    IsRead ('[' :: (commaSeparated (items.map Prod.fst) ++ [']']))
      (.array (items.map Prod.snd)) := by
  refine isRead_of_step fun rest left _ hleft => ?_
  simp only [List.length_append, List.length_cons, List.length_nil] at hleft
  have htext : '[' :: (commaSeparated (items.map Prod.fst) ++ [']']) ++ rest =
      '[' :: (commaSeparated (items.map Prod.fst) ++ ']' :: rest) := by
    simp
  rw [htext]
  refine readValue_array (skipBlank_of_not_isBlank rfl _) ?_
    (readItems_append hne h rest (by omega))
  -- the first item is no closing bracket
  intro tail hclose
  obtain ⟨item, others, rfl⟩ := List.exists_cons_of_ne_nil hne
  obtain ⟨c, cs, hcs, -, hclosing, -⟩ := (hspelled item List.mem_cons_self).exists_head
  obtain ⟨behind, hbehind⟩ :=
    exists_commaSeparated_append item.1 (others.map Prod.fst) (']' :: rest)
  rw [List.map_cons, hbehind, hcs] at hclose
  exact hclosing (List.cons.inj hclose).1

/-- An object is read if the values of its members are. -/
theorem isRead_object {members : List Member} (hne : members ≠ [])
    (hkeys : ∀ member ∈ members, IsKey member.keyText member.key)
    (h : ∀ member ∈ members, IsRead member.valueText member.value) :
    IsRead ('{' :: (commaSeparated (members.map Member.text) ++ ['}']))
      (.object (members.map Member.entry)) := by
  refine isRead_of_step fun rest left _ hleft => ?_
  simp only [List.length_append, List.length_cons, List.length_nil] at hleft
  have htext : '{' :: (commaSeparated (members.map Member.text) ++ ['}']) ++ rest =
      '{' :: (commaSeparated (members.map Member.text) ++ '}' :: rest) := by
    simp
  rw [htext]
  refine readValue_object (skipBlank_of_not_isBlank rfl _) ?_
    (readMembers_append hne hkeys h rest (by omega))
  -- the first key begins with a quote
  intro tail hclose
  obtain ⟨member, others, rfl⟩ := List.exists_cons_of_ne_nil hne
  obtain ⟨behind, hbehind⟩ :=
    exists_commaSeparated_append member.text (others.map Member.text) ('}' :: rest)
  obtain ⟨inner, -, -, hopen, -⟩ := Member.exists_open (hkeys member List.mem_cons_self) behind
  rw [List.map_cons, hbehind, hopen] at hclose
  exact absurd (List.cons.inj hclose).1 (by decide)

/-- **What is spelled is read**, whatever follows. -/
theorem Spells.isRead {text : List Char} {value : Value} (h : Spells text value) :
    IsRead text value := by
  induction h with
  | padded hbefore hafter _ ih => exact ih.padded hbefore hafter
  | nullWord => exact isRead_of_step fun _ _ _ _ => rfl
  | trueWord => exact isRead_of_step fun _ _ _ _ => rfl
  | falseWord => exact isRead_of_step fun _ _ _ _ => rfl
  | number hnumber => exact isRead_number hnumber
  -- the three words are read by computation
  | text hquoted =>
    refine isRead_of_step fun rest left _ _ => ?_
    obtain ⟨inner, hinner, hread⟩ := hquoted.exists_read rest
    exact readValue_text (hinner ▸ skipBlank_of_not_isBlank rfl inner) hread
  | emptyArray hblanks =>
    refine isRead_of_step fun rest left _ _ => ?_
    rw [List.cons_append, List.append_assoc, List.singleton_append]
    exact readValue_emptyArray (skipBlank_of_not_isBlank rfl _) (skipBlank_mark hblanks rfl rest)
  | array hne hspelled ih => exact isRead_array hne hspelled ih
  | emptyObject hblanks =>
    refine isRead_of_step fun rest left _ _ => ?_
    rw [List.cons_append, List.append_assoc, List.singleton_append]
    exact readValue_emptyObject (skipBlank_of_not_isBlank rfl _) (skipBlank_mark hblanks rfl rest)
  | object hne hkeys _ ih => exact isRead_object hne hkeys ih

/-! ### Whole texts -/

/-- **A text has the value that the grammar gives it**, and none if the grammar gives it none. -/
theorem ofText?_eq_some_iff {text : List Char} {value : Value} :
    Value.ofText? text = some value ↔ Spells text value := by
  constructor
  · -- what is read is spelled
    intro h
    unfold Value.ofText? at h
    split at h
    · next found rest hread =>
      split at h
      · next hblank =>
        obtain rfl := Option.some.inj h
        obtain ⟨spelled, rfl, hspelled⟩ := spells_of_readValue.1 _ _ _ hread
        -- nothing but blanks is left
        obtain ⟨blanks, hblanks, hrest⟩ := exists_blanks rest
        rw [List.isEmpty_iff.1 hblank, List.append_nil] at hrest
        rw [hrest]
        exact hspelled.append_blanks hblanks
      · -- something is left behind the value
        cases h
    · -- no value is read
      cases h
  · -- what is spelled is read, with nothing behind it
    intro h
    obtain ⟨tail, hread, htail⟩ := h.isRead [] (2 * text.length + 2) (fun _ => nofun) (by omega)
    rw [List.append_nil] at hread
    exact ofText?_of_readValue hread htail

/-- The grammar is unambiguous. -/
theorem Spells.unique {text : List Char} {value value' : Value} (h : Spells text value)
    (h' : Spells text value') : value = value' :=
  Option.some.inj ((ofText?_eq_some_iff.2 h).symm.trans (ofText?_eq_some_iff.2 h'))

/-- A text has no value if the grammar gives it none. -/
theorem ofText?_eq_none_iff {text : List Char} :
    Value.ofText? text = none ↔ ∀ value, ¬Spells text value := by
  rw [Option.eq_none_iff_forall_ne_some]
  exact forall_congr' fun value => not_congr ofText?_eq_some_iff

/-- **Only a number goes on behind its end**, and then to another number. -/
theorem isNumber_of_ofText?_append {text rest : List Char} {value value' : Value}
    (h : Spells text value) (hrest : ¬AreBlank rest)
    (h' : Value.ofText? (text ++ rest) = some value') : value'.isNumber = true := by
  have hspelled := ofText?_eq_some_iff.1 h'
  by_cases hnumber : value.isNumber = true
  · -- both texts begin with the same character
    obtain ⟨c, cs, hcs, -, -, hc⟩ := h.exists_head
    obtain ⟨c', cs', hcs', -, -, hc'⟩ := hspelled.exists_head
    have hsame := hcs rest
    rw [← List.append_nil (text ++ rest), hcs'] at hsame
    obtain ⟨rfl, -⟩ := List.cons.inj hsame
    exact hc'.2 (hc.1 hnumber)
  · -- the value ends where its text ends, and something is left behind it
    obtain ⟨tail, hread, htail⟩ := h.isRead rest (2 * (text ++ rest).length + 2)
      (fun hyes => absurd hyes hnumber) (by rw [List.length_append]; omega)
    rw [Value.ofText?, hread] at h'
    dsimp only at h'
    split at h'
    · next hblank =>
      obtain ⟨blanks, hblanks, heq⟩ := exists_blanks rest
      rw [← htail, List.isEmpty_iff.1 hblank, List.append_nil] at heq
      exact absurd (heq ▸ hblanks) hrest
    · cases h'

end PackageGraph.Json
