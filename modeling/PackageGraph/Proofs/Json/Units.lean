import Mathlib.Data.List.Basic
import PackageGraph.Json.Reader
import PackageGraph.Proofs.Json.Quoted

/-!
# The units of a quoted text

What stands between the quotes of a JSON text spells UTF-16 units (`Quoted.IsBody`): a raw character
or a short escape spells the units of one character, and a hexadecimal escape spells a single unit.
The text has the characters that have these units, if there are any (`Characters.StandFor`); there
are none if half of a surrogate pair stands alone.

The reader finds the body of a text and its characters in this sense (`readCharacters_eq_some`). It
never looks at units as such: it joins two escapes that make a pair, and takes every other element
by itself. This gives the same, as no character has units that begin with those of another one
(`Quoted.utf16_append_inj`).
-/

namespace PackageGraph.Json

namespace Quoted

/-! ### Units of characters -/

/-- The UTF-16 units of a character: a pair of surrogates for one that is beyond the first plane. -/
def utf16 (c : Char) : List Nat :=
  if c.toNat < 0x10000 then [c.toNat]
  else [0xD800 + (c.toNat - 0x10000) / 0x400, 0xDC00 + (c.toNat - 0x10000) % 0x400]

theorem toNat_ofNat {n : Nat} (h : n.isValidChar) : (Char.ofNat n).toNat = n := by
  rw [Char.ofNat, dif_pos h]
  rfl

/-- A character of the first plane has a single unit, its number. -/
theorem utf16_of_lt {c : Char} (h : c.toNat < 0x10000) : utf16 c = [c.toNat] := if_pos h

/-- What the units of a character begin with. A unit that is no half of a pair is the character. -/
theorem exists_utf16_eq_cons (c : Char) : ∃ n more, utf16 c = n :: more ∧ isTrailing n = false ∧
    ((n = c.toNat ∧ more = [] ∧ isLeading n = false) ∨
      ∃ m, more = [m] ∧ isLeading n = true ∧ isTrailing m = true ∧
        c.toNat = 0x10000 + (n - 0xD800) * 0x400 + (m - 0xDC00)) := by
  have hvalid : c.toNat.isValidChar := c.valid
  unfold Nat.isValidChar at hvalid
  -- a character is no surrogate, and the two halves of a pair have ranges of their own
  by_cases h : c.toNat < 0x10000
  · refine ⟨c.toNat, [], utf16_of_lt h, ?_, .inl ⟨rfl, rfl, ?_⟩⟩
    · simp [isTrailing]
      omega
    · simp [isLeading]
      omega
  · refine ⟨_, _, if_neg h, ?_, .inr ⟨_, rfl, ?_, ?_, ?_⟩⟩
    · simp [isTrailing]
      omega
    · simp [isLeading]
      omega
    · simp [isTrailing]
      omega
    · omega

/-- **No character has units that begin with those of another one.** -/
theorem utf16_append_inj {c d : Char} {us vs : List Nat} :
    utf16 c ++ us = utf16 d ++ vs ↔ c = d ∧ us = vs := by
  refine ⟨fun h => ?_, fun ⟨hc, hus⟩ => by rw [hc, hus]⟩
  obtain ⟨n, more, hn, htrailing, hsingle⟩ := exists_utf16_eq_cons c
  obtain ⟨n', more', hn', htrailing', hsingle'⟩ := exists_utf16_eq_cons d
  rw [hn, hn', List.cons_append, List.cons_append, List.cons.injEq] at h
  obtain ⟨rfl, h⟩ := h
  -- the first unit tells a single unit from a pair
  rcases hsingle with ⟨hc, rfl, hleading⟩ | ⟨m, rfl, hleading, -, hc⟩
  · rcases hsingle' with ⟨hd, rfl, -⟩ | ⟨m', rfl, hleading', -⟩
    · -- two single units
      exact ⟨Char.toNat_inj.1 (hc.symm.trans hd), h⟩
    · -- a single unit is no first half
      cases hleading.symm.trans hleading'
  · rcases hsingle' with ⟨-, rfl, hleading'⟩ | ⟨m', rfl, -, -, hd⟩
    · cases hleading.symm.trans hleading'
    · -- two pairs: the second halves are equal as well
      obtain ⟨rfl, hus⟩ := List.cons.inj h
      exact ⟨Char.toNat_inj.1 (hc.trans hd.symm), hus⟩

/-- The units of characters can be taken apart again. -/
theorem flatMap_utf16_inj {cs ds : List Char} (h : cs.flatMap utf16 = ds.flatMap utf16) :
    cs = ds := by
  -- every character has a unit, so neither list is longer than the other one
  have hne (c : Char) (us : List Nat) : utf16 c ++ us ≠ [] := by
    obtain ⟨n, more, hn, -⟩ := exists_utf16_eq_cons c
    simp [hn]
  induction cs generalizing ds with
  | nil =>
    cases ds with
    | nil => rfl
    | cons d ds => exact absurd h.symm (hne d _)
  | cons c cs ih =>
    cases ds with
    | nil => exact absurd h (hne c _)
    | cons d ds =>
      -- the first characters are equal by their units
      rw [List.flatMap_cons, List.flatMap_cons, utf16_append_inj] at h
      rw [h.1, ih h.2]

/-- A single unit is the character of that number. -/
theorem utf16_ofNat {n : Nat} (hleading : isLeading n = false) (htrailing : isTrailing n = false)
    (h : n < 0x10000) : utf16 (.ofNat n) = [n] := by
  have hvalid : n.isValidChar := by
    simp [isLeading, isTrailing] at hleading htrailing
    unfold Nat.isValidChar
    omega
  have hnumber := toNat_ofNat hvalid
  rw [utf16_of_lt (by omega), hnumber]

/-- Two halves of a surrogate pair are a character beyond the first plane. -/
theorem utf16_pair {n m : Nat} (hleading : isLeading n = true) (htrailing : isTrailing m = true) :
    utf16 (.ofNat (0x10000 + (n - 0xD800) * 0x400 + (m - 0xDC00))) = [n, m] := by
  simp [isLeading, isTrailing] at hleading htrailing
  have hvalid : (0x10000 + (n - 0xD800) * 0x400 + (m - 0xDC00)).isValidChar := by
    unfold Nat.isValidChar
    omega
  have hnumber := toNat_ofNat hvalid
  generalize Char.ofNat _ = c at hnumber
  -- ten bits of the number are in each half
  have hfirst : 0xD800 + (c.toNat - 0x10000) / 0x400 = n := by omega
  have hsecond : 0xDC00 + (c.toNat - 0x10000) % 0x400 = m := by omega
  rw [utf16, if_neg (by omega), hfirst, hsecond]

/-! ### Units of elements -/

/-- The units that an element spells. -/
def Element.units : Element → List Nat
  | .character c => utf16 c
  | .unit n => [n]

/-- Every unit that is spelled by its number is one of UTF-16. -/
def AreUnits (found : List Element) : Prop := ∀ n, .unit n ∈ found → n < 0x10000

@[simp] theorem areUnits_nil : AreUnits [] := nofun

@[simp] theorem areUnits_character_cons {c : Char} {found : List Element} :
    AreUnits (.character c :: found) ↔ AreUnits found := by
  simp [AreUnits]

@[simp] theorem areUnits_unit_cons {n : Nat} {found : List Element} :
    AreUnits (.unit n :: found) ↔ n < 0x10000 ∧ AreUnits found := by
  simp [AreUnits]

/-- One character more in front of what stands for a text. -/
theorem map_cons_eq_some_iff {assembled : Option (List Char)} {units : List Nat}
    (ih : ∀ cs, assembled = some cs ↔ units = cs.flatMap utf16) (c : Char) (cs : List Char) :
    assembled.map (c :: ·) = some cs ↔ utf16 c ++ units = cs.flatMap utf16 := by
  cases cs with
  | nil =>
    obtain ⟨n, more, hn, -⟩ := exists_utf16_eq_cons c
    simp [hn]
  | cons d cs =>
    rw [List.flatMap_cons, utf16_append_inj, ← ih cs, Option.map_eq_some_iff]
    constructor
    · rintro ⟨_, hassembled, hcons⟩
      obtain ⟨rfl, rfl⟩ := List.cons.inj hcons
      exact ⟨rfl, hassembled⟩
    · rintro ⟨rfl, hassembled⟩
      exact ⟨cs, hassembled, rfl⟩

/-- No characters begin with the second half of a pair. -/
theorem trailing_cons_ne {n : Nat} (h : isTrailing n = true) (us : List Nat) (cs : List Char) :
    n :: us ≠ cs.flatMap utf16 := by
  cases cs with
  | nil => exact List.cons_ne_nil n us
  | cons c cs =>
    obtain ⟨m, more, hm, htrailing, -⟩ := exists_utf16_eq_cons c
    rw [List.flatMap_cons, hm, List.cons_append]
    intro heq
    rw [(List.cons.inj heq).1, htrailing] at h
    cases h

/-- No characters begin with a first half that no second half follows. -/
theorem leading_cons_ne {n : Nat} (h : isLeading n = true) {us : List Nat}
    (hus : ∀ m ∈ us.head?, isTrailing m = false) (cs : List Char) :
    n :: us ≠ cs.flatMap utf16 := by
  cases cs with
  | nil => exact List.cons_ne_nil n us
  | cons c cs =>
    obtain ⟨n', more, hn, -, ⟨-, -, hleading⟩ | ⟨m, rfl, -, htrailing, -⟩⟩ :=
      exists_utf16_eq_cons c
    · -- a character of a single unit has no first half
      rw [List.flatMap_cons, hn, List.cons_append]
      intro heq
      rw [(List.cons.inj heq).1, hleading] at h
      cases h
    · -- a character of a pair has its second half next
      rw [List.flatMap_cons, hn, List.cons_append, List.singleton_append]
      intro heq
      have hfalse := hus m (by rw [(List.cons.inj heq).2]; rfl)
      cases htrailing.symm.trans hfalse

/-- The units of elements begin with a second half only if a unit is spelled by its number. -/
theorem isTrailing_head {found : List Element}
    (h : ∀ m rest, found ≠ .unit m :: rest) :
    ∀ m ∈ (found.flatMap Element.units).head?, isTrailing m = false := by
  intro m hm
  cases found with
  | nil => cases hm
  | cons first rest =>
    cases first with
    | unit m' => exact absurd rfl (h m' rest)
    | character c =>
      obtain ⟨n, more, hn, htrailing, -⟩ := exists_utf16_eq_cons c
      have hunits : Element.units (.character c) = n :: more := hn
      rw [List.flatMap_cons, hunits, List.cons_append] at hm
      obtain rfl := Option.some.inj hm
      exact htrailing

/-- **Characters are assembled from the units that they have.** -/
theorem assemble_eq_some {found : List Element} (h : AreUnits found) {cs : List Char} :
    assemble found = some cs ↔ found.flatMap Element.units = cs.flatMap utf16 := by
  -- the cases are those of assembling; each takes one character off the front or fails
  fun_induction assemble found generalizing cs with
  | case1 =>
    cases cs with
    | nil => simp
    | cons c cs =>
      obtain ⟨n, more, hn, -⟩ := exists_utf16_eq_cons c
      simp [hn]
  | case2 c rest ih =>
    exact map_cons_eq_some_iff (fun cs => ih (areUnits_character_cons.1 h)) c cs
  | case3 n m rest hleading htrailing ih =>
    -- two halves of a pair
    have hrest : AreUnits rest := (areUnits_unit_cons.1 (areUnits_unit_cons.1 h).2).2
    have hstep := map_cons_eq_some_iff (fun cs => ih hrest)
      (.ofNat (0x10000 + (n - 0xD800) * 0x400 + (m - 0xDC00))) cs
    rw [utf16_pair hleading htrailing] at hstep
    exact hstep
  | case4 n m rest hleading htrailing =>
    -- a first half that no second half follows
    refine iff_of_false nofun (leading_cons_ne hleading (fun k hk => ?_) cs)
    obtain rfl := Option.some.inj hk
    exact Bool.eq_false_iff.2 htrailing
  | case5 n m rest hleading htrailing =>
    -- a second half without a first one
    exact iff_of_false nofun (trailing_cons_ne htrailing _ cs)
  | case6 n m rest hleading htrailing ih =>
    -- a unit that is no half, with a unit behind it
    obtain ⟨hn, hrest⟩ := areUnits_unit_cons.1 h
    have hstep := map_cons_eq_some_iff (fun cs => ih hrest) (.ofNat n) cs
    rw [utf16_ofNat (Bool.eq_false_iff.2 hleading)
      (Bool.eq_false_iff.2 htrailing) hn] at hstep
    exact hstep
  | case7 n rest hnot hhalf =>
    -- half of a pair, with no unit behind it
    refine iff_of_false nofun ?_
    rcases Bool.or_eq_true_iff.1 hhalf with hleading | htrailing
    · exact leading_cons_ne hleading (isTrailing_head fun m more => hnot m more) cs
    · exact trailing_cons_ne htrailing _ cs
  | case8 n rest hnot hhalf ih =>
    -- a unit that is no half, with no unit behind it
    rw [Bool.or_eq_true_iff, not_or] at hhalf
    obtain ⟨hn, hrest⟩ := areUnits_unit_cons.1 h
    have hstep := map_cons_eq_some_iff (fun cs => ih hrest) (.ofNat n) cs
    rw [utf16_ofNat (Bool.eq_false_iff.2 hhalf.1)
      (Bool.eq_false_iff.2 hhalf.2) hn] at hstep
    exact hstep

/-! ### Bodies -/

/-- What stands between quotes, with the units that it spells. -/
inductive IsBody : List Char → List Nat → Prop
  | nil : IsBody [] []
  | raw {c cs units} : c ≠ '"' → c ≠ '\\' → 0x20 ≤ c.toNat → IsBody cs units →
      IsBody (c :: cs) (utf16 c ++ units)
  | short {e c cs units} : shortEscape? e = some c → IsBody cs units →
      IsBody ('\\' :: e :: cs) (utf16 c ++ units)
  | unit {a b c d n cs units} : unit? a b c d = some n → IsBody cs units →
      IsBody ('\\' :: 'u' :: a :: b :: c :: d :: cs) (n :: units)

theorem hexValue?_lt {c : Char} {n : Nat} (h : hexValue? c = some n) : n < 16 := by
  unfold hexValue? at h
  -- each range of digits bounds the number of the character from above
  split at h
  · next hc =>
    have hle : c.toNat ≤ '9'.toNat := hc.2
    have hdigit : '9'.toNat - '0'.toNat = 9 := rfl
    obtain rfl := Option.some.inj h
    omega
  · split at h
    · next hc =>
      have hle : c.toNat ≤ 'f'.toNat := hc.2
      have hdigit : 'f'.toNat - 'a'.toNat = 5 := rfl
      obtain rfl := Option.some.inj h
      omega
    · split at h
      · next hc =>
        have hle : c.toNat ≤ 'F'.toNat := hc.2
        have hdigit : 'F'.toNat - 'A'.toNat = 5 := rfl
        obtain rfl := Option.some.inj h
        omega
      · cases h

theorem unit?_lt {a b c d : Char} {n : Nat} (h : unit? a b c d = some n) : n < 0x10000 := by
  unfold unit? at h
  simp only [Option.bind_eq_bind, Option.bind_eq_some_iff] at h
  obtain ⟨na, ha, nb, hb, nc, hc, nd, hd, hn⟩ := h
  obtain rfl := Option.some.inj hn
  have hna := hexValue?_lt ha
  have hnb := hexValue?_lt hb
  have hnc := hexValue?_lt hc
  have hnd := hexValue?_lt hd
  omega

/-- What is found up to the closing quote is a body. -/
theorem isBody_of_elements {cs rest : List Char} {found : List Element}
    (h : elements cs = some (found, rest)) :
    ∃ body, cs = body ++ '"' :: rest ∧ IsBody body (found.flatMap Element.units) ∧
      AreUnits found := by
  -- the reader looks for the closing quote, a hexadecimal escape, a short one and a raw character
  fun_induction elements cs generalizing found with
  | case1 => cases h
  | case2 rest' =>
    obtain ⟨rfl, rfl⟩ := Prod.mk.inj (Option.some.inj h)
    exact ⟨[], rfl, .nil, areUnits_nil⟩
  | case3 a b c d left ih =>
    simp only [Option.bind_eq_bind, Option.bind_eq_some_iff] at h
    obtain ⟨n, hn, ⟨more, rest'⟩, hmore, h⟩ := h
    obtain ⟨rfl, rfl⟩ := Prod.mk.inj (Option.some.inj h)
    obtain ⟨body, rfl, hbody, hunits⟩ := ih hmore
    exact ⟨_, rfl, .unit hn hbody, areUnits_unit_cons.2 ⟨unit?_lt hn, hunits⟩⟩
  | case4 e left _ ih =>
    simp only [Option.bind_eq_bind, Option.bind_eq_some_iff] at h
    obtain ⟨c, hc, ⟨more, rest'⟩, hmore, h⟩ := h
    obtain ⟨rfl, rfl⟩ := Prod.mk.inj (Option.some.inj h)
    obtain ⟨body, rfl, hbody, hunits⟩ := ih hmore
    exact ⟨_, rfl, .short hc hbody, areUnits_character_cons.2 hunits⟩
  | case5 c left _ _ _ hbad =>
    -- a raw character that has to be escaped
    cases h
  | case6 c left hquote _ _ _ hgood =>
    rename_i ih
    obtain ⟨⟨more, rest'⟩, hmore, h⟩ := Option.bind_eq_some_iff.1 h
    obtain ⟨rfl, rfl⟩ := Prod.mk.inj (Option.some.inj h)
    obtain ⟨body, rfl, hbody, hunits⟩ := ih hmore
    rw [not_or, Nat.not_lt] at hgood
    exact ⟨_, rfl, .raw hquote hgood.1 hgood.2 hbody, areUnits_character_cons.2 hunits⟩

/-- A body is found in front of its closing quote, whatever follows. -/
theorem IsBody.exists_elements {body : List Char} {units : List Nat} (h : IsBody body units) :
    ∃ found, (∀ rest, elements (body ++ '"' :: rest) = some (found, rest)) ∧
      found.flatMap Element.units = units ∧ AreUnits found := by
  induction h with
  | nil => exact ⟨[], fun rest => rfl, rfl, areUnits_nil⟩
  | raw hquote hbackslash hcontrol _ ih =>
    obtain ⟨found, hfound, rfl, hunits⟩ := ih
    refine ⟨.character _ :: found, fun rest => ?_, rfl, areUnits_character_cons.2 hunits⟩
    rw [List.cons_append, elements_raw hquote hbackslash (Nat.not_lt.2 hcontrol), hfound]
    rfl
  | @short e c _ _ hescape _ ih =>
    obtain ⟨found, hfound, rfl, hunits⟩ := ih
    -- the letter of a short escape is not that of a hexadecimal one
    have hunit : e ≠ 'u' := by
      rintro rfl
      cases hescape
    refine ⟨.character c :: found, fun rest => ?_, rfl, areUnits_character_cons.2 hunits⟩
    rw [List.cons_append, List.cons_append, elements_shortEscape hunit hescape, hfound]
    rfl
  | @unit _ _ _ _ n _ _ hn _ ih =>
    obtain ⟨found, hfound, rfl, hunits⟩ := ih
    refine ⟨.unit n :: found, fun rest => ?_, rfl, areUnits_unit_cons.2 ⟨unit?_lt hn, hunits⟩⟩
    simp only [List.cons_append]
    rw [elements_unit hn, hfound]
    rfl

end Quoted

/-! ### Characters of a text -/

open Quoted

/-- The characters have these UTF-16 units, or there are none that have them. -/
def Characters.StandFor (units : List Nat) : Characters → Prop
  | some s => units = s.toList.flatMap utf16
  | none => ∀ s : String, units ≠ s.toList.flatMap utf16

/-- The characters that are assembled have the units, and if none are, none have them. -/
theorem standFor_assemble {found : List Element} (h : AreUnits found) :
    Characters.StandFor (found.flatMap Element.units) ((assemble found).map .ofList) := by
  cases hassemble : assemble found with
  | some cs =>
    show _ = (String.ofList cs).toList.flatMap utf16
    rw [String.toList_ofList]
    exact (assemble_eq_some h).1 hassemble
  | none =>
    intro s hs
    cases hassemble.symm.trans ((assemble_eq_some h).2 hs)

/-- Units determine the characters that have them. -/
theorem Characters.StandFor.unique {units : List Nat} {characters characters' : Characters}
    (h : characters.StandFor units) (h' : characters'.StandFor units) :
    characters = characters' := by
  cases characters with
  | none =>
    cases characters' with
    | none => rfl
    | some s' => exact absurd h' (h s')
  | some s =>
    cases characters' with
    | none => exact absurd h (h' s)
    | some s' =>
      have htoList : s.toList = s'.toList := flatMap_utf16_inj (Eq.trans (Eq.symm h) h')
      rw [String.toList_inj.1 htoList]

/-- **A text is read as the characters that its body stands for**, up to the closing quote. -/
theorem readCharacters_eq_some {cs rest : List Char} {characters : Characters} :
    readCharacters cs = some (characters, rest) ↔
      ∃ body units, cs = body ++ '"' :: rest ∧ IsBody body units ∧ characters.StandFor units := by
  constructor
  · -- what is found is a body, and the characters are assembled from its units
    intro h
    rw [readCharacters, Option.map_eq_some_iff] at h
    obtain ⟨⟨assembled, rest'⟩, hdecode, h⟩ := h
    obtain ⟨rfl, rfl⟩ := Prod.mk.inj h
    rw [decode, Option.map_eq_some_iff] at hdecode
    obtain ⟨⟨found, rest''⟩, hfound, hdecode⟩ := hdecode
    obtain ⟨rfl, rfl⟩ := Prod.mk.inj hdecode
    obtain ⟨body, hcs, hbody, hunits⟩ := isBody_of_elements hfound
    exact ⟨body, _, hcs, hbody, standFor_assemble hunits⟩
  · -- the units determine what is assembled from them
    rintro ⟨body, units, rfl, hbody, hstand⟩
    obtain ⟨found, hfound, rfl, hunits⟩ := hbody.exists_elements
    rw [readCharacters, decode, hfound]
    exact congrArg (fun characters => some (characters, rest))
      ((standFor_assemble hunits).unique hstand)

end PackageGraph.Json
