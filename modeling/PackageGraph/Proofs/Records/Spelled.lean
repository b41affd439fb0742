import PackageGraph.Proofs.Records.RoundTrip

/-!
# Spellings of records

A text spells records if it is JSON and its value stands for them (`Records.IsSpelled`): the members
of an object may come in any order and among unknown ones, at every level, with any blanks and
escapes, and a missing display name may be written as null. Every spelling is read as the records
that it spells, or refused by their version.

A text is malformed if it is no JSON, if its value is faulty, or if something follows the value
(`Records.IsMalformed`). No malformed text is read, and no version changes this
(`Records.ofJson_spelled`): the version is compared only when all the rest has been read.
-/

namespace PackageGraph.Records

open Json

/-- The text is JSON and stands for the records. -/
def IsSpelled (records : Records) (text : List Char) : Prop :=
  ∃ value, Spells text value ∧ records.IsValue value

/-- The text is no spelling of any records, whatever their version. -/
inductive IsMalformed : List Char → Prop
  | notJson {text : List Char} : (∀ value, ¬Spells text value) → IsMalformed text
  | faulty {text : List Char} {value : Value} : Spells text value → IsFaulty value →
      IsMalformed text
  | trailing {text rest : List Char} {value : Value} : Spells text value → ¬AreBlank rest →
      IsMalformed (text ++ rest)

/-- A number is no record. -/
theorem ofValue?_of_isNumber {value : Value} (h : value.isNumber = true) :
    Records.ofValue? value = none := by
  cases value with
  | natural n => rfl
  | otherNumber => rfl
  | _ => cases h

/-- A malformed text has no value, or one that is not read as records. -/
theorem IsMalformed.bind_eq_none {text : List Char} (h : IsMalformed text) :
    (Value.ofText? text).bind Records.ofValue? = none := by
  cases h with
  | notJson hnot => rw [ofText?_eq_none_iff.2 hnot, Option.bind_none]
  | faulty hspelled hfaulty =>
    rw [ofText?_eq_some_iff.2 hspelled, Option.bind_some, ofValue?_eq_none hfaulty]
  | @trailing start rest value hspelled hrest =>
    cases hread : Value.ofText? (start ++ rest) with
    | none => rfl
    | some other =>
      -- only a number may go on behind its end
      have hnumber := isNumber_of_ofText?_append hspelled hrest hread
      rw [Option.bind_some, ofValue?_of_isNumber hnumber]

/-- **Every spelling of records is read, and no malformed text is.** A text that spells records
whose numbers fit into 64 bits is read as these records if they have the version that is read, and
refused by their version otherwise. A malformed text is refused as malformed, be its version right
or wrong. -/
theorem ofJson_spelled (text : String) :
    (∀ records : Records, records.Fits → records.IsSpelled text.toList →
      ofJson text = if records.version = currentVersion then .ok records
        else .error (.version records.version)) ∧
    (IsMalformed text.toList → ofJson text = .error .malformed) := by
  constructor
  · -- the value is known from the spelling, and the records from the value
    rintro records hfits ⟨value, hspelled, hvalue⟩
    rw [ofJson, ofText?_eq_some_iff.2 hspelled, Option.bind_some, ofValue?_of_isValue hfits hvalue]
  · intro hmalformed
    rw [ofJson, hmalformed.bind_eq_none]

/-- Records with one node. -/
def single (version : String) : Records where
  version := version
  moduleRoot := "say \"m\""
  nodes := [⟨"𝄞", none, "a\\b", 0⟩]
  edges := []
  ranks := []

/-- An object for the node, with its members from the last to the first behind an unknown one. The
display name is null. -/
def backwardsNode : Value :=
  objectOf [("x", .array [.null, objectOf [("id", .natural 7)]]),
    ("contained_packages", .natural 0), ("directory", .ofString "a\\b"), ("display_name", .null),
    ("id", .ofString "𝄞")]

/-- An object for the records in the same order. -/
def backwardsValue (version : String) : Value :=
  objectOf [("", objectOf [("version", .bool false), ("version", .otherNumber)]),
    ("ranks", .array []), ("edges", .array []), ("nodes", .array [backwardsNode]),
    ("module_root", .ofString "say \"m\""), ("version", .ofString version)]

theorem proper_backwardsValue (version : String) : (backwardsValue version).Proper := by
  -- the node is proper, the unknown member of it included
  have hnode : backwardsNode.Proper := by
    refine proper_objectOf fun member hmem => ?_
    simp only [List.mem_cons, List.not_mem_nil, or_false] at hmem
    rcases hmem with rfl | rfl | rfl | rfl | rfl
    · refine .array fun item hitem => ?_
      simp only [List.mem_cons, List.not_mem_nil, or_false] at hitem
      rcases hitem with rfl | rfl
      · exact .null
      · exact proper_objectOf fun member hmem => List.mem_singleton.1 hmem ▸ .natural 7
    · exact .natural 0
    · exact .text _
    · exact .null
    · exact .text _
  refine proper_objectOf fun member hmem => ?_
  simp only [List.mem_cons, List.not_mem_nil, or_false] at hmem
  rcases hmem with rfl | rfl | rfl | rfl | rfl | rfl
  · refine proper_objectOf fun member hmem => ?_
    simp only [List.mem_cons, List.not_mem_nil, or_false] at hmem
    rcases hmem with rfl | rfl
    · exact .bool false
    · exact .otherNumber
  · exact .array nofun
  · exact .array nofun
  · exact .array fun item hitem => List.mem_singleton.1 hitem ▸ hnode
  · exact .text _
  · exact .text _

/-- The value stands for the records with one node, although its members stand in another order. -/
theorem isValue_backwardsValue (version : String) :
    (single version).IsValue (backwardsValue version) := by
  have hnode : NodeRecord.IsValue ⟨"𝄞", none, "a\\b", 0⟩ backwardsNode :=
    ⟨some .null, .null, [("x", .array [.null, objectOf [("id", .natural 7)]])], _,
      by simp [nodeNames], List.reverse_perm _, rfl⟩
  exact ⟨[backwardsNode], [], [], .cons hnode .nil, .nil, .nil,
    [("", objectOf [("version", .bool false), ("version", .otherNumber)])], _,
    by simp [recordsNames], List.reverse_perm _, rfl⟩

/-- The order of the members, unknown ones and blanks make no difference. A text with a wrong
version is refused as malformed if it is cut off, lacks a field or is followed by something. -/
theorem ofJson_spelled_backwards :
    let text := fun version => String.ofList ([' '] ++ (backwardsValue version).pretty)
    let lacking := String.ofList (objectOf [("version", .ofString "2")]).pretty
    (∀ version, (single version).Fits ∧ (single version).IsSpelled (text version).toList) ∧
    ofJson (text "1.0.0") = .ok (single "1.0.0") ∧
    ofJson (text "2") = .error (.version "2") ∧
    IsMalformed (String.toList "\x7b\"version\":\"2\"") ∧
    ofJson "\x7b\"version\":\"2\"" = .error .malformed ∧
    IsMalformed lacking.toList ∧ ofJson lacking = .error .malformed ∧
    IsMalformed (text "2" ++ "1").toList ∧ ofJson (text "2" ++ "1") = .error .malformed := by
  intro text lacking
  have hfits : ∀ version, (single version).Fits := fun version =>
    { containedPackages := by simp [single, Value.greatestNatural]
      weight := nofun
      depth := nofun }
  have hspells : ∀ version, Spells (text version).toList (backwardsValue version) := by
    intro version
    have hblank : AreBlank [' '] := by simp [AreBlank, isBlank]
    rw [String.toList_ofList]
    exact (spells_print (proper_backwardsValue version) 0).blanks_append hblank
  have hspelled : ∀ version, (single version).IsSpelled (text version).toList := fun version =>
    ⟨_, hspells version, isValue_backwardsValue version⟩
  -- cut off behind the version
  have hopen : IsMalformed (String.toList "\x7b\"version\":\"2\"") :=
    .notJson (ofText?_eq_none_iff.1 (by decide +kernel))
  -- without any other field
  have hlacks : IsMalformed lacking.toList := by
    have hproper : (objectOf [("version", .ofString "2")]).Proper :=
      proper_objectOf fun member hmem => List.mem_singleton.1 hmem ▸ .text "2"
    rw [String.toList_ofList]
    exact .faulty (spells_print hproper 0) (.inl (.inl ⟨"nodes", by decide, rfl⟩))
  -- with a number behind it
  have hbehind : IsMalformed (text "2" ++ "1").toList := by
    rw [String.toList_append]
    exact .trailing (hspells "2") fun hblank => absurd (hblank '1' (by decide)) (by decide)
  exact ⟨fun version => ⟨hfits version, hspelled version⟩,
    (ofJson_spelled _).1 _ (hfits _) (hspelled _), (ofJson_spelled _).1 _ (hfits _) (hspelled _),
    hopen, (ofJson_spelled _).2 hopen, hlacks, (ofJson_spelled _).2 hlacks, hbehind,
    (ofJson_spelled _).2 hbehind⟩

end PackageGraph.Records
