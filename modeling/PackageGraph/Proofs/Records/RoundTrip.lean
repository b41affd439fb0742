import PackageGraph.OutputFormat
import PackageGraph.Proofs.Json.Pretty
import PackageGraph.Proofs.Records.Fields

/-!
# Records read back

Records that are written as JSON are the records that are read from it (`Records.ofJson_toJson`).

A text is read in two stages, and either undoes what was done to write it: the value is read back
from its pretty text (`Value.ofText?_pretty`), and records from their value, since this is a value
that stands for them (`Records.isValue_toValue`).

Numbers are read only as far as they fit into 64 bits, so those of the records have to
(`Records.Fits`).
-/

namespace PackageGraph

open Json

/-! ### Values that are written as they are -/

theorem proper_objectOf {members : List (String × Value)}
    (h : ∀ member ∈ members, member.2.Proper) : (objectOf members).Proper := by
  refine .object (fun member hmem => ?_) (fun member hmem => ?_)
  · obtain ⟨_, -, rfl⟩ := List.mem_map.1 hmem
    rfl
  · obtain ⟨member, hmember, rfl⟩ := List.mem_map.1 hmem
    exact h member hmember

/-! ### Single records -/

/-- What is written for a node stands for the node. -/
theorem NodeRecord.isValue_toValue (node : NodeRecord) : node.IsValue node.toValue := by
  cases hname : node.displayName with
  | none =>
    refine ⟨none, hname ▸ .absent, ?_⟩
    rw [toValue, hname]
    exact isObject_objectOf nodeNames _
  | some name =>
    refine ⟨some (.ofString name), hname ▸ .text name, ?_⟩
    rw [toValue, hname]
    exact isObject_objectOf nodeNames _

theorem EdgeRecord.isValue_toValue (edge : EdgeRecord) : edge.IsValue edge.toValue :=
  isObject_objectOf edgeNames _

theorem RankRecord.isValue_toValue (rank : RankRecord) : rank.IsValue rank.toValue :=
  isObject_objectOf rankNames _

/-- What is written for a node is proper, with a display name or without. -/
theorem NodeRecord.proper_toValue (node : NodeRecord) : node.toValue.Proper := by
  refine proper_objectOf fun member hmem => ?_
  cases hname : node.displayName with
  | none =>
    simp only [hname, Option.map_none, Option.toList_none, List.nil_append, List.cons_append,
      List.mem_cons, List.not_mem_nil, or_false] at hmem
    rcases hmem with rfl | rfl | rfl
    · exact .text _
    · exact .text _
    · exact .natural _
  | some name =>
    simp only [hname, Option.map_some, Option.toList_some, List.nil_append, List.cons_append,
      List.mem_cons, List.not_mem_nil, or_false] at hmem
    rcases hmem with rfl | rfl | rfl | rfl
    · exact .text _
    · exact .text _
    · exact .text _
    · exact .natural _

theorem EdgeRecord.proper_toValue (edge : EdgeRecord) : edge.toValue.Proper := by
  refine proper_objectOf fun member hmem => ?_
  simp only [List.mem_cons, List.not_mem_nil, or_false] at hmem
  rcases hmem with rfl | rfl | rfl | rfl
  · exact .text _
  · exact .text _
  · exact .natural _
  · exact .bool _

theorem RankRecord.proper_toValue (rank : RankRecord) : rank.toValue.Proper := by
  refine proper_objectOf fun member hmem => ?_
  simp only [List.mem_cons, List.not_mem_nil, or_false] at hmem
  rcases hmem with rfl | rfl
  · exact .natural _
  · exact Value.proper_array_map fun _ _ => .text _

/-! ### All records -/

namespace Records

/-- **What is written for records stands for them.** -/
theorem isValue_toValue (records : Records) : records.IsValue records.toValue := by
  refine ⟨records.nodes.map NodeRecord.toValue, records.edges.map EdgeRecord.toValue,
    records.ranks.map RankRecord.toValue, ?_, ?_, ?_, isObject_objectOf recordsNames _⟩
  · rw [List.forall₂_map_right_iff]
    exact List.forall₂_same.2 fun node _ => node.isValue_toValue
  · rw [List.forall₂_map_right_iff]
    exact List.forall₂_same.2 fun edge _ => edge.isValue_toValue
  · rw [List.forall₂_map_right_iff]
    exact List.forall₂_same.2 fun rank _ => rank.isValue_toValue

/-- **What is written for records is proper.** -/
theorem proper_toValue (records : Records) : records.toValue.Proper := by
  refine proper_objectOf fun member hmem => ?_
  simp only [List.mem_cons, List.not_mem_nil, or_false] at hmem
  rcases hmem with rfl | rfl | rfl | rfl | rfl
  · exact .text _
  · exact .text _
  · exact Value.proper_array_map fun node _ => node.proper_toValue
  · exact Value.proper_array_map fun edge _ => edge.proper_toValue
  · exact Value.proper_array_map fun rank _ => rank.proper_toValue

/-- What is read of written records is decided by their version alone. -/
theorem ofJson_toJson_append {records : Records} (h : records.Fits) (blanks : String)
    (hblanks : ∀ c ∈ blanks.toList, isBlank c = true) :
    ofJson (records.toJson ++ blanks) =
      if records.version = currentVersion then .ok records
      else .error (.version records.version) := by
  have htext : (records.toJson ++ blanks).toList = records.toValue.pretty ++ blanks.toList := by
    rw [String.toList_append, toJson, String.toList_ofList]
  rw [ofJson, htext, Value.ofText?_pretty records.proper_toValue hblanks, Option.bind_some,
    ofValue?_of_isValue h records.isValue_toValue]

/-- **Records are read back from the JSON they are written as**, from the bare text as well as from
an exported one, if they have the version that is read; records of any other version are refused by
that version. -/
theorem ofJson_toJson {records : Records} (h : records.Fits) (options : DrawingOptions) :
    (records.version = currentVersion →
      ofJson records.toJson = .ok records ∧
        ofJson (OutputFormat.json.write records options) = .ok records) ∧
    (records.version ≠ currentVersion →
      ofJson records.toJson = .error (.version records.version)) := by
  have hbare := ofJson_toJson_append h "" (by simp)
  have hexport := ofJson_toJson_append h "\n" (by simp [isBlank])
  rw [String.append_empty] at hbare
  constructor
  · intro hversion
    rw [if_pos hversion] at hbare hexport
    exact ⟨hbare, hexport⟩
  · intro hversion
    rw [hbare, if_neg hversion]

/-- Records with all that is hard to write: quotes, backslashes, control characters, characters
beyond the first plane, empty texts and lists, and the largest number. -/
def thorny (version : String) : Records where
  version := version
  moduleRoot := "say \"hi\" \\u0041 \x01\t\n\x7f"
  nodes :=
    [⟨"𝄞/é", some "", "\\", 0⟩, ⟨"", none, "a/b", Value.greatestNatural⟩,
      ⟨"", some "null", "\r\n", 1⟩]
  edges := [⟨"𝄞/é", "", Value.greatestNatural, true⟩, ⟨"", "", 0, false⟩]
  ranks := [⟨0, []⟩, ⟨Value.greatestNatural, ["", "\"", "𝄞"]⟩]

/-- They are read back all the same, and refused under another version. -/
theorem ofJson_toJson_thorny :
    (thorny "1.0.0").Fits ∧
      ofJson (thorny "1.0.0").toJson = .ok (thorny "1.0.0") ∧
      ofJson (OutputFormat.json.write (thorny "1.0.0") default) = .ok (thorny "1.0.0") ∧
      ofJson (thorny "1.0").toJson = .error (.version "1.0") := by
  have hfits : ∀ version, (thorny version).Fits := fun _ =>
    { containedPackages := by simp [thorny, Value.greatestNatural]
      weight := by simp [thorny, Value.greatestNatural]
      depth := by simp [thorny, Value.greatestNatural] }
  have hread := (ofJson_toJson (hfits "1.0.0") default).1 rfl
  have hrefused := (ofJson_toJson (hfits "1.0") default).2 (by decide)
  exact ⟨hfits "1.0.0", hread.1, hread.2, hrefused⟩

end Records

end PackageGraph
