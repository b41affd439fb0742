import PackageGraph.Json.Printer
import PackageGraph.Json.Reader
import PackageGraph.Records

/-!
# Records as JSON

Records are written as objects whose members stand in a fixed order. They are read more freely: the
members may come in any order and be joined by unknown ones, and an array of the fields in that
order will do as well.

## Main definitions

* `Records.toJson`: the pretty text of records.
* `Records.ofJson`: the records of a text, if they have the right version.
-/

namespace PackageGraph

open Json

/-! ### Writing -/

/-- The JSON value of a list of texts. -/
def textsToValue (texts : List String) : Value := .array (texts.map .ofString)

/-- The object of some members. -/
def objectOf (members : List (String × Value)) : Value :=
  .object (members.map fun (key, value) => (some key, value))

/-- A node's object; a node without a display name has no member for it. -/
def NodeRecord.toValue (node : NodeRecord) : Value :=
  objectOf <|
    ("id", .ofString node.id) ::
      (node.displayName.map fun name => ("display_name", Value.ofString name)).toList ++
      [("directory", .ofString node.directory),
        ("contained_packages", .natural node.containedPackages)]

/-- The object of an edge. -/
def EdgeRecord.toValue (edge : EdgeRecord) : Value :=
  objectOf
    [("source", .ofString edge.source), ("destination", .ofString edge.destination),
      ("weight", .natural edge.weight), ("forbidden", .bool edge.forbidden)]

/-- The object of a rank. -/
def RankRecord.toValue (rank : RankRecord) : Value :=
  objectOf [("depth", .natural rank.depth), ("members", textsToValue rank.members)]

/-- The object of all records. -/
def Records.toValue (records : Records) : Value :=
  objectOf
    [("version", .ofString records.version), ("module_root", .ofString records.moduleRoot),
      ("nodes", .array (records.nodes.map NodeRecord.toValue)),
      ("edges", .array (records.edges.map EdgeRecord.toValue)),
      ("ranks", .array (records.ranks.map RankRecord.toValue))]

/-- The pretty text of records. -/
def Records.toJson (records : Records) : String := .ofList records.toValue.pretty

/-! ### Reading -/

/-- The values of the named fields: for an object, the member of each name, which may be missing
but must not be repeated; for an array, its items, which must be as many as the names. An object
whose keys are not all proper texts has no fields. -/
def fields? (names : List String) : Value → Option (List (Option Value))
  | .array items => if items.length = names.length then some (items.map some) else none
  | .object members => do
    if members.any (·.1.isNone) then none
    names.mapM fun name =>
      match members.filter (·.1 == some name) with
      | [] => some none
      | [(_, value)] => some (some value)
      | _ => none
  | _ => none

/-- A text that may be missing or null. -/
def optionalText? : Option Value → Option (Option String)
  | none => some none
  | some .null => some none
  | some value => value.string?.map some

/-- The node record of a value. -/
def NodeRecord.ofValue? (value : Value) : Option NodeRecord := do
  match ← fields? ["id", "display_name", "directory", "contained_packages"] value with
  | [some id, displayName, some directory, some containedPackages] =>
    return ⟨← id.string?, ← optionalText? displayName, ← directory.string?,
      ← containedPackages.natural?⟩
  | _ => none

/-- The edge record of a value. -/
def EdgeRecord.ofValue? (value : Value) : Option EdgeRecord := do
  match ← fields? ["source", "destination", "weight", "forbidden"] value with
  | [some source, some destination, some weight, some forbidden] =>
    return ⟨← source.string?, ← destination.string?, ← weight.natural?, ← forbidden.bool?⟩
  | _ => none

/-- The rank record of a value. -/
def RankRecord.ofValue? (value : Value) : Option RankRecord := do
  match ← fields? ["depth", "members"] value with
  | [some depth, some members] => return ⟨← depth.natural?, ← members.list? Value.string?⟩
  | _ => none

/-- The records of a value, whatever their version. -/
def Records.ofValue? (value : Value) : Option Records := do
  match ← fields? ["version", "module_root", "nodes", "edges", "ranks"] value with
  | [some version, some moduleRoot, some nodes, some edges, some ranks] =>
    return ⟨← version.string?, ← moduleRoot.string?, ← nodes.list? NodeRecord.ofValue?,
      ← edges.list? EdgeRecord.ofValue?, ← ranks.list? RankRecord.ofValue?⟩
  | _ => none

/-- Why a text gives no records. -/
inductive RecordsError where
  /-- The text is no JSON, or its value does not have the fields of records. -/
  | malformed
  /-- The records have another version than the one that is read. -/
  | version (found : String)
deriving DecidableEq, Inhabited

/-- The wording of a refused version. -/
def RecordsError.message : RecordsError → String
  | .malformed => "graph record serialization failed"
  | .version found =>
    "graph record version mismatch: expected " ++ Records.currentVersion ++ ", found " ++ found

/-- The records of a JSON text. The version is looked at last. -/
def Records.ofJson (text : String) : Except RecordsError Records :=
  match (Value.ofText? text.toList).bind Records.ofValue? with
  | none => .error .malformed
  | some records =>
    if records.version = Records.currentVersion then .ok records
    else .error (.version records.version)

end PackageGraph
