import Mathlib.Data.List.Forall2
import Mathlib.Data.List.Nodup
import PackageGraph.Proofs.Stage
import PackageGraph.Records.Json

/-!
# Fields of records

Which values stand for records, in objects of any order. An object gives a record its fields if it
has the members of these names and beside them only members that no field is named by (`IsObject`).
Every value that stands for records in this sense is read as these records
(`Records.ofValue?_of_isValue`), if their numbers fit into 64 bits (`Records.Fits`).

And which values stand for none: those in which a required field is missing, a field is given more
than once, or a field that is a number is not a natural number of 64 bits (`Shape.Violates`), be it
in the records themselves or in a node, an edge or a rank of them (`Records.IsFaulty`). No such
value is read as records (`Records.ofValue?_eq_none`). What a value gives for a field is said for
objects and arrays alike (`Value.given`), so it makes no difference which of the two is written.
-/

namespace PackageGraph

open Json

/-! ### Objects -/

/-- The value is an object with these members, among others that no field is named by, in any
order. -/
def IsObject (names : List String) (fields : List (String × Value)) (value : Value) : Prop :=
  ∃ (others : List (String × Value)) (members : List (Characters × Value)),
    (∀ other ∈ others, other.1 ∉ names) ∧
    members.Perm ((fields ++ others).map fun (key, value) => (some key, value)) ∧
    value = .object members

theorem isObject_objectOf (names : List String) (fields : List (String × Value)) :
    IsObject names fields (objectOf fields) :=
  ⟨[], _, nofun, by rw [List.append_nil], rfl⟩

/-- A key that is not repeated is that of one entry at most. -/
theorem filter_fst {α : Type} {entries : List (String × α)} (h : (entries.map Prod.fst).Nodup)
    (name : String) :
    entries.filter (·.1 == name) = (entries.lookup name).toList.map fun a => (name, a) := by
  induction entries with
  | nil => rfl
  | cons entry entries ih =>
    obtain ⟨key, a⟩ := entry
    rw [List.map_cons, List.nodup_cons] at h
    rw [List.lookup_cons]
    by_cases hkey : key = name
    · -- the entry is the only one with its key
      have hothers : entries.lookup name = none := by
        rw [List.lookup_eq_none_iff]
        intro other hmem
        have hne : name ≠ other.1 := by
          rintro rfl
          exact h.1 (List.mem_map.2 ⟨other, hmem, hkey.symm⟩)
        simpa using hne
      rw [List.filter_cons_of_pos (by simpa using hkey), ih h.2, hothers, hkey]
      simp
    · -- the entry has another key
      rw [List.filter_cons_of_neg (by simpa using hkey), ih h.2, beq_false_of_ne (Ne.symm hkey)]

/-- Without repetition, a key finds the one entry that has it. -/
theorem filter_fst_eq {α : Type} {entries : List (String × α)} (h : (entries.map Prod.fst).Nodup)
    {name : String} {a : α} (hentry : (name, a) ∈ entries) :
    entries.filter (·.1 == name) = [(name, a)] := by
  have hmem : (name, a) ∈ entries.filter (·.1 == name) :=
    List.mem_filter.2 ⟨hentry, beq_self_eq_true name⟩
  rw [filter_fst h] at hmem ⊢
  cases hlookup : entries.lookup name with
  | none =>
    rw [hlookup] at hmem
    cases hmem
  | some b =>
    rw [hlookup] at hmem
    exact congrArg ([·]) (List.mem_singleton.1 hmem).symm

/-- Among members without repetition, those of a name are the one that is found by it. -/
theorem filter_key {members : List (String × Value)} (h : (members.map Prod.fst).Nodup)
    (name : String) :
    (members.map fun (key, value) => ((some key : Characters), value)).filter (·.1 == some name) =
      (members.lookup name).toList.map fun value => (some name, value) := by
  rw [List.filter_map]
  have hkeys : (fun member : Characters × Value => member.1 == some name) ∘
      (fun (key, value) => ((some key : Characters), value)) =
      fun member : String × Value => member.1 == name := by
    funext member
    simp
  rw [hkeys, filter_fst h, List.map_map]
  rfl

/-- The members of a name are those that the fields have of it, wherever they stand. -/
theorem filter_isObject {names : List String} {fields others : List (String × Value)}
    {members : List (Characters × Value)} (hfields : (fields.map Prod.fst).Nodup)
    (hothers : ∀ other ∈ others, other.1 ∉ names)
    (hperm : members.Perm ((fields ++ others).map fun (key, value) => (some key, value)))
    {name : String} (hname : name ∈ names) :
    members.filter (·.1 == some name) =
      (fields.lookup name).toList.map fun value => (some name, value) := by
  -- the other members have other names
  have hnone : (others.map fun (key, value) => ((some key : Characters), value)).filter
      (·.1 == some name) = [] := by
    rw [List.filter_eq_nil_iff]
    intro member hmember
    obtain ⟨other, hother, rfl⟩ := List.mem_map.1 hmember
    have hne : other.1 ≠ name := fun heq => hothers other hother (heq ▸ hname)
    simpa using hne
  have hfilter := hperm.filter (·.1 == some name)
  rw [List.map_append, List.filter_append, hnone, List.append_nil, filter_key hfields] at hfilter
  -- with one member at most, there is only one order
  cases hlookup : fields.lookup name with
  | none =>
    rw [hlookup] at hfilter
    exact hfilter.eq_nil
  | some value =>
    rw [hlookup] at hfilter
    exact List.perm_singleton.1 hfilter

/-- **A field is the member of its name**, wherever that member stands. -/
theorem fields?_of_isObject {names : List String} {fields : List (String × Value)} {value : Value}
    (h : IsObject names fields value) (hfields : (fields.map Prod.fst).Nodup) :
    fields? names value = some (names.map fun name => fields.lookup name) := by
  obtain ⟨others, members, hothers, hperm, rfl⟩ := h
  -- every key is a text, so the reader gets to the names
  have hkeys : ¬members.any (·.1.isNone) = true := by
    rw [List.any_eq_true]
    rintro ⟨member, hmember, hnone⟩
    obtain ⟨field, -, rfl⟩ := List.mem_map.1 (hperm.mem_iff.1 hmember)
    cases hnone
  rw [fields?, if_neg hkeys]
  refine mapM_eq_pure fun name hname => ?_
  rw [filter_isObject hfields hothers hperm hname]
  cases fields.lookup name with
  | none => rfl
  | some value => rfl

/-! ### Values of records -/

/-- The numbers of the records fit into 64 bits. -/
structure Records.Fits (records : Records) : Prop where
  /-- The counts of groups fit. -/
  containedPackages : ∀ node ∈ records.nodes, node.containedPackages ≤ Value.greatestNatural
  /-- The weights of edges fit. -/
  weight : ∀ edge ∈ records.edges, edge.weight ≤ Value.greatestNatural
  /-- The depths of ranks fit. -/
  depth : ∀ rank ∈ records.ranks, rank.depth ≤ Value.greatestNatural

/-- What may be given for a text that may be missing. -/
inductive IsOptionalText : Option String → Option Value → Prop
  | text (s : String) : IsOptionalText (some s) (some (.ofString s))
  | absent : IsOptionalText none none
  | null : IsOptionalText none (some .null)

/-- The fields of a node, in the order in which an array has them. -/
def nodeNames : List String := ["id", "display_name", "directory", "contained_packages"]

/-- The fields of an edge. -/
def edgeNames : List String := ["source", "destination", "weight", "forbidden"]

/-- The fields of a rank. -/
def rankNames : List String := ["depth", "members"]

/-- The fields of all records. -/
def recordsNames : List String := ["version", "module_root", "nodes", "edges", "ranks"]

/-- The value is an object that stands for the node. -/
def NodeRecord.IsValue (node : NodeRecord) (value : Value) : Prop :=
  ∃ name, IsOptionalText node.displayName name ∧
    IsObject nodeNames
      (("id", .ofString node.id) :: (name.map fun name => ("display_name", name)).toList ++
        [("directory", .ofString node.directory),
          ("contained_packages", .natural node.containedPackages)]) value

/-- The value is an object that stands for the edge. -/
def EdgeRecord.IsValue (edge : EdgeRecord) (value : Value) : Prop :=
  IsObject edgeNames
    [("source", .ofString edge.source), ("destination", .ofString edge.destination),
      ("weight", .natural edge.weight), ("forbidden", .bool edge.forbidden)] value

/-- The value is an object that stands for the rank. -/
def RankRecord.IsValue (rank : RankRecord) (value : Value) : Prop :=
  IsObject rankNames [("depth", .natural rank.depth), ("members", textsToValue rank.members)] value

/-- The value is an object that stands for the records. -/
def Records.IsValue (records : Records) (value : Value) : Prop :=
  ∃ nodes edges ranks, List.Forall₂ NodeRecord.IsValue records.nodes nodes ∧
    List.Forall₂ EdgeRecord.IsValue records.edges edges ∧
    List.Forall₂ RankRecord.IsValue records.ranks ranks ∧
    IsObject recordsNames
      [("version", .ofString records.version), ("module_root", .ofString records.moduleRoot),
        ("nodes", .array nodes), ("edges", .array edges), ("ranks", .array ranks)] value

namespace Json.Value

theorem natural?_natural {n : Nat} (h : n ≤ greatestNatural) : (natural n).natural? = some n :=
  if_pos h

/-- A list is read if each of its items is. -/
theorem list?_array {α : Type} {read : Value → Option α} {P : α → Value → Prop} {items : List α}
    {values : List Value} (h : List.Forall₂ P items values)
    (hread : ∀ item ∈ items, ∀ value, P item value → read value = some item) :
    (array values).list? read = some items := by
  rw [list?]
  induction h with
  | nil => rfl
  | cons hfirst _ ih =>
    obtain ⟨hitem, hothers⟩ := List.forall_mem_cons.1 hread
    rw [List.mapM_cons, hitem _ hfirst, ih hothers]
    rfl

theorem list?_textsToValue (texts : List String) :
    (textsToValue texts).list? Value.string? = some texts := by
  have htexts : List.Forall₂ (fun text value => value = Value.ofString text) texts
      (texts.map .ofString) := by
    rw [List.forall₂_map_right_iff]
    exact List.forall₂_same.2 fun _ _ => rfl
  exact list?_array htexts fun text _ value hvalue => hvalue ▸ string?_ofString text

end Json.Value

/-- A text that may be missing is read, be it missing, null or given. -/
theorem optionalText?_of_isOptionalText {text : Option String} {value : Option Value}
    (h : IsOptionalText text value) : optionalText? value = some text := by
  cases h with
  | text s => rfl
  | absent => rfl
  | null => rfl

/-- A value that stands for a node is read as the node. -/
theorem NodeRecord.ofValue?_of_isValue {node : NodeRecord} {value : Value}
    (hfits : node.containedPackages ≤ Value.greatestNatural) (h : node.IsValue value) :
    NodeRecord.ofValue? value = some node := by
  obtain ⟨name, hname, hobject⟩ := h
  have htext := optionalText?_of_isOptionalText hname
  have hnumber := Value.natural?_natural hfits
  cases name with
  | none =>
    have hfields := fields?_of_isObject hobject (by simp)
    rw [nodeNames] at hfields
    rw [ofValue?, hfields]
    simp [List.lookup_cons, hnumber, htext]
  | some name =>
    have hfields := fields?_of_isObject hobject (by simp)
    rw [nodeNames] at hfields
    rw [ofValue?, hfields]
    simp [List.lookup_cons, hnumber, htext]

theorem EdgeRecord.ofValue?_of_isValue {edge : EdgeRecord} {value : Value}
    (hfits : edge.weight ≤ Value.greatestNatural) (h : edge.IsValue value) :
    EdgeRecord.ofValue? value = some edge := by
  have hfields := fields?_of_isObject h (by simp)
  rw [edgeNames] at hfields
  rw [ofValue?, hfields]
  simp [List.lookup_cons, Value.natural?_natural hfits, Value.bool?]

theorem RankRecord.ofValue?_of_isValue {rank : RankRecord} {value : Value}
    (hfits : rank.depth ≤ Value.greatestNatural) (h : rank.IsValue value) :
    RankRecord.ofValue? value = some rank := by
  have hfields := fields?_of_isObject h (by simp)
  rw [rankNames] at hfields
  rw [ofValue?, hfields]
  simp [List.lookup_cons, Value.natural?_natural hfits, Value.list?_textsToValue]

/-- **A value that stands for records is read as these records.** -/
theorem Records.ofValue?_of_isValue {records : Records} {value : Value} (hfits : records.Fits)
    (h : records.IsValue value) : Records.ofValue? value = some records := by
  obtain ⟨nodes, edges, ranks, hnodes, hedges, hranks, hobject⟩ := h
  have hnodes := Value.list?_array hnodes fun node hmem _ =>
    NodeRecord.ofValue?_of_isValue (hfits.containedPackages node hmem)
  have hedges := Value.list?_array hedges fun edge hmem _ =>
    EdgeRecord.ofValue?_of_isValue (hfits.weight edge hmem)
  have hranks := Value.list?_array hranks fun rank hmem _ =>
    RankRecord.ofValue?_of_isValue (hfits.depth rank hmem)
  have hfields := fields?_of_isObject hobject (by simp)
  rw [recordsNames] at hfields
  rw [ofValue?, hfields]
  simp [List.lookup_cons, hnodes, hedges, hranks]

/-! ### What a value gives for a field -/

/-- The values that are given for a field: those of all members of its name, or the item that
stands in its place in an array. -/
def Json.Value.given (names : List String) (name : String) : Value → List Value
  | .object members => (members.filter (·.1 == some name)).map Prod.snd
  | .array items => ((names.zip items).filter (·.1 == name)).map Prod.snd
  | _ => []

theorem forall₂_of_mapM_eq_some {α β : Type} {f : α → Option β} {as : List α} {bs : List β}
    (h : as.mapM f = some bs) : List.Forall₂ (fun a b => f a = some b) as bs := by
  induction as generalizing bs with
  | nil =>
    obtain rfl : [] = bs := Option.some.inj h
    exact .nil
  | cons a as ih =>
    rw [List.mapM_cons] at h
    obtain ⟨b, hb, h⟩ := Option.bind_eq_some_iff.1 h
    obtain ⟨others, hothers, h⟩ := Option.bind_eq_some_iff.1 h
    obtain rfl := Option.some.inj h
    exact .cons hb (ih hothers)

/-- **What is read for a field is all that is given for it.** -/
theorem forall₂_given {names : List String} (hnames : names.Nodup) {value : Value}
    {fields : List (Option Value)} (h : fields? names value = some fields) :
    List.Forall₂ (fun name field => value.given names name = field.toList) names fields := by
  cases value with
  | array items =>
    rw [fields?] at h
    split at h
    · next hlength =>
      obtain rfl := Option.some.inj h
      -- an array gives every field the item in its place
      rw [List.forall₂_map_right_iff, List.forall₂_iff_zip]
      refine ⟨hlength.symm, fun {name item} hpair => ?_⟩
      have hkeys : ((names.zip items).map Prod.fst).Nodup := by
        rwa [List.map_fst_zip (Nat.le_of_eq hlength.symm)]
      rw [Value.given, filter_fst_eq hkeys hpair]
      rfl
    · cases h
  | object members =>
    rw [fields?] at h
    split at h
    · cases h
    · -- a name without members has no value, and one with several makes reading fail
      refine (forall₂_of_mapM_eq_some h).imp fun name field hfield => ?_
      rw [Value.given]
      split at hfield
      · next hnone =>
        obtain rfl := Option.some.inj hfield
        rw [hnone]
        rfl
      · next key value hone =>
        obtain rfl := Option.some.inj hfield
        rw [hone]
        rfl
      · cases hfield
  | _ => cases h

/-! ### Faulty values -/

/-- The fields of a record: which there are, which of them have to be given, and which of them are
numbers. -/
structure Shape where
  names : List String
  required : List String
  numbers : List String

/-- The fields of a node. The display name may be missing. -/
def nodeShape : Shape where
  names := nodeNames
  required := ["id", "directory", "contained_packages"]
  numbers := ["contained_packages"]

/-- The fields of an edge. All of them have to be given. -/
def edgeShape : Shape := ⟨edgeNames, edgeNames, ["weight"]⟩

/-- The fields of a rank. -/
def rankShape : Shape := ⟨rankNames, rankNames, ["depth"]⟩

/-- The fields of the records, which have no numbers of their own. -/
def recordsShape : Shape := ⟨recordsNames, recordsNames, []⟩

/-- A required field is missing, a field is given more than once, or a field that is a number is
given something else than a natural number of 64 bits. -/
def Shape.Violates (shape : Shape) (value : Value) : Prop :=
  (∃ name ∈ shape.required, value.given shape.names name = []) ∨
  (∃ name ∈ shape.names, 1 < (value.given shape.names name).length) ∨
  ∃ name ∈ shape.numbers, ∃ number ∈ value.given shape.names name,
    ∀ n ≤ Value.greatestNatural, number ≠ .natural n

/-- A list that is given for a field has an item that violates the shape. -/
def HasViolation (shape : Shape) (name : String) (value : Value) : Prop :=
  ∃ items, .array items ∈ value.given recordsNames name ∧ ∃ item ∈ items, shape.Violates item

/-- The value violates the shape of the records, or that of a node, an edge or a rank of them. -/
def Records.IsFaulty (value : Value) : Prop :=
  recordsShape.Violates value ∨ HasViolation nodeShape "nodes" value ∨
    HasViolation edgeShape "edges" value ∨ HasViolation rankShape "ranks" value

/-- What is read violates no shape. -/
theorem Shape.not_violates {shape : Shape} {value : Value} {fields : List (Option Value)}
    (hgiven : List.Forall₂ (fun name field => value.given shape.names name = field.toList)
      shape.names fields)
    (hrequired : ∀ name ∈ shape.required, value.given shape.names name ≠ [])
    (hnumbers : ∀ name ∈ shape.numbers, ∀ number ∈ value.given shape.names name,
      ∃ n, number.natural? = some n) : ¬shape.Violates value := by
  rintro (⟨name, hname, hnone⟩ | ⟨name, hname, htwice⟩ | ⟨name, hname, number, hnumber, hlarge⟩)
  · exact hrequired name hname hnone
  · -- a field has one value at most
    obtain ⟨field, hfield⟩ : ∃ field : Option Value,
        value.given shape.names name = field.toList := by
      obtain ⟨i, hi, rfl⟩ := List.getElem_of_mem hname
      exact ⟨_, hgiven.get hi (hgiven.length_eq ▸ hi)⟩
    rw [hfield] at htwice
    cases field with
    | none => simp at htwice
    | some value => simp at htwice
  · -- a number that is read fits into 64 bits
    obtain ⟨n, hn⟩ := hnumbers name hname number hnumber
    cases number with
    | natural m =>
      rw [Value.natural?] at hn
      split at hn
      · next hm => exact hlarge m hm rfl
      · cases hn
    | _ => cases hn

/-- **A list that is read has no item that violates its shape**, if no such item is read. -/
theorem not_hasViolation {α : Type} {shape : Shape} {name : String} {value list : Value}
    {read : Value → Option α} {found : List α} (hgiven : value.given recordsNames name = [list])
    (hread : list.list? read = some found)
    (h : ∀ item a, read item = some a → ¬shape.Violates item) : ¬HasViolation shape name value := by
  rintro ⟨items, hitems, item, hitem, hviolates⟩
  rw [hgiven, List.mem_singleton] at hitems
  subst hitems
  rw [Value.list?] at hread
  have hall := forall₂_of_mapM_eq_some hread
  obtain ⟨i, hi, rfl⟩ := List.getElem_of_mem hitem
  exact h _ _ (hall.get hi (hall.length_eq ▸ hi)) hviolates

/-- What is read as a node violates no shape of nodes. -/
theorem NodeRecord.not_violates {node : NodeRecord} {value : Value}
    (h : NodeRecord.ofValue? value = some node) : ¬nodeShape.Violates value := by
  rw [ofValue?] at h
  obtain ⟨fields, hfields, h⟩ := Option.bind_eq_some_iff.1 h
  split at h
  · next id displayName directory containedPackages =>
    have hgiven := forall₂_given (by decide) hfields
    simp only [Option.bind_eq_bind, Option.bind_eq_some_iff] at h
    obtain ⟨-, -, -, -, -, -, n, hn, -⟩ := h
    refine Shape.not_violates hgiven ?_ ?_
    · -- the fields that have to be given were given
      simp only [List.forall₂_cons, Option.toList_some] at hgiven
      obtain ⟨hid, -, hdirectory, hnumber, -⟩ := hgiven
      simp [nodeShape, nodeNames, hid, hdirectory, hnumber]
    · -- and the number was read as one
      simp only [List.forall₂_cons, Option.toList_some] at hgiven
      obtain ⟨-, -, -, hnumber, -⟩ := hgiven
      simp [nodeShape, nodeNames, hnumber, hn]
  · cases h

theorem EdgeRecord.not_violates {edge : EdgeRecord} {value : Value}
    (h : EdgeRecord.ofValue? value = some edge) : ¬edgeShape.Violates value := by
  rw [ofValue?] at h
  obtain ⟨fields, hfields, h⟩ := Option.bind_eq_some_iff.1 h
  split at h
  · next source destination weight forbidden =>
    have hgiven := forall₂_given (by decide) hfields
    simp only [Option.bind_eq_bind, Option.bind_eq_some_iff] at h
    obtain ⟨-, -, -, -, n, hn, -⟩ := h
    refine Shape.not_violates hgiven ?_ ?_
    · simp only [List.forall₂_cons, Option.toList_some] at hgiven
      obtain ⟨hsource, hdestination, hweight, hforbidden, -⟩ := hgiven
      simp [edgeShape, edgeNames, hsource, hdestination, hweight, hforbidden]
    · simp only [List.forall₂_cons, Option.toList_some] at hgiven
      obtain ⟨-, -, hweight, -⟩ := hgiven
      simp [edgeShape, edgeNames, hweight, hn]
  · cases h

theorem RankRecord.not_violates {rank : RankRecord} {value : Value}
    (h : RankRecord.ofValue? value = some rank) : ¬rankShape.Violates value := by
  rw [ofValue?] at h
  obtain ⟨fields, hfields, h⟩ := Option.bind_eq_some_iff.1 h
  split at h
  · next depth members =>
    have hgiven := forall₂_given (by decide) hfields
    simp only [Option.bind_eq_bind, Option.bind_eq_some_iff] at h
    obtain ⟨n, hn, -⟩ := h
    refine Shape.not_violates hgiven ?_ ?_
    · simp only [List.forall₂_cons, Option.toList_some] at hgiven
      obtain ⟨hdepth, hmembers, -⟩ := hgiven
      simp [rankShape, rankNames, hdepth, hmembers]
    · simp only [List.forall₂_cons, Option.toList_some] at hgiven
      obtain ⟨hdepth, -⟩ := hgiven
      simp [rankShape, rankNames, hdepth, hn]
  · cases h

/-- **A faulty value is not read as records.** -/
theorem Records.ofValue?_eq_none {value : Value} (h : IsFaulty value) :
    Records.ofValue? value = none := by
  rw [Option.eq_none_iff_forall_ne_some]
  intro records hread
  rw [ofValue?] at hread
  obtain ⟨fields, hfields, hread⟩ := Option.bind_eq_some_iff.1 hread
  split at hread
  · next version moduleRoot nodes edges ranks =>
    have hgiven := forall₂_given (by decide) hfields
    have hviolates : ¬recordsShape.Violates value := by
      refine Shape.not_violates hgiven ?_ nofun
      simp only [List.forall₂_cons, Option.toList_some] at hgiven
      obtain ⟨hversion, hmoduleRoot, hnodes, hedges, hranks, -⟩ := hgiven
      simp [recordsShape, recordsNames, hversion, hmoduleRoot, hnodes, hedges, hranks]
    simp only [List.forall₂_cons, Option.toList_some] at hgiven
    obtain ⟨-, -, hnodes, hedges, hranks, -⟩ := hgiven
    simp only [Option.bind_eq_bind, Option.bind_eq_some_iff] at hread
    obtain ⟨-, -, -, -, foundNodes, hreadNodes, foundEdges, hreadEdges, foundRanks, hreadRanks,
      -⟩ := hread
    -- whatever is faulty is a part that has been read
    rcases h with h | h | h | h
    · exact hviolates h
    · exact not_hasViolation hnodes hreadNodes (fun _ _ => NodeRecord.not_violates) h
    · exact not_hasViolation hedges hreadEdges (fun _ _ => EdgeRecord.not_violates) h
    · exact not_hasViolation hranks hreadRanks (fun _ _ => RankRecord.not_violates) h
  · cases hread

end PackageGraph
