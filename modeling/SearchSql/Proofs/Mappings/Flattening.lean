import Mathlib
import SearchSql.Proofs.LastWrites
import SearchSql.Proofs.OrderedJson
import SearchSql.Proofs.Pieces
import SearchSql.Schema.Mapping

/-!
The names of the fields of a mapping. A field has the names of the fields around it in front of its
own, with points between them, and its type is found by walking down these names.
-/

namespace SearchSql.Mapping

variable {name parent sub : String} {names rest : List String} {definition properties : Json}
  {members : List (String × Json)}

/-- The ways in which a field is indexed besides its own. -/
def alternatives (definition : Json) : List (String × Json) :=
  ((definition.get? "fields").bind Json.members?).getD []

theorem multiFields_eq (field : String) (definition : Json) : multiFields field definition =
    (alternatives definition).flatMap fun sub => typed (field ++ "." ++ sub.1) sub.2 := by
  unfold multiFields alternatives
  cases (definition.get? "fields").bind Json.members? <;> rfl

/-- The fields inside a field. -/
def nestedFields (field : String) (definition : Json) : List (String × FieldType) :=
  ((definition.get? "properties").map (propertyFields field)).getD []

theorem definitionFields_cons (parent name : String) (definition : Json)
    (rest : List (String × Json)) : definitionFields parent ((name, definition) :: rest) =
      typed (path parent name) definition ++ nestedFields (path parent name) definition ++
        multiFields (path parent name) definition ++ definitionFields parent rest := by
  rw [definitionFields, nestedFields]
  congr 3
  split <;> simp [*]

/-- A name that cannot be taken for a dotted one. -/
def IsPlainName (name : String) : Prop := name ≠ "" ∧ '.' ∉ name.toList

instance : DecidablePred IsPlainName := fun name =>
  inferInstanceAs (Decidable (name ≠ "" ∧ '.' ∉ name.toList))

/-- Fields and the other ways in which they are indexed have plain names, at every level. -/
inductive PlainlyNamed : Json → Prop
  | object {members : List (String × Json)} :
      (∀ member ∈ members, IsPlainName member.1) →
      (∀ member ∈ members, ∀ sub ∈ alternatives member.2, IsPlainName sub.1) →
      (∀ member ∈ members, ∀ nested, member.2.get? "properties" = some nested →
        PlainlyNamed nested) → PlainlyNamed (.object members)
  | other {properties : Json} : properties.members? = none → PlainlyNamed properties

/-- The type that is found by walking down the names of a path. The last name may be that of another
way in which the field in front of it is indexed, which hides a field inside that one. -/
def walk : List String → Json → Option FieldType
  | [], _ => none
  | [name], properties => (properties.get? name).bind fieldType?
  | name :: sub :: rest, properties =>
    (properties.get? name).bind fun definition =>
      (if rest = [] then ((definition.get? "fields").bind (·.get? sub)).bind fieldType?
        else none).or
      ((definition.get? "properties").bind fun nested => walk (sub :: rest) nested)

/-- The place of a field itself, if its definition has a type. -/
def ownPlace (definition : Json) : List (List String × FieldType) :=
  match fieldType? definition with
  | some type => [([], type)]
  | none => []

/-- A place one level further down. -/
def below (name : String) (place : List String × FieldType) : List String × FieldType :=
  (name :: place.1, place.2)

/-- The places within definitions, below the names of the fields. -/
def placesBelow (within : Json → List (List String × FieldType)) (members : List (String × Json)) :
    List (List String × FieldType) :=
  members.flatMap fun member => (within member.2).map (below member.1)

mutual

/-- The fields that properties describe, by the names on the way to them. -/
def places : Json → List (List String × FieldType)
  | .object members => memberPlaces members
  | _ => []
termination_by properties => sizeOf properties

def memberPlaces : List (String × Json) → List (List String × FieldType)
  | [] => []
  | (name, definition) :: rest =>
    let nested := match _h : definition.get? "properties" with
      | some properties => places properties
      | none => []
    (ownPlace definition ++ nested ++ placesBelow ownPlace (alternatives definition)).map
      (below name) ++ memberPlaces rest
termination_by members => sizeOf members
decreasing_by
  · have := sizeOf_get? _h
    simp only [List.cons.sizeOf_spec, Prod.mk.sizeOf_spec]
    omega
  · simp only [List.cons.sizeOf_spec]
    omega

end

/-- The places inside a field. -/
def nestedPlaces (definition : Json) : List (List String × FieldType) :=
  ((definition.get? "properties").map places).getD []

/-- The place of a field, those inside it, and those of the other ways in which it is indexed. -/
def placesWithin (definition : Json) : List (List String × FieldType) :=
  ownPlace definition ++ nestedPlaces definition ++ placesBelow ownPlace (alternatives definition)

theorem placesBelow_cons (within : Json → List (List String × FieldType)) (member : String × Json)
    (members : List (String × Json)) : placesBelow within (member :: members) =
      (within member.2).map (below member.1) ++ placesBelow within members := rfl

theorem memberPlaces_eq (members : List (String × Json)) :
    memberPlaces members = placesBelow placesWithin members := by
  induction members with
  | nil =>
    rw [memberPlaces]
    rfl
  | cons member members ih =>
    rw [memberPlaces, ih, placesBelow_cons, placesWithin, nestedPlaces]
    congr 4
    split <;> simp [*]

theorem places_object (members : List (String × Json)) :
    places (.object members) = placesBelow placesWithin members := by
  rw [places, memberPlaces_eq]

theorem places_of_members?_eq_none (h : properties.members? = none) : places properties = [] := by
  cases properties with
  | object members => cases h
  | _ => simp [places]

section names

variable {place : List String × FieldType} {within : Json → List (List String × FieldType)}

theorem mem_placesBelow : place ∈ placesBelow within members ↔
    ∃ member ∈ members, ∃ inner ∈ within member.2, place = below member.1 inner := by
  simp only [placesBelow, List.mem_flatMap, List.mem_map, eq_comm]

theorem mem_ownPlace (h : place ∈ ownPlace definition) : place.1 = [] := by
  unfold ownPlace at h
  split at h
  · rw [List.mem_singleton.1 h]
  · cases h

theorem mem_nestedPlaces : place ∈ nestedPlaces definition ↔
    ∃ nested, definition.get? "properties" = some nested ∧ place ∈ places nested := by
  unfold nestedPlaces
  cases definition.get? "properties" <;> simp

/-- Plain names, and at least one of them. -/
def IsPath (names : List String) : Prop := names ≠ [] ∧ ∀ name ∈ names, IsPlainName name

theorem isPath_of_mem_places (h : PlainlyNamed properties) :
    ∀ place ∈ places properties, IsPath place.1 := by
  induction h with
  | other hnone => simp [places_of_members?_eq_none hnone]
  | @object members hnames hsubs _ ih =>
    intro place hplace
    rw [places_object, mem_placesBelow] at hplace
    obtain ⟨member, hmember, inner, hinner, rfl⟩ := hplace
    refine ⟨List.cons_ne_nil _ _, List.forall_mem_cons.2 ⟨hnames member hmember, ?_⟩⟩
    rw [placesWithin, List.mem_append, List.mem_append] at hinner
    rcases hinner with (hown | hnested) | halternative
    · simp [mem_ownPlace hown]
    · obtain ⟨nested, hnested, hinner⟩ := mem_nestedPlaces.1 hnested
      exact (ih member hmember nested hnested inner hinner).2
    · obtain ⟨sub, hsub, own, hown, rfl⟩ := mem_placesBelow.1 halternative
      simp only [below, mem_ownPlace hown]
      exact List.forall_mem_singleton.2 (hsubs member hmember sub hsub)

end names

section lookup

variable {within : Json → List (List String × FieldType)}

theorem lastWrite_below (name first : String) (rest : List String)
    (writes : List (List String × FieldType)) :
    lastWrite (first :: rest) (writes.map (below name)) =
      if name = first then lastWrite rest writes else none := by
  split
  · next hname =>
    subst hname
    exact lastWrite_map (name :: ·) fun _ _ heq => (List.cons.inj heq).2
  · next hname =>
    rw [lastWrite_eq_none_iff]
    intro write hwrite heq
    obtain ⟨inner, _, rfl⟩ := List.mem_map.1 hwrite
    exact hname (List.cons.inj heq).1

theorem lastWrite_nil_placesBelow (within : Json → List (List String × FieldType))
    (members : List (String × Json)) : lastWrite [] (placesBelow within members) = none := by
  rw [lastWrite_eq_none_iff]
  intro place hplace
  obtain ⟨member, _, inner, _, rfl⟩ := mem_placesBelow.1 hplace
  exact List.cons_ne_nil _ _

/-- Below a name are the places within the one field of that name. -/
theorem lastWrite_placesBelow (within : Json → List (List String × FieldType))
    (h : Keyed.Ascending members) (name : String) (rest : List String) :
    lastWrite (name :: rest) (placesBelow within members) =
      (Keyed.find? name members).bind fun definition => lastWrite rest (within definition) := by
  induction members with
  | nil => rfl
  | cons member members ih =>
    obtain ⟨hfirst, htail⟩ := List.pairwise_cons.1 h
    rw [placesBelow_cons, lastWrite_append, ih htail, lastWrite_below, Keyed.find?_cons]
    split
    · next hname =>
      subst hname
      rw [Keyed.find?_eq_none_of_lt hfirst]
      rfl
    · rw [Option.or_none]

theorem lastWrite_ownPlace (names : List String) (definition : Json) :
    lastWrite names (ownPlace definition) = if names = [] then fieldType? definition else none := by
  unfold ownPlace
  cases fieldType? definition <;> simp [lastWrite_cons, eq_comm]

theorem find?_alternatives (sub : String) (definition : Json) :
    Keyed.find? sub (alternatives definition) = (definition.get? "fields").bind (·.get? sub) := by
  unfold alternatives
  cases definition.get? "fields" with
  | none => rfl
  | some subs => cases subs <;> rfl

theorem ascending_alternatives (h : definition.Ordered) :
    Keyed.Ascending (alternatives definition) := by
  unfold alternatives
  cases hfields : definition.get? "fields" with
  | none => exact .nil
  | some subs =>
    cases h.get? hfields with
    | object hascending _ => exact hascending
    | _ => exact .nil

/-- No names lead to properties themselves. -/
theorem lastWrite_nil_places (properties : Json) : lastWrite [] (places properties) = none := by
  cases properties with
  | object members => rw [places_object, lastWrite_nil_placesBelow]
  | _ => rw [places_of_members?_eq_none rfl, lastWrite_nil]

theorem lastWrite_nestedPlaces (names : List String) (definition : Json) :
    lastWrite names (nestedPlaces definition) =
      (definition.get? "properties").bind fun nested => lastWrite names (places nested) := by
  unfold nestedPlaces
  cases definition.get? "properties" <;> rfl

theorem lastWrite_placesWithin (h : definition.Ordered) (names : List String) :
    lastWrite names (placesWithin definition) = match names with
      | [] => fieldType? definition
      | sub :: rest =>
        (if rest = [] then ((definition.get? "fields").bind (·.get? sub)).bind fieldType?
          else none).or
        ((definition.get? "properties").bind fun nested =>
          lastWrite (sub :: rest) (places nested)) := by
  rw [placesWithin, lastWrite_append, lastWrite_append, lastWrite_nestedPlaces, lastWrite_ownPlace]
  cases names with
  | nil => simp [lastWrite_nil_placesBelow, lastWrite_nil_places]
  | cons sub rest =>
    rw [lastWrite_placesBelow _ (ascending_alternatives h), find?_alternatives]
    simp only [lastWrite_ownPlace, reduceCtorEq, ↓reduceIte, Option.or_none]
    congr 1
    split <;> simp

theorem lastWrite_cons_places (h : properties.Ordered) (name : String) (rest : List String) :
    lastWrite (name :: rest) (places properties) =
      (properties.get? name).bind fun definition => lastWrite rest (placesWithin definition) := by
  cases h with
  | object hascending _ =>
    rw [places_object, lastWrite_placesBelow _ hascending]
    rfl
  | _ =>
    rw [places_of_members?_eq_none rfl]
    rfl

/-- The last type that is written for a path is the one that walking down its names finds. -/
theorem lastWrite_places (h : properties.Ordered) (names : List String) :
    lastWrite names (places properties) = walk names properties := by
  induction names generalizing properties with
  | nil => rw [lastWrite_nil_places, walk]
  | cons name rest ih =>
    rw [lastWrite_cons_places h]
    cases hname : properties.get? name with
    | none => cases rest <;> simp [walk, hname]
    | some definition =>
      have hdefinition := h.get? hname
      rw [Option.bind_some, lastWrite_placesWithin hdefinition]
      cases rest with
      | nil => simp [walk, hname]
      | cons sub rest =>
        simp only [walk, hname, Option.bind_some]
        cases hproperties : definition.get? "properties" with
        | none => rfl
        | some nested => simp only [Option.bind_some, ih (hdefinition.get? hproperties)]

end lookup

section dotted

/-- The full name of a field by the names on the way to it. -/
def dotted (names : List String) : String := ".".intercalate names

theorem append_ne_empty (h : name ≠ "") (front : String) : front ++ name ≠ "" := by
  intro heq
  exact h (String.append_eq_empty_iff.1 heq).2

theorem path_of_ne (h : parent ≠ "") (name : String) : path parent name = parent ++ "." ++ name :=
  if_neg h

theorem path_ne_empty (h : name ≠ "") (parent : String) : path parent name ≠ "" := by
  unfold path
  split
  · exact h
  · exact append_ne_empty h _

theorem dotted_cons_cons (name sub : String) (rest : List String) :
    dotted (name :: sub :: rest) = name ++ "." ++ dotted (sub :: rest) :=
  String.intercalate_cons_cons

theorem foldl_path_of_ne (hparent : parent ≠ "") (names : List String) :
    names.foldl path parent = dotted (parent :: names) := by
  induction names generalizing parent with
  | nil => exact String.intercalate_singleton.symm
  | cons name names ih =>
    have hne : parent ++ "." ++ name ≠ "" := by
      intro heq
      exact hparent (String.append_eq_empty_iff.1 (String.append_eq_empty_iff.1 heq).1).1
    rw [List.foldl_cons, path_of_ne hparent, ih hne, dotted_cons_cons]
    cases names with
    | nil => simp [dotted]
    | cons sub names => simp only [dotted_cons_cons, String.append_assoc]

/-- Names that are put together one by one make up the full name. -/
theorem foldl_path (h : IsPath names) : names.foldl path "" = dotted names := by
  obtain ⟨hne, hnames⟩ := h
  cases names with
  | nil => exact (hne rfl).elim
  | cons name rest => exact foldl_path_of_ne (hnames name List.mem_cons_self).1 rest

/-- The field at a place. -/
def located (parent : String) (place : List String × FieldType) : String × FieldType :=
  (place.1.foldl path parent, place.2)

theorem typed_eq_map (field : String) (definition : Json) :
    typed field definition = (ownPlace definition).map (located field) := by
  unfold typed ownPlace
  cases fieldType? definition <;> rfl

theorem definitionFields_eq_flatMap (parent : String) (members : List (String × Json)) :
    definitionFields parent members = members.flatMap fun member =>
      typed (path parent member.1) member.2 ++ nestedFields (path parent member.1) member.2 ++
        multiFields (path parent member.1) member.2 := by
  induction members with
  | nil => rw [definitionFields, List.flatMap_nil]
  | cons member members ih => rw [definitionFields_cons, ih, List.flatMap_cons]

theorem multiFields_eq_map {field : String} (h : field ≠ "") (definition : Json) :
    multiFields field definition =
      (placesBelow ownPlace (alternatives definition)).map (located field) := by
  rw [multiFields_eq, placesBelow, List.map_flatMap]
  refine List.flatMap_congr fun sub _ => ?_
  rw [← path_of_ne h, typed_eq_map, List.map_map]
  rfl

/-- The fields of properties are those at their places. -/
theorem propertyFields_eq_map (h : PlainlyNamed properties) (parent : String) :
    propertyFields parent properties = (places properties).map (located parent) := by
  induction h generalizing parent with
  | @other properties hnone =>
    rw [places_of_members?_eq_none hnone]
    cases properties with
    | object members => cases hnone
    | _ => simp [propertyFields]
  | @object members hnames _ _ ih =>
    rw [propertyFields, definitionFields_eq_flatMap, places_object, placesBelow, List.map_flatMap]
    refine List.flatMap_congr fun member hmember => ?_
    have hfield := path_ne_empty (hnames member hmember).1 parent
    have hnested : nestedFields (path parent member.1) member.2 =
        (nestedPlaces member.2).map (located (path parent member.1)) := by
      unfold nestedFields nestedPlaces
      cases hproperties : member.2.get? "properties" with
      | none => rfl
      | some nested => exact ih member hmember nested hproperties (path parent member.1)
    rw [typed_eq_map, hnested, multiFields_eq_map hfield, ← List.map_append, ← List.map_append,
      List.map_map]
    rfl

theorem dotted_injective {names' : List String} (hne : names ≠ []) (hne' : names' ≠ [])
    (h : ∀ name ∈ names, '.' ∉ name.toList) (h' : ∀ name ∈ names', '.' ∉ name.toList)
    (heq : dotted names = dotted names') : names = names' := by
  have hsep : ".".toList = ['.'] := rfl
  rw [← (pieces_intercalate_iff hsep hne).2 h, ← (pieces_intercalate_iff hsep hne').2 h']
  exact congrArg (pieces '.') heq

end dotted

end SearchSql.Mapping

namespace SearchSql.Schema

open Mapping

variable {properties : Json}

theorem get?_ofMapping_properties (h : PlainlyNamed properties) (field : String) :
    (ofMapping (.single "properties" properties)).get? field =
      lastWrite field ((places properties).map fun place => (dotted place.1, place.2)) := by
  have hproperties : fields (.single "properties" properties) = propertyFields "" properties := by
    simp [Json.single, fields, Keyed.find?]
  rw [ofMapping, get?_ofPairs, hproperties, propertyFields_eq_map h]
  congr 1
  refine List.map_congr_left fun place hplace => ?_
  rw [located, foldl_path (isPath_of_mem_places h place hplace)]

theorem exists_place_of_get? {field : String} {type : FieldType} (h : PlainlyNamed properties)
    (hget : (ofMapping (.single "properties" properties)).get? field = some type) :
    ∃ place ∈ places properties, field = dotted place.1 := by
  rw [get?_ofMapping_properties h] at hget
  obtain ⟨place, hplace, heq⟩ := List.mem_map.1 (mem_of_lastWrite hget)
  exact ⟨place, hplace, (congrArg Prod.fst heq).symm⟩

/-- Dotted names are told apart by their names, so that no field takes the place of another. -/
theorem get?_ofMapping_dotted (h : PlainlyNamed properties) {names : List String} (hne : names ≠ [])
    (hnames : ∀ name ∈ names, '.' ∉ name.toList) :
    (ofMapping (.single "properties" properties)).get? (dotted names) =
      lastWrite names (places properties) := by
  rw [get?_ofMapping_properties h]
  refine lastWrite_map dotted fun place hplace heq => ?_
  obtain ⟨hne', hplain⟩ := isPath_of_mem_places h place hplace
  exact dotted_injective hne' hne (fun name hname => (hplain name hname).2) hnames heq

theorem get?_ofMapping_eq_walk (hordered : properties.Ordered) (hnames : PlainlyNamed properties)
    {names : List String} (hne : names ≠ []) (h : ∀ name ∈ names, '.' ∉ name.toList) :
    (ofMapping (.single "properties" properties)).get? (dotted names) = walk names properties := by
  rw [get?_ofMapping_dotted hnames hne h, lastWrite_places hordered]

theorem exists_path_of_mem_entries (hordered : properties.Ordered)
    (hnames : PlainlyNamed properties) {entry : String × FieldType}
    (hentry : entry ∈ (ofMapping (.single "properties" properties)).entries) :
    ∃ names, IsPath names ∧ entry.1 = dotted names ∧ walk names properties = some entry.2 := by
  have hfind := (Keyed.find?_eq_some_iff (ofMapping _).ascending).2 hentry
  obtain ⟨place, hplace, hfield⟩ := exists_place_of_get? hnames hfind
  have hpath := isPath_of_mem_places hnames place hplace
  refine ⟨place.1, hpath, hfield, ?_⟩
  rw [← get?_ofMapping_eq_walk hordered hnames hpath.1 fun name hname => (hpath.2 name hname).2,
    ← hfield]
  exact hfind

/-- A dotted name has the type that walking down its names finds, and there are no other entries. -/
theorem ofMapping_eq_walk (hordered : properties.Ordered)
    (hnames : PlainlyNamed properties) :
    (∀ names : List String, names ≠ [] → (∀ name ∈ names, '.' ∉ name.toList) →
      (ofMapping (.single "properties" properties)).get? (dotted names) = walk names properties) ∧
    ∀ entry ∈ (ofMapping (.single "properties" properties)).entries,
      ∃ names, IsPath names ∧ entry.1 = dotted names ∧ walk names properties = some entry.2 :=
  ⟨fun _ => get?_ofMapping_eq_walk hordered hnames,
    fun _ => exists_path_of_mem_entries hordered hnames⟩

/-- A field without a type has another one inside, which is hidden by one of the ways in which the
outer field is indexed. -/
theorem ofMapping_eq_walk_hidden :
    let zip (type : String) : Json := .single "zip" (.single "type" (.text type))
    let properties : Json := .single "address" (.object [("fields", zip "keyword"),
      ("properties", zip "long"), ("type", .text "nested")])
    let s := ofMapping (.single "properties" properties)
    properties.Ordered ∧ PlainlyNamed properties ∧ s.get? "address.zip" = some .exact ∧
      s.get? "address" = none := by
  intro zip properties s
  have hzip (type : String) : (zip type).Ordered :=
    Json.ordered_single _ (Json.ordered_single _ (.text type))
  have hordered : properties.Ordered := by
    refine Json.ordered_single _ (.object (by unfold Keyed.Ascending; decide) ?_)
    simp only [List.forall_mem_cons]
    exact ⟨hzip _, hzip _, .text _, List.forall_mem_nil _⟩
  have hplain : IsPlainName "zip" ∧ IsPlainName "address" := by decide
  have hnested : PlainlyNamed (zip "long") := by
    refine .object (List.forall_mem_singleton.2 hplain.1)
      (List.forall_mem_singleton.2 (List.forall_mem_nil _))
      (List.forall_mem_singleton.2 fun nested h => ?_)
    cases h
  have hnames : PlainlyNamed properties := by
    refine .object (List.forall_mem_singleton.2 hplain.2) (List.forall_mem_singleton.2 ?_)
      (List.forall_mem_singleton.2 fun nested h => ?_)
    · exact List.forall_mem_singleton.2 hplain.1
    · cases h
      exact hnested
  have hwalk := (ofMapping_eq_walk hordered hnames).1
  exact ⟨hordered, hnames, hwalk ["address", "zip"] (by decide) (by decide),
    hwalk ["address"] (by decide) (by decide)⟩

/-- Properties that are read from a text are ordered, so of them the same holds with no condition
but that on their names. -/
theorem ofMapping_eq_walk_of_parse? {text : String}
    (hread : Json.parse? text = some (.single "properties" properties))
    (hnames : PlainlyNamed properties) :
    (∀ names : List String, names ≠ [] → (∀ name ∈ names, '.' ∉ name.toList) →
      (ofMapping (.single "properties" properties)).get? (dotted names) = walk names properties) ∧
    ∀ entry ∈ (ofMapping (.single "properties" properties)).entries,
      ∃ names, IsPath names ∧ entry.1 = dotted names ∧ walk names properties = some entry.2 := by
  have hget : (Json.single "properties" properties).get? "properties" = some properties := rfl
  have hordered : properties.Ordered := (Json.ordered_of_parse? hread).get? hget
  exact ⟨fun _ => get?_ofMapping_eq_walk hordered hnames,
    fun _ => exists_path_of_mem_entries hordered hnames⟩

end SearchSql.Schema
