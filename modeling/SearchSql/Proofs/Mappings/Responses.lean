import Mathlib
import SearchSql.Proofs.CompactTexts
import SearchSql.Proofs.Mappings.Flattening
import SearchSql.Proofs.QueryRuns

/-!
Mappings as a server sends them. A response for several indices gives the types that its parts give
when they are merged, one after the other, and what an index is called has no part in it.
-/

namespace SearchSql

namespace Mapping

/-- Writes the type of a field, if its definition has one. -/
def write (s : Schema) (field : String) (definition : Json) : Schema :=
  match fieldType? definition with
  | some type => s.insert field type
  | none => s

/-- Writes the types of the other ways in which a field is indexed. -/
def writeMultiFields (s : Schema) (field : String) (definition : Json) : Schema :=
  (alternatives definition).foldl (fun s sub => write s (field ++ "." ++ sub.1) sub.2) s

mutual

/-- Writes the types of the fields that properties describe, as they are met. -/
def collectProperties (s : Schema) (parent : String) : Json → Schema
  | .object members => collectDefinitions s parent members
  | _ => s
termination_by properties => sizeOf properties

def collectDefinitions (s : Schema) (parent : String) : List (String × Json) → Schema
  | [] => s
  | (name, definition) :: rest =>
    let field := path parent name
    let own := write s field definition
    let nested := match _h : definition.get? "properties" with
      | some properties => collectProperties own field properties
      | none => own
    collectDefinitions (writeMultiFields nested field definition) parent rest
termination_by members => sizeOf members
decreasing_by
  · have := sizeOf_get? _h
    simp only [List.cons.sizeOf_spec, Prod.mk.sizeOf_spec]
    omega
  · simp only [List.cons.sizeOf_spec]
    omega

end

mutual

/-- Writes the types of the fields that a mapping describes into a schema, as they are met. -/
def collect (s : Schema) : Json → Schema
  | .object members =>
    match Keyed.find? "properties" members with
    | some properties => collectProperties s "" properties
    | none => collectMembers s members
  | _ => s

def collectMembers (s : Schema) : List (String × Json) → Schema
  | [] => s
  | (_, value) :: rest => collectMembers (collect s value) rest

end

section collect

variable {members : List (String × Json)}

theorem write_eq (s : Schema) (field : String) (definition : Json) :
    write s field definition = s.insertAll (typed field definition) := by
  unfold write typed
  cases fieldType? definition <;> rfl

theorem writeMultiFields_eq (s : Schema) (field : String) (definition : Json) :
    writeMultiFields s field definition = s.insertAll (multiFields field definition) := by
  rw [writeMultiFields, multiFields_eq]
  induction alternatives definition generalizing s with
  | nil => rfl
  | cons sub subs ih =>
    rw [List.foldl_cons, ih, List.flatMap_cons, Schema.insertAll_append, write_eq]

theorem collectDefinitions_cons (s : Schema) (parent name : String) (definition : Json)
    (rest : List (String × Json)) : collectDefinitions s parent ((name, definition) :: rest) =
      let own := write s (path parent name) definition
      collectDefinitions (writeMultiFields
        (((definition.get? "properties").map (collectProperties own (path parent name))).getD own)
        (path parent name) definition) parent rest := by
  rw [collectDefinitions]
  congr 2
  split <;> simp [*]

mutual

theorem collectProperties_eq (s : Schema) (parent : String) (properties : Json) :
    collectProperties s parent properties = s.insertAll (propertyFields parent properties) := by
  match properties with
  | .object members =>
    rw [collectProperties, propertyFields]
    exact collectDefinitions_eq s parent members
  | .null | .boolean _ | .integer _ | .real _ | .text _ | .list _ =>
    simp only [collectProperties, propertyFields]
    rfl
termination_by sizeOf properties

theorem collectDefinitions_eq (s : Schema) (parent : String) (members : List (String × Json)) :
    collectDefinitions s parent members = s.insertAll (definitionFields parent members) := by
  match members with
  | [] =>
    rw [collectDefinitions, definitionFields]
    rfl
  | (name, definition) :: rest =>
    rw [collectDefinitions_cons]
    dsimp only
    rw [collectDefinitions_eq _ parent rest, writeMultiFields_eq, definitionFields_cons,
      Schema.insertAll_append, Schema.insertAll_append, Schema.insertAll_append, ← write_eq]
    congr 2
    unfold nestedFields
    cases h : definition.get? "properties" with
    | none => rfl
    | some properties =>
      have hsize := sizeOf_get? h
      exact collectProperties_eq _ _ properties
termination_by sizeOf members

end

mutual

/-- Fields that are written as they are met are those that the mapping lists. -/
theorem collect_eq (s : Schema) (mapping : Json) :
    collect s mapping = s.insertAll (fields mapping) := by
  match mapping with
  | .object members =>
    rw [collect, fields]
    cases Keyed.find? "properties" members with
    | some properties => exact collectProperties_eq s "" properties
    | none => exact collectMembers_eq s members
  | .null | .boolean _ | .integer _ | .real _ | .text _ | .list _ => rfl

theorem collectMembers_eq (s : Schema) (members : List (String × Json)) :
    collectMembers s members = s.insertAll (memberFields members) := by
  match members with
  | [] => rfl
  | (_, value) :: rest =>
    rw [collectMembers, memberFields, collect_eq s value, collectMembers_eq _ rest,
      Schema.insertAll_append]

end

theorem collect_eq_merge (s : Schema) (mapping : Json) :
    collect s mapping = s.merge (Schema.ofMapping mapping) := by
  rw [collect_eq, Schema.insertAll_eq_merge]
  rfl

theorem collectMembers_eq_foldl (s : Schema) (members : List (String × Json)) :
    collectMembers s members =
      (members.map fun member => Schema.ofMapping member.2).foldl Schema.merge s := by
  induction members generalizing s with
  | nil => rfl
  | cons member members ih =>
    rw [collectMembers, ih, collect_eq_merge, List.map_cons, List.foldl_cons]

theorem collect_empty (mapping : Json) : collect .empty mapping = Schema.ofMapping mapping :=
  collect_eq .empty mapping

end collect

/-- A response that holds a part for each of some indices. -/
def response (part : String → Json) (indices : List String) : Json :=
  .object (indices.map fun index => (index, part index))

end Mapping

namespace Schema

open Mapping CommandLine

variable {members : List (String × Json)} {key index : String}

/-- Without properties of its own, a mapping is merged from those of its members. -/
theorem ofMapping_object (h : Keyed.find? "properties" members = none) :
    ofMapping (.object members) =
      (members.map fun member => ofMapping member.2).foldl merge .empty := by
  rw [← collect_empty, collect, h, ← collectMembers_eq_foldl]

theorem ofMapping_single (h : key ≠ "properties") (value : Json) :
    ofMapping (.single key value) = ofMapping value := by
  have hnone : Keyed.find? "properties" [(key, value)] = none := by simp [Keyed.find?, h]
  have hmerge : ofMapping (.single key value) = Schema.empty.merge (ofMapping value) :=
    ofMapping_object hnone
  rw [hmerge, ← collect_eq_merge, collect_empty]

theorem find?_properties_eq_none {indices : List String} (h : "properties" ∉ indices)
    (part : String → Json) :
    Keyed.find? "properties" (indices.map fun index => (index, part index)) = none := by
  rw [Option.eq_none_iff_forall_ne_some]
  intro value hfind
  obtain ⟨index, hindex, heq⟩ := List.mem_map.1 (Keyed.mem_of_find? hfind)
  cases heq
  exact h hindex

/-- What the command line gathers from one response for each index is what one response for all of
them gives. -/
theorem buildSchema_eq_ofMapping {world : World} {config : Config} {flags : Flags} {sql : String}
    {statement : Statement} {part : String → Json} (hmapping : flags.mapping = true)
    (hsql : Statement.ofText sql = .ok statement)
    (hindices : "properties" ∉ sortedIndices statement)
    (hanswer : ∀ index ∈ sortedIndices statement,
      world.answer (mappingCall config.server.url index) = .ok (.single index (part index))) :
    ((buildSchema config flags sql).replay world).result = .ok
      ((ofMapping (response part (sortedIndices statement))).merge config.fields) := by
  have hcalls : mappingCalls config flags.mapping sql =
      (sortedIndices statement).map (mappingCall config.server.url) := by
    simp only [mappingCalls, hmapping, hsql]
  have hanswers : ∀ c ∈ mappingCalls config flags.mapping sql, world.answers c = true := by
    rw [hcalls]
    intro c hc
    obtain ⟨index, hindex, rfl⟩ := List.mem_map.1 hc
    rw [World.answers, hanswer index hindex]
    rfl
  have hparts : ((sortedIndices statement).map (mappingCall config.server.url)).map world.mapping =
      (sortedIndices statement).map fun index => ofMapping (part index) := by
    rw [List.map_map]
    refine List.map_congr_left fun index hindex => ?_
    have hname : index ≠ "properties" := fun heq => hindices (heq ▸ hindex)
    rw [Function.comp_apply, World.mapping, hanswer index hindex]
    exact ofMapping_single hname (part index)
  obtain ⟨result, hreplay, hok, _⟩ := replay_buildSchema world config flags sql
  rw [hreplay]
  rcases hok hanswers with rfl | ⟨err, _, herror⟩
  · rw [knownFields, if_pos hmapping, hcalls, hparts, response,
      ofMapping_object (find?_properties_eq_none hindices part), List.map_map]
    rfl
  · cases hsql.symm.trans herror

/-- A mapping without properties of its own is merged from its members, in the order of their bytes.
Any mapping may be read on its own and merged into what is known. The command line, which fetches
one index after the other, gets what one response for all of them gives. -/
theorem ofMapping_merges_parts :
    (∀ members : List (String × Json), Keyed.Ascending members →
      Keyed.find? "properties" members = none →
      members.Pairwise (fun a b => utf8Bytes a.1 < utf8Bytes b.1) ∧
      ofMapping (.object members) =
        (members.map fun member => ofMapping member.2).foldl merge .empty) ∧
    (∀ mapping : Json, collect .empty mapping = ofMapping mapping ∧
      ∀ s, collect s mapping = s.merge (ofMapping mapping)) ∧
    ∀ (world : World) (config : Config) (flags : Flags) (sql : String) (statement : Statement)
      (part : String → Json), flags.mapping = true → Statement.ofText sql = .ok statement →
      "properties" ∉ sortedIndices statement →
      (∀ index ∈ sortedIndices statement,
        world.answer (mappingCall config.server.url index) = .ok (.single index (part index))) →
      (sortedIndices statement).Pairwise (utf8Bytes · < utf8Bytes ·) ∧
      ((buildSchema config flags sql).replay world).result = .ok
        ((ofMapping (response part (sortedIndices statement))).merge config.fields) := by
  refine ⟨fun members hascending hnone => ⟨hascending.imp utf8Bytes_lt_of_lt, ?_⟩,
    fun mapping => ⟨collect_empty mapping, fun s => collect_eq_merge s mapping⟩, ?_⟩
  · exact ofMapping_object hnone
  · intro world config flags sql statement part hmapping hsql hindices hanswer
    exact ⟨ascending_sortedIndices, buildSchema_eq_ofMapping hmapping hsql hindices hanswer⟩

/-- Both indices have the field, and the later of them tells its type. -/
theorem ofMapping_merges_parts_overlapping :
    let mapping (type : String) : Json := .single "mappings" (.single "properties"
      (.single "n" (.single "type" (.text type))))
    let part (index : String) : Json := mapping (if index = "a" then "long" else "keyword")
    let world : World :=
      { file := fun _ => .missing
        reply := fun c =>
          let index := if c.url = "http://localhost:9200/a/_mapping" then "a" else "b"
          .answer 200 (Json.single index (part index)).compact }
    let flags : Flags := { Flags.none with mapping := true }
    ofMapping (response part ["a", "b"]) =
        (Schema.empty.merge (ofMapping (part "a"))).merge (ofMapping (part "b")) ∧
      ((buildSchema .default flags "SELECT * FROM b, a").replay world).result =
        .ok ((ofMapping (response part ["a", "b"])).merge Config.default.fields) ∧
      (ofMapping (response part ["a", "b"])).get? "n" = some .exact := by
  intro mapping part world flags
  obtain ⟨hobject, _, hbuild⟩ := ofMapping_merges_parts
  have hsql : ∃ s, Statement.ofText "SELECT * FROM b, a" = .ok s ∧ sortedIndices s = ["a", "b"] :=
    ⟨_, by cbv, by cbv⟩
  obtain ⟨s, hsql, hindices⟩ := hsql
  have hread (index : String) :
      Json.parse? (Json.single index (part index)).compact = some (.single index (part index)) := by
    apply Json.parse?_compact
    iterate 5 apply Json.readsBack_single
    apply Json.readsBack_text
  have hanswer : ∀ index ∈ ["a", "b"],
      world.answer (mappingCall Config.default.server.url index) =
        .ok (.single index (part index)) := by
    have ha : (mappingCall Config.default.server.url "a").url =
        "http://localhost:9200/a/_mapping" := by decide
    have hb : (mappingCall Config.default.server.url "b").url ≠
        "http://localhost:9200/a/_mapping" := by decide
    rw [List.forall_mem_cons, List.forall_mem_singleton]
    simp only [World.answer, world, if_pos ha, if_neg hb, Server.readReply, hread]
    exact ⟨rfl, rfl⟩
  have hascending : Keyed.Ascending [("a", part "a"), ("b", part "b")] := by
    simp only [Keyed.Ascending, List.pairwise_pair]
    decide
  have hrun := hbuild world .default flags "SELECT * FROM b, a" s part rfl hsql
    (by rw [hindices]; decide) (by rw [hindices]; exact hanswer)
  rw [hindices] at hrun
  exact ⟨(hobject _ hascending rfl).2, hrun.2, by cbv⟩

/-- What an index is called has no part in the types of its fields, nor has what a type of an index
of the older form is called. Only properties go by their name. -/
theorem ofMapping_ignores_names {index : String} (hindex : index ≠ "properties")
    (properties : Json) :
    ofMapping (.single index (.single "mappings" (.single "properties" properties))) =
      ofMapping (.single "properties" properties) ∧
    ∀ type, type ≠ "properties" →
      ofMapping (.single index (.single "mappings" (.single type
        (.single "properties" properties)))) = ofMapping (.single "properties" properties) := by
  have hmappings : "mappings" ≠ "properties" := by decide
  constructor
  · rw [ofMapping_single hindex, ofMapping_single hmappings]
  · intro type htype
    rw [ofMapping_single hindex, ofMapping_single hmappings, ofMapping_single htype]

theorem ofMapping_ignores_names_legacy :
    let properties := Json.single "age" (.single "type" (.text "long"))
    ofMapping (.single "bank" (.single "mappings" (.single "properties" properties))) =
      ofMapping (.single "properties" properties) ∧
    ofMapping (.single "bank" (.single "mappings" (.single "account"
      (.single "properties" properties)))) = ofMapping (.single "properties" properties) ∧
    (ofMapping (.single "properties" properties)).get? "age" = some .numeric := by
  intro properties
  have hindex : "bank" ≠ "properties" := by decide
  obtain ⟨hcurrent, holder⟩ := ofMapping_ignores_names hindex properties
  exact ⟨hcurrent, holder "account" (by decide), by cbv⟩

/-- A type called properties is taken for the properties of its index, and an index called
properties for the properties of a mapping, in which its mappings are a field around the others. -/
theorem ofMapping_takes_properties_by_name :
    let properties := Json.single "age" (.single "type" (.text "long"))
    ofMapping (.single "bank" (.single "mappings" (.single "properties"
      (.single "properties" properties)))) ≠ ofMapping (.single "properties" properties) ∧
    ofMapping (.single "properties" (.single "mappings"
      (.single "properties" properties))) ≠ ofMapping (.single "properties" properties) := by
  intro properties
  have hage : (ofMapping (.single "properties" properties)).get? "age" = some .numeric := by cbv
  constructor
  · intro heq
    have hnone : (ofMapping (.single "bank" (.single "mappings" (.single "properties"
      (.single "properties" properties))))).get? "age" = none := by cbv
    cases hnone.symm.trans (heq ▸ hage)
  · intro heq
    have hnone : (ofMapping (.single "properties" (.single "mappings"
      (.single "properties" properties)))).get? "age" = none := by cbv
    cases hnone.symm.trans (heq ▸ hage)

end Schema

end SearchSql
