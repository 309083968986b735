import Mathlib.Data.Set.Card
import SearchSql.Proofs.ByteOrder
import SearchSql.Proofs.LastWrites
import SearchSql.Schema.Mapping

/-!
Schemas that are changed over and over. Whatever was done to it, a schema gives a field the type
that was last written for it, unless the whole schema was replaced since then.
-/

namespace SearchSql.Schema

/-- A change to a schema: one field is written, another schema or a mapping is merged into it, or
it is replaced by pairs or by a mapping. -/
inductive Change
  | insert (field : String) (type : FieldType)
  | merge (other : Schema)
  | mergeMapping (mapping : Json)
  | ofPairs (pairs : List (String × FieldType))
  | ofMapping (mapping : Json)

namespace Change

def apply (s : Schema) : Change → Schema
  | .insert field type => s.insert field type
  | .merge other => s.merge other
  | .mergeMapping mapping => s.merge (.ofMapping mapping)
  | .ofPairs pairs => .ofPairs pairs
  | .ofMapping mapping => .ofMapping mapping

/-- Whether the change leaves nothing of what was there. -/
def replaces : Change → Bool
  | .insert _ _ | .merge _ | .mergeMapping _ => false
  | .ofPairs _ | .ofMapping _ => true

/-- What the change writes, one field after the other. -/
def writes : Change → List (String × FieldType)
  | .insert field type => [(field, type)]
  | .merge other => other.entries
  | .mergeMapping mapping | .ofMapping mapping => Mapping.fields mapping
  | .ofPairs pairs => pairs

end Change

/-- What changes make of the empty schema, one after the other. -/
def after (changes : List Change) : Schema := changes.foldl Change.apply .empty

/-- Some change gives the field the type, and no later one writes the field or replaces the
schema. -/
def LastWritten (changes : List Change) (field : String) (type : FieldType) : Prop :=
  ∃ earlier change later, changes = earlier ++ change :: later ∧
    lastWrite field change.writes = some type ∧
    ∀ c ∈ later, c.replaces = false ∧ ∀ write ∈ c.writes, write.1 ≠ field

variable {changes : List Change} {field : String} {type : FieldType}

/-- One change writes over what a schema has, or over nothing. -/
theorem get?_apply (s : Schema) (change : Change) (field : String) :
    (change.apply s).get? field =
      (lastWrite field change.writes).or (if change.replaces then none else s.get? field) := by
  cases change with
  | insert other type =>
    change (s.insertAll [(other, type)]).get? field = _
    rw [get?_insertAll]
    rfl
  | merge other =>
    change (s.insertAll other.entries).get? field = _
    rw [get?_insertAll]
    rfl
  | mergeMapping mapping =>
    change (s.merge (.ofPairs (Mapping.fields mapping))).get? field = _
    rw [get?_merge, get?_ofPairs]
    rfl
  | ofPairs pairs =>
    change (Schema.ofPairs pairs).get? field = (lastWrite field pairs).or none
    rw [get?_ofPairs, Option.or_none]
  | ofMapping mapping =>
    change (Schema.ofPairs (Mapping.fields mapping)).get? field =
      (lastWrite field (Mapping.fields mapping)).or none
    rw [get?_ofPairs, Option.or_none]

theorem after_concat (changes : List Change) (change : Change) :
    after (changes ++ [change]) = change.apply (after changes) := by
  rw [after, List.foldl_append]
  rfl

/-- A field keeps the type it had before the last change, if that neither writes it nor replaces the
schema. -/
theorem lastWritten_concat {change : Change} :
    LastWritten (changes ++ [change]) field type ↔
      lastWrite field change.writes = some type ∨
        lastWrite field change.writes = none ∧ change.replaces = false ∧
          LastWritten changes field type := by
  constructor
  · rintro ⟨earlier, c, later, hchanges, hwrites, hlater⟩
    rcases List.eq_nil_or_concat later with rfl | ⟨later, d, rfl⟩
    · obtain ⟨-, hlast⟩ := List.append_inj' hchanges rfl
      obtain rfl : change = c := by simpa using hlast
      exact .inl hwrites
    · rw [List.concat_eq_append, ← List.cons_append, ← List.append_assoc] at hchanges
      obtain ⟨rfl, hlast⟩ := List.append_inj' hchanges rfl
      obtain rfl : change = d := by simpa using hlast
      obtain ⟨hkept, huntouched⟩ := hlater change (by simp)
      refine .inr ⟨lastWrite_eq_none_iff.2 huntouched, hkept, earlier, c, later, rfl, hwrites, ?_⟩
      intro d hd
      exact hlater d (by simp [hd])
  · rintro (hwrites | ⟨huntouched, hkept, earlier, c, later, rfl, hwrites, hlater⟩)
    · exact ⟨changes, change, [], rfl, hwrites, by simp⟩
    · refine ⟨earlier, c, later ++ [change], by simp, hwrites, ?_⟩
      intro d hd
      rcases List.mem_append.1 hd with hd | hd
      · exact hlater d hd
      · obtain rfl := List.mem_singleton.1 hd
        exact ⟨hkept, lastWrite_eq_none_iff.1 huntouched⟩

/-- What a field reads back is what was last written for it. -/
theorem get?_after : (after changes).get? field = some type ↔ LastWritten changes field type := by
  induction changes using List.reverseRecOn with
  | nil =>
    constructor
    · intro h
      cases h
    · rintro ⟨earlier, c, later, hnil, _⟩
      simp at hnil
  | append_singleton changes change ih =>
    rw [after_concat, get?_apply, lastWritten_concat, Option.or_eq_some_iff, ← ih]
    cases change.replaces <;> simp

theorem get?_after_eq_none :
    (after changes).get? field = none ↔ ∀ type, ¬ LastWritten changes field type := by
  rw [Option.eq_none_iff_forall_ne_some]
  exact forall_congr' fun type => not_congr get?_after

theorem mem_entries_after :
    (field, type) ∈ (after changes).entries ↔ LastWritten changes field type := by
  rw [← Keyed.find?_eq_some_iff (after changes).ascending]
  exact get?_after

/-- The entries have one field for each that is written. -/
theorem size_after :
    (after changes).size = {field | ∃ type, LastWritten changes field type}.ncard := by
  let keys := (after changes).entries.map Prod.fst
  have hkeys : {field | ∃ type, LastWritten changes field type} = ↑keys.toFinset := by
    ext field
    simp only [Set.mem_ofPred_eq, ← mem_entries_after, List.coe_toFinset]
    simp [keys]
  rw [hkeys, Set.ncard_coe_finset, List.toFinset_card_of_nodup (after changes).ascending.nodup_keys,
    List.length_map]
  rfl

/-- However a schema came about, its fields have the types that were last written, its entries are
those fields in the order of their bytes, and a field that was not written is analyzed text. -/
theorem after_tells_last_writes (changes : List Change) :
    (∀ field type, (after changes).get? field = some type ↔ LastWritten changes field type) ∧
    (∀ field, (after changes).get? field = none ↔ ∀ type, ¬ LastWritten changes field type) ∧
    (∀ field, ∃ type, (after changes).resolver field = .ok type ∧
      (LastWritten changes field type ∨
        type = .analyzed ∧ ∀ other, ¬ LastWritten changes field other)) ∧
    (∀ field type, (field, type) ∈ (after changes).entries ↔ LastWritten changes field type) ∧
    (after changes).entries.Pairwise (fun a b => utf8Bytes a.1 < utf8Bytes b.1) ∧
    (after changes).size = {field | ∃ type, LastWritten changes field type}.ncard := by
  refine ⟨fun _ _ => get?_after, fun _ => get?_after_eq_none, ?_, fun _ _ => mem_entries_after,
    (after changes).ascending.imp utf8Bytes_lt_of_lt, size_after⟩
  intro field
  refine ⟨(after changes).typeOf field, rfl, ?_⟩
  rw [typeOf]
  cases h : (after changes).get? field with
  | none => exact .inr ⟨rfl, get?_after_eq_none.1 h⟩
  | some type => exact .inl (get?_after.1 h)

end SearchSql.Schema
