import SearchSql.Proofs.Distinct
import SearchSql.Proofs.Notes
import SearchSql.Proofs.Scoring

/-!
What the options make of a condition. Its queries under different options are built alike, and they
differ exactly where there is a note.
-/

namespace SearchSql

variable {o o' : Options} {resolve : Resolver} {types : String → FieldType}

/-- Whether a note says that equality is loose on analyzed text. -/
def Note.isAnalyzedEquality : Note → Bool
  | .analyzedEquality _ => true
  | .missingField _ => false

namespace Lowered

variable {l l' : Lowered} {ls ls' : List Lowered} {fields : List String} {kind : String → Note}

/-- Two queries of a condition are scored alike, and they are equal when the first has no note of a
kind. -/
structure DifferWhereNoted (kind : String → Note) (l l' : Lowered) : Prop where
  scored : l.query.isScored = l'.query.isScored
  query_eq_iff : l.query = l'.query ↔ ∀ f, kind f ∉ l.notes

/-- Lists that are split alike are equal when their parts are. -/
theorem parts_eq_iff {α : Type} {p : α → Bool} {as bs : List α}
    (h : List.Forall₂ (fun a b => p a = p b) as bs) :
    as.filter p = bs.filter p ∧ (as.filter fun a => !p a) = bs.filter (fun b => !p b) ↔
      as = bs := by
  induction h with
  | nil => simp
  | @cons a b as bs hab _ ih =>
    rw [List.cons.injEq, ← ih]
    cases ha : p a with
    | true =>
      have hb : p b = true := hab ▸ ha
      simp [ha, hb, and_assoc]
    | false =>
      have hb : p b = false := hab ▸ ha
      simp [ha, hb, and_left_comm]

theorem conjunction_eq_iff
    (h : List.Forall₂ (fun l l' => l.query.isScored = l'.query.isScored) ls ls') :
    (conjunction ls).query = (conjunction ls').query ↔ ls.map query = ls'.map query := by
  rw [← parts_eq_iff (List.forall₂_map_left_iff.2 (List.forall₂_map_right_iff.2 h))]
  simp [conjunction]

theorem disjunction_eq_iff :
    (disjunction ls).query = (disjunction ls').query ↔ ls.map query = ls'.map query := by
  simp [disjunction, Query.anyOf]

theorem negate_eq_iff (hnegation : o.negation = o'.negation) :
    (l.negate o fields).query = (l'.negate o' fields).query ↔ l.query = l'.query := by
  unfold negate
  rw [hnegation]
  split
  · simp [Query.excluding]
  · cases o'.negation <;> simp [Query.excluding]

namespace DifferWhereNoted

theorem queries_eq_iff (h : List.Forall₂ (DifferWhereNoted kind) ls ls') :
    ls.map query = ls'.map query ↔ ∀ f, kind f ∉ ls.flatMap notes := by
  induction h with
  | nil => simp
  | cons hl _ ih =>
    rw [List.map_cons, List.map_cons, List.cons.injEq, hl.query_eq_iff, ih, ← forall_and]
    simp only [List.flatMap_cons, List.mem_append, not_or]

theorem exists_scored_iff (h : List.Forall₂ (DifferWhereNoted kind) ls ls') :
    (∃ l ∈ ls, l.query.isScored = true) ↔ ∃ l' ∈ ls', l'.query.isScored = true :=
  exists_mem_iff_of_forall₂ (h.imp fun _ _ hl => by rw [hl.scored])

theorem plain (q : Query) :
    DifferWhereNoted kind { query := q, notes := [] } { query := q, notes := [] } where
  scored := rfl
  query_eq_iff := by simp

theorem conjunction (h : List.Forall₂ (DifferWhereNoted kind) ls ls') :
    DifferWhereNoted kind (conjunction ls) (conjunction ls') where
  scored := by
    rw [Bool.eq_iff_iff, isScored_conjunction, isScored_conjunction]
    exact exists_scored_iff h
  query_eq_iff := by
    rw [conjunction_eq_iff (h.imp fun _ _ hl => hl.scored)]
    exact queries_eq_iff h

theorem disjunction (h : List.Forall₂ (DifferWhereNoted kind) ls ls') :
    DifferWhereNoted kind (disjunction ls) (disjunction ls') where
  scored := by
    rw [Bool.eq_iff_iff, isScored_disjunction, isScored_disjunction]
    exact exists_scored_iff h
  query_eq_iff := by
    rw [disjunction_eq_iff]
    exact queries_eq_iff h

/-- Under the same mode of negation, a negation differs where what it negates does. -/
theorem negate (hnegation : o.negation = o'.negation) (hkind : ∀ f g, kind f ≠ .missingField g)
    (h : DifferWhereNoted kind l l') :
    DifferWhereNoted kind (l.negate o fields) (l'.negate o' fields) where
  scored := by rw [isScored_negate, isScored_negate]
  query_eq_iff := by
    rw [negate_eq_iff hnegation, h.query_eq_iff]
    simp [mem_notes_negate, hkind]

end DifferWhereNoted

/-- Under the two modes of negation, queries differ where a missing field is noted. -/
theorem congruent_missingField (mode : TextEquality) :
    Congruent ⟨.mustNot, mode⟩ ⟨.requireField, mode⟩ (DifferWhereNoted .missingField) where
  plain := DifferWhereNoted.plain
  equality f type value := by
    cases type with
    | analyzed => exact ⟨rfl, by simp [equality]⟩
    | _ => exact DifferWhereNoted.plain _
  membership f type values := by
    cases type with
    | analyzed => exact ⟨rfl, by simp [membership]⟩
    | _ => exact DifferWhereNoted.plain _
  negate fields l l' h := by
    refine ⟨by rw [isScored_negate, isScored_negate], ?_⟩
    cases fields with
    | nil => simpa [Lowered.negate, Query.excluding] using h.query_eq_iff
    | cons f rest =>
      refine iff_of_false ?_ fun hnone => hnone f (mem_notes_negate.2 ?_)
      · simp [Lowered.negate, Query.excluding]
      · exact .inr ⟨rfl, f, List.mem_cons_self, rfl⟩
  conjunction _ _ := DifferWhereNoted.conjunction
  disjunction _ _ := DifferWhereNoted.disjunction

/-- Under the two modes of equality, queries differ where analyzed text is noted. -/
theorem congruent_analyzedEquality (negation : Negation) :
    Congruent ⟨negation, .phrase⟩ ⟨negation, .anyWord⟩ (DifferWhereNoted .analyzedEquality) where
  plain := DifferWhereNoted.plain
  equality f type value := by
    cases type with
    | analyzed => exact ⟨rfl, by simp [equality, textMatch]⟩
    | _ => exact DifferWhereNoted.plain _
  membership f type values := by
    cases type with
    | analyzed =>
      refine ⟨?_, ?_⟩
      · simp [membership, Function.comp_def, isScored_textMatch]
      · cases values with
        | nil => simp [membership]
        | cons value rest =>
          refine iff_of_false ?_ fun hnone => hnone f (mem_notes_membership.2 ?_)
          · simp [membership, textMatch, Query.anyOf]
          · exact ⟨rfl, List.cons_ne_nil _ _, rfl⟩
    | _ => exact DifferWhereNoted.plain _
  negate _ _ _ := DifferWhereNoted.negate rfl nofun
  conjunction _ _ := DifferWhereNoted.conjunction
  disjunction _ _ := DifferWhereNoted.disjunction

/-- The notes that equality is loose on analyzed text. -/
def looseEqualities (l : Lowered) : List Note := l.notes.filter Note.isAnalyzedEquality

theorem mem_looseEqualities {f : String} :
    .analyzedEquality f ∈ l.looseEqualities ↔ .analyzedEquality f ∈ l.notes := by
  simp [looseEqualities, Note.isAnalyzedEquality]

theorem looseEqualities_negate : (l.negate o fields).looseEqualities = l.looseEqualities := by
  have hmissing : (fields.map Note.missingField).filter Note.isAnalyzedEquality = [] := by
    simp [Note.isAnalyzedEquality]
  unfold negate looseEqualities
  split
  · rfl
  · split
    · rw [List.filter_append, hmissing, List.append_nil]
    · rfl

theorem looseEqualities_flatMap
    (h : List.Forall₂ (fun l l' => l.looseEqualities = l'.looseEqualities) ls ls') :
    (ls.flatMap notes).filter Note.isAnalyzedEquality =
      (ls'.flatMap notes).filter Note.isAnalyzedEquality := by
  induction h with
  | nil => rfl
  | cons hl _ ih =>
    rw [List.flatMap_cons, List.flatMap_cons, List.filter_append, List.filter_append, ih]
    exact congrArg (· ++ _) hl

/-- No option has a part in where analyzed text is noted. -/
theorem congruent_looseEqualities (o o' : Options) :
    Congruent o o' fun l l' => l.looseEqualities = l'.looseEqualities where
  plain _ := rfl
  equality _ type _ := by cases type <;> rfl
  membership _ type _ := by cases type <;> rfl
  negate _ _ _ h := by rw [looseEqualities_negate, looseEqualities_negate, h]
  conjunction _ _ := looseEqualities_flatMap
  disjunction _ _ := looseEqualities_flatMap

end Lowered

namespace Expression

variable {e : Expression} {l : Lowered}

/-- A condition that has a query has one under all options. Its queries under the two modes of
negation are the same exactly when the laxer one has no note of a missing field, those under the two
modes of equality exactly when there is no note of analyzed text, and these notes are the same under
all options. -/
theorem compile_eq_iff_not_noted (answers : ∀ f, resolve f = .ok (types f))
    (h : e.compile o resolve = .ok l) :
    ∃ compiled : Options → Lowered, (∀ o, e.compile o resolve = .ok (compiled o)) ∧
      (∀ mode, (compiled ⟨.mustNot, mode⟩).query = (compiled ⟨.requireField, mode⟩).query ↔
        ∀ f, .missingField f ∉ (compiled ⟨.mustNot, mode⟩).notes) ∧
      (∀ negation mode,
        (compiled ⟨negation, .phrase⟩).query = (compiled ⟨negation, .anyWord⟩).query ↔
          ∀ f, .analyzedEquality f ∉ (compiled ⟨negation, mode⟩).notes) ∧
      ∀ o o', (compiled o).looseEqualities = (compiled o').looseEqualities := by
  have htypes : ∀ f, resolve.typeOf f = .ok (types f) := fun f => typeOf_eq_ok_iff.2 (answers f)
  obtain ⟨_, hl, _⟩ := exists_of_bind_eq_ok h
  choose lowered hlowered using fun o' => exists_lower o' htypes hl
  have hrelated {o o' : Options} {R : Lowered → Lowered → Prop} (hR : Lowered.Congruent o o' R) :
      R (lowered o) (lowered o') := by
    obtain ⟨l', hl', hrel⟩ := exists_lower_related hR htypes (hlowered o)
    obtain rfl := Except.ok.inj ((hlowered o').symm.trans hl')
    exact hrel
  refine ⟨fun o => { lowered o with notes := (lowered o).notes.eraseDups }, ?_, ?_, ?_, ?_⟩
  · intro o
    rw [compile, hlowered]
    rfl
  · intro mode
    simp only [List.mem_eraseDups]
    exact (hrelated (Lowered.congruent_missingField mode)).query_eq_iff
  · intro negation mode
    have hloose := hrelated
      (Lowered.congruent_looseEqualities ⟨negation, .phrase⟩ ⟨negation, mode⟩)
    simp only [List.mem_eraseDups, ← Lowered.mem_looseEqualities, ← hloose]
    simp only [Lowered.mem_looseEqualities]
    exact (hrelated (Lowered.congruent_analyzedEquality negation)).query_eq_iff
  · intro o o'
    have hloose := hrelated (Lowered.congruent_looseEqualities o o')
    simp only [Lowered.looseEqualities, filter_eraseDups] at hloose ⊢
    rw [hloose]

end Expression

/-- A negated test makes the modes of negation differ. Without analyzed text, the modes of equality
do not. -/
theorem compile_eq_iff_not_noted_numeric :
    let types : String → FieldType := fun _ => .numeric
    let resolve : Resolver := fun f => .ok (types f)
    let e : Expression := .or [.among "age" [.integer 20, .integer 22] true, .present "city" true]
    ∃ compiled : Options → Lowered, (∀ o, e.compile o resolve = .ok (compiled o)) ∧
      (compiled ⟨.mustNot, .phrase⟩).query ≠ (compiled ⟨.requireField, .phrase⟩).query ∧
      (compiled ⟨.mustNot, .phrase⟩).query = (compiled ⟨.mustNot, .anyWord⟩).query := by
  intro types resolve e
  have answers : ∀ f, resolve f = .ok (types f) := fun _ => rfl
  obtain ⟨l, hl⟩ : ∃ l, e.compile Options.default resolve = .ok l := ⟨_, rfl⟩
  obtain ⟨compiled, hcompiled, hnegation, hequality, _⟩ :=
    Expression.compile_eq_iff_not_noted answers hl
  have hnotes : (compiled ⟨.mustNot, .phrase⟩).notes = [.missingField "age"] := by
    have hlax := (hcompiled ⟨.mustNot, .phrase⟩).symm
    rw [Except.ok.inj (hlax.trans rfl)]
    rfl
  refine ⟨compiled, hcompiled, ?_, (hequality .mustNot .phrase).2 ?_⟩
  · rw [ne_eq, hnegation .phrase, hnotes]
    exact fun hnone => hnone "age" (List.mem_singleton_self _)
  · simp [hnotes]

end SearchSql
