import Mathlib
import SearchSql.Proofs.Pieces
import SearchSql.Proofs.Shape
import SearchSql.Proofs.Targets
import SearchSql.Request.Compile

/-!
The path of a request, which has slashes between its segments and commas between names. It tells
the names apart again as long as no name in it has a slash or a comma of its own.
-/

namespace SearchSql

namespace Target

variable {ts : List Target}

/-- Every target has a type, and every index occurs with every type. -/
def IsProduct (ts : List Target) : Prop :=
  (∀ target ∈ ts, target.docType ≠ none) ∧
    ∀ i ∈ indices ts, ∀ t ∈ docTypes ts, ({ index := i, docType := some t } : Target) ∈ ts

theorem typesInPath_iff : typesInPath ts = true ↔ IsProduct ts := by
  constructor
  · intro h
    refine ⟨fun target hmem => ?_, fun i hi t ht => mem_of_typesInPath h hi ht⟩
    exact Option.isSome_iff_ne_none.1 (all_typed h target hmem)
  · rintro ⟨htyped, hproduct⟩
    have hmem : ∀ target, target ∈ ts.eraseDups ↔
        target ∈ product (indices ts) (docTypes ts) := by
      intro target
      rw [List.mem_eraseDups, mem_product]
      constructor
      · intro hmem
        obtain ⟨t, ht⟩ := Option.ne_none_iff_exists'.1 (htyped target hmem)
        exact ⟨mem_indices.2 ⟨target, hmem, rfl⟩, t, mem_docTypes.2 ⟨target, hmem, ht⟩, ht⟩
      · rintro ⟨hi, t, ht, hdocType⟩
        have hpair := hproduct target.index hi t ht
        rwa [← hdocType] at hpair
    have hnodup : (product (indices ts) (docTypes ts)).Nodup := by
      refine ((nodup_eraseDups _).product (nodup_eraseDups _)).map ?_
      rintro ⟨i, t⟩ ⟨i', t'⟩ heq
      simpa using heq
    have hlength := ((List.perm_ext_iff_of_nodup (nodup_eraseDups ts) hnodup).2 hmem).length_eq
    simp only [typesInPath, Bool.and_eq_true, List.all_eq_true, beq_iff_eq]
    refine ⟨fun target hmem => Option.isSome_iff_ne_none.2 (htyped target hmem), ?_⟩
    rw [hlength, product, List.length_map, List.length_product]

/-- A path that names the indices of targets in its first segment and, if the targets are all pairs
of an index and a type, the types in its second one. -/
inductive Tells (ts : List Target) (path : String) : Prop
  | indices {is} : ¬ IsProduct ts → pieces '/' path = [is, "_search"] →
      pieces ',' is = indices ts → Tells ts path
  | types {is types} : IsProduct ts → pieces '/' path = [is, types, "_search"] →
      pieces ',' is = Target.indices ts → pieces ',' types = docTypes ts → Tells ts path

/-- The name has neither of the characters that structure a path. -/
def IsPathName (name : String) : Prop := ',' ∉ name.toList ∧ '/' ∉ name.toList

instance (name : String) : Decidable (IsPathName name) :=
  inferInstanceAs (Decidable (_ ∧ _))

/-- A segment of names is a segment of the path, and tells the names, if none of them structures the
path. -/
theorem segment_tells_iff {names : List String} (hne : names ≠ []) :
    '/' ∉ (",".intercalate names).toList ∧ pieces ',' (",".intercalate names) = names ↔
      ∀ name ∈ names, IsPathName name := by
  rw [not_mem_intercalate_iff (by simp), pieces_intercalate_iff (by simp) hne, ← forall₂_and]
  simp only [IsPathName, and_comm]

/-- What a segment tells determines it. -/
theorem eq_of_pieces_eq {segment : String} {names : List String}
    (h : pieces ',' segment = names) : segment = ",".intercalate names := by
  rw [← h, intercalate_pieces (by simp)]

theorem docTypes_ne_nil (hne : ts ≠ []) (h : IsProduct ts) : docTypes ts ≠ [] := by
  obtain ⟨target, hmem⟩ := List.exists_mem_of_ne_nil ts hne
  obtain ⟨t, ht⟩ := Option.ne_none_iff_exists'.1 (h.1 target hmem)
  exact List.ne_nil_of_mem (mem_docTypes.2 ⟨target, hmem, ht⟩)

theorem indices_ne_nil (hne : ts ≠ []) : indices ts ≠ [] := by
  obtain ⟨target, hmem⟩ := List.exists_mem_of_ne_nil ts hne
  exact List.ne_nil_of_mem (mem_indices.2 ⟨target, hmem, rfl⟩)

theorem searchPath_of_product (h : IsProduct ts) : searchPath ts =
    "/".intercalate
      [",".intercalate (indices ts), ",".intercalate (docTypes ts), "_search"] := by
  simp only [searchPath, typesInPath_iff.2 h, ↓reduceIte, String.intercalate_cons_cons,
    String.intercalate_singleton, String.append_assoc]
  rfl

theorem searchPath_of_not_product (h : ¬ IsProduct ts) :
    searchPath ts = "/".intercalate [",".intercalate (indices ts), "_search"] := by
  have htypes : typesInPath ts = false := by
    rw [← Bool.not_eq_true, typesInPath_iff]
    exact h
  simp only [searchPath, htypes, Bool.false_eq_true, ↓reduceIte, String.intercalate_cons_cons,
    String.intercalate_singleton, String.append_assoc]
  rfl

/-- The path of targets tells them exactly when no name that it shows structures a path. -/
theorem tells_searchPath_iff (hne : ts ≠ []) : Tells ts (searchPath ts) ↔
    (∀ i ∈ indices ts, IsPathName i) ∧ (IsProduct ts → ∀ t ∈ docTypes ts, IsPathName t) := by
  have hindices := segment_tells_iff (indices_ne_nil hne)
  have hslash : ∀ segments : List String, segments ≠ [] →
      (pieces '/' ("/".intercalate segments) = segments ↔ ∀ name ∈ segments, '/' ∉ name.toList) :=
    fun segments hsegments => pieces_intercalate_iff (by simp) hsegments
  by_cases hproduct : IsProduct ts
  · have htypes := segment_tells_iff (docTypes_ne_nil hne hproduct)
    rw [searchPath_of_product hproduct]
    constructor
    · rintro (⟨hnot, -, -⟩ | ⟨-, hsegments, his, hts⟩)
      · exact (hnot hproduct).elim
      · obtain rfl := eq_of_pieces_eq his
        obtain rfl := eq_of_pieces_eq hts
        obtain ⟨hi, hrest⟩ := List.forall_mem_cons.1 ((hslash _ (by simp)).1 hsegments)
        obtain ⟨ht, -⟩ := List.forall_mem_cons.1 hrest
        exact ⟨hindices.1 ⟨hi, his⟩, fun _ => htypes.1 ⟨ht, hts⟩⟩
    · rintro ⟨hi, ht⟩
      obtain ⟨hi, his⟩ := hindices.2 hi
      obtain ⟨ht, hts⟩ := htypes.2 (ht hproduct)
      refine .types hproduct ((hslash _ (by simp)).2 ?_) his hts
      exact List.forall_mem_cons.2 ⟨hi, List.forall_mem_cons.2 ⟨ht, by simp⟩⟩
  · rw [searchPath_of_not_product hproduct]
    constructor
    · rintro (⟨-, hsegments, his⟩ | ⟨hyes, -, -, -⟩)
      · obtain rfl := eq_of_pieces_eq his
        obtain ⟨hi, -⟩ := List.forall_mem_cons.1 ((hslash _ (by simp)).1 hsegments)
        exact ⟨hindices.1 ⟨hi, his⟩, fun hyes => (hproduct hyes).elim⟩
      · exact (hproduct hyes).elim
    · rintro ⟨hi, -⟩
      obtain ⟨hi, his⟩ := hindices.2 hi
      refine .indices hproduct ((hslash _ (by simp)).2 ?_) his
      exact List.forall_mem_cons.2 ⟨hi, by simp⟩

end Target

namespace Request

variable {o : Options} {resolve : Resolver} {sql : String} {r : Request}

/-- The path of a request tells the indices and types of its FROM clause, with the types in it only
where they are all pairs, exactly when no name that it shows has a comma or a slash. -/
theorem searchPath_tells_iff (h : Request.ofText o resolve sql = .ok r) :
    ∃ s, Statement.ofText sql = .ok s ∧ r.targets = s.targets ∧
      (Target.Tells s.targets r.searchPath ↔
        (∀ i ∈ Target.indices s.targets, Target.IsPathName i) ∧
          (Target.IsProduct s.targets → ∀ t ∈ Target.docTypes s.targets, Target.IsPathName t)) := by
  obtain ⟨s, hs, h⟩ := exists_of_bind_eq_ok h
  obtain ⟨query, notes, h, -⟩ := Statement.compile_eq_ok h
  have htargets := (Statement.assemble_eq_ok h).1
  refine ⟨s, hs, htargets, ?_⟩
  rw [searchPath, htargets]
  exact Target.tells_searchPath_iff (Statement.targets_ne_nil_of_ofText hs)

/-- Two indices that occur with two types each. -/
theorem searchPath_tells_product :
    let sql := "select * from bank/a, doc/b, bank/b, `doc`/a, bank/b"
    ∃ r, Request.ofText Options.default Resolver.default sql = .ok r ∧
      (∀ i ∈ Target.indices r.targets, Target.IsPathName i) ∧
      (∀ t ∈ Target.docTypes r.targets, Target.IsPathName t) ∧
      Target.Tells r.targets r.searchPath ∧ r.searchPath = "bank,doc/a,b/_search" := by
  intro sql
  let r : Request :=
    { targets := [⟨"bank", some "a"⟩, ⟨"doc", some "b"⟩, ⟨"bank", some "b"⟩, ⟨"doc", some "a"⟩,
        ⟨"bank", some "b"⟩]
      query := .matchAll, fetched := .all, sort := [], size := none, start := none
      aggregations := [], notes := [] }
  have hr : Request.ofText Options.default Resolver.default sql = .ok r := by cbv
  obtain ⟨s, _, htargets, htells⟩ := searchPath_tells_iff hr
  rw [← htargets] at htells
  have hindices : ∀ i ∈ Target.indices r.targets, Target.IsPathName i := by decide
  have htypes : ∀ t ∈ Target.docTypes r.targets, Target.IsPathName t := by decide
  exact ⟨r, hr, hindices, htypes, htells.2 ⟨hindices, fun _ => htypes⟩, by cbv⟩

/-- An index with a slash in its name gives the path of an index and a type. -/
theorem searchPath_of_slash_in_index :
    ∃ r, Request.ofText Options.default Resolver.default "select * from `bank/account`" = .ok r ∧
      ¬ Target.Tells r.targets r.searchPath := by
  let r : Request :=
    { targets := [⟨"bank/account", none⟩], query := .matchAll, fetched := .all, sort := []
      size := none, start := none, aggregations := [], notes := [] }
  have hr : Request.ofText Options.default Resolver.default "select * from `bank/account`" =
      .ok r := by cbv
  refine ⟨r, hr, fun htells => ?_⟩
  have hnames := (Target.tells_searchPath_iff (List.cons_ne_nil _ _)).1 htells
  have hname := hnames.1 "bank/account" (by simp [Target.mem_indices])
  exact hname.2 (by simp)

end Request

end SearchSql
