import Mathlib.Data.List.Perm.Subperm
import Mathlib.Data.List.ProdSigma
import SearchSql.Proofs.Distinct
import SearchSql.Proofs.Lowering
import SearchSql.Proofs.Matching
import SearchSql.Request.Compile

/-!
The documents that a request finds: those of its targets that the condition matches. A path names
indices and types apart, so types stand in it only when every index occurs with every type.
-/

namespace SearchSql

variable {Value : Type} {E : Engine Value} {d : Document Value} {i t : String} {ts : List Target}

/-- A document of a type in an index, by which the terms of the two find it. -/
structure Document.LiesIn (E : Engine Value) (d : Document Value) (i t : String) : Prop where
  index : ∀ s, E.matchesTerm d "_index" (.text s) = true ↔ s = i
  docType : ∀ s, E.matchesTerm d "_type" (.text s) = true ↔ s = t

namespace Target

/-- Whether a target holds the documents of a type in an index. -/
def Holds (target : Target) (i t : String) : Prop :=
  target.index = i ∧ (target.docType = none ∨ target.docType = some t)

theorem mem_indices : i ∈ indices ts ↔ ∃ target ∈ ts, target.index = i := by
  simp [indices, List.mem_eraseDups]

theorem mem_docTypes : t ∈ docTypes ts ↔ ∃ target ∈ ts, target.docType = some t := by
  simp [docTypes, List.mem_eraseDups]

/-- The targets that all indices make with all types. -/
def product (indices docTypes : List String) : List Target :=
  (indices ×ˢ docTypes).map fun pair => { index := pair.1, docType := some pair.2 }

theorem mem_product {indices docTypes : List String} {target : Target} :
    target ∈ product indices docTypes ↔
      target.index ∈ indices ∧ ∃ t ∈ docTypes, target.docType = some t := by
  obtain ⟨index, docType⟩ := target
  simp only [product, List.mem_map, Prod.exists, List.mem_product, Target.mk.injEq]
  constructor
  · rintro ⟨i, t, ⟨hi, ht⟩, rfl, rfl⟩
    exact ⟨hi, t, ht, rfl⟩
  · rintro ⟨hi, t, ht, rfl⟩
    exact ⟨index, t, ⟨hi, ht⟩, rfl, rfl⟩

theorem all_typed (h : typesInPath ts = true) : ∀ target ∈ ts, target.docType.isSome = true := by
  simp only [typesInPath, Bool.and_eq_true, List.all_eq_true] at h
  exact h.1

/-- When types stand in the path, the distinct targets are as many as the pairs of an index and a
type. They are such pairs, so none is missing. -/
theorem mem_of_typesInPath (h : typesInPath ts = true) (hi : i ∈ indices ts)
    (ht : t ∈ docTypes ts) : ({ index := i, docType := some t } : Target) ∈ ts := by
  have hsubset : ts.eraseDups ⊆ product (indices ts) (docTypes ts) := by
    intro target hmem
    rw [List.mem_eraseDups] at hmem
    obtain ⟨t', ht'⟩ := Option.isSome_iff_exists.1 (all_typed h target hmem)
    exact mem_product.2 ⟨mem_indices.2 ⟨target, hmem, rfl⟩, t',
      mem_docTypes.2 ⟨target, hmem, ht'⟩, ht'⟩
  have hlength : (product (indices ts) (docTypes ts)).length ≤ ts.eraseDups.length := by
    simp only [typesInPath, Bool.and_eq_true, beq_iff_eq] at h
    simp only [product, List.length_map, List.length_product, h.2, Nat.le_refl]
  have hperm := ((nodup_eraseDups ts).subperm hsubset).perm_of_length_le hlength
  rw [← List.mem_eraseDups, hperm.mem_iff]
  exact mem_product.2 ⟨hi, t, ht, rfl⟩

end Target

namespace Query

/-- What is not scored matches the same documents in a filter. -/
theorem selects_root (q : Query) : q.root.selects E d = q.selects E d := by
  unfold root
  split
  · rfl
  · split
    · rfl
    · simp

/-- A condition beside a root clause leaves out what it does not match. A clause with alternatives
moves into a section of its own, since a filter beside them would make them optional. -/
theorem selects_restrict (q condition : Query) :
    (q.restrict condition).selects E d = (q.selects E d && condition.selects E d) := by
  unfold restrict
  split
  · simp
  · next must filter mustNot minimumShould =>
    have hrequired : required must (filter ++ [condition]) [] minimumShould =
        required must filter [] minimumShould := by simp [required]
    simp only [selects_bool, List.all_append, List.all_cons, List.all_nil, Bool.and_true, hrequired]
    cases selects E d condition <;> simp
  · split
    · simp [selects_bool, required]
    · simp

theorem selects_ofTarget (hd : d.LiesIn E i t) (target : Target) :
    (ofTarget target).selects E d = true ↔ target.Holds i t := by
  obtain ⟨index, docType⟩ := target
  cases docType with
  | none => simp [ofTarget, Target.Holds, hd.index]
  | some docType => simp [ofTarget, Target.Holds, hd.index, hd.docType]

/-- Targets that neither a filter nor the path tells apart by type have no types. -/
theorem holds_of_ofTargets?_eq_none (h : ofTargets? ts = none)
    (hpath : Target.typesInPath ts = false) {target : Target} (hmem : target ∈ ts) :
    target.Holds target.index t := by
  have hany : ¬ ts.any (fun t => t.docType.isSome) = true := by
    intro hany
    simp [ofTargets?, hany, hpath] at h
  have huntyped : target.docType = none := by
    by_contra htyped
    exact hany (List.any_eq_true.2 ⟨target, hmem, Option.isSome_iff_ne_none.2 htyped⟩)
  exact ⟨rfl, .inl huntyped⟩

theorem selects_anyOf_targets (hd : d.LiesIn E i t) :
    (anyOf (ts.eraseDups.map ofTarget)).selects E d = true ↔
      ∃ target ∈ ts, target.Holds i t := by
  simp only [selects_anyOf, List.any_map, List.any_eq_true, List.mem_eraseDups,
    Function.comp_apply, selects_ofTarget hd]

end Query

namespace Request

/-- Whether the path of a request leads to the documents of a type in an index. -/
def Addresses (r : Request) (i t : String) : Prop :=
  i ∈ Target.indices r.targets ∧
    (Target.typesInPath r.targets = true → t ∈ Target.docTypes r.targets)

theorem addresses_of_typesInPath {r : Request} (h : Target.typesInPath r.targets = true) :
    r.Addresses i t ↔ ∃ target ∈ r.targets, target.Holds i t := by
  constructor
  · rintro ⟨hi, ht⟩
    exact ⟨_, Target.mem_of_typesInPath h hi (ht h), rfl, .inr rfl⟩
  · rintro ⟨target, hmem, hindex, htype⟩
    refine ⟨Target.mem_indices.2 ⟨target, hmem, hindex⟩, fun _ => ?_⟩
    have htyped := Target.all_typed h target hmem
    rcases htype with htype | htype
    · simp [htype] at htyped
    · exact Target.mem_docTypes.2 ⟨target, hmem, htype⟩

theorem addresses_of_not_typesInPath {r : Request} (h : Target.typesInPath r.targets = false) :
    r.Addresses i t ↔ ∃ target ∈ r.targets, target.index = i := by
  simp [Addresses, h, Target.mem_indices]

end Request

namespace Statement

variable {s : Statement} {condition : Option Query} {notes : List Note} {r : Request}

theorem assemble_eq_ok (h : s.assemble condition notes = .ok r) :
    r.targets = s.targets ∧ r.query = s.rootQuery condition := by
  unfold assemble at h
  simp only at h
  split at h
  · split at h
    · cases h; exact ⟨rfl, rfl⟩
    · cases h
  · cases h; exact ⟨rfl, rfl⟩

/-- A request is assembled from the query of the condition, if there is a condition. -/
theorem compile_eq_ok {o : Options} {resolve : Resolver} (h : s.compile o resolve = .ok r) :
    ∃ query notes, s.assemble query notes = .ok r ∧
      (s.condition = none ∧ query = none ∨
        ∃ e l, s.condition = some e ∧ e.lower o resolve = .ok l ∧ query = some l.query) := by
  unfold compile at h
  cases hcondition : s.condition with
  | none =>
    rw [hcondition] at h
    exact ⟨none, [], h, .inl ⟨rfl, rfl⟩⟩
  | some e =>
    rw [hcondition] at h
    obtain ⟨l, hl, h⟩ := exists_of_bind_eq_ok h
    obtain ⟨l', hlower, hl⟩ := exists_of_bind_eq_ok hl
    cases hl
    exact ⟨_, _, h, .inr ⟨e, l', rfl, hlower, rfl⟩⟩

theorem rootQuery_eq : s.rootQuery condition =
    (Query.ofTargets? s.targets).elim (condition.elim .matchAll Query.root)
      (condition.elim .matchAll Query.root).restrict := by
  unfold rootQuery
  cases condition <;> cases Query.ofTargets? s.targets <;> rfl

/-- The root clause asks for the condition, and for the targets where the path cannot. -/
theorem selects_rootQuery (hd : d.LiesIn E i t) :
    (s.rootQuery condition).selects E d = true ↔
      (∀ q ∈ condition, q.selects E d = true) ∧
        (Query.ofTargets? s.targets ≠ none → ∃ target ∈ s.targets, target.Holds i t) := by
  have hroot : (condition.elim .matchAll Query.root).selects E d = true ↔
      ∀ q ∈ condition, q.selects E d = true := by
    cases condition <;> simp [Query.selects_root]
  rw [rootQuery_eq]
  cases htargets : Query.ofTargets? s.targets with
  | none => simpa using hroot
  | some targets =>
    have hfilter : targets.selects E d = true ↔ ∃ target ∈ s.targets, target.Holds i t := by
      unfold Query.ofTargets? at htargets
      split at htargets
      · cases htargets
        exact Query.selects_anyOf_targets hd
      · cases htargets
    rw [Option.elim_some, Query.selects_restrict, Bool.and_eq_true, hroot, hfilter]
    simp

/-- A request finds a document exactly when the condition matches it and a target holds it. -/
theorem assemble_finds_iff (h : s.assemble condition notes = .ok r) (hd : d.LiesIn E i t) :
    r.Addresses i t ∧ r.query.selects E d = true ↔
      (∀ q ∈ condition, q.selects E d = true) ∧ ∃ target ∈ s.targets, target.Holds i t := by
  obtain ⟨htargets, hquery⟩ := assemble_eq_ok h
  rw [hquery, selects_rootQuery hd]
  cases hpath : Target.typesInPath s.targets with
  | true =>
    have hnone : Query.ofTargets? s.targets = none := by simp [Query.ofTargets?, hpath]
    rw [Request.addresses_of_typesInPath (htargets ▸ hpath), htargets, hnone]
    tauto
  | false =>
    rw [Request.addresses_of_not_typesInPath (htargets ▸ hpath), htargets]
    constructor
    · rintro ⟨⟨target, hmem, rfl⟩, hcondition, hfilter⟩
      refine ⟨hcondition, ?_⟩
      by_cases hnone : Query.ofTargets? s.targets = none
      · exact ⟨target, hmem, Query.holds_of_ofTargets?_eq_none hnone hpath hmem⟩
      · exact hfilter hnone
    · rintro ⟨hcondition, target, hmem, hholds⟩
      exact ⟨⟨target, hmem, hholds.1⟩, hcondition, fun _ => ⟨target, hmem, hholds⟩⟩

end Statement

/-- Of two targets with types of their own, the second one holds the document. Alternatives without
a minimum stay alternatives beside the filter on the targets. -/
theorem assemble_finds_document :
    let s : Statement :=
      { projection := [.star], condition := none, order := [], limit := none, offset := none
        targets := [{ index := "bank", docType := none },
          { index := "doc", docType := some "accounts" }] }
    let q : Query := .bool [] [] [.term "age" (.integer 36), .matchPhrase "city" (.text "Nogal")] []
      none
    let d : Document Literal := fun f =>
      if f = "_index" then some (.text "doc") else if f = "_type" then some (.text "accounts")
      else if f = "age" then some (.integer 36) else none
    ∃ r, s.assemble (some q) [] = .ok r ∧ d.LiesIn Engine.ofLiterals "doc" "accounts" ∧
      r.Addresses "doc" "accounts" ∧ r.query.selects Engine.ofLiterals d = true := by
  intro s q d
  obtain ⟨r, hr⟩ : ∃ r, s.assemble (some q) [] = .ok r := ⟨_, rfl⟩
  have hd : d.LiesIn Engine.ofLiterals "doc" "accounts" :=
    ⟨fun s => by rw [Engine.matchesTerm_ofLiterals]; simpa [d] using eq_comm,
      fun s => by rw [Engine.matchesTerm_ofLiterals]; simpa [d] using eq_comm⟩
  have hq : ∀ q' ∈ some q, q'.selects Engine.ofLiterals d = true := by
    intro q' hq'
    cases hq'
    decide
  have htarget : ∃ target ∈ s.targets, target.Holds "doc" "accounts" :=
    ⟨_, List.mem_cons_of_mem _ (List.mem_singleton_self _), rfl, .inr rfl⟩
  exact ⟨r, hr, hd, (Statement.assemble_finds_iff hr hd).2 ⟨hq, htarget⟩⟩

end SearchSql
