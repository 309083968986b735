import Mathlib
import SearchSql.Proofs.Distinct
import SearchSql.Proofs.Members
import SearchSql.Proofs.Targets
import SearchSql.Proofs.Unsupported

/-!
The aggregations of a request. There is one for each name, and the name of an aggregate tells its
metric and its field, but for a field with the name of the star.
-/

namespace SearchSql

namespace Aggregate

variable {a b : Aggregate} {as : List Aggregate}

/-- The aggregation of an aggregate. -/
def entry (a : Aggregate) : Aggregation :=
  { name := a.sql, metric := a.metric, field := a.field.getD "_index" }

theorem sql_eq_iff : a.sql = b.sql ↔ a.metric = b.metric ∧ a.field.getD "*" = b.field.getD "*" := by
  obtain ⟨metric, field⟩ := a
  obtain ⟨metric', field'⟩ := b
  simp only [sql, ← String.toList_inj, String.toList_append]
  cases metric <;> cases metric' <;> simp [Metric.name]

/-- The names of aggregates that only go over a star to count tell them apart, unless a field has
the name of the star. -/
theorem sql_injOn_iff (hcount : ∀ metric, ⟨metric, none⟩ ∈ as → metric = .count) :
    (∀ a ∈ as, ∀ b ∈ as, a.sql = b.sql → a = b) ↔
      ¬ ((⟨.count, none⟩ : Aggregate) ∈ as ∧ (⟨.count, some "*"⟩ : Aggregate) ∈ as) := by
  constructor
  · rintro h ⟨hstar, hfield⟩
    have heq := h _ hstar _ hfield (sql_eq_iff.2 ⟨rfl, rfl⟩)
    simp at heq
  · rintro h ⟨metric, field⟩ ha ⟨metric', field'⟩ hb heq
    obtain ⟨rfl, hfields⟩ : metric = metric' ∧ _ := sql_eq_iff.1 heq
    cases field with
    | none =>
      cases field' with
      | none => rfl
      | some f =>
        obtain rfl := hcount metric ha
        obtain rfl : "*" = f := hfields
        exact (h ⟨ha, hb⟩).elim
    | some f =>
      cases field' with
      | none =>
        obtain rfl := hcount metric hb
        obtain rfl : f = "*" := hfields
        exact (h ⟨hb, ha⟩).elim
      | some f' =>
        obtain rfl : f = f' := hfields
        rfl

end Aggregate

namespace Aggregation

variable {as : List Aggregate} {entries : List Aggregation}

theorem filter_distinct (p : String → Bool) (entries : List Aggregation) :
    (distinct entries).filter (fun a => p a.name) =
      distinct (entries.filter fun a => p a.name) := by
  induction entries with
  | nil => rfl
  | cons a rest ih =>
    cases hp : p a.name with
    | true =>
      simp only [distinct, List.filter_cons, hp, ↓reduceIte, ← ih, List.filter_filter,
        Bool.and_comm]
    | false =>
      have hkept : ∀ b : Aggregation, (p b.name && b.name != a.name) = p b.name := by
        intro b
        by_cases hb : b.name = a.name
        · simp [hb, hp]
        · simp [hb]
      simp only [distinct, List.filter_cons, hp, Bool.false_eq_true, ↓reduceIte, ← ih,
        List.filter_filter, hkept]

theorem nodup_names_distinct (entries : List Aggregation) :
    ((distinct entries).map name).Nodup := by
  induction entries with
  | nil => exact List.nodup_nil
  | cons a rest ih =>
    rw [distinct, List.map_cons, List.nodup_cons]
    refine ⟨fun hmem => ?_, ih.sublist (List.filter_sublist.map _)⟩
    obtain ⟨b, hb, hname⟩ := List.mem_map.1 hmem
    simpa [hname] using (List.mem_filter.1 hb).2

theorem distinct_ne_nil (h : entries ≠ []) : distinct entries ≠ [] := by
  cases entries with
  | nil => exact (h rfl).elim
  | cons a rest => exact List.cons_ne_nil _ _

/-- Aggregates whose names tell them apart each have an aggregation, in the order in which they
first occur. -/
theorem distinct_map_entry (h : ∀ a ∈ as, ∀ b ∈ as, a.sql = b.sql → a = b) :
    distinct (as.map Aggregate.entry) = as.eraseDups.map Aggregate.entry := by
  induction as using eraseDups_induction with
  | nil => rfl
  | cons a as ih =>
    obtain ⟨ha, has⟩ := List.forall_mem_cons.1 h
    have hothers : (as.map Aggregate.entry).filter (fun b => b.name != a.entry.name) =
        (as.filter fun b => !b == a).map Aggregate.entry := by
      rw [List.filter_map]
      congr 1
      refine List.filter_congr fun b hb => ?_
      have hname : b.sql = a.sql ↔ b = a :=
        ⟨fun heq => (ha b (List.mem_cons_of_mem _ hb) heq.symm).symm, fun heq => heq ▸ rfl⟩
      rw [Bool.eq_iff_iff]
      simpa [Aggregate.entry] using not_congr hname
    have hrest : ∀ b ∈ as.filter (fun b => !b == a), ∀ c ∈ as.filter (fun b => !b == a),
        b.sql = c.sql → b = c := by
      intro b hb c hc
      exact h b (List.mem_cons_of_mem _ (List.mem_filter.1 hb).1) c
        (List.mem_cons_of_mem _ (List.mem_filter.1 hc).1)
    rw [List.map_cons, distinct, filter_distinct (· != a.entry.name), hothers, ih hrest,
      List.eraseDups_cons, List.map_cons]

theorem distinct_map_entry_iff : distinct (as.map Aggregate.entry) =
    as.eraseDups.map Aggregate.entry ↔ ∀ a ∈ as, ∀ b ∈ as, a.sql = b.sql → a = b := by
  refine ⟨fun h a ha b hb heq => ?_, distinct_map_entry⟩
  have hnames := nodup_names_distinct (as.map Aggregate.entry)
  rw [h, List.map_map] at hnames
  exact List.inj_on_of_nodup_map hnames (List.mem_eraseDups.2 ha) (List.mem_eraseDups.2 hb) heq

end Aggregation

namespace SelectItem

def aggregate? : SelectItem → Option Aggregate
  | .aggregate a => some a
  | .star | .field _ => none

theorem aggregation?_eq (item : SelectItem) :
    item.aggregation? = item.aggregate?.map Aggregate.entry := by
  cases item <;> rfl

end SelectItem

/-- A request for aggregations alone. Each has a member of its own in the body, and no hits come
back. -/
structure Request.OnlyComputes (r : Request) : Prop where
  names : (r.aggregations.map Aggregation.name).Nodup
  body : ∃ members, r.body.get? "aggs" = some (.object members) ∧
    members.length = r.aggregations.length ∧
    ∀ a ∈ r.aggregations, Keyed.find? a.name members = some a.body
  size : r.size = some 0 ∧ r.body.get? "size" = some (.integer 0)
  sort : r.sort = [] ∧ r.body.get? "sort" = none
  start : r.start = none ∧ r.body.get? "from" = none
  fetched : r.fetched = .none ∧ r.body.get? "_source" = none

namespace Statement

variable {s : Statement} {query : Option Query} {notes : List Note} {r : Request}

/-- The aggregates of the projection. -/
def aggregates (s : Statement) : List Aggregate := s.projection.filterMap SelectItem.aggregate?

theorem mem_aggregates {a : Aggregate} : a ∈ s.aggregates ↔ .aggregate a ∈ s.projection := by
  simp only [aggregates, List.mem_filterMap]
  constructor
  · rintro ⟨item, hmem, hitem⟩
    cases item with
    | aggregate b =>
      cases hitem
      exact hmem
    | _ => cases hitem
  · intro hmem
    exact ⟨_, hmem, rfl⟩

theorem aggregations_eq :
    s.aggregations = Aggregation.distinct (s.aggregates.map Aggregate.entry) := by
  rw [aggregations, aggregates, List.map_filterMap]
  congr 2
  exact funext SelectItem.aggregation?_eq

theorem onlyComputes_of_assemble (hs : ∃ a, .aggregate a ∈ s.projection)
    (h : s.assemble query notes = .ok r) : r.aggregations = s.aggregations ∧ r.OnlyComputes := by
  obtain ⟨a, ha⟩ := hs
  have haggregations : s.aggregations ≠ [] := by
    rw [aggregations_eq]
    refine Aggregation.distinct_ne_nil (List.ne_nil_of_mem (a := Aggregate.entry a) ?_)
    exact List.mem_map_of_mem (mem_aggregates.2 ha)
  have hnames : (s.aggregations.map Aggregation.name).Nodup := by
    rw [aggregations_eq]
    exact Aggregation.nodup_names_distinct _
  unfold assemble at h
  simp only [isAggregate_iff.2 ⟨a, ha⟩, ↓reduceIte] at h
  split at h
  · cases h
    have hkeys : ((s.aggregations.map fun a => (a.name, a.body)).map Prod.fst).Nodup := by
      simpa [List.map_map, Function.comp_def] using hnames
    refine ⟨rfl, hnames, ⟨Keyed.ofPairs (s.aggregations.map fun a => (a.name, a.body)), ?_, ?_,
      ?_⟩, ⟨rfl, ?_⟩, ⟨rfl, ?_⟩, ⟨rfl, ?_⟩, ⟨rfl, ?_⟩⟩
    · exact Json.get?_ofSet (by simp) (by simp [haggregations, Json.ofMembers])
    · rw [Keyed.length_ofPairs hkeys, List.length_map]
    · intro b hb
      exact Keyed.find?_ofPairs hkeys (List.mem_map.2 ⟨b, hb, rfl⟩)
    · exact Json.get?_ofSet (by simp) (by simp [Request.countJson])
    · exact Json.get?_ofSet (by simp) (by simp)
    · exact Json.get?_ofSet (by simp) (by simp)
    · exact Json.get?_ofSet (by simp) (by simp [Fetched.body?])
  · cases h

end Statement

namespace Request

variable {o : Options} {resolve : Resolver} {sql : String} {s : Statement}

/-- With aggregates in the projection a request computes nothing else, and selecting a field beside
them fails. Each aggregate is computed once, in the order in which they first occur, exactly when
not both the star and a field of that name are counted. -/
theorem computes_aggregates_iff (hs : Statement.ofText sql = .ok s)
    (haggregate : ∃ a, .aggregate a ∈ s.projection) :
    ((∃ f, .field f ∈ s.projection) → ∃ err, Request.ofText o resolve sql = .error err) ∧
    ∀ r, Request.ofText o resolve sql = .ok r →
      r.OnlyComputes ∧
      (r.aggregations = s.aggregates.eraseDups.map Aggregate.entry ↔
        ¬ (.aggregate ⟨.count, none⟩ ∈ s.projection ∧
          .aggregate ⟨.count, some "*"⟩ ∈ s.projection)) := by
  have hcompile : Request.ofText o resolve sql = s.compile o resolve := by
    rw [Request.ofText, hs]
    rfl
  rw [hcompile]
  constructor
  · intro hfield
    cases hr : s.compile o resolve with
    | error err => exact ⟨err, rfl⟩
    | ok r =>
      obtain ⟨query, notes, h, -⟩ := Statement.compile_eq_ok hr
      obtain ⟨hmixes, -⟩ | ⟨-, herror⟩ := s.assemble_cases query notes
      · exact (hmixes ⟨haggregate, hfield⟩).elim
      · rw [herror] at h
        cases h
  · intro r hr
    obtain ⟨query, notes, h, -⟩ := Statement.compile_eq_ok hr
    obtain ⟨haggregations, honly⟩ := Statement.onlyComputes_of_assemble haggregate h
    refine ⟨honly, ?_⟩
    rw [haggregations, Statement.aggregations_eq, Aggregation.distinct_map_entry_iff,
      Aggregate.sql_injOn_iff, Statement.mem_aggregates, Statement.mem_aggregates]
    intro metric hmem
    exact Statement.count_of_star hs (Statement.mem_aggregates.1 hmem)

/-- A star that is counted twice, beside a field of another metric. -/
theorem computes_count_and_sum :
    let sql := "select count(*), sum(`*`), count(*) from bank"
    ∃ r, Request.ofText Options.default Resolver.default sql = .ok r ∧ r.OnlyComputes ∧
      r.aggregations = [⟨"COUNT(*)", .count, "_index"⟩, ⟨"SUM(*)", .sum, "*"⟩] := by
  intro sql
  let s : Statement :=
    { projection := [.aggregate ⟨.count, none⟩, .aggregate ⟨.sum, some "*"⟩,
        .aggregate ⟨.count, none⟩]
      targets := [⟨"bank", none⟩], condition := none, order := [], limit := none, offset := none }
  have hs : Statement.ofText sql = .ok s := by cbv
  let r : Request :=
    { targets := [⟨"bank", none⟩], query := .matchAll, fetched := .none, sort := [], size := some 0
      start := none
      aggregations := [⟨"COUNT(*)", .count, "_index"⟩, ⟨"SUM(*)", .sum, "*"⟩], notes := [] }
  have hr : Request.ofText Options.default Resolver.default sql = .ok r := by
    rw [Request.ofText, hs]
    rfl
  obtain ⟨honly, haggregations⟩ := (computes_aggregates_iff hs ⟨⟨.count, none⟩, by decide⟩).2 r hr
  exact ⟨r, hr, honly, (haggregations.2 (by decide)).trans (by cbv)⟩

/-- A count of a field with the name of the star is not computed beside a count of the star. -/
theorem count_of_field_lost :
    ∃ s r, Statement.ofText "select count(*), count(`*`) from bank" = .ok s ∧
      Request.ofText Options.default Resolver.default "select count(*), count(`*`) from bank" =
        .ok r ∧
      s.aggregates = [⟨.count, none⟩, ⟨.count, some "*"⟩] ∧
      r.aggregations = [⟨"COUNT(*)", .count, "_index"⟩] := by
  let s : Statement :=
    { projection := [.aggregate ⟨.count, none⟩, .aggregate ⟨.count, some "*"⟩]
      targets := [⟨"bank", none⟩], condition := none, order := [], limit := none, offset := none }
  have hs : Statement.ofText "select count(*), count(`*`) from bank" = .ok s := by cbv
  let r : Request :=
    { targets := [⟨"bank", none⟩], query := .matchAll, fetched := .none, sort := [], size := some 0
      start := none, aggregations := [⟨"COUNT(*)", .count, "_index"⟩], notes := [] }
  have hr : Request.ofText Options.default Resolver.default
      "select count(*), count(`*`) from bank" = .ok r := by
    rw [Request.ofText, hs]
    rfl
  exact ⟨s, r, hs, hr, rfl, rfl⟩

end Request

end SearchSql
