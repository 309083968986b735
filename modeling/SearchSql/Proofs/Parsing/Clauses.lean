import SearchSql.Proofs.Parsing.Condition

/-!
Reading the clauses of a statement. Each reader takes the phrases of its clause, and stops where no
token follows that the clause could go on with.
-/

namespace SearchSql.Statement

open Grammar Reader

variable {ts rest : List Token}

theorem reads_aggregateField {field : Option String} :
    Reads readAggregateField ts field rest ↔ ∃ f, ts = f :: rest ∧
      ((f.kind = .star ∧ field = none) ∨ (f.kind = .identifier ∧ field = some f.text)) := by
  rw [readAggregateField, reads_accept_bind]
  simp only [↓reduceIte, Bool.false_eq_true, reads_bind, reads_pure, reads_identifier]
  constructor
  · rintro (⟨f, _, hf, rfl, rfl, rfl⟩ | ⟨_, _, _, ⟨f, rfl, hf, rfl⟩, rfl, rfl⟩)
    · exact ⟨f, rfl, .inl ⟨hf, rfl⟩⟩
    · exact ⟨f, rfl, .inr ⟨hf, rfl⟩⟩
  · rintro ⟨f, rfl, ⟨hf, rfl⟩ | ⟨hf, rfl⟩⟩
    · exact .inl ⟨f, rest, hf, rfl, rfl, rfl⟩
    · exact .inr ⟨by simp [hf], _, _, ⟨f, rfl, hf, rfl⟩, rfl, rfl⟩

/-- What an aggregate is read from, after the parenthesis: it may be over a star only if it
counts. -/
theorem reads_aggregate {mid : List Token} {name : String} {item : SelectItem} :
    Reads (match Metric.ofName? name with
      | none => refuseAt mid "aggregate function (COUNT, SUM, AVG, MIN, MAX)"
      | some metric => do
        let field ← readAggregateField
        let _ ← expect .rightParen
        if field = none ∧ metric ≠ .count then
          refuseAt mid ("field name inside " ++ metric.name ++ "()")
        else return .aggregate { metric, field }) ts item rest ↔
      ∃ f right metric, ts = f :: right :: rest ∧ FunctionName name metric ∧
        right.kind = .rightParen ∧
        ((f.kind = .star ∧ metric = .count ∧ item = .aggregate ⟨metric, none⟩) ∨
          (f.kind = .identifier ∧ item = .aggregate ⟨metric, some f.text⟩)) := by
  constructor
  · intro h
    split at h
    · exact (reads_refuseAt h).elim
    · next metric hmetric =>
      obtain ⟨field, _, hfield, hclosed⟩ := reads_bind.1 h
      obtain ⟨_, _, hexpect, hitem⟩ := reads_bind.1 hclosed
      obtain ⟨right, rfl, hright, _⟩ := reads_expect.1 hexpect
      split at hitem
      · exact (reads_refuseAt hitem).elim
      · next hallowed =>
        obtain ⟨rfl, rfl⟩ := reads_pure.1 hitem
        obtain ⟨f, rfl, ⟨hf, rfl⟩ | ⟨hf, rfl⟩⟩ := reads_aggregateField.1 hfield
        · have hcount : metric = .count := by simpa using hallowed
          exact ⟨f, right, metric, rfl, functionName_iff.2 hmetric, hright, .inl ⟨hf, hcount, rfl⟩⟩
        · exact ⟨f, right, metric, rfl, functionName_iff.2 hmetric, hright, .inr ⟨hf, rfl⟩⟩
  · rintro ⟨f, right, metric, rfl, hmetric, hright, hf⟩
    have hclosed : Reads (expect .rightParen) (right :: rest) right.text rest :=
      reads_expect.2 ⟨right, rfl, hright, rfl⟩
    simp only [functionName_iff.1 hmetric]
    rcases hf with ⟨hf, rfl, rfl⟩ | ⟨hf, rfl⟩
    · have hstar : Reads readAggregateField (f :: right :: rest) none (right :: rest) :=
        reads_aggregateField.2 ⟨f, rfl, .inl ⟨hf, rfl⟩⟩
      refine reads_bind.2 ⟨none, _, hstar, reads_bind.2 ⟨_, rest, hclosed, ?_⟩⟩
      simp
    · have hfield : Reads readAggregateField (f :: right :: rest) (some f.text) (right :: rest) :=
        reads_aggregateField.2 ⟨f, rfl, .inr ⟨hf, rfl⟩⟩
      refine reads_bind.2 ⟨some f.text, _, hfield, reads_bind.2 ⟨_, rest, hclosed, ?_⟩⟩
      simp

theorem recognizes_item : Recognizes readItem Item [.leftParen] where
  sound {ts item rest} h := by
    obtain ⟨_, _, hname, hitem⟩ := reads_bind.1 h
    obtain ⟨n, rfl, hn, rfl⟩ := reads_identifier.1 hname
    rcases reads_accept_bind.1 hitem with ⟨left, mid, hleft, rfl, hover⟩ | ⟨_, hfield⟩
    · obtain ⟨f, right, metric, rfl, hmetric, hright, hf⟩ := reads_aggregate.1 hover
      refine ⟨[n, left, f, right], rfl, ?_⟩
      rcases hf with ⟨hf, rfl, rfl⟩ | ⟨hf, rfl⟩
      · exact .count hn hmetric hleft hf hright
      · exact .aggregate hn hmetric hleft hf hright
    · obtain ⟨rfl, rfl⟩ := reads_pure.1 hfield
      exact ⟨[n], rfl, .field hn⟩
  complete {w item rest} h hrest := by
    have hname (n : Token) (mid : List Token) (hn : n.kind = .identifier) :
        Reads (identifier "'*', field name or aggregate") (n :: mid) n.text mid :=
      reads_identifier.2 ⟨n, rfl, hn, rfl⟩
    cases h with
    | @field n hn =>
      refine reads_bind.2 ⟨_, _, hname n rest hn, ?_⟩
      exact reads_accept_bind.2 (.inr ⟨hrest _ List.mem_cons_self, reads_pure.2 ⟨rfl, rfl⟩⟩)
    | @aggregate n left f right metric hn hmetric hleft hf hright =>
      refine reads_bind.2 ⟨_, _, hname n _ hn, ?_⟩
      refine reads_accept_bind.2 (.inl ⟨left, _, hleft, rfl, reads_aggregate.2 ?_⟩)
      exact ⟨f, right, metric, rfl, hmetric, hright, .inr ⟨hf, rfl⟩⟩
    | @count n left star right hn hmetric hleft hstar hright =>
      refine reads_bind.2 ⟨_, _, hname n _ hn, ?_⟩
      refine reads_accept_bind.2 (.inl ⟨left, _, hleft, rfl, reads_aggregate.2 ?_⟩)
      exact ⟨star, right, .count, rfl, hmetric, hright, .inl ⟨hstar, rfl, rfl⟩⟩

theorem recognizes_projection :
    Recognizes readProjection Projection [.comma, .leftParen] where
  sound {ts projection rest} h := by
    rcases reads_accept_bind.1 h with ⟨t, mid, ht, rfl, hstar⟩ | ⟨_, hitems⟩
    · obtain ⟨rfl, rfl⟩ := reads_pure.1 hstar
      exact ⟨[t], rfl, .star ht⟩
    · obtain ⟨w, rfl, hp⟩ := recognizes_item.separated_sound hitems
      exact ⟨w, rfl, .items hp⟩
  complete {w projection rest} h hrest := by
    cases h with
    | @star t ht => exact reads_accept_bind.2 (.inl ⟨t, rest, ht, rfl, reads_pure.2 ⟨rfl, rfl⟩⟩)
    | items hp =>
      obtain ⟨n, w', rfl, hn⟩ := hp.start fun h => h.start
      have hitems := (recognizes_item.separated (by simp)).complete hp hrest
      exact reads_accept_bind.2 (.inr ⟨by simp [hn], hitems⟩)

theorem recognizes_target : Recognizes readTarget Source [.slash] where
  sound {ts target rest} h := by
    obtain ⟨_, _, hname, htype⟩ := reads_bind.1 h
    obtain ⟨n, rfl, hn, rfl⟩ := reads_identifier.1 hname
    rcases reads_accept_bind.1 htype with ⟨slash, mid, hslash, rfl, htyped⟩ | ⟨_, huntyped⟩
    · obtain ⟨_, _, hdoc, hpure⟩ := reads_bind.1 htyped
      obtain ⟨t, rfl, ht, rfl⟩ := reads_identifier.1 hdoc
      obtain ⟨rfl, rfl⟩ := reads_pure.1 hpure
      exact ⟨[n, slash, t], rfl, .typed hn hslash ht⟩
    · obtain ⟨rfl, rfl⟩ := reads_pure.1 huntyped
      exact ⟨[n], rfl, .index hn⟩
  complete {w target rest} h hrest := by
    cases h with
    | @index n hn =>
      refine reads_bind.2 ⟨n.text, rest, reads_identifier.2 ⟨n, rfl, hn, rfl⟩, ?_⟩
      exact reads_accept_bind.2 (.inr ⟨hrest _ List.mem_cons_self, reads_pure.2 ⟨rfl, rfl⟩⟩)
    | @typed n slash t hn hslash ht =>
      refine reads_bind.2 ⟨n.text, slash :: t :: rest, reads_identifier.2 ⟨n, rfl, hn, rfl⟩, ?_⟩
      refine reads_accept_bind.2 (.inl ⟨slash, t :: rest, hslash, rfl, ?_⟩)
      exact reads_bind.2 ⟨t.text, rest, reads_identifier.2 ⟨t, rfl, ht, rfl⟩,
        reads_pure.2 ⟨rfl, rfl⟩⟩

theorem recognizes_where :
    Recognizes readCondition Where [.keyword .where, .keyword .or, .keyword .and] where
  sound {ts condition rest} h := by
    rcases reads_accept_bind.1 h with ⟨t, mid, ht, rfl, hcondition⟩ | ⟨_, habsent⟩
    · obtain ⟨e, _, he, hpure⟩ := reads_bind.1 hcondition
      obtain ⟨rfl, rfl⟩ := reads_pure.1 hpure
      obtain ⟨w, rfl, hp⟩ := Expression.recognizes_condition.sound he
      exact ⟨t :: w, rfl, .present ht hp⟩
    · obtain ⟨rfl, rfl⟩ := reads_pure.1 habsent
      exact ⟨[], rfl, .absent⟩
  complete {w condition rest} h hrest := by
    obtain ⟨hwhere, hmore⟩ := List.forall_mem_cons.1 hrest
    cases h with
    | absent => exact reads_accept_bind.2 (.inr ⟨hwhere, reads_pure.2 ⟨rfl, rfl⟩⟩)
    | @present t w e ht hp =>
      refine reads_accept_bind.2 (.inl ⟨t, w ++ rest, ht, rfl, ?_⟩)
      have he := Expression.recognizes_condition.complete hp hmore
      exact reads_bind.2 ⟨e, rest, he, reads_pure.2 ⟨rfl, rfl⟩⟩

theorem recognizes_sortKey : Recognizes readSortKey Key [.keyword .desc, .keyword .asc] where
  sound {ts key rest} h := by
    obtain ⟨_, _, hname, hdirection⟩ := reads_bind.1 h
    obtain ⟨n, rfl, hn, rfl⟩ := reads_identifier.1 hname
    rcases reads_accept_bind.1 hdirection with ⟨d, mid, hd, rfl, hpure⟩ | ⟨_, hascending⟩
    · obtain ⟨rfl, rfl⟩ := reads_pure.1 hpure
      exact ⟨[n, d], rfl, .descending hn hd⟩
    · rcases reads_accept_bind.1 hascending with ⟨a, mid, ha, rfl, hpure⟩ | ⟨_, hpure⟩
      · obtain ⟨rfl, rfl⟩ := reads_pure.1 hpure
        exact ⟨[n, a], rfl, .ascending hn (.present ha)⟩
      · obtain ⟨rfl, rfl⟩ := reads_pure.1 hpure
        exact ⟨[n], rfl, .ascending hn .absent⟩
  complete {w key rest} h hrest := by
    have hdesc : NotNext (.keyword .desc) rest := hrest _ (by simp)
    have hasc : NotNext (.keyword .asc) rest := hrest _ (by simp)
    have hname (n : Token) (mid : List Token) (hn : n.kind = .identifier) :
        Reads (identifier "sort field") (n :: mid) n.text mid :=
      reads_identifier.2 ⟨n, rfl, hn, rfl⟩
    cases h with
    | @ascending n asc marked hn hmarked =>
      refine reads_bind.2 ⟨n.text, asc ++ rest, hname n _ hn, ?_⟩
      cases hmarked with
      | absent =>
        refine reads_accept_bind.2 (.inr ⟨hdesc, ?_⟩)
        exact reads_accept_bind.2 (.inr ⟨hasc, reads_pure.2 ⟨rfl, rfl⟩⟩)
      | @present a ha =>
        refine reads_accept_bind.2 (.inr ⟨by simp [ha], ?_⟩)
        exact reads_accept_bind.2 (.inl ⟨a, rest, ha, rfl, reads_pure.2 ⟨rfl, rfl⟩⟩)
    | @descending n d hn hd =>
      refine reads_bind.2 ⟨n.text, d :: rest, hname n _ hn, ?_⟩
      exact reads_accept_bind.2 (.inl ⟨d, rest, hd, rfl, reads_pure.2 ⟨rfl, rfl⟩⟩)

theorem recognizes_order :
    Recognizes readOrder Order [.keyword .order, .comma, .keyword .desc, .keyword .asc] where
  sound {ts keys rest} h := by
    rcases reads_accept_bind.1 h with ⟨o, mid, ho, rfl, hkeys⟩ | ⟨_, habsent⟩
    · obtain ⟨_, _, hby, hseparated⟩ := reads_bind.1 hkeys
      obtain ⟨b, rfl, hb, _⟩ := reads_expect.1 hby
      obtain ⟨w, rfl, hp⟩ := recognizes_sortKey.separated_sound hseparated
      exact ⟨o :: b :: w, rfl, .present ho hb hp⟩
    · obtain ⟨rfl, rfl⟩ := reads_pure.1 habsent
      exact ⟨[], rfl, .absent⟩
  complete {w keys rest} h hrest := by
    obtain ⟨horder, hmore⟩ := List.forall_mem_cons.1 hrest
    cases h with
    | absent => exact reads_accept_bind.2 (.inr ⟨horder, reads_pure.2 ⟨rfl, rfl⟩⟩)
    | @present o b w keys ho hb hp =>
      refine reads_accept_bind.2 (.inl ⟨o, b :: w ++ rest, ho, rfl, ?_⟩)
      have hkeys := (recognizes_sortKey.separated (by simp)).complete hp hmore
      exact reads_bind.2 ⟨b.text, w ++ rest, reads_expect.2 ⟨b, rfl, hb, rfl⟩, hkeys⟩

theorem reads_count {n : Nat} : Reads readCount ts n rest ↔ ∃ t, ts = t :: rest ∧ Count t n := by
  rw [readCount, reads_takeMap]
  refine exists_congr fun t => and_congr_right fun _ => ?_
  constructor
  · intro h
    split at h
    · next hkind hn =>
      cases h
      exact count_iff.2 ⟨hkind, hn⟩
    · cases h
  · intro h
    obtain ⟨hkind, hn⟩ := count_iff.1 h
    simp only [hkind, hn]

theorem recognizes_window :
    Recognizes readWindow (fun ts window => Window ts window.1 window.2)
      [.keyword .limit, .comma] where
  sound {ts window rest} h := by
    rcases reads_accept_bind.1 h with ⟨l, mid, hl, rfl, hcounts⟩ | ⟨_, habsent⟩
    · obtain ⟨m, _, hm, hsecond⟩ := reads_bind.1 hcounts
      obtain ⟨t, rfl, ht⟩ := reads_count.1 hm
      rcases reads_accept_bind.1 hsecond with ⟨comma, mid, hcomma, rfl, hlimit⟩ | ⟨_, hpure⟩
      · obtain ⟨n, _, hn, hpure⟩ := reads_bind.1 hlimit
        obtain ⟨t', rfl, ht'⟩ := reads_count.1 hn
        obtain ⟨rfl, rfl⟩ := reads_pure.1 hpure
        exact ⟨[l, t, comma, t'], rfl, .offset hl ht hcomma ht'⟩
      · obtain ⟨rfl, rfl⟩ := reads_pure.1 hpure
        exact ⟨[l, t], rfl, .limit hl ht⟩
    · obtain ⟨rfl, rfl⟩ := reads_pure.1 habsent
      exact ⟨[], rfl, .absent⟩
  complete {w window rest} h hrest := by
    have hlimit : NotNext (.keyword .limit) rest := hrest _ (by simp)
    have hcomma : NotNext .comma rest := hrest _ (by simp)
    obtain ⟨offset, limit⟩ := window
    cases h with
    | absent => exact reads_accept_bind.2 (.inr ⟨hlimit, reads_pure.2 ⟨rfl, rfl⟩⟩)
    | @limit l t n hl ht =>
      refine reads_accept_bind.2 (.inl ⟨l, t :: rest, hl, rfl, ?_⟩)
      refine reads_bind.2 ⟨n, rest, reads_count.2 ⟨t, rfl, ht⟩, ?_⟩
      exact reads_accept_bind.2 (.inr ⟨hcomma, reads_pure.2 ⟨rfl, rfl⟩⟩)
    | @offset l t c t' m n hl ht hc ht' =>
      refine reads_accept_bind.2 (.inl ⟨l, t :: c :: t' :: rest, hl, rfl, ?_⟩)
      refine reads_bind.2 ⟨m, c :: t' :: rest, reads_count.2 ⟨t, rfl, ht⟩, ?_⟩
      refine reads_accept_bind.2 (.inl ⟨c, t' :: rest, hc, rfl, ?_⟩)
      exact reads_bind.2 ⟨n, rest, reads_count.2 ⟨t', rfl, ht'⟩, reads_pure.2 ⟨rfl, rfl⟩⟩

end SearchSql.Statement
