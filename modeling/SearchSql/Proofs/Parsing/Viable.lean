import SearchSql.Proofs.Parsing.Prefixes

/-!
What stands in front of a refused token of a statement. Each reader stops within the phrases of its
part of the grammar.
-/

namespace SearchSql

open Grammar Reader

theorem Literal.stopsWithin_bind {α : Type} {missing : String} {f : Literal → Reader α}
    {L : List Token → Prop}
    (hf : ∀ t value, Value t value → StopsWithin (f value) fun w => L (t :: w)) :
    StopsWithin (Literal.reader missing >>= f) L :=
  .takeMap_bind ⟨⟨.keyword .true, "TRUE", 0⟩, .boolean true, rfl⟩
    fun t value ht => hf t value (ofToken_eq_ok_iff.1 ht)

namespace Expression

variable {f : String} {negated : Bool} {L : List Token → Prop}

theorem stops_between (hL : ∀ {l a h low high}, Value l low → a.kind = .keyword .and →
    Value h high → L [l, a, h]) : StopsWithin (readBetween f negated) L := by
  refine Literal.stopsWithin_bind fun l low hl => ?_
  refine .textOf_bind fun a ha => ?_
  exact Literal.stopsWithin_bind fun h high hh => .pure (hL hl ha hh)

theorem stops_among (hL : ∀ {left vs right values}, left.kind = .leftParen →
    Separated .comma (fun ts value => ∃ t, ts = [t] ∧ Value t value) vs values →
    right.kind = .rightParen → L (left :: (vs ++ [right]))) :
    StopsWithin (readAmong f negated) L := by
  have hvalue : StopsWithin (Literal.reader "literal value")
      fun w => ∃ value, ∃ t, w = [t] ∧ Value t value := by
    rw [← bind_pure (Literal.reader _)]
    exact Literal.stopsWithin_bind fun t value ht => .pure ⟨value, t, rfl, ht⟩
  have hvalues := @Literal.recognizes "literal value"
  refine .textOf_bind fun left hleft => ?_
  refine .bind (hvalue.separated hvalues) (hvalues.separated List.not_mem_nil) fun vs _ hvs => ?_
  exact .textOf_bind fun right hright => .pure (hL hleft hvs hright)

theorem stops_like (hL : ∀ {p}, p.kind = .text → L [p]) : StopsWithin (readLike f) L :=
  .textOf_bind fun _ hp => .pure (hL hp)

theorem stops_operand (hfield : ∀ {g}, g.kind = .identifier → L [g])
    (hvalue : ∀ {v value}, Value v value → L [v]) : StopsWithin readOperand L := by
  refine .peek_bind fun kind => ?_
  split
  · exact .textOf_bind fun g hg => .pure (hfield hg)
  · exact Literal.stopsWithin_bind fun v value hv => .pure (hvalue hv)

theorem stops_presence (hL : ∀ {nots m required}, Grammar.Optional (.keyword .not) nots required →
    m.kind = .keyword .miss ∨ m.kind = .keyword .null → L (nots ++ [m])) :
    StopsWithin (readPresence f) L := by
  refine .accept_bind (fun t ht => ?_) fun _ => ?_
  · refine .accept_bind (fun m hm => .pure (hL (.present ht) (.inl hm))) fun _ => ?_
    exact .accept_bind (fun m hm => .pure (hL (.present ht) (.inr hm))) .refuse
  · refine .accept_bind (fun m hm => .pure (hL .absent (.inl hm))) fun _ => ?_
    exact .accept_bind (fun m hm => .pure (hL .absent (.inr hm))) .refuse

theorem stops_test {n : Token} (hn : n.kind = .identifier) :
    StopsWithin (readTest n.text) fun w => ∃ e, Predicate (n :: w) e := by
  refine .takeMap_bind ⟨⟨.keyword .is, "IS", 0⟩, .is, rfl⟩ fun t word hword => ?_
  have ht : t.kind = TestWord.kind word := by
    split at hword
    · next hkind =>
      cases hword
      exact TestWord.ofKind?_eq_some_iff.1 hkind
    · cases hword
  cases word with
  | operator op =>
    exact (stops_operand (fun hg => ⟨_, .compareField hn ht hg⟩)
      fun hv => ⟨_, .compare hn ht hv⟩).map
  | not =>
    refine .accept_bind (fun b hb => ?_) fun _ => ?_
    · exact stops_between fun hl ha hh => ⟨_, .between hn (.present ht) hb hl ha hh⟩
    refine .accept_bind (fun i hi => ?_) fun _ => ?_
    · exact stops_among fun hleft hvs hright => ⟨_, .among hn (.present ht) hi hleft hvs hright⟩
    refine .accept_bind (fun l hl => ?_) .refuse
    exact (stops_like fun hp => ⟨_, .notLike hn ht hl hp⟩).map
  | between => exact stops_between fun hl ha hh => ⟨_, .between hn .absent ht hl ha hh⟩
  | among =>
    exact stops_among fun hleft hvs hright => ⟨_, .among hn .absent ht hleft hvs hright⟩
  | like => exact stops_like fun hp => ⟨_, .like hn ht hp⟩
  | is => exact stops_presence fun hnots hm => ⟨_, .present hn ht hnots hm⟩

theorem stops_simple : StopsWithin readSimple fun w => ∃ e, Predicate w e := by
  refine .peek_bind fun kind => ?_
  have hname : StopsWithin (identifier "field name" >>= readTest) fun w => ∃ e, Predicate w e :=
    .textOf_bind fun n hn => stops_test hn
  split
  · exact .refuse hname.exists_phrase
  · exact hname
  · refine Literal.stopsWithin_bind fun v value hv => ?_
    refine .takeMap_bind ⟨⟨.operator .eq, "=", 0⟩, .eq, rfl⟩ fun c op hop => ?_
    suffices hkind : c.kind = .operator op from
      .textOf_bind fun g hg => .pure ⟨_, .flipped hv hkind (turned_iff.2 rfl) hg⟩
    split at hop
    · next hkind =>
      cases hop
      exact hkind
    · cases hop

-- As in the readers, the tokens and the level of the condition decrease together.
mutual

theorem stopsAt_disjuncts (ts : List Token) :
    StopsAt readDisjuncts (fun w => ∃ es, Disjuncts w es) ts := by
  rw [readDisjuncts_eq_run]
  refine stopsAt_run (stopsAt_conjuncts ts) conjuncts_of_reads (fun {es t mid} hread => ?_)
    (fun hp => ⟨_, .one hp (joined_iff.2 ⟨hp.ne_nil, rfl⟩)⟩) fun hp ht hmore => ?_
  · have hlength := hread.length_le
    exact stopsAt_disjuncts mid
  · obtain ⟨ds, hmore⟩ := hmore
    exact ⟨_, .more hp (joined_iff.2 ⟨hp.ne_nil, rfl⟩) ht hmore⟩
termination_by (ts.length, 3)
decreasing_by
  · simp [Prod.lex_def]
  · simp only [List.length_cons] at hlength
    simp only [Prod.lex_def]
    omega

theorem stopsAt_conjuncts (ts : List Token) :
    StopsAt readConjuncts (fun w => ∃ es, Conjuncts w es) ts := by
  rw [readConjuncts_eq_run]
  refine stopsAt_run (stopsAt_negation ts) negation_of_reads (fun {e t mid} hread => ?_)
    (fun hp => ⟨_, .one hp⟩) fun hp ht hmore => ?_
  · have hlength := hread.length_le
    exact stopsAt_conjuncts mid
  · obtain ⟨es, hmore⟩ := hmore
    exact ⟨_, .more hp ht hmore⟩
termination_by (ts.length, 2)
decreasing_by
  · simp [Prod.lex_def]
  · simp only [List.length_cons] at hlength
    simp only [Prod.lex_def]
    omega

theorem stopsAt_negation (ts : List Token) :
    StopsAt readNegation (fun w => ∃ e, Negated w e) ts := by
  rw [readNegation_eq]
  intro bad expected h
  obtain ⟨t, mid, hnot, hts, hnegated⟩ | ⟨_, hprimary⟩ := refuses_accept_bind.1 h
  · obtain ⟨w, rfl, hw⟩ := stopsAt_negation mid (refuses_map.1 hnegated)
    refine ⟨t :: w, hts, .cons (hw.mono fun v hv => ?_)⟩
    obtain ⟨e, hv⟩ := hv
    exact ⟨_, .not hnot hv⟩
  · obtain ⟨w, rfl, hw⟩ := stopsAt_primary ts hprimary
    exact ⟨w, rfl, hw.mono fun v ⟨e, hv⟩ => ⟨e, .primary hv⟩⟩
termination_by (ts.length, 1)
decreasing_by
  · simp [Prod.lex_def, hts]
  · simp [Prod.lex_def]

theorem stopsAt_primary (ts : List Token) :
    StopsAt readPrimary (fun w => ∃ e, Primary w e) ts := by
  rw [readPrimary_eq]
  intro bad expected h
  obtain ⟨left, mid, hleft, hts, hparens⟩ | ⟨_, hsimple⟩ := refuses_accept_bind.1 h
  · have hclosed {v es} (hv : Disjuncts v es) :
        ∃ e, Primary (left :: (v ++ [⟨.rightParen, ")", 0⟩])) e :=
      ⟨_, .parens hleft hv (joined_iff.2 ⟨hv.ne_nil, rfl⟩) rfl⟩
    obtain hinner | ⟨es, rest, hread, hclosing⟩ := refuses_bind.1 hparens
    · obtain ⟨w, rfl, hw⟩ := stopsAt_disjuncts mid hinner
      exact ⟨left :: w, hts, .cons (hw.extend fun v ⟨es, hv⟩ => ⟨_, hclosed hv⟩)⟩
    · obtain ⟨_, rfl, _⟩ := refuses_expect.1 (refuses_map.1 hclosing)
      obtain ⟨w, rfl, hw⟩ := disjuncts_of_reads hread
      exact ⟨left :: w, hts, .phrase (hclosed hw)⟩
  · obtain ⟨w, rfl, hw⟩ := stops_simple.stopsAt ts hsimple
    exact ⟨w, rfl, hw.mono fun v ⟨e, hv⟩ => ⟨e, .predicate hv⟩⟩
termination_by (ts.length, 0)
decreasing_by simp [Prod.lex_def, hts]

end

theorem stops_condition : StopsWithin Expression.reader fun w => ∃ e, Condition w e := by
  have hcondition {w es} (hp : Disjuncts w es) : ∃ e, Condition w e :=
    ⟨_, .mk hp (joined_iff.2 ⟨hp.ne_nil, rfl⟩)⟩
  refine .map ⟨?_, fun ts bad expected h => ?_⟩
  · obtain ⟨w, e, hp⟩ := stops_simple.exists_phrase
    exact ⟨w, hcondition (.one (.one (.primary (.predicate hp))) .one)⟩
  · obtain ⟨w, rfl, hw⟩ := stopsAt_disjuncts ts h
    exact ⟨w, rfl, hw.mono fun v ⟨es, hp⟩ => hcondition hp⟩

end Expression

namespace Statement

/-- Behind the parenthesis of a function. A star is not refused before the closing parenthesis. -/
theorem begins_of_refuses_argument {n left : Token} {ts bad : List Token} {metric : Metric}
    {expected : String} {check : Option String → Reader SelectItem} (hn : n.kind = .identifier)
    (hmetric : FunctionName n.text metric) (hleft : left.kind = .leftParen)
    (h : Refuses (do
      let field ← readAggregateField
      let _ ← expect .rightParen
      check field) ts bad expected) :
    (∃ w, n :: left :: ts = w ++ bad ∧ Begins (fun w => ∃ item, Item w item) expected w) ∨
      ∃ field rest, Refuses (check field) rest bad expected := by
  have hname : (⟨.identifier, "a", 0⟩ : Token).kind = .identifier := rfl
  have hright : (⟨.rightParen, ")", 0⟩ : Token).kind = .rightParen := rfl
  have hitem {f right : Token} (hf : f.kind = .identifier) (hright : right.kind = .rightParen) :
      ∃ item, Item [n, left, f, right] item := ⟨_, .aggregate hn hmetric hleft hf hright⟩
  obtain hargument | ⟨field, rest, hread, hclosing⟩ := refuses_bind.1 h
  · obtain ⟨_, _, _, _, hstar⟩ | ⟨_, hfield⟩ := refuses_accept_bind.1 hargument
    · exact (refuses_pure hstar).elim
    · obtain ⟨_, rfl, _⟩ := refuses_textOf.1 (refuses_map.1 hfield)
      exact .inl ⟨[n, left], rfl, .phrase (hitem hname hright)⟩
  · obtain hexpect | ⟨_, rest, _, hcheck⟩ := refuses_bind.1 hclosing
    · obtain ⟨_, rfl, rfl⟩ := refuses_expect.1 hexpect
      obtain ⟨f, rfl, hf⟩ := reads_aggregateField.1 hread
      refine .inl ⟨[n, left, f], rfl, ?_⟩
      obtain ⟨hstar, _⟩ | ⟨hf, _⟩ := hf
      · by_cases hcount : metric = .count
        · exact .phrase ⟨_, .count hn (hcount ▸ hmetric) hleft hstar hright⟩
        · exact .star (w := []) rfl hn hmetric hcount hleft hstar (hitem hname hright)
      · exact .phrase (hitem hf hright)
    · exact .inr ⟨field, rest, hcheck⟩

theorem stops_item : StopsWithin readItem fun w => ∃ item, Item w item := by
  have hfield : ∃ w, ∃ item, Item w item := ⟨[⟨.identifier, "a", 0⟩], _, .field rfl⟩
  refine ⟨hfield, fun ts bad expected h => ?_⟩
  obtain hname | ⟨_, mid, hread, hitem⟩ := refuses_bind.1 h
  · obtain ⟨_, rfl, _⟩ := refuses_textOf.1 hname
    exact ⟨[], rfl, .nil hfield⟩
  obtain ⟨n, rfl, hn, rfl⟩ := reads_identifier.1 hread
  obtain ⟨left, mid, hleft, rfl, hover⟩ | ⟨_, hpure⟩ := refuses_accept_bind.1 hitem
  · simp only [↓reduceIte] at hover
    split at hover
    · obtain ⟨rfl, _⟩ := refuses_refuseAt.1 hover
      exact ⟨[], rfl, .nil hfield⟩
    · next metric hmetric =>
      obtain hargument | ⟨field, rest, hcheck⟩ :=
        begins_of_refuses_argument hn (functionName_iff.2 hmetric) hleft hover
      · exact hargument
      · split at hcheck
        · obtain ⟨rfl, _⟩ := refuses_refuseAt.1 hcheck
          exact ⟨[], rfl, .nil hfield⟩
        · exact (refuses_pure hcheck).elim
  · exact (refuses_pure hpure).elim

theorem stops_projection : StopsWithin readProjection fun w => ∃ items, Projection w items := by
  refine .accept_bind (fun t ht => .pure ⟨_, .star ht⟩) fun _ => ?_
  refine (stops_item.separated recognizes_item).extend fun w hw => ?_
  obtain ⟨items, hw⟩ := hw
  exact ⟨[], items, by simpa using .items hw⟩

theorem stops_target : StopsWithin readTarget fun w => ∃ target, Source w target := by
  refine .textOf_bind fun n hn => ?_
  refine .accept_bind (fun slash hslash => ?_) fun _ => .pure ⟨_, .index hn⟩
  exact .textOf_bind fun t ht => .pure ⟨_, .typed hn hslash ht⟩

theorem stops_sortKey : StopsWithin readSortKey fun w => ∃ key, Key w key := by
  refine .textOf_bind fun n hn => ?_
  refine .accept_bind (fun d hd => .pure ⟨_, .descending hn hd⟩) fun _ => ?_
  exact .accept_bind (fun a ha => .pure ⟨_, .ascending hn (.present ha)⟩)
    fun _ => .pure ⟨_, .ascending hn .absent⟩

theorem stops_where : StopsWithin readCondition fun w => ∃ condition, Where w condition := by
  refine .accept_bind (fun t ht => ?_) fun _ => .pure ⟨_, .absent⟩
  refine (Expression.stops_condition.extend fun w hw => ?_).map
  obtain ⟨e, hw⟩ := hw
  exact ⟨[], some e, by simpa using .present ht hw⟩

theorem stops_order : StopsWithin readOrder fun w => ∃ keys, Order w keys := by
  refine .accept_bind (fun o ho => ?_) fun _ => .pure ⟨_, .absent⟩
  refine .textOf_bind fun b hb => ?_
  refine (stops_sortKey.separated recognizes_sortKey).extend fun w hw => ?_
  obtain ⟨keys, hw⟩ := hw
  exact ⟨[], keys, by simpa using .present ho hb hw⟩

theorem stopsWithin_count_bind {α : Type} {f : Nat → Reader α} {L : List Token → Prop}
    (hf : ∀ t n, Count t n → StopsWithin (f n) fun w => L (t :: w)) :
    StopsWithin (readCount >>= f) L := by
  have hone : Decimal.uint64? "1" = some 1 := by decide
  refine .takeMap_bind ⟨⟨.number, "1", 0⟩, 1, by simp [hone]⟩ fun t n ht => hf t n ?_
  split at ht
  · next hkind hn =>
    cases ht
    exact count_iff.2 ⟨hkind, hn⟩
  · cases ht

theorem stops_window :
    StopsWithin readWindow fun w => ∃ window : Option Nat × Option Nat,
      Window w window.1 window.2 := by
  refine .accept_bind (fun l hl => ?_) fun _ => .pure ⟨(none, none), .absent⟩
  refine stopsWithin_count_bind fun t m ht => ?_
  refine .accept_bind (fun comma hcomma => ?_) fun _ => .pure ⟨(none, some m), .limit hl ht⟩
  exact stopsWithin_count_bind fun t' n ht' =>
    .pure ⟨(some m, some n), .offset hl ht hcomma ht'⟩

theorem stops_reader : StopsWithin Statement.reader fun w => ∃ s, Sentence w s := by
  have hsource := recognizes_target.separated (by simp)
  refine .textOf_bind fun select hselect => ?_
  refine .bind stops_projection recognizes_projection fun ps projection hps => ?_
  refine .textOf_bind fun from_ hfrom => ?_
  refine .bind (stops_target.separated recognizes_target) hsource fun ss targets hss => ?_
  refine .bind stops_where recognizes_where fun ws condition hws => ?_
  refine .bind stops_order recognizes_order fun os order hos => ?_
  refine .bind stops_window recognizes_window fun ls window hls => ?_
  have hsentence {es closed} (hes : Grammar.Optional .semicolon es closed) :
      ∃ s, Sentence (select :: (ps ++ from_ :: (ss ++ (ws ++ (os ++ (ls ++ es)))))) s :=
    ⟨_, by simpa using Sentence.mk hselect hps hfrom hss hws hos hls hes⟩
  refine .accept_bind (fun t ht => ?_) fun _ => ?_
  · exact .endOfInput_bind (.pure (hsentence (.present ht)))
  · exact .endOfInput_bind (.pure (hsentence .absent))

end Statement

end SearchSql
