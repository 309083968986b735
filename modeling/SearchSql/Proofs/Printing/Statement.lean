import Mathlib
import SearchSql.Proofs.Parsing.Sentence
import SearchSql.Proofs.Printing.Condition

/-!
The text of a statement gives the statement again. Every clause of it is derived by the tokens of
its text, and a clause that is left out leaves nothing in the text.
-/

namespace SearchSql

open Grammar

theorem Metric.functionName_name (m : Metric) : FunctionName m.name m := by
  refine functionName_iff.2 ?_
  cases m <;> cbv

def SelectItem.IsPlain : SelectItem → Prop
  | .star => True
  | .field name => IsBareName name
  | .aggregate a => ∀ name ∈ a.field, IsBareName name

def Target.IsPlain (t : Target) : Prop :=
  IsBareName t.index ∧ ∀ docType ∈ t.docType, IsBareName docType

/-- A statement with bare names only, and with literals whose text gives their value. -/
structure Statement.IsPlain (s : Statement) : Prop where
  projection : ∀ item ∈ s.projection, item.IsPlain
  targets : ∀ target ∈ s.targets, target.IsPlain
  condition : ∀ e ∈ s.condition, e.IsPlain
  order : ∀ key ∈ s.order, IsBareName key.field

namespace Statement

variable {w : List Token}

theorem spells_item {item : SelectItem} (h : Item w item) (hplain : item.IsPlain) :
    Spells item.sql (Item · item) := by
  cases h with
  | @field n _ =>
    have hname : IsBareName n.text := hplain
    refine .last hname.spells fun n' hn => ?_
    exact hn.2 ▸ .field hn.1
  | @aggregate n left f right metric _ _ _ _ _ =>
    have hfield : IsBareName f.text := hplain f.text rfl
    simp only [SelectItem.sql, Aggregate.sql, Option.getD_some, String.append_assoc]
    refine .token metric.spells (by simp [Lexeme.continuesWord]) fun n' hn => ?_
    refine .punctuation (c := '(') rfl rfl fun left' hleft => ?_
    refine .token hfield.spells (by simp [Lexeme.continuesWord]) fun f' hf => ?_
    refine .closing (c := ')') rfl rfl fun right' hright => ?_
    have hmetric : FunctionName n'.text metric := hn.2 ▸ metric.functionName_name
    exact hf.2 ▸ .aggregate hn.1 hmetric hleft hf.1 hright
  | @count n left star right _ _ _ _ _ =>
    simp only [SelectItem.sql, Aggregate.sql, Option.getD_none, String.append_assoc]
    refine .token (Metric.spells .count) (by simp [Lexeme.continuesWord]) fun n' hn => ?_
    refine .punctuation (c := '(') rfl rfl fun left' hleft => ?_
    refine .punctuation (c := '*') rfl rfl fun star' hstar => ?_
    refine .closing (c := ')') rfl rfl fun right' hright => ?_
    have hmetric : FunctionName n'.text .count := hn.2 ▸ Metric.functionName_name .count
    exact .count hn.1 hmetric hleft hstar hright

theorem spells_projection {items : List SelectItem} (h : Projection w items)
    (hplain : ∀ item ∈ items, item.IsPlain) :
    Spells (String.intercalate ", " (items.map SelectItem.sql)) (Projection · items) := by
  cases h with
  | star _ => exact .closing (c := '*') rfl rfl fun t ht => .star ht
  | items hitems =>
    have htexts := separates_comma_space.rederive hitems fun item hmem ts hts =>
      spells_item hts (hplain item hmem)
    exact htexts.mono fun ts hts => .items hts

theorem spells_target {target : Target} (h : Source w target) (hplain : target.IsPlain) :
    Spells target.sql (Source · target) := by
  cases h with
  | @index n _ =>
    have hindex : IsBareName n.text := hplain.1
    refine .last hindex.spells fun n' hn => ?_
    exact hn.2 ▸ .index hn.1
  | @typed n slash t _ _ _ =>
    have hindex : IsBareName n.text := hplain.1
    have htype : IsBareName t.text := hplain.2 t.text rfl
    simp only [Target.sql, String.append_assoc]
    refine .token hindex.spells (by simp [Lexeme.continuesWord]) fun n' hn => ?_
    refine .punctuation (c := '/') rfl rfl fun slash' hslash => ?_
    refine .last htype.spells fun t' ht => ?_
    have hsource := Source.typed hn.1 hslash ht.1
    rwa [hn.2, ht.2] at hsource

theorem spells_where {condition : Option Expression} (h : Where w condition)
    (hplain : ∀ e ∈ condition, e.IsPlain) : Spells (whereText condition) (Where · condition) := by
  cases h with
  | absent => exact .empty .absent
  | @present _ _ e _ hcondition =>
    have htext := Expression.spells_condition hcondition (hplain e rfl)
    refine (separates_keyword .where).spells fun t ht => ?_
    exact htext.mono fun ts hts => .present ht hts

theorem spells_sortKey {key : SortKey} (h : Key w key) (hplain : IsBareName key.field) :
    Spells key.sql (Key · key) := by
  cases h with
  | @ascending n _ _ _ _ =>
    have hname : IsBareName n.text := hplain
    refine .last hname.spells fun n' hn => ?_
    exact hn.2 ▸ .ascending hn.1 .absent
  | @descending n _ _ _ =>
    have hname : IsBareName n.text := hplain
    have hdesc : " DESC" = " " ++ "DESC" := by rfl
    simp only [SortKey.sql, hdesc]
    refine .spaced hname.spells fun n' hn => .last Keyword.desc.spells fun d hd => ?_
    exact hn.2 ▸ .descending hn.1 hd

theorem spells_order {keys : List SortKey} (h : Order w keys)
    (hplain : ∀ key ∈ keys, IsBareName key.field) : Spells (orderText keys) (Order · keys) := by
  cases h with
  | absent => exact .empty .absent
  | present _ _ hkeys =>
    have horder : " ORDER BY " = " " ++ ("ORDER " ++ "BY ") := by rfl
    have htexts := separates_comma_space.rederive hkeys fun key hmem ts hts =>
      spells_sortKey hts (hplain key hmem)
    rw [orderText, if_neg hkeys.ne_nil, horder, String.append_assoc, String.append_assoc]
    refine .space (.word .order rfl fun o ho => .word .by rfl fun b hb => ?_)
    exact htexts.mono fun ts hts => .present ho hb hts

theorem spells_count {t : Token} {n : Nat} (h : Count t n) :
    SpellsToken (toString n) (Count · n) := by
  obtain ⟨_, _, hfits⟩ := h
  refine (spellsToken_digits Nat.toList_repr (areDigits_toDigits _)).imp fun t ht => ?_
  have hn : Natural t.text.toList n := ht.2 ▸ Decimal.natural_toString n
  exact .mk ht.1 hn hfits

theorem spells_window {offset limit : Option Nat} (h : Window w offset limit) :
    Spells (limitText offset limit) (Window · offset limit) := by
  cases h with
  | absent => exact .empty .absent
  | limit _ ht =>
    refine (separates_keyword .limit).spells fun l hl => ?_
    exact .last (spells_count ht) fun t ht => .limit hl ht
  | offset _ hm _ hn =>
    simp only [limitText, String.append_assoc]
    refine (separates_keyword .limit).spells fun l hl => ?_
    refine .token (spells_count hm) (separates_comma_space.ends _) fun m hm => ?_
    refine separates_comma_space.spells fun comma hcomma => ?_
    exact .last (spells_count hn) fun n hn => .offset hl hm hcomma hn

theorem endsWord_whereText (condition : Option Expression) :
    EndsWord (whereText condition).toList := by
  cases condition with
  | none => simp [whereText]
  | some e => exact (separates_keyword .where).ends _

theorem endsWord_orderText (keys : List SortKey) : EndsWord (orderText keys).toList := by
  rw [orderText]
  split
  · simp
  · simp [Lexeme.continuesWord]

theorem endsWord_limitText (offset limit : Option Nat) :
    EndsWord (limitText offset limit).toList := by
  unfold limitText
  split <;> simp [Lexeme.continuesWord]

/-- Any statement that some tokens derive is derived by the tokens of its text. -/
theorem spells_sentence {s : Statement} (h : Sentence w s) (hplain : s.IsPlain) :
    Spells s.sql (Sentence · s) := by
  obtain @⟨select, ps, from_, ss, ws, os, ls, es, closed, projection, targets, condition, order,
    offset, limit, _, hps, _, hss, hws, hos, hls, _⟩ := h
  have htargets := separates_comma.rederive hss fun target hmem ts hts =>
    spells_target hts (hplain.targets target hmem)
  have hlimit := endsWord_limitText offset limit
  have horder : EndsWord (orderText order ++ limitText offset limit).toList := by
    rw [String.toList_append]
    exact (endsWord_orderText order).append hlimit
  have hwhere : EndsWord
      (whereText condition ++ (orderText order ++ limitText offset limit)).toList := by
    rw [String.toList_append]
    exact (endsWord_whereText condition).append horder
  simp only [sql, String.append_assoc]
  refine .word .select rfl fun select hselect => ?_
  refine .append (spells_projection hps hplain.projection) ((separates_keyword .from).ends _)
    fun ps hps => ?_
  refine (separates_keyword .from).spells fun from_ hfrom => ?_
  refine .append htargets hwhere fun ts hts => ?_
  refine .append (spells_where hws hplain.condition) horder fun ws hws => ?_
  refine .append (spells_order hos hplain.order) hlimit fun os hos => ?_
  refine (spells_window hls).mono fun ls hls => ?_
  have hsentence := Sentence.mk hselect hps hfrom hts hws hos hls .absent
  simpa using hsentence

/-- Printing a plain statement and reading its text gives the statement again. -/
theorem ofText_sql {text : String} {s : Statement} (h : ofText text = .ok s) (hplain : s.IsPlain) :
    ofText s.sql = .ok s := by
  rw [ofText] at h
  cases htext : Token.ofText text with
  | error e =>
    rw [htext] at h
    cases h
  | ok ts =>
    rw [htext] at h
    have hspells := spells_sentence (ofTokensUpTo_eq_ok_iff.1 h) hplain
    obtain ⟨ts', hts', hsentence⟩ := hspells.ofText_eq
    rw [ofText, hts']
    exact ofTokensUpTo_eq_ok_iff.2 hsentence

theorem ofText_sql_negation :
    let s : Statement :=
      { projection := [.field "a"], targets := [⟨"b", none⟩],
        condition := some (.logical .not [.logical .or
          [.compare "a" .eq (.literal (.text "it's")),
            .among "a" [.integer 1, .integer (-2)] false]]),
        order := [], limit := some 5, offset := none }
    ofText "select `a` from b where (not ((a = 'it\\'s') or a in (1, -2))) limit 5;" = .ok s ∧
      s.IsPlain ∧ ofText s.sql = .ok s := by
  intro s
  have hread : ofText "select `a` from b where (not ((a = 'it\\'s') or a in (1, -2))) limit 5;" =
      .ok s := by cbv
  have ha : IsBareName "a" := by cbv
  have hb : IsBareName "b" := by cbv
  have hequal : (Expression.compare "a" .eq (.literal (.text "it's"))).IsPlain :=
    .compare ha (.literal (by simp [Literal.IsPlain]))
  have hamong : (Expression.among "a" [.integer 1, .integer (-2)] false).IsPlain :=
    .among ha (by simp [Literal.IsPlain])
  have hcondition : ∀ e ∈ s.condition, e.IsPlain := by
    intro e he
    cases he
    refine .logical (List.forall_mem_singleton.2 (.logical ?_))
    exact List.forall_mem_cons.2 ⟨hequal, List.forall_mem_singleton.2 hamong⟩
  have hplain : s.IsPlain :=
    { projection := List.forall_mem_singleton.2 ha
      targets := List.forall_mem_singleton.2 ⟨hb, by simp⟩
      condition := hcondition
      order := List.forall_mem_nil _ }
  exact ⟨hread, hplain, ofText_sql hread hplain⟩

end Statement

end SearchSql
