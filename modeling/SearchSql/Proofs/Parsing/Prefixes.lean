import SearchSql.Proofs.Parsing.Refusals

/-!
What stands in front of a refused token. It begins a phrase of what was being read: some tokens
could follow with which the reader would have gone on. Only behind the star of a function that takes
none nothing can follow, since the reader looks for the parenthesis first.
-/

namespace SearchSql

open Grammar

/-- Tokens in front of a refused one can be continued to a phrase. Where a parenthesis was expected,
they may instead end with a star that their function does not take, and could be continued without
it. -/
inductive Begins (L : List Token → Prop) (expected : String) : List Token → Prop
  | phrase {w more} : L (w ++ more) → Begins L expected w
  | star {w n left star metric more} : expected = TokenKind.rightParen.name →
      n.kind = .identifier → FunctionName n.text metric → metric ≠ .count →
      left.kind = .leftParen → star.kind = .star → L (w ++ n :: left :: more) →
      Begins L expected (w ++ [n, left, star])

namespace Begins

variable {L M : List Token → Prop} {u w : List Token} {expected : String}

theorem nil (h : ∃ w, L w) : Begins L expected [] := by
  obtain ⟨w, h⟩ := h
  exact .phrase h

theorem extend (h : Begins M expected w) (hext : ∀ v, M v → ∃ more, L (v ++ more)) :
    Begins L expected w := by
  cases h with
  | phrase h =>
    obtain ⟨more, h⟩ := hext _ h
    rw [List.append_assoc] at h
    exact .phrase h
  | star hexpected hn hmetric hcount hleft hstar h =>
    obtain ⟨more, h⟩ := hext _ h
    rw [List.append_assoc] at h
    exact .star hexpected hn hmetric hcount hleft hstar h

theorem mono (h : Begins M expected w) (hsub : ∀ v, M v → L v) : Begins L expected w :=
  h.extend fun v hv => ⟨[], (List.append_nil v).symm ▸ hsub v hv⟩

theorem append (h : Begins (fun v => L (u ++ v)) expected w) : Begins L expected (u ++ w) := by
  cases h with
  | phrase h =>
    rw [← List.append_assoc] at h
    exact .phrase h
  | star hexpected hn hmetric hcount hleft hstar h =>
    rw [← List.append_assoc] at h ⊢
    exact .star hexpected hn hmetric hcount hleft hstar h

theorem cons {t : Token} (h : Begins (fun v => L (t :: v)) expected w) :
    Begins L expected (t :: w) :=
  append (u := [t]) h

end Begins

namespace Reader

variable {α β : Type} {r : Reader α} {f : α → Reader β} {kind : TokenKind} {missing : String}
  {L M : List Token → Prop} {ts : List Token} {a : α}

/-- On these tokens, what the reader takes before it refuses begins a phrase of `L`. -/
def StopsAt (r : Reader α) (L : List Token → Prop) (ts : List Token) : Prop :=
  ∀ ⦃bad expected⦄, Refuses r ts bad expected → ∃ w, ts = w ++ bad ∧ Begins L expected w

/-- There are phrases of `L`, and what the reader takes before it refuses begins one. -/
structure StopsWithin (r : Reader α) (L : List Token → Prop) : Prop where
  exists_phrase : ∃ w, L w
  stopsAt : ∀ ts, StopsAt r L ts

/-- A run stops within one of its items, or within the others behind a token that joins them. -/
theorem stopsAt_run {item : Reader α} {more : Reader (List β)} {g : α → β}
    {P : List Token → α → Prop} {S : List Token → Prop}
    (hitem : StopsAt item (fun w => ∃ a, P w a) ts)
    (hsound : ∀ {a rest}, Reads item ts a rest → ∃ w, ts = w ++ rest ∧ P w a)
    (hmore : ∀ {a t mid}, Reads item ts a (t :: mid) → StopsAt more S mid)
    (hone : ∀ {w a}, P w a → S w)
    (hcons : ∀ {w a t v}, P w a → t.kind = kind → S v → S (w ++ t :: v)) :
    StopsAt (run kind item more g) S ts := by
  intro bad expected h
  rw [run_eq_bind] at h
  obtain hfirst | ⟨a, mid, hread, hjoined⟩ := refuses_bind.1 h
  · obtain ⟨w, rfl, hw⟩ := hitem hfirst
    exact ⟨w, rfl, hw.mono fun v ⟨a, hp⟩ => hone hp⟩
  · obtain ⟨t, mid, ht, rfl, hothers⟩ | ⟨_, hpure⟩ := refuses_accept_bind.1 hjoined
    · obtain ⟨w, rfl, hp⟩ := hsound hread
      obtain ⟨v, rfl, hv⟩ := hmore hread (refuses_map.1 hothers)
      have hbegins : Begins (fun v => S (w ++ t :: v)) expected v := hv.mono fun v => hcons hp ht
      exact ⟨w ++ t :: v, by simp, .append (.cons hbegins)⟩
    · exact (refuses_pure hpure).elim

namespace StopsWithin

theorem pure (h : L []) : StopsWithin (pure a) L :=
  ⟨⟨[], h⟩, fun _ _ _ hrefuses => (refuses_pure hrefuses).elim⟩

theorem refuse (h : ∃ w, L w) : StopsWithin (refuse missing : Reader α) L := by
  refine ⟨h, fun ts bad expected hrefuses => ?_⟩
  obtain ⟨rfl, _⟩ := refuses_refuse.1 hrefuses
  exact ⟨[], rfl, .nil h⟩

theorem takeMap_bind {g : Token → Except String α} (hexists : ∃ t a, g t = .ok a)
    (hf : ∀ t a, g t = .ok a → StopsWithin (f a) fun w => L (t :: w)) :
    StopsWithin (takeMap missing g >>= f) L := by
  have hphrase : ∃ w, L w := by
    obtain ⟨t, a, ht⟩ := hexists
    obtain ⟨w, hw⟩ := (hf t a ht).exists_phrase
    exact ⟨t :: w, hw⟩
  refine ⟨hphrase, fun ts bad expected h => ?_⟩
  obtain htoken | ⟨a, mid, hread, hnext⟩ := refuses_bind.1 h
  · obtain ⟨rfl, _⟩ := refuses_takeMap.1 htoken
    exact ⟨[], rfl, .nil hphrase⟩
  · obtain ⟨t, rfl, ht⟩ := reads_takeMap.1 hread
    obtain ⟨w, rfl, hw⟩ := (hf t a ht).stopsAt mid hnext
    exact ⟨t :: w, rfl, hw.cons⟩

theorem textOf_bind {f : String → Reader β}
    (hf : ∀ t, t.kind = kind → StopsWithin (f t.text) fun w => L (t :: w)) :
    StopsWithin (textOf kind missing >>= f) L := by
  refine takeMap_bind ⟨⟨kind, "", 0⟩, "", if_pos rfl⟩ fun t s ht => ?_
  split at ht
  · next hkind =>
    cases ht
    exact hf t hkind
  · cases ht

/-- A reader that goes on as an optional token tells. There are phrases with the token. -/
theorem accept_bind {g : Bool → Reader α}
    (hyes : ∀ t, t.kind = kind → StopsWithin (g true) fun w => L (t :: w))
    (hno : (∃ w, L w) → StopsWithin (g false) L) : StopsWithin (accept kind >>= g) L := by
  have hphrase : ∃ w, L w := by
    obtain ⟨w, hw⟩ := (hyes ⟨kind, "", 0⟩ rfl).exists_phrase
    exact ⟨_, hw⟩
  refine ⟨hphrase, fun ts bad expected h => ?_⟩
  obtain ⟨t, mid, ht, rfl, hwith⟩ | ⟨_, hwithout⟩ := refuses_accept_bind.1 h
  · obtain ⟨w, rfl, hw⟩ := (hyes t ht).stopsAt mid hwith
    exact ⟨t :: w, rfl, hw.cons⟩
  · exact (hno hphrase).stopsAt ts hwithout

theorem peek_bind {g : Option TokenKind → Reader α} (hg : ∀ kind, StopsWithin (g kind) L) :
    StopsWithin (peek >>= g) L :=
  ⟨(hg none).exists_phrase, fun ts _ _ h => (hg _).stopsAt ts (refuses_peek_bind.1 h)⟩

theorem endOfInput_bind {f : Unit → Reader β} (hf : StopsWithin (f ()) L) :
    StopsWithin (endOfInput >>= f) L := by
  refine ⟨hf.exists_phrase, fun ts bad expected h => ?_⟩
  obtain hmore | ⟨_, mid, hread, hnext⟩ := refuses_bind.1 h
  · obtain ⟨_, rfl, _⟩ := refuses_endOfInput.1 hmore
    exact ⟨[], rfl, .nil hf.exists_phrase⟩
  · obtain ⟨rfl, rfl⟩ := reads_endOfInput.1 hread
    exact hf.stopsAt [] hnext

theorem map (h : StopsWithin r L) {g : α → β} :
    StopsWithin (r >>= fun a => Pure.pure (g a)) L :=
  ⟨h.exists_phrase, fun ts _ _ hrefuses => h.stopsAt ts (refuses_map.1 hrefuses)⟩

theorem extend (h : StopsWithin r M) (hext : ∀ v, M v → ∃ more, L (v ++ more)) :
    StopsWithin r L := by
  constructor
  · obtain ⟨v, hv⟩ := h.exists_phrase
    obtain ⟨more, hmore⟩ := hext v hv
    exact ⟨_, hmore⟩
  · intro ts bad expected hrefuses
    obtain ⟨w, rfl, hw⟩ := h.stopsAt ts hrefuses
    exact ⟨w, rfl, hw.extend hext⟩

/-- A phrase is read, and then what may follow it. -/
theorem bind {P : List Token → α → Prop} {extending : List TokenKind}
    (hr : StopsWithin r fun w => ∃ a, P w a) (hrec : Recognizes r P extending)
    (hf : ∀ w a, P w a → StopsWithin (f a) fun v => L (w ++ v)) : StopsWithin (r >>= f) L := by
  have hfirst : StopsWithin r L := by
    refine hr.extend fun w hw => ?_
    obtain ⟨a, hp⟩ := hw
    exact (hf w a hp).exists_phrase
  refine ⟨hfirst.exists_phrase, fun ts bad expected h => ?_⟩
  obtain hrefuses | ⟨a, mid, hread, hnext⟩ := refuses_bind.1 h
  · exact hfirst.stopsAt ts hrefuses
  · obtain ⟨w, rfl, hp⟩ := hrec.sound hread
    obtain ⟨v, rfl, hv⟩ := (hf w a hp).stopsAt mid hnext
    exact ⟨w ++ v, (List.append_assoc ..).symm, hv.append⟩

theorem stopsAt_separated {P : List Token → α → Prop} {extending : List TokenKind}
    (hr : StopsWithin r fun w => ∃ a, P w a) (hrec : Recognizes r P extending) (ts : List Token) :
    StopsAt (Reader.separated r) (fun w => ∃ as, Separated .comma P w as) ts := by
  rw [separated_eq_run]
  refine stopsAt_run (hr.stopsAt ts) hrec.sound (fun {a t mid} hread => ?_)
    (fun hp => ⟨_, .one hp⟩) fun hp ht hmore => ?_
  · have hlength := hread.length_le
    exact stopsAt_separated hr hrec mid
  · obtain ⟨as, hmore⟩ := hmore
    exact ⟨_, .more hp ht hmore⟩
termination_by ts.length
decreasing_by
  rw [List.length_cons] at hlength
  omega

theorem separated {P : List Token → α → Prop} {extending : List TokenKind}
    (hr : StopsWithin r fun w => ∃ a, P w a) (hrec : Recognizes r P extending) :
    StopsWithin (Reader.separated r) fun w => ∃ as, Separated .comma P w as := by
  obtain ⟨w, a, hp⟩ := hr.exists_phrase
  exact ⟨⟨w, [a], .one hp⟩, hr.stopsAt_separated hrec⟩

end StopsWithin

end Reader

end SearchSql
