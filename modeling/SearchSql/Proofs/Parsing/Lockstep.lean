import Mathlib.Data.List.Forall2
import SearchSql.Proofs.Parsing.Composition

/-!
Two runs of a reader in step. As long as the tokens are alike, both runs read the same, and neither
run knows more of the tokens it leaves than the first one.
-/

namespace SearchSql

/-- Two lists of tokens that are alike one by one, up to where `x` and `y` are left of them. -/
def AlikeUpTo (x y ts us : List Token) : Prop :=
  ∃ w w', ts = w ++ x ∧ us = w' ++ y ∧ List.Forall₂ Token.Alike w w'

/-- The tokens that come next are alike, or none comes next. -/
def NextAlike (x y : List Token) : Prop := Option.Rel Token.Alike x.head? y.head?

namespace AlikeUpTo

variable {x y ts us : List Token} {t : Token}

theorem refl (w : List Token) : AlikeUpTo x y (w ++ x) (w ++ y) :=
  ⟨w, w, rfl, rfl, List.forall₂_same.2 fun t _ => .refl t⟩

theorem next (h : AlikeUpTo x y ts us) (hnext : NextAlike x y) :
    (ts = [] ∧ us = []) ∨ ∃ t ts' u us', ts = t :: ts' ∧ us = u :: us' ∧ t.Alike u := by
  obtain ⟨_, _, rfl, rfl, hw⟩ := h
  cases hw with
  | cons ht _ => exact .inr ⟨_, _, _, _, rfl, rfl, ht⟩
  | nil =>
    cases x with
    | nil =>
      cases y with
      | nil => exact .inl ⟨rfl, rfl⟩
      | cons u y => cases hnext
    | cons t x =>
      cases y with
      | nil => cases hnext
      | cons u y =>
        cases hnext with
        | some ht => exact .inr ⟨t, x, u, y, rfl, rfl, ht⟩

/-- Behind the first token the lists go on in step, unless it belongs to what is left. -/
theorem tail (h : AlikeUpTo x y (t :: ts) us) (hx : x <:+ ts) :
    ∃ u us', us = u :: us' ∧ t.Alike u ∧ AlikeUpTo x y ts us' := by
  obtain ⟨w, w', hts, rfl, hw⟩ := h
  cases hw with
  | nil =>
    have hlength := hx.length_le
    rw [← show t :: ts = x from hts, List.length_cons] at hlength
    omega
  | @cons t' u w w' ht hw =>
    obtain ⟨rfl, rfl⟩ := List.cons.inj hts
    exact ⟨u, w' ++ y, rfl, ht, w, w', rfl, rfl, hw⟩

end AlikeUpTo

namespace Reader

variable {α : Type} {r : Reader α} {x y ts us bad : List Token} {expected : String}

theorem Reads.suffix {a : α} {rest : List Token} (h : Reads r ts a rest) : rest <:+ ts := h.1

/-- A reader refuses some of its own tokens. -/
theorem Composed.suffix (h : Composed r ts) (hr : Refuses r ts bad expected) : bad <:+ ts := by
  induction h with
  | pure => exact (refuses_pure hr).elim
  | refuse =>
    obtain ⟨rfl, _⟩ := refuses_refuse.1 hr
    exact List.suffix_refl _
  | peek => exact (refuses_peek hr).elim
  | accept => exact (refuses_accept hr).elim
  | takeMap =>
    obtain ⟨rfl, _⟩ := refuses_takeMap.1 hr
    exact List.suffix_refl _
  | expect _ ih =>
    obtain hexpect | ⟨_, mid, hread, hmid⟩ := refuses_bind.1 hr
    · obtain ⟨_, rfl, _⟩ := refuses_expect.1 hexpect
      exact List.suffix_refl _
    · obtain ⟨t, rfl, _⟩ := reads_expect.1 hread
      exact (ih t mid rfl hmid).trans hread.suffix
  | endOfInput =>
    obtain ⟨_, rfl, _⟩ := refuses_endOfInput.1 hr
    exact List.suffix_refl _
  | bind _ _ ihr ihf =>
    obtain hr | ⟨a, mid, hread, hr⟩ := refuses_bind.1 hr
    · exact ihr hr
    · exact (ihf a mid hread hr).trans hread.suffix
  | checked _ _ _ ihr ihf =>
    obtain hr | ⟨a, mid, hread, ⟨_, rfl⟩ | ⟨c, hcheck, hr⟩⟩ := refuses_checked.1 hr
    · exact ihr hr
    · exact List.suffix_refl _
    · exact (ihf a mid c hread hcheck hr).trans hread.suffix

/-- What is read in front of `x` is read in front of `y`. -/
theorem Composed.reads_alike {a : α} {rest : List Token} (h : Composed r ts)
    (hnext : NextAlike x y) (halike : AlikeUpTo x y ts us) (hr : Reads r ts a rest)
    (hx : x <:+ rest) : ∃ rest', AlikeUpTo x y rest rest' ∧ Reads r us a rest' := by
  induction h generalizing us rest with
  | pure b =>
    obtain ⟨rfl, rfl⟩ := reads_pure.1 hr
    exact ⟨us, halike, reads_pure.2 ⟨rfl, rfl⟩⟩
  | refuse => exact (reads_refuse hr).elim
  | peek =>
    obtain ⟨rfl, rfl⟩ := reads_peek.1 hr
    refine ⟨us, halike, reads_peek.2 ⟨?_, rfl⟩⟩
    obtain ⟨rfl, rfl⟩ | ⟨t, _, u, _, rfl, rfl, ht⟩ := halike.next hnext
    · rfl
    · simp [ht.kind]
  | accept =>
    cases a with
    | true =>
      obtain ⟨t, hkind, rfl⟩ := reads_accept_true.1 hr
      obtain ⟨u, rest', rfl, ht, hrest⟩ := halike.tail hx
      exact ⟨rest', hrest, reads_accept_true.2 ⟨u, ht.kind ▸ hkind, rfl⟩⟩
    | false =>
      obtain ⟨hkind, rfl⟩ := reads_accept_false.1 hr
      refine ⟨us, halike, reads_accept_false.2 ⟨?_, rfl⟩⟩
      obtain ⟨rfl, rfl⟩ | ⟨t, _, u, _, rfl, rfl, ht⟩ := halike.next hnext
      · exact notNext_nil _
      · exact notNext_cons.2 (ht.kind ▸ notNext_cons.1 hkind)
  | takeMap hg =>
    obtain ⟨t, rfl, ha⟩ := reads_takeMap.1 hr
    obtain ⟨u, rest', rfl, ht, hrest⟩ := halike.tail hx
    exact ⟨rest', hrest, reads_takeMap.2 ⟨u, rfl, hg t u ht ▸ ha⟩⟩
  | expect _ ih =>
    obtain ⟨_, mid, hread, htail⟩ := reads_bind.1 hr
    obtain ⟨t, rfl, hkind, _⟩ := reads_expect.1 hread
    obtain ⟨u, mid', rfl, ht, hmid⟩ := halike.tail (hx.trans htail.suffix)
    obtain ⟨rest', hrest, htail'⟩ := ih t mid rfl hmid htail hx
    have hread' : Reads (Reader.expect _) (u :: mid') u.text mid' :=
      reads_expect.2 ⟨u, rfl, ht.kind ▸ hkind, rfl⟩
    exact ⟨rest', hrest, reads_bind.2 ⟨u.text, mid', hread', htail'⟩⟩
  | endOfInput =>
    obtain ⟨rfl, rfl⟩ := reads_endOfInput.1 hr
    obtain ⟨_, rfl⟩ | ⟨_, _, _, _, h, _⟩ := halike.next hnext
    · exact ⟨[], halike, reads_endOfInput.2 ⟨rfl, rfl⟩⟩
    · cases h
  | bind _ _ ihr ihf =>
    obtain ⟨b, mid, hread, hr⟩ := reads_bind.1 hr
    obtain ⟨mid', hmid, hread'⟩ := ihr halike hread (hx.trans hr.suffix)
    obtain ⟨rest', hrest, hr'⟩ := ihf b mid hread hmid hr hx
    exact ⟨rest', hrest, reads_bind.2 ⟨b, mid', hread', hr'⟩⟩
  | checked _ _ _ ihr ihf =>
    obtain ⟨b, mid, c, hread, hcheck, hr⟩ := reads_checked.1 hr
    obtain ⟨mid', hmid, hread'⟩ := ihr halike hread (hx.trans hr.suffix)
    obtain ⟨rest', hrest, hr'⟩ := ihf b mid c hread hcheck hmid hr hx
    exact ⟨rest', hrest, reads_checked.2 ⟨b, mid', c, hread', hcheck, hr'⟩⟩

/-- What is refused in front of `x` is refused in front of `y`. A fault that is reported where an
aggregate began may depend on more, so there the lists have to be alike to their ends. -/
theorem Composed.refuses_alike (h : Composed r ts) (hnext : NextAlike x y)
    (hfault : x = [] ∧ y = [] ∨ ¬ AggregateFault expected) (halike : AlikeUpTo x y ts us)
    (hrefuses : Refuses r ts bad expected) (hx : x <:+ bad) :
    ∃ bad', AlikeUpTo x y bad bad' ∧ Refuses r us bad' expected := by
  induction h generalizing us bad with
  | pure => exact (refuses_pure hrefuses).elim
  | refuse =>
    obtain ⟨rfl, rfl⟩ := refuses_refuse.1 hrefuses
    exact ⟨us, halike, refuses_refuse.2 ⟨rfl, rfl⟩⟩
  | peek => exact (refuses_peek hrefuses).elim
  | accept => exact (refuses_accept hrefuses).elim
  | takeMap hg =>
    obtain ⟨rfl, h⟩ := refuses_takeMap.1 hrefuses
    refine ⟨us, halike, refuses_takeMap.2 ⟨rfl, ?_⟩⟩
    obtain ⟨rfl, rfl⟩ | ⟨t, _, u, us', rfl, rfl, ht⟩ := halike.next hnext
    · obtain ⟨_, hmissing⟩ | ⟨_, _, h, _⟩ := h
      · exact .inl ⟨rfl, hmissing⟩
      · cases h
    · obtain ⟨h, _⟩ | ⟨_, _, h, herror⟩ := h
      · cases h
      · cases h
        exact .inr ⟨u, us', rfl, hg t u ht ▸ herror⟩
  | expect hrest ih =>
    obtain hexpect | ⟨_, mid, hread, htail⟩ := refuses_bind.1 hrefuses
    · obtain ⟨hkind, rfl, rfl⟩ := refuses_expect.1 hexpect
      refine ⟨us, halike, refuses_bind.2 (.inl (refuses_expect.2 ⟨?_, rfl, rfl⟩))⟩
      obtain ⟨_, rfl⟩ | ⟨t, _, u, _, rfl, rfl, ht⟩ := halike.next hnext
      · exact notNext_nil _
      · exact notNext_cons.2 (ht.kind ▸ notNext_cons.1 hkind)
    · obtain ⟨t, rfl, hkind, _⟩ := reads_expect.1 hread
      obtain ⟨u, mid', rfl, ht, hmid⟩ :=
        halike.tail (hx.trans ((hrest t mid rfl).suffix htail))
      obtain ⟨bad', hbad, htail'⟩ := ih t mid rfl hmid htail hx
      have hread' : Reads (Reader.expect _) (u :: mid') u.text mid' :=
        reads_expect.2 ⟨u, rfl, ht.kind ▸ hkind, rfl⟩
      exact ⟨bad', hbad, hread'.refuses_bind_iff.2 htail'⟩
  | endOfInput =>
    obtain ⟨hne, rfl, rfl⟩ := refuses_endOfInput.1 hrefuses
    obtain ⟨rfl, _⟩ | ⟨_, _, u, us', _, rfl, _⟩ := halike.next hnext
    · exact (hne rfl).elim
    · exact ⟨_, halike, refuses_endOfInput.2 ⟨List.cons_ne_nil _ _, rfl, rfl⟩⟩
  | bind hr hf ihr ihf =>
    obtain hfirst | ⟨a, mid, hread, hsecond⟩ := refuses_bind.1 hrefuses
    · obtain ⟨bad', hbad, hfirst'⟩ := ihr halike hfirst hx
      exact ⟨bad', hbad, refuses_bind.2 (.inl hfirst')⟩
    · have hmid := hx.trans ((hf a mid hread).suffix hsecond)
      obtain ⟨mid', hmid, hread'⟩ := hr.reads_alike hnext halike hread hmid
      obtain ⟨bad', hbad, hsecond'⟩ := ihf a mid hread hmid hsecond hx
      exact ⟨bad', hbad, hread'.refuses_bind_iff.2 hsecond'⟩
  | checked hr hcheck hf ihr ihf =>
    obtain hfirst | ⟨a, mid, hread, ⟨herror, rfl⟩ | ⟨c, hc, hsecond⟩⟩ := refuses_checked.1 hrefuses
    · obtain ⟨bad', hbad, hfirst'⟩ := ihr halike hfirst hx
      exact ⟨bad', hbad, refuses_checked.2 (.inl hfirst')⟩
    · obtain ⟨rfl, rfl⟩ | hfault := hfault
      · obtain ⟨mid', _, hread'⟩ := hr.reads_alike hnext halike hread List.nil_suffix
        exact ⟨us, halike, refuses_checked.2 (.inr ⟨a, mid', hread', .inl ⟨herror, rfl⟩⟩)⟩
      · exact (hfault (hcheck a _ herror)).elim
    · have hmid := hx.trans ((hf a mid c hread hc).suffix hsecond)
      obtain ⟨mid', hmid, hread'⟩ := hr.reads_alike hnext halike hread hmid
      obtain ⟨bad', hbad, hsecond'⟩ := ihf a mid c hread hc hmid hsecond hx
      exact ⟨bad', hbad, refuses_checked.2 (.inr ⟨a, mid', hread', .inr ⟨c, hc, hsecond'⟩⟩)⟩

end Reader

end SearchSql
