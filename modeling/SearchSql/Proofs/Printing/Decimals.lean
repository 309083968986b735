import SearchSql.Proofs.Printing.Words

/-!
The texts of decimals. Digits with a point and more digits behind are one token, which reads as the
double nearest to their value.
-/

namespace SearchSql

open Lexeme

/-- A decimal with a minus sign or without, as it is written. -/
def decimalChars (negative : Bool) (whole fraction : List Char) : List Char :=
  if negative then '-' :: (whole ++ '.' :: fraction) else whole ++ '.' :: fraction

variable {a : String} {negative : Bool} {whole fraction rest : List Char}

theorem point_mem_decimalChars : '.' ∈ decimalChars negative whole fraction := by
  unfold decimalChars
  split <;> simp

namespace Lexeme

theorem forall_mem_zeros (n : Nat) : ∀ c ∈ List.replicate n '0', c.isDigit = true :=
  fun _ hc => List.eq_of_mem_replicate hc ▸ rfl

theorem AreDigits.takeWhile (h : AreDigits whole) (hrest : EndsWord rest) :
    (whole ++ rest).takeWhile Char.isDigit = whole ∧
      (whole ++ rest).dropWhile Char.isDigit = rest :=
  takeWhile_append (fun _ hd => continuesWord_of_isDigit hd) h.2 hrest

theorem decimalSpan_point (hwhole : AreDigits whole) (hfraction : AreDigits fraction)
    (hrest : EndsWord rest) :
    decimalSpan (whole ++ '.' :: (fraction ++ rest)) = whole ++ '.' :: fraction := by
  obtain ⟨htake, hdrop⟩ := takeWhile_point hwhole (fraction ++ rest)
  simp only [decimalSpan, htake, hdrop, places, (hfraction.takeWhile hrest).1, hfraction.1,
    ↓reduceIte]

theorem takes_decimal {c : Char} {w : List Char} (hwhole : AreDigits whole)
    (hfraction : AreDigits fraction) (hcs : decimalChars negative whole fraction = c :: w)
    (hrest : EndsWord rest) : Text.isBlank c = false ∧ Takes c w rest .number (c :: w) := by
  have hspan := decimalSpan_point hwhole hfraction hrest
  have htake := (takeWhile_point hwhole (fraction ++ rest)).1
  cases negative with
  | true =>
    obtain ⟨rfl, rfl⟩ : '-' = c ∧ whole ++ '.' :: fraction = w := List.cons.inj hcs
    refine ⟨by decide, takes_of_numberSpan ?_⟩
    simp only [List.append_assoc, List.cons_append, numberSpan, htake, hwhole.1, ↓reduceIte, hspan]
  | false =>
    obtain ⟨d, ds, rfl⟩ := List.exists_cons_of_ne_nil hwhole.1
    obtain ⟨rfl, rfl⟩ : d = c ∧ ds ++ '.' :: fraction = w := List.cons.inj hcs
    have hdigit : d.isDigit = true := hwhole.2 d List.mem_cons_self
    refine ⟨isBlank_of_isDigit hdigit, takes_of_numberSpan ?_⟩
    simp only [List.append_assoc, List.cons_append] at hspan htake ⊢
    unfold numberSpan
    split
    · next heq =>
      cases heq
      exact absurd hdigit (by decide)
    · rw [htake, if_neg (List.cons_ne_nil _ _), hspan]

end Lexeme

theorem spellsToken_decimal (ha : a.toList = decimalChars negative whole fraction)
    (hwhole : AreDigits whole) (hfraction : AreDigits fraction) :
    SpellsToken a fun t => t.kind = .number ∧ t.text = a := by
  have hpoint : '.' ∈ decimalChars negative whole fraction := point_mem_decimalChars
  obtain ⟨c, w, hcs⟩ := List.exists_cons_of_ne_nil (List.ne_nil_of_mem hpoint)
  have hnumber := spellsToken_of_takes (ha.trans hcs)
    (takes_decimal hwhole hfraction hcs endsWord_nil).1 fun rest hrest =>
      (takes_decimal hwhole hfraction hcs hrest).2
  rw [← hcs, ← ha, String.ofList_toList] at hnumber
  exact hnumber

/-- A decimal stands for its digits, scaled by the number of places behind the point. -/
theorem fractional_decimalChars (hwhole : AreDigits whole) (hfraction : AreDigits fraction) :
    Grammar.Fractional (decimalChars negative whole fraction)
      (Double.ofDecimal negative (Nat.ofDigitChars 10 (whole ++ fraction) 0)
        (-fraction.length)) := by
  have hdigits := Grammar.Digits.mk (List.append_ne_nil_of_left_ne_nil hwhole.1 fraction)
    (List.forall_mem_append.2 ⟨hwhole.2, hfraction.2⟩)
  unfold decimalChars
  cases negative with
  | true => simpa using Grammar.Fractional.mk .minus hdigits .none
  | false => simpa using Grammar.Fractional.mk .none hdigits .none

theorem Literal.spells_decimalChars (ha : a.toList = decimalChars negative whole fraction)
    (hwhole : AreDigits whole) (hfraction : AreDigits fraction) :
    SpellsToken a (Grammar.Value · (.decimal (Double.ofDecimal negative
      (Nat.ofDigitChars 10 (whole ++ fraction) 0) (-fraction.length)))) := by
  refine (spellsToken_decimal ha hwhole hfraction).imp fun t ht => .decimal ht.1 ?_
  rw [ht.2, ha]
  exact fractional_decimalChars hwhole hfraction

end SearchSql
