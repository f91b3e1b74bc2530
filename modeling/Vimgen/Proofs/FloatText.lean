import Vimgen.Proofs.Shortest

/-!
# Double precision numbers that are read back

The text of a canonical number is read as that number (`readReal?_text`) and never as an integer
(`readInt?_text`). However the shortest digits are laid out, with or without an exponent, the text
denotes the same decimal up to zeros at its end (`readDecimal?_layout`).
-/

namespace Vimgen.Numeral

open Binary64 (exponentText)

/-! ## Parts of a decimal -/

/-- What may follow digits: the end, or something that is no digit. -/
def EndsDigits (cs : List Char) : Prop := ∀ c rest, cs = c :: rest → c.isDigit = false

theorem endsDigits_nil : EndsDigits [] := by
  intro c rest h; cases h

theorem endsDigits_cons {c : Char} {rest : List Char} (h : c.isDigit = false) :
    EndsDigits (c :: rest) := by
  intro d rest' heq; cases heq; exact h

theorem spanDigits_append {ds rest : List Char} (hds : ∀ c ∈ ds, c.isDigit = true)
    (hrest : EndsDigits rest) : spanDigits (ds ++ rest) = (ds, rest) := by
  unfold spanDigits
  rw [List.takeWhile_append_of_pos hds, List.dropWhile_append_of_pos hds]
  cases rest with
  | nil => simp
  | cons c rest => simp [hrest c rest rfl]

theorem readExponent?_exponentText (e : Int) : readExponent? ('e' :: exponentText e) = some e := by
  obtain ⟨ds, hds, hdigits, hne, hvalue⟩ : ∃ ds,
      exponentText e = (if e < 0 then '-' else '+') :: ds ∧ (∀ c ∈ ds, c.isDigit = true) ∧ ds ≠ [] ∧
        Nat.ofDigitChars 10 ds 0 = e.natAbs := by
    have hdigits : ∀ c ∈ Nat.toDigits 10 e.natAbs, c.isDigit = true :=
      fun c hc => isDigit_of_mem_toDigits hc
    refine ⟨_, rfl, ?_, ?_, ?_⟩ <;> split
    · intro c hc
      rcases List.mem_cons.1 hc with rfl | hc
      · rfl
      · exact hdigits c hc
    · exact hdigits
    · exact List.cons_ne_nil _ _
    · exact Nat.toDigits_ne_nil
    · rw [Nat.ofDigitChars_cons]
      exact Nat.ofDigitChars_ten_toDigits
    · exact Nat.ofDigitChars_ten_toDigits
  have hsign : splitSign ((if e < 0 then '-' else '+') :: ds) = (decide (e < 0), ds) := by
    by_cases he : e < 0 <;> simp [he, splitSign]
  have hempty : ds.isEmpty = false := by simpa using hne
  have hall : ds.all Char.isDigit = true := List.all_eq_true.2 hdigits
  rw [hds]
  simp only [readExponent?, hsign, hempty, hall, hvalue]
  by_cases he : e < 0
  · have habs : -(e.natAbs : Int) = e := by omega
    rw [decide_eq_true he]
    exact congrArg some habs
  · have habs : (e.natAbs : Int) = e := by omega
    rw [decide_eq_false he]
    exact congrArg some habs

/-- The part of a decimal after its digits: nothing, or an exponent. -/
def exponentPart (e? : Option Int) : List Char := (e?.map fun e => 'e' :: exponentText e).getD []

theorem readExponent?_exponentPart (e? : Option Int) :
    readExponent? (exponentPart e?) = some (e?.getD 0) := by
  cases e? with
  | none => rfl
  | some e => exact readExponent?_exponentText e

theorem endsDigits_exponentPart (e? : Option Int) : EndsDigits (exponentPart e?) := by
  cases e? with
  | none => exact endsDigits_nil
  | some e => exact endsDigits_cons rfl

theorem readDecimal?_point (negative : Bool) (whole fraction : List Char) (e? : Option Int)
    (hne : whole ≠ []) (hwhole : ∀ c ∈ whole, c.isDigit = true)
    (hfraction : ∀ c ∈ fraction, c.isDigit = true) :
    readDecimal? negative (whole ++ '.' :: (fraction ++ exponentPart e?)) =
      some (Binary64.ofDecimal negative (Nat.ofDigitChars 10 (whole ++ fraction) 0)
        (e?.getD 0 - fraction.length)) := by
  unfold readDecimal?
  rw [spanDigits_append hwhole (endsDigits_cons rfl)]
  simp only [spanDigits_append hfraction (endsDigits_exponentPart e?),
    readExponent?_exponentPart]
  simp [hne]

theorem readDecimal?_noPoint (negative : Bool) (whole : List Char) (e : Int) (hne : whole ≠ [])
    (hwhole : ∀ c ∈ whole, c.isDigit = true) :
    readDecimal? negative (whole ++ 'e' :: exponentText e) =
      some (Binary64.ofDecimal negative (Nat.ofDigitChars 10 whole 0) e) := by
  unfold readDecimal?
  rw [spanDigits_append hwhole (endsDigits_cons rfl)]
  simp [hne, readExponent?_exponentText]

end Vimgen.Numeral

namespace Vimgen.Binary64

open Numeral (readDecimal? readDecimal?_noPoint readDecimal?_point)

/-! ## Layout -/

theorem exists_dropTrailingZeros (all : List Char) :
    ∃ k, all = dropTrailingZeros all ++ List.replicate k '0' := by
  have hzeros : all.reverse.takeWhile (· = '0') =
      List.replicate (all.reverse.takeWhile (· = '0')).length '0' := by
    rw [List.eq_replicate_iff]
    refine ⟨rfl, fun c hc => ?_⟩
    simpa using List.all_eq_true.1 List.all_takeWhile c hc
  refine ⟨(all.reverse.takeWhile (· = '0')).length, ?_⟩
  have hsplit := congrArg List.reverse
    (List.takeWhile_append_dropWhile (p := (· = '0')) (l := all.reverse))
  rw [List.reverse_append, List.reverse_reverse] at hsplit
  unfold dropTrailingZeros
  rw [← List.reverse_replicate, ← hzeros, hsplit]

theorem ofDigitChars_append_zeros (ds : List Char) (k : Nat) :
    Nat.ofDigitChars 10 (ds ++ List.replicate k '0') 0 = Nat.ofDigitChars 10 ds 0 * 10 ^ k := by
  rw [Nat.ofDigitChars_append, Nat.ofDigitChars_replicate_zero, Nat.mul_comm]

theorem ofDigitChars_zeros_append (ds : List Char) (k : Nat) :
    Nat.ofDigitChars 10 (List.replicate k '0' ++ ds) 0 = Nat.ofDigitChars 10 ds 0 := by
  rw [Nat.ofDigitChars_append, Nat.ofDigitChars_replicate_zero, Nat.mul_zero]

theorem isDigit_zeros (k : Nat) : ∀ c ∈ List.replicate k '0', c.isDigit = true := by
  intro c hc
  rw [(List.mem_replicate.1 hc).2]; rfl

/-- Zeros stand between the point and the digits. -/
theorem readDecimal?_zeros_append (negative : Bool) {ds : List Char}
    (hds : ∀ c ∈ ds, c.isDigit = true) (k : Nat) :
    readDecimal? negative ('0' :: '.' :: List.replicate k '0' ++ ds) =
      some (ofDecimal negative (Nat.ofDigitChars 10 ds 0) (-(k + ds.length : Nat))) := by
  have hread := readDecimal?_point negative ['0'] (List.replicate k '0' ++ ds) none (by simp)
    (by simp) (List.forall_mem_append.2 ⟨isDigit_zeros k, hds⟩)
  have hdigits : ['0'] ++ (List.replicate k '0' ++ ds) = List.replicate (k + 1) '0' ++ ds := by
    simp [List.replicate_succ]
  rw [hdigits, ofDigitChars_zeros_append, List.length_append, List.length_replicate] at hread
  simpa [Numeral.exponentPart] using hread

/-- Zeros stand between the digits and the point. -/
theorem readDecimal?_append_zeros (negative : Bool) {ds : List Char} (hne : ds ≠ [])
    (hds : ∀ c ∈ ds, c.isDigit = true) (hvalue : Nat.ofDigitChars 10 ds 0 ≠ 0) (k : Nat) :
    readDecimal? negative (ds ++ List.replicate k '0' ++ ['.', '0']) =
      some (ofDecimal negative (Nat.ofDigitChars 10 ds 0) k) := by
  have hread := readDecimal?_point negative (ds ++ List.replicate k '0') ['0'] none (by simp [hne])
    (List.forall_mem_append.2 ⟨hds, isDigit_zeros k⟩) (by simp)
  have hdigits : ds ++ List.replicate k '0' ++ ['0'] = ds ++ List.replicate (k + 1) '0' := by
    rw [List.append_assoc, List.replicate_succ']
  rw [hdigits, ofDigitChars_append_zeros, ofDecimal_mul_pow _ hvalue] at hread
  refine Eq.trans hread ?_
  congr 2
  simp only [Option.getD_none, List.length_singleton]
  omega

/-- The point stands among the digits. -/
theorem readDecimal?_take_drop (negative : Bool) {ds : List Char} (hne : ds ≠ [])
    (hds : ∀ c ∈ ds, c.isDigit = true) (k : Nat) :
    readDecimal? negative (ds.take (k + 1) ++ '.' :: ds.drop (k + 1)) =
      some (ofDecimal negative (Nat.ofDigitChars 10 ds 0) (-(ds.length - (k + 1) : Nat))) := by
  have hread := readDecimal?_point negative (ds.take (k + 1)) (ds.drop (k + 1)) none
    (by simp [hne]) (fun c hc => hds c (List.mem_of_mem_take hc))
    (fun c hc => hds c (List.mem_of_mem_drop hc))
  rw [List.take_append_drop, List.length_drop] at hread
  simpa [Numeral.exponentPart] using hread

/-- **Every layout of digits denotes them**: `ds` with the first digit standing for `10 ^ e`. -/
theorem readDecimal?_layout (negative : Bool) {ds : List Char} (e : Int) (hne : ds ≠ [])
    (hds : ∀ c ∈ ds, c.isDigit = true) (hvalue : Nat.ofDigitChars 10 ds 0 ≠ 0) :
    readDecimal? negative (layout ds e) =
      some (ofDecimal negative (Nat.ofDigitChars 10 ds 0) (e - (ds.length - 1 : Nat))) := by
  have hlen : 0 < ds.length := List.length_pos_iff.2 hne
  unfold layout
  split
  · split
    · rename_i _ hneg
      rw [readDecimal?_zeros_append negative hds]
      congr 2
      omega
    · rename_i _ hpos
      simp only
      by_cases hfit : ds.length ≤ e.toNat + 1
      · rw [List.drop_eq_nil_iff.2 hfit, List.take_of_length_le hfit]
        refine Eq.trans (readDecimal?_append_zeros negative hne hds hvalue _) ?_
        congr 2
        omega
      · have hfraction : (ds.drop (e.toNat + 1)).isEmpty = false := by
          simpa using Nat.lt_of_not_le hfit
        have hnoZeros : e.toNat + 1 - ds.length = 0 := by omega
        simp only [hfraction, hnoZeros, List.replicate_zero, List.append_nil, Bool.false_eq_true,
          if_false]
        rw [readDecimal?_take_drop negative hne hds]
        congr 2
        omega
  · -- with an exponent, and then with a point only before more digits
    split
    · exact absurd rfl hne
    · rename_i d
      have hread := readDecimal?_noPoint negative [d] e (by simp) hds
      refine Eq.trans hread ?_
      congr 2
      simp
    · rename_i d rest _
      have hread := readDecimal?_point negative [d] rest (some e) (by simp)
        (fun c hc => hds c (by simp_all)) (fun c hc => hds c (List.mem_cons_of_mem _ hc))
      refine Eq.trans (Eq.trans ?_ hread) ?_
      · simp [Numeral.exponentPart]
      · simp

/-! ## Texts -/

/-- Characters of the texts of finite numbers. -/
def isTextChar (c : Char) : Bool := c.isDigit || c = '.' || c = 'e' || c = '+' || c = '-'

theorem isPlain_of_isTextChar {c : Char} (h : isTextChar c = true) : Numeral.isPlain c = true := by
  simp only [isTextChar, Bool.or_eq_true, decide_eq_true_eq] at h
  rcases h with (((h | rfl) | rfl) | rfl) | rfl
  · exact Numeral.isPlain_of_isDigit h
  all_goals decide

theorem isTextChar_of_isDigit {c : Char} (h : c.isDigit = true) : isTextChar c = true := by
  simp [isTextChar, h]

theorem isTextChar_exponentText {e : Int} : ∀ c ∈ exponentText e, isTextChar c = true := by
  have hdigits : ∀ c ∈ Nat.toDigits 10 e.natAbs, isTextChar c = true :=
    fun c hc => isTextChar_of_isDigit (Numeral.isDigit_of_mem_toDigits hc)
  intro c hc
  unfold exponentText at hc
  rcases List.mem_cons.1 hc with rfl | hc
  · split <;> rfl
  · split at hc
    · rcases List.mem_cons.1 hc with rfl | hc
      · rfl
      · exact hdigits c hc
    · exact hdigits c hc

/-- The shape of a laid-out magnitude: it starts with a digit, and a point or an exponent makes it
different from an integer. -/
theorem layout_shape {d : Char} {ds : List Char} (e : Int) (hds : ∀ c ∈ d :: ds, c.isDigit = true) :
    (∃ c cs, layout (d :: ds) e = c :: cs ∧ c.isDigit = true) ∧
      (∀ c ∈ layout (d :: ds) e, isTextChar c = true) ∧
        ∃ c ∈ layout (d :: ds) e, c.isDigit = false := by
  have hd : d.isDigit = true := hds d List.mem_cons_self
  have hchars : ∀ c ∈ d :: ds, isTextChar c = true := fun c hc => isTextChar_of_isDigit (hds c hc)
  have hzeros : ∀ k, ∀ c ∈ List.replicate k '0', isTextChar c = true :=
    fun k c hc => isTextChar_of_isDigit (isDigit_zeros k c hc)
  unfold layout
  split
  · split
    · refine ⟨⟨'0', _, rfl, rfl⟩, ?_, '.', by simp, rfl⟩
      intro c hc
      simp only [List.cons_append, List.mem_cons, List.mem_append] at hc
      rcases hc with rfl | rfl | hc | hc
      · rfl
      · rfl
      · exact hzeros _ c hc
      · exact hchars c (List.mem_cons.2 hc)
    · refine ⟨⟨d, _, rfl, hd⟩, ?_, '.', by simp, rfl⟩
      intro c hc
      simp only at hc
      rcases List.mem_append.1 hc with hc | hc
      · rcases List.mem_append.1 hc with hc | hc
        · exact hchars c (List.mem_of_mem_take hc)
        · exact hzeros _ c hc
      · rcases List.mem_cons.1 hc with rfl | hc
        · rfl
        · split at hc
          · rw [List.mem_singleton.1 hc]; rfl
          · exact hchars c (List.mem_of_mem_drop hc)
  · split
    · rename_i heq; cases heq
    · rename_i c heq
      cases heq
      refine ⟨⟨d, _, rfl, hd⟩, ?_, 'e', by simp, rfl⟩
      intro c hc
      rcases List.mem_cons.1 hc with rfl | hc
      · exact hchars c List.mem_cons_self
      · rcases List.mem_cons.1 hc with rfl | hc
        · rfl
        · exact isTextChar_exponentText c hc
    · rename_i c rest _ heq
      cases heq
      refine ⟨⟨d, _, rfl, hd⟩, ?_, '.', by simp, rfl⟩
      intro c hc
      simp only [List.cons_append, List.mem_cons, List.mem_append] at hc
      rcases hc with rfl | rfl | hc | rfl | hc
      · exact hchars c List.mem_cons_self
      · rfl
      · exact hchars c (List.mem_cons_of_mem _ hc)
      · rfl
      · exact isTextChar_exponentText c hc

/-- The digits of a magnitude and the exponent of the first of them. -/
theorem magnitudeText_digits (negative : Bool) {m s : Nat} (hm : m ≠ 0)
    (h : (finite false m s).IsCanonical) :
    ∃ ds e, magnitudeText m s = layout ds e ∧ ds ≠ [] ∧ (∀ c ∈ ds, c.isDigit = true) ∧
      Nat.ofDigitChars 10 ds 0 ≠ 0 ∧
      ofDecimal negative (Nat.ofDigitChars 10 ds 0) (e - (ds.length - 1 : Nat)) =
        .finite negative m s := by
  have hback := shortest_readsBack hm h
  have hdigits : (shortest m s).digits ≠ 0 := by
    -- zero digits would read back as zero
    intro h0
    rw [h0] at hback
    have hzero : ofDecimal false 0 (shortest m s).exponent = .finite false 0 0 := by
      simp [ofDecimal]
    rw [hzero] at hback
    injection hback with _ h _
    exact hm h.symm
  obtain ⟨k, hk⟩ := exists_dropTrailingZeros (Nat.toDigits 10 (shortest m s).digits)
  have hsum :
      Nat.ofDigitChars 10 (dropTrailingZeros (Nat.toDigits 10 (shortest m s).digits)) 0 * 10 ^ k =
        (shortest m s).digits := by
    rw [← ofDigitChars_append_zeros, ← hk, Nat.ofDigitChars_ten_toDigits]
  have hlen := congrArg List.length hk
  rw [List.length_append, List.length_replicate] at hlen
  have hmem : ∀ c ∈ dropTrailingZeros (Nat.toDigits 10 (shortest m s).digits),
      c ∈ Nat.toDigits 10 (shortest m s).digits := by
    intro c hc
    rw [hk]
    exact List.mem_append_left _ hc
  have htext : magnitudeText m s =
      layout (dropTrailingZeros (Nat.toDigits 10 (shortest m s).digits))
        ((Nat.toDigits 10 (shortest m s).digits).length - 1 + (shortest m s).exponent) := by
    unfold magnitudeText
    rw [if_neg hm]
  -- from here on the digits matter only through their value and their number
  generalize dropTrailingZeros (Nat.toDigits 10 (shortest m s).digits) = ds at *
  have hvalue : Nat.ofDigitChars 10 ds 0 ≠ 0 := by
    intro h0
    rw [h0, Nat.zero_mul] at hsum
    exact hdigits hsum.symm
  have hne : ds ≠ [] := by
    rintro rfl
    exact hvalue rfl
  have hpos := List.length_pos_iff.2 hne
  refine ⟨ds, _, htext, hne, fun c hc => Numeral.isDigit_of_mem_toDigits (hmem c hc), hvalue, ?_⟩
  have hexp : ((Nat.toDigits 10 (shortest m s).digits).length : Int) - 1 + (shortest m s).exponent -
      (ds.length - 1 : Nat) = (shortest m s).exponent + k := by
    omega
  rw [hexp, ← ofDecimal_mul_pow negative hvalue, hsum]
  exact ofDecimal_sign negative hback

/-- What the text of a magnitude consists of, and what it denotes. -/
theorem magnitudeText_spec (negative : Bool) {m s : Nat} (h : (finite false m s).IsCanonical) :
    (∃ c cs, magnitudeText m s = c :: cs ∧ c.isDigit = true) ∧
      (∀ c ∈ magnitudeText m s, isTextChar c = true) ∧
      (∃ c ∈ magnitudeText m s, c.isDigit = false) ∧
      readDecimal? negative (magnitudeText m s) = some (.finite negative m s) := by
  by_cases hm : m = 0
  · have hs : s = 0 := by
      obtain ⟨-, hfull, -⟩ := h
      rcases hfull with h | h
      · exact h
      · rw [hm] at h
        exact absurd h (by decide)
    subst hm hs
    refine ⟨⟨'0', _, rfl, rfl⟩, List.all_eq_true.1 (by decide), ⟨'.', by decide, rfl⟩, ?_⟩
    cases negative <;> decide
  · obtain ⟨ds, e, htext, hne, hds, hvalue, hread⟩ := magnitudeText_digits negative hm h
    obtain ⟨d, ds', rfl⟩ := List.exists_cons_of_ne_nil hne
    obtain ⟨hfirst, hchars, hpoint⟩ := layout_shape e hds
    rw [htext]
    exact ⟨hfirst, hchars, hpoint, by rw [readDecimal?_layout negative e hne hds hvalue, hread]⟩

/-! ## The round trip -/

/-- A numeral that starts with a digit is not the name of a number. -/
theorem toLower_word_ne {c : Char} {cs : List Char} (hc : c.isDigit = true) {w : String}
    (hw : w.toList.head? = some 'i' ∨ w.toList.head? = some 'n') :
    String.ofList ((c :: cs).map Char.toLower) ≠ w := by
  rintro rfl
  have hlower :=
    Numeral.of_isDigit (p := fun d => d.toLower ≠ 'i' && d.toLower ≠ 'n') (by decide) hc
  simp only [Bool.and_eq_true, decide_eq_true_eq] at hlower
  obtain ⟨hi, hn⟩ := hlower
  simp only [String.toList_ofList, List.map_cons, List.head?_cons, Option.some.injEq] at hw
  rcases hw with h | h
  · exact hi h
  · exact hn h

/-- The text of a finite number, with its sign apart. -/
theorem text_finite_spec {negative : Bool} {m s : Nat} (h : (finite negative m s).IsCanonical) :
    ∃ c cs, Numeral.splitSign (finite negative m s).text.toList = (negative, c :: cs) ∧
      c.isDigit = true ∧ (∀ d ∈ (finite negative m s).text.toList, isTextChar d = true) ∧
      (∃ d ∈ c :: cs, d.isDigit = false) ∧
      readDecimal? negative (c :: cs) = some (.finite negative m s) := by
  obtain ⟨⟨c, cs, htext, hc⟩, hchars, hpoint, hread⟩ := magnitudeText_spec negative h
  rw [htext] at hchars hpoint hread
  refine ⟨c, cs, ?_, hc, ?_, hpoint, hread⟩
  · rw [text, String.toList_ofList, htext]
    cases negative with
    | true => rfl
    | false => exact Numeral.splitSign_of_isDigit hc
  · intro d hd
    rw [text, String.toList_ofList, htext] at hd
    cases negative with
    | true =>
      rcases List.mem_cons.1 hd with rfl | hd
      · rfl
      · exact hchars d hd
    | false => exact hchars d hd

/-- **Texts of numbers are read back.** -/
theorem readReal?_text {x : Binary64} (h : x.IsCanonical) :
    Numeral.readReal? x.text.toList = some x := by
  cases x with
  | nan => decide
  | infinite negative => cases negative <;> decide
  | finite negative m s =>
    obtain ⟨c, cs, hsign, hc, hchars, -, hread⟩ := text_finite_spec h
    have hplain := Numeral.plain?_of_isPlain fun d hd => isPlain_of_isTextChar (hchars d hd)
    have hinf : String.ofList ((c :: cs).map Char.toLower) ≠ "inf" :=
      toLower_word_ne hc (.inl rfl)
    have hinfinity : String.ofList ((c :: cs).map Char.toLower) ≠ "infinity" :=
      toLower_word_ne hc (.inl rfl)
    have hnan : String.ofList ((c :: cs).map Char.toLower) ≠ "nan" := toLower_word_ne hc (.inr rfl)
    unfold Numeral.readReal?
    rw [hplain]
    simp only [hsign, hinf, hinfinity, hnan, decide_false, Bool.or_false, Bool.false_eq_true,
      if_false]
    exact hread

/-- **Texts of numbers are no integers.** -/
theorem readInt?_text {x : Binary64} (h : x.IsCanonical) :
    Numeral.readInt? x.text.toList = none := by
  cases x with
  | nan => decide
  | infinite negative => cases negative <;> decide
  | finite negative m s =>
    obtain ⟨c, cs, hsign, -, hchars, ⟨d, hd, hpoint⟩, -⟩ := text_finite_spec h
    have hplain := Numeral.plain?_of_isPlain fun d hd => isPlain_of_isTextChar (hchars d hd)
    have hall : (c :: cs).all Char.isDigit = false := by
      rw [List.all_eq_false]
      exact ⟨d, hd, by simp [hpoint]⟩
    unfold Numeral.readInt?
    rw [hplain]
    simp only [hsign, hall, Bool.not_false, Bool.or_true, Bool.true_or, if_true]

theorem isCanonical_of_readDecimal? {negative : Bool} {cs : List Char} {x : Binary64}
    (h : readDecimal? negative cs = some x) : x.IsCanonical := by
  unfold readDecimal? at h
  simp only at h
  split at h <;> split at h
  · cases h
  · obtain ⟨e, -, rfl⟩ := Option.map_eq_some_iff.1 h
    exact isCanonical_ofDecimal _ _ _
  · cases h
  · obtain ⟨e, -, rfl⟩ := Option.map_eq_some_iff.1 h
    exact isCanonical_ofDecimal _ _ _

/-- What is read as a number is canonical. -/
theorem isCanonical_of_readReal? {token : List Char} {x : Binary64}
    (h : Numeral.readReal? token = some x) : x.IsCanonical := by
  unfold Numeral.readReal? at h
  split at h
  · cases h
  · simp only at h
    split at h
    · cases h; trivial
    split at h
    · cases h; trivial
    · exact isCanonical_of_readDecimal? h

end Vimgen.Binary64
