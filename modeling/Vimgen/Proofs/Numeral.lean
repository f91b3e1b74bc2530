import Vimgen.Number.Numeral

/-!
# Numerals that are read back

Plain numerals have neither blanks nor separators nor digits of other scripts, and nothing is
changed in them before they are read (`plain?_of_isPlain`). `readInt?_intText` is the round trip of
integers. What is read as an integer never has too many digits (`digitCount_le_of_readInt?`).
Integers with no more digits than that are `Spellable`.
-/

namespace Vimgen.Numeral

/-! ## Plain numerals -/

/-- Characters that stay as they are in a numeral. -/
def isPlain (c : Char) : Bool := !Text.isBlank c && Text.asciiDigit c = c && c ≠ '_'

theorem trim_of_noBlank {cs : List Char} (h : ∀ c ∈ cs, Text.isBlank c = false) : trim cs = cs := by
  have hdrop : ∀ ds : List Char, (∀ c ∈ ds, Text.isBlank c = false) →
      ds.dropWhile Text.isBlank = ds := by
    intro ds hds
    cases ds with
    | nil => rfl
    | cons d ds => exact List.dropWhile_cons_of_neg (by simp [hds d List.mem_cons_self])
  unfold trim
  rw [hdrop cs h, hdrop cs.reverse (fun c hc => h c (List.mem_reverse.1 hc)), List.reverse_reverse]

theorem dropSeparators_of_none {cs : List Char} (h : ∀ c ∈ cs, c ≠ '_') : ∀ {prev : Char},
    prev ≠ '_' → dropSeparators prev cs = some cs := by
  induction cs with
  | nil => intro prev hprev; simp [dropSeparators, hprev]
  | cons c cs ih =>
    intro prev hprev
    have hc : c ≠ '_' := h c List.mem_cons_self
    simp [dropSeparators, hc, hprev, ih (fun d hd => h d (List.mem_cons_of_mem _ hd)) hc]

/-- **A plain numeral is read as it stands.** -/
theorem plain?_of_isPlain {cs : List Char} (h : ∀ c ∈ cs, isPlain c = true) :
    plain? cs = some cs := by
  have hparts : ∀ c ∈ cs, Text.isBlank c = false ∧ Text.asciiDigit c = c ∧ c ≠ '_' := by
    intro c hc
    have := h c hc
    simp only [isPlain, Bool.and_eq_true, Bool.not_eq_true', decide_eq_true_eq] at this
    exact ⟨this.1.1, this.1.2, this.2⟩
  unfold plain?
  rw [trim_of_noBlank fun c hc => (hparts c hc).1]
  have hmap : cs.map Text.asciiDigit = cs :=
    (List.map_congr_left fun c hc => (hparts c hc).2.1).trans (List.map_id cs)
  rw [hmap]
  exact dropSeparators_of_none (fun c hc => (hparts c hc).2.2) (by decide)

theorem mem_digits_of_isDigit {c : Char} (h : c.isDigit = true) :
    c ∈ ['0', '1', '2', '3', '4', '5', '6', '7', '8', '9'] := by
  have hrange : 48 ≤ c.toNat ∧ c.toNat ≤ 57 := by
    simp only [Char.isDigit, Bool.and_eq_true, decide_eq_true_eq] at h
    exact h
  rw [← Char.ofNat_toNat c]
  obtain ⟨k, hk, hlt⟩ : ∃ k, c.toNat = 48 + k ∧ k < 10 := ⟨c.toNat - 48, by omega, by omega⟩
  rw [hk]
  clear hk hrange h
  revert k
  decide

/-- What holds of the ten digits. -/
theorem of_isDigit {p : Char → Bool} (hall : "0123456789".toList.all p = true) {c : Char}
    (h : c.isDigit = true) : p c = true :=
  List.all_eq_true.1 hall c (mem_digits_of_isDigit h)

theorem isPlain_of_isDigit {c : Char} (h : c.isDigit = true) : isPlain c = true :=
  of_isDigit (p := isPlain) (by decide) h

/-! ## Signs -/

/-- A numeral that starts with a digit has no sign. -/
theorem splitSign_of_isDigit {c : Char} {cs : List Char} (h : c.isDigit = true) :
    splitSign (c :: cs) = (false, c :: cs) := by
  unfold splitSign
  split
  · rename_i heq; cases heq; exact absurd h (by decide)
  · rename_i heq; cases heq; exact absurd h (by decide)
  · rfl

/-! ## Integers -/

theorem isDigit_of_mem_toDigits {n : Nat} {c : Char} (h : c ∈ Nat.toDigits 10 n) :
    c.isDigit = true :=
  Nat.isDigit_of_mem_toDigits (by omega) (by omega) h

/-- The digits of a natural number, the first of them apart. -/
theorem exists_toDigits_cons (n : Nat) :
    ∃ c cs, Nat.toDigits 10 n = c :: cs ∧ c.isDigit = true := by
  obtain ⟨c, cs, h⟩ := List.exists_cons_of_ne_nil (Nat.toDigits_ne_nil (b := 10) (n := n))
  exact ⟨c, cs, h, isDigit_of_mem_toDigits (h ▸ List.mem_cons_self)⟩

theorem readInt?_of_splitSign {ds : List Char} (negative : Bool) (n : Nat)
    (hplain : ∀ c ∈ ds, isPlain c = true) (hsign : splitSign ds = (negative, Nat.toDigits 10 n))
    (hlen : (Nat.toDigits 10 n).length ≤ digitLimit) :
    readInt? ds = some (if negative then -(n : Int) else n) := by
  have hempty : (Nat.toDigits 10 n).isEmpty = false := by
    obtain ⟨c, cs, h, _⟩ := exists_toDigits_cons n
    rw [h]; rfl
  have hall : (Nat.toDigits 10 n).all Char.isDigit = true :=
    List.all_eq_true.2 fun c hc => isDigit_of_mem_toDigits hc
  have hlimit : decide (digitLimit < (Nat.toDigits 10 n).length) = false :=
    decide_eq_false (Nat.not_lt.2 hlen)
  unfold readInt?
  rw [plain?_of_isPlain hplain]
  simp only [hsign, hempty, hall, hlimit, Nat.ofDigitChars_ten_toDigits]
  rfl

/-- **Integers are read back** from their spelling. -/
theorem readInt?_intText {n : Int} (h : digitCount n ≤ digitLimit) :
    readInt? (intText n).toList = some n := by
  cases n with
  | ofNat n =>
    obtain ⟨c, cs, hds, hc⟩ := exists_toDigits_cons n
    rw [intText, Nat.toList_repr]
    have hsign : splitSign (Nat.toDigits 10 n) = (false, Nat.toDigits 10 n) := by
      rw [hds]; exact splitSign_of_isDigit hc
    exact readInt?_of_splitSign false n
      (fun d hd => isPlain_of_isDigit (isDigit_of_mem_toDigits hd)) hsign h
  | negSucc n =>
    have htext : (intText (.negSucc n)).toList = '-' :: Nat.toDigits 10 (n + 1) := by
      simp [intText]
    have hplain : ∀ c ∈ '-' :: Nat.toDigits 10 (n + 1), isPlain c = true := by
      intro c hc
      rcases List.mem_cons.1 hc with rfl | hc
      · decide
      · exact isPlain_of_isDigit (isDigit_of_mem_toDigits hc)
    rw [htext, readInt?_of_splitSign true (n + 1) hplain rfl h]
    rfl

open scoped Binary64 in
theorem ofDigitChars_lt {ds : List Char} (h : ∀ c ∈ ds, c.isDigit = true) :
    Nat.ofDigitChars 10 ds 0 < 10 ^ ds.length := by
  induction ds with
  | nil => simp
  | cons c ds ih =>
    have hc : c.toNat - '0'.toNat ≤ 9 := by
      have := h c List.mem_cons_self
      simp only [Char.isDigit, Bool.and_eq_true, decide_eq_true_eq] at this
      have hle : c.toNat ≤ 57 := this.2
      have : '0'.toNat = 48 := rfl
      omega
    have htail := ih fun d hd => h d (List.mem_cons_of_mem _ hd)
    rw [Nat.ofDigitChars_cons, Nat.ofDigitChars_eq_ofDigitChars_zero, List.length_cons,
      Nat.pow_succ]
    have hmul : 10 ^ ds.length * (10 * 0 + (c.toNat - '0'.toNat)) ≤ 10 ^ ds.length * 9 :=
      Nat.mul_le_mul_left _ (by omega)
    omega

/-- What is read as an integer can also be spelled. -/
theorem digitCount_le_of_readInt? {token : List Char} {n : Int} (h : readInt? token = some n) :
    digitCount n ≤ digitLimit := by
  unfold readInt? at h
  split at h
  · cases h
  · rename_i cs _
    simp only at h
    split at h
    · cases h
    · rename_i hds
      simp only [Bool.or_eq_true, Bool.not_eq_true', decide_eq_true_eq, not_or, Bool.not_eq_false,
        Nat.not_lt, List.all_eq_true] at hds
      obtain ⟨⟨hempty, hall⟩, hlen⟩ := hds
      have hlt := ofDigitChars_lt hall
      have habs : n.natAbs = Nat.ofDigitChars 10 (splitSign cs).2 0 := by
        rw [← Option.some.inj h]
        split <;> simp
      unfold digitCount
      rw [habs, Nat.length_toDigits_le_iff (by omega) (by decide)]
      exact Nat.lt_of_lt_of_le hlt (Nat.pow_le_pow_right (by omega) hlen)

/-- A power of ten has one digit more than its exponent. -/
theorem lt_digitCount_pow (k : Nat) : k < digitCount (Nat.pow 10 k : Nat) := by
  by_cases hk : k = 0
  · subst hk
    decide
  · rw [digitCount, Int.natAbs_natCast, ← Nat.not_le,
      Nat.length_toDigits_le_iff (by omega) (Nat.pos_of_ne_zero hk)]
    exact Nat.lt_irrefl _

/-! ## Integers that can be spelled -/

/-- An integer has no more digits than can be read and written. -/
def Spellable (n : Int) : Prop := digitCount n ≤ digitLimit

instance : DecidablePred Spellable :=
  fun n => inferInstanceAs (Decidable (digitCount n ≤ digitLimit))

/-- Smaller numbers have no more digits. -/
theorem Spellable.of_le {k n : Nat} (h : Spellable n) (hk : k ≤ n) : Spellable k := by
  unfold Spellable digitCount at h ⊢
  rw [Int.natAbs_natCast, Nat.length_toDigits_le_iff (by omega) (by decide)] at h ⊢
  exact Nat.lt_of_le_of_lt hk h

theorem not_spellable_pow : ¬Spellable (Nat.pow 10 digitLimit : Nat) :=
  Nat.not_le.2 (lt_digitCount_pow digitLimit)

end Vimgen.Numeral
