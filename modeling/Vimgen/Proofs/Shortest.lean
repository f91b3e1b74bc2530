import Vimgen.Number.Shortest
import Vimgen.Proofs.Rounding

/-!
# Shortest decimals that are read back

The digits of a number are taken from the first decimal grid on which one of its two neighbours is
read as the number.

* `nearest_readsBack`: the nearest point is, on a grid that gives the number seventeen digits: its
  steps are smaller than the last bit of a mantissa.
* `exists_firstNeighbour?`: so the search ends, on the grid of seventeen digits at the latest.
* `shortest_readsBack`: and the shortest decimal is read as the number.
-/

namespace Vimgen.Binary64

/-! ## Grids -/

theorem onGrid_eq (num den : Nat) (e : Int) :
    onGrid num den e = (num * 10 ^ (-e).toNat, den * 10 ^ e.toNat) := by
  unfold onGrid
  by_cases he : 0 ≤ e
  · have hneg : (-e).toNat = 0 := by omega
    rw [if_pos he, hneg, Nat.pow_zero, Nat.mul_one]
  · have hpos : e.toNat = 0 := by omega
    rw [if_neg he, hpos, Nat.pow_zero, Nat.mul_one]

/-- The decimal exponent of a quotient is not too large. -/
theorem decimalExponent_le {num den : Nat} (hnum : 0 < num) (hden : 0 < den) :
    den * 10 ^ (decimalExponent num den).toNat ≤ num * 10 ^ (-decimalExponent num den).toNat := by
  unfold decimalExponent
  split
  · rename_i hle
    have hpow : 10 ^ ((Nat.toDigits 10 (num / den)).length - 1) ≤ num / den := by
      by_cases hone : (Nat.toDigits 10 (num / den)).length - 1 = 0
      · rw [hone]
        exact Nat.div_pos hle hden
      · rw [← Nat.not_lt, ← Nat.length_toDigits_le_iff (by decide) (Nat.pos_of_ne_zero hone)]
        omega
    generalize (Nat.toDigits 10 (num / den)).length = k at hpow
    rw [Nat.le_div_iff_mul_le hden] at hpow
    have hpos : ((k : Int) - 1).toNat = k - 1 := by omega
    rw [hpos, Nat.mul_comm den]
    exact Nat.le_trans hpow (Nat.le_mul_of_pos_right _ (Nat.pow_pos (by decide)))
  · have hk : 0 < (Nat.toDigits 10 (den / num)).length := List.length_pos_iff.2 Nat.toDigits_ne_nil
    have hlt : den / num < 10 ^ (Nat.toDigits 10 (den / num)).length :=
      (Nat.length_toDigits_le_iff (by decide) hk).1 (Nat.le_refl _)
    rw [Nat.div_lt_iff_lt_mul hnum, Nat.mul_comm] at hlt
    dsimp only
    generalize (Nat.toDigits 10 (den / num)).length = k at hk hlt
    split
    · rename_i hle
      have hpos : (-((k : Int) - 1)).toNat = 0 := by omega
      have hneg : (- -((k : Int) - 1)).toNat = k - 1 := by omega
      rw [hpos, hneg, Nat.pow_zero, Nat.mul_one]
      exact hle
    · have hpos : (-(k : Int)).toNat = 0 := by omega
      have hneg : (- -(k : Int)).toNat = k := by omega
      rw [hpos, hneg, Nat.pow_zero, Nat.mul_one]
      exact Nat.le_of_lt hlt

/-- A quotient of at least one is at least `10 ^ k` on a grid that is finer by `k` digits. -/
theorem onGrid_sub {num den : Nat} {t : Int} (h : den * 10 ^ t.toNat ≤ num * 10 ^ (-t).toNat)
    (k : Nat) : 10 ^ k * (den * 10 ^ (t - k).toNat) ≤ num * 10 ^ (-(t - k)).toNat := by
  have hexponents : (t - k).toNat + k + (-t).toNat = t.toNat + (-(t - k)).toNat := by omega
  refine Nat.le_of_mul_le_mul_right ?_ (Nat.pow_pos (n := (-t).toNat) (by decide : 0 < 10))
  calc 10 ^ k * (den * 10 ^ (t - k).toNat) * 10 ^ (-t).toNat
      = den * 10 ^ ((t - k).toNat + k + (-t).toNat) := by
        rw [Nat.pow_add, Nat.pow_add, Nat.mul_comm (10 ^ k), Nat.mul_assoc, Nat.mul_assoc,
          Nat.mul_assoc]
    _ = den * 10 ^ t.toNat * 10 ^ (-(t - k)).toNat := by
        rw [hexponents, Nat.pow_add, Nat.mul_assoc]
    _ ≤ num * 10 ^ (-t).toNat * 10 ^ (-(t - k)).toNat := Nat.mul_le_mul_right _ h
    _ = num * 10 ^ (-(t - k)).toNat * 10 ^ (-t).toNat := Nat.mul_right_comm _ _ _

/-- Decimals in range are rounded as quotients. -/
theorem ofDecimal_eq_ofRatio (negative : Bool) {d : Nat} {e : Int} (hd : d ≠ 0)
    (hhigh : d * 10 ^ e.toNat < 10 ^ maxPlaces.toNat * 10 ^ (-e).toNat)
    (hlow : 10 ^ (-e).toNat ≤ d * 10 ^ e.toNat * 10 ^ (-minPlaces).toNat) :
    ofDecimal negative d e = ofRatio negative (d * 10 ^ e.toNat) (10 ^ (-e).toNat) := by
  have hmax : maxPlaces = 310 := rfl
  have hmin : minPlaces = -330 := rfl
  have hlength : ∀ j, (Nat.toDigits 10 (d * 10 ^ j)).length = (Nat.toDigits 10 d).length + j := by
    intro j
    rw [toDigits_mul_pow hd, List.length_append, List.length_replicate]
  have hupper : (Nat.toDigits 10 d).length + e.toNat ≤ maxPlaces.toNat + (-e).toNat := by
    rw [← hlength, Nat.length_toDigits_le_iff (by decide) (by omega), Nat.pow_add]
    exact hhigh
  have hlower : (-e).toNat < (Nat.toDigits 10 d).length + (e.toNat + (-minPlaces).toNat) := by
    rw [← hlength, ← Nat.not_le]
    intro hle
    by_cases he : (-e).toNat = 0
    · rw [hlength] at hle
      omega
    · rw [Nat.length_toDigits_le_iff (by decide) (Nat.pos_of_ne_zero he), Nat.pow_add,
        ← Nat.mul_assoc] at hle
      exact absurd hlow (Nat.not_le.2 hle)
  unfold ofDecimal
  dsimp only
  rw [if_neg hd, if_neg (by omega), if_neg (by omega)]
  by_cases he : 0 ≤ e
  · have hneg : (-e).toNat = 0 := by omega
    rw [if_pos he, hneg, Nat.pow_zero]
  · have hpos : e.toNat = 0 := by omega
    rw [if_neg he, hpos, Nat.pow_zero, Nat.mul_one]

/-- What is near a canonical number is in the range of decimals. -/
theorem inRange_of_near {m s num den : Nat} (hm : m ≠ 0) (hcan : (finite false m s).IsCanonical)
    (hden : 0 < den) (hhigh : num * 2 ^ unitExponent ≤ 2 * (m * 2 ^ s * den))
    (hlow : m * 2 ^ s * den ≤ 2 * (num * 2 ^ unitExponent)) :
    num < 10 ^ maxPlaces.toNat * den ∧ den ≤ num * 10 ^ (-minPlaces).toNat := by
  obtain ⟨hlt, -, hs⟩ := hcan
  have hlarge : 2 * (2 ^ precision * 2 ^ maxShift) ≤ 10 ^ maxPlaces.toNat * 2 ^ unitExponent := by
    decide +kernel
  have hsmall : 2 * 2 ^ unitExponent ≤ 10 ^ (-minPlaces).toNat := by decide +kernel
  constructor
  · have hvalue : m * 2 ^ s < 2 ^ precision * 2 ^ maxShift :=
      Nat.mul_lt_mul_of_lt_of_le hlt (Nat.pow_le_pow_right (by decide) hs) (Nat.two_pow_pos _)
    refine Nat.lt_of_mul_lt_mul_right (a := 2 ^ unitExponent) ?_
    calc num * 2 ^ unitExponent
        ≤ 2 * (m * 2 ^ s * den) := hhigh
      _ < 2 * (2 ^ precision * 2 ^ maxShift * den) := by
        have := Nat.mul_lt_mul_of_pos_right hvalue hden
        omega
      _ ≤ 10 ^ maxPlaces.toNat * 2 ^ unitExponent * den := by
        rw [← Nat.mul_assoc]
        exact Nat.mul_le_mul_right den hlarge
      _ = 10 ^ maxPlaces.toNat * den * 2 ^ unitExponent := Nat.mul_right_comm _ _ _
  · have hvalue : 1 ≤ m * 2 ^ s := Nat.mul_pos (Nat.pos_of_ne_zero hm) (Nat.two_pow_pos s)
    calc den
        ≤ m * 2 ^ s * den := Nat.le_mul_of_pos_left den hvalue
      _ ≤ 2 * (num * 2 ^ unitExponent) := hlow
      _ = num * (2 * 2 ^ unitExponent) := Nat.mul_left_comm _ _ _
      _ ≤ num * 10 ^ (-minPlaces).toNat := Nat.mul_le_mul_left num hsmall

/-- The steps of a grid that gives a number seventeen digits are smaller than a unit of its last
bit, and for a power of two smaller than half of it. -/
theorem step_lt {m step unit : Nat} (hm : m < 2 ^ precision) (hunit : 0 < unit)
    (h : 10 ^ (maxDigits - 1) * step ≤ m * unit) :
    step < unit ∧ (m = 2 ^ (precision - 1) → 2 * step < unit) := by
  have hten : 10 ^ (maxDigits - 1) = 10000000000000000 := by decide
  have htwo : 2 ^ precision = 9007199254740992 := by decide
  have hhalf : 2 ^ (precision - 1) = 4503599627370496 := by decide
  rw [hten] at h
  constructor
  · have hmul : m * unit ≤ 2 ^ precision * unit := Nat.mul_le_mul_right unit (Nat.le_of_lt hm)
    rw [htwo] at hmul
    omega
  · rintro rfl
    rw [hhalf] at h
    omega

/-- **The nearest point of a fine grid reads back**: of one that gives the number seventeen
digits. -/
theorem nearest_readsBack {m s : Nat} {e : Int} (hm : m ≠ 0) (hcan : (finite false m s).IsCanonical)
    {num den : Nat} (hgrid : onGrid (asRatio m s).1 (asRatio m s).2 e = (num, den))
    (hfine : 10 ^ (maxDigits - 1) * den ≤ num) :
    ofDecimal false (roundDiv num den) e = .finite false m s := by
  rw [onGrid_eq, asRatio, Prod.mk.injEq] at hgrid
  dsimp only at hgrid
  obtain ⟨hnum, hden⟩ := hgrid
  have hscale : 0 < 10 ^ (-e).toNat := Nat.pow_pos (by decide)
  have hpos : 0 < den := hden ▸ Nat.mul_pos (Nat.two_pow_pos _) (Nat.pow_pos (by decide))
  have hle : den ≤ num :=
    Nat.le_trans (Nat.le_mul_of_pos_left den (Nat.pow_pos (by decide))) hfine
  obtain ⟨hhigh, hlow⟩ := roundDiv_near num hpos
  generalize roundDiv num den = d at hhigh hlow
  have hd : d ≠ 0 := by
    rintro rfl
    omega
  -- in units of the least number, `d` stands for `d * den`, and `m * 2 ^ s` for `num`
  have hunits : d * 10 ^ e.toNat * 2 ^ unitExponent = d * den := by
    rw [← hden, Nat.mul_assoc, Nat.mul_comm (10 ^ e.toNat)]
  have htwice : d * 10 ^ e.toNat * 2 ^ unitExponent ≤ 2 * (m * 2 ^ s * 10 ^ (-e).toNat) := by
    rw [hunits, hnum]
    omega
  have hhalf : m * 2 ^ s * 10 ^ (-e).toNat ≤ 2 * (d * 10 ^ e.toNat * 2 ^ unitExponent) := by
    rw [hunits, hnum]
    omega
  obtain ⟨hmax, hmin⟩ := inRange_of_near hm hcan hscale htwice hhalf
  have hunit : 0 < 2 ^ s * 10 ^ (-e).toNat := Nat.mul_pos (Nat.two_pow_pos s) hscale
  have hsteps : 10 ^ (maxDigits - 1) * den ≤ m * (2 ^ s * 10 ^ (-e).toNat) := by
    rw [← Nat.mul_assoc, hnum]
    exact hfine
  obtain ⟨hgap, hpower⟩ := step_lt hcan.1 hunit hsteps
  rw [ofDecimal_eq_ofRatio false hd hmax hmin]
  exact ofRatio_of_near hscale hcan (by rw [hunits, hnum]; exact hlow)
    (by rw [hunits, hnum]; exact hhigh) hgap hpower

/-- The nearest point of a grid is one of the two neighbours, so on a fine grid one of them is
found. -/
theorem neighbour?_ne_none {m s : Nat} {e : Int} (hm : m ≠ 0)
    (hcan : (finite false m s).IsCanonical) {num den : Nat}
    (hgrid : onGrid (asRatio m s).1 (asRatio m s).2 e = (num, den))
    (hfine : 10 ^ (maxDigits - 1) * den ≤ num) : neighbour? m s e ≠ none := by
  have hback := nearest_readsBack hm hcan hgrid hfine
  have hnearest : roundDiv num den = num / den ∨ roundDiv num den = num / den + 1 := by
    have hge := le_roundDiv num den
    have hle := roundDiv_le num den
    omega
  unfold neighbour?
  rw [hgrid]
  dsimp only
  rcases hnearest with h | h
  · rw [h] at hback
    rw [decide_eq_true hback]
    cases decide (ofDecimal false (num / den + 1) e = .finite false m s) with
    | true => exact Option.some_ne_none _
    | false => exact Option.some_ne_none _
  · rw [h] at hback
    rw [decide_eq_true hback]
    cases decide (ofDecimal false (num / den) e = .finite false m s) with
    | true => exact Option.some_ne_none _
    | false => exact Option.some_ne_none _

/-! ## The search -/

theorem firstNeighbour?_ne_none {m s : Nat} {top : Int} {fuel n j : Nat} (hn : n ≤ j)
    (hj : j < n + fuel) (h : neighbour? m s (top - j + 1) ≠ none) :
    firstNeighbour? m s top fuel n ≠ none := by
  induction fuel generalizing n with
  | zero => omega
  | succ fuel ih =>
    unfold firstNeighbour?
    cases hnext : neighbour? m s (top - n + 1) with
    | some d => exact nofun
    | none =>
      have hne : n ≠ j := by
        rintro rfl
        exact h hnext
      exact ih (by omega) (by omega)

/-- **Seventeen digits are enough.** -/
theorem exists_firstNeighbour? {m s : Nat} (hm : m ≠ 0) (hcan : (finite false m s).IsCanonical) :
    ∃ d, firstNeighbour? m s (decimalExponent (asRatio m s).1 (asRatio m s).2) maxDigits 1 =
      some d := by
  have hnum : 0 < (asRatio m s).1 := Nat.mul_pos (Nat.pos_of_ne_zero hm) (Nat.two_pow_pos s)
  have hden : 0 < (asRatio m s).2 := Nat.two_pow_pos unitExponent
  have hfine := onGrid_sub (decimalExponent_le hnum hden) (maxDigits - 1)
  generalize decimalExponent (asRatio m s).1 (asRatio m s).2 = top at hfine
  have hgrid := onGrid_eq (asRatio m s).1 (asRatio m s).2 (top - (maxDigits - 1 : Nat))
  have hneighbour := neighbour?_ne_none hm hcan hgrid hfine
  have htop : top - (maxDigits - 1 : Nat) = top - (maxDigits : Nat) + 1 := by
    unfold maxDigits
    omega
  rw [htop] at hneighbour
  exact Option.ne_none_iff_exists'.1 (firstNeighbour?_ne_none (by decide) (by decide) hneighbour)

theorem neighbour?_readsBack {m s : Nat} {e : Int} {d : Decimal} (h : neighbour? m s e = some d) :
    ofDecimal false d.digits d.exponent = .finite false m s := by
  unfold neighbour? at h
  split at h
  rename_i num den _
  simp only at h
  split at h
  · rename_i hbelow habove
    cases h
    simp only [decide_eq_true_eq] at hbelow habove
    -- the nearer one is one of the two
    have hnearer : ∀ k : Nat, k = num / den ∨ k = num / den + 1 →
        ofDecimal false k e = .finite false m s := by
      rintro k (rfl | rfl)
      · exact hbelow
      · exact habove
    apply hnearer
    simp only
    split
    · exact .inl rfl
    split
    · exact .inr rfl
    · omega
  · rename_i hbelow _
    cases h
    simpa using hbelow
  · rename_i _ habove
    cases h
    simpa using habove
  · cases h

theorem firstNeighbour?_readsBack {m s : Nat} {top : Int} {d : Decimal} (fuel : Nat) : ∀ n : Nat,
    firstNeighbour? m s top fuel n = some d →
      ofDecimal false d.digits d.exponent = .finite false m s := by
  induction fuel with
  | zero => intro n h; cases h
  | succ fuel ih =>
    intro n h
    unfold firstNeighbour? at h
    split at h
    · rename_i hd
      cases h
      exact neighbour?_readsBack hd
    · exact ih _ h

/-- **The shortest decimal reads back.** -/
theorem shortest_readsBack {m s : Nat} (hm : m ≠ 0) (hcan : (finite false m s).IsCanonical) :
    ofDecimal false (shortest m s).digits (shortest m s).exponent = .finite false m s := by
  obtain ⟨d, hd⟩ := exists_firstNeighbour? hm hcan
  have hshortest : shortest m s = d := by
    unfold shortest
    dsimp only
    rw [hd, Option.getD_some]
  rw [hshortest]
  exact firstNeighbour?_readsBack _ _ hd

end Vimgen.Binary64
