import Vimgen.Number.Binary64
import Vimgen.Proofs.Numeral

/-!
# Rounding to double precision

* `isCanonical_ofDecimal`: rounding gives canonical numbers only.
* `ofDecimal_mul_pow`: zeros at the end of a decimal can be moved to its exponent.
* `ofRatio_of_near`: what is near a number, measured by its last bit, is rounded to it.
* `ofInt?_eq_none_iff`: which integers are out of range.
-/

namespace Vimgen.Binary64

/-! ## Quotients -/

theorem roundDiv_mul_right (a b : Nat) {c : Nat} (hc : 0 < c) :
    roundDiv (a * c) (b * c) = roundDiv a b := by
  have hlt : 2 * (a % b * c) < b * c ↔ 2 * (a % b) < b := by
    rw [← Nat.mul_assoc]; exact Nat.mul_lt_mul_right hc
  have hgt : b * c < 2 * (a % b * c) ↔ b < 2 * (a % b) := by
    rw [← Nat.mul_assoc]; exact Nat.mul_lt_mul_right hc
  unfold roundDiv
  simp only [Nat.mul_div_mul_right a b hc, Nat.mul_mod_mul_right, hlt, hgt]

theorem le_roundDiv (num den : Nat) : num / den ≤ roundDiv num den := by
  unfold roundDiv
  simp only
  split
  · exact Nat.le_refl _
  · split <;> omega

theorem roundDiv_le (num den : Nat) : roundDiv num den ≤ num / den + 1 := by
  unfold roundDiv
  simp only
  split
  · omega
  · split <;> omega

/-- Rounding moves a quotient by one half at most. -/
theorem roundDiv_near (num : Nat) {den : Nat} (hden : 0 < den) :
    2 * (roundDiv num den * den) ≤ 2 * num + den ∧
      2 * num ≤ 2 * (roundDiv num den * den) + den := by
  have hdiv : num / den * den + num % den = num := by
    rw [Nat.mul_comm]
    exact Nat.div_add_mod num den
  have hmod : num % den < den := Nat.mod_lt num hden
  have hnext : (num / den + 1) * den = num / den * den + den := Nat.succ_mul _ _
  unfold roundDiv
  dsimp only
  split
  · omega
  · split
    · omega
    · rcases Nat.mod_two_eq_zero_or_one (num / den) with h | h
      · rw [h, Nat.add_zero]; omega
      · rw [h]; omega

/-- A quotient that is less than one half away from a natural number is rounded to it. -/
theorem roundDiv_of_near {num den k : Nat} (hlow : 2 * (k * den) < 2 * num + den)
    (hhigh : 2 * num < 2 * (k * den) + den) : roundDiv num den = k := by
  have hdiv : den * (num / den) + num % den = num := Nat.div_add_mod num den
  have hmod : num % den < den := Nat.mod_lt num (by omega)
  have hfloor : num / den = k ∨ num / den + 1 = k := by
    have hle : num / den < k + 1 := by
      rw [Nat.div_lt_iff_lt_mul (by omega), Nat.add_mul]
      omega
    have hge : k < num / den + 2 := by
      rw [← Nat.not_le]
      intro h
      have := Nat.mul_le_mul_right den h
      rw [Nat.add_mul, Nat.mul_comm _ den] at this
      omega
    omega
  unfold roundDiv
  dsimp only
  rcases hfloor with heq | heq
  · rw [heq, Nat.mul_comm] at hdiv
    rw [if_pos (by omega), heq]
  · rw [← heq, Nat.add_mul, Nat.mul_comm _ den] at hlow
    rw [if_neg (by omega), if_pos (by omega), heq]

theorem ofRatio_mul_right (negative : Bool) (num den : Nat) {c : Nat} (hc : 0 < c) :
    ofRatio negative (num * c) (den * c) = ofRatio negative num den := by
  have hunits : num * c * 2 ^ unitExponent = num * 2 ^ unitExponent * c := by
    rw [Nat.mul_assoc, Nat.mul_comm c, ← Nat.mul_assoc]
  have hscale : ∀ k, den * c * 2 ^ k = den * 2 ^ k * c := by
    intro k; rw [Nat.mul_assoc, Nat.mul_comm c, ← Nat.mul_assoc]
  unfold ofRatio
  simp only [hunits, hscale, Nat.mul_div_mul_right _ _ hc, roundDiv_mul_right _ _ hc]

/-! ## Canonical numbers -/

theorem isCanonical_ofMagnitude {negative : Bool} {m s : Nat} (hle : m ≤ 2 ^ precision)
    (hfull : s = 0 ∨ 2 ^ (precision - 1) ≤ m) : (ofMagnitude negative m s).IsCanonical := by
  unfold ofMagnitude
  split
  rename_i m' s' heq
  have hm : m' < 2 ^ precision ∧ (s' = 0 ∨ 2 ^ (precision - 1) ≤ m') := by
    split at heq
    · cases heq
      exact ⟨by decide, .inr (Nat.le_refl _)⟩
    · cases heq
      exact ⟨by omega, hfull⟩
  split
  · rename_i hs
    exact ⟨hm.1, hm.2, hs⟩
  · trivial

/-- The shift leaves just as many bits as a mantissa has, unless there are fewer. -/
theorem shift_bounds (q : Nat) :
    q / 2 ^ (q.log2 + 1 - precision) < 2 ^ precision ∧
      (q.log2 + 1 - precision = 0 ∨ 2 ^ (precision - 1) ≤ q / 2 ^ (q.log2 + 1 - precision)) := by
  have hp : precision = 53 := rfl
  have hupper : q < 2 ^ (q.log2 + 1) := Nat.lt_log2_self
  constructor
  · rw [Nat.div_lt_iff_lt_mul (Nat.two_pow_pos _), ← Nat.pow_add]
    exact Nat.lt_of_lt_of_le hupper (Nat.pow_le_pow_right (by omega) (by omega))
  · by_cases hs : q.log2 + 1 - precision = 0
    · exact .inl hs
    · right
      have hq : q ≠ 0 := by
        rintro rfl
        simp [hp] at hs
      rw [Nat.le_div_iff_mul_le (Nat.two_pow_pos _), ← Nat.pow_add]
      refine Nat.le_trans (Nat.pow_le_pow_right (by omega) ?_) (Nat.log2_self_le hq)
      omega

theorem isCanonical_ofRatio (negative : Bool) (num den : Nat) :
    (ofRatio negative num den).IsCanonical := by
  unfold ofRatio
  simp only
  generalize num * 2 ^ unitExponent = units
  -- the shift is chosen for the quotient before rounding, which may then carry into one bit more
  obtain ⟨hlt, hge⟩ := shift_bounds (units / den)
  rw [Nat.div_div_eq_div_mul] at hlt hge
  apply isCanonical_ofMagnitude
  · have := roundDiv_le units (den * 2 ^ ((units / den).log2 + 1 - precision))
    omega
  · rcases hge with h | h
    · exact .inl h
    · exact .inr (Nat.le_trans h (le_roundDiv _ _))

/-- **Rounding gives canonical numbers.** -/
theorem isCanonical_ofDecimal (negative : Bool) (digits : Nat) (exponent : Int) :
    (ofDecimal negative digits exponent).IsCanonical := by
  have hzero : (finite negative 0 0).IsCanonical := ⟨by decide, .inl rfl, by decide⟩
  unfold ofDecimal
  simp only
  split
  · exact hzero
  split
  · trivial
  split
  · exact hzero
  split
  · exact isCanonical_ofRatio _ _ _
  · exact isCanonical_ofRatio _ _ _

theorem isCanonical_of_ofInt? {n : Int} {x : Binary64} (h : ofInt? n = some x) : x.IsCanonical := by
  have hcan := isCanonical_ofDecimal (n < 0) n.natAbs 0
  unfold ofInt? at h
  split at h
  · cases h
  · cases h
    exact hcan

/-! ## Nearby numbers -/

/-- The number of bits that a quotient is shifted by, from bounds on the quotient. -/
theorem shift_eq {units den t : Nat} (hden : 0 < den) (hlt : units < 2 ^ (precision + t) * den)
    (hfull : t = 0 ∨ 2 ^ (precision - 1 + t) * den ≤ units) :
    (units / den).log2 + 1 - precision = t := by
  have hp : precision = 53 := rfl
  have hupper : units / den < 2 ^ (precision + t) := by
    rw [Nat.div_lt_iff_lt_mul hden]
    exact hlt
  by_cases hzero : units / den = 0
  · rw [hzero]
    rcases hfull with rfl | hfull
    · rfl
    · rw [← Nat.le_div_iff_mul_le hden, hzero] at hfull
      exact absurd hfull (Nat.not_le.2 (Nat.two_pow_pos _))
  · have hlog := (Nat.log2_lt hzero).2 hupper
    rcases hfull with rfl | hfull
    · omega
    · rw [← Nat.le_div_iff_mul_le hden, ← Nat.le_log2 hzero] at hfull
      omega

theorem ofMagnitude_of_lt (negative : Bool) {m s : Nat} (hm : m < 2 ^ precision)
    (hs : s ≤ maxShift) : ofMagnitude negative m s = .finite negative m s := by
  have hne : ¬m = 2 ^ precision := Nat.ne_of_lt hm
  unfold ofMagnitude
  simp only [if_neg hne, if_pos hs]

theorem ofMagnitude_carry (negative : Bool) {s : Nat} (hs : s + 1 ≤ maxShift) :
    ofMagnitude negative (2 ^ precision) s = .finite negative (2 ^ (precision - 1)) (s + 1) := by
  unfold ofMagnitude
  rw [if_pos rfl]
  exact if_pos hs

/-- Just below a power of two, a quotient is rounded up to it: the mantissa has one bit too many,
and takes the next shift. -/
theorem ofRatio_below_power {t num den gap : Nat} (hden : 0 < den) (ht : t + 1 ≤ maxShift)
    (hlow : 2 * (2 ^ (precision + t) * den) ≤ 2 * (num * 2 ^ unitExponent) + gap)
    (hbelow : num * 2 ^ unitExponent < 2 ^ (precision + t) * den) (hgap : gap < 2 ^ t * den) :
    ofRatio false num den = .finite false (2 ^ (precision - 1)) (t + 1) := by
  have hp : 2 ^ precision = 2 * 2 ^ (precision - 1) := by decide
  unfold ofRatio
  dsimp only
  generalize num * 2 ^ unitExponent = units at *
  have hwithin : 2 ^ (precision - 1 + t) * den ≤ units := by
    have hone : 1 * (2 ^ t * den) ≤ 2 ^ (precision - 1) * (2 ^ t * den) :=
      Nat.mul_le_mul_right _ (Nat.two_pow_pos _)
    rw [Nat.pow_add, Nat.mul_assoc, hp, Nat.mul_assoc] at hlow
    rw [Nat.pow_add, Nat.mul_assoc]
    omega
  have hround : roundDiv units (den * 2 ^ t) = 2 ^ precision := by
    rw [Nat.pow_add, Nat.mul_assoc] at hlow hbelow
    rw [Nat.mul_comm den]
    exact roundDiv_of_near (by omega) (by omega)
  rw [shift_eq hden hbelow (.inr hwithin), hround]
  exact ofMagnitude_carry false ht

/-- **Rounding gives the canonical number that is near.** A quotient whose distance from the number
is at most half of `gap` is rounded to it, if `gap` is smaller than a unit of the last bit. Below a
power of two these units are half as large. -/
theorem ofRatio_of_near {m s num den gap : Nat} (hden : 0 < den)
    (hcan : (finite false m s).IsCanonical)
    (hlow : 2 * (m * 2 ^ s * den) ≤ 2 * (num * 2 ^ unitExponent) + gap)
    (hhigh : 2 * (num * 2 ^ unitExponent) ≤ 2 * (m * 2 ^ s * den) + gap)
    (hgap : gap < 2 ^ s * den) (hpower : m = 2 ^ (precision - 1) → 2 * gap < 2 ^ s * den) :
    ofRatio false num den = .finite false m s := by
  obtain ⟨hlt, hfull, hs⟩ := hcan
  have hvalue : m * 2 ^ s * den = m * (2 ^ s * den) := Nat.mul_assoc _ _ _
  have hupper : num * 2 ^ unitExponent < 2 ^ (precision + s) * den := by
    have hnext : (m + 1) * (2 ^ s * den) ≤ 2 ^ precision * (2 ^ s * den) :=
      Nat.mul_le_mul_right _ hlt
    rw [Nat.add_mul] at hnext
    rw [Nat.pow_add, Nat.mul_assoc]
    omega
  by_cases hbinade : s = 0 ∨ 2 ^ (precision - 1 + s) * den ≤ num * 2 ^ unitExponent
  · -- the quotient lies in the same binade as the number
    have hround : roundDiv (num * 2 ^ unitExponent) (den * 2 ^ s) = m := by
      rw [Nat.mul_comm den]
      exact roundDiv_of_near (by omega) (by omega)
    unfold ofRatio
    dsimp only
    rw [shift_eq hden hupper hbinade, hround]
    exact ofMagnitude_of_lt false hlt hs
  · -- it lies below a power of two, in whose binade the units are half as large
    rw [not_or, Nat.not_le] at hbinade
    obtain ⟨hs0, hbelow⟩ := hbinade
    have hm : m = 2 ^ (precision - 1) := by
      rw [Nat.pow_add, Nat.mul_assoc] at hbelow
      refine Nat.le_antisymm (Nat.le_of_lt_succ ?_) (hfull.resolve_left hs0)
      refine Nat.lt_of_mul_lt_mul_right (a := 2 ^ s * den) ?_
      rw [Nat.succ_mul]
      omega
    obtain ⟨t, rfl⟩ := Nat.exists_eq_succ_of_ne_zero hs0
    have hbits : precision - 1 + t.succ = precision + t := by
      have hp : precision = 53 := rfl
      omega
    have hsame : m * 2 ^ t.succ = 2 ^ (precision + t) := by rw [hm, ← Nat.pow_add, hbits]
    rw [hbits] at hbelow
    rw [hsame] at hlow
    have hgap' := hpower hm
    rw [Nat.pow_succ, Nat.mul_right_comm] at hgap'
    rw [hm]
    exact ofRatio_below_power hden hs hlow hbelow (by omega)

/-! ## Decimals -/

theorem toDigits_mul_pow {d : Nat} (hd : d ≠ 0) (j : Nat) :
    Nat.toDigits 10 (d * 10 ^ j) = Nat.toDigits 10 d ++ List.replicate j '0' := by
  induction j with
  | zero => simp
  | succ j ih =>
    have hpos : 0 < d * 10 ^ j := Nat.mul_pos (Nat.pos_of_ne_zero hd) (Nat.pow_pos (by omega))
    have hstep : d * 10 ^ (j + 1) = 10 * (d * 10 ^ j) + 0 := by
      rw [Nat.pow_succ, ← Nat.mul_assoc, Nat.mul_comm, Nat.add_zero]
    rw [hstep, ← Nat.toDigits_append_toDigits (by omega) hpos (by omega), ih, List.append_assoc,
      Nat.toDigits_zero, List.replicate_succ']

/-- **Zeros at the end of a decimal** are the same as a larger exponent. -/
theorem ofDecimal_mul_pow (negative : Bool) {d : Nat} (hd : d ≠ 0) (j : Nat) (x : Int) :
    ofDecimal negative (d * 10 ^ j) x = ofDecimal negative d (x + j) := by
  have hpow : ∀ k, 0 < 10 ^ k := fun k => Nat.pow_pos (by omega)
  have hd' : ¬ d * 10 ^ j = 0 := Nat.mul_ne_zero hd (Nat.ne_of_gt (hpow j))
  have hplaces : ((Nat.toDigits 10 (d * 10 ^ j)).length : Int) + x =
      (Nat.toDigits 10 d).length + (x + j) := by
    rw [toDigits_mul_pow hd, List.length_append, List.length_replicate]
    push_cast
    omega
  have hratio : (if 0 ≤ x then ofRatio negative (d * 10 ^ j * 10 ^ x.toNat) 1
        else ofRatio negative (d * 10 ^ j) (10 ^ (-x).toNat)) =
      if 0 ≤ x + j then ofRatio negative (d * 10 ^ (x + j).toNat) 1
        else ofRatio negative d (10 ^ (-(x + j)).toNat) := by
    -- the exponent may change its sign when the zeros are moved to it
    by_cases hx : 0 ≤ x
    · have hsum : (x + j).toNat = j + x.toNat := by omega
      rw [if_pos hx, if_pos (by omega), hsum, Nat.pow_add, Nat.mul_assoc]
    · rw [if_neg hx]
      by_cases hxj : 0 ≤ x + j
      · have hj : (x + j).toNat + (-x).toNat = j := by omega
        have hscale := ofRatio_mul_right negative (d * 10 ^ (x + j).toNat) 1 (hpow (-x).toNat)
        rw [Nat.mul_assoc, ← Nat.pow_add, hj, Nat.one_mul] at hscale
        rw [if_pos hxj, hscale]
      · have hx' : (-x).toNat = (-(x + j)).toNat + j := by omega
        rw [if_neg hxj, hx', Nat.pow_add]
        exact ofRatio_mul_right _ _ _ (hpow _)
  unfold ofDecimal
  simp only [hplaces, if_neg hd', if_neg hd, hratio]

/-- The sign does not matter for rounding. -/
theorem ofDecimal_sign (negative : Bool) {d m s : Nat} {x : Int}
    (h : ofDecimal false d x = .finite false m s) :
    ofDecimal negative d x = .finite negative m s := by
  have hmagnitude : ∀ k t, ofMagnitude false k t = .finite false m s →
      ofMagnitude negative k t = .finite negative m s := by
    intro k t hk
    unfold ofMagnitude at hk ⊢
    split at hk
    split at hk
    · cases hk; simp [*]
    · cases hk
  unfold ofDecimal at h ⊢
  simp only at h ⊢
  split at h
  · cases h; rw [if_pos ‹_›]
  rw [if_neg ‹_›]
  split at h
  · cases h
  rw [if_neg ‹_›]
  split at h
  · cases h; rw [if_pos ‹_›]
  rw [if_neg ‹_›]
  split at h
  · rw [if_pos ‹_›]; exact hmagnitude _ _ h
  · rw [if_neg ‹_›]; exact hmagnitude _ _ h

/-! ## The range of integers -/

/-- A quotient is rounded up to an even number from one half below it on. -/
theorem le_roundDiv_iff {num den k : Nat} (hden : 0 < den) (hk : 0 < k) (heven : k % 2 = 0) :
    k ≤ roundDiv num den ↔ (2 * k - 1) * den ≤ 2 * num := by
  have hdiv : den * (num / den) + num % den = num := Nat.div_add_mod num den
  have hmod : num % den < den := Nat.mod_lt num hden
  have hhalf : (2 * k - 1) * den + den = 2 * (k * den) := by
    rw [← Nat.succ_mul, Nat.succ_eq_add_one, Nat.sub_add_cancel (by omega), Nat.mul_assoc]
  -- the quotient is at least `k`, just below it, or so far below that rounding does not reach `k`
  rcases Nat.lt_trichotomy (num / den + 1) k with hlt | heq | hgt
  · have hmul : den * (num / den + 2) ≤ den * k := Nat.mul_le_mul_left den (by omega)
    rw [Nat.mul_add, Nat.mul_comm den k] at hmul
    have hround := roundDiv_le num den
    constructor <;> intro h <;> omega
  · have hmul : den * (num / den) + den = k * den := by rw [← heq, Nat.add_mul, Nat.mul_comm]; omega
    unfold roundDiv
    dsimp only
    constructor
    · intro h
      split at h <;> omega
    · intro h
      rw [if_neg (by omega)]
      split <;> omega
  · have hmul : den * k ≤ den * (num / den) := Nat.mul_le_mul_left den (by omega)
    rw [Nat.mul_comm den k] at hmul
    have hround := le_roundDiv num den
    constructor <;> intro h <;> omega

/-- Whether a number is infinite. -/
def isInfinite : Binary64 → Bool
  | .infinite _ => true
  | _ => false

theorem isInfinite_ofMagnitude {negative : Bool} {m s : Nat} :
    (ofMagnitude negative m s).isInfinite = true ↔
      maxShift < s ∨ maxShift = s ∧ m = 2 ^ precision := by
  unfold ofMagnitude
  by_cases hm : m = 2 ^ precision
  · rw [if_pos hm]
    dsimp only
    split
    · exact iff_of_false nofun (by omega)
    · exact iff_of_true rfl (by omega)
  · rw [if_neg hm]
    dsimp only
    split
    · exact iff_of_false nofun (by omega)
    · exact iff_of_true rfl (by omega)

theorem log2_mul_two_pow {n : Nat} (hn : n ≠ 0) (k : Nat) : (n * 2 ^ k).log2 = n.log2 + k := by
  have hpos : 0 < 2 ^ k := Nat.two_pow_pos k
  rw [Nat.log2_eq_iff (Nat.mul_ne_zero hn (Nat.pos_iff_ne_zero.1 hpos))]
  constructor
  · rw [Nat.pow_add]
    exact Nat.mul_le_mul_right _ (Nat.log2_self_le hn)
  · rw [Nat.add_right_comm, Nat.pow_add]
    exact Nat.mul_lt_mul_of_pos_right Nat.lt_log2_self hpos

/-- Where mantissas of `p` bits in units of `2 ^ (e + 1)` run out: half a unit after the last. -/
def roundingBound (p e : Nat) : Nat := (2 ^ (p + 1) - 1) * 2 ^ e

theorem le_roundingBound (p e : Nat) : 2 ^ (p + e) ≤ roundingBound p e := by
  have hpos : 0 < 2 ^ p := Nat.two_pow_pos p
  rw [roundingBound, Nat.pow_add]
  exact Nat.mul_le_mul_right _ (by rw [Nat.pow_succ]; omega)

theorem roundingBound_le (p e : Nat) : roundingBound p e ≤ 2 ^ (p + e + 1) := by
  rw [roundingBound, Nat.add_right_comm, Nat.pow_add 2 (p + 1) e]
  exact Nat.mul_le_mul_right _ (Nat.sub_le _ _)

/-- From there on, the mantissa is rounded up to one bit too many. -/
theorem roundDiv_eq_pow_iff {p e n : Nat} (hp : 0 < p) (hlt : n < 2 ^ (p + e + 1)) :
    roundDiv n (2 ^ (e + 1)) = 2 ^ p ↔ roundingBound p e ≤ n := by
  have hbelow : n / 2 ^ (e + 1) < 2 ^ p := by
    rw [Nat.div_lt_iff_lt_mul (Nat.two_pow_pos _), ← Nat.pow_add]
    exact hlt
  have hround := roundDiv_le n (2 ^ (e + 1))
  have heven : 2 ^ p % 2 = 0 := by
    rw [← Nat.sub_add_cancel hp, Nat.pow_succ]
    exact Nat.mul_mod_left _ _
  have hbound : (2 * 2 ^ p - 1) * 2 ^ (e + 1) = 2 * roundingBound p e := by
    rw [roundingBound, Nat.pow_succ 2 e, Nat.pow_succ 2 p, Nat.mul_comm (2 ^ p) 2, ← Nat.mul_assoc,
      Nat.mul_comm]
  rw [← Nat.mul_le_mul_left_iff (by decide : 0 < 2), ← hbound,
    ← le_roundDiv_iff (Nat.two_pow_pos _) (Nat.two_pow_pos _) heven]
  exact ⟨fun h => h ▸ Nat.le_refl _, fun h => Nat.le_antisymm (by omega) h⟩

/-- From here on, an integer is as near to `2 ^ 1024` as to the largest number, or nearer. -/
def overflowBound : Nat := roundingBound precision 970

/-- **The range of rounding**, for integers. -/
theorem isInfinite_ofRatio_one (negative : Bool) {n : Nat} (hn : n ≠ 0) :
    (ofRatio negative n 1).isInfinite = true ↔ overflowBound ≤ n := by
  have hshift : (n * 2 ^ unitExponent).log2 + 1 - precision = n.log2 + 1022 := by
    rw [log2_mul_two_pow hn]
    exact Nat.add_sub_assoc (by decide : precision ≤ unitExponent + 1) n.log2
  obtain ⟨e, he⟩ : ∃ e, e = 970 := ⟨_, rfl⟩
  have hmax : maxShift = precision + e + 1022 := by rw [he]; rfl
  have hunits : precision + e + 1022 = e + 1 + unitExponent := by rw [he]; rfl
  have hp : 0 < precision := by decide
  unfold ofRatio overflowBound
  dsimp only
  rw [Nat.div_one, Nat.one_mul, isInfinite_ofMagnitude, hshift, hmax, Nat.add_lt_add_iff_right,
    Nat.add_right_cancel_iff, ← he]
  have hle : 2 ^ n.log2 ≤ n := Nat.log2_self_le hn
  have hlt : n < 2 ^ (n.log2 + 1) := Nat.lt_log2_self
  generalize precision = p at *
  generalize unitExponent = u at *
  -- below the last binade nothing is rounded out of range, and above it everything
  rcases Nat.lt_trichotomy n.log2 (p + e) with hsmall | heq | hlarge
  · have hpow : 2 ^ (n.log2 + 1) ≤ 2 ^ (p + e) := Nat.pow_le_pow_right (by decide) hsmall
    have hbound := Nat.le_trans hpow (le_roundingBound p e)
    refine iff_of_false ?_ (Nat.not_le.2 (Nat.lt_of_lt_of_le hlt hbound))
    rintro (hover | ⟨hsame, -⟩)
    · exact Nat.lt_asymm hsmall hover
    · exact Nat.ne_of_gt hsmall hsame
  · rw [heq] at hlt
    rw [heq, hunits, Nat.pow_add, roundDiv_mul_right _ _ (Nat.two_pow_pos _),
      roundDiv_eq_pow_iff hp hlt]
    exact ⟨fun h => (h.resolve_left (Nat.lt_irrefl _)).2, fun h => .inr ⟨rfl, h⟩⟩
  · have hpow : 2 ^ (p + e + 1) ≤ 2 ^ n.log2 := Nat.pow_le_pow_right (by decide) hlarge
    have hbound := Nat.le_trans (roundingBound_le p e) hpow
    exact iff_of_true (.inl hlarge) (Nat.le_trans hbound hle)

theorem isInfinite_ofDecimal_zero (negative : Bool) (n : Nat) :
    (ofDecimal negative n 0).isInfinite = true ↔ overflowBound ≤ n := by
  have hlarge : overflowBound ≤ 10 ^ 310 := by decide +kernel
  unfold ofDecimal
  dsimp only
  by_cases hn : n = 0
  · rw [if_pos hn, hn]
    exact iff_of_false nofun (by decide +kernel)
  rw [if_neg hn]
  by_cases hplaces : maxPlaces < ((Nat.toDigits 10 n).length : Int) + 0
  · rw [if_pos hplaces]
    -- so many digits are needed for larger numbers only
    have hlength : ¬(Nat.toDigits 10 n).length ≤ 310 := by unfold maxPlaces at hplaces; omega
    rw [Nat.length_toDigits_le_iff (by decide) (by decide), Nat.not_lt] at hlength
    exact iff_of_true rfl (Nat.le_trans hlarge hlength)
  · have hmin : ¬((Nat.toDigits 10 n).length : Int) + 0 < minPlaces := by unfold minPlaces; omega
    rw [if_neg hplaces, if_neg hmin, if_pos (by decide), Int.toNat_zero, Nat.pow_zero, Nat.mul_one]
    exact isInfinite_ofRatio_one negative hn

/-- **Integers without a number near them.** -/
theorem ofInt?_eq_none_iff {n : Int} : ofInt? n = none ↔ overflowBound ≤ n.natAbs := by
  rw [← isInfinite_ofDecimal_zero (n < 0), ofInt?]
  cases ofDecimal (n < 0) n.natAbs 0 with
  | nan => exact iff_of_false nofun nofun
  | infinite negative => exact iff_of_true rfl rfl
  | finite negative m s => exact iff_of_false nofun nofun

end Vimgen.Binary64
