import Mathlib.Data.List.Forall2
import Vimgen.Text.Utf8

/-!
# Text files

What becomes of a text that is written to a file and read again.

* `decode_encode`: **its characters are the same**, but for line ends.
* `unifyNewlines_append`: line ends are unified piece by piece. `Becomes` says what a piece becomes,
  and is kept when pieces are put together.
-/

namespace Vimgen.Text.Utf8

/-! ## Bytes -/

theorem toNat_ofNat_of_lt {n : Nat} (h : n < 256) : (UInt8.ofNat n).toNat = n := by
  rw [UInt8.toNat_ofNat']
  exact Nat.mod_eq_of_lt h

theorem isContinuation_iff {b : UInt8} :
    isContinuation b = true ↔ 0x80 ≤ b.toNat ∧ b.toNat < 0xC0 := by
  simp [isContinuation, UInt8.le_iff_toNat_le, UInt8.lt_iff_toNat_lt]

/-- The second byte, by the value of the first. -/
theorem isSecond_iff {lead b : UInt8} :
    isSecond lead b = true ↔ (0x80 ≤ b.toNat ∧ b.toNat < 0xC0) ∧
      (lead.toNat = 0xE0 → 0xA0 ≤ b.toNat) ∧ (lead.toNat = 0xED → b.toNat < 0xA0) ∧
      (lead.toNat = 0xF0 → 0x90 ≤ b.toNat) ∧ (lead.toNat = 0xF4 → b.toNat < 0x90) := by
  simp only [isSecond, Bool.and_eq_true, isContinuation_iff, Bool.not_eq_true',
    Bool.and_eq_false_iff, decide_eq_false_iff_not, ← UInt8.toNat_inj, UInt8.le_iff_toNat_le, UInt8.lt_iff_toNat_lt]
  simp
  omega

/-! ## Characters -/

section
variable (pos : Nat) {b₀ b₁ b₂ b₃ : UInt8} (rest : List UInt8)

theorem decodeFrom_one (h₀ : b₀.toNat < 0x80) :
    decodeFrom pos (b₀ :: rest) =
      (decodeFrom (pos + 1) rest).map (Char.ofNat b₀.toNat :: ·) := by
  have hascii : b₀ < 0x80 := UInt8.lt_iff_toNat_lt.2 h₀
  rw [decodeFrom.eq_def]
  exact if_pos hascii

/-- The lead of a character of several bytes. -/
theorem lead_iff (b₀ : UInt8) : (¬b₀ < 0x80 ∧ ¬(b₀ < 0xC2 || 0xF4 < b₀) = true) ↔
    0xC2 ≤ b₀.toNat ∧ b₀.toNat ≤ 0xF4 := by
  simp [UInt8.lt_iff_toNat_lt]
  omega

theorem decodeFrom_two (hlead : 0xC2 ≤ b₀.toNat) (h₀ : b₀.toNat < 0xE0)
    (h₁ : isSecond b₀ b₁ = true) :
    decodeFrom pos (b₀ :: b₁ :: rest) =
      (decodeFrom (pos + 2) rest).map
        (Char.ofNat (b₀.toNat % 0x20 * 0x40 + payload b₁) :: ·) := by
  obtain ⟨hlow, hrange⟩ := (lead_iff b₀).2 ⟨hlead, by omega⟩
  have htwo : b₀ < 0xE0 := UInt8.lt_iff_toNat_lt.2 h₀
  rw [decodeFrom.eq_def]
  simp only [if_neg hlow, if_neg hrange, h₁, Bool.not_true, Bool.false_eq_true, if_false,
    if_pos htwo]

theorem decodeFrom_three (hlead : 0xE0 ≤ b₀.toNat) (h₀ : b₀.toNat < 0xF0)
    (h₁ : isSecond b₀ b₁ = true) (h₂ : isContinuation b₂ = true) :
    decodeFrom pos (b₀ :: b₁ :: b₂ :: rest) =
      (decodeFrom (pos + 3) rest).map
        (Char.ofNat ((b₀.toNat % 0x10 * 0x40 + payload b₁) * 0x40 + payload b₂) :: ·) := by
  obtain ⟨hlow, hrange⟩ := (lead_iff b₀).2 ⟨by omega, by omega⟩
  have htwo : ¬b₀ < 0xE0 := by rw [UInt8.lt_iff_toNat_lt]; exact Nat.not_lt.2 hlead
  have hthree : b₀ < 0xF0 := UInt8.lt_iff_toNat_lt.2 h₀
  rw [decodeFrom.eq_def]
  simp only [if_neg hlow, if_neg hrange, h₁, h₂, Bool.not_true, Bool.false_eq_true, if_false,
    if_neg htwo, if_pos hthree]

theorem decodeFrom_four (hlead : 0xF0 ≤ b₀.toNat) (h₀ : b₀.toNat ≤ 0xF4)
    (h₁ : isSecond b₀ b₁ = true) (h₂ : isContinuation b₂ = true) (h₃ : isContinuation b₃ = true) :
    decodeFrom pos (b₀ :: b₁ :: b₂ :: b₃ :: rest) =
      (decodeFrom (pos + 4) rest).map
        (Char.ofNat (((b₀.toNat % 0x08 * 0x40 + payload b₁) * 0x40 + payload b₂) * 0x40
          + payload b₃) :: ·) := by
  obtain ⟨hlow, hrange⟩ := (lead_iff b₀).2 ⟨by omega, h₀⟩
  have htwo : ¬b₀ < 0xE0 := by
    rw [UInt8.lt_iff_toNat_lt]
    exact Nat.not_lt.2 (Nat.le_trans (by decide) hlead)
  have hthree : ¬b₀ < 0xF0 := by rw [UInt8.lt_iff_toNat_lt]; exact Nat.not_lt.2 hlead
  rw [decodeFrom.eq_def]
  simp only [if_neg hlow, if_neg hrange, h₁, h₂, h₃, Bool.not_true, Bool.false_eq_true, if_false,
    if_neg htwo, if_neg hthree]

end

theorem payload_ofNat {n : Nat} (h : n < 0x40) : payload (UInt8.ofNat (n + 0x80)) = n := by
  rw [payload, toNat_ofNat_of_lt (by omega)]
  omega

theorem isContinuation_ofNat {n : Nat} (h : n < 0x40) :
    isContinuation (UInt8.ofNat (n + 0x80)) = true := by
  rw [isContinuation_iff, toNat_ofNat_of_lt (by omega)]
  omega

/-- **A character is read from its bytes.** -/
theorem decodeFrom_encodeChar (pos : Nat) (c : Char) (rest : List UInt8) :
    decodeFrom pos (String.utf8EncodeChar c ++ rest) =
      (decodeFrom (pos + (String.utf8EncodeChar c).length) rest).map (c :: ·) := by
  have hvalid : c.val.toNat < 0xD800 ∨ 0xDFFF < c.val.toNat ∧ c.val.toNat < 0x110000 := c.valid
  have hchar : Char.ofNat c.val.toNat = c := Char.ofNat_toNat c
  unfold String.utf8EncodeChar
  dsimp only
  generalize c.val.toNat = v at hvalid hchar ⊢
  have hbyte : ∀ n, n < 0x40 → n + 0x80 < 256 := fun n h => by omega
  split
  · have h₀ : (UInt8.ofNat v).toNat = v := toNat_ofNat_of_lt (by omega)
    rw [List.singleton_append, decodeFrom_one _ _ (by omega), h₀, hchar]
    rfl
  split
  · have h₀ : (UInt8.ofNat (v / 64 % 32 + 192)).toNat = v / 64 % 32 + 192 :=
      toNat_ofNat_of_lt (by omega)
    have h₁ : v % 64 < 0x40 := Nat.mod_lt _ (by decide)
    have hsecond : isSecond (UInt8.ofNat (v / 64 % 32 + 192))
        (UInt8.ofNat (v % 64 + 128)) = true := by
      rw [isSecond_iff, h₀, toNat_ofNat_of_lt (hbyte _ h₁)]
      omega
    have hv : (v / 64 % 32 + 192) % 32 * 64 + v % 64 = v := by omega
    rw [List.cons_append, List.singleton_append,
      decodeFrom_two _ _ (by omega) (by omega) hsecond, h₀, payload_ofNat h₁, hv, hchar]
    rfl
  split
  · have h₀ : (UInt8.ofNat (v / 4096 % 16 + 224)).toNat = v / 4096 % 16 + 224 :=
      toNat_ofNat_of_lt (by omega)
    have h₁ : v / 64 % 64 < 0x40 := Nat.mod_lt _ (by decide)
    have h₂ : v % 64 < 0x40 := Nat.mod_lt _ (by decide)
    have hsecond : isSecond (UInt8.ofNat (v / 4096 % 16 + 224))
        (UInt8.ofNat (v / 64 % 64 + 128)) = true := by
      rw [isSecond_iff, h₀, toNat_ofNat_of_lt (hbyte _ h₁)]
      omega
    have hv : ((v / 4096 % 16 + 224) % 16 * 64 + v / 64 % 64) * 64 + v % 64 = v := by omega
    rw [List.cons_append, List.cons_append, List.singleton_append,
      decodeFrom_three _ _ (by omega) (by omega) hsecond (isContinuation_ofNat h₂), h₀,
      payload_ofNat h₁, payload_ofNat h₂, hv, hchar]
    rfl
  · have h₀ : (UInt8.ofNat (v / 262144 % 8 + 240)).toNat = v / 262144 % 8 + 240 :=
      toNat_ofNat_of_lt (by omega)
    have h₁ : v / 4096 % 64 < 0x40 := Nat.mod_lt _ (by decide)
    have h₂ : v / 64 % 64 < 0x40 := Nat.mod_lt _ (by decide)
    have h₃ : v % 64 < 0x40 := Nat.mod_lt _ (by decide)
    have hsecond : isSecond (UInt8.ofNat (v / 262144 % 8 + 240))
        (UInt8.ofNat (v / 4096 % 64 + 128)) = true := by
      rw [isSecond_iff, h₀, toNat_ofNat_of_lt (hbyte _ h₁)]
      omega
    have hv : (((v / 262144 % 8 + 240) % 8 * 64 + v / 4096 % 64) * 64 + v / 64 % 64) * 64 + v % 64 =
        v := by omega
    rw [List.cons_append, List.cons_append, List.cons_append, List.singleton_append,
      decodeFrom_four _ _ (by omega) (by omega) hsecond (isContinuation_ofNat h₂)
        (isContinuation_ofNat h₃), h₀, payload_ofNat h₁, payload_ofNat h₂, payload_ofNat h₃, hv,
      hchar]
    rfl

/-- **Texts are read as they were written.** -/
theorem decode_encode (s : String) : decode (encode s) = .ok s.toList := by
  have hall : ∀ (cs : List Char) (pos : Nat),
      decodeFrom pos (cs.flatMap String.utf8EncodeChar) = .ok cs := by
    intro cs
    induction cs with
    | nil => intro pos; rw [List.flatMap_nil, decodeFrom]
    | cons c cs ih =>
      intro pos
      rw [List.flatMap_cons, decodeFrom_encodeChar, ih]
      rfl
  exact hall s.toList 0

/-! ## Line ends -/

theorem unifyNewlines_cons {c : Char} (hc : c ≠ '\r') (cs : List Char) :
    unifyNewlines (c :: cs) = c :: unifyNewlines cs := by
  rw [unifyNewlines.eq_def]
  split
  · rename_i heq; cases heq
  · rename_i heq; cases heq; exact absurd rfl hc
  · rename_i heq; cases heq; exact absurd rfl hc
  · rename_i heq; cases heq; rfl

theorem unifyNewlines_return {cs : List Char} (hcs : cs.head? ≠ some '\n') :
    unifyNewlines ('\r' :: cs) = '\n' :: unifyNewlines cs := by
  rw [unifyNewlines.eq_def]
  split
  · rename_i heq; cases heq
  · rename_i heq; cases heq; exact absurd rfl hcs
  · rename_i heq; cases heq; rfl
  · rename_i hno heq
    cases heq
    exact absurd rfl hno

/-- No carriage return is left. -/
theorem return_notMem_unifyNewlines (cs : List Char) : '\r' ∉ unifyNewlines cs := by
  fun_induction unifyNewlines cs with
  | case1 => exact List.not_mem_nil
  | case2 rest ih => simpa using ih
  | case3 rest _ ih => simpa using ih
  | case4 c rest _ hc ih =>
    have hne : '\r' ≠ c := fun h => hc h.symm
    simp [hne, ih]

theorem unifyNewlines_of_notMem {cs : List Char} (h : '\r' ∉ cs) : unifyNewlines cs = cs := by
  induction cs with
  | nil => rfl
  | cons c cs ih =>
    rw [List.mem_cons, not_or] at h
    rw [unifyNewlines_cons (Ne.symm h.1), ih h.2]

/-- **Line ends are unified piece by piece**, where no piece ends between the two characters of a
line end. -/
theorem unifyNewlines_append {a : List Char} (ha : a.getLast? ≠ some '\r') (b : List Char) :
    unifyNewlines (a ++ b) = unifyNewlines a ++ unifyNewlines b := by
  fun_induction unifyNewlines a with
  | case1 => rfl
  | case2 rest ih =>
    have hrest : rest.getLast? ≠ some '\r' := by
      cases rest with
      | nil => simp
      | cons d rest => simpa using ha
    rw [List.cons_append, List.cons_append, List.cons_append, ← ih hrest]
    rfl
  | case3 rest hno ih =>
    -- the carriage return is not the last character, so what follows it is in the same piece
    cases rest with
    | nil => exact absurd rfl ha
    | cons d rest =>
      have hrest : (d :: rest).getLast? ≠ some '\r' := by simpa using ha
      have hd : (d :: rest ++ b).head? ≠ some '\n' := by
        intro heq
        cases heq
        exact hno rest rfl
      rw [List.cons_append, unifyNewlines_return hd, ih hrest, List.cons_append]
  | case4 c rest _ hc ih =>
    have hrest : rest.getLast? ≠ some '\r' := by
      cases rest with
      | nil => simp
      | cons d rest => simpa using ha
    rw [List.cons_append, unifyNewlines_cons hc, ih hrest, List.cons_append]

/-! ## Texts in pieces -/

/-- A text becomes another one in a file, wherever it stands in it: it does not end between the two
characters of a line end. -/
structure Becomes (s u : String) : Prop where
  text : unifyNewlines s.toList = u.toList
  last : s.toList.getLast? ≠ some '\r'

namespace Becomes

theorem of_notMem {s : String} (h : '\r' ∉ s.toList) : Becomes s s where
  text := unifyNewlines_of_notMem h
  last hlast := h (List.mem_of_getLast? hlast)

theorem append {a b a' b' : String} (ha : Becomes a a') (hb : Becomes b b') :
    Becomes (a ++ b) (a' ++ b') where
  text := by
    rw [String.toList_append, String.toList_append, unifyNewlines_append ha.last, ha.text, hb.text]
  last := by
    rw [String.toList_append, List.getLast?_append]
    cases hlast : b.toList.getLast? with
    | none => simpa using ha.last
    | some c =>
      have hc := hb.last
      rw [hlast] at hc
      simpa using hc

theorem isEmpty_eq {s u : String} (h : Becomes s u) : s.isEmpty = u.isEmpty := by
  have hnil : ∀ cs : List Char, unifyNewlines cs = [] ↔ cs = [] := by
    intro cs
    fun_cases unifyNewlines cs <;> simp
  rw [Bool.eq_iff_iff, String.isEmpty_iff, String.isEmpty_iff, ← String.toList_eq_nil_iff,
    ← String.toList_eq_nil_iff, ← h.text, hnil]

theorem intercalate {sep : String} (hsep : '\r' ∉ sep.toList) {parts parts' : List String}
    (h : List.Forall₂ Becomes parts parts') :
    Becomes (String.intercalate sep parts) (String.intercalate sep parts') := by
  induction h with
  | nil => exact of_notMem (by simp)
  | cons hpart hparts ih =>
    cases hparts with
    | nil =>
      rw [String.intercalate_singleton, String.intercalate_singleton]
      exact hpart
    | cons _ _ =>
      rw [String.intercalate_cons_cons, String.intercalate_cons_cons]
      exact (hpart.append (of_notMem hsep)).append ih

end Becomes

end Vimgen.Text.Utf8
