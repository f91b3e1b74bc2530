import Vimgen.Proofs.NameText
import Vimgen.Proofs.Slots

/-!
# Identifiers tell names apart

`unspell` reads the spelling of a text back, one character after the other, so that different texts
are spelled differently: `mangle_injective`. The identifier of a slot is no spelling of a text, so
identifiers tell all names apart that have texts of their own.
-/

namespace Vimgen

/-- The text that is spelled. Inside underscores, `code` has the digits so far, the last one
first. -/
def unspell : (code : Option (List Char)) → List Char → Option (List Char)
  | none, [] => some []
  | some _, [] => none
  | none, c :: rest =>
    if isPlainChar c then (unspell none rest).map (c :: ·)
    else if c = '_' then unspell (some []) rest
    else none
  | some digits, c :: rest =>
    if c = '_' then
      let read := Char.ofNat (Nat.ofDigitChars 10 digits.reverse 0)
      -- only the spelling of a character is read as one
      if mangleChar read = '_' :: digits.reverse ++ ['_'] then (unspell none rest).map (read :: ·)
      else none
    else unspell (some (c :: digits)) rest

theorem unspell_digits {more : List Char} (hmore : ∀ c ∈ more, c ≠ '_') (digits rest : List Char) :
    unspell (some digits) (more ++ rest) = unspell (some (more.reverse ++ digits)) rest := by
  induction more generalizing digits with
  | nil => rfl
  | cons c more ih =>
    have hc := hmore c List.mem_cons_self
    rw [List.cons_append, unspell, if_neg hc, ih (fun d hd => hmore d (List.mem_cons_of_mem _ hd)),
      List.reverse_cons, List.append_assoc]
    rfl

theorem unspell_mangleChar (c : Char) (rest : List Char) :
    unspell none (mangleChar c ++ rest) = (unspell none rest).map (c :: ·) := by
  by_cases hplain : isPlainChar c = true
  · rw [mangleChar, if_pos hplain, List.cons_append, List.nil_append, unspell, if_pos hplain]
  · have hspelled : mangleChar c = '_' :: Nat.toDigits 10 c.toNat ++ ['_'] := by
      rw [mangleChar, if_neg hplain]
    have hdigits : ∀ d ∈ Nat.toDigits 10 c.toNat, d ≠ '_' := by
      rintro d hd rfl
      exact absurd (Numeral.isDigit_of_mem_toDigits hd) (by decide)
    have hread : Char.ofNat (Nat.ofDigitChars 10 (Nat.toDigits 10 c.toNat) 0) = c := by
      rw [Nat.ofDigitChars_ten_toDigits, Char.ofNat_toNat]
    -- the first underscore opens the code, the digits are collected, and the second one ends it
    have hopen : unspell none (mangleChar c ++ rest) =
        unspell (some []) (Nat.toDigits 10 c.toNat ++ '_' :: rest) := by
      rw [hspelled, List.append_assoc, List.cons_append, unspell, if_neg (by decide), if_pos rfl]
      rfl
    rw [hopen, unspell_digits hdigits, List.append_nil, unspell, if_pos rfl]
    simp only [List.reverse_reverse, hread, hspelled, if_true]

/-- **A spelled text is read back.** -/
theorem unspell_flatMap (cs : List Char) : unspell none (cs.flatMap mangleChar) = some cs := by
  induction cs with
  | nil => rfl
  | cons c cs ih =>
    rw [List.flatMap_cons, unspell_mangleChar, ih]
    rfl

theorem mangle_injective {s t : String} (h : mangle s = mangle t) : s = t := by
  have hchars := congrArg String.toList h
  simp only [mangle, String.toList_append, String.toList_ofList, List.append_cancel_left_eq]
    at hchars
  have hread := congrArg (unspell none) hchars
  rw [unspell_flatMap, unspell_flatMap] at hread
  exact String.toList_inj.1 (Option.some.inj hread)

namespace Name

theorem target_eq_mangle {n : Name} (h : n.isSlot = false) : n.target = mangle n.display := by
  rw [target, h]
  rfl

/-- **Global names have the same identifier exactly if they have the same text.** -/
theorem target_eq_iff {m n : Name} (hm : m.isSlot = false) (hn : n.isSlot = false) :
    m.target = n.target ↔ m.display = n.display := by
  rw [target_eq_mangle hm, target_eq_mangle hn]
  exact ⟨mangle_injective, congrArg mangle⟩

/-- The identifier of a slot is no spelling of a text. -/
theorem slot_target_ne {n : Name} (h : n.isSlot = false) (i : Int) :
    (Name.slot i).target ≠ n.target := by
  rw [slot_target, target_eq_mangle h, mangle]
  intro heq
  have hchars := congrArg String.toList heq
  rw [String.toList_append, String.toList_append] at hchars
  -- they differ in their first letters already
  cases hchars

end Name

end Vimgen
