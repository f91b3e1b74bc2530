import Vimgen.Name.Basic
import Vimgen.Proofs.Numeral

/-!
# Names and their texts

`display_of_parse`: a name that was read is written as the text it was read from. Each of the
splitting functions is undone by putting the parts together again.
-/

namespace Vimgen.Name

/-! ## Splitting -/

theorem splitDots_eq_splitOn (cs : List Char) : splitDots cs = cs.splitOn '.' := by
  induction cs with
  | nil => rfl
  | cons c cs ih =>
    rw [List.splitOn_cons_eq_if_modifyHead, ← ih, splitDots]
    by_cases hc : c = '.'
    · rw [if_pos hc, if_pos (beq_iff_eq.2 hc)]
    · -- any other character goes in front of the first part
      rw [if_neg hc, if_neg (mt beq_iff_eq.1 hc)]
      cases hparts : splitDots cs with
      | nil => exact absurd (ih ▸ hparts) (List.splitOn_ne_nil _ _)
      | cons part parts => rfl

theorem splitDots_ne_nil (cs : List Char) : splitDots cs ≠ [] := by
  rw [splitDots_eq_splitOn]
  exact List.splitOn_ne_nil _ _

/-- **Dots between the parts** give the text back. -/
theorem intercalate_splitDots (cs : List Char) : ['.'].intercalate (splitDots cs) = cs := by
  rw [splitDots_eq_splitOn]
  exact List.intercalate_splitOn '.'

theorem eq_of_splitLastUnderscore? {cs before after : List Char}
    (h : splitLastUnderscore? cs = some (before, after)) : cs = before ++ '_' :: after := by
  induction cs generalizing before after with
  | nil => cases h
  | cons c cs ih =>
    unfold splitLastUnderscore? at h
    split at h
    · rename_i hrest
      cases h
      rw [ih hrest, List.cons_append]
    · split at h
      · rename_i hc
        cases h
        rw [hc]
        rfl
      · cases h

theorem eq_of_insideBraces? {cs inner : List Char} (h : insideBraces? cs = some inner) :
    cs = '\x7b' :: inner ++ ['\x7d'] := by
  cases cs with
  | nil => cases h
  | cons c rest =>
    simp only [insideBraces?] at h
    split at h
    · rename_i hc
      simp only [Bool.and_eq_true, decide_eq_true_eq] at hc
      cases h
      obtain ⟨rfl, hlast⟩ := hc
      obtain ⟨before, rfl⟩ := List.getLast?_eq_some_iff.1 hlast
      rw [List.dropLast_concat]
      rfl
    · cases h

/-- **The parts of a made-up name** are a base and digits. -/
theorem eq_of_machineParts? {cs base digits : List Char}
    (h : machineParts? cs = some (base, digits)) :
    cs = '\x7b' :: (base ++ '_' :: digits) ++ ['\x7d'] ∧ ∀ c ∈ digits, c.isDigit = true := by
  unfold machineParts? at h
  cases hinner : insideBraces? cs with
  | none => rw [hinner] at h; cases h
  | some inner =>
    rw [hinner] at h
    dsimp only at h
    cases hsplit : splitLastUnderscore? inner with
    | none => rw [hsplit] at h; cases h
    | some parts =>
      obtain ⟨before, after⟩ := parts
      rw [hsplit] at h
      dsimp only at h
      split at h
      · rename_i hdigits
        cases h
        simp only [Bool.and_eq_true, List.all_eq_true] at hdigits
        exact ⟨by rw [eq_of_insideBraces? hinner, eq_of_splitLastUnderscore? hsplit], hdigits.2⟩
      · cases h

/-! ## Reading a name and writing it -/

theorem display_parseTopLevel (cs : List Char) : (parseTopLevel cs).display = String.ofList cs := by
  unfold parseTopLevel
  simp only
  split
  · obtain ⟨part, parts, hparts⟩ := List.exists_cons_of_ne_nil (splitDots_ne_nil cs)
    have hlast : splitDots cs = (splitDots cs).dropLast ++ [(splitDots cs).getLast?.getD []] := by
      rw [hparts, List.getLast?_eq_some_getLast (List.cons_ne_nil _ _), Option.getD_some,
        List.dropLast_concat_getLast]
    rw [display, ← String.toList_inj, String.toList_intercalate, String.toList_ofList]
    conv => rhs; rw [← intercalate_splitDots cs, hlast]
    simp [Function.comp_def]
  · simp [plain, display]

/-- **Names are written as they were read.** -/
theorem display_of_parse {s : String} {n : Name} (h : parse s = .ok n) : n.display = s := by
  have htop : (parseTopLevel s.toList).display = s := by
    rw [display_parseTopLevel, String.ofList_toList]
  unfold parse at h
  split at h
  · rename_i base digits hparts
    split at h
    · cases h
    split at h
    · rename_i hcanon
      cases h
      -- the digits are the numeral of the index, so that writing the index gives them back
      simp only [isCanonical, decide_eq_true_eq] at hcanon
      rw [← String.toList_inj, (eq_of_machineParts? hparts).1]
      simp [display, Numeral.intText, hcanon]
    · cases h; exact htop
  · cases h; exact htop

/-- **A name that cannot be read** is a made-up one with too many digits. -/
theorem exists_of_parse_error {s : String} {e : TooManyDigits} (h : parse s = .error e) :
    ∃ base digits, s.toList = '\x7b' :: (base ++ '_' :: digits) ++ ['\x7d'] ∧
      (∀ c ∈ digits, c.isDigit = true) ∧ digits.length = e.count ∧
      Numeral.digitLimit < e.count := by
  unfold parse at h
  cases hparts : machineParts? s.toList with
  | none => rw [hparts] at h; cases h
  | some parts =>
    obtain ⟨base, digits⟩ := parts
    rw [hparts] at h
    dsimp only at h
    obtain ⟨htext, hdigits⟩ := eq_of_machineParts? hparts
    split at h
    · rename_i hmany
      cases h
      exact ⟨base, digits, htext, hdigits, rfl, hmany⟩
    · split at h <;> cases h

/-- Names that are read back from their text are exactly those that are read from some text. -/
theorem parse_display_iff {n : Name} : parse n.display = .ok n ↔ ∃ s, parse s = .ok n := by
  constructor
  · intro h; exact ⟨_, h⟩
  · rintro ⟨s, hs⟩
    rw [display_of_parse hs]
    exact hs

/-- No text is read as a slot. -/
theorem isSlot_of_parse {s : String} {n : Name} (h : parse s = .ok n) : n.isSlot = false := by
  have htop : (parseTopLevel s.toList).isSlot = false := by
    unfold parseTopLevel
    simp only
    split <;> rfl
  unfold parse at h
  split at h
  · split at h
    · cases h
    split at h
    · cases h; rfl
    · cases h; exact htop
  · cases h; exact htop

end Vimgen.Name
