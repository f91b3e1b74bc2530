import Vimgen.Proofs.NameText

/-!
# Which names are read back

Three kinds of names share one kind of text. `Name.IsReadable` says which names are read back from
their text: a made-up name, whatever its base, if its number is not negative; a global name, if its
text has not the form of a made-up one and its dots are where they are read, between parts that are
not empty, or all of them in the base where that cannot be. `parse_display_inverse` says that these
are all, and that every text that can be read is the text of the name that it is read as.
-/

namespace Vimgen.Name

/-! ## Forms of texts -/

/-- A text with the form of a made-up name whose number has too many digits to be read. -/
def IsOversized (s : String) : Prop :=
  ∃ base digits, s.toList = '\x7b' :: (base ++ '_' :: digits) ++ ['\x7d'] ∧
    (∀ c ∈ digits, c.isDigit = true) ∧ Numeral.digitLimit < digits.length

/-- A text with the form of a made-up name: a base, an underscore and a number in braces. -/
def IsMachineText (s : String) : Prop :=
  ∃ (base : String) (k : Nat), s = "\x7b" ++ base ++ "_" ++ k.repr ++ "\x7d"

/-- The dots in the text of a global name are where they are read: between modules and a base that
are not empty and have none of their own, or all in the base, in which they cannot separate
anything. -/
def HasReadableDots (namespaces : List String) (base : String) : Prop :=
  (namespaces ≠ [] ∧ ∀ part ∈ namespaces ++ [base], part ≠ "" ∧ '.' ∉ part.toList) ∨
    (namespaces = [] ∧ ('.' ∉ base.toList ∨ [] ∈ base.toList.splitOn '.'))

/-- Names that are read back from their text. -/
def IsReadable : Name → Prop
  | .machine _ index => 0 ≤ index
  | .topLevel namespaces base =>
    ¬ IsMachineText (topLevel namespaces base).display ∧ HasReadableDots namespaces base
  | .slot _ => False

/-! ## Made-up names -/

theorem splitLastUnderscore?_eq_none {cs : List Char} (h : '_' ∉ cs) :
    splitLastUnderscore? cs = none := by
  induction cs with
  | nil => rfl
  | cons c cs ih =>
    obtain ⟨hc, hcs⟩ := not_or.1 (mt List.mem_cons.2 h)
    rw [splitLastUnderscore?, ih hcs]
    exact if_neg (Ne.symm hc)

/-- The last underscore is the one with none behind it. -/
theorem splitLastUnderscore?_append (before : List Char) {after : List Char} (h : '_' ∉ after) :
    splitLastUnderscore? (before ++ '_' :: after) = some (before, after) := by
  induction before with
  | nil =>
    rw [List.nil_append, splitLastUnderscore?, splitLastUnderscore?_eq_none h]
    rfl
  | cons c before ih => rw [List.cons_append, splitLastUnderscore?, ih]

theorem insideBraces?_braces (inner : List Char) :
    insideBraces? ('\x7b' :: inner ++ ['\x7d']) = some inner := by
  rw [List.cons_append, insideBraces?, List.getLast?_concat, List.dropLast_concat]
  rfl

/-- **A text in braces** has the parts of a made-up name if it ends with a number. -/
theorem machineParts?_braces (base : List Char) {digits : List Char} (hne : digits ≠ [])
    (hdigits : ∀ c ∈ digits, c.isDigit = true) :
    machineParts? ('\x7b' :: (base ++ '_' :: digits) ++ ['\x7d']) = some (base, digits) := by
  have hunderscore : '_' ∉ digits := fun hmem => absurd (hdigits _ hmem) (by decide)
  rw [machineParts?, insideBraces?_braces]
  dsimp only
  rw [splitLastUnderscore?_append base hunderscore]
  dsimp only
  rw [if_pos]
  simpa [hne] using hdigits

/-- **Reading fails exactly at a number that is too long.** -/
theorem isOversized_iff {s : String} : IsOversized s ↔ ∃ e, parse s = .error e := by
  constructor
  · rintro ⟨base, digits, htext, hdigits, hmany⟩
    have hne : digits ≠ [] := by
      rintro rfl
      exact Nat.not_lt_zero _ hmany
    refine ⟨⟨digits.length⟩, ?_⟩
    rw [parse, htext, machineParts?_braces base hne hdigits]
    exact if_pos hmany
  · rintro ⟨e, he⟩
    obtain ⟨base, digits, htext, hdigits, hcount, hmany⟩ := exists_of_parse_error he
    exact ⟨base, digits, htext, hdigits, hcount ▸ hmany⟩

theorem toList_machineText (base : String) (k : Nat) :
    ("\x7b" ++ base ++ "_" ++ k.repr ++ "\x7d").toList =
      '\x7b' :: (base.toList ++ '_' :: Nat.toDigits 10 k) ++ ['\x7d'] := by
  simp

/-- **The form of a made-up name is read as one.** -/
theorem parse_machineText {base : String} {k : Nat}
    (h : ¬ IsOversized ("\x7b" ++ base ++ "_" ++ k.repr ++ "\x7d")) :
    parse ("\x7b" ++ base ++ "_" ++ k.repr ++ "\x7d") = .ok (.machine base k) := by
  have hdigits : ∀ c ∈ Nat.toDigits 10 k, c.isDigit = true :=
    fun c hc => Numeral.isDigit_of_mem_toDigits hc
  have hfew : ¬ Numeral.digitLimit < (Nat.toDigits 10 k).length := fun hmany =>
    h ⟨base.toList, Nat.toDigits 10 k, toList_machineText base k, hdigits, hmany⟩
  have hcanonical : isCanonical (Nat.toDigits 10 k) = true := by
    rw [isCanonical, Nat.ofDigitChars_ten_toDigits]
    exact decide_eq_true rfl
  rw [parse, toList_machineText, machineParts?_braces _ Nat.toDigits_ne_nil hdigits]
  dsimp only
  rw [if_neg hfew, if_pos hcanonical, Nat.ofDigitChars_ten_toDigits, String.ofList_toList]

/-- **Any other text is read as a global name.** -/
theorem parse_of_not_machineText {s : String} (hsize : ¬ IsOversized s) (h : ¬ IsMachineText s) :
    parse s = .ok (parseTopLevel s.toList) := by
  rw [parse]
  cases hparts : machineParts? s.toList with
  | none => rfl
  | some parts =>
    obtain ⟨base, digits⟩ := parts
    obtain ⟨htext, hdigits⟩ := eq_of_machineParts? hparts
    have hfew : ¬ Numeral.digitLimit < digits.length := fun hmany =>
      hsize ⟨base, digits, htext, hdigits, hmany⟩
    have hzeros : ¬ isCanonical digits = true := by
      intro hcanonical
      rw [isCanonical, decide_eq_true_eq] at hcanonical
      refine h ⟨String.ofList base, Nat.ofDigitChars 10 digits 0, ?_⟩
      rw [← String.toList_inj, toList_machineText, hcanonical, String.toList_ofList, htext]
    dsimp only
    rw [if_neg hfew, if_neg hzeros]

/-! ## Global names -/

/-- There is no dot between dots. -/
theorem notMem_of_mem_splitDots {cs part : List Char} (h : part ∈ splitDots cs) : '.' ∉ part := by
  induction cs generalizing part with
  | nil =>
    rw [List.mem_singleton.1 h]
    exact List.not_mem_nil
  | cons c cs ih =>
    obtain ⟨first, parts, hparts⟩ := List.exists_cons_of_ne_nil (splitDots_ne_nil cs)
    rw [hparts] at ih
    rw [splitDots, hparts] at h
    by_cases hc : c = '.'
    · rw [if_pos hc] at h
      rcases List.mem_cons.1 h with rfl | h
      · exact List.not_mem_nil
      · exact ih h
    · rw [if_neg hc] at h
      rcases List.mem_cons.1 h with rfl | h
      · exact fun hdot => (List.mem_cons.1 hdot).elim (Ne.symm hc) (ih List.mem_cons_self)
      · exact ih (List.mem_cons_of_mem _ h)

/-- A text has several parts exactly if it has a dot. -/
theorem one_lt_length_splitDots (cs : List Char) : 1 < (splitDots cs).length ↔ '.' ∈ cs := by
  constructor
  · refine fun hlong => Decidable.byContradiction fun hdot => ?_
    rw [splitDots_eq_splitOn, List.splitOn_eq_singleton hdot] at hlong
    exact Nat.lt_irrefl 1 hlong
  · intro hdot
    obtain ⟨first, parts, hparts⟩ := List.exists_cons_of_ne_nil (splitDots_ne_nil cs)
    cases parts with
    | nil =>
      -- the only part is the text itself
      have hwhole : first = cs := by
        rw [← intercalate_splitDots cs, hparts]
        simp
      exact absurd (hwhole ▸ hdot) (notMem_of_mem_splitDots (hparts ▸ List.mem_cons_self))
    | cons second parts => rw [hparts]; simp

/-- The dots of a text separate modules: there is one, and something before, between and behind
them. -/
def Separates (cs : List Char) : Prop := '.' ∈ cs ∧ [] ∉ cs.splitOn '.'

theorem not_separates_iff (cs : List Char) :
    ¬ Separates cs ↔ '.' ∉ cs ∨ [] ∈ cs.splitOn '.' := by
  rw [Separates, Decidable.not_and_iff_or_not, Decidable.not_not]

theorem separates_iff (cs : List Char) :
    (1 < (splitDots cs).length && (splitDots cs).all (!·.isEmpty)) = true ↔ Separates cs := by
  rw [Bool.and_eq_true, decide_eq_true_eq, one_lt_length_splitDots, List.all_eq_true, Separates,
    ← splitDots_eq_splitOn]
  refine and_congr_right fun _ => ⟨fun hall hmem => ?_, fun hnil part hpart => ?_⟩
  · exact absurd (hall [] hmem) (by decide)
  · cases part with
    | nil => exact absurd hpart hnil
    | cons c part => rfl

/-- **Dots that separate nothing** are part of the base. -/
theorem parseTopLevel_of_not_separates {cs : List Char} (h : ¬ Separates cs) :
    parseTopLevel cs = .plain (String.ofList cs) := by
  rw [parseTopLevel]
  exact if_neg (mt (separates_iff cs).1 h)

/-- **Where dots separate modules**, the parts are the modules and the base. -/
theorem parseTopLevel_eq_iff {cs : List Char} (h : Separates cs) {namespaces : List String}
    {base : String} :
    parseTopLevel cs = .topLevel namespaces base ↔
      cs.splitOn '.' = (namespaces ++ [base]).map String.toList := by
  have hparse : parseTopLevel cs = .topLevel ((splitDots cs).dropLast.map String.ofList)
      (String.ofList ((splitDots cs).getLast?.getD [])) := by
    rw [parseTopLevel]
    exact if_pos ((separates_iff cs).2 h)
  have hlast : splitDots cs = (splitDots cs).dropLast ++ [(splitDots cs).getLast?.getD []] := by
    rw [List.getLast?_eq_some_getLast (splitDots_ne_nil cs), Option.getD_some,
      List.dropLast_concat_getLast]
  rw [hparse, ← splitDots_eq_splitOn]
  constructor
  · intro h
    cases h
    conv => lhs; rw [hlast]
    simp [Function.comp_def]
  · intro h
    rw [h]
    simp [Function.comp_def]

section

variable {namespaces : List String} {base : String}

/-- The parts of a text in which dots separate modules. -/
theorem parts_of_separates {cs : List Char} (h : Separates cs)
    (hsplit : cs.splitOn '.' = (namespaces ++ [base]).map String.toList) :
    namespaces ≠ [] ∧ ∀ part ∈ namespaces ++ [base], part ≠ "" ∧ '.' ∉ part.toList := by
  refine ⟨?_, fun part hpart => ?_⟩
  · rintro rfl
    have hlong := (one_lt_length_splitDots cs).2 h.1
    rw [splitDots_eq_splitOn, hsplit] at hlong
    exact Nat.lt_irrefl 1 hlong
  · have hmem : part.toList ∈ cs.splitOn '.' := by
      rw [hsplit]
      exact List.mem_map_of_mem hpart
    refine ⟨?_, ?_⟩
    · rintro rfl
      exact h.2 hmem
    · rw [← splitDots_eq_splitOn] at hmem
      exact notMem_of_mem_splitDots hmem

/-- Parts without dots are what dots between them separate. -/
theorem splitOn_display (h : ∀ part ∈ namespaces ++ [base], '.' ∉ part.toList) :
    (topLevel namespaces base).display.toList.splitOn '.' =
      (namespaces ++ [base]).map String.toList := by
  have hdisplay : (topLevel namespaces base).display.toList =
      ['.'].intercalate ((namespaces ++ [base]).map String.toList) := by
    rw [display, String.toList_intercalate]
    rfl
  rw [hdisplay]
  refine List.splitOn_intercalate '.' (fun part hpart => ?_) (by simp)
  obtain ⟨text, htext, rfl⟩ := List.mem_map.1 hpart
  exact h text htext

theorem separates_display (hne : namespaces ≠ [])
    (h : ∀ part ∈ namespaces ++ [base], part ≠ "" ∧ '.' ∉ part.toList) :
    Separates (topLevel namespaces base).display.toList := by
  have hsplit := splitOn_display fun part hpart => (h part hpart).2
  constructor
  · rw [← one_lt_length_splitDots, splitDots_eq_splitOn, hsplit, List.length_map,
      List.length_append, List.length_singleton]
    have := List.length_pos_iff.2 hne
    omega
  · rw [hsplit]
    intro hnil
    obtain ⟨part, hpart, hempty⟩ := List.mem_map.1 hnil
    exact (h part hpart).1 (String.toList_eq_nil_iff.1 hempty)

end

/-- **Which global names are read back**, if their text is read as a global name. -/
theorem parseTopLevel_display_iff (namespaces : List String) (base : String) :
    parseTopLevel (topLevel namespaces base).display.toList = .topLevel namespaces base ↔
      HasReadableDots namespaces base := by
  have hbare : (topLevel [] base).display = base := by simp [display]
  by_cases hsep : Separates (topLevel namespaces base).display.toList
  · rw [parseTopLevel_eq_iff hsep]
    constructor
    · intro hsplit
      exact .inl (parts_of_separates hsep hsplit)
    · rintro (⟨-, hparts⟩ | ⟨rfl, hdots⟩)
      · exact splitOn_display fun part hpart => (hparts part hpart).2
      · rw [hbare] at hsep
        exact absurd hsep ((not_separates_iff _).2 hdots)
  · rw [parseTopLevel_of_not_separates hsep]
    constructor
    · intro h
      injection h with hnil _
      subst hnil
      rw [hbare] at hsep
      exact .inr ⟨rfl, (not_separates_iff _).1 hsep⟩
    · rintro (⟨hne, hparts⟩ | ⟨rfl, -⟩)
      · exact absurd (separates_display hne hparts) hsep
      · rw [hbare, String.ofList_toList]
        rfl

theorem exists_parseTopLevel (cs : List Char) :
    ∃ namespaces base, parseTopLevel cs = .topLevel namespaces base := by
  rw [parseTopLevel]
  split
  · exact ⟨_, _, rfl⟩
  · exact ⟨_, _, rfl⟩

/-! ## All names -/

/-- **Which names are read back**, if their text can be read. -/
theorem readsBack_iff_isReadable {n : Name} (hsize : ¬ IsOversized n.display) :
    parse n.display = .ok n ↔ n.IsReadable := by
  cases n with
  | machine base index =>
    constructor
    · intro hparse
      -- numbers are read without a sign
      by_cases hform : IsMachineText (machine base index).display
      · obtain ⟨other, k, htext⟩ := hform
        rw [htext] at hparse hsize
        rw [parse_machineText hsize] at hparse
        cases hparse
        exact Int.natCast_nonneg k
      · obtain ⟨namespaces, other, hglobal⟩ :=
          exists_parseTopLevel (machine base index).display.toList
        rw [parse_of_not_machineText hsize hform, hglobal] at hparse
        cases hparse
    · intro hindex
      obtain ⟨k, rfl⟩ := Int.eq_ofNat_of_zero_le hindex
      exact parse_machineText hsize
  | topLevel namespaces base =>
    by_cases hform : IsMachineText (topLevel namespaces base).display
    · refine ⟨fun hparse => ?_, fun hreadable => absurd hform hreadable.1⟩
      obtain ⟨other, k, htext⟩ := hform
      rw [htext] at hparse hsize
      rw [parse_machineText hsize] at hparse
      cases hparse
    · rw [parse_of_not_machineText hsize hform, Except.ok.injEq, parseTopLevel_display_iff]
      exact ⟨fun h => ⟨hform, h⟩, fun h => h.2⟩
  | slot i =>
    refine ⟨fun hparse => ?_, False.elim⟩
    cases isSlot_of_parse hparse

/-- **Names and texts.** A text is read unless it has the form of a made-up name with too many
digits; the name that it is read as is no slot, and has it as its text. And a name whose text is
read is read back from it exactly if it is readable. -/
theorem parse_display_inverse (s : String) (n : Name) :
    (IsOversized s ↔ ∃ e, parse s = .error e) ∧
    (¬ IsOversized s → ∃ m, parse s = .ok m ∧ m.display = s ∧ m.isSlot = false) ∧
    (¬ IsOversized n.display → (parse n.display = .ok n ↔ n.IsReadable)) := by
  refine ⟨isOversized_iff, fun hsize => ?_, readsBack_iff_isReadable⟩
  cases hparse : parse s with
  | error e => exact absurd (isOversized_iff.2 ⟨e, hparse⟩) hsize
  | ok m => exact ⟨m, rfl, display_of_parse hparse, isSlot_of_parse hparse⟩

/-- A global name with the text of a made-up one is not read back. -/
theorem parse_display_inverse_braces :
    (topLevel ["\x7ba"] "b_0\x7d").display = "\x7ba.b_0\x7d" ∧ ¬ IsOversized "\x7ba.b_0\x7d" ∧
    parse "\x7ba.b_0\x7d" = .ok (.machine "a.b" 0) ∧
    ¬ (topLevel ["\x7ba"] "b_0\x7d").IsReadable := by
  have hdisplay : (topLevel ["\x7ba"] "b_0\x7d").display = "\x7ba.b_0\x7d" := by decide
  have hparse : parse "\x7ba.b_0\x7d" = .ok (.machine "a.b" 0) := rfl
  have hsize : ¬ IsOversized "\x7ba.b_0\x7d" := by
    rw [isOversized_iff, hparse]
    rintro ⟨e, he⟩
    cases he
  have hback := (parse_display_inverse "\x7ba.b_0\x7d" (topLevel ["\x7ba"] "b_0\x7d")).2.2
  rw [hdisplay, hparse] at hback
  refine ⟨hdisplay, hsize, hparse, fun hreadable => ?_⟩
  cases (hback hsize).2 hreadable

end Vimgen.Name
