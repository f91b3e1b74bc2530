import Mathlib.Algebra.GroupWithZero.Nat
import Vimgen.Proofs.Reading

/-!
# Layout never changes content

Structured values are nested lists of texts, integers and plain atoms. `Datum.line` is the form of a
value on one line.

* `layout_eq_line_of_fits`: a value whose line fits is laid out as this line. Whatever is inside is
  shorter, so that nothing is broken there either.
* `newlines_line_lt`: breaking a list adds a newline to those of its texts, so that a broken value
  never looks like its line, whatever newlines its texts have.
* `layout_keeps_content`: **a structured value is read back from every layout**, and is laid out on
  one line exactly if it fits there.
-/

namespace Vimgen.Sexp

open Token (isSeparator)

/-! ## Structured values -/

/-- Characters of plain atoms. -/
def isPlainAtomChar (c : Char) : Bool := c.isAlphanum || c = '-' || c = '_'

/-- Names that need no escape and are not read as anything else. -/
structure IsPlainAtom (name : String) : Prop where
  ne_empty : name ≠ ""
  chars : ∀ c ∈ name.toList, isPlainAtomChar c = true
  notInt : Numeral.readInt? name.toList = none
  notReal : Numeral.readReal? name.toList = none
  ne_nil : name ≠ "nil"
  ne_t : name ≠ "t"

theorem isAtomChar_of_isPlainAtomChar {c : Char} (h : isPlainAtomChar c = true) :
    isAtomChar c = true := by
  by_cases hc : c = '_'
  · rw [hc]
    decide
  · have hword : isWordChar c = true := by
      simpa only [isPlainAtomChar, isWordChar, hc, decide_false, Bool.or_false] using h
    exact (isWordChar_spec hword).1

theorem IsPlainAtom.isSymbolName {name : String} (h : IsPlainAtom name) : IsSymbolName name := by
  have hword : ∀ w : String, name ≠ w → name.toList ≠ w.toList :=
    fun w hne heq => hne (String.toList_inj.1 heq)
  have hnil : name.toList ≠ ['n', 'i', 'l'] := hword "nil" h.ne_nil
  have ht : name.toList ≠ ['t'] := hword "t" h.ne_t
  refine ⟨hword "" h.ne_empty, fun c hc => isAtomChar_of_isPlainAtomChar (h.chars c hc), ?_⟩
  unfold Datum.ofAtom
  rw [if_neg hnil, if_neg ht, h.notInt]
  simp only [h.notReal, String.ofList_toList]

mutual

/-- Nested lists of texts, integers and plain atoms. -/
def Datum.IsStructured : Datum → Prop
  | .list items => allStructured items
  | .text _ | .integer _ => True
  | .symbol name => IsPlainAtom name
  | .real _ | .bracketed _ | .quoted _ | .bool _ | .null => False

def allStructured : List Datum → Prop
  | [] => True
  | d :: rest => d.IsStructured ∧ allStructured rest

end

mutual

theorem isPlain_of_isStructured (d : Datum) (h : d.IsStructured) (hsound : d.IsSound) :
    d.IsPlain := by
  cases d with
  | list items => exact allPlain_of_allStructured items h hsound
  | text value => trivial
  | integer n => exact hsound
  | symbol name => exact IsPlainAtom.isSymbolName h
  | real | bracketed | quoted | bool | null => exact absurd h not_false

theorem allPlain_of_allStructured (ds : List Datum) (h : allStructured ds)
    (hsound : allSound ds) : allPlain ds := by
  cases ds with
  | nil => trivial
  | cons d rest =>
    exact ⟨isPlain_of_isStructured d h.1 hsound.1, allPlain_of_allStructured rest h.2 hsound.2⟩

end

mutual

/-- Only an integer that cannot be spelled keeps a structured value from being printed. -/
theorem unprintable?_of_isStructured (d : Datum) (h : d.IsStructured) (hsound : ¬ d.IsSound) :
    d.unprintable? = some .digits := by
  cases d with
  | list items => exact unprintableIn?_of_allStructured items h hsound
  | text value => exact absurd trivial hsound
  | integer n => exact if_neg hsound
  | symbol name => exact absurd trivial hsound
  | real | bracketed | quoted | bool | null => exact absurd h not_false

theorem unprintableIn?_of_allStructured (ds : List Datum) (h : allStructured ds)
    (hsound : ¬ allSound ds) : Datum.unprintableIn? ds = some .digits := by
  cases ds with
  | nil => exact absurd trivial hsound
  | cons d rest =>
    rw [Datum.unprintableIn?]
    by_cases hfirst : d.IsSound
    · -- the first item is printed, so that one of the others is not
      have hrest : ¬ allSound rest := fun hrest => hsound ⟨hfirst, hrest⟩
      have hplain := isPlain_of_isStructured d h.1 hfirst
      rw [unprintable?_of_isPlain d hplain, unprintableIn?_of_allStructured rest h.2 hrest]
      rfl
    · rw [unprintable?_of_isStructured d h.1 hfirst]
      rfl

end

/-! ## One line -/

mutual

/-- The form of a value on one line: items are separated by single blanks. -/
def Datum.line : Datum → String
  | .list items => oneLine (linesOf items)
  | .text value => inQuotes prettyEscape value
  | .symbol name => name
  | .integer value => Numeral.intText value
  | .real value => value.text
  | .bracketed _ | .quoted _ | .bool _ | .null => ""

def linesOf : List Datum → List String
  | [] => []
  | d :: rest => d.line :: linesOf rest

end

/-- Values that are not made of others. -/
def Datum.isAtom : Datum → Bool
  | .list _ | .bracketed _ | .quoted _ => false
  | .text _ | .symbol _ | .integer _ | .real _ | .bool _ | .null => true

/-- A text can stand on one line: it is short enough, and has no newline. -/
def Datum.Layout.Fits (style : Datum.Layout) (line : String) : Prop :=
  (line.length : Int) ≤ style.maxLine ∧ '\n' ∉ line.toList

instance (style : Datum.Layout) (line : String) : Decidable (style.Fits line) :=
  inferInstanceAs (Decidable (_ ∧ _))

/-- The parts of a list stand on the line of the list. -/
theorem sublist_oneLine {parts : List String} {p : String} (h : p ∈ parts) :
    p.toList.Sublist (oneLine parts).toList := by
  have hjoined : ∀ {parts : List (List Char)} {cs : List Char}, cs ∈ parts →
      cs.Sublist ([' '].intercalate parts) := by
    intro parts cs hcs
    induction parts with
    | nil => cases hcs
    | cons first rest ih =>
      cases rest with
      | nil =>
        rw [List.mem_singleton.1 hcs, List.intercalate_singleton]
      | cons second rest =>
        rw [List.intercalate_cons_cons]
        rcases List.mem_cons.1 hcs with rfl | hcs
        · exact (List.sublist_append_left _ _).trans (List.sublist_append_left _ _)
        · exact (ih hcs).trans (List.sublist_append_right _ _)
  have htext : (oneLine parts).toList =
      ['('] ++ [' '].intercalate (parts.map String.toList) ++ [')'] := by
    simp [oneLine, String.toList_intercalate]
  rw [htext]
  exact (hjoined (List.mem_map_of_mem h)).trans
    ((List.sublist_append_right _ _).trans (List.sublist_append_left _ _))

section

variable {style : Datum.Layout}

theorem Datum.Layout.Fits.part {parts : List String} (h : style.Fits (oneLine parts)) {p : String}
    (hp : p ∈ parts) : style.Fits p := by
  have hsub := sublist_oneLine hp
  have hlen : p.length ≤ (oneLine parts).length := by
    rw [← String.length_toList, ← String.length_toList]
    exact hsub.length_le
  exact ⟨Int.le_trans (Int.ofNat_le.2 hlen) h.1, fun hmem => h.2 (hsub.subset hmem)⟩

theorem layoutList_cons (depth : Int) (first : String) (rest : List String) :
    style.list depth (first :: rest) =
      if style.Fits (oneLine (first :: rest)) then oneLine (first :: rest)
      else manyLines style depth first rest := by
  unfold Datum.Layout.list
  dsimp only
  refine if_congr ?_ rfl rfl
  simp only [Datum.Layout.Fits, oneLine, Bool.and_eq_true, decide_eq_true_eq, Bool.not_eq_true',
    List.contains_eq_mem, decide_eq_false_iff_not]

theorem layoutList_of_fits {parts : List String} (depth : Int) (h : style.Fits (oneLine parts)) :
    style.list depth parts = oneLine parts := by
  cases parts with
  | nil => rfl
  | cons first rest => rw [layoutList_cons, if_pos h]

mutual

/-- **What fits on one line is laid out on one line.** -/
theorem layout_eq_line_of_fits (d : Datum) (depth : Int) (h : style.Fits d.line) :
    d.layout style depth = d.line := by
  cases d with
  | list items =>
    have hitems := layoutAll_eq_of_fits items (depth + 1) fun p hp => h.part hp
    rw [Datum.layout, hitems]
    exact layoutList_of_fits depth h
  | _ => rfl

theorem layoutAll_eq_of_fits (ds : List Datum) (depth : Int)
    (h : ∀ p ∈ linesOf ds, style.Fits p) : Datum.layoutAll style depth ds = linesOf ds := by
  cases ds with
  | nil => rfl
  | cons d rest =>
    rw [linesOf, List.forall_mem_cons] at h
    rw [Datum.layoutAll, linesOf, layout_eq_line_of_fits d depth h.1,
      layoutAll_eq_of_fits rest depth h.2]

end

end

/-! ## Newlines -/

/-- The number of newlines in a text. -/
def newlines (s : String) : Nat := s.toList.count '\n'

theorem newlines_append (s t : String) : newlines (s ++ t) = newlines s + newlines t := by
  unfold newlines
  rw [String.toList_append, List.count_append]

theorem newlines_intercalate (sep : String) (parts : List String) :
    newlines (String.intercalate sep parts) =
      (parts.map newlines).sum + (parts.length - 1) * newlines sep := by
  induction parts with
  | nil => simp [newlines]
  | cons first rest ih =>
    cases rest with
    | nil => simp
    | cons second rest =>
      have hlen : (first :: second :: rest).length - 1 = (second :: rest).length - 1 + 1 := by simp
      have hsum : ((first :: second :: rest).map newlines).sum =
          newlines first + ((second :: rest).map newlines).sum := by
        rw [List.map_cons, List.sum_cons]
      rw [String.intercalate_cons_cons, newlines_append, newlines_append, ih, hsum, hlen,
        Nat.succ_mul]
      omega

theorem newlines_oneLine (parts : List String) :
    newlines (oneLine parts) = (parts.map newlines).sum := by
  have hopen : newlines "(" = 0 := by decide
  have hblank : newlines " " = 0 := by decide
  have hclose : newlines ")" = 0 := by decide
  rw [oneLine, newlines_append, newlines_append, newlines_intercalate, hopen, hblank, hclose]
  omega

section

variable (style : Datum.Layout)

theorem sum_newlines_le_indented (depth : Int) (parts : List String) :
    (parts.map newlines).sum ≤
      newlines (String.intercalate "\n" (parts.map (style.indent depth ++ ·))) := by
  have hsum : (parts.map newlines).sum ≤
      ((parts.map (style.indent depth ++ ·)).map newlines).sum := by
    induction parts with
    | nil => exact Nat.le_refl _
    | cons p parts ih =>
      simp only [List.map_cons, List.sum_cons, newlines_append]
      omega
  rw [newlines_intercalate]
  omega

/-- A broken list has the newlines of its parts, and one more before the closing bracket. -/
theorem newlines_manyLines (depth : Int) (first : String) (rest : List String) :
    ((first :: rest).map newlines).sum < newlines (manyLines style depth first rest) := by
  have htail := sum_newlines_le_indented style (depth + 1) rest
  have hbreak : newlines "\n" = 1 := by decide
  unfold manyLines
  dsimp only
  generalize String.intercalate "\n" (rest.map (style.indent (depth + 1) ++ ·)) = tail at htail ⊢
  have hmiddle : newlines tail ≤ newlines (if tail.isEmpty then "" else "\n" ++ tail) := by
    split
    · rename_i hempty
      obtain rfl := String.isEmpty_iff.1 hempty
      exact Nat.le_refl _
    · rw [newlines_append]
      omega
  simp only [newlines_append, List.map_cons, List.sum_cons, hbreak]
  omega

theorem sum_newlines_le_layoutList (depth : Int) (parts : List String) :
    (parts.map newlines).sum ≤ newlines (style.list depth parts) := by
  rcases layoutList_cases style depth parts with hline | ⟨first, rest, rfl, hlines⟩
  · exact Nat.le_of_eq (by rw [hline, newlines_oneLine])
  · rw [hlines]
    exact Nat.le_of_lt (newlines_manyLines style depth first rest)

mutual

/-- Layout only adds newlines. -/
theorem newlines_line_le (d : Datum) (depth : Int) :
    newlines d.line ≤ newlines (d.layout style depth) := by
  cases d with
  | list items =>
    have hitems := newlines_linesOf_le items (depth + 1)
    have hparts := sum_newlines_le_layoutList style depth
      (Datum.layoutAll style (depth + 1) items)
    rw [Datum.line, newlines_oneLine, Datum.layout]
    exact Nat.le_trans hitems hparts
  | _ => exact Nat.le_refl _

theorem newlines_linesOf_le (ds : List Datum) (depth : Int) :
    ((linesOf ds).map newlines).sum ≤ ((Datum.layoutAll style depth ds).map newlines).sum := by
  cases ds with
  | nil => exact Nat.le_refl _
  | cons d rest =>
    have hfirst := newlines_line_le d depth
    have hrest := newlines_linesOf_le rest depth
    simp only [linesOf, Datum.layoutAll, List.map_cons, List.sum_cons]
    omega

end

/-- A list that is broken at the top has more newlines than its line. -/
theorem newlines_line_lt {d : Datum} {rest : List Datum} (depth : Int)
    (h : ¬ style.Fits (oneLine (Datum.layoutAll style (depth + 1) (d :: rest)))) :
    newlines (Datum.list (d :: rest)).line <
      newlines ((Datum.list (d :: rest)).layout style depth) := by
  have hitems := newlines_linesOf_le style (d :: rest) (depth + 1)
  rw [Datum.layoutAll] at h hitems
  rw [Datum.line, newlines_oneLine, Datum.layout, Datum.layoutAll, layoutList_cons, if_neg h]
  exact Nat.lt_of_le_of_lt hitems (newlines_manyLines style depth _ _)

/-- **A list with items stands on one line exactly if its line fits.** -/
theorem layout_eq_line_iff_fits (d : Datum) (rest : List Datum) (depth : Int) :
    (Datum.list (d :: rest)).layout style depth = (Datum.list (d :: rest)).line ↔
      style.Fits (Datum.list (d :: rest)).line := by
  constructor
  · intro heq
    by_cases hfits : style.Fits (oneLine (Datum.layoutAll style (depth + 1) (d :: rest)))
    · -- not broken at the top: the layout is the line of its parts, and this fits
      rw [← heq, Datum.layout, layoutList_of_fits depth hfits]
      exact hfits
    · have hmore := newlines_line_lt style depth hfits
      rw [heq] at hmore
      exact absurd hmore (Nat.lt_irrefl _)
  · exact layout_eq_line_of_fits _ depth

end

/-! ## Content -/

/-- **Layout never changes content.** A structured value whose integers can be spelled is printed,
at any depth and for any line length, and the text is read as that value. It is the value on one
line exactly if there is nothing to break, or the line is short enough and has no newline. A
structured value with an integer that has too many digits is refused. -/
theorem layout_keeps_content (d : Datum) (hd : d.IsStructured) (style : Datum.Layout)
    (hindent : ∀ c ∈ style.indentText.toList, c = ' ' ∨ c = '\t') (depth : Int) :
    (d.IsSound → ∃ text, d.pretty style depth = .ok text ∧ Datum.read text = .ok d ∧
      (text = d.line ↔ d.isAtom = true ∨ d = .list [] ∨
        ((d.line.length : Int) ≤ style.maxLine ∧ '\n' ∉ d.line.toList))) ∧
    (¬ d.IsSound → d.pretty style depth = .error .digits) := by
  have hblank : ∀ c ∈ style.indentText.toList, isSeparator c = true := by
    intro c hc
    rcases hindent c hc with rfl | rfl <;> decide
  constructor
  · intro hsound
    have hplain := isPlain_of_isStructured d hd hsound
    have hpretty : d.pretty style depth = .ok (d.layout style depth) := by
      unfold Datum.pretty
      rw [unprintable?_of_isPlain d hplain]
    refine ⟨_, hpretty, (reads_layout hblank d depth hplain).read, ?_⟩
    cases d with
    | list items =>
      cases items with
      | nil => exact ⟨fun _ => .inr (.inl rfl), fun _ => rfl⟩
      | cons first rest =>
        rw [layout_eq_line_iff_fits style first rest depth]
        constructor
        · exact fun hfits => .inr (.inr hfits)
        · rintro (hatom | hempty | hfits)
          · cases hatom
          · cases hempty
          · exact hfits
    | text | symbol | integer => exact ⟨fun _ => .inl rfl, fun _ => rfl⟩
    | real | bracketed | quoted | bool | null => exact absurd hd not_false
  · intro hsound
    unfold Datum.pretty
    rw [unprintable?_of_isStructured d hd hsound]

/-- A list with a newline, a quote and a backslash in a text, and a list that is short enough. -/
def noteForm : Datum :=
  .list [.symbol "a_1", .text "x\n\"\\", .list [.integer (-5), .list []]]

theorem layout_keeps_content_noteForm :
    noteForm.IsStructured ∧ ' ' ∈ " \t".toList ∧ noteForm.IsSound ∧
    noteForm.pretty { indentText := " \t", maxLine := 9 } 1 =
      .ok "(a_1\n \t \t\"x\n\\\"\\\\\"\n \t \t(-5 ())\n \t)" ∧
    Datum.read "(a_1\n \t \t\"x\n\\\"\\\\\"\n \t \t(-5 ())\n \t)" = .ok noteForm ∧
    noteForm.line = "(a_1 \"x\n\\\"\\\\\" (-5 ()))" := by
  have hatom : IsPlainAtom "a_1" :=
    ⟨by decide, List.all_eq_true.1 (by decide), by decide, by decide, by decide, by decide⟩
  have hstructured : noteForm.IsStructured := ⟨hatom, trivial, ⟨trivial, trivial, trivial⟩, trivial⟩
  have hdigits : Numeral.digitCount (-5) ≤ Numeral.digitLimit := by decide
  have hsound : noteForm.IsSound := ⟨trivial, trivial, ⟨hdigits, trivial, trivial⟩, trivial⟩
  have hpretty : noteForm.pretty { indentText := " \t", maxLine := 9 } 1 =
      .ok "(a_1\n \t \t\"x\n\\\"\\\\\"\n \t \t(-5 ())\n \t)" := by rfl
  have hindent : ∀ c ∈ " \t".toList, c = ' ' ∨ c = '\t' := by
    intro c hc
    simpa using hc
  obtain ⟨text, htext, hread, -⟩ :=
    (layout_keeps_content noteForm hstructured { indentText := " \t", maxLine := 9 } hindent 1).1
      hsound
  rw [hpretty] at htext
  cases htext
  exact ⟨hstructured, by decide, hsound, hpretty, hread, by decide⟩

/-- An integer with one digit too many. -/
def oversizedInteger : Datum := .integer (Nat.pow 10 Numeral.digitLimit : Nat)

/-- **Not every structured value is printed**: an integer may have too many digits. -/
theorem oversizedInteger_unprintable :
    oversizedInteger.IsStructured ∧ oversizedInteger.pretty {} 0 = .error .digits ∧
    ¬ ∃ text, oversizedInteger.pretty {} 0 = .ok text ∧ Datum.read text = .ok oversizedInteger := by
  have hsound : ¬ oversizedInteger.IsSound := Numeral.not_spellable_pow
  have hpretty : oversizedInteger.pretty {} 0 = .error .digits := by
    unfold Datum.pretty
    rw [unprintable?_of_isStructured oversizedInteger trivial hsound]
  refine ⟨trivial, hpretty, ?_⟩
  rintro ⟨text, htext, -⟩
  rw [hpretty] at htext
  cases htext

end Vimgen.Sexp
