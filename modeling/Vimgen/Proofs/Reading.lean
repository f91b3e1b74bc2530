import Mathlib.Data.List.Forall2
import Vimgen.Proofs.FloatText
import Vimgen.Sexp.Printer
import Vimgen.Sexp.Reader

/-!
# S-expressions that are read back

`Reads text ds` says that the reader takes `text`, wherever it stands between other tokens, for the
values `ds`. It holds for atoms and quoted texts, and is kept by brackets and by blanks, so it holds
for everything a writer puts together from them:

* `reads_layout` and `reads_flat`: both written forms of a plain value are read as that value.
* `sound_of_read`: every value that is read from some text is sound, that is, its numbers can be
  written again.
-/

namespace Vimgen.Sexp

open Token (Mode endsAtom enter isSeparator scanFrom)

/-! ## Texts and what they are read as -/

/-- What may follow an atom: the end, or a character that ends it. -/
def Delimited (rest : List Char) : Prop := ∀ c cs, rest = c :: cs → endsAtom c = true

/-- The reader takes a text for some values, before any rest and inside any open forms. -/
def Reads (text : List Char) (ds : List Datum) : Prop :=
  ∀ (position : Nat) (rest : List Char) (items : List Datum) (frames : List Frame), Delimited rest →
    readTokens items frames (scanFrom position .gap (text ++ rest)) =
      readTokens (ds.reverse ++ items) frames (scanFrom (position + text.length) .gap rest)

theorem delimited_nil : Delimited [] := by
  intro c cs h; cases h

theorem delimited_cons {c : Char} {cs : List Char} (h : endsAtom c = true) :
    Delimited (c :: cs) := by
  intro d ds heq; cases heq; exact h

theorem Delimited.append {a rest : List Char} (ha : Delimited a) (hrest : Delimited rest) :
    Delimited (a ++ rest) := by
  cases a with
  | nil => exact hrest
  | cons c cs => exact delimited_cons (ha c cs rfl)

theorem delimited_of_isSeparator {c : Char} {cs : List Char} (h : isSeparator c = true) :
    Delimited (c :: cs) :=
  delimited_cons (by simp [endsAtom, h])

theorem reads_nil : Reads [] [] := by
  intro position rest items frames _
  rfl

/-- One text after the other. -/
theorem Reads.append {a b : List Char} {xs ys : List Datum} (ha : Reads a xs) (hb : Reads b ys)
    (hdelim : Delimited b) : Reads (a ++ b) (xs ++ ys) := by
  intro position rest items frames hrest
  rw [List.append_assoc, ha position (b ++ rest) items frames (hdelim.append hrest),
    hb _ rest _ frames hrest, List.reverse_append, List.append_assoc, List.length_append,
    Nat.add_assoc]

/-- Blanks in front do not matter. -/
theorem Reads.blanks {blanks text : List Char} {ds : List Datum}
    (hblanks : ∀ c ∈ blanks, isSeparator c = true) (h : Reads text ds) :
    Reads (blanks ++ text) ds := by
  induction blanks with
  | nil => exact h
  | cons c blanks ih =>
    intro position rest items frames hrest
    have hc := hblanks c List.mem_cons_self
    have hstep : scanFrom position .gap (c :: (blanks ++ text) ++ rest) =
        scanFrom (position + 1) .gap (blanks ++ text ++ rest) := by
      simp [scanFrom, Token.step, enter, hc]
    have hlen : position + 1 + (blanks ++ text).length =
        position + (c :: (blanks ++ text)).length := by
      rw [List.length_cons]; omega
    rw [List.cons_append, hstep,
      ih (fun d hd => hblanks d (List.mem_cons_of_mem _ hd)) _ _ _ _ hrest,
      hlen]

/-- **A bracket around values.** -/
theorem reads_list {body : List Char} {ds : List Datum} (h : Reads body ds) :
    Reads ('(' :: body ++ [')']) [.list ds] := by
  intro position rest items frames hrest
  have hopen : scanFrom position .gap ('(' :: body ++ [')'] ++ rest) =
      .opening .round :: scanFrom (position + 1) .gap (body ++ (')' :: rest)) := by
    simp [scanFrom, Token.step, enter, isSeparator]
  have hclose : ∀ p, scanFrom p .gap (')' :: rest) =
      .closing .round (')' :: rest) :: scanFrom (p + 1) .gap rest := by
    intro p
    simp [scanFrom, Token.step, enter, isSeparator]
  have hlen : position + 1 + body.length + 1 = position + ('(' :: body ++ [')']).length := by
    rw [List.length_append, List.length_cons, List.length_singleton]; omega
  rw [hopen, readTokens, h _ _ _ _ (delimited_cons (by decide)), hclose, readTokens, hlen]
  simp [close, endApostrophes, Bracket.datum]

/-- A text that is one value is read as that value. -/
theorem Reads.read {text : String} {d : Datum} (h : Reads text.toList [d]) :
    Datum.read text = .ok d := by
  have hread := h 0 [] [] [] delimited_nil
  rw [List.append_nil] at hread
  unfold Datum.read Token.scan
  rw [hread]
  rfl

/-! ## Atoms -/

/-- Characters that are part of an atom and need no escape in it. -/
def isAtomChar (c : Char) : Bool := !endsAtom c && !isEscapable c

theorem scanFrom_atom {rest : List Char} (hrest : Delimited rest) (cs : List Char) :
    ∀ (position : Nat) (read : List Char), (∀ c ∈ cs, isAtomChar c = true) →
      scanFrom position (.atom read) (cs ++ rest) =
        .atom (read.reverse ++ cs) :: scanFrom (position + cs.length) .gap rest := by
  induction cs with
  | nil =>
    intro position read _
    cases rest with
    | nil => simp [scanFrom, Token.finish]
    | cons c rest => simp [scanFrom, Token.step, hrest c rest rfl]
  | cons c cs ih =>
    intro position read hcs
    have hc := hcs c List.mem_cons_self
    simp only [isAtomChar, Bool.and_eq_true, Bool.not_eq_true'] at hc
    have hslash : c ≠ '\\' := by
      rintro rfl
      exact absurd hc.2 (by decide)
    have hstep : scanFrom position (.atom read) (c :: (cs ++ rest)) =
        scanFrom (position + 1) (.atom (c :: read)) (cs ++ rest) := by
      simp [scanFrom, Token.step, hc.1, hslash]
    rw [List.cons_append, hstep, ih _ _ fun d hd => hcs d (List.mem_cons_of_mem _ hd)]
    simp [Nat.add_assoc, Nat.add_comm 1]

/-- **An atom** is read as its value. -/
theorem reads_atom {token : List Char} (hne : token ≠ [])
    (htoken : ∀ c ∈ token, isAtomChar c = true) : Reads token [Datum.ofAtom token] := by
  obtain ⟨c, cs, rfl⟩ := List.exists_cons_of_ne_nil hne
  intro position rest items frames hrest
  have hc := htoken c List.mem_cons_self
  simp only [isAtomChar, endsAtom, isEscapable, Bool.and_eq_true, Bool.not_eq_true',
    Bool.or_eq_false_iff, decide_eq_false_iff_not] at hc
  have hstep : scanFrom position .gap (c :: cs ++ rest) =
      scanFrom (position + 1) (.atom [c]) (cs ++ rest) := by
    simp [scanFrom, Token.step, enter, hc]
  rw [hstep, scanFrom_atom hrest _ _ _ fun d hd => htoken d (List.mem_cons_of_mem _ hd), readTokens]
  simp [Nat.add_assoc, Nat.add_comm 1]

/-! ## Quoted texts -/

/-- Escapes that a quoted text undoes. -/
def Undone (escape : Char → List Char) : Prop :=
  ∀ (c : Char) (position : Nat) (read rest : List Char),
    scanFrom position (.text read) (escape c ++ rest) =
      scanFrom (position + (escape c).length) (.text (c :: read)) rest

theorem undone_prettyEscape : Undone prettyEscape := by
  intro c position read rest
  by_cases hslash : c = '\\'
  · subst hslash; rfl
  by_cases hquote : c = '"'
  · subst hquote; rfl
  simp [prettyEscape, hslash, hquote, scanFrom, Token.step]

theorem undone_flatEscape : Undone flatEscape := by
  intro c position read rest
  unfold flatEscape
  split
  · subst c; rfl
  split
  · subst c; rfl
  split
  · subst c; rfl
  split
  · subst c; rfl
  split
  · subst c; rfl
  split
  · subst c; rfl
  split
  · subst c; rfl
  · rename_i hslash hquote _ _ _ _ _
    simp [scanFrom, Token.step, hslash, hquote]

theorem scanFrom_text {escape : Char → List Char} (hescape : Undone escape) (rest cs : List Char) :
    ∀ (position : Nat) (read : List Char),
      scanFrom position (.text read) (cs.flatMap escape ++ '"' :: rest) =
        .text (read.reverse ++ cs) ::
          scanFrom (position + (cs.flatMap escape).length + 1) .gap rest := by
  induction cs with
  | nil => intro position read; simp [scanFrom, Token.step]
  | cons c cs ih =>
    intro position read
    rw [List.flatMap_cons, List.append_assoc, hescape, ih]
    simp [Nat.add_assoc]

/-- **A quoted text** is read as the text. -/
theorem reads_inQuotes {escape : Char → List Char} (hescape : Undone escape) (s : String) :
    Reads (inQuotes escape s).toList [.text s] := by
  intro position rest items frames _
  have hopen : scanFrom position .gap ((inQuotes escape s).toList ++ rest) =
      scanFrom (position + 1) (.text []) (s.toList.flatMap escape ++ '"' :: rest) := by
    simp [inQuotes, scanFrom, Token.step, enter, isSeparator]
  have hlen : position + 1 + (s.toList.flatMap escape).length + 1 =
      position + (inQuotes escape s).toList.length := by
    simp [inQuotes]; omega
  rw [hopen, scanFrom_text hescape, readTokens, hlen]
  simp

/-! ## Numbers -/

theorem ofAtom_of_readInt? {token : List Char} {n : Int} (h : Numeral.readInt? token = some n) :
    Datum.ofAtom token = .integer n := by
  have hnil : token ≠ ['n', 'i', 'l'] := by
    rintro rfl
    cases h
  have ht : token ≠ ['t'] := by
    rintro rfl
    cases h
  simp [Datum.ofAtom, hnil, ht, h]

theorem ofAtom_of_readReal? {token : List Char} {x : Binary64}
    (hint : Numeral.readInt? token = none) (h : Numeral.readReal? token = some x) :
    Datum.ofAtom token = .real x := by
  have hnil : token ≠ ['n', 'i', 'l'] := by
    rintro rfl
    cases h
  have ht : token ≠ ['t'] := by
    rintro rfl
    cases h
  simp [Datum.ofAtom, hnil, ht, hint, h]

theorem isAtomChar_of_isDigit {c : Char} (h : c.isDigit = true) : isAtomChar c = true :=
  Numeral.of_isDigit (p := isAtomChar) (by decide) h

theorem isAtomChar_intText (n : Int) :
    ∀ c ∈ (Numeral.intText n).toList, isAtomChar c = true := by
  intro c hc
  cases n with
  | ofNat n =>
    rw [Numeral.intText, Nat.toList_repr] at hc
    exact isAtomChar_of_isDigit (Numeral.isDigit_of_mem_toDigits hc)
  | negSucc n =>
    rw [Numeral.intText, String.toList_append, Nat.toList_repr] at hc
    rcases List.mem_append.1 hc with hc | hc
    · rw [List.mem_singleton.1 hc]; rfl
    · exact isAtomChar_of_isDigit (Numeral.isDigit_of_mem_toDigits hc)

theorem reads_integer {n : Int} (h : Numeral.digitCount n ≤ Numeral.digitLimit) :
    Reads (Numeral.intText n).toList [.integer n] := by
  have hread := Numeral.readInt?_intText h
  rw [← ofAtom_of_readInt? hread]
  refine reads_atom (fun hnil => ?_) (isAtomChar_intText n)
  rw [hnil] at hread
  cases hread

theorem isAtomChar_realText {x : Binary64} (h : x.IsCanonical) :
    ∀ c ∈ x.text.toList, isAtomChar c = true := by
  cases x with
  | nan => exact List.all_eq_true.1 (by decide)
  | infinite negative => cases negative <;> exact List.all_eq_true.1 (by decide)
  | finite negative m s =>
    obtain ⟨-, -, -, -, hchars, -⟩ := Binary64.text_finite_spec h
    intro c hc
    have := hchars c hc
    simp only [Binary64.isTextChar, Bool.or_eq_true, decide_eq_true_eq] at this
    rcases this with (((h | rfl) | rfl) | rfl) | rfl
    · exact isAtomChar_of_isDigit h
    all_goals decide

theorem reads_real {x : Binary64} (h : x.IsCanonical) : Reads x.text.toList [.real x] := by
  have hread := Binary64.readReal?_text h
  rw [← ofAtom_of_readReal? (Binary64.readInt?_text h) hread]
  refine reads_atom (fun hnil => ?_) (isAtomChar_realText h)
  rw [hnil] at hread
  cases hread

/-! ## Lists -/

theorem reads_joined {sep : List Char} (hne : sep ≠ []) (hsep : ∀ c ∈ sep, isSeparator c = true)
    {parts : List (List Char)} {ds : List Datum}
    (h : List.Forall₂ (fun p d => Reads p [d]) parts ds) : Reads (sep.intercalate parts) ds := by
  induction h with
  | nil => exact reads_nil
  | @cons p d parts ds hp hparts ih =>
    cases hparts with
    | nil => simpa using hp
    | @cons q e parts ds hq hparts =>
      obtain ⟨c, cs, rfl⟩ := List.exists_cons_of_ne_nil hne
      rw [List.intercalate_cons_cons, List.append_assoc]
      exact hp.append (ih.blanks hsep) (delimited_of_isSeparator (hsep c List.mem_cons_self))

/-- Symbols that need no escape: their text is an atom that is not read as anything else. -/
structure IsSymbolName (name : String) : Prop where
  ne_nil : name.toList ≠ []
  chars : ∀ c ∈ name.toList, isAtomChar c = true
  ofAtom : Datum.ofAtom name.toList = .symbol name

/-- Characters of words. -/
def isWordChar (c : Char) : Bool := c.isAlphanum || c = '-'

/-- Words in any case that are not symbols. -/
def reservedWords : List (List Char) :=
  [['n', 'i', 'l'], ['t'], ['i', 'n', 'f'], ['i', 'n', 'f', 'i', 'n', 'i', 't', 'y'],
    ['n', 'a', 'n']]

/-- A check for symbols: words that start with a letter, a few apart. -/
def isWord (name : String) : Bool :=
  (name.toList.head?.map Char.isAlpha).getD false && name.toList.all isWordChar &&
    !reservedWords.contains (name.toList.map Char.toLower)

theorem isWordChar_spec {c : Char} (h : isWordChar c = true) :
    isAtomChar c = true ∧ Numeral.isPlain c = true := by
  have hall : ∀ n < 128, isWordChar (Char.ofNat n) = true →
      isAtomChar (Char.ofNat n) = true ∧ Numeral.isPlain (Char.ofNat n) = true := by decide +kernel
  have hlt : c.toNat < 128 := by
    delta isWordChar Char.isAlphanum Char.isAlpha Char.isUpper Char.isLower Char.isDigit at h
    simp only [Bool.or_eq_true, Bool.and_eq_true, decide_eq_true_eq] at h
    rcases h with ((⟨-, h⟩ | ⟨-, h⟩) | ⟨-, h⟩) | rfl
    · exact Nat.lt_of_le_of_lt h (by decide)
    · exact Nat.lt_of_le_of_lt h (by decide)
    · exact Nat.lt_of_le_of_lt h (by decide)
    · decide
  have := hall c.toNat hlt
  rw [Char.ofNat_toNat] at this
  exact this h

theorem not_numeral_of_isAlpha {c : Char} (h : c.isAlpha = true) :
    c.isDigit = false ∧ c ≠ '-' ∧ c ≠ '+' ∧ c ≠ '.' := by
  refine ⟨?_, ?_, ?_, ?_⟩
  · cases hd : c.isDigit with
    | false => rfl
    | true =>
      have hletter := Numeral.of_isDigit (p := fun d => !d.isAlpha) (by decide) hd
      rw [h] at hletter
      cases hletter
  all_goals
    rintro rfl
    exact absurd h (by decide)

section

variable {c : Char} {cs : List Char}

theorem splitSign_of_isAlpha (h : c.isAlpha = true) :
    Numeral.splitSign (c :: cs) = (false, c :: cs) := by
  obtain ⟨-, hminus, hplus, -⟩ := not_numeral_of_isAlpha h
  unfold Numeral.splitSign
  split
  · rename_i heq; cases heq; exact absurd rfl hminus
  · rename_i heq; cases heq; exact absurd rfl hplus
  · rfl

theorem readInt?_of_isAlpha (h : c.isAlpha = true) (hchars : ∀ d ∈ c :: cs, isWordChar d = true) :
    Numeral.readInt? (c :: cs) = none := by
  have hplain := Numeral.plain?_of_isPlain fun d hd => (isWordChar_spec (hchars d hd)).2
  unfold Numeral.readInt?
  rw [hplain]
  simp [splitSign_of_isAlpha h, (not_numeral_of_isAlpha h).1]

/-- A word that starts with a letter is a number only if it is the name of one. -/
theorem readReal?_of_isAlpha (h : c.isAlpha = true) (hchars : ∀ d ∈ c :: cs, isWordChar d = true)
    (hword : (c :: cs).map Char.toLower ∉ reservedWords) : Numeral.readReal? (c :: cs) = none := by
  have hplain := Numeral.plain?_of_isPlain fun d hd => (isWordChar_spec (hchars d hd)).2
  have hne : ∀ w : String, w.toList ∈ reservedWords →
      String.ofList ((c :: cs).map Char.toLower) ≠ w := by
    rintro w hw rfl
    rw [String.toList_ofList] at hw
    exact hword hw
  obtain ⟨hdigit, -, -, hpoint⟩ := not_numeral_of_isAlpha h
  unfold Numeral.readReal?
  rw [hplain]
  simp only [splitSign_of_isAlpha h, hne "inf" (by decide), hne "infinity" (by decide),
    hne "nan" (by decide), decide_false, Bool.or_false, Bool.false_eq_true, if_false]
  unfold Numeral.readDecimal? Numeral.spanDigits
  simp [hdigit, hpoint]

end

/-- **Words are symbols**: no numeral starts with a letter. -/
theorem IsSymbolName.of_isWord {name : String} (h : isWord name = true) : IsSymbolName name := by
  simp only [isWord, Bool.and_eq_true, List.all_eq_true, Bool.not_eq_true', List.contains_eq_mem,
    decide_eq_false_iff_not] at h
  obtain ⟨⟨hfirst, hchars⟩, hword⟩ := h
  obtain ⟨c, cs, hname⟩ : ∃ c cs, name.toList = c :: cs := by
    cases hname : name.toList with
    | nil => rw [hname] at hfirst; cases hfirst
    | cons c cs => exact ⟨c, cs, rfl⟩
  have hsym : String.ofList (c :: cs) = name := by rw [← hname, String.ofList_toList]
  refine ⟨by rw [hname]; exact List.cons_ne_nil _ _,
    fun d hd => (isWordChar_spec (hchars d hd)).1, ?_⟩
  rw [hname] at hfirst hchars hword ⊢
  have hnil : c :: cs ≠ ['n', 'i', 'l'] := by
    intro heq
    rw [heq] at hword
    exact hword (by decide)
  have ht : c :: cs ≠ ['t'] := by
    intro heq
    rw [heq] at hword
    exact hword (by decide)
  unfold Datum.ofAtom
  rw [if_neg hnil, if_neg ht, readInt?_of_isAlpha hfirst hchars]
  simp only [readReal?_of_isAlpha hfirst hchars hword, hsym]

theorem IsSymbolName.reads {name : String} (h : IsSymbolName name) :
    Reads name.toList [.symbol name] := by
  rw [← h.ofAtom]
  exact reads_atom h.ne_nil h.chars

mutual

/-- Values that both writers spell as the reader expects them: lists of texts, plain symbols and
numbers that can be spelled. -/
def Datum.IsPlain : Datum → Prop
  | .list items => allPlain items
  | .text _ => True
  | .symbol name => IsSymbolName name
  | .integer n => Numeral.digitCount n ≤ Numeral.digitLimit
  | .real x => x.IsCanonical
  | .bracketed _ | .quoted _ | .bool _ | .null => False

def allPlain : List Datum → Prop
  | [] => True
  | d :: rest => d.IsPlain ∧ allPlain rest

end

theorem allPlain_iff {ds : List Datum} : allPlain ds ↔ ∀ d ∈ ds, d.IsPlain := by
  induction ds with
  | nil => simp [allPlain]
  | cons d ds ih => simp [allPlain, ih]

/-! ## Laid-out values -/

section

variable {style : Datum.Layout}

theorem mem_indentText {n : Int} {c : Char} (hc : c ∈ (style.indent n).toList) :
    c ∈ style.indentText.toList := by
  rw [Datum.Layout.indent, String.toList_join] at hc
  obtain ⟨cs, hcs, hc⟩ := List.mem_flatMap.1 hc
  rwa [(List.mem_replicate.1 hcs).2] at hc

theorem isSeparator_indent (hindent : ∀ c ∈ style.indentText.toList, isSeparator c = true)
    (n : Int) : ∀ c ∈ (style.indent n).toList, isSeparator c = true :=
  fun c hc => hindent c (mem_indentText hc)

/-- Lines below each other, each after its indentation. -/
theorem reads_lines (hindent : ∀ c ∈ style.indentText.toList, isSeparator c = true) (depth : Int)
    {parts : List String} {ds : List Datum}
    (h : List.Forall₂ (fun p d => Reads p.toList [d]) parts ds) :
    Reads (String.intercalate "\n" (parts.map (style.indent depth ++ ·))).toList ds := by
  rw [String.toList_intercalate, List.map_map]
  refine reads_joined (by decide) (List.all_eq_true.1 (by decide)) ?_
  rw [List.forall₂_map_left_iff]
  refine h.imp fun p d hp => ?_
  rw [Function.comp_apply, String.toList_append]
  exact hp.blanks (isSeparator_indent hindent _)

/-- The new line of a closing bracket. -/
theorem reads_newline (hindent : ∀ c ∈ style.indentText.toList, isSeparator c = true)
    (depth : Int) : Reads ("\n" ++ style.indent depth).toList [] := by
  have hblanks : ∀ c ∈ ("\n" ++ style.indent depth).toList, isSeparator c = true := by
    rw [String.toList_append, List.forall_mem_append]
    exact ⟨List.all_eq_true.1 (by decide), isSeparator_indent hindent _⟩
  have := reads_nil.blanks hblanks
  rwa [List.append_nil] at this

/-- A list on one line. -/
def oneLine (parts : List String) : String := "(" ++ String.intercalate " " parts ++ ")"

/-- A list on many lines, one part a line. -/
def manyLines (style : Datum.Layout) (depth : Int) (first : String) (rest : List String) : String :=
  let tail := String.intercalate "\n" (rest.map (style.indent (depth + 1) ++ ·))
  "(" ++ first ++ (if tail.isEmpty then "" else "\n" ++ tail) ++ "\n" ++ style.indent depth ++ ")"

theorem layoutList_cases (style : Datum.Layout) (depth : Int) (parts : List String) :
    style.list depth parts = oneLine parts ∨
      ∃ first rest, parts = first :: rest ∧
        style.list depth parts = manyLines style depth first rest := by
  cases parts with
  | nil => exact .inl rfl
  | cons first rest =>
    unfold Datum.Layout.list
    dsimp only
    split
    · exact .inl rfl
    · exact .inr ⟨first, rest, rfl, rfl⟩

theorem reads_oneLine {parts : List String} {ds : List Datum}
    (h : List.Forall₂ (fun p d => Reads p.toList [d]) parts ds) :
    Reads (oneLine parts).toList [.list ds] := by
  rw [oneLine, String.toList_append, String.toList_append, String.toList_intercalate]
  have hblank : ∀ c ∈ " ".toList, isSeparator c = true := List.all_eq_true.1 (by decide)
  exact reads_list (reads_joined (by decide) hblank (List.forall₂_map_left_iff.2 h))

theorem reads_manyLines (hindent : ∀ c ∈ style.indentText.toList, isSeparator c = true)
    (depth : Int) {first : String} {rest : List String} {d : Datum} {ds : List Datum}
    (hfirst : Reads first.toList [d])
    (hrest : List.Forall₂ (fun p d => Reads p.toList [d]) rest ds) :
    Reads (manyLines style depth first rest).toList [.list (d :: ds)] := by
  have hlines := reads_lines hindent (depth + 1) hrest
  unfold manyLines
  dsimp only
  generalize String.intercalate "\n" (rest.map (style.indent (depth + 1) ++ ·)) = tail at hlines ⊢
  obtain ⟨hmiddle, hdelim⟩ : Reads (if tail.isEmpty then "" else "\n" ++ tail).toList ds ∧
      Delimited (if tail.isEmpty then "" else "\n" ++ tail).toList := by
    split
    · rename_i hempty
      rw [String.isEmpty_iff.1 hempty] at hlines
      exact ⟨hlines, delimited_nil⟩
    · rw [String.toList_append]
      exact ⟨hlines.blanks (List.all_eq_true.1 (by decide)), delimited_cons rfl⟩
  have hnewline : Delimited ("\n" ++ style.indent depth).toList := by
    rw [String.toList_append]; exact delimited_cons rfl
  have hbody :=
    (hfirst.append hmiddle hdelim).append (reads_newline hindent depth) hnewline
  rw [List.append_nil] at hbody
  have htext : ∀ a b c d : String, ("(" ++ a ++ b ++ c ++ d ++ ")").toList =
      '(' :: (a.toList ++ b.toList ++ (c ++ d).toList) ++ [')'] := by
    intro a b c d
    simp
  rw [htext]
  exact reads_list hbody

/-- **A list is read alike on one line and on many.** -/
theorem reads_layoutList (hindent : ∀ c ∈ style.indentText.toList, isSeparator c = true)
    (depth : Int) {parts : List String} {ds : List Datum}
    (h : List.Forall₂ (fun p d => Reads p.toList [d]) parts ds) :
    Reads (style.list depth parts).toList [.list ds] := by
  rcases layoutList_cases style depth parts with hline | ⟨first, rest, rfl, hlines⟩
  · rw [hline]
    exact reads_oneLine h
  · rw [hlines]
    cases h with
    | cons hfirst hrest => exact reads_manyLines hindent depth hfirst hrest

mutual

/-- **Laid-out values are read back.** -/
theorem reads_layout (hindent : ∀ c ∈ style.indentText.toList, isSeparator c = true) (d : Datum)
    (depth : Int) (h : d.IsPlain) : Reads (d.layout style depth).toList [d] := by
  cases d with
  | list items => exact reads_layoutList hindent depth (reads_layoutAll hindent items (depth + 1) h)
  | text value => exact reads_inQuotes undone_prettyEscape value
  | symbol name => exact IsSymbolName.reads h
  | integer n => exact reads_integer h
  | real x => exact reads_real h
  | bracketed items => exact absurd h not_false
  | quoted item => exact absurd h not_false
  | bool b => exact absurd h not_false
  | null => exact absurd h not_false

theorem reads_layoutAll (hindent : ∀ c ∈ style.indentText.toList, isSeparator c = true)
    (ds : List Datum) (depth : Int) (h : allPlain ds) :
    List.Forall₂ (fun p d => Reads p.toList [d]) (Datum.layoutAll style depth ds) ds := by
  cases ds with
  | nil => exact .nil
  | cons d rest =>
    exact .cons (reads_layout hindent d depth h.1) (reads_layoutAll hindent rest depth h.2)

end

mutual

theorem unprintable?_of_isPlain (d : Datum) (h : d.IsPlain) : d.unprintable? = none := by
  cases d with
  | list items => exact unprintableIn?_of_allPlain items h
  | text value => rfl
  | symbol name => rfl
  | integer n => exact if_pos h
  | real x => rfl
  | bracketed items => exact absurd h not_false
  | quoted item => exact absurd h not_false
  | bool b => exact absurd h not_false
  | null => exact absurd h not_false

theorem unprintableIn?_of_allPlain (ds : List Datum) (h : allPlain ds) :
    Datum.unprintableIn? ds = none := by
  cases ds with
  | nil => rfl
  | cons d rest =>
    rw [Datum.unprintableIn?, unprintable?_of_isPlain d h.1, unprintableIn?_of_allPlain rest h.2]
    rfl

end

/-- A plain value has a laid-out form, and it is read as that value. -/
theorem read_pretty (hindent : ∀ c ∈ style.indentText.toList, isSeparator c = true) {d : Datum}
    (depth : Int) (h : d.IsPlain) :
    ∃ text, d.pretty style depth = .ok text ∧ Datum.read text = .ok d := by
  refine ⟨d.layout style depth, ?_, (reads_layout hindent d depth h).read⟩
  unfold Datum.pretty
  rw [unprintable?_of_isPlain d h]

end

/-! ## Flat values -/

theorem flatMap_symbolEscape {cs : List Char} (h : ∀ c ∈ cs, isAtomChar c = true) :
    cs.flatMap symbolEscape = cs := by
  induction cs with
  | nil => rfl
  | cons c cs ih =>
    have hc := h c List.mem_cons_self
    simp only [isAtomChar, Bool.and_eq_true, Bool.not_eq_true'] at hc
    rw [List.flatMap_cons, ih fun d hd => h d (List.mem_cons_of_mem _ hd)]
    simp [symbolEscape, hc.2]

mutual

/-- **Flat values are read back.** -/
theorem reads_flat (d : Datum) (h : d.IsPlain) : Reads d.flat.toList [d] := by
  cases d with
  | list items =>
    have hitems : List.Forall₂ (fun p d => Reads p [d]) ((Datum.flatAll items).map String.toList)
        items := by
      rw [List.forall₂_map_left_iff]
      exact reads_flatAll items h
    rw [Datum.flat, String.toList_append, String.toList_append, String.toList_intercalate]
    exact reads_list (reads_joined (by decide) (List.all_eq_true.1 (by decide)) hitems)
  | text value => exact reads_inQuotes undone_flatEscape value
  | symbol name =>
    rw [Datum.flat, String.toList_ofList, flatMap_symbolEscape (IsSymbolName.chars h)]
    exact IsSymbolName.reads h
  | integer n => exact reads_integer h
  | real x => exact reads_real h
  | bracketed items => exact absurd h not_false
  | quoted item => exact absurd h not_false
  | bool b => exact absurd h not_false
  | null => exact absurd h not_false

theorem reads_flatAll (ds : List Datum) (h : allPlain ds) :
    List.Forall₂ (fun p d => Reads p.toList [d]) (Datum.flatAll ds) ds := by
  cases ds with
  | nil => exact .nil
  | cons d rest => exact .cons (reads_flat d h.1) (reads_flatAll rest h.2)

end

/-! ## What is read -/

mutual

/-- Values whose numbers, at any depth, can be written again. -/
def Datum.IsSound : Datum → Prop
  | .list items | .bracketed items => allSound items
  | .quoted item => item.IsSound
  | .integer n => Numeral.digitCount n ≤ Numeral.digitLimit
  | .real x => x.IsCanonical
  | .text _ | .symbol _ | .bool _ | .null => True

def allSound : List Datum → Prop
  | [] => True
  | d :: rest => d.IsSound ∧ allSound rest

end

theorem allSound_iff {ds : List Datum} : allSound ds ↔ ∀ d ∈ ds, d.IsSound := by
  induction ds with
  | nil => simp [allSound]
  | cons d ds ih => simp [allSound, ih]

/-- The values read before an open form. -/
def Frame.before : Frame → List Datum
  | .bracket _ before | .apostrophe _ before => before

theorem isSound_ofAtom (token : List Char) : (Datum.ofAtom token).IsSound := by
  unfold Datum.ofAtom
  split
  · trivial
  split
  · trivial
  split
  · rename_i h; exact Numeral.digitCount_le_of_readInt? h
  · split
    · rename_i h; exact Binary64.isCanonical_of_readReal? h
    · trivial

/-- Everything in the innermost form and before the open ones is sound. -/
def SoundStack (items : List Datum) (frames : List Frame) : Prop :=
  (∀ d ∈ items, d.IsSound) ∧ ∀ f ∈ frames, ∀ d ∈ f.before, d.IsSound

theorem soundStack_endApostrophes {frames : List Frame} : ∀ {items items' : List Datum}
    {frames' : List Frame}, SoundStack items frames →
    endApostrophes items frames = .ok (items', frames') → SoundStack items' frames' := by
  induction frames with
  | nil => intro items items' frames' h hend; cases hend; exact h
  | cons f frames ih =>
    intro items items' frames' h hend
    cases f with
    | bracket kind before => cases hend; exact h
    | apostrophe position before =>
      unfold endApostrophes at hend
      split at hend
      · cases hend
      · -- an apostrophe takes the first value behind it, and the others stay
        rename_i first rest hitems
        refine ih ⟨?_, fun f hf => h.2 f (List.mem_cons_of_mem _ hf)⟩ hend
        have hmem : ∀ d ∈ first :: rest, d.IsSound := by
          intro d hd
          rw [← hitems, List.mem_reverse] at hd
          exact h.1 d hd
        intro d hd
        simp only [List.mem_append, List.mem_reverse, List.mem_singleton] at hd
        rcases hd with (hd | rfl) | hd
        · exact hmem d (List.mem_cons_of_mem _ hd)
        · exact hmem first List.mem_cons_self
        · exact h.2 _ List.mem_cons_self d hd

theorem soundStack_close {bracket : Bracket} {rest : List Char} {items items' : List Datum}
    {frames frames' : List Frame} (h : SoundStack items frames)
    (hclose : close bracket rest items frames = .ok (items', frames')) :
    SoundStack items' frames' := by
  unfold close at hclose
  split at hclose
  · cases hclose
  · rename_i inner kind before outer hend
    obtain ⟨hinner, houter⟩ := soundStack_endApostrophes h hend
    split at hclose
    · cases hclose
      refine ⟨?_, fun f hf => houter f (List.mem_cons_of_mem _ hf)⟩
      intro d hd
      rcases List.mem_cons.1 hd with rfl | hd
      · have hitems : allSound inner.reverse :=
          allSound_iff.2 fun d hd => hinner d (List.mem_reverse.1 hd)
        cases kind <;> exact hitems
      · exact houter _ List.mem_cons_self d hd
    · cases hclose
  · cases hclose

/-- **Every token keeps the stack sound.** -/
theorem sound_readTokens (tokens : List Token) : ∀ {items ds : List Datum} {frames : List Frame},
    SoundStack items frames → readTokens items frames tokens = .ok ds → ∀ d ∈ ds, d.IsSound := by
  induction tokens with
  | nil =>
    intro items ds frames h hread
    rw [readTokens] at hread
    unfold finish at hread
    split at hread
    · cases hread
    · cases hread
    · rename_i hend
      cases hread
      intro d hd
      exact (soundStack_endApostrophes h hend).1 d (List.mem_reverse.1 hd)
  | cons t tokens ih =>
    intro items ds frames h hread
    have hpush : ∀ d : Datum, d.IsSound → SoundStack (d :: items) frames := by
      intro d hd
      exact ⟨fun e he => (List.mem_cons.1 he).elim (fun h => h ▸ hd) (h.1 e), h.2⟩
    have hopen : ∀ f : Frame, f.before = items → SoundStack [] (f :: frames) := by
      intro f hf
      refine ⟨fun d hd => absurd hd (by simp), fun g hg => ?_⟩
      rcases List.mem_cons.1 hg with rfl | hg
      · rw [hf]; exact h.1
      · exact h.2 g hg
    cases t with
    | opening bracket => exact ih (hopen (.bracket bracket items) rfl) hread
    | closing bracket text =>
      rw [readTokens] at hread
      split at hread
      · cases hread
      · rename_i hclose
        exact ih (soundStack_close h hclose) hread
    | apostrophe position => exact ih (hopen (.apostrophe position items) rfl) hread
    | text value => exact ih (hpush (.text (String.ofList value)) trivial) hread
    | atom value => exact ih (hpush _ (isSound_ofAtom value)) hread
    | fault cause => cases hread

/-- **What is read is sound.** -/
theorem sound_of_read {text : String} {d : Datum} (h : Datum.read text = .ok d) : d.IsSound := by
  unfold Datum.read at h
  split at h
  · cases h
  · rename_i hread
    cases h
    have hempty : SoundStack [] [] := ⟨by simp, by simp⟩
    exact sound_readTokens _ hempty hread d List.mem_cons_self
  · cases h

end Vimgen.Sexp
