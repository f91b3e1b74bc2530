import Vimgen.Proofs.NormalForm
import Vimgen.Proofs.ProgramText
import Vimgen.Proofs.TextFiles

/-!
# Laid-out values in files

A laid-out value has its texts as they are, line ends included, and a file keeps only one kind of
line end. So what is read from a file is the value with the line ends in its texts unified:

* `rereads_layout`: what is read for a laid-out value is `Datum.unified`.
* `read_unifiedText`: the same for programs.
* `readProgram_unified_iff`: **that is the program that was laid out exactly if no text in it has a
  carriage return.**
-/

namespace Vimgen

open Text.Utf8 (Becomes unifyNewlines)

namespace Sexp

/-! ## Texts in values -/

mutual

/-- The texts in a value, at any depth. -/
def Datum.texts : Datum → List String
  | .list items | .bracketed items => textsIn items
  | .quoted item => item.texts
  | .text value => [value]
  | .symbol _ | .integer _ | .real _ | .bool _ | .null => []

def textsIn : List Datum → List String
  | [] => []
  | d :: rest => d.texts ++ textsIn rest

end

/-- A text with one kind of line end. -/
def unifiedText (s : String) : String := String.ofList (unifyNewlines s.toList)

mutual

/-- A value with one kind of line end in its texts. -/
def Datum.unified : Datum → Datum
  | .list items => .list (unifiedAll items)
  | .bracketed items => .bracketed (unifiedAll items)
  | .quoted item => .quoted item.unified
  | .text value => .text (unifiedText value)
  | .symbol name => .symbol name
  | .integer n => .integer n
  | .real x => .real x
  | .bool b => .bool b
  | .null => .null

def unifiedAll : List Datum → List Datum
  | [] => []
  | d :: rest => d.unified :: unifiedAll rest

end

theorem unifiedText_eq_self {s : String} (h : '\r' ∉ s.toList) : unifiedText s = s := by
  rw [unifiedText, Text.Utf8.unifyNewlines_of_notMem h, String.ofList_toList]

mutual

/-- Without carriage returns nothing changes. -/
theorem Datum.unified_eq_self (d : Datum) (h : ∀ s ∈ d.texts, '\r' ∉ s.toList) : d.unified = d := by
  cases d with
  | list items => rw [Datum.unified, unifiedAll_eq_self items h]
  | bracketed items => rw [Datum.unified, unifiedAll_eq_self items h]
  | quoted item => rw [Datum.unified, Datum.unified_eq_self item h]
  | text value => rw [Datum.unified, unifiedText_eq_self (h value (List.mem_singleton.2 rfl))]
  | symbol name => rfl
  | integer n => rfl
  | real x => rfl
  | bool b => rfl
  | null => rfl

theorem unifiedAll_eq_self (ds : List Datum) (h : ∀ s ∈ textsIn ds, '\r' ∉ s.toList) :
    unifiedAll ds = ds := by
  cases ds with
  | nil => rfl
  | cons d rest =>
    obtain ⟨hd, hrest⟩ := List.forall_mem_append.1 h
    rw [unifiedAll, Datum.unified_eq_self d hd, unifiedAll_eq_self rest hrest]

end

mutual

/-- No carriage return is left. -/
theorem return_notMem_unified (d : Datum) : ∀ s ∈ d.unified.texts, '\r' ∉ s.toList := by
  cases d with
  | list items => exact return_notMem_unifiedAll items
  | bracketed items => exact return_notMem_unifiedAll items
  | quoted item => exact return_notMem_unified item
  | text value =>
    intro s hs
    rw [List.mem_singleton.1 hs, unifiedText, String.toList_ofList]
    exact Text.Utf8.return_notMem_unifyNewlines _
  | symbol name => exact fun s hs => absurd hs List.not_mem_nil
  | integer n => exact fun s hs => absurd hs List.not_mem_nil
  | real x => exact fun s hs => absurd hs List.not_mem_nil
  | bool b => exact fun s hs => absurd hs List.not_mem_nil
  | null => exact fun s hs => absurd hs List.not_mem_nil

theorem return_notMem_unifiedAll (ds : List Datum) :
    ∀ s ∈ textsIn (unifiedAll ds), '\r' ∉ s.toList := by
  cases ds with
  | nil => exact fun s hs => absurd hs List.not_mem_nil
  | cons d rest =>
    exact List.forall_mem_append.2 ⟨return_notMem_unified d, return_notMem_unifiedAll rest⟩

end

/-! ## What a laid-out value becomes -/

/-- In a file, a text is read as a value. -/
def Rereads (s : String) (d : Datum) : Prop := ∃ u, Becomes s u ∧ Reads u.toList [d]

/-- Escapes do not touch line ends, and the closing quote is not part of one. -/
theorem unifyNewlines_prettyEscape (cs : List Char) :
    unifyNewlines (cs.flatMap prettyEscape ++ ['"']) =
      (unifyNewlines cs).flatMap prettyEscape ++ ['"'] := by
  fun_induction unifyNewlines cs with
  | case1 => rfl
  | case2 rest ih => simpa [prettyEscape, unifyNewlines] using ih
  | case3 rest hno ih =>
    have hhead : (rest.flatMap prettyEscape ++ ['"']).head? ≠ some '\n' := by
      cases rest with
      | nil => simp
      | cons c rest =>
        have hc : c ≠ '\n' := fun h => hno rest (by rw [h])
        rw [List.flatMap_cons]
        unfold prettyEscape
        split <;> simp [hc]
    rw [List.flatMap_cons, List.flatMap_cons, List.append_assoc, List.append_assoc, ← ih]
    exact Text.Utf8.unifyNewlines_return hhead
  | case4 c rest _ hc ih =>
    have hc : '\r' ≠ c := fun h => hc h.symm
    have hescape : '\r' ∉ prettyEscape c := by
      unfold prettyEscape
      split <;> simp [hc]
    have hlast : (prettyEscape c).getLast? ≠ some '\r' := fun h => hescape (List.mem_of_getLast? h)
    rw [List.flatMap_cons, List.flatMap_cons, List.append_assoc, List.append_assoc,
      Text.Utf8.unifyNewlines_append hlast, Text.Utf8.unifyNewlines_of_notMem hescape, ih]

theorem rereads_text (s : String) : Rereads (inQuotes prettyEscape s) (.text (unifiedText s)) := by
  refine ⟨_, ⟨?_, ?_⟩, reads_inQuotes undone_prettyEscape (unifiedText s)⟩
  · rw [inQuotes, inQuotes, String.toList_ofList, String.toList_ofList, unifiedText,
      String.toList_ofList, List.cons_append, Text.Utf8.unifyNewlines_cons (by decide),
      unifyNewlines_prettyEscape, List.cons_append]
  · rw [inQuotes, String.toList_ofList, List.getLast?_concat]
    decide

/-- An atom is read as it stands. -/
theorem rereads_atom {s : String} {d : Datum} (hchars : ∀ c ∈ s.toList, isAtomChar c = true)
    (h : Reads s.toList [d]) : Rereads s d :=
  ⟨s, .of_notMem fun hmem => absurd (hchars _ hmem) (by decide), h⟩

section

variable {style : Datum.Layout}

theorem becomes_oneLine {parts parts' : List String} (h : List.Forall₂ Becomes parts parts') :
    Becomes (oneLine parts) (oneLine parts') :=
  ((Becomes.of_notMem (by decide)).append (.intercalate (by decide) h)).append
    (.of_notMem (by decide))

theorem becomes_indent (hindent : '\r' ∉ style.indentText.toList) (n : Int) :
    Becomes (style.indent n) (style.indent n) :=
  .of_notMem fun hmem => hindent (mem_indentText hmem)

theorem becomes_manyLines (hindent : '\r' ∉ style.indentText.toList) (depth : Int)
    {first first' : String} {rest rest' : List String} (hfirst : Becomes first first')
    (hrest : List.Forall₂ Becomes rest rest') :
    Becomes (manyLines style depth first rest) (manyLines style depth first' rest') := by
  have hnewline : Becomes "\n" "\n" := .of_notMem (by decide)
  have htail : Becomes (String.intercalate "\n" (rest.map (style.indent (depth + 1) ++ ·)))
      (String.intercalate "\n" (rest'.map (style.indent (depth + 1) ++ ·))) := by
    refine .intercalate (by decide) ?_
    rw [List.forall₂_map_left_iff, List.forall₂_map_right_iff]
    exact hrest.imp fun _ _ h => (becomes_indent hindent _).append h
  unfold manyLines
  dsimp only
  rw [htail.isEmpty_eq]
  refine ((((Becomes.append (.of_notMem (by decide)) hfirst).append ?_).append hnewline).append
    (becomes_indent hindent depth)).append (.of_notMem (by decide))
  split
  · exact .of_notMem (by decide)
  · exact hnewline.append htail

/-- **A laid-out list becomes the list of what its parts become.** -/
theorem rereads_layoutList (hindent : '\r' ∉ style.indentText.toList)
    (hblank : ∀ c ∈ style.indentText.toList, Token.isSeparator c = true) (depth : Int)
    {parts : List String} {ds : List Datum} (h : List.Forall₂ Rereads parts ds) :
    Rereads (style.list depth parts) (.list ds) := by
  obtain ⟨parts', hbecomes, hreads⟩ : ∃ parts', List.Forall₂ Becomes parts parts' ∧
      List.Forall₂ (fun p d => Reads p.toList [d]) parts' ds := by
    induction h with
    | nil => exact ⟨[], .nil, .nil⟩
    | cons hpart _ ih =>
      obtain ⟨u, hu, hread⟩ := hpart
      obtain ⟨us, hus, hreads⟩ := ih
      exact ⟨u :: us, .cons hu hus, .cons hread hreads⟩
  rcases layoutList_cases style depth parts with hline | ⟨first, rest, rfl, hlines⟩
  · rw [hline]
    exact ⟨_, becomes_oneLine hbecomes, reads_oneLine hreads⟩
  · rw [hlines]
    cases hbecomes with
    | cons hfirst hrest =>
      cases hreads with
      | cons hread hreads =>
        exact ⟨_, becomes_manyLines hindent depth hfirst hrest,
          reads_manyLines hblank depth hread hreads⟩

mutual

/-- **A laid-out value is read from a file with its line ends unified.** -/
theorem rereads_layout (hindent : '\r' ∉ style.indentText.toList)
    (hblank : ∀ c ∈ style.indentText.toList, Token.isSeparator c = true) (d : Datum) (depth : Int)
    (h : d.IsPlain) : Rereads (d.layout style depth) d.unified := by
  cases d with
  | list items =>
    exact rereads_layoutList hindent hblank depth
      (rereads_layoutAll hindent hblank items (depth + 1) h)
  | text value => exact rereads_text value
  | symbol name => exact rereads_atom (IsSymbolName.chars h) (IsSymbolName.reads h)
  | integer n => exact rereads_atom (isAtomChar_intText n) (reads_integer h)
  | real x => exact rereads_atom (isAtomChar_realText h) (reads_real h)
  | bracketed items => exact absurd h not_false
  | quoted item => exact absurd h not_false
  | bool b => exact absurd h not_false
  | null => exact absurd h not_false

theorem rereads_layoutAll (hindent : '\r' ∉ style.indentText.toList)
    (hblank : ∀ c ∈ style.indentText.toList, Token.isSeparator c = true) (ds : List Datum)
    (depth : Int) (h : allPlain ds) :
    List.Forall₂ Rereads (Datum.layoutAll style depth ds) (unifiedAll ds) := by
  cases ds with
  | nil => exact .nil
  | cons d rest =>
    exact .cons (rereads_layout hindent hblank d depth h.1)
      (rereads_layoutAll hindent hblank rest depth h.2)

end

end

end Sexp

/-! ## Programs in files -/

namespace Ir

open Sexp (Datum textsIn unifiedText)

theorem texts_asSymbol (d : Datum) : (asSymbol d).texts ⊆ d.texts := by
  unfold asSymbol
  split
  · exact List.nil_subset _
  · exact List.Subset.refl _

theorem textsIn_cons_subset {d d' : Datum} {ds ds' : List Datum} (hd : d'.texts ⊆ d.texts)
    (hds : textsIn ds' ⊆ textsIn ds) : textsIn (d' :: ds') ⊆ textsIn (d :: ds) :=
  List.append_subset.2
    ⟨List.subset_append_of_subset_left _ hd, List.subset_append_of_subset_right _ hds⟩

theorem textsIn_map_subset {f : Datum → Datum} (hf : ∀ d, (f d).texts ⊆ d.texts) (ds : List Datum) :
    textsIn (ds.map f) ⊆ textsIn ds := by
  induction ds with
  | nil => exact List.Subset.refl _
  | cons d rest ih => exact textsIn_cons_subset (hf d) ih

theorem texts_asSymbols (d : Datum) : (asSymbols d).texts ⊆ d.texts := by
  unfold asSymbols
  split
  · exact textsIn_map_subset texts_asSymbol _
  · exact List.Subset.refl _

theorem texts_asReal (d : Datum) : (asReal d).texts ⊆ d.texts := by
  unfold asReal
  split
  · split <;> exact List.nil_subset _
  · exact List.Subset.refl _

theorem textsIn_normalItems (ds : List Datum) : textsIn (normalItems ds) ⊆ textsIn ds := by
  unfold normalItems
  split
  · rename_i head fields
    change textsIn (normalFields head fields) ⊆ textsIn fields
    unfold normalFields
    split
    · exact List.nil_subset _
    split
    · exact textsIn_map_subset texts_asReal _
    split
    · unfold opFields
      split
      · rename_i tag types args
        exact textsIn_cons_subset (texts_asSymbol tag)
          (textsIn_cons_subset (texts_asSymbols types) (List.Subset.refl _))
      · exact List.Subset.refl _
    · exact List.Subset.refl _
  · exact List.Subset.refl _

mutual

/-- **A normal form has no new texts.** -/
theorem texts_normalize (d : Datum) : (normalize d).texts ⊆ d.texts := by
  cases d with
  | list items =>
    rw [normalize]
    exact List.Subset.trans (textsIn_normalItems _) (textsIn_normalizeAll items)
  | _ => exact List.Subset.refl _

theorem textsIn_normalizeAll (ds : List Datum) : textsIn (normalizeAll ds) ⊆ textsIn ds := by
  cases ds with
  | nil => exact List.Subset.refl _
  | cons d rest => exact textsIn_cons_subset (texts_normalize d) (textsIn_normalizeAll rest)

end

/-- No text in the program has a carriage return. -/
def Program.NoReturns (p : Program) : Prop := ∀ s ∈ p.datum.texts, '\r' ∉ s.toList

instance (p : Program) : Decidable p.NoReturns := inferInstanceAs (Decidable (∀ s ∈ _, _))

/-- What is read from a file with the text of a program. -/
theorem Program.IsWritable.read_unifiedText {p : Program} (h : p.IsWritable) {text : String}
    (htext : p.pretty = .ok text) :
    Program.read (unifiedText text) = readProgram p.datum.unified := by
  have hindent : '\r' ∉ ({} : Datum.Layout).indentText.toList := by decide
  have hblank : ∀ c ∈ ({} : Datum.Layout).indentText.toList, Sexp.Token.isSeparator c = true :=
    List.all_eq_true.1 (by decide)
  obtain ⟨u, hu, hread⟩ := Sexp.rereads_layout hindent hblank p.datum 0 h.isPlain
  have hlayout : p.datum.layout {} 0 = text := by
    unfold Program.pretty layOut Datum.pretty at htext
    rw [Sexp.unprintable?_of_isPlain _ h.isPlain] at htext
    exact Except.ok.inj htext
  have hunified : unifiedText text = u := by
    rw [unifiedText, ← hlayout, hu.text, String.ofList_toList]
  unfold Program.read
  rw [hunified, hread.read]

/-- **A program is read again exactly if no text in it has a carriage return.** -/
theorem Program.IsWritable.readProgram_unified_iff {p : Program} (h : p.IsWritable) :
    readProgram p.datum.unified = .ok p ↔ p.NoReturns := by
  constructor
  · intro hread s hs
    -- every text of the program that is read comes from the file, where there is none
    have hnormal := normalize_of_readProgram hread
    rw [← hnormal] at hs
    exact Sexp.return_notMem_unified _ s (texts_normalize _ hs)
  · intro hreturns
    rw [Datum.unified_eq_self _ hreturns]
    exact readProgram_datum h

end Ir

end Vimgen
