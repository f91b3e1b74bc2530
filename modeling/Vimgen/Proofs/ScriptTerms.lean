import Vimgen.Proofs.Numeral
import Vimgen.Proofs.Pieces
import Vimgen.Proofs.Slots
import Vimgen.Proofs.WellPlaced

/-!
# Expressions as terms

`Expr.term` gives the pieces of an expression: applications and projections add a bracket to the
term of what they apply to, and an operation is a bracket around a phrase.

* `Expr.toList_text`: the text of an expression is the text of its term.
* `Expr.merged_eq_of_term`: the term of a well-placed expression determines it, up to merging.
-/

namespace Vimgen.Script

/-- A word on its own. -/
def wordTerm (s : String) : List Piece := [.word s.toList]

mutual

/-- The pieces of an expression. -/
def Expr.term : Expr → List Piece
  | .int value => wordTerm (Numeral.intText value)
  | .str value => [.quote value.toList]
  | .list items => [.group .square (exprParts items)]
  | .ref name => wordTerm name.text
  | .apply function args => function.term ++ [.group .round (exprParts args)]
  | .binary op left right => [.group .round [[left.term, wordTerm op.text, right.term]]]
  | .proj base projection => base.term ++ [projection.piece]
  | .stray _ => [.word []]

/-- The bracket of a projection. -/
def Projection.piece : Projection → Piece
  | .single index => .group .square [[index.term]]
  | .onward start => .group .square [[start.term, wordTerm ":"]]
  | .stray _ => .word []

/-- The phrases of arguments or items. -/
def exprParts : List Expr → List Phrase
  | [] => []
  | e :: rest => [e.term] :: exprParts rest

end

/-- The pieces of an assignment target. -/
def Target.term : Target → List Piece
  | .name n => wordTerm n.text
  | .item base projection => base.term ++ [projection.piece]
  | .stray _ => [.word []]

/-! ## The text of terms -/

theorem termText_append (t u : List Piece) : termText (t ++ u) = termText t ++ termText u := by
  induction t with
  | nil => rfl
  | cons p t ih => simp only [List.cons_append, termText, ih, List.append_assoc]

theorem termText_singleton (p : Piece) : termText [p] = p.text := by
  simp only [termText, List.append_nil]

theorem termText_wordTerm (s : String) : termText (wordTerm s) = s.toList := by
  rw [wordTerm, termText_singleton, Piece.text]

/-- A list with commas is written with the first comma left out. -/
theorem toList_commaList (parts : List String) :
    (commaList parts).toList = (parts.flatMap fun p => ',' :: ' ' :: p.toList).drop 2 := by
  rw [commaList, String.toList_intercalate]
  induction parts with
  | nil => rfl
  | cons p parts ih =>
    cases parts with
    | nil => simp
    | cons q parts =>
      simp only [List.map_cons, List.intercalate_cons_cons, List.flatMap_cons, List.cons_append,
        List.drop_succ_cons, List.drop_zero] at ih ⊢
      rw [ih, List.append_assoc]
      rfl

mutual

/-- The text of an expression is that of its term. -/
theorem Expr.toList_text : ∀ e : Expr, e.text.toList = termText e.term
  | .int value => (termText_wordTerm _).symm
  | .str value => by
    rw [Expr.text, literal, String.toList_ofList, Expr.term, termText_singleton, Piece.text]
  | .list items => by
    rw [Expr.term, termText_singleton, Piece.text, partsText_exprParts items, Expr.text,
      String.toList_append, String.toList_append, toList_commaList]
    rfl
  | .ref name => (termText_wordTerm _).symm
  | .apply function args => by
    rw [Expr.term, termText_append, termText_singleton, Piece.text, partsText_exprParts args,
      ← function.toList_text, Expr.text, String.toList_append, String.toList_append,
      String.toList_append, toList_commaList, List.append_assoc, List.append_assoc]
    rfl
  | .binary op left right => by
    rw [Expr.term, termText_singleton]
    simp only [Piece.text, partsText, phraseText, termText_wordTerm, ← left.toList_text,
      ← right.toList_text, Expr.text, String.toList_append]
    simp [Sexp.Bracket.opening, Sexp.Bracket.closing]
  | .proj base projection => by
    rw [Expr.term, termText_append, termText_singleton, ← base.toList_text,
      ← projection.toList_text, Expr.text, String.toList_append]
  | .stray _ => rfl

theorem Projection.toList_text : ∀ p : Projection, p.text.toList = p.piece.text
  | .single index => by
    simp only [Projection.piece, Piece.text, partsText, phraseText, ← index.toList_text,
      Projection.text, String.toList_append]
    simp [Sexp.Bracket.opening, Sexp.Bracket.closing]
  | .onward start => by
    simp only [Projection.piece, Piece.text, partsText, phraseText, termText_wordTerm,
      ← start.toList_text, Projection.text, String.toList_append]
    simp [Sexp.Bracket.opening, Sexp.Bracket.closing]
  | .stray _ => rfl

theorem partsText_exprParts : ∀ es : List Expr,
    partsText (exprParts es) = (exprTexts es).flatMap fun p => ',' :: ' ' :: p.toList
  | [] => rfl
  | e :: rest => by
    simp only [exprParts, partsText, phraseText, exprTexts, List.flatMap_cons,
      partsText_exprParts rest, e.toList_text, List.append_nil, List.cons_append]

end

theorem Target.toList_text : ∀ t : Target, t.text.toList = termText t.term
  | .name n => (termText_wordTerm _).symm
  | .item base projection => by
    rw [Target.term, termText_append, termText_singleton, ← base.toList_text,
      ← projection.toList_text, Target.text, String.toList_append]
  | .stray _ => rfl

/-! ## Words -/

theorem isWordChar_of_isNameChar {c : Char} (h : isNameChar c = true) : isWordChar c = true := by
  cases hc : isWordChar c with
  | true => rfl
  | false =>
    have hspecial : c ∈ [' ', ',', '\n', ')', ']', '"', '(', '['] := by
      by_contra hnone
      simp only [List.mem_cons, List.not_mem_nil, or_false, not_or] at hnone
      simp [isWordChar, endsTerm, endsPhrase, endsParts, hnone] at hc
    have hall : [' ', ',', '\n', ')', ']', '"', '(', '['].all (fun d => !isNameChar d) = true := by
      decide
    have hname := List.all_eq_true.1 hall c hspecial
    rw [h] at hname
    cases hname

theorem isBaseName_iff {s : String} :
    isBaseName s = true ↔ s.toList ≠ [] ∧ ∀ c ∈ s.toList, isNameChar c = true := by
  simp [isBaseName]

theorem ScopedName.isWellFormed_spec {n : ScopedName} (h : n.isWellFormed = true) :
    isBaseName n.base = true ∧ (n.scope = .builtin → startsWithDigit n.base.toList = false) := by
  simp only [ScopedName.isWellFormed, Bool.and_eq_true, Bool.or_eq_true, decide_eq_true_eq,
    Bool.not_eq_true'] at h
  exact ⟨h.1, fun hscope => h.2.resolve_left (not_not_intro hscope)⟩

theorem isPlain_word_baseName {s : String} (h : isBaseName s = true) :
    (Piece.word s.toList).IsPlain :=
  ⟨(isBaseName_iff.1 h).1, fun c hc => isWordChar_of_isNameChar ((isBaseName_iff.1 h).2 c hc)⟩

theorem ScopedName.toList_text (n : ScopedName) :
    n.text.toList = n.scope.mark.toList ++ n.base.toList := by
  rw [ScopedName.text, String.toList_append]

theorem isPlain_word_name {n : ScopedName} (h : n.isWellFormed = true) :
    (Piece.word n.text.toList).IsPlain := by
  obtain ⟨hne, hchars⟩ := isPlain_word_baseName (ScopedName.isWellFormed_spec h).1
  have hmark : ∀ c ∈ n.scope.mark.toList, isWordChar c = true := by
    cases n.scope <;> exact List.all_eq_true.1 (by decide)
  rw [n.toList_text]
  refine ⟨fun hnil => hne (List.append_eq_nil_iff.1 hnil).2, fun c hc => ?_⟩
  exact (List.mem_append.1 hc).elim (hmark c) (hchars c)

/-- A number starts with a digit or a sign. -/
theorem intText_cons (value : Int) :
    ∃ c cs, (Numeral.intText value).toList = c :: cs ∧ (c.isDigit = true ∨ c = '-') := by
  cases value with
  | ofNat n =>
    obtain ⟨c, cs, htext, hc⟩ := Numeral.exists_toDigits_cons n
    exact ⟨c, cs, by rw [Numeral.intText, Nat.toList_repr, htext], .inl hc⟩
  | negSucc n => exact ⟨'-', _, String.toList_append .., .inr rfl⟩

theorem isNameChar_of_isDigit {c : Char} (h : c.isDigit = true) : isNameChar c = true := by
  simp [isNameChar, Char.isAlphanum, h]

theorem isPlain_word_intText (value : Int) :
    (Piece.word (Numeral.intText value).toList).IsPlain := by
  obtain ⟨c, cs, htext, -⟩ := intText_cons value
  refine ⟨by rw [htext]; exact List.cons_ne_nil c cs, fun d hd => ?_⟩
  have digits : ∀ n : Nat, d ∈ n.repr.toList → isWordChar d = true := by
    intro n hmem
    rw [Nat.toList_repr] at hmem
    exact isWordChar_of_isNameChar (isNameChar_of_isDigit (Numeral.isDigit_of_mem_toDigits hmem))
  cases value with
  | ofNat n => exact digits n hd
  | negSucc n =>
    rw [Numeral.intText, String.toList_append] at hd
    rcases List.mem_append.1 hd with hd | hd
    · rw [List.mem_singleton.1 hd]; decide
    · exact digits (n + 1) hd

theorem isPlain_word_op (op : BinOp) : (Piece.word op.text.toList).IsPlain := by
  cases op <;> exact ⟨by decide, List.all_eq_true.1 (by decide)⟩

/-- A name on its own does not start like a number. -/
theorem name_text_cons {n : ScopedName} (h : n.isWellFormed = true) :
    ∃ c cs, n.text.toList = c :: cs ∧ c.isDigit = false ∧ c ≠ '-' := by
  obtain ⟨hbase, hbuiltin⟩ := ScopedName.isWellFormed_spec h
  obtain ⟨hne, hchars⟩ := isBaseName_iff.1 hbase
  rw [n.toList_text]
  cases hscope : n.scope with
  | builtin =>
    obtain ⟨c, cs, htext⟩ := List.exists_cons_of_ne_nil hne
    have hdigit := hbuiltin hscope
    rw [htext] at hdigit
    refine ⟨c, cs, by rw [htext]; rfl, hdigit, ?_⟩
    rintro rfl
    exact absurd (hchars '-' (by rw [htext]; exact List.mem_cons_self)) (by decide)
  | «global» => exact ⟨'g', _, rfl, by decide, by decide⟩
  | script => exact ⟨'s', _, rfl, by decide, by decide⟩
  | «local» => exact ⟨'l', _, rfl, by decide, by decide⟩
  | argument => exact ⟨'a', _, rfl, by decide, by decide⟩

/-- **Numbers are no names.** -/
theorem intText_ne_name (value : Int) {n : ScopedName} (h : n.isWellFormed = true) :
    (Numeral.intText value).toList ≠ n.text.toList := by
  obtain ⟨c, cs, htext, hc⟩ := intText_cons value
  obtain ⟨d, ds, htext', hdigit, hsign⟩ := name_text_cons h
  rw [htext, htext']
  intro heq
  obtain ⟨rfl, -⟩ := List.cons.inj heq
  rcases hc with hc | hc
  · rw [hdigit] at hc; cases hc
  · exact hsign hc

/-- **Names are determined by how they are written**: there is a colon in a name iff it has a
mark. -/
theorem ScopedName.text_injective {m n : ScopedName} (hm : m.isWellFormed = true)
    (hn : n.isWellFormed = true) (h : m.text.toList = n.text.toList) : m = n := by
  have nocolon : ∀ {k : ScopedName}, k.isWellFormed = true → ':' ∉ k.base.toList := by
    intro k hk hmem
    exact absurd ((isBaseName_iff.1 (ScopedName.isWellFormed_spec hk).1).2 ':' hmem) (by decide)
  have hcm := nocolon hm
  have hcn := nocolon hn
  obtain ⟨scope, base⟩ := m
  obtain ⟨scope', base'⟩ := n
  rw [ScopedName.toList_text, ScopedName.toList_text] at h
  cases scope <;> cases scope' <;> simp [Scope.mark] at h hcm hcn ⊢ <;>
    first | exact String.toList_inj.1 h | grind

/-! ## Terms are plain -/

@[simp] theorem Expr.term_ne_nil (e : Expr) : e.term ≠ [] := by
  cases e <;> simp [Expr.term, wordTerm]

@[simp] theorem Target.term_ne_nil (t : Target) : t.term ≠ [] := by
  cases t <;> simp [Target.term, wordTerm]

/-- What is applied or selected from has more than one piece. -/
@[simp] theorem singleton_ne_snoc {t : List Piece} (ht : t ≠ []) (p q : Piece) :
    [p] ≠ t ++ [q] := by
  intro h
  have hlength := congrArg List.length h
  rw [List.length_singleton, List.length_append, List.length_singleton] at hlength
  exact ht (List.eq_nil_of_length_eq_zero (by omega))

@[simp] theorem snoc_ne_singleton {t : List Piece} (ht : t ≠ []) (p q : Piece) :
    t ++ [q] ≠ [p] := (singleton_ne_snoc ht p q).symm

theorem termPlain_singleton {p : Piece} (h : p.IsPlain) : TermPlain [p] := ⟨h, trivial, trivial⟩

/-- A bracket may follow any term. -/
theorem termPlain_snoc {t : List Piece} (ht : TermPlain t) {bracket : Sexp.Bracket}
    {parts : List Phrase} (hparts : PartsPlain parts) :
    TermPlain (t ++ [.group bracket parts]) := by
  induction t with
  | nil => exact termPlain_singleton hparts
  | cons p t ih =>
    refine ⟨ht.1, ?_, ih ht.2.2⟩
    cases t with
    | nil => trivial
    | cons q t =>
      cases q with
      | word chars => exact ht.2.1
      | quote content => trivial
      | group bracket parts => trivial

theorem termPlain_wordTerm {s : String} (h : (Piece.word s.toList).IsPlain) :
    TermPlain (wordTerm s) := termPlain_singleton h

mutual

theorem Expr.termPlain : ∀ e : Expr, e.isWellPlaced = true → TermPlain e.term
  | .int value, _ => termPlain_wordTerm (isPlain_word_intText value)
  | .str value, _ => termPlain_singleton trivial
  | .list items, h => termPlain_singleton (partsPlain_exprParts items h)
  | .ref name, h => termPlain_wordTerm (isPlain_word_name h)
  | .apply function args, h => by
    simp only [Expr.isWellPlaced, Bool.and_eq_true] at h
    exact termPlain_snoc (function.termPlain h.1) (partsPlain_exprParts args h.2)
  | .binary op left right, h => by
    simp only [Expr.isWellPlaced, Bool.and_eq_true] at h
    have hphrase : PhrasePlain [left.term, wordTerm op.text, right.term] :=
      ⟨left.term_ne_nil, left.termPlain h.1, List.cons_ne_nil _ _,
        termPlain_wordTerm (isPlain_word_op op), right.term_ne_nil, right.termPlain h.2, trivial⟩
    exact termPlain_singleton ⟨List.cons_ne_nil _ _, hphrase, trivial⟩
  | .proj base projection, h => by
    simp only [Expr.isWellPlaced, Bool.and_eq_true] at h
    obtain ⟨parts, hpiece, hparts⟩ := projection.piece_eq h.2
    rw [Expr.term, hpiece]
    exact termPlain_snoc (base.termPlain h.1) hparts
  | .stray _, h => by cases h

theorem Projection.piece_eq : ∀ p : Projection, p.isWellPlaced = true →
    ∃ parts, p.piece = .group .square parts ∧ PartsPlain parts
  | .single index, h =>
    ⟨_, rfl, List.cons_ne_nil _ _, ⟨index.term_ne_nil, index.termPlain h, trivial⟩, trivial⟩
  | .onward start, h => by
    refine ⟨_, rfl, List.cons_ne_nil _ _, ⟨start.term_ne_nil, start.termPlain h, ?_⟩, trivial⟩
    exact ⟨List.cons_ne_nil _ _,
      termPlain_wordTerm ⟨by decide, List.all_eq_true.1 (by decide)⟩, trivial⟩
  | .stray _, h => by cases h

theorem partsPlain_exprParts :
    ∀ es : List Expr, exprsWellPlaced es = true → PartsPlain (exprParts es)
  | [], _ => trivial
  | e :: rest, h => by
    simp only [exprsWellPlaced, Bool.and_eq_true] at h
    exact ⟨List.cons_ne_nil _ _, ⟨e.term_ne_nil, e.termPlain h.1, trivial⟩,
      partsPlain_exprParts rest h.2⟩

end

theorem Target.termPlain : ∀ t : Target, t.isWellPlaced = true → TermPlain t.term
  | .name n, h => termPlain_wordTerm (isPlain_word_name h)
  | .item base projection, h => by
    simp only [Target.isWellPlaced, Bool.and_eq_true] at h
    obtain ⟨parts, hpiece, hparts⟩ := projection.piece_eq h.2
    rw [Target.term, hpiece]
    exact termPlain_snoc (base.termPlain h.1) hparts
  | .stray _, h => by cases h

/-! ## Terms determine expressions -/

theorem BinOp.merged_eq_of_text {a b : BinOp} (h : a.text.toList = b.text.toList) :
    a.merged = b.merged := by
  revert h
  cases a <;> cases b <;> decide

theorem Projection.piece_ne_round (p : Projection) (parts : List Phrase) :
    p.piece ≠ .group .round parts := by
  cases p <;> simp [Projection.piece]

mutual

/-- **The term of an expression determines it**, up to merging. -/
theorem Expr.merged_eq_of_term : ∀ e f : Expr, e.isWellPlaced = true → f.isWellPlaced = true →
    e.term = f.term → e.merged = f.merged
  | .int value, f, _, hf, h => by
    cases f with
    | int other =>
      simp only [Expr.term, wordTerm, List.cons.injEq, Piece.word.injEq, and_true] at h
      rw [intText_injective (String.toList_inj.1 h)]
    | ref name =>
      -- numerals and names are both words, but no name starts with a digit or a sign
      simp only [Expr.term, wordTerm, List.cons.injEq, Piece.word.injEq, and_true] at h
      exact absurd h (intText_ne_name value hf)
    | stray node => cases hf
    | _ => simp [Expr.term, wordTerm] at h
  | .str value, f, _, hf, h => by
    cases f with
    | str other =>
      simp only [Expr.term, List.cons.injEq, Piece.quote.injEq, and_true] at h
      rw [String.toList_inj.1 h]
    | stray node => cases hf
    | _ => simp [Expr.term, wordTerm] at h
  | .list items, f, he, hf, h => by
    cases f with
    | list others =>
      simp only [Expr.term, List.cons.injEq, Piece.group.injEq, true_and, and_true] at h
      rw [Expr.merged, Expr.merged, exprsMerged_eq_of_parts items others he hf h]
    | stray node => cases hf
    | _ => simp [Expr.term, wordTerm] at h
  | .ref name, f, he, hf, h => by
    cases f with
    | int value =>
      simp only [Expr.term, wordTerm, List.cons.injEq, Piece.word.injEq, and_true] at h
      exact absurd h.symm (intText_ne_name value he)
    | ref other =>
      simp only [Expr.term, wordTerm, List.cons.injEq, Piece.word.injEq, and_true] at h
      rw [ScopedName.text_injective he hf h]
    | stray node => cases hf
    | _ => simp [Expr.term, wordTerm] at h
  | .apply function args, f, he, hf, h => by
    simp only [Expr.isWellPlaced, Bool.and_eq_true] at he
    cases f with
    | apply function' args' =>
      simp only [Expr.isWellPlaced, Bool.and_eq_true] at hf
      obtain ⟨hfunction, hargs⟩ := List.append_inj' h rfl
      simp only [List.cons.injEq, Piece.group.injEq, true_and, and_true] at hargs
      rw [Expr.merged, Expr.merged, function.merged_eq_of_term function' he.1 hf.1 hfunction,
        exprsMerged_eq_of_parts args args' he.2 hf.2 hargs]
    | proj base projection =>
      -- the last bracket tells a call from a selection
      have hpiece := (List.append_inj' h rfl).2
      exact absurd (List.cons.inj hpiece).1.symm (projection.piece_ne_round _)
    | stray node => cases hf
    | _ => simp [Expr.term, wordTerm] at h
  | .binary op left right, f, he, hf, h => by
    simp only [Expr.isWellPlaced, Bool.and_eq_true] at he
    cases f with
    | binary op' left' right' =>
      simp only [Expr.isWellPlaced, Bool.and_eq_true] at hf
      simp only [Expr.term, wordTerm, List.cons.injEq, Piece.group.injEq, Piece.word.injEq,
        true_and, and_true] at h
      rw [Expr.merged, Expr.merged, BinOp.merged_eq_of_text h.2.1,
        left.merged_eq_of_term left' he.1 hf.1 h.1, right.merged_eq_of_term right' he.2 hf.2 h.2.2]
    | stray node => cases hf
    | _ => simp [Expr.term, wordTerm] at h
  | .proj base projection, f, he, hf, h => by
    simp only [Expr.isWellPlaced, Bool.and_eq_true] at he
    cases f with
    | apply function args =>
      have hpiece := (List.append_inj' h rfl).2
      exact absurd (List.cons.inj hpiece).1 (projection.piece_ne_round _)
    | proj base' projection' =>
      simp only [Expr.isWellPlaced, Bool.and_eq_true] at hf
      obtain ⟨hbase, hpiece⟩ := List.append_inj' h rfl
      rw [Expr.merged, Expr.merged, base.merged_eq_of_term base' he.1 hf.1 hbase,
        projection.merged_eq_of_piece projection' he.2 hf.2 (List.cons.inj hpiece).1]
    | stray node => cases hf
    | _ => simp [Expr.term, wordTerm] at h
  | .stray _, _, he, _, _ => by cases he

theorem Projection.merged_eq_of_piece : ∀ p q : Projection, p.isWellPlaced = true →
    q.isWellPlaced = true → p.piece = q.piece → p.merged = q.merged
  | .single index, .single other, hp, hq, h => by
    simp only [Projection.piece, Piece.group.injEq, List.cons.injEq, true_and, and_true] at h
    rw [Projection.merged, Projection.merged, index.merged_eq_of_term other hp hq h]
  | .onward start, .onward other, hp, hq, h => by
    simp only [Projection.piece, Piece.group.injEq, List.cons.injEq, true_and, and_true] at h
    rw [Projection.merged, Projection.merged, start.merged_eq_of_term other hp hq h]
  | .single index, .onward start, _, _, h => by simp [Projection.piece] at h
  | .onward start, .single index, _, _, h => by simp [Projection.piece] at h
  | .stray _, _, hp, _, _ => by cases hp
  | _, .stray _, _, hq, _ => by cases hq

theorem exprsMerged_eq_of_parts : ∀ es fs : List Expr, exprsWellPlaced es = true →
    exprsWellPlaced fs = true → exprParts es = exprParts fs → exprsMerged es = exprsMerged fs
  | [], [], _, _, _ => rfl
  | [], f :: fs, _, _, h => by cases h
  | e :: es, [], _, _, h => by cases h
  | e :: es, f :: fs, he, hf, h => by
    simp only [exprsWellPlaced, Bool.and_eq_true] at he hf
    simp only [exprParts, List.cons.injEq, and_true] at h
    rw [exprsMerged, exprsMerged, e.merged_eq_of_term f he.1 hf.1 h.1,
      exprsMerged_eq_of_parts es fs he.2 hf.2 h.2]

end

theorem Target.merged_eq_of_term : ∀ t u : Target, t.isWellPlaced = true → u.isWellPlaced = true →
    t.term = u.term → t.merged = u.merged
  | .name m, .name n, ht, hu, h => by
    simp only [Target.term, wordTerm, List.cons.injEq, Piece.word.injEq, and_true] at h
    rw [ScopedName.text_injective ht hu h]
  | .item base projection, .item base' projection', ht, hu, h => by
    simp only [Target.isWellPlaced, Bool.and_eq_true] at ht hu
    obtain ⟨hbase, hpiece⟩ := List.append_inj' h rfl
    rw [Target.merged, Target.merged, base.merged_eq_of_term base' ht.1 hu.1 hbase,
      projection.merged_eq_of_piece projection' ht.2 hu.2 (List.cons.inj hpiece).1]
  | .name m, .item base projection, _, _, h => by simp [Target.term, wordTerm] at h
  | .item base projection, .name n, _, _, h => by simp [Target.term, wordTerm] at h
  | .stray _, _, ht, _, _ => by cases ht
  | _, .stray _, _, hu, _ => by cases hu

end Vimgen.Script
