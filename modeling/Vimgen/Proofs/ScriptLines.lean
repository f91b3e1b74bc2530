import Vimgen.Proofs.Renderable
import Vimgen.Proofs.ScriptTerms

/-!
# Statements as lines

`Stmt.phrases` gives the lines of a statement, without their indentation.

* `blockDraft_shows`: statements that are rendered to their end are rendered as their phrases.
* `renderable_of_blockWellPlaced`: well-placed statements are renderable, so nothing but their
  integers keeps them from being rendered.
* `blockPhrasesPlain`: the phrases of well-placed statements are plain, so that their text
  determines them.
-/

namespace Vimgen.Script

/-! ## The lines of statements -/

/-- The phrases of parameters. -/
def paramParts (params : List String) : List Phrase := params.map fun p => [wordTerm p]

mutual

/-- The lines of a statement. -/
def Stmt.phrases : Stmt → List Phrase
  | .bind name value => [[wordTerm "let", wordTerm name.text, wordTerm "=", value.term]]
  | .assign target value => [[wordTerm "let", target.term, wordTerm "=", value.term]]
  | .ret value => [[wordTerm "return", value.term]]
  | .call name args => [[wordTerm "call", wordTerm name.text ++ [.group .round (exprParts args)]]]
  | .command command arg => [[wordTerm command, arg.term]]
  | .cond [] _ => []
  | .cond (.mk test body :: rest) default =>
    [wordTerm "if", test.term] ::
      (blockPhrases body ++ (armsPhrases rest ++ defaultPhrases default))
  | .function name params body =>
    [wordTerm "function!", wordTerm name.text ++ [.group .round (paramParts params)],
        wordTerm "abort"] ::
      (blockPhrases body ++ [[wordTerm "endfunction"], []])
  | .stray _ => []

/-- The lines of statements in a row. -/
def blockPhrases : List Stmt → List Phrase
  | [] => []
  | s :: rest => s.phrases ++ blockPhrases rest

/-- The lines of the arms after the first. -/
def armsPhrases : List Arm → List Phrase
  | [] => []
  | .mk test body :: rest =>
    [wordTerm "elseif", test.term] :: (blockPhrases body ++ armsPhrases rest)

/-- The lines from the default of a condition on. -/
def defaultPhrases : Option (List Stmt) → List Phrase
  | none => [[wordTerm "endif"]]
  | some default => [wordTerm "else"] :: (blockPhrases default ++ [[wordTerm "endif"]])

end

/-! ## Drafts show the lines -/

/-- A line of a draft has the text of a phrase. -/
def Line.Shows : Line → Phrase → Prop
  | .text _ content, ph => content.toList = lineText ph
  | .blank, ph => ph = []

/-- If a draft came to its end, it has the texts of some phrases. -/
def Draft.Shows (d : Draft) (phs : List Phrase) : Prop :=
  d.halt = none → List.Forall₂ Line.Shows d.lines phs

theorem Draft.Shows.line {content : String} {ph : Phrase} (h : content.toList = lineText ph)
    (fault? : Option RenderError) : (Draft.line fault? content).Shows [ph] := by
  cases fault? with
  | none => exact fun _ => .cons h .nil
  | some e => exact nofun

theorem Draft.Shows.append {a b : Draft} {phs others : List Phrase} (ha : a.Shows phs)
    (hb : b.Shows others) : (a ++ b).Shows (phs ++ others) := by
  intro h
  obtain ⟨hfirst, hsecond⟩ := Draft.halt_append.1 h
  rw [Draft.append_eq hfirst]
  exact List.rel_append (ha hfirst) (hb hsecond)

theorem Draft.Shows.nest {d : Draft} {phs : List Phrase} (h : d.Shows phs) : d.nest.Shows phs := by
  intro hhalt
  rw [Draft.nest, List.forall₂_map_left_iff]
  refine (h (Option.map_eq_none_iff.1 hhalt)).imp fun line ph hline => ?_
  cases line with
  | text depth content => exact hline
  | blank => exact hline

/-- A term, a blank and the rest of a line. -/
theorem lineText_cons (t u : List Piece) (ts : Phrase) :
    lineText (t :: u :: ts) = termText t ++ ' ' :: lineText (u :: ts) := by
  simp only [lineText, phraseText, List.cons_append, List.drop_succ_cons, List.drop_zero]

theorem lineText_singleton (t : List Piece) : lineText [t] = termText t := by
  simp only [lineText, phraseText, List.append_nil, List.drop_succ_cons, List.drop_zero]

theorem termText_header (name : String) {parts : List Phrase} {texts : List String}
    (h : partsText parts = texts.flatMap fun p => ',' :: ' ' :: p.toList) :
    termText (wordTerm name ++ [.group .round parts]) =
      name.toList ++ '(' :: (commaList texts).toList ++ [')'] := by
  rw [termText_append, termText_wordTerm, termText_singleton, Piece.text, h, toList_commaList]
  simp [Sexp.Bracket.opening, Sexp.Bracket.closing]

theorem partsText_paramParts (params : List String) :
    partsText (paramParts params) = params.flatMap fun p => ',' :: ' ' :: p.toList := by
  induction params with
  | nil => rfl
  | cons p params ih =>
    rw [paramParts, List.map_cons, partsText, ← paramParts, ih, List.flatMap_cons, phraseText,
      phraseText, termText_wordTerm, List.append_nil]

/-- The line of a word and an expression. -/
theorem Draft.Shows.lead {lead keyword : String} (hlead : lead = keyword ++ " ") (e : Expr) :
    (Draft.line e.fault? (lead ++ e.text)).Shows [[wordTerm keyword, e.term]] := by
  apply Draft.Shows.line
  rw [lineText_cons, lineText_singleton, termText_wordTerm, ← e.toList_text, hlead,
    String.toList_append, String.toList_append, List.append_assoc]
  rfl

/-- The line of a word on its own. -/
theorem Draft.Shows.word (s : String) : (Draft.line none s).Shows [[wordTerm s]] := by
  apply Draft.Shows.line
  rw [lineText_singleton, termText_wordTerm]

mutual

/-- Statements are rendered as their phrases. -/
theorem Stmt.draft_shows : ∀ s : Stmt, s.draft.Shows s.phrases
  | .bind name value => by
    rw [Stmt.draft]
    apply Draft.Shows.line
    simp only [lineText_cons, lineText_singleton, termText_wordTerm, ← value.toList_text,
      String.toList_append]
    simp
  | .assign target value => by
    rw [Stmt.draft]
    apply Draft.Shows.line
    simp only [lineText_cons, lineText_singleton, termText_wordTerm, ← value.toList_text,
      ← target.toList_text, String.toList_append]
    simp
  | .ret value => .lead (by decide) value
  | .call name args => by
    rw [Stmt.draft]
    apply Draft.Shows.line
    rw [lineText_cons, lineText_singleton, termText_wordTerm,
      termText_header _ (partsText_exprParts args)]
    simp [String.toList_append]
  | .command command arg => .lead rfl arg
  | .cond [] _ => nofun
  | .cond (.mk test body :: rest) none => by
    have hif := Draft.Shows.lead (show "if " = "if" ++ " " by decide) test
    have hthen := hif.append (blockDraft_shows body).nest
    have harms := hthen.append (armsDraft_shows rest)
    rw [Stmt.draft, Stmt.phrases, defaultPhrases]
    simpa using harms.append (.word "endif")
  | .cond (.mk test body :: rest) (some default) => by
    have hif := Draft.Shows.lead (show "if " = "if" ++ " " by decide) test
    have hthen := hif.append (blockDraft_shows body).nest
    have harms := hthen.append (armsDraft_shows rest)
    have helse := (harms.append (.word "else")).append (blockDraft_shows default).nest
    rw [Stmt.draft, Stmt.phrases, defaultPhrases]
    simpa using helse.append (.word "endif")
  | .function name params body => by
    have hheader : ("function! " ++ name.text ++ "(" ++ commaList params ++ ") abort").toList =
        lineText [wordTerm "function!", wordTerm name.text ++ [.group .round (paramParts params)],
          wordTerm "abort"] := by
      rw [lineText_cons, lineText_cons, lineText_singleton,
        termText_header _ (partsText_paramParts params), termText_wordTerm, termText_wordTerm]
      simp [String.toList_append]
    have hblank : Draft.Shows ⟨[.blank], none⟩ [[]] := fun _ => .cons rfl .nil
    have hbody := (Draft.Shows.line hheader none).append (blockDraft_shows body).nest
    rw [Stmt.draft, Stmt.phrases]
    simpa using (hbody.append (.word "endfunction")).append hblank
  | .stray _ => nofun

theorem blockDraft_shows : ∀ b : List Stmt, (blockDraft b).Shows (blockPhrases b)
  | [] => fun _ => .nil
  | s :: rest => s.draft_shows.append (blockDraft_shows rest)

theorem armsDraft_shows : ∀ arms : List Arm, (armsDraft arms).Shows (armsPhrases arms)
  | [] => fun _ => .nil
  | .mk test body :: rest => by
    have hif := Draft.Shows.lead (show "elseif " = "elseif" ++ " " by decide) test
    rw [armsDraft, armsPhrases]
    simpa using (hif.append (blockDraft_shows body).nest).append (armsDraft_shows rest)

end

/-! ## Well-placed statements are renderable -/

mutual

theorem Expr.renderable_of_isWellPlaced :
    ∀ e : Expr, e.isWellPlaced = true → e.Renderable fun _ => True
  | .int _, _ | .str _, _ | .ref _, _ => trivial
  | .list items, h => renderable_of_exprsWellPlaced items h
  | .apply function args, h => by
    simp only [Expr.isWellPlaced, Bool.and_eq_true] at h
    exact ⟨function.renderable_of_isWellPlaced h.1, renderable_of_exprsWellPlaced args h.2⟩
  | .binary op left right, h => by
    simp only [Expr.isWellPlaced, Bool.and_eq_true] at h
    exact ⟨left.renderable_of_isWellPlaced h.1, right.renderable_of_isWellPlaced h.2⟩
  | .proj base projection, h => by
    simp only [Expr.isWellPlaced, Bool.and_eq_true] at h
    exact ⟨base.renderable_of_isWellPlaced h.1, projection.renderable_of_isWellPlaced h.2⟩
  | .stray _, h => by cases h

theorem Projection.renderable_of_isWellPlaced :
    ∀ p : Projection, p.isWellPlaced = true → p.Renderable fun _ => True
  | .single index, h => index.renderable_of_isWellPlaced h
  | .onward start, h => start.renderable_of_isWellPlaced h
  | .stray _, h => by cases h

theorem renderable_of_exprsWellPlaced :
    ∀ es : List Expr, exprsWellPlaced es = true → exprsRenderable (fun _ => True) es
  | [], _ => trivial
  | e :: rest, h => by
    simp only [exprsWellPlaced, Bool.and_eq_true] at h
    exact ⟨e.renderable_of_isWellPlaced h.1, renderable_of_exprsWellPlaced rest h.2⟩

end

theorem Target.renderable_of_isWellPlaced :
    ∀ t : Target, t.isWellPlaced = true → t.Renderable fun _ => True
  | .name _, _ => trivial
  | .item base projection, h => by
    simp only [Target.isWellPlaced, Bool.and_eq_true] at h
    exact ⟨base.renderable_of_isWellPlaced h.1, projection.renderable_of_isWellPlaced h.2⟩
  | .stray _, h => by cases h

theorem cond_wellPlaced {test : Expr} {body : List Stmt} {rest : List Arm}
    {default : Option (List Stmt)}
    (h : (Stmt.cond (.mk test body :: rest) default).isWellPlaced = true) :
    test.isWellPlaced = true ∧ blockWellPlaced body = true ∧ armsWellPlaced rest = true ∧
      defaultWellPlaced default = true := by
  simp only [Stmt.isWellPlaced, armsWellPlaced, Bool.and_eq_true] at h
  exact ⟨h.1.2.1.1, h.1.2.1.2, h.1.2.2, h.2⟩

mutual

theorem Stmt.renderable_of_isWellPlaced :
    ∀ s : Stmt, s.isWellPlaced = true → s.Renderable fun _ => True
  | .bind name value, h => by
    simp only [Stmt.isWellPlaced, Bool.and_eq_true] at h
    exact value.renderable_of_isWellPlaced h.2
  | .assign target value, h => by
    simp only [Stmt.isWellPlaced, Bool.and_eq_true] at h
    exact ⟨target.renderable_of_isWellPlaced h.1, value.renderable_of_isWellPlaced h.2⟩
  | .ret value, h => value.renderable_of_isWellPlaced h
  | .call name args, h => by
    simp only [Stmt.isWellPlaced, Bool.and_eq_true] at h
    exact renderable_of_exprsWellPlaced args h.2
  | .command command arg, h => by
    simp only [Stmt.isWellPlaced, Bool.and_eq_true] at h
    exact arg.renderable_of_isWellPlaced h.2
  | .cond [] _, h => by cases h
  | .cond (.mk test body :: rest) default, h => by
    obtain ⟨htest, hbody, hrest, hdefault⟩ := cond_wellPlaced h
    refine ⟨List.cons_ne_nil _ _, ⟨?_, ?_, ?_⟩, ?_⟩
    · exact test.renderable_of_isWellPlaced htest
    · exact renderable_of_blockWellPlaced body hbody
    · exact renderable_of_armsWellPlaced rest hrest
    · exact renderable_of_defaultWellPlaced default hdefault
  | .function name params body, h => by
    simp only [Stmt.isWellPlaced, Bool.and_eq_true] at h
    exact renderable_of_blockWellPlaced body h.2
  | .stray _, h => by cases h

theorem renderable_of_blockWellPlaced :
    ∀ b : List Stmt, blockWellPlaced b = true → blockRenderable (fun _ => True) b
  | [], _ => trivial
  | s :: rest, h => by
    simp only [blockWellPlaced, Bool.and_eq_true] at h
    exact ⟨s.renderable_of_isWellPlaced h.1, renderable_of_blockWellPlaced rest h.2⟩

theorem renderable_of_armsWellPlaced :
    ∀ arms : List Arm, armsWellPlaced arms = true → armsRenderable (fun _ => True) arms
  | [], _ => trivial
  | .mk test body :: rest, h => by
    simp only [armsWellPlaced, Bool.and_eq_true] at h
    exact ⟨test.renderable_of_isWellPlaced h.1.1, renderable_of_blockWellPlaced body h.1.2,
      renderable_of_armsWellPlaced rest h.2⟩

theorem renderable_of_defaultWellPlaced :
    ∀ default : Option (List Stmt), defaultWellPlaced default = true →
      defaultRenderable (fun _ => True) default
  | none, _ => trivial
  | some default, h => renderable_of_blockWellPlaced default h

end

/-! ## The lines are plain -/

theorem mem_commands {command : String} {arg : Expr}
    (h : (Stmt.command command arg).isWellPlaced = true) : command ∈ commands := by
  simp only [Stmt.isWellPlaced, Bool.and_eq_true, List.contains_eq_mem, decide_eq_true_eq] at h
  exact h.1

theorem phrasePlain_cons {t : List Piece} {ts : Phrase} (hne : t ≠ []) (ht : TermPlain t)
    (hts : PhrasePlain ts) : PhrasePlain (t :: ts) :=
  ⟨hne, ht, hts⟩

theorem phrasePlain_word {s : String} (h : (Piece.word s.toList).IsPlain) {ts : Phrase}
    (hts : PhrasePlain ts) : PhrasePlain (wordTerm s :: ts) :=
  phrasePlain_cons (List.cons_ne_nil _ _) (termPlain_wordTerm h) hts

theorem phrasePlain_expr {e : Expr} (h : e.isWellPlaced = true) : PhrasePlain [e.term] :=
  phrasePlain_cons e.term_ne_nil (e.termPlain h) trivial

theorem partsPlain_paramParts {params : List String} (h : params.all isBaseName = true) :
    PartsPlain (paramParts params) := by
  induction params with
  | nil => trivial
  | cons p params ih =>
    rw [List.all_cons, Bool.and_eq_true] at h
    exact ⟨List.cons_ne_nil _ _, phrasePlain_word (isPlain_word_baseName h.1) trivial, ih h.2⟩

/-- A name with its arguments or parameters. -/
theorem phrasePlain_header {name : ScopedName} (hname : name.isWellFormed = true)
    {parts : List Phrase} (hparts : PartsPlain parts) {ts : Phrase} (hts : PhrasePlain ts) :
    PhrasePlain ((wordTerm name.text ++ [.group .round parts]) :: ts) :=
  phrasePlain_cons (List.cons_ne_nil _ _)
    (termPlain_snoc (termPlain_wordTerm (isPlain_word_name hname)) hparts) hts

theorem isPlain_keyword {s : String} (h : s.toList ≠ [] ∧ s.toList.all isWordChar = true) :
    (Piece.word s.toList).IsPlain :=
  ⟨h.1, List.all_eq_true.1 h.2⟩

mutual

theorem Stmt.phrasesPlain : ∀ s : Stmt, s.isWellPlaced = true → ∀ ph ∈ s.phrases, PhrasePlain ph
  | .bind name value, h => by
    simp only [Stmt.isWellPlaced, Bool.and_eq_true] at h
    simp only [Stmt.phrases, List.forall_mem_singleton]
    exact phrasePlain_word (isPlain_keyword (by decide)) (phrasePlain_word (isPlain_word_name h.1)
      (phrasePlain_word (isPlain_keyword (by decide)) (phrasePlain_expr h.2)))
  | .assign target value, h => by
    simp only [Stmt.isWellPlaced, Bool.and_eq_true] at h
    simp only [Stmt.phrases, List.forall_mem_singleton]
    have hvalue := phrasePlain_word (isPlain_keyword (s := "=") (by decide)) (phrasePlain_expr h.2)
    exact phrasePlain_word (isPlain_keyword (by decide))
      (phrasePlain_cons target.term_ne_nil (target.termPlain h.1) hvalue)
  | .ret value, h => by
    simp only [Stmt.phrases, List.forall_mem_singleton]
    exact phrasePlain_word (isPlain_keyword (by decide)) (phrasePlain_expr h)
  | .call name args, h => by
    simp only [Stmt.isWellPlaced, Bool.and_eq_true] at h
    simp only [Stmt.phrases, List.forall_mem_singleton]
    exact phrasePlain_word (isPlain_keyword (by decide))
      (phrasePlain_header h.1 (partsPlain_exprParts args h.2) trivial)
  | .command command arg, h => by
    have hall : ∀ c ∈ commands, c.toList ≠ [] ∧ c.toList.all isWordChar = true := by decide
    have hcommand := mem_commands h
    simp only [Stmt.isWellPlaced, Bool.and_eq_true] at h
    simp only [Stmt.phrases, List.forall_mem_singleton]
    exact phrasePlain_word (isPlain_keyword (hall command hcommand)) (phrasePlain_expr h.2)
  | .cond [] _, h => by cases h
  | .cond (.mk test body :: rest) default, h => by
    obtain ⟨htest, hbody, hrest, hdefault⟩ := cond_wellPlaced h
    simp only [Stmt.phrases, List.forall_mem_cons, List.forall_mem_append]
    exact ⟨phrasePlain_word (isPlain_keyword (by decide)) (phrasePlain_expr htest),
      blockPhrasesPlain body hbody, armsPhrasesPlain rest hrest,
      defaultPhrasesPlain default hdefault⟩
  | .function name params body, h => by
    simp only [Stmt.isWellPlaced, Bool.and_eq_true] at h
    simp only [Stmt.phrases, List.forall_mem_cons, List.forall_mem_append]
    exact ⟨phrasePlain_word (isPlain_keyword (by decide)) (phrasePlain_header h.1.1
        (partsPlain_paramParts h.1.2) (phrasePlain_word (isPlain_keyword (by decide)) trivial)),
      blockPhrasesPlain body h.2, phrasePlain_word (isPlain_keyword (by decide)) trivial, trivial,
      List.forall_mem_nil _⟩
  | .stray _, h => by cases h

theorem blockPhrasesPlain : ∀ b : List Stmt, blockWellPlaced b = true →
    ∀ ph ∈ blockPhrases b, PhrasePlain ph
  | [], _ => List.forall_mem_nil _
  | s :: rest, h => by
    simp only [blockWellPlaced, Bool.and_eq_true] at h
    exact List.forall_mem_append.2 ⟨s.phrasesPlain h.1, blockPhrasesPlain rest h.2⟩

theorem armsPhrasesPlain : ∀ arms : List Arm, armsWellPlaced arms = true →
    ∀ ph ∈ armsPhrases arms, PhrasePlain ph
  | [], _ => List.forall_mem_nil _
  | .mk test body :: rest, h => by
    simp only [armsWellPlaced, Bool.and_eq_true] at h
    simp only [armsPhrases, List.forall_mem_cons, List.forall_mem_append]
    exact ⟨phrasePlain_word (isPlain_keyword (by decide)) (phrasePlain_expr h.1.1),
      blockPhrasesPlain body h.1.2, armsPhrasesPlain rest h.2⟩

theorem defaultPhrasesPlain : ∀ default : Option (List Stmt), defaultWellPlaced default = true →
    ∀ ph ∈ defaultPhrases default, PhrasePlain ph
  | none, _ => List.forall_mem_singleton.2 (phrasePlain_word (isPlain_keyword (by decide)) trivial)
  | some default, h => by
    simp only [defaultPhrases, List.forall_mem_cons, List.forall_mem_append]
    exact ⟨phrasePlain_word (isPlain_keyword (by decide)) trivial, blockPhrasesPlain default h,
      phrasePlain_word (isPlain_keyword (by decide)) trivial, List.forall_mem_nil _⟩

end

end Vimgen.Script
