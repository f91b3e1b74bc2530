import Mathlib.Data.List.Forall2
import Vimgen.Proofs.Literal
import Vimgen.Sexp.Datum

/-!
# Words, literals and brackets

The text of a script line is a phrase: terms with blanks between them. A term is a row of pieces
with nothing between them, and a piece is a word, a string literal, or a bracket around phrases that
are separated by commas. The text of plain pieces determines them:

* `Piece.text_unambiguous`: no text starts with two different pieces.
* `lines_unambiguous`: indented lines determine their phrases.
-/

namespace Vimgen.Script

open Sexp (Bracket)

/-- A word, the content of a literal, or phrases in brackets; a phrase is a list of terms and a term
a list of pieces. -/
inductive Piece where
  | word (chars : List Char)
  | quote (content : List Char)
  | group (bracket : Bracket) (parts : List (List (List Piece)))

/-- Terms with blanks between them. -/
abbrev Phrase := List (List Piece)

mutual

/-- The text of a piece. -/
def Piece.text : Piece → List Char
  | .word chars => chars
  | .quote content => '"' :: content.flatMap escapeChar ++ ['"']
  | .group bracket parts => bracket.opening :: (partsText parts).drop 2 ++ [bracket.closing]

/-- The text of a term. -/
def termText : List Piece → List Char
  | [] => []
  | p :: rest => p.text ++ termText rest

/-- The text of a phrase, with a blank before every term. -/
def phraseText : List (List Piece) → List Char
  | [] => []
  | t :: rest => ' ' :: termText t ++ phraseText rest

/-- The text of phrases in brackets, with a comma before every phrase. -/
def partsText : List (List (List Piece)) → List Char
  | [] => []
  | ph :: rest => ',' :: phraseText ph ++ partsText rest

end

/-! ## Plain pieces -/

/-- What may stand behind the last of several phrases. -/
def endsParts (c : Char) : Bool := c = ')' || c = ']'

/-- What may stand behind a phrase. -/
def endsPhrase (c : Char) : Bool := c = ',' || c = '\n' || endsParts c

/-- What may stand behind a term. -/
def endsTerm (c : Char) : Bool := c = ' ' || endsPhrase c

/-- Characters of words. -/
def isWordChar (c : Char) : Bool := !endsTerm c && c ≠ '"' && c ≠ '(' && c ≠ '['

/-- A term that goes on behind a piece, or ends: no word stands there. -/
def noWord : List Piece → Prop
  | .word _ :: _ => False
  | _ => True

mutual

/-- Pieces whose text can be told from what follows: words are not empty and have no special
characters, and there are no empty terms and phrases. -/
def Piece.IsPlain : Piece → Prop
  | .word chars => chars ≠ [] ∧ ∀ c ∈ chars, isWordChar c = true
  | .quote _ => True
  | .group _ parts => PartsPlain parts

def TermPlain : List Piece → Prop
  | [] => True
  | p :: rest => p.IsPlain ∧ noWord rest ∧ TermPlain rest

def PhrasePlain : List (List Piece) → Prop
  | [] => True
  | t :: rest => t ≠ [] ∧ TermPlain t ∧ PhrasePlain rest

def PartsPlain : List (List (List Piece)) → Prop
  | [] => True
  | ph :: rest => ph ≠ [] ∧ PhrasePlain ph ∧ PartsPlain rest

end

/-- The first character of a text, if there is one, is such. -/
def Starts (p : Char → Bool) (text : List Char) : Prop := ∀ c cs, text = c :: cs → p c = true

theorem starts_cons {p : Char → Bool} {c : Char} (cs : List Char) (h : p c = true) :
    Starts p (c :: cs) := by
  intro d ds heq; cases heq; exact h

theorem Starts.mono {p q : Char → Bool} (hpq : ∀ c, p c = true → q c = true) {text : List Char}
    (h : Starts p text) : Starts q text :=
  fun c cs heq => hpq c (h c cs heq)

theorem endsTerm_of_endsPhrase (c : Char) (h : endsPhrase c = true) : endsTerm c = true := by
  simp [endsTerm, h]

theorem endsPhrase_of_endsParts (c : Char) (h : endsParts c = true) : endsPhrase c = true := by
  simp [endsPhrase, h]

theorem not_isWordChar_of_endsTerm (c : Char) (h : endsTerm c = true) : (!isWordChar c) = true := by
  simp [isWordChar, h]

theorem endsParts_closing (bracket : Bracket) : endsParts bracket.closing = true := by
  cases bracket <;> decide

theorem not_endsTerm_opening (bracket : Bracket) :
    endsTerm bracket.opening = false ∧ isWordChar bracket.opening = false := by
  cases bracket <;> decide

/-- No piece starts like the end of a term. -/
theorem Piece.IsPlain.text_cons {p : Piece} (h : p.IsPlain) :
    ∃ c cs, p.text = c :: cs ∧ endsTerm c = false := by
  cases p with
  | word chars =>
    obtain ⟨c, cs, rfl⟩ := List.exists_cons_of_ne_nil h.1
    have hc := h.2 c List.mem_cons_self
    simp only [isWordChar, Bool.and_eq_true, Bool.not_eq_true'] at hc
    exact ⟨c, cs, rfl, hc.1.1.1⟩
  | quote content => exact ⟨'"', _, rfl, by decide⟩
  | group bracket parts => exact ⟨bracket.opening, _, rfl, (not_endsTerm_opening bracket).1⟩

theorem termText_cons {t : List Piece} (hne : t ≠ []) (h : TermPlain t) :
    ∃ c cs, termText t = c :: cs ∧ endsTerm c = false := by
  obtain ⟨p, rest, rfl⟩ := List.exists_cons_of_ne_nil hne
  obtain ⟨c, cs, hp, hc⟩ := h.1.text_cons
  exact ⟨c, cs ++ termText rest, by rw [termText, hp, List.cons_append], hc⟩

theorem phraseText_cons {ph : Phrase} (hne : ph ≠ []) (h : PhrasePlain ph) :
    ∃ c cs, phraseText ph = ' ' :: c :: cs ∧ endsTerm c = false := by
  obtain ⟨t, rest, rfl⟩ := List.exists_cons_of_ne_nil hne
  obtain ⟨c, cs, ht, hc⟩ := termText_cons h.1 h.2.1
  exact ⟨c, cs ++ phraseText rest, by rw [phraseText, ht, List.cons_append, List.cons_append], hc⟩

theorem partsText_cons {parts : List Phrase} (hne : parts ≠ []) (h : PartsPlain parts) :
    ∃ c cs, partsText parts = ',' :: ' ' :: c :: cs ∧ endsTerm c = false := by
  obtain ⟨ph, rest, rfl⟩ := List.exists_cons_of_ne_nil hne
  obtain ⟨c, cs, hph, hc⟩ := phraseText_cons h.1 h.2.1
  exact ⟨c, cs ++ partsText rest, by rw [partsText, hph]; rfl, hc⟩

/-! ## Unambiguity -/

/-- What follows a piece does not run into it. -/
def Piece.Stops : Piece → List Char → Prop
  | .word _, rest => Starts (fun c => !isWordChar c) rest
  | _, _ => True

theorem stops_termText {t : List Piece} {rest : List Char} (hword : noWord t)
    (hrest : Starts endsTerm rest) (p : Piece) : p.Stops (termText t ++ rest) := by
  cases p with
  | quote content => trivial
  | group bracket parts => trivial
  | word chars =>
    cases t with
    | nil => exact hrest.mono not_isWordChar_of_endsTerm
    | cons q t =>
      cases q with
      | word more => exact hword.elim
      | quote content => exact starts_cons _ (by decide)
      | group bracket parts =>
        exact starts_cons _ (by rw [(not_endsTerm_opening bracket).2]; rfl)

theorem starts_phraseText (ph : Phrase) {rest : List Char} (h : Starts endsPhrase rest) :
    Starts endsTerm (phraseText ph ++ rest) := by
  cases ph with
  | nil => exact h.mono endsTerm_of_endsPhrase
  | cons t ph => exact starts_cons _ (by decide)

theorem starts_partsText (parts : List Phrase) {rest : List Char} (h : Starts endsParts rest) :
    Starts endsPhrase (partsText parts ++ rest) := by
  cases parts with
  | nil => exact h.mono endsPhrase_of_endsParts
  | cons ph parts => exact starts_cons _ (by decide)

theorem word_unambiguous {cs ds r s : List Char} (hcs : ∀ c ∈ cs, isWordChar c = true)
    (hds : ∀ c ∈ ds, isWordChar c = true) (hr : Starts (fun c => !isWordChar c) r)
    (hs : Starts (fun c => !isWordChar c) s) (h : cs ++ r = ds ++ s) : cs = ds ∧ r = s := by
  induction cs generalizing ds with
  | nil =>
    cases ds with
    | nil => exact ⟨rfl, h⟩
    | cons d ds =>
      have hd : (!isWordChar d) = true := hr d (ds ++ s) h
      rw [hds d List.mem_cons_self] at hd
      cases hd
  | cons c cs ih =>
    cases ds with
    | nil =>
      have hc : (!isWordChar c) = true := hs c (cs ++ r) h.symm
      rw [hcs c List.mem_cons_self] at hc
      cases hc
    | cons d ds =>
      obtain ⟨rfl, htail⟩ := List.cons.inj h
      obtain ⟨rfl, hrest⟩ := ih (fun c hc => hcs c (List.mem_cons_of_mem _ hc))
        (fun c hc => hds c (List.mem_cons_of_mem _ hc)) htail
      exact ⟨rfl, hrest⟩

theorem quote_unambiguous {content more r s : List Char}
    (h : (Piece.quote content).text ++ r = (Piece.quote more).text ++ s) :
    content = more ∧ r = s := by
  simp only [Piece.text, List.cons_append, List.append_assoc, List.cons.injEq, true_and,
    List.nil_append] at h
  have := congrArg readQuoted h
  rw [readQuoted_escaped, readQuoted_escaped] at this
  cases this
  exact ⟨rfl, rfl⟩

theorem opening_injective {a b : Bracket} (h : a.opening = b.opening) : a = b := by
  revert h
  cases a <;> cases b <;> decide

theorem opening_ne_quote (bracket : Bracket) : bracket.opening ≠ '"' := by
  cases bracket <;> decide

theorem word_append_ne {chars : List Char} (h : (Piece.word chars).IsPlain) {c : Char}
    (hc : isWordChar c = false) (r s : List Char) : chars ++ r ≠ c :: s := by
  obtain ⟨d, ds, rfl⟩ := List.exists_cons_of_ne_nil h.1
  intro heq
  have hd := h.2 d List.mem_cons_self
  rw [(List.cons.inj heq).1, hc] at hd
  cases hd

mutual

/-- **No text starts with two different pieces.** -/
theorem Piece.text_unambiguous : ∀ (p q : Piece) {r s : List Char}, p.IsPlain → q.IsPlain →
    p.Stops r → q.Stops s → p.text ++ r = q.text ++ s → p = q ∧ r = s
  | .word cs, .word ds, r, s, hp, hq, hr, hs, h => by
    obtain ⟨rfl, hrest⟩ := word_unambiguous hp.2 hq.2 hr hs h
    exact ⟨rfl, hrest⟩
  | .word cs, .quote more, r, s, hp, _, _, _, h => absurd h (word_append_ne hp (by decide) _ _)
  | .word cs, .group b qs, r, s, hp, _, _, _, h =>
    absurd h (word_append_ne hp (not_endsTerm_opening b).2 _ _)
  | .quote content, .word ds, r, s, _, hq, _, _, h =>
    absurd h.symm (word_append_ne hq (by decide) _ _)
  | .quote content, .quote more, r, s, _, _, _, _, h => by
    obtain ⟨rfl, hrest⟩ := quote_unambiguous h
    exact ⟨rfl, hrest⟩
  | .quote content, .group b qs, r, s, _, _, _, _, h =>
    absurd (List.cons.inj h).1.symm (opening_ne_quote b)
  | .group a ps, .word ds, r, s, _, hq, _, _, h =>
    absurd h.symm (word_append_ne hq (not_endsTerm_opening a).2 _ _)
  | .group a ps, .quote more, r, s, _, _, _, _, h => absurd (List.cons.inj h).1 (opening_ne_quote a)
  | .group a ps, .group b qs, r, s, hp, hq, _, _, h => by
    obtain ⟨hopen, hinside⟩ := List.cons.inj h
    obtain rfl := opening_injective hopen
    simp only [List.append_eq, List.append_assoc, List.singleton_append] at hinside
    have hclosing : ∀ rest, Starts endsParts (a.closing :: rest) :=
      fun rest => starts_cons rest (endsParts_closing a)
    have hends := endsTerm_of_endsPhrase _ (endsPhrase_of_endsParts _ (endsParts_closing a))
    -- a bracket around nothing closes where any phrase would start
    by_cases hps : ps = []
    · by_cases hqs : qs = []
      · subst hps hqs
        exact ⟨rfl, (List.cons.inj hinside).2⟩
      · obtain ⟨c, cs, htext, hc⟩ := partsText_cons hqs hq
        rw [hps, htext] at hinside
        have := (List.cons.inj hinside).1
        rw [← this, hends] at hc
        cases hc
    · obtain ⟨c, cs, htext, hc⟩ := partsText_cons hps hp
      by_cases hqs : qs = []
      · rw [hqs, htext] at hinside
        have := (List.cons.inj hinside).1
        rw [this, hends] at hc
        cases hc
      · obtain ⟨d, ds, htext', -⟩ := partsText_cons hqs hq
        have hparts : partsText ps ++ a.closing :: r = partsText qs ++ a.closing :: s := by
          rw [htext, htext'] at hinside ⊢
          simpa using hinside
        obtain ⟨rfl, hrest⟩ := partsText_unambiguous ps qs hp hq (hclosing r) (hclosing s) hparts
        exact ⟨rfl, (List.cons.inj hrest).2⟩

theorem termText_unambiguous : ∀ (t u : List Piece) {r s : List Char}, TermPlain t → TermPlain u →
    Starts endsTerm r → Starts endsTerm s → termText t ++ r = termText u ++ s → t = u ∧ r = s
  | [], [], r, s, _, _, _, _, h => ⟨rfl, h⟩
  | [], q :: u, r, s, _, hu, hr, _, h => by
    -- what stands behind a term cannot start a piece
    obtain ⟨c, cs, htext, hc⟩ := termText_cons (List.cons_ne_nil q u) hu
    rw [htext] at h
    rw [hr c (cs ++ s) h] at hc
    cases hc
  | p :: t, [], r, s, ht, _, _, hs, h => by
    obtain ⟨c, cs, htext, hc⟩ := termText_cons (List.cons_ne_nil p t) ht
    rw [htext] at h
    rw [hs c (cs ++ r) h.symm] at hc
    cases hc
  | p :: t, q :: u, r, s, ht, hu, hr, hs, h => by
    rw [termText, termText, List.append_assoc, List.append_assoc] at h
    obtain ⟨rfl, hrest⟩ := Piece.text_unambiguous p q ht.1 hu.1 (stops_termText ht.2.1 hr p)
      (stops_termText hu.2.1 hs q) h
    obtain ⟨rfl, hend⟩ := termText_unambiguous t u ht.2.2 hu.2.2 hr hs hrest
    exact ⟨rfl, hend⟩

theorem phraseText_unambiguous : ∀ (ph other : Phrase) {r s : List Char}, PhrasePlain ph →
    PhrasePlain other → Starts endsPhrase r → Starts endsPhrase s →
    phraseText ph ++ r = phraseText other ++ s → ph = other ∧ r = s
  | [], [], r, s, _, _, _, _, h => ⟨rfl, h⟩
  | [], u :: us, r, s, _, _, hr, _, h => absurd (hr ' ' _ h) (by decide)
  | t :: ts, [], r, s, _, _, _, hs, h => absurd (hs ' ' _ h.symm) (by decide)
  | t :: ts, u :: us, r, s, ht, hu, hr, hs, h => by
    have htail := (List.cons.inj h).2
    simp only [List.append_eq, List.append_assoc] at htail
    obtain ⟨rfl, hrest⟩ := termText_unambiguous t u ht.2.1 hu.2.1 (starts_phraseText ts hr)
      (starts_phraseText us hs) htail
    obtain ⟨rfl, hend⟩ := phraseText_unambiguous ts us ht.2.2 hu.2.2 hr hs hrest
    exact ⟨rfl, hend⟩

theorem partsText_unambiguous : ∀ (ps qs : List Phrase) {r s : List Char}, PartsPlain ps →
    PartsPlain qs → Starts endsParts r → Starts endsParts s →
    partsText ps ++ r = partsText qs ++ s → ps = qs ∧ r = s
  | [], [], r, s, _, _, _, _, h => ⟨rfl, h⟩
  | [], q :: qs, r, s, _, _, hr, _, h => absurd (hr ',' _ h) (by decide)
  | p :: ps, [], r, s, _, _, _, hs, h => absurd (hs ',' _ h.symm) (by decide)
  | p :: ps, q :: qs, r, s, hp, hq, hr, hs, h => by
    have htail := (List.cons.inj h).2
    simp only [List.append_eq, List.append_assoc] at htail
    obtain ⟨rfl, hrest⟩ := phraseText_unambiguous p q hp.2.1 hq.2.1 (starts_partsText ps hr)
      (starts_partsText qs hs) htail
    obtain ⟨rfl, hend⟩ := partsText_unambiguous ps qs hp.2.2 hq.2.2 hr hs hrest
    exact ⟨rfl, hend⟩

end

/-! ## Lines -/

/-- The text of a phrase on a line of its own. -/
def lineText (ph : Phrase) : List Char := (phraseText ph).drop 1

/-- A line is a phrase behind blanks. -/
def Indented (line : List Char) (ph : Phrase) : Prop :=
  ∃ blanks : List Char, (∀ c ∈ blanks, c = ' ') ∧ line = blanks ++ lineText ph

theorem starts_lineText {ph : Phrase} (h : PhrasePlain ph) (rest : List Char) :
    Starts (fun c => c ≠ ' ') (lineText ph ++ '\n' :: rest) := by
  by_cases hph : ph = []
  · subst hph
    exact starts_cons _ (by decide)
  · obtain ⟨c, cs, htext, hc⟩ := phraseText_cons hph h
    rw [lineText, htext]
    have hblank : c ≠ ' ' := by
      rintro rfl
      cases hc
    exact starts_cons _ (by simpa using hblank)

theorem blanks_unambiguous {blanks more r s : List Char} (hblanks : ∀ c ∈ blanks, c = ' ')
    (hmore : ∀ c ∈ more, c = ' ') (hr : Starts (fun c => c ≠ ' ') r)
    (hs : Starts (fun c => c ≠ ' ') s) (h : blanks ++ r = more ++ s) : r = s := by
  have stays : ∀ {text : List Char}, Starts (fun c => c ≠ ' ') text →
      text.dropWhile (fun c => c = ' ') = text := by
    intro text htext
    cases text with
    | nil => rfl
    | cons c cs =>
      have := htext c cs rfl
      rw [List.dropWhile_cons_of_neg (by simpa using this)]
  have hdrop := congrArg (List.dropWhile fun c => decide (c = ' ')) h
  rwa [List.dropWhile_append_of_pos (by simpa using hblanks),
    List.dropWhile_append_of_pos (by simpa using hmore), stays hr, stays hs] at hdrop

theorem lineText_unambiguous {ph other : Phrase} {r s : List Char} (hph : PhrasePlain ph)
    (hother : PhrasePlain other) (h : lineText ph ++ '\n' :: r = lineText other ++ '\n' :: s) :
    ph = other ∧ r = s := by
  have hnewline : ∀ rest, Starts endsPhrase ('\n' :: rest) :=
    fun rest => starts_cons rest (by decide)
  have htext : phraseText ph ++ '\n' :: r = phraseText other ++ '\n' :: s := by
    by_cases hnil : ph = []
    · by_cases hnil' : other = []
      · rwa [hnil, hnil'] at h ⊢
      · -- the line of an empty phrase ends where any term would start
        obtain ⟨c, cs, htext, hc⟩ := phraseText_cons hnil' hother
        rw [hnil, lineText, lineText, htext] at h
        obtain rfl : '\n' = c := (List.cons.inj h).1
        cases hc
    · obtain ⟨c, cs, htext, hc⟩ := phraseText_cons hnil hph
      by_cases hnil' : other = []
      · rw [hnil', lineText, lineText, htext] at h
        obtain rfl : c = '\n' := (List.cons.inj h).1
        cases hc
      · obtain ⟨d, ds, htext', -⟩ := phraseText_cons hnil' hother
        rw [lineText, lineText, htext, htext'] at h
        rw [htext, htext']
        exact congrArg (' ' :: ·) h
  obtain ⟨rfl, hrest⟩ := phraseText_unambiguous ph other hph hother (hnewline r) (hnewline s) htext
  exact ⟨rfl, (List.cons.inj hrest).2⟩

/-- **Indented lines determine their phrases.** -/
theorem lines_unambiguous {lines more : List (List Char)} {phs others : List Phrase}
    (hlines : List.Forall₂ Indented lines phs) (hmore : List.Forall₂ Indented more others)
    (hphs : ∀ ph ∈ phs, PhrasePlain ph) (hothers : ∀ ph ∈ others, PhrasePlain ph)
    (h : lines.flatMap (· ++ ['\n']) = more.flatMap (· ++ ['\n'])) : phs = others := by
  induction hlines generalizing more others with
  | nil =>
    cases hmore with
    | nil => rfl
    | cons hline _ => simp at h
  | @cons line ph lines phs hline hlines ih =>
    cases hmore with
    | nil => simp at h
    | @cons line' other more others hline' hmore =>
      obtain ⟨blanks, hblanks, rfl⟩ := hline
      obtain ⟨blanks', hblanks', rfl⟩ := hline'
      have hph := hphs ph List.mem_cons_self
      have hother := hothers other List.mem_cons_self
      simp only [List.flatMap_cons, List.append_assoc, List.singleton_append] at h
      have htext := blanks_unambiguous hblanks hblanks' (starts_lineText hph _)
        (starts_lineText hother _) h
      obtain ⟨rfl, hrest⟩ := lineText_unambiguous hph hother htext
      rw [ih hmore (fun ph h => hphs ph (List.mem_cons_of_mem _ h))
        (fun ph h => hothers ph (List.mem_cons_of_mem _ h)) hrest]

end Vimgen.Script
