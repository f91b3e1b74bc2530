import Vimgen.Proofs.ScriptLines

/-!
# The text of a script determines the script

A statement is told by its first word, and a block ends at the first line whose word cannot start a
statement. So the lines determine the statements, and indentation adds nothing to them.

* `blockMerged_eq_of_phrases`: the phrases of a block determine it, up to merging.
* `render_eq_iff_merged_eq`: well-placed scripts whose integers can be spelled have a text, and two
  of them have the same text exactly if they are the same up to merging.
-/

namespace Vimgen.Script

open Numeral (Spellable)

/-! ## Where blocks end -/

/-- Words that start a statement. -/
def openers : List String := ["let", "return", "call", "echo", "throw", "if", "function!"]

/-- Words that end a block. -/
def closers : List String := ["elseif", "else", "endif", "endfunction"]

/-- Lines from one on that starts with one of some words. -/
def StartsWith (words : List String) (phs : List Phrase) : Prop :=
  ∃ w ∈ words, ∃ ts rest, phs = (wordTerm w :: ts) :: rest

/-- What may stand behind a block: nothing, or a line that ends it. -/
def Closes (phs : List Phrase) : Prop := phs = [] ∨ StartsWith closers phs

theorem wordTerm_inj {s u : String} : wordTerm s = wordTerm u ↔ s = u := by
  simp only [wordTerm, List.cons.injEq, Piece.word.injEq, and_true, String.toList_inj]

theorem StartsWith.disjoint {words others : List String} {phs : List Phrase}
    (h : StartsWith words phs) (h' : StartsWith others phs) (hdisjoint : ∀ w ∈ words, w ∉ others) :
    False := by
  obtain ⟨w, hw, ts, rest, rfl⟩ := h
  obtain ⟨w', hw', ts', rest', heq⟩ := h'
  obtain rfl := wordTerm_inj.1 (List.cons.inj (List.cons.inj heq).1).1
  exact hdisjoint w hw hw'

theorem StartsWith.append {words : List String} {phs : List Phrase} (h : StartsWith words phs)
    (rest : List Phrase) : StartsWith words (phs ++ rest) := by
  obtain ⟨w, hw, ts, more, rfl⟩ := h
  exact ⟨w, hw, ts, more ++ rest, rfl⟩

/-- The word that a statement starts with. -/
def Stmt.keyword : Stmt → String
  | .bind _ _ | .assign _ _ => "let"
  | .ret _ => "return"
  | .call _ _ => "call"
  | .command verb _ => verb
  | .cond _ _ => "if"
  | .function _ _ _ => "function!"
  | .stray _ => ""

theorem Stmt.phrases_eq {s : Stmt} (h : s.isWellPlaced = true) :
    ∃ ts rest, s.phrases = (wordTerm s.keyword :: ts) :: rest := by
  cases s with
  | cond arms default =>
    cases arms with
    | nil => cases h
    | cons arm rest =>
      cases arm with
      | mk test body => exact ⟨_, _, rfl⟩
  | stray node => cases h
  | _ => exact ⟨_, _, rfl⟩

theorem Stmt.startsWith {s : Stmt} (h : s.isWellPlaced = true) : StartsWith openers s.phrases := by
  obtain ⟨ts, rest, hphrases⟩ := Stmt.phrases_eq h
  refine ⟨s.keyword, ?_, ts, rest, hphrases⟩
  cases s with
  | command verb arg =>
    have hall : ∀ c ∈ commands, c ∈ openers := by decide
    exact hall verb (mem_commands h)
  | stray node => cases h
  | _ => simp [Stmt.keyword, openers]

theorem Stmt.keyword_eq {s u : Stmt} (hs : s.isWellPlaced = true) (hu : u.isWellPlaced = true)
    {r r' : List Phrase} (h : s.phrases ++ r = u.phrases ++ r') : s.keyword = u.keyword := by
  obtain ⟨ts, rest, hphrases⟩ := Stmt.phrases_eq hs
  obtain ⟨ts', rest', hphrases'⟩ := Stmt.phrases_eq hu
  rw [hphrases, hphrases'] at h
  exact wordTerm_inj.1 (List.cons.inj (List.cons.inj h).1).1

/-- A block does not go on where it ends. -/
theorem Closes.not_stmt {s : Stmt} (h : s.isWellPlaced = true) {rest phs : List Phrase}
    (hphs : Closes phs) (heq : phs = s.phrases ++ rest) : False := by
  have hopen := (Stmt.startsWith h).append rest
  rw [← heq] at hopen
  rcases hphs with rfl | hclose
  · obtain ⟨_, _, _, _, hnil⟩ := hopen
    cases hnil
  · exact hopen.disjoint hclose (by decide)

theorem startsWith_defaultPhrases (default : Option (List Stmt)) (rest : List Phrase) :
    StartsWith ["else", "endif"] (defaultPhrases default ++ rest) := by
  cases default with
  | none => exact ⟨"endif", by decide, _, _, rfl⟩
  | some default => exact ⟨"else", by decide, _, _, rfl⟩

theorem StartsWith.mono {words others : List String} {phs : List Phrase} (h : StartsWith words phs)
    (hsub : ∀ w ∈ words, w ∈ others) : StartsWith others phs := by
  obtain ⟨w, hw, ts, rest, rfl⟩ := h
  exact ⟨w, hsub w hw, ts, rest, rfl⟩

theorem closes_armsPhrases (arms : List Arm) {rest : List Phrase}
    (h : StartsWith ["else", "endif"] rest) : Closes (armsPhrases arms ++ rest) := by
  refine .inr ?_
  cases arms with
  | nil => exact h.mono (by decide)
  | cons arm arms =>
    cases arm with
    | mk test body => exact ⟨"elseif", by decide, _, _, rfl⟩

/-! ## Statements are told by their first words -/

theorem Stmt.keyword_command_ne {word verb : String} {arg : Expr} (hword : word ∉ commands)
    (h : (Stmt.command verb arg).isWellPlaced = true) :
    word ≠ (Stmt.command verb arg).keyword := by
  rintro rfl
  exact hword (mem_commands h)

/-- A statement that starts with `let` is an assignment, or written and merged like one. -/
theorem Stmt.exists_assign {u : Stmt} (hu : u.isWellPlaced = true) (h : "let" = u.keyword) :
    ∃ target value, (Stmt.assign target value).isWellPlaced = true ∧
      u.phrases = (Stmt.assign target value).phrases ∧
      u.merged = (Stmt.assign target value).merged := by
  cases u with
  | bind name value => exact ⟨.name name, value, hu, rfl, rfl⟩
  | assign target value => exact ⟨target, value, hu, rfl, rfl⟩
  | command verb arg => exact absurd h (Stmt.keyword_command_ne (by decide) hu)
  | _ => simp [Stmt.keyword] at h

theorem Stmt.exists_ret {u : Stmt} (hu : u.isWellPlaced = true) (h : "return" = u.keyword) :
    ∃ value, u = .ret value := by
  cases u with
  | ret value => exact ⟨value, rfl⟩
  | command verb arg => exact absurd h (Stmt.keyword_command_ne (by decide) hu)
  | _ => simp [Stmt.keyword] at h

theorem Stmt.exists_call {u : Stmt} (hu : u.isWellPlaced = true) (h : "call" = u.keyword) :
    ∃ name args, u = .call name args := by
  cases u with
  | call name args => exact ⟨name, args, rfl⟩
  | command verb arg => exact absurd h (Stmt.keyword_command_ne (by decide) hu)
  | _ => simp [Stmt.keyword] at h

theorem Stmt.exists_command {u : Stmt} (hu : u.isWellPlaced = true) {verb : String}
    (hverb : verb ∈ commands) (h : verb = u.keyword) : ∃ arg, u = .command verb arg := by
  cases u with
  | command verb' arg =>
    obtain rfl : verb = verb' := h
    exact ⟨arg, rfl⟩
  | stray node => cases hu
  | _ => simp only [Stmt.keyword] at h; subst h; exact absurd hverb (by decide)

theorem Stmt.exists_cond {u : Stmt} (hu : u.isWellPlaced = true) (h : "if" = u.keyword) :
    ∃ test body rest default, u = .cond (.mk test body :: rest) default := by
  cases u with
  | cond arms default =>
    cases arms with
    | nil => cases hu
    | cons arm rest =>
      cases arm with
      | mk test body => exact ⟨test, body, rest, default, rfl⟩
  | command verb arg => exact absurd h (Stmt.keyword_command_ne (by decide) hu)
  | _ => simp [Stmt.keyword] at h

theorem Stmt.exists_function {u : Stmt} (hu : u.isWellPlaced = true)
    (h : "function!" = u.keyword) : ∃ name params body, u = .function name params body := by
  cases u with
  | function name params body => exact ⟨name, params, body, rfl⟩
  | command verb arg => exact absurd h (Stmt.keyword_command_ne (by decide) hu)
  | _ => simp [Stmt.keyword] at h

/-! ## Equal lines, equal statements -/

theorem assign_merged_eq {t t' : Target} {v v' : Expr} (ht : t.merged = t'.merged)
    (hv : v.merged = v'.merged) :
    (Stmt.assign t v).merged = (Stmt.assign t' v').merged := by
  cases t with
  | name n =>
    cases t' with
    | name n' =>
      obtain rfl : n = n' := Target.name.inj ht
      rw [Stmt.merged, Stmt.merged, hv]
    | item base projection => cases ht
    | stray node => cases ht
  | item base projection =>
    cases t' with
    | name n' => cases ht
    | item base' projection' => rw [Stmt.merged, Stmt.merged, ht, hv] <;> simp
    | stray node => cases ht
  | stray node =>
    cases t' with
    | name n' => cases ht
    | item base' projection' => cases ht
    | stray node' => rw [Stmt.merged, Stmt.merged, ht, hv] <;> simp

theorem assign_merged_eq_of_phrases {t t' : Target} {v v' : Expr} {r r' : List Phrase}
    (hs : (Stmt.assign t v).isWellPlaced = true) (hu : (Stmt.assign t' v').isWellPlaced = true)
    (h : (Stmt.assign t v).phrases ++ r = (Stmt.assign t' v').phrases ++ r') :
    (Stmt.assign t v).merged = (Stmt.assign t' v').merged ∧ r = r' := by
  simp only [Stmt.isWellPlaced, Bool.and_eq_true] at hs hu
  simp only [Stmt.phrases, List.cons_append, List.nil_append, List.cons.injEq, true_and,
    and_true] at h
  obtain ⟨⟨htarget, hvalue⟩, hrest⟩ := h
  exact ⟨assign_merged_eq (t.merged_eq_of_term t' hs.1 hu.1 htarget)
    (v.merged_eq_of_term v' hs.2 hu.2 hvalue), hrest⟩

theorem params_eq_of_parts {params others : List String}
    (h : paramParts params = paramParts others) : params = others := by
  refine List.map_injective_iff.2 ?_ h
  intro p q hpq
  exact wordTerm_inj.1 (List.cons.inj hpq).1

/-- A name and what is in brackets behind it. -/
theorem header_inj {name name' : ScopedName} (hname : name.isWellFormed = true)
    (hname' : name'.isWellFormed = true) {parts parts' : List Phrase}
    (h : wordTerm name.text ++ [.group .round parts] =
      wordTerm name'.text ++ [.group .round parts']) : name = name' ∧ parts = parts' := by
  obtain ⟨hword, hparts⟩ := List.append_inj' h rfl
  simp only [List.cons.injEq, Piece.group.injEq, true_and, and_true] at hparts
  have htext := congrArg String.toList (wordTerm_inj.1 hword)
  exact ⟨ScopedName.text_injective hname hname' htext, hparts⟩

mutual

/-- **The lines of a statement determine it and where it ends**, up to merging. -/
theorem Stmt.merged_eq_of_phrases : ∀ (s u : Stmt) {r r' : List Phrase}, s.isWellPlaced = true →
    u.isWellPlaced = true → s.phrases ++ r = u.phrases ++ r' → s.merged = u.merged ∧ r = r'
  | .bind name value, u, r, r', hs, hu, h => by
    obtain ⟨target, value', hwell, hphrases, hmerged⟩ :=
      Stmt.exists_assign hu (Stmt.keyword_eq hs hu h)
    rw [hphrases] at h
    rw [hmerged]
    exact assign_merged_eq_of_phrases (t := .name name) hs hwell h
  | .assign target value, u, r, r', hs, hu, h => by
    obtain ⟨target', value', hwell, hphrases, hmerged⟩ :=
      Stmt.exists_assign hu (Stmt.keyword_eq hs hu h)
    rw [hphrases] at h
    rw [hmerged]
    exact assign_merged_eq_of_phrases hs hwell h
  | .ret value, u, r, r', hs, hu, h => by
    obtain ⟨value', rfl⟩ := Stmt.exists_ret hu (Stmt.keyword_eq hs hu h)
    simp only [Stmt.phrases, List.cons_append, List.nil_append, List.cons.injEq, true_and,
      and_true] at h
    rw [Stmt.merged, Stmt.merged, value.merged_eq_of_term value' hs hu h.1]
    exact ⟨rfl, h.2⟩
  | .call name args, u, r, r', hs, hu, h => by
    obtain ⟨name', args', rfl⟩ := Stmt.exists_call hu (Stmt.keyword_eq hs hu h)
    simp only [Stmt.isWellPlaced, Bool.and_eq_true] at hs hu
    simp only [Stmt.phrases, List.cons_append, List.nil_append, List.cons.injEq, true_and,
      and_true] at h
    obtain ⟨hname, hparts⟩ := header_inj hs.1 hu.1 h.1
    rw [Stmt.merged, Stmt.merged, exprsMerged_eq_of_parts args args' hs.2 hu.2 hparts, hname]
    exact ⟨rfl, h.2⟩
  | .command verb arg, u, r, r', hs, hu, h => by
    obtain ⟨arg', rfl⟩ := Stmt.exists_command hu (mem_commands hs) (Stmt.keyword_eq hs hu h)
    simp only [Stmt.isWellPlaced, Bool.and_eq_true] at hs hu
    simp only [Stmt.phrases, List.cons_append, List.nil_append, List.cons.injEq, true_and,
      and_true] at h
    rw [Stmt.merged, Stmt.merged, arg.merged_eq_of_term arg' hs.2 hu.2 h.1]
    exact ⟨rfl, h.2⟩
  | .cond [] _, _, _, _, hs, _, _ => by cases hs
  | .cond (.mk test body :: rest) default, u, r, r', hs, hu, h => by
    obtain ⟨test', body', rest', default', rfl⟩ :=
      Stmt.exists_cond hu (Stmt.keyword_eq hs hu h)
    obtain ⟨htest, hbody, hrest, hdefault⟩ := cond_wellPlaced hs
    obtain ⟨htest', hbody', hrest', hdefault'⟩ := cond_wellPlaced hu
    simp only [Stmt.phrases, List.cons_append, List.append_assoc, List.cons.injEq, true_and,
      and_true] at h
    have hr := startsWith_defaultPhrases default r
    have hr' := startsWith_defaultPhrases default' r'
    -- the body ends at the next arm or the default, the arms end at the default
    obtain ⟨hbodies, htail⟩ := blockMerged_eq_of_phrases body body' hbody hbody'
      (closes_armsPhrases rest hr) (closes_armsPhrases rest' hr') h.2
    obtain ⟨harms, hends⟩ := armsMerged_eq_of_phrases rest rest' hrest hrest' hr hr' htail
    obtain ⟨hdefaults, hrests⟩ :=
      defaultMerged_eq_of_phrases default default' hdefault hdefault' hends
    rw [Stmt.merged, Stmt.merged, armsMerged, armsMerged,
      test.merged_eq_of_term test' htest htest' h.1, hbodies, harms, hdefaults]
    exact ⟨rfl, hrests⟩
  | .function name params body, u, r, r', hs, hu, h => by
    obtain ⟨name', params', body', rfl⟩ := Stmt.exists_function hu (Stmt.keyword_eq hs hu h)
    simp only [Stmt.isWellPlaced, Bool.and_eq_true] at hs hu
    simp only [Stmt.phrases, List.cons_append, List.append_assoc, List.cons.injEq, true_and,
      and_true] at h
    obtain ⟨hname, hparts⟩ := header_inj hs.1.1 hu.1.1 h.1
    have hend : ∀ more, Closes ([[wordTerm "endfunction"], []] ++ more) :=
      fun more => .inr ⟨"endfunction", by decide, _, _, rfl⟩
    obtain ⟨hbody, hrest⟩ := blockMerged_eq_of_phrases body body' hs.2 hu.2 (hend r) (hend r') h.2
    rw [Stmt.merged, Stmt.merged, hbody, params_eq_of_parts hparts, hname]
    exact ⟨rfl, List.append_cancel_left hrest⟩
  | .stray _, _, _, _, hs, _, _ => by cases hs

/-- The lines of a block determine it, before anything that ends it. -/
theorem blockMerged_eq_of_phrases : ∀ (b c : List Stmt) {r r' : List Phrase},
    blockWellPlaced b = true → blockWellPlaced c = true → Closes r → Closes r' →
    blockPhrases b ++ r = blockPhrases c ++ r' → blockMerged b = blockMerged c ∧ r = r'
  | [], [], r, r', _, _, _, _, h => ⟨rfl, h⟩
  | [], u :: c, r, r', _, hc, hr, _, h => by
    simp only [blockWellPlaced, Bool.and_eq_true] at hc
    rw [blockPhrases, blockPhrases, List.append_assoc] at h
    exact (hr.not_stmt hc.1 h).elim
  | s :: b, [], r, r', hb, _, _, hr', h => by
    simp only [blockWellPlaced, Bool.and_eq_true] at hb
    rw [blockPhrases, blockPhrases, List.append_assoc] at h
    exact (hr'.not_stmt hb.1 h.symm).elim
  | s :: b, u :: c, r, r', hb, hc, hr, hr', h => by
    simp only [blockWellPlaced, Bool.and_eq_true] at hb hc
    rw [blockPhrases, blockPhrases, List.append_assoc, List.append_assoc] at h
    obtain ⟨hfirst, htail⟩ := s.merged_eq_of_phrases u hb.1 hc.1 h
    obtain ⟨hblock, hrest⟩ := blockMerged_eq_of_phrases b c hb.2 hc.2 hr hr' htail
    rw [blockMerged, blockMerged, hfirst, hblock]
    exact ⟨rfl, hrest⟩

theorem armsMerged_eq_of_phrases : ∀ (arms others : List Arm) {r r' : List Phrase},
    armsWellPlaced arms = true → armsWellPlaced others = true → StartsWith ["else", "endif"] r →
    StartsWith ["else", "endif"] r' → armsPhrases arms ++ r = armsPhrases others ++ r' →
    armsMerged arms = armsMerged others ∧ r = r'
  | [], [], r, r', _, _, _, _, h => ⟨rfl, h⟩
  | [], .mk test body :: others, r, r', _, _, hr, _, h => by
    have hword : StartsWith ["elseif"] r := ⟨"elseif", List.mem_cons_self, _, _, h⟩
    exact (hr.disjoint hword (by decide)).elim
  | .mk test body :: arms, [], r, r', _, _, _, hr', h => by
    have hword : StartsWith ["elseif"] r' := ⟨"elseif", List.mem_cons_self, _, _, h.symm⟩
    exact (hr'.disjoint hword (by decide)).elim
  | .mk test body :: arms, .mk test' body' :: others, r, r', ha, ho, hr, hr', h => by
    simp only [armsWellPlaced, Bool.and_eq_true] at ha ho
    simp only [armsPhrases, List.cons_append, List.append_assoc, List.cons.injEq, true_and,
      and_true] at h
    obtain ⟨hbody, htail⟩ := blockMerged_eq_of_phrases body body' ha.1.2 ho.1.2
      (closes_armsPhrases arms hr) (closes_armsPhrases others hr') h.2
    obtain ⟨harms, hrest⟩ := armsMerged_eq_of_phrases arms others ha.2 ho.2 hr hr' htail
    rw [armsMerged, armsMerged, test.merged_eq_of_term test' ha.1.1 ho.1.1 h.1, hbody, harms]
    exact ⟨rfl, hrest⟩

theorem defaultMerged_eq_of_phrases : ∀ (d d' : Option (List Stmt)) {r r' : List Phrase},
    defaultWellPlaced d = true → defaultWellPlaced d' = true →
    defaultPhrases d ++ r = defaultPhrases d' ++ r' → defaultMerged d = defaultMerged d' ∧ r = r'
  | none, none, r, r', _, _, h => ⟨rfl, List.append_cancel_left h⟩
  | none, some b, r, r', _, _, h => by simp [defaultPhrases, wordTerm] at h
  | some b, none, r, r', _, _, h => by simp [defaultPhrases, wordTerm] at h
  | some b, some b', r, r', hd, hd', h => by
    simp only [defaultPhrases, List.cons_append, List.append_assoc, List.cons.injEq, true_and] at h
    have hend : ∀ more, Closes ([[wordTerm "endif"]] ++ more) :=
      fun more => .inr ⟨"endif", by decide, _, _, rfl⟩
    obtain ⟨hblock, hrest⟩ := blockMerged_eq_of_phrases b b' hd hd' (hend r) (hend r') h
    rw [defaultMerged, defaultMerged, hblock]
    exact ⟨rfl, List.append_cancel_left hrest⟩

end

/-! ## Scripts -/

theorem Line.Shows.indented {line : Line} {ph : Phrase} (h : line.Shows ph) :
    Indented (line.write defaultIndent 0).toList ph := by
  cases line with
  | text depth content =>
    refine ⟨(indentation defaultIndent (0 + depth)).toList, ?_, ?_⟩
    · intro c hc
      simp only [indentation, defaultIndent, String.toList_join, List.mem_flatMap,
        List.mem_replicate] at hc
      obtain ⟨s, ⟨-, rfl⟩, hc⟩ := hc
      simpa using hc
    · rw [Line.write, String.toList_append, show content.toList = lineText ph from h]
  | blank =>
    obtain rfl : ph = [] := h
    exact ⟨[], List.forall_mem_nil _, rfl⟩

/-- A text has a line even if there are none. -/
theorem toList_joinLines (lines : List String) :
    (joinLines lines).toList =
      ((if lines = [] then [""] else lines).map String.toList).flatMap (· ++ ['\n']) := by
  rw [joinLines, String.toList_append, String.toList_intercalate]
  induction lines with
  | nil => rfl
  | cons line lines ih =>
    cases lines with
    | nil => simp
    | cons next lines =>
      simp only [List.cons_ne_nil, if_false, List.map_cons, List.flatMap_cons,
        List.intercalate_cons_cons, List.append_assoc] at ih ⊢
      rw [ih]
      rfl

/-- The text of a script is that of its phrases. -/
theorem lines_of_render {p : Program} {text : String} (h : p.render defaultIndent = .ok text) :
    ∃ lines : List String, joinLines lines = text ∧
      List.Forall₂ (fun line ph => Indented line.toList ph) lines (blockPhrases p.items) := by
  obtain ⟨hhalt, htext⟩ := render_eq_ok_iff.1 h
  refine ⟨_, htext, ?_⟩
  rw [List.forall₂_map_left_iff]
  exact (blockDraft_shows p.items hhalt).imp fun _ _ hline => hline.indented

/-- Lines as they are joined: an empty one if there are none. -/
def joined (phs : List Phrase) : List Phrase := if phs = [] then [[]] else phs

theorem indented_joined {lines : List String} {phs : List Phrase}
    (h : List.Forall₂ (fun line ph => Indented line.toList ph) lines phs) :
    List.Forall₂ Indented ((if lines = [] then [""] else lines).map String.toList)
      (joined phs) := by
  cases h with
  | nil => exact .cons ⟨[], List.forall_mem_nil _, rfl⟩ .nil
  | cons hline hlines =>
    simp only [joined, List.cons_ne_nil, if_false]
    exact List.forall₂_map_left_iff.2 (.cons hline hlines)

/-- The first line of a block is not empty, so joining does not hide whether there are any. -/
theorem joined_injective {b c : List Stmt} (hb : blockWellPlaced b = true)
    (hc : blockWellPlaced c = true) (h : joined (blockPhrases b) = joined (blockPhrases c)) :
    blockPhrases b = blockPhrases c := by
  have notBlank : ∀ {d : List Stmt}, blockWellPlaced d = true → blockPhrases d ≠ [[]] := by
    intro d hd heq
    cases d with
    | nil => cases heq
    | cons s d =>
      simp only [blockWellPlaced, Bool.and_eq_true] at hd
      obtain ⟨ts, rest, hphrases⟩ := Stmt.phrases_eq hd.1
      rw [blockPhrases, hphrases] at heq
      cases (List.cons.inj heq).1
  unfold joined at h
  split at h
  · rename_i hnil
    split at h
    · rename_i hnil'
      rw [hnil, hnil']
    · exact absurd h.symm (notBlank hc)
  · split at h
    · exact absurd h (notBlank hb)
    · exact h

theorem joined_plain {b : List Stmt} (h : blockWellPlaced b = true) :
    ∀ ph ∈ joined (blockPhrases b), PhrasePlain ph := by
  unfold joined
  split
  · exact List.forall_mem_singleton.2 trivial
  · exact blockPhrasesPlain b h

/-- **A text has one script, up to merging.** -/
theorem merged_eq_of_render {p q : Program} (hp : p.isWellPlaced = true)
    (hq : q.isWellPlaced = true) {text : String} (hrender : p.render defaultIndent = .ok text)
    (hrender' : q.render defaultIndent = .ok text) : p.merged = q.merged := by
  obtain ⟨lines, hjoin, hlines⟩ := lines_of_render hrender
  obtain ⟨others, hjoin', hothers⟩ := lines_of_render hrender'
  have htext := congrArg String.toList (hjoin.trans hjoin'.symm)
  rw [toList_joinLines, toList_joinLines] at htext
  have hphrases : blockPhrases p.items = blockPhrases q.items :=
    joined_injective hp hq (lines_unambiguous (indented_joined hlines) (indented_joined hothers)
      (joined_plain hp) (joined_plain hq) htext)
  have hblocks : blockPhrases p.items ++ [] = blockPhrases q.items ++ [] := by rw [hphrases]
  obtain ⟨hmerged, -⟩ :=
    blockMerged_eq_of_phrases p.items q.items hp hq (.inl rfl) (.inl rfl) hblocks
  rw [Program.merged, Program.merged, hmerged]

/-- **The text of a script determines it up to merging**, and nothing more is lost. A well-placed
script has a text if its integers can be spelled, and otherwise fails because of their digits; and
another one has the same text exactly if the two differ only in how additions and assignments are
spelled. -/
theorem render_eq_iff_merged_eq {p q : Program} (hp : p.isWellPlaced = true)
    (hq : q.isWellPlaced = true) :
    (p.Renderable Spellable → ∃ text, p.render defaultIndent = .ok text) ∧
      (¬p.Renderable Spellable → p.render defaultIndent = .error .digits) ∧
      ∀ text, p.render defaultIndent = .ok text →
        (q.render defaultIndent = .ok text ↔ p.merged = q.merged) := by
  refine ⟨fun h => ?_, fun h => ?_, fun text htext => ⟨fun h => ?_, fun h => ?_⟩⟩
  · rcases h.render_cases defaultIndent with ⟨-, htext⟩ | ⟨⟨n, hspell, hlong⟩, -⟩
    · exact htext
    · exact absurd hspell hlong
  · have hrenderable : p.Renderable fun _ => True := renderable_of_blockWellPlaced p.items hp
    rcases hrenderable.render_cases defaultIndent with ⟨hspell, -⟩ | ⟨-, herror⟩
    · exact absurd hspell h
    · exact herror
  · exact merged_eq_of_render hp hq htext h
  · rw [← render_merged, ← h, render_merged, htext]

/-- A function that extends a list: by an operator of choice, and bound or assigned to by choice. -/
def extendScript (op : BinOp) (store : ScopedName → Expr → Stmt) : Program :=
  let result : ScopedName := ⟨.local, "xs"⟩
  ⟨[.function ⟨.script, "extend"⟩ ["x", "rest"]
      [.cond
        [.mk (.binary .lt (.apply (.ref ⟨.builtin, "len"⟩) [.ref ⟨.argument, "x"⟩]) (.int (-1))) [],
          .mk (.ref ⟨.argument, "rest"⟩) [.command "echo" (.str "no \"rest\"\n")]]
        (some
          [store result (.binary op (.list [.ref ⟨.argument, "x"⟩]) (.ref ⟨.argument, "rest"⟩))]),
        .assign (.item (.name result) (.single (.int 0))) (.proj (.ref result) (.onward (.int 1))),
        .ret (.ref result)],
    .call ⟨.script, "extend"⟩ [.list [], .list [.int 1, .int 2]]]⟩

/-- The two spellings of addition and of assignment together, which no text tells apart. -/
theorem render_eq_iff_merged_eq_extend :
    let p := extendScript .listConcat fun name value => .assign (.name name) value
    let q := extendScript .add .bind
    p.isWellPlaced = true ∧ q.isWellPlaced = true ∧
      ∃ text, p.render defaultIndent = .ok text ∧ q.render defaultIndent = .ok text := by
  intro p q
  have hp : p.isWellPlaced = true := by decide
  have hq : q.isWellPlaced = true := by decide
  obtain ⟨hspelled, -, hiff⟩ := render_eq_iff_merged_eq hp hq
  have hsmall : Spellable (-1) ∧ Spellable 0 ∧ Spellable 1 ∧ Spellable 2 := by decide
  have hrenderable : p.Renderable Spellable := by
    simp [p, extendScript, Program.Renderable, blockRenderable, Stmt.Renderable, armsRenderable,
      defaultRenderable, Target.Renderable, Expr.Renderable, Projection.Renderable, exprsRenderable,
      hsmall]
  obtain ⟨text, htext⟩ := hspelled hrenderable
  exact ⟨hp, hq, text, htext, (hiff text htext).2 rfl⟩

end Vimgen.Script
