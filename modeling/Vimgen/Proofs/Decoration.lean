import Mathlib.Data.List.Forall2
import Vimgen.Diagnostic
import Vimgen.Proofs.Numeral

/-!
# Colour is decoration

A control sequence is an escape character, a bracket, digits and semicolons, and an `m`;
`stripSequences` deletes all of them from a text. `Decorates colored plain` says that what is left
of `colored`, whatever follows it, is `plain`, which has no escape character itself. It holds of
every piece of a diagnostic and is kept when pieces are put together, so the coloured form of
diagnostics is their plain form with control sequences in between (`colour_is_decoration`).
-/

namespace Vimgen

/-! ## Deleting control sequences -/

/-- Characters between the bracket of a control sequence and its end. -/
def isParameterChar (c : Char) : Bool := c.isDigit || c = ';'

/-- What follows the control sequence at the front of a text, if there is one. -/
def afterSequence? : List Char → Option (List Char)
  | '\x1b' :: '[' :: rest =>
    match rest.dropWhile isParameterChar with
    | 'm' :: tail => some tail
    | _ => none
  | _ => none

theorem length_afterSequence? {cs tail : List Char} (h : afterSequence? cs = some tail) :
    tail.length < cs.length := by
  unfold afterSequence? at h
  split at h
  · rename_i rest
    split at h
    · rename_i hdrop
      cases h
      have hle := (List.dropWhile_suffix isParameterChar (l := rest)).length_le
      rw [hdrop, List.length_cons] at hle
      simp only [List.length_cons]
      omega
    · cases h
  · cases h

/-- The characters of a text that belong to no control sequence. -/
def stripChars : List Char → List Char
  | [] => []
  | c :: rest =>
    match _h : afterSequence? (c :: rest) with
    | some tail => stripChars tail
    | none => c :: stripChars rest
termination_by cs => cs.length
decreasing_by
  · exact length_afterSequence? ‹_›
  · simp

/-- A text without its control sequences. -/
def stripSequences (s : String) : String := String.ofList (stripChars s.toList)

theorem stripChars_cons {c : Char} (h : c ≠ '\x1b') (rest : List Char) :
    stripChars (c :: rest) = c :: stripChars rest := by
  have hnone : afterSequence? (c :: rest) = none := by
    unfold afterSequence?
    split
    · rename_i heq
      exact absurd (List.cons.inj heq).1 h
    · rfl
  rw [stripChars]
  split
  · rename_i hsome
    rw [hnone] at hsome
    cases hsome
  · rfl

/-- A control sequence is deleted, and the text behind it is stripped as if it stood alone. -/
theorem stripChars_sequence {parameter : List Char}
    (h : ∀ c ∈ parameter, isParameterChar c = true) (rest : List Char) :
    stripChars ('\x1b' :: '[' :: (parameter ++ 'm' :: rest)) = stripChars rest := by
  have hdrop : (parameter ++ 'm' :: rest).dropWhile isParameterChar = 'm' :: rest := by
    rw [List.dropWhile_append_of_pos h]
    exact List.dropWhile_cons_of_neg (by decide)
  have hsome : afterSequence? ('\x1b' :: '[' :: (parameter ++ 'm' :: rest)) = some rest := by
    simp only [afterSequence?, hdrop]
  rw [stripChars]
  split
  · rename_i heq
    rw [hsome] at heq
    cases heq
    rfl
  · rename_i heq
    rw [hsome] at heq
    cases heq

/-! ## Decorated texts -/

/-- A text in which no control sequence begins. -/
def NoEscape (s : String) : Prop := '\x1b' ∉ s.toList

instance (s : String) : Decidable (NoEscape s) := inferInstanceAs (Decidable (_ ∉ _))

theorem noEscape_append {s t : String} (hs : NoEscape s) (ht : NoEscape t) : NoEscape (s ++ t) := by
  unfold NoEscape at *
  rw [String.toList_append, List.mem_append]
  exact fun h => h.elim hs ht

/-- The first text is the second one with control sequences in between. -/
structure Decorates (colored plain : String) : Prop where
  strip : ∀ rest, stripChars (colored.toList ++ rest) = plain.toList ++ stripChars rest
  noEscape : NoEscape plain

namespace Decorates

theorem stripSequences_eq {colored plain : String} (h : Decorates colored plain) :
    stripSequences colored = plain := by
  have hstrip := h.strip []
  rw [List.append_nil, stripChars, List.append_nil] at hstrip
  rw [stripSequences, hstrip, String.ofList_toList]

theorem append {a b c d : String} (hab : Decorates a b) (hcd : Decorates c d) :
    Decorates (a ++ c) (b ++ d) := by
  refine ⟨fun rest => ?_, noEscape_append hab.noEscape hcd.noEscape⟩
  rw [String.toList_append, List.append_assoc, hab.strip, hcd.strip, String.toList_append,
    List.append_assoc]

/-- A text without escape characters decorates itself. -/
theorem plain {s : String} (h : NoEscape s) : Decorates s s := by
  refine ⟨fun rest => ?_, h⟩
  have hall : ∀ c ∈ s.toList, c ≠ '\x1b' := fun c hc heq => h (heq ▸ hc)
  generalize s.toList = cs at hall
  induction cs with
  | nil => rfl
  | cons c cs ih =>
    rw [List.cons_append, stripChars_cons (hall c List.mem_cons_self),
      ih fun d hd => hall d (List.mem_cons_of_mem _ hd), List.cons_append]

/-- A control sequence decorates nothing. -/
theorem sequence {parameter : String} (h : parameter.toList.all isParameterChar = true) :
    Decorates (controlSequence parameter) "" := by
  refine ⟨fun rest => ?_, by decide⟩
  have htext : (controlSequence parameter).toList ++ rest =
      '\x1b' :: '[' :: (parameter.toList ++ 'm' :: rest) := by
    simp [controlSequence]
  rw [htext, stripChars_sequence (List.all_eq_true.1 h)]
  rfl

theorem styles (ss : List Style) :
    Decorates (String.join (ss.map fun s => controlSequence s.parameter)) "" := by
  induction ss with
  | nil => exact plain (by decide)
  | cons s ss ih =>
    have hstyle : Decorates (controlSequence s.parameter) "" := by
      apply sequence
      cases s <;> decide
    have hcons := hstyle.append ih
    rwa [List.map_cons, String.join_cons]

/-- **A styled text decorates the same text without style.** -/
theorem styled (ss : List Style) {text : String} (h : NoEscape text) :
    Decorates (styled true ss text) (styled false ss text) := by
  have hreset : Decorates (controlSequence "0") "" := sequence (by decide)
  have hall := ((styles ss).append (plain h)).append hreset
  rwa [String.empty_append, String.append_empty] at hall

/-- Texts that are put together with a separator between them. -/
theorem intercalate {sep : String} (hsep : NoEscape sep) {cs ps : List String}
    (h : List.Forall₂ Decorates cs ps) :
    Decorates (String.intercalate sep cs) (String.intercalate sep ps) := by
  induction h with
  | nil =>
    rw [String.intercalate_nil]
    exact plain (by decide)
  | @cons c p cs ps hc hrest ih =>
    cases hrest with
    | nil => simpa using hc
    | cons hd hrest =>
      rw [String.intercalate_cons_cons, String.intercalate_cons_cons]
      exact (hc.append (plain hsep)).append ih

end Decorates

/-! ## Diagnostics -/

namespace Diagnostic

/-- The texts that are reported in a diagnostic. -/
def texts (d : Diagnostic) : List String :=
  d.message :: [d.definition, d.code, d.help, d.note].filterMap id

/-- No text of the diagnostic has an escape character. -/
def NoEscapes (d : Diagnostic) : Prop := ∀ s ∈ d.texts, NoEscape s

instance (d : Diagnostic) : Decidable d.NoEscapes := inferInstanceAs (Decidable (∀ s ∈ _, _))

theorem eq_some_of_nonempty? {field : Option String} {s : String} (h : nonempty? field = some s) :
    field = some s := by
  cases field with
  | none => cases h
  | some t =>
    rw [nonempty?] at h
    split at h
    · cases h
    · exact h

section

variable {d : Diagnostic} (hd : d.NoEscapes)

include hd

theorem noEscape_field {field : Option String} {s : String}
    (hfield : field ∈ [d.definition, d.code, d.help, d.note]) (h : nonempty? field = some s) :
    NoEscape s := by
  apply hd
  rw [eq_some_of_nonempty? h] at hfield
  exact List.mem_cons_of_mem _ (List.mem_filterMap.2 ⟨some s, hfield, rfl⟩)

theorem headline_decorates : Decorates (d.headline true) (d.headline false) := by
  have hmessage : NoEscape d.message := hd _ List.mem_cons_self
  have hcode : NoEscape (((nonempty? d.code).map fun c => "[" ++ c ++ "]").getD "") := by
    cases hcode : nonempty? d.code with
    | none => decide
    | some c =>
      have hc := noEscape_field hd (by simp) hcode
      exact noEscape_append (noEscape_append (by decide) hc) (by decide)
  exact (Decorates.styled _ (noEscape_append (by decide) hcode)).append
    (.styled _ (noEscape_append (by decide) hmessage))

theorem place_decorates : Decorates (d.place true) (d.place false) := by
  have hwhere : NoEscape
      (((nonempty? d.definition).map fun n => s!"in definition `{n}`").getD
        "<unknown definition>") := by
    cases hdefinition : nonempty? d.definition with
    | none => decide
    | some n =>
      have hn := noEscape_field hd (by simp) hdefinition
      exact noEscape_append (noEscape_append (by decide) hn) (by decide)
  exact (Decorates.styled _ (by decide)).append (.plain hwhere)

omit hd in
theorem remark_decorates {label text : String} (hlabel : NoEscape label) (htext : NoEscape text) :
    Decorates (remark true label text) (remark false label text) :=
  ((Decorates.styled _ (by decide)).append (.styled _ hlabel)).append (.plain htext)

theorem remarks_decorate : List.Forall₂ Decorates (d.remarks true) (d.remarks false) := by
  have hbar : Decorates (styled true [.bold, .blue] "  |") (styled false [.bold, .blue] "  |") :=
    .styled _ (by decide)
  -- a label and a field of the diagnostic, which may be absent or empty
  have hfield : ∀ label field, NoEscape label → field ∈ [d.definition, d.code, d.help, d.note] →
      List.Forall₂ Decorates ((nonempty? field).map (remark true label)).toList
        ((nonempty? field).map (remark false label)).toList := by
    intro label field hlabel hmem
    cases hpresent : nonempty? field with
    | none => exact .nil
    | some s => exact .cons (remark_decorates hlabel (noEscape_field hd hmem hpresent)) .nil
  have hlines : List.Forall₂ Decorates (_ ++ _) (_ ++ _) :=
    List.rel_append (hfield "help: " d.help (by decide) (by simp))
      (hfield "note: " d.note (by decide) (by simp))
  unfold remarks
  dsimp only
  generalize ((nonempty? d.help).map (remark true "help: ")).toList ++
    ((nonempty? d.note).map (remark true "note: ")).toList = colored at hlines ⊢
  generalize ((nonempty? d.help).map (remark false "help: ")).toList ++
    ((nonempty? d.note).map (remark false "note: ")).toList = plain at hlines ⊢
  cases hlines with
  | nil => exact .nil
  | cons hfirst hrest => exact .cons hbar (.cons hfirst hrest)

/-- **A diagnostic in colour decorates the plain one.** -/
theorem format_decorates : Decorates (d.format true) (d.format false) :=
  .intercalate (by decide)
    (.cons (headline_decorates hd) (.cons (place_decorates hd) (remarks_decorate hd)))

end

theorem total_decorates (count : Nat) : Decorates (total true count) (total false count) := by
  have hcount : NoEscape (toString count) := by
    intro h
    have hrepr : (toString count).toList = Nat.toDigits 10 count := Nat.toList_repr
    rw [hrepr] at h
    exact absurd (Numeral.isDigit_of_mem_toDigits h) (by decide)
  have hplural : NoEscape (toString (if count = 1 then "" else "s")) := by
    split <;> decide
  have hsummary := noEscape_append (noEscape_append (noEscape_append
    (s := ": aborting due to ") (by decide) hcount) (t := " previous error") (by decide)) hplural
  exact (Decorates.styled _ (by decide)).append (.styled _ hsummary)

theorem formatAll_decorates {ds : List Diagnostic} (h : ∀ d ∈ ds, d.NoEscapes) :
    Decorates (formatAll true ds) (formatAll false ds) := by
  apply Decorates.intercalate (by decide)
  apply List.rel_append
  · rw [List.forall₂_map_left_iff, List.forall₂_map_right_iff, List.forall₂_same]
    exact fun d hd => format_decorates (h d hd)
  · exact .cons (total_decorates ds.length) .nil

/-- **Colour is pure decoration.** If no text that is reported has an escape character, then
deleting the control sequences from the coloured diagnostics gives the plain ones, all together and
each on its own, and the plain ones have no escape character. -/
theorem colour_is_decoration (ds : List Diagnostic) (h : ∀ d ∈ ds, d.NoEscapes) :
    (stripSequences (formatAll true ds) = formatAll false ds ∧
      '\x1b' ∉ (formatAll false ds).toList) ∧
    ∀ d ∈ ds, stripSequences (d.format true) = d.format false ∧
      '\x1b' ∉ (d.format false).toList := by
  have hall := formatAll_decorates h
  refine ⟨⟨hall.stripSequences_eq, hall.noEscape⟩, fun d hd => ?_⟩
  have hone := format_decorates (h d hd)
  exact ⟨hone.stripSequences_eq, hone.noEscape⟩

/-- Brackets, digits and an `m` right behind control sequences, and fields that are empty or
absent. -/
def bracketed : Diagnostic :=
  { message := "[31m1;0m", definition := some "m", code := some "", help := some "[0m" }

theorem colour_is_decoration_bracketed :
    (∀ d ∈ [bracketed], d.NoEscapes) ∧
    formatAll true [bracketed] ≠ formatAll false [bracketed] ∧
    stripSequences (formatAll true [bracketed]) =
      "error: [31m1;0m\n --> in definition `m`\n  |\n  = help: [0m\n\n" ++
        "error: aborting due to 1 previous error" ∧
    stripSequences (bracketed.format true) =
      "error: [31m1;0m\n --> in definition `m`\n  |\n  = help: [0m" := by
  have hfields : ∀ d ∈ [bracketed], d.NoEscapes := by decide
  obtain ⟨⟨hall, hplain⟩, heach⟩ := colour_is_decoration [bracketed] hfields
  obtain ⟨hone, -⟩ := heach bracketed List.mem_cons_self
  refine ⟨hfields, fun hsame => ?_, ?_, ?_⟩
  · rw [← hsame] at hplain
    exact hplain (by decide +kernel)
  · rw [hall]
    decide
  · rw [hone]
    decide

end Diagnostic

end Vimgen
