import Vimgen.Script.Literal

/-!
# String literals are read back

`readQuoted` reads a text up to the quote that ends it, as a script does: a backslash escapes a
backslash, a quote or one of three letters, and `x` with up to two hexadecimal digits stands for a
character by its code; there are no other escapes. `readQuoted_escaped` says that it undoes the
escapes of a literal and stops at its end, whatever follows. So literals delimit themselves
(`literal_selfDelimiting`).
-/

namespace Vimgen.Script

/-- The value of a hexadecimal digit. -/
def hexValue? (c : Char) : Option Nat :=
  if '0' ≤ c ∧ c ≤ '9' then some (c.toNat - '0'.toNat)
  else if 'a' ≤ c ∧ c ≤ 'f' then some (c.toNat - 'a'.toNat + 10)
  else if 'A' ≤ c ∧ c ≤ 'F' then some (c.toNat - 'A'.toNat + 10)
  else none

/-- The character that a backslash and another character stand for, if they are an escape. -/
def unescape? (c : Char) : Option Char :=
  if c = '\\' ∨ c = '"' then some c
  else if c = 'n' then some '\n'
  else if c = 'r' then some '\r'
  else if c = 't' then some '\t'
  else none

/-- One more character in front of what was read. -/
def withChar (c : Char) (read : Option (List Char × List Char)) : Option (List Char × List Char) :=
  read.map fun (content, rest) => (c :: content, rest)

/-- The content of a literal after its first quote, and what follows the last one. An `x` takes two
hexadecimal digits where it can, and is a plain letter where there is none. -/
def readQuoted : List Char → Option (List Char × List Char)
  | [] => none
  | '"' :: rest => some ([], rest)
  | '\\' :: 'x' :: a :: b :: rest =>
    match hexValue? a, hexValue? b with
    | some m, some n => withChar (Char.ofNat (16 * m + n)) (readQuoted rest)
    | some m, none => withChar (Char.ofNat m) (readQuoted (b :: rest))
    | none, _ => withChar 'x' (readQuoted (a :: b :: rest))
  | '\\' :: 'x' :: rest => withChar 'x' (readQuoted rest)
  | '\\' :: c :: rest => (unescape? c).bind fun d => withChar d (readQuoted rest)
  | ['\\'] => none
  | c :: rest => withChar c (readQuoted rest)

theorem hexValue?_digitChar {n : Nat} (h : n < 16) : hexValue? (Nat.digitChar n) = some n := by
  have hall : ∀ n < 16, hexValue? (Nat.digitChar n) = some n := by decide
  exact hall n h

/-- Two hexadecimal digits are read as the character they were written for. -/
theorem readQuoted_hexDigits {c : Char} (h : c.toNat < 128) (rest : List Char) :
    readQuoted ('\\' :: 'x' :: Text.hexDigits 2 c.toNat ++ rest) =
      withChar c (readQuoted rest) := by
  have hhigh := hexValue?_digitChar (n := c.toNat / 16 % 16) (by omega)
  have hlow := hexValue?_digitChar (n := c.toNat % 16) (by omega)
  have hvalue : 16 * (c.toNat / 16 % 16) + c.toNat % 16 = c.toNat := by omega
  simp only [Text.hexDigits, List.nil_append, List.cons_append, readQuoted, hhigh, hlow, hvalue,
    Char.ofNat_toNat]

theorem readQuoted_escapeChar (c : Char) (rest : List Char) :
    readQuoted (escapeChar c ++ rest) = withChar c (readQuoted rest) := by
  unfold escapeChar
  split
  · subst c; rfl
  split
  · subst c; rfl
  split
  · subst c; rfl
  split
  · subst c; rfl
  split
  · subst c; rfl
  split
  · rename_i hcontrol
    simp only [Bool.or_eq_true, decide_eq_true_eq] at hcontrol
    exact readQuoted_hexDigits (by omega) rest
  · -- every other character stands for itself, and neither ends the literal nor escapes
    rename_i hslash _ _ _ _ _
    simp [readQuoted, hslash]

/-- **A literal is read as its content**, and the reader stops where it ends. -/
theorem readQuoted_escaped (content rest : List Char) :
    readQuoted (content.flatMap escapeChar ++ '"' :: rest) = some (content, rest) := by
  induction content with
  | nil => rfl
  | cons c content ih =>
    rw [List.flatMap_cons, List.append_assoc, readQuoted_escapeChar, ih]
    rfl

/-! ## Literals at the front of a text -/

/-- Reads a literal at the front of a text: its content, and what follows its last character. -/
def readLiteral : List Char → Option (List Char × List Char)
  | '"' :: rest => readQuoted rest
  | _ => none

/-- The reader stops where a literal ends, **whatever follows**. -/
theorem readLiteral_literal (s : String) (rest : List Char) :
    readLiteral ((literal s).toList ++ rest) = some (s.toList, rest) := by
  have htext : (literal s).toList ++ rest =
      '"' :: (s.toList.flatMap escapeChar ++ '"' :: rest) := by
    simp [literal]
  rw [htext, readLiteral, readQuoted_escaped]

/-- A literal at the beginning of another one is all of it. -/
theorem eq_of_literal_begins {s t : String} (h : (literal s).toList <+: (literal t).toList) :
    s = t := by
  obtain ⟨rest, hrest⟩ := h
  have hread : readLiteral (literal t).toList = some (s.toList, rest) := by
    rw [← hrest, readLiteral_literal]
  have hother := readLiteral_literal t []
  rw [List.append_nil, hread] at hother
  exact String.toList_inj.1 (congrArg Prod.fst (Option.some.inj hother))

/-- Characters that are neither controls nor the delete character. -/
def isVisible (c : Char) : Bool := 0x20 ≤ c.toNat && c.toNat ≠ 0x7F

theorem isVisible_of_mem_hexDigits {width n : Nat} {d : Char} (h : d ∈ Text.hexDigits width n) :
    isVisible d = true := by
  have hdigits : ∀ k < 16, isVisible (Nat.digitChar k) = true := by decide
  induction width generalizing n with
  | zero => cases h
  | succ width ih =>
    rcases List.mem_append.1 h with h | h
    · exact ih h
    · rw [List.mem_singleton.1 h]
      exact hdigits (n % 16) (Nat.mod_lt n (by omega))

theorem isVisible_of_mem_escapeChar {c d : Char} (h : d ∈ escapeChar c) : isVisible d = true := by
  have hshort : ∀ cs : List Char, cs.all isVisible = true → d ∈ cs → isVisible d = true :=
    fun cs hcs hd => List.all_eq_true.1 hcs d hd
  unfold escapeChar at h
  split at h
  · exact hshort _ (by decide) h
  split at h
  · exact hshort _ (by decide) h
  split at h
  · exact hshort _ (by decide) h
  split at h
  · exact hshort _ (by decide) h
  split at h
  · exact hshort _ (by decide) h
  split at h
  · -- a control is spelled by its code
    rcases List.mem_cons.1 h with rfl | h
    · decide
    rcases List.mem_cons.1 h with rfl | h
    · decide
    exact isVisible_of_mem_hexDigits h
  · rename_i hcontrol
    simp only [Bool.or_eq_true, decide_eq_true_eq, not_or, Nat.not_lt] at hcontrol
    rw [List.mem_singleton.1 h]
    simp [isVisible, hcontrol]

theorem isVisible_of_mem_literal {s : String} {c : Char} (h : c ∈ (literal s).toList) :
    isVisible c = true := by
  rw [literal, String.toList_ofList, List.cons_append, List.mem_cons, List.mem_append,
    List.mem_flatMap, List.mem_singleton] at h
  rcases h with rfl | ⟨d, -, h⟩ | rfl
  · decide
  · exact isVisible_of_mem_escapeChar h
  · decide

/-- **Literals delimit themselves.** A literal stands between quotes and has no controls. Read as a
script reads it, with anything behind it, it gives its text, and the reader stops behind its last
character. So different texts have different literals, and none of these is the beginning of
another. -/
theorem literal_selfDelimiting (s : String) :
    (∃ inner, (literal s).toList = '"' :: inner ++ ['"']) ∧
    (∀ c ∈ (literal s).toList, 0x20 ≤ c.toNat ∧ c.toNat ≠ 0x7F) ∧
    (∀ rest, readLiteral ((literal s).toList ++ rest) = some (s.toList, rest)) ∧
    (∀ t, literal s = literal t ↔ s = t) ∧
    ∀ t, (literal s).toList <+: (literal t).toList ↔ s = t := by
  refine ⟨⟨s.toList.flatMap escapeChar, by rw [literal, String.toList_ofList]⟩, fun c hc => ?_,
    readLiteral_literal s, fun t => ⟨fun h => ?_, congrArg literal⟩,
    fun t => ⟨eq_of_literal_begins, fun h => ?_⟩⟩
  · have hvisible := isVisible_of_mem_literal hc
    simpa only [isVisible, Bool.and_eq_true, decide_eq_true_eq] using hvisible
  · apply eq_of_literal_begins
    exact h ▸ List.prefix_rfl
  · subst h
    exact List.prefix_rfl

/-- A control before a letter that is a digit too, and a backslash before a quote, with more such
characters behind the literal. -/
theorem literal_selfDelimiting_awkward :
    literal "\x01f\\\"" = "\"\\x01f\\\\\\\"\"" ∧
    'f' ∈ (literal "\x01f\\\"").toList ∧ 0x20 ≤ 'f'.toNat ∧
    readLiteral "\"\\x01f\\\\\\\"\"0\"".toList = some ("\x01f\\\"".toList, "0\"".toList) ∧
    ¬ (literal "\x01f\\").toList <+: (literal "\x01f\\\"").toList := by
  have hliteral : literal "\x01f\\\"" = "\"\\x01f\\\\\\\"\"" := by decide
  have hmem : 'f' ∈ (literal "\x01f\\\"").toList := by decide
  obtain ⟨-, hvisible, hread, -, -⟩ := literal_selfDelimiting "\x01f\\\""
  obtain ⟨-, -, -, -, hbegins⟩ := literal_selfDelimiting "\x01f\\"
  have hbehind := hread "0\"".toList
  rw [hliteral] at hbehind
  refine ⟨hliteral, hmem, (hvisible 'f' hmem).1, hbehind, fun h => ?_⟩
  exact absurd ((hbegins "\x01f\\\"").1 h) (by decide)

end Vimgen.Script
