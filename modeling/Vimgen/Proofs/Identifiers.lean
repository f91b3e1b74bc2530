import Vimgen.Proofs.Linking
import Vimgen.Proofs.ScriptTerms

/-!
# Identifiers

A name that is spelled has letters, digits and underscores only. A slot is written as it is, with
its number, and is an identifier exactly if the number has no sign. Nothing else becomes a name with
a scope, so `lowerProgram_identifiers`: in the script of a program all names with a scope are
identifiers, except those of slots with negative numbers.
-/

namespace Vimgen

open Script (isBaseName isBaseName_iff isNameChar isNameChar_of_isDigit)

theorem isNameChar_of_mem_mangleChar {c d : Char} (h : d ∈ mangleChar c) : isNameChar d = true := by
  unfold mangleChar at h
  split at h
  · rename_i hplain
    have halnum : c.isAlphanum = true := hplain
    rw [List.mem_singleton.1 h, isNameChar, halnum, Bool.true_or]
  · rcases List.mem_append.1 h with h | h
    · rcases List.mem_cons.1 h with rfl | h
      · decide
      · exact isNameChar_of_isDigit (Numeral.isDigit_of_mem_toDigits h)
    · rw [List.mem_singleton.1 h]
      decide

/-- **Every text is spelled as an identifier.** -/
theorem isBaseName_mangle (s : String) : isBaseName (mangle s) = true := by
  rw [isBaseName_iff, mangle, String.toList_append, String.toList_ofList]
  refine ⟨List.append_ne_nil_of_left_ne_nil (by decide) _, List.forall_mem_append.2 ⟨?_, ?_⟩⟩
  · exact List.all_eq_true.1 (by decide)
  · intro d hd
    obtain ⟨c, -, hd⟩ := List.mem_flatMap.1 hd
    exact isNameChar_of_mem_mangleChar hd

/-- **A slot is an identifier exactly if it is not negative**: a minus sign is no part of one. -/
theorem isBaseName_slot (i : Int) : isBaseName (Name.slot i).target = true ↔ 0 ≤ i := by
  rw [isBaseName_iff, slot_target, String.toList_append, List.forall_mem_append]
  constructor
  · rintro ⟨-, -, hchars⟩
    cases i with
    | ofNat n => exact Int.natCast_nonneg n
    | negSucc n => exact absurd (hchars '-' (by simp [Numeral.intText])) (by decide)
  · intro hpos
    refine ⟨List.append_ne_nil_of_left_ne_nil (by decide) _, List.all_eq_true.1 (by decide), ?_⟩
    intro c hc
    obtain ⟨n, rfl⟩ := Int.eq_ofNat_of_zero_le hpos
    have hdigit : c ∈ Nat.toDigits 10 n := by
      rw [← Nat.toList_repr]
      exact hc
    exact isNameChar_of_isDigit (Numeral.isDigit_of_mem_toDigits hdigit)

theorem isBaseName_name {n : Name} (h : n.isSlot = false) : isBaseName n.target = true := by
  rw [Name.target_eq_mangle h]
  exact isBaseName_mangle n.display

end Vimgen

namespace Vimgen.Script

theorem mem_blockNames {b : Block} {n : ScopedName} (h : n ∈ blockNames b) :
    ∃ s ∈ b, n ∈ s.names := by
  induction b with
  | nil => cases h
  | cons s b ih =>
    rcases List.mem_append.1 h with h | h
    · exact ⟨s, List.mem_cons_self, h⟩
    · obtain ⟨t, ht, hn⟩ := ih h
      exact ⟨t, List.mem_cons_of_mem _ ht, hn⟩

end Vimgen.Script

namespace Vimgen.Lower

open Script (Block ScopedName blockNames isBaseName)

variable {definitions : List Ir.Definition} {script : Script.Program}

/-- A legal name with a scope is an identifier, or it is a negative slot that is used or bound. -/
theorem LegalName.identifier {f : Frame} {scope used : List Int} {n : ScopedName}
    (hdefined : ∀ m ∈ f.defined, m.isSlot = false) (h : LegalName f scope used n)
    (hscope : n.scope ≠ .builtin) :
    isBaseName n.base = true ∨ ∃ i ∈ used ++ f.bound, i < 0 ∧ n.base = (Name.slot i).target := by
  have hslot : ∀ i ∈ used ++ f.bound, isBaseName (Name.slot i).target = true ∨
      ∃ j ∈ used ++ f.bound, j < 0 ∧ (Name.slot i).target = (Name.slot j).target := by
    intro i hi
    rcases Int.lt_or_le i 0 with hneg | hpos
    · exact .inr ⟨i, hi, hneg, rfl⟩
    · exact .inl ((isBaseName_slot i).2 hpos)
  cases h with
  | definition hmem => exact .inl (isBaseName_name (hdefined _ hmem))
  | undefined hname _ => exact .inl (isBaseName_name (Name.isSlot_of_parse hname))
  | unscoped hused _ => exact hslot _ (List.mem_append_left _ hused)
  | parameter hlow _ => exact .inl ((isBaseName_slot _).2 hlow)
  | slot hbound => exact hslot _ (List.mem_append_right _ hbound)
  | builtin name => exact absurd rfl hscope

/-- Where the names of a script come from. -/
theorem exists_of_mem_names (hlower : lowerProgram definitions = .ok script) {n : ScopedName}
    (hn : n ∈ blockNames script.items) :
    n = entryName ∨ ∃ d ∈ definitions, n = functionName d.name ∨
      ∃ body, lowerBody (globalEnv definitions) d = .ok body ∧ n ∈ blockNames body := by
  obtain ⟨functions, hfunctions, h⟩ := bind_eq_ok.1 hlower
  cases h
  rw [Script.blockNames_append] at hn
  rcases List.mem_append.1 hn with hn | hn
  · obtain ⟨s, hs, hn⟩ := Script.mem_blockNames hn
    obtain ⟨d, hd, hfunction⟩ := exists_of_forall₂ (lowerDefinitions_eq_ok_iff.1 hfunctions) s hs
    obtain ⟨body, hbody, rfl⟩ := lowerDefinition_eq_ok.1 hfunction
    rcases List.mem_cons.1 hn with rfl | hn
    · exact .inr ⟨d, hd, .inl rfl⟩
    · exact .inr ⟨d, hd, .inr ⟨body, hbody, hn⟩⟩
  · exact .inl (List.mem_singleton.1 hn)

/-- Parameters are numbered from zero. -/
theorem isBaseName_of_mem_params (hlower : lowerProgram definitions = .ok script)
    {name : ScopedName} {params : List String} {body : Block}
    (hmem : .function name params body ∈ script.items) :
    ∀ param ∈ params, isBaseName param = true := by
  obtain ⟨functions, hfunctions, h⟩ := bind_eq_ok.1 hlower
  cases h
  rcases List.mem_append.1 hmem with hmem | hmem
  · obtain ⟨d, -, hfunction⟩ := exists_of_forall₂ (lowerDefinitions_eq_ok_iff.1 hfunctions) _ hmem
    obtain ⟨_, -, heq⟩ := lowerDefinition_eq_ok.1 hfunction
    cases heq
    intro param hparam
    obtain ⟨i, hi, rfl⟩ := List.mem_map.1 hparam
    exact (isBaseName_slot i).2 (Ir.mem_fieldRange.1 hi).1
  · cases List.mem_singleton.1 hmem

/-- **Names are identifiers.** In the script of a program that was read from a text, the only names
with a scope that are no identifiers are those of slots with negative numbers; and all parameters
are identifiers. -/
theorem lowerProgram_identifiers {text : String} {p : Ir.Program}
    (hread : Ir.Program.read text = .ok p) (hlower : lowerProgram p.definitions = .ok script) :
    (∀ n ∈ blockNames script.items, n.scope ≠ .builtin →
      (isBaseName n.base = false ↔ ∃ d ∈ p.definitions,
        ∃ i ∈ d.body.freeSlots ++ d.body.boundSlots, i < 0 ∧ n.base = (Name.slot i).target)) ∧
    ∀ name params body, .function name params body ∈ script.items →
      ∀ param ∈ params, isBaseName param = true := by
  have hwritable := Ir.isWritable_of_read hread
  have hnames : ∀ d ∈ p.definitions, d.name.isSlot = false :=
    fun d hd => Name.isSlot_of_parse (hwritable d hd).1
  refine ⟨fun n hn hscope => ⟨fun hbad => ?_, ?_⟩, fun name params body hmem =>
    isBaseName_of_mem_params hlower hmem⟩
  · rcases exists_of_mem_names hlower hn with rfl | ⟨d, hd, rfl | ⟨body, hbody, hn⟩⟩
    · exact absurd (isBaseName_name (n := Name.entryPoint) rfl) (Bool.eq_false_iff.1 hbad)
    · exact absurd (isBaseName_name (hnames d hd)) (Bool.eq_false_iff.1 hbad)
    · have hdefined : ∀ m ∈ (frame p.definitions d).defined, m.isSlot = false :=
        List.forall_mem_map.2 hnames
      have hlegal := (lowerBody_linked hwritable hd hbody).legal n hn
      rcases hlegal.identifier hdefined hscope with hgood | ⟨i, hi, hneg, hbase⟩
      · exact absurd hgood (Bool.eq_false_iff.1 hbad)
      · exact ⟨d, hd, i, hi, hneg, hbase⟩
  · rintro ⟨d, -, i, -, hneg, hbase⟩
    rw [hbase, Bool.eq_false_iff, ne_eq, isBaseName_slot]
    omega

theorem lowerProgram_identifiers_parity :
    Ir.Program.read parityProgram.flat = .ok parityProgram ∧
    ∃ script, lowerProgram parityProgram.definitions = .ok script ∧
      ∀ n ∈ blockNames script.items, n.scope ≠ .builtin → isBaseName n.base = true := by
  have hread : Ir.Program.read parityProgram.flat = .ok parityProgram :=
    parityProgram_isWritable.read_flat
  obtain ⟨script, hlower⟩ : ∃ script, lowerProgram parityProgram.definitions = .ok script :=
    ⟨_, rfl⟩
  refine ⟨hread, script, hlower, fun n hn hscope => ?_⟩
  by_contra hbad
  obtain ⟨d, hd, i, hi, hneg, -⟩ :=
    ((lowerProgram_identifiers hread hlower).1 n hn hscope).1 (Bool.eq_false_iff.2 hbad)
  have hslots : ∀ d ∈ parityProgram.definitions,
      ∀ i ∈ d.body.freeSlots ++ d.body.boundSlots, 0 ≤ i := by
    decide
  have := hslots d hd i hi
  omega

/-- A function that binds a slot with a negative number and returns it. -/
def negativeSlot : Ir.Program :=
  ⟨[{ name := .plain "f"
      params := []
      body := .bind (.loc (-1)) (.const (.int 1)) (.var (.loc (-1))) }]⟩

/-- **The variable of a negative slot is no identifier.** -/
theorem negativeSlot_noIdentifier :
    Ir.Program.read negativeSlot.flat = .ok negativeSlot ∧
    ∃ script, lowerProgram negativeSlot.definitions = .ok script ∧
      localName (-1) ∈ blockNames script.items ∧ (localName (-1)).text = "l:loc-1" ∧
      isBaseName (localName (-1)).base = false := by
  have hsmall : ∀ i ∈ ([-1, 1] : List Int), Numeral.digitCount i ≤ Numeral.digitLimit := by
    decide
  have hwritable : negativeSlot.IsWritable := by
    refine List.forall_mem_singleton.2 ⟨rfl, List.forall_mem_nil _, ?_⟩
    exact ⟨hsmall (-1) (by decide), hsmall 1 (by decide), hsmall (-1) (by decide)⟩
  refine ⟨hwritable.read_flat, _, rfl, ?_, rfl, ?_⟩
  · decide
  · decide

end Vimgen.Lower
