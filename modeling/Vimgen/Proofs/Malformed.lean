import Vimgen.Proofs.Compilation
import Vimgen.Proofs.Denotes
import Vimgen.Proofs.FileTree
import Vimgen.Proofs.Generation
import Vimgen.Proofs.NameText
import Vimgen.Proofs.Rounding

/-!
# Malformed input

A text that is not a program is reported with one diagnostic. Numbers are the exception: a made-up
name with too many digits, and an integer that no floating point number is near, stop the reader
without one. `Oversized` says which data have such a number in them.

* `readProgram_accounted`: **every failure of the reader is accounted for**, as a fault in the form
  or by a number that is too large.
* `compileFile_stops`: what can stop the compilation of a file without a diagnostic.
* `malformed_input_reported`: both together with what becomes of a malformed file; and
  `large_float_unreported` is a number that is not reported.
-/

namespace Vimgen.Ir

open Sexp (Datum)

/-! ## Numbers that are too large -/

/-- A number somewhere in a datum is too large, which stops the reader with a fault. -/
inductive Oversized : ReadFault → Datum → Prop
  | name {s : String} {base digits : List Char}
    (htext : s.toList = '\x7b' :: (base ++ '_' :: digits) ++ ['\x7d'])
    (hdigits : ∀ c ∈ digits, c.isDigit = true) (hmany : Numeral.digitLimit < digits.length) :
    Oversized (.nameDigits digits.length) (.text s)
  | float {n : Int} (hlarge : Binary64.overflowBound ≤ n.natAbs) :
    Oversized .floatRange (form "float" [.integer n])
  | part {fault : ReadFault} {d : Datum} {ds : List Datum} (hd : d ∈ ds) (h : Oversized fault d) :
    Oversized fault (.list ds)

/-- If reading some data fails, this is a fault in their form or a number in one of them is too
large. -/
def Accounted {α : Type} (ds : List Datum) (result : Read α) : Prop :=
  ∀ fault, result = .error fault → (∃ e, fault = .format e) ∨ ∃ d ∈ ds, Oversized fault d

namespace Accounted

variable {α β : Type} {ds es : List Datum}

theorem ok (a : α) : Accounted ds (.ok a) := nofun

theorem fail (error : FormatError) : Accounted ds (Read.fail error : Read α) := by
  intro fault h
  cases h
  exact .inl ⟨error, rfl⟩

theorem bind {x : Read α} {f : α → Read β} (hx : Accounted ds x) (hf : ∀ a, Accounted ds (f a)) :
    Accounted ds (x >>= f) := by
  cases x with
  | error fault =>
    intro fault' h
    cases h
    exact hx fault rfl
  | ok a => exact hf a

theorem mono {result : Read α} (h : Accounted ds result) (hsub : ds ⊆ es) :
    Accounted es result := by
  intro fault hfault
  rcases h fault hfault with hformat | ⟨d, hd, hover⟩
  · exact .inl hformat
  · exact .inr ⟨d, hsub hd, hover⟩

/-- What is wrong in parts of a list is wrong in the list. -/
theorem inside {result : Read α} (h : Accounted ds result) (hsub : ds ⊆ es) :
    Accounted [.list es] result := by
  intro fault hfault
  rcases h fault hfault with hformat | ⟨d, hd, hover⟩
  · exact .inl hformat
  · exact .inr ⟨_, List.mem_singleton_self _, .part (hsub hd) hover⟩

/-- A form is read field by field. -/
theorem field {x : Read α} {f : α → Read β} (hx : Accounted ds x) (hsub : ds ⊆ es)
    (hf : ∀ a, Accounted [.list es] (f a)) : Accounted [.list es] (x >>= f) :=
  (hx.inside hsub).bind hf

/-- Data are read one after the other. -/
theorem cons {d : Datum} {x : Read α} {xs : Read (List α)} (hx : Accounted [d] x)
    (hxs : Accounted ds xs) : Accounted (d :: ds) (do return (← x) :: (← xs)) := by
  refine (hx.mono (by simp)).bind fun _ => ?_
  exact (hxs.mono (List.subset_cons_self d ds)).bind fun _ => .ok _

theorem mapM {f : Datum → Read α} (hf : ∀ d, Accounted [d] (f d)) (ds : List Datum) :
    Accounted ds (ds.mapM f) := by
  induction ds with
  | nil => exact .ok []
  | cons d ds ih =>
    rw [List.mapM_cons]
    exact (hf d).cons ih

end Accounted

/-! ## Readers -/

theorem readInt_accounted (role : String) (d : Datum) : Accounted [d] (readInt role d) := by
  unfold readInt
  split
  · exact .ok _
  · exact .fail _

theorem readText_accounted (role : String) (d : Datum) : Accounted [d] (readText role d) := by
  unfold readText
  split
  · exact .ok _
  · exact .fail _

/-- A list whose items are read one by one. -/
theorem readItems_accounted {α : Type} (role : String) {f : Datum → Read α}
    (hf : ∀ d, Accounted [d] (f d)) (d : Datum) :
    Accounted [d] (readList role d >>= List.mapM f) := by
  cases d with
  | list ds => exact (Accounted.mapM hf ds).inside (List.Subset.refl ds)
  | _ => exact .fail _

theorem readName_accounted (d : Datum) : Accounted [d] (readName d) := by
  cases d with
  | text s =>
    intro fault h
    cases hparse : Name.parse s with
    | ok n => simp [readName, readText, hparse, bind, Except.bind] at h
    | error e =>
      obtain ⟨base, digits, htext, hdigits, hcount, hmany⟩ := Name.exists_of_parse_error hparse
      simp only [readName, readText, hparse, bind, Except.bind, Except.error.injEq] at h
      rw [← h, ← hcount]
      exact .inr ⟨_, List.mem_singleton_self _, .name htext hdigits (hcount ▸ hmany)⟩
  | _ => exact .fail _

theorem readNames_accounted (role : String) (d : Datum) : Accounted [d] (readNames role d) :=
  readItems_accounted role readName_accounted d

theorem readFloat_accounted (x : Datum) : Accounted [form "float" [x]] (readFloat x) := by
  cases x with
  | real x => exact .ok _
  | integer n =>
    intro fault h
    cases hnear : Binary64.ofInt? n with
    | some x => simp [readFloat, hnear] at h
    | none =>
      simp only [readFloat, hnear, Except.error.injEq] at h
      rw [← h]
      exact .inr ⟨_, List.mem_singleton_self _, .float (Binary64.ofInt?_eq_none_iff.1 hnear)⟩
  | _ => exact .fail _

theorem readChar_accounted (d : Datum) : Accounted [d] (readChar d) := by
  refine (readText_accounted _ d).bind fun s => ?_
  split
  · exact .ok _
  · exact .fail _

theorem readConst_accounted (d : Datum) : Accounted [d] (readConst d) := by
  unfold readConst
  split
  · rename_i tag fields
    cases hhead : ConstHead.ofHead? tag with
    | none => exact .fail _
    | some kind =>
      dsimp only
      split
      · exact (readInt_accounted _ _).field (by simp) fun _ => .ok _
      · exact (readInt_accounted _ _).field (by simp) fun _ => .ok _
      · rw [ConstHead.head_of_ofHead? hhead]
        exact readFloat_accounted _
      · exact (readChar_accounted _).inside (by simp)
      · exact (readText_accounted _ _).field (by simp) fun _ => .ok _
      · exact (readInt_accounted _ _).field (by simp) fun _ =>
          (readInt_accounted _ _).field (by simp) fun _ => .ok _
      · exact .ok _
      · exact (readText_accounted _ _).field (by simp) fun _ => .ok _
      · exact .fail _
  · exact .fail _

mutual

theorem readDescriptor_accounted (d : Datum) : Accounted [d] (readDescriptor d) := by
  unfold readDescriptor
  split
  · rename_i tag fields
    split
    · split
      · exact (readText_accounted _ _).field (by simp) fun _ => .ok _
      · exact .fail _
    split
    · split
      · exact (readText_accounted _ _).field (by simp) fun _ => .ok _
      · exact .fail _
    split
    · split
      · exact .fail _
      · rename_i name args
        refine (readText_accounted _ _).field (by simp) fun _ => ?_
        exact (readDescriptors_accounted args).field (by simp) fun _ => .ok _
    split
    · exact .ok _
    · exact .fail _
  · exact .fail _
termination_by sizeOf d

theorem readDescriptors_accounted (ds : List Datum) : Accounted ds (readDescriptors ds) := by
  cases ds with
  | nil => exact .ok []
  | cons d ds =>
    rw [readDescriptors]
    exact (readDescriptor_accounted d).cons (readDescriptors_accounted ds)
termination_by sizeOf ds

end

theorem readVar_accounted (d : Datum) : Accounted [d] (readVar d) := by
  unfold readVar
  split
  · split
    · split
      · exact (readInt_accounted _ _).field (by simp) fun _ => .ok _
      · exact .fail _
    split
    · split
      · exact (readName_accounted _).field (by simp) fun _ => .ok _
      · exact .fail _
    · exact .fail _
  · exact .fail _

theorem readVars_accounted (d : Datum) : Accounted [d] (readVars d) :=
  readItems_accounted _ readVar_accounted d

theorem readForeignArg_accounted (d : Datum) : Accounted [d] (readForeignArg d) := by
  cases d with
  | list ds =>
    rcases ds with _ | ⟨type, _ | ⟨var, _ | ⟨more, rest⟩⟩⟩
    · exact .fail _
    · exact .fail _
    · have hpair : readForeignArg (.list [type, var]) =
          (do return ⟨← readDescriptor type, ← readVar var⟩) := rfl
      rw [hpair]
      refine (readDescriptor_accounted type).field (by simp) fun _ => ?_
      exact (readVar_accounted var).field (by simp) fun _ => .ok _
    · exact .fail _
  | _ => exact .fail _

theorem readPrimTag_accounted (d : Datum) : Accounted [d] (readPrimTag d) := by
  unfold readPrimTag
  split
  · exact .ok _
  · exact .fail _

theorem readArithType_accounted (d : Datum) : Accounted [d] (readArithType d) := by
  unfold readArithType
  split
  · exact .ok _
  · exact .fail _

theorem readPrimOp_accounted (tag types : Datum) :
    Accounted [tag, types] (readPrimOp tag types) := by
  unfold readPrimOp
  refine ((readPrimTag_accounted tag).mono (by simp)).bind fun _ => ?_
  split
  · exact ((readText_accounted _ types).mono (by simp)).bind fun _ => .ok _
  · rw [← bind_assoc]
    have htypes := readItems_accounted "primitive types" readArithType_accounted types
    exact (htypes.mono (by simp)).bind fun _ => .ok _

mutual

theorem readExpr_accounted (d : Datum) : Accounted [d] (readExpr d) := by
  unfold readExpr
  split
  · rename_i tag fields
    cases ExprHead.ofHead? tag with
    | none => exact .fail _
    | some kind =>
      dsimp only
      -- one case for each kind of form, its fields in the order in which they are read
      split
      · exact (readVar_accounted _).field (by simp) fun _ => .ok _
      · refine (readName_accounted _).field (by simp) fun _ => ?_
        exact (readVars_accounted _).field (by simp) fun _ => .ok _
      · rename_i v value body
        refine (readVar_accounted v).field (by simp) fun _ => ?_
        refine (readExpr_accounted value).field (by simp) fun _ => ?_
        exact (readExpr_accounted body).field (by simp) fun _ => .ok _
      · rename_i v value
        refine (readVar_accounted v).field (by simp) fun _ => ?_
        exact (readExpr_accounted value).field (by simp) fun _ => .ok _
      · refine (readInt_accounted _ _).field (by simp) fun _ => ?_
        refine (readName_accounted _).field (by simp) fun _ => ?_
        exact (readVars_accounted _).field (by simp) fun _ => .ok _
      · rename_i scrutinee alts
        refine (readVar_accounted scrutinee).field (by simp) fun _ => ?_
        exact (readAlts_accounted alts).field (by simp) fun _ => .ok _
      · refine (readVar_accounted _).field (by simp) fun _ => ?_
        exact (readInt_accounted _ _).field (by simp) fun _ => .ok _
      · exact (readConst_accounted _).field (by simp) fun _ => .ok _
      · rename_i function args
        rw [← bind_assoc]
        have hargs := readItems_accounted "foreign argument list" readForeignArg_accounted args
        refine hargs.field (by simp) fun _ => ?_
        exact (readDescriptor_accounted function).field (by simp) fun _ => .ok _
      · refine (readPrimOp_accounted _ _).field (by simp) fun _ => ?_
        exact (readVars_accounted _).field (by simp) fun _ => .ok _
      · exact .ok _
      · exact (readText_accounted _ _).field (by simp) fun _ => .ok _
      · exact .fail _
  · exact .fail _
termination_by sizeOf d

theorem readAlt_accounted (d : Datum) : Accounted [d] (readAlt d) := by
  unfold readAlt
  split
  · split
    · split
      · rename_i c body
        refine (readConst_accounted c).field (by simp) fun _ => ?_
        exact (readExpr_accounted body).field (by simp) fun _ => .ok _
      · exact .fail _
    split
    · split
      · rename_i first con name names body
        refine (readNames_accounted _ names).field (by simp) fun _ => ?_
        refine (readInt_accounted _ first).field (by simp) fun _ => ?_
        refine (readInt_accounted _ con).field (by simp) fun _ => ?_
        refine (readName_accounted name).field (by simp) fun _ => ?_
        exact (readExpr_accounted body).field (by simp) fun _ => .ok _
      · exact .fail _
    split
    · split
      · rename_i body
        exact (readExpr_accounted body).field (by simp) fun _ => .ok _
      · exact .fail _
    · exact .fail _
  · exact .fail _
termination_by sizeOf d

theorem readAlts_accounted (ds : List Datum) : Accounted ds (readAlts ds) := by
  cases ds with
  | nil => exact .ok []
  | cons d ds =>
    rw [readAlts]
    exact (readAlt_accounted d).cons (readAlts_accounted ds)
termination_by sizeOf ds

end

theorem readDefinition_accounted (d : Datum) : Accounted [d] (readDefinition d) := by
  unfold readDefinition
  split
  · split
    · split
      · refine (readNames_accounted _ _).field (by simp) fun _ => ?_
        refine (readName_accounted _).field (by simp) fun _ => ?_
        exact (readExpr_accounted _).field (by simp) fun _ => .ok _
      · exact .fail _
    · exact .fail _
  · exact .fail _

/-- **Every failure of the reader is accounted for.** -/
theorem readProgram_accounted (d : Datum) : Accounted [d] (readProgram d) := by
  unfold readProgram
  split
  · split
    · exact (Accounted.mapM readDefinition_accounted _).field (by simp) fun _ => .ok _
    · exact .fail _
  · exact .fail _

/-- A text is not a program because of its form or because of a number in it. -/
theorem read_eq_error {source : String} {fault : ReadFault}
    (h : Program.read source = .error fault) :
    (∃ e, fault = .format e) ∨ ∃ d, Datum.read source = .ok d ∧ Oversized fault d := by
  unfold Program.read at h
  cases hdatum : Datum.read source with
  | error e =>
    rw [hdatum] at h
    cases h
    exact .inl ⟨_, rfl⟩
  | ok d =>
    rw [hdatum] at h
    rcases readProgram_accounted d fault h with hformat | ⟨d', hd, hover⟩
    · exact .inl hformat
    · rw [List.mem_singleton.1 hd] at hover
      exact .inr ⟨d, rfl, hover⟩

end Vimgen.Ir

namespace Vimgen.Compile

open Files (OsError Path Tree)

/-! ## Compiling files -/

/-- What can stop the compilation of a file without a diagnostic. -/
inductive Stops (settings : Settings) (input output : Path) (tree : Tree) : Fault → Prop
  /-- The system refuses to read or to write a file. -/
  | refused {e : OsError} (hkind : e.kind.isRefusal = true) :
    Stops settings input output tree (.system e)
  | nullCharacter {path : Path} (hnull : path.hasNull = true) :
    Stops settings input output tree (.system ⟨.nullCharacter, path⟩)
  | undecodable {bytes : List UInt8} {fault : Text.Utf8.Fault}
    (hbytes : tree.read input = .ok bytes)
    (hdecode : Text.Utf8.decode bytes = .error fault) :
    Stops settings input output tree (.undecodable fault)
  /-- A number in the source is too large. -/
  | number {source : String} {d : Sexp.Datum} {e : Ir.ReadFault} {fault : Fault}
    (hread : readSource tree input = .ok source) (hdatum : Sexp.Datum.read source = .ok d)
    (hover : Ir.Oversized e d) (hfault : ofReadFault e = .inr fault) :
    Stops settings input output tree fault
  /-- The fields of a constructor are loaded into a slot that cannot be spelled. -/
  | slots {source : String} {p : Ir.Program} {d : Ir.Definition}
    (hread : readSource tree input = .ok source) (hprogram : Ir.Program.read source = .ok p)
    (hd : d ∈ p.definitions) (hslots : ¬d.body.SpellableFields) :
    Stops settings input output tree .slotDigits
  /-- A constructor has more fields than can be counted in a script. -/
  | positions {source : String} {p : Ir.Program} {d : Ir.Definition}
    (hread : readSource tree input = .ok source) (hprogram : Ir.Program.read source = .ok p)
    (hd : d ∈ p.definitions) (hcounts : ¬d.body.SpellableCounts) :
    Stops settings input output tree (.render .digits)
  /-- A dump is wanted next to an output that has no name. -/
  | nameless (hwanted : settings.wantsDump = true) (hparts : output.parts = []) :
    Stops settings input output tree (.emptyName output)

variable {settings : Settings} {input output : Path} {tree : Tree}

theorem stops_system {e : OsError} (h : e.Justified) :
    Stops settings input output tree (.system e) := by
  obtain ⟨kind, path⟩ := e
  by_cases hkind : kind = .nullCharacter
  · subst hkind
    exact .nullCharacter (h rfl)
  · refine .refused ?_
    cases kind with
    | nullCharacter => exact absurd rfl hkind
    | _ => rfl

theorem stops_of_readSource {fault : Fault} (h : readSource tree input = .error fault) :
    Stops settings input output tree fault := by
  unfold readSource at h
  cases hbytes : tree.read input with
  | error e =>
    rw [hbytes] at h
    cases h
    exact stops_system (Tree.read_justified hbytes)
  | ok bytes =>
    rw [hbytes] at h
    dsimp only at h
    cases hdecode : Text.Utf8.decode bytes with
    | error fault' =>
      rw [hdecode] at h
      cases h
      exact .undecodable hbytes hdecode
    | ok text => rw [hdecode] at h; cases h

/-- Generating a script fails only for a slot or a position of a field that cannot be spelled:
whatever is lowered is renderable. -/
theorem generate_eq_error {definitions : List Ir.Definition}
    (hwrite : ∀ d ∈ definitions, d.IsWritable) {fault : Fault}
    (h : generate definitions = .error fault) :
    (fault = .slotDigits ∧ ∃ d ∈ definitions, ¬d.body.SpellableFields) ∨
      (fault = .render .digits ∧ ∃ d ∈ definitions, ¬d.body.SpellableCounts) := by
  cases hlower : Lower.lowerProgram definitions with
  | ok script =>
    right
    rcases generate_of_lowered hwrite hlower with
      ⟨outcome, hgenerate, -⟩ | ⟨hgenerate, n, hn, hlong⟩
    · rw [hgenerate] at h
      cases h
    · rw [hgenerate] at h
      cases h
      refine ⟨rfl, ?_⟩
      by_contra hall
      have hcounts : ∀ d ∈ definitions, d.body.SpellableCounts := by simpa using hall
      exact hlong (hn.spellable hcounts)
  | error error =>
    left
    constructor
    · unfold generate at h
      rw [hlower] at h
      dsimp only at h
      cases hfailure : error.failure? with
      | some failure => rw [hfailure] at h; cases h
      | none => rw [hfailure] at h; cases h; rfl
    · by_contra hall
      have hfields : ∀ d ∈ definitions, d.body.SpellableFields := by simpa using hall
      obtain ⟨outcome, hgenerate, -⟩ := generate_of_refused hfields hlower
      rw [hgenerate] at h
      cases h

theorem CompileSteps.stops {source : String} {program : Ir.Program} {tree' : Tree} {run : Run}
    (h : CompileSteps program.definitions output tree' run)
    (hread : readSource tree input = .ok source) (hprogram : Ir.Program.read source = .ok program)
    {fault : Fault} (hfault : run.result = .error fault) :
    Stops settings input output tree fault := by
  cases h with
  | unsaved hgenerate hresult =>
    dsimp only at hfault
    rw [hfault] at hgenerate
    rcases generate_eq_error (Ir.isWritable_of_read hprogram) hgenerate with
      ⟨rfl, d, hd, hslots⟩ | ⟨rfl, d, hd, hcounts⟩
    · exact .slots hread hprogram hd hslots
    · exact .positions hread hprogram hd hcounts
  | unwritten _ hsave =>
    cases hfault
    exact stops_system (Tree.save_justified (by rw [hsave]))
  | saved _ _ => cases hfault

theorem DumpSteps.stops {source : String} {program : Ir.Program} {result : Tree × Except Fault Path}
    (h : DumpSteps program output tree result) (hwanted : settings.wantsDump = true)
    (hprogram : Ir.Program.read source = .ok program) {fault : Fault}
    (hfault : result.2 = .error fault) : Stops settings input output tree fault := by
  cases h with
  | nameless hpath =>
    cases hfault
    refine .nameless hwanted ?_
    unfold dumpPath? Path.withName? at hpath
    split at hpath
    · rename_i hparts
      exact List.isEmpty_iff.1 hparts
    · cases hpath
  | unprintable hpretty =>
    -- programs that were read can be written
    obtain ⟨text, htext, -⟩ := (Ir.isWritable_of_read hprogram).read_pretty
    rw [htext] at hpretty
    cases hpretty
  | unwritten _ _ hsave =>
    cases hfault
    exact stops_system (Tree.save_justified (by rw [hsave]))
  | saved _ _ _ => cases hfault

/-- **What stops the compilation of a file.** -/
theorem compileFile_stops {fault : Fault}
    (h : (compileFile settings input output tree).result = .error fault) :
    Stops settings input output tree fault := by
  have hsteps := compileFile_steps settings input output tree
  generalize compileFile settings input output tree = run at hsteps h
  cases hsteps with
  | unread hread =>
    cases h
    exact stops_of_readSource hread
  | malformed _ _ _ => cases h
  | oversized hread hprogram hfault =>
    cases h
    rcases Ir.read_eq_error hprogram with ⟨e, rfl⟩ | ⟨d, hdatum, hover⟩
    · cases hfault
    · exact .number hread hdatum hover hfault
  | @undumped _ program _ _ _ hprogram hwanted hdump =>
    have hsteps := dump_steps program output tree
    rw [hdump] at hsteps
    cases h
    exact hsteps.stops hwanted hprogram rfl
  | dumped hread hprogram _ _ hcompile => exact hcompile.stops hread hprogram h
  | plain hread hprogram _ hcompile => exact hcompile.stops hread hprogram h

/-- A file with a fault in its form is reported, and nothing else is done. -/
theorem compileFile_of_format {source : String} {e : Ir.FormatError}
    (hread : readSource tree input = .ok source)
    (hprogram : Ir.Program.read source = .error (.format e)) :
    compileFile settings input output tree =
      ⟨tree, [], .ok (.failure ⟨e.message, none, some "E0301", none, none⟩)⟩ := by
  unfold compileFile
  rw [hread]
  dsimp only
  rw [hprogram]
  rfl

/-- **Malformed input is reported**, unless a number in it is too large. Reading a text fails by a
fault in its form or by such a number. A fault in the form of a file becomes one diagnostic, with
the files as they were. What else can stop a compilation is listed by `Stops`. -/
theorem malformed_input_reported (settings : Settings) (input output : Path) (tree : Tree)
    (source : String) :
    (∀ fault, Ir.Program.read source = .error fault →
      (∃ e, fault = .format e) ∨ ∃ d, Sexp.Datum.read source = .ok d ∧ Ir.Oversized fault d) ∧
    (∀ e, readSource tree input = .ok source → Ir.Program.read source = .error (.format e) →
      ∃ diagnostic, compileFile settings input output tree = ⟨tree, [], .ok (.failure diagnostic)⟩ ∧
        diagnostic.code = some "E0301" ∧ diagnostic.message = e.message) ∧
    ∀ fault, (compileFile settings input output tree).result = .error fault →
      Stops settings input output tree fault :=
  ⟨fun _ h => Ir.read_eq_error h,
    fun _ hread hprogram => ⟨_, compileFile_of_format hread hprogram, rfl, rfl⟩,
    fun _ h => compileFile_stops h⟩

/-- A definition whose body is a floating point constant, written as an integer. -/
def floatProgram (n : Int) : Sexp.Datum :=
  Ir.form "program" [Ir.form "fun"
    [.text "f", .list [], Ir.form "const" [Ir.form "float" [.integer n]]]]

theorem read_floatProgram {n : Int} (hspell : Numeral.Spellable n)
    (hlarge : Binary64.overflowBound ≤ n.natAbs) :
    Ir.Program.read (floatProgram n).flat = .error .floatRange := by
  have hbody : (Ir.form "const" [Ir.form "float" [.integer n]]).IsPlain :=
    Ir.isPlain_form (by decide) ⟨Ir.isPlain_form (by decide) ⟨hspell, trivial⟩, trivial⟩
  have hplain : (floatProgram n).IsPlain := Ir.isPlain_form (by decide)
    ⟨Ir.isPlain_form (by decide) ⟨trivial, trivial, hbody, trivial⟩, trivial⟩
  have hread : Sexp.Datum.read (floatProgram n).flat = .ok (floatProgram n) :=
    (Sexp.reads_flat _ hplain).read
  -- the failure of the constant goes up through the forms around it
  have hconst : Ir.readConst (Ir.form "float" [.integer n]) = .error .floatRange := by
    have hform : Ir.readConst (Ir.form "float" [.integer n]) = Ir.readFloat (.integer n) := rfl
    rw [hform, Ir.readFloat, Binary64.ofInt?_eq_none_iff.2 hlarge]
  have hexpr : ∀ c, Ir.readConst c = .error .floatRange →
      Ir.readExpr (Ir.form "const" [c]) = .error .floatRange := by
    intro c hc
    have hform : Ir.readExpr (Ir.form "const" [c]) = (do return .const (← Ir.readConst c)) := rfl
    rw [hform, hc]
    rfl
  have hdefinition : ∀ b, Ir.readExpr b = .error .floatRange →
      Ir.readDefinition (Ir.form "fun" [.text "f", .list [], b]) = .error .floatRange := by
    intro b hb
    have hform : Ir.readDefinition (Ir.form "fun" [.text "f", .list [], b]) =
        (do return ⟨.plain "f", [], ← Ir.readExpr b⟩) := rfl
    rw [hform, hb]
    rfl
  have hprogram : ∀ d, Ir.readDefinition d = .error .floatRange →
      Ir.readProgram (Ir.form "program" [d]) = .error .floatRange := by
    intro d hd
    have hform : Ir.readProgram (Ir.form "program" [d]) =
        (do return ⟨← [d].mapM Ir.readDefinition⟩) := rfl
    rw [hform, List.mapM_cons, hd]
    rfl
  unfold Ir.Program.read
  rw [hread]
  exact hprogram _ (hdefinition _ (hexpr _ hconst))

/-- The least power of ten that is out of range. -/
def largeInteger : Int := .ofNat (Nat.pow 10 309)

theorem spellable_largeInteger : Numeral.Spellable largeInteger := by
  decide +kernel

theorem overflowBound_le_largeInteger : Binary64.overflowBound ≤ largeInteger.natAbs := by
  decide +kernel

/-- **A large number is not reported**: reading stops without saying what is wrong with the form. -/
theorem large_float_unreported :
    Ir.Program.read (floatProgram largeInteger).flat = .error .floatRange :=
  read_floatProgram spellable_largeInteger overflowBound_le_largeInteger

/-- A file with nothing but an opening bracket. -/
def bracketTree : Tree := ⟨[(["in"], .file [0x28])], []⟩

/-- The bracket is reported, and the large number is what stops reading. -/
theorem malformed_input_reported_bracket :
    (∃ e diagnostic, Ir.Program.read "(" = .error (.format e) ∧
      compileFile {} ⟨"", ["in"]⟩ ⟨"", ["out"]⟩ bracketTree =
        ⟨bracketTree, [], .ok (.failure diagnostic)⟩ ∧ diagnostic.code = some "E0301") ∧
      ∃ d, Sexp.Datum.read (floatProgram largeInteger).flat = .ok d ∧
        Ir.Oversized .floatRange d := by
  have hread : readSource bracketTree ⟨"", ["in"]⟩ = .ok "(" := rfl
  obtain ⟨e, hprogram⟩ : ∃ e, Ir.Program.read "(" = .error (.format e) := ⟨_, rfl⟩
  obtain ⟨-, hreporting, -⟩ :=
    malformed_input_reported {} ⟨"", ["in"]⟩ ⟨"", ["out"]⟩ bracketTree "("
  obtain ⟨diagnostic, hrun, hcode, -⟩ := hreporting e hread hprogram
  refine ⟨⟨e, diagnostic, hprogram, hrun, hcode⟩, ?_⟩
  obtain ⟨hreading, -, -⟩ := malformed_input_reported {} ⟨"", ["in"]⟩ ⟨"", ["out"]⟩ bracketTree
    (floatProgram largeInteger).flat
  have hlarge := hreading _
    (read_floatProgram spellable_largeInteger overflowBound_le_largeInteger)
  exact hlarge.resolve_left nofun

end Vimgen.Compile
