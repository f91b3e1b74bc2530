import Vimgen.Proofs.NormalForm

/-!
# The grammar of programs

Keywords are symbols, names and strings are quoted:

    program := (program def...)
    def     := (fun "Ns.name" ("arg"...) expr)
    var     := (loc N) | (glob "Ns.name")
    expr    := (var var)
             | (app "f" (var...)) | (app-tail "f" (var...))
             | (let var expr expr) | (update var expr)
             | (con TAG "Ns.Con" (var...))
             | (case var alt...) | (chkcase var alt...)
             | (proj var N) | (const const)
             | (foreign fdesc ((fdesc var)...))
             | (op LTag (ty...) (var...)) | (op LExternal "name" (var...))
             | (nothing) | (error "message")
    alt     := (const-case const expr)
             | (con-case FIRST-LOCAL TAG "Ns.Con" ("field"...) expr)
             | (default expr)
    const   := (int N) | (bigint N) | (float F) | (char "c") | (str "s")
             | (bits WIDTH N) | (world) | (type "Name")
    fdesc   := (con "VIM_Echo") | (str "s") | (app "VIM_BuiltIn" fdesc...) | (unknown)

`IsProgram` is the first of these rules and rests on the others.

* `Denotes.isExpr`: what is read is written as a sentence.
* `IsExpr.normalize_eq`: a sentence is its own normal form.
* `readProgram_normalize`: **reading loses nothing but looseness**. Programs are in one-to-one
  correspondence with the normal forms that are read.
-/

namespace Vimgen.Ir

open Sexp (Datum)

/-! ## Sentences -/

inductive IsText : Datum → Prop
  | mk (s : String) : IsText (.text s)

inductive IsVar : Datum → Prop
  | loc (index : Int) : IsVar (form "loc" [.integer index])
  | glob (name : String) : IsVar (form "glob" [.text name])

inductive IsConst : Datum → Prop
  | int (value : Int) : IsConst (form "int" [.integer value])
  | bigInt (value : Int) : IsConst (form "bigint" [.integer value])
  | float (value : Binary64) : IsConst (form "float" [.real value])
  | char (value : Char) : IsConst (form "char" [.text (String.singleton value)])
  | str (value : String) : IsConst (form "str" [.text value])
  | bits (width value : Int) : IsConst (form "bits" [.integer width, .integer value])
  | world : IsConst (form "world" [])
  | type (name : String) : IsConst (form "type" [.text name])

inductive IsDescriptor : Datum → Prop
  | con (name : String) : IsDescriptor (form "con" [.text name])
  | str (value : String) : IsDescriptor (form "str" [.text value])
  | app (name : String) {args : List Datum} (hargs : ∀ d ∈ args, IsDescriptor d) :
    IsDescriptor (form "app" (.text name :: args))
  | unknown : IsDescriptor (form "unknown" [])

inductive IsForeignArg : Datum → Prop
  | mk {type var : Datum} (htype : IsDescriptor type) (hvar : IsVar var) :
    IsForeignArg (.list [type, var])

mutual

inductive IsExpr : Datum → Prop
  | var {v : Datum} (hv : IsVar v) : IsExpr (form "var" [v])
  | app (function : String) {args : List Datum} (hargs : ∀ v ∈ args, IsVar v) :
    IsExpr (form "app" [.text function, .list args])
  | appTail (function : String) {args : List Datum} (hargs : ∀ v ∈ args, IsVar v) :
    IsExpr (form "app-tail" [.text function, .list args])
  | bind {v value body : Datum} (hv : IsVar v) (hvalue : IsExpr value) (hbody : IsExpr body) :
    IsExpr (form "let" [v, value, body])
  | update {v value : Datum} (hv : IsVar v) (hvalue : IsExpr value) :
    IsExpr (form "update" [v, value])
  | con (tag : Int) (name : String) {args : List Datum} (hargs : ∀ v ∈ args, IsVar v) :
    IsExpr (form "con" [.integer tag, .text name, .list args])
  | case {v : Datum} {alts : List Datum} (hv : IsVar v) (halts : AreAlts alts) :
    IsExpr (form "case" (v :: alts))
  | checkedCase {v : Datum} {alts : List Datum} (hv : IsVar v) (halts : AreAlts alts) :
    IsExpr (form "chkcase" (v :: alts))
  | proj {v : Datum} (index : Int) (hv : IsVar v) : IsExpr (form "proj" [v, .integer index])
  | const {c : Datum} (hc : IsConst c) : IsExpr (form "const" [c])
  | foreign {function : Datum} {args : List Datum} (hfunction : IsDescriptor function)
    (hargs : ∀ a ∈ args, IsForeignArg a) : IsExpr (form "foreign" [function, .list args])
  | op {tag : PrimTag} (types : List ArithType) {args : List Datum} (htag : tag ≠ .external)
    (hargs : ∀ v ∈ args, IsVar v) :
    IsExpr (form "op"
      [.symbol tag.spelling, .list (types.map fun t => .symbol t.spelling), .list args])
  | external (name : String) {args : List Datum} (hargs : ∀ v ∈ args, IsVar v) :
    IsExpr (form "op" [.symbol "LExternal", .text name, .list args])
  | nothing : IsExpr (form "nothing" [])
  | error (message : String) : IsExpr (form "error" [.text message])

inductive IsAlt : Datum → Prop
  | const {c body : Datum} (hc : IsConst c) (hbody : IsExpr body) :
    IsAlt (form "const-case" [c, body])
  | con (firstLocal tag : Int) (name : String) {fields : List Datum} {body : Datum}
    (hfields : ∀ d ∈ fields, IsText d) (hbody : IsExpr body) :
    IsAlt (form "con-case" [.integer firstLocal, .integer tag, .text name, .list fields, body])
  | default {body : Datum} (hbody : IsExpr body) : IsAlt (form "default" [body])

inductive AreAlts : List Datum → Prop
  | nil : AreAlts []
  | cons {alt : Datum} {alts : List Datum} (halt : IsAlt alt) (halts : AreAlts alts) :
    AreAlts (alt :: alts)

end

inductive IsDefinition : Datum → Prop
  | mk (name : String) {params : List Datum} {body : Datum} (hparams : ∀ d ∈ params, IsText d)
    (hbody : IsExpr body) : IsDefinition (form "fun" [.text name, .list params, body])

/-- A sentence of the grammar. -/
inductive IsProgram : Datum → Prop
  | mk {definitions : List Datum} (hdefinitions : ∀ d ∈ definitions, IsDefinition d) :
    IsProgram (form "program" definitions)

/-! ## Programs are written as sentences -/

theorem isText_names (ns : List Name) : ∀ d ∈ ns.map nameDatum, IsText d :=
  List.forall_mem_map.2 fun n _ => .mk n.display

theorem isVar_datum (v : Var) : IsVar v.datum := by
  cases v with
  | loc i => exact .loc i
  | glob n => exact .glob n.display

theorem isVar_data (vs : List Var) : ∀ d ∈ vs.map Var.datum, IsVar d :=
  List.forall_mem_map.2 fun v _ => isVar_datum v

theorem isConst_datum (c : Const) : IsConst c.datum := by
  cases c with
  | int n => exact .int n
  | bigInt n => exact .bigInt n
  | float x => exact .float x
  | char c => exact .char c
  | str s => exact .str s
  | bits width n => exact .bits width n
  | world => exact .world
  | type name => exact .type name

mutual

theorem isDescriptor_datum (f : Descriptor) : IsDescriptor f.datum := by
  cases f with
  | con name => exact .con name
  | str value => exact .str value
  | app name args => exact .app name (isDescriptor_data args)
  | unknown => exact .unknown

theorem isDescriptor_data (fs : List Descriptor) : ∀ d ∈ descriptorData fs, IsDescriptor d := by
  cases fs with
  | nil => exact List.forall_mem_nil _
  | cons f rest => exact List.forall_mem_cons.2 ⟨isDescriptor_datum f, isDescriptor_data rest⟩

end

theorem PrimOp.IsWritable.isExpr {op : PrimOp} (h : op.IsWritable) (vs : List Var) :
    IsExpr (Expr.op op vs).datum := by
  obtain ⟨tag, types, name⟩ := op
  unfold PrimOp.IsWritable at h
  rw [Expr.datum, PrimOp.details]
  dsimp only at h ⊢
  split at h
  · rename_i htag
    subst htag
    obtain ⟨name, rfl⟩ := Option.ne_none_iff_exists'.1 h.1
    exact .external name (isVar_data vs)
  · rename_i htag
    rw [if_neg htag]
    exact .op types htag (isVar_data vs)

mutual

/-- **What was read is written as a sentence.** -/
theorem Denotes.isExpr {d : Datum} {e : Expr} (h : Denotes d e) : IsExpr e.datum := by
  cases h with
  | var _ _ => exact .var (isVar_datum _)
  | @app _ tailCall _ _ f vs _ _ _ =>
    cases tailCall with
    | false => exact .app f.display (isVar_data vs)
    | true => exact .appTail f.display (isVar_data vs)
  | bind _ _ hvalue hbody => exact .bind (isVar_datum _) hvalue.isExpr hbody.isExpr
  | update _ _ hvalue => exact .update (isVar_datum _) hvalue.isExpr
  | @con _ _ _ _ tag name vs _ _ _ _ => exact .con tag name.display (isVar_data vs)
  | @case _ checked _ _ _ _ _ _ halts =>
    cases checked with
    | false => exact .case (isVar_datum _) halts.areAlts
    | true => exact .checkedCase (isVar_datum _) halts.areAlts
  | @proj _ _ _ _ index _ _ _ => exact .proj index (isVar_datum _)
  | const _ _ => exact .const (isConst_datum _)
  | foreign _ _ _ =>
    refine .foreign (isDescriptor_datum _) (List.forall_mem_map.2 fun a _ => ?_)
    exact .mk (isDescriptor_datum a.type) (isVar_datum a.var)
  | op _ hop _ => exact (isWritable_of_readPrimOp hop).isExpr _
  | nothing _ => exact .nothing
  | error _ => exact .error _

theorem AltDenotes.isAlt {d : Datum} {alt : Alt} (h : AltDenotes d alt) : IsAlt alt.datum := by
  cases h with
  | const _ hbody => exact .const (isConst_datum _) hbody.isExpr
  | @con _ _ _ _ _ first tag name names _ _ _ _ _ hbody =>
    exact .con first tag name.display (isText_names names) hbody.isExpr
  | default hbody => exact .default hbody.isExpr

theorem AltsDenote.areAlts {ds : List Datum} {alts : List Alt} (h : AltsDenote ds alts) :
    AreAlts (altData alts) := by
  cases h with
  | nil => exact .nil
  | cons halt halts => exact .cons halt.isAlt halts.areAlts

end

theorem isProgram_of_readProgram {d : Datum} {p : Program} (h : readProgram d = .ok p) :
    IsProgram p.datum := by
  obtain ⟨ds, rfl, hdefs⟩ := readProgram_eq_ok.1 h
  refine .mk (List.forall_mem_map.2 fun f hf => ?_)
  obtain ⟨d, -, hd⟩ := exists_of_mapM hdefs f hf
  obtain ⟨dn, dps, db, rfl, -, -, hbody⟩ := readDefinition_eq_ok.1 hd
  exact .mk f.name.display (isText_names f.params) hbody.isExpr

/-! ## Sentences are in normal form -/

theorem map_normalize_eq {ds : List Datum} (h : ∀ d ∈ ds, normalize d = d) :
    ds.map normalize = ds :=
  (List.map_congr_left h).trans (List.map_id ds)

theorem normalize_form_eq {head : String} {fields : List Datum} (hhead : head ∉ looseHeads)
    (h : ∀ d ∈ fields, normalize d = d) : normalize (form head fields) = form head fields := by
  rw [normalize_form hhead, map_normalize_eq h]

theorem normalize_items_eq {items : List Datum} (hsymbol : ∀ d ∈ items, ∀ s, d ≠ .symbol s)
    (h : ∀ d ∈ items, normalize d = d) : normalize (.list items) = .list items := by
  rw [normalize_items hsymbol, map_normalize_eq h]

theorem IsVar.normalize_eq {d : Datum} (h : IsVar d) : normalize d = d := by
  cases h with
  | loc i => exact normalize_form (by decide)
  | glob n => exact normalize_form (by decide)

theorem normalize_vars {vs : List Datum} (h : ∀ v ∈ vs, IsVar v) :
    normalize (.list vs) = .list vs := by
  refine normalize_items_eq (fun v hv s hs => ?_) fun v hv => (h v hv).normalize_eq
  subst hs
  cases h _ hv

theorem normalize_texts {ds : List Datum} (h : ∀ d ∈ ds, IsText d) :
    normalize (.list ds) = .list ds := by
  refine normalize_items_eq (fun d hd s hs => ?_) fun d hd => ?_
  · subst hs
    cases h _ hd
  · cases h d hd
    rfl

theorem IsConst.normalize_eq {d : Datum} (h : IsConst d) : normalize d = d := by
  cases h with
  | float x => exact normalize_float _
  | _ => exact normalize_form (by decide)

theorem IsDescriptor.normalize_eq {d : Datum} (h : IsDescriptor d) : normalize d = d := by
  induction h with
  | con name => exact normalize_form (by decide)
  | str value => exact normalize_form (by decide)
  | app name _ ih => exact normalize_form_eq (by decide) (List.forall_mem_cons.2 ⟨rfl, ih⟩)
  | unknown => exact normalize_unknown []

theorem normalize_foreignArgs {args : List Datum} (h : ∀ a ∈ args, IsForeignArg a) :
    normalize (.list args) = .list args := by
  refine normalize_items_eq (fun a ha s hs => ?_) fun a ha => ?_
  · subst hs
    cases h _ ha
  · cases h a ha with
    | mk htype hvar =>
      refine (normalize_list fun s hs => ?_).trans ?_
      · cases hs
        cases htype
      · rw [List.map_cons, List.map_singleton, htype.normalize_eq, hvar.normalize_eq]

theorem normalize_types (types : List ArithType) :
    asSymbols (normalize (.list (types.map fun t => .symbol t.spelling))) =
      .list (types.map fun t => .symbol t.spelling) :=
  asSymbols_of_mapM (mapM_map_ok fun t _ => readArithType_symbol t)

mutual

/-- **A sentence is its own normal form.** -/
theorem IsExpr.normalize_eq {d : Datum} (h : IsExpr d) : normalize d = d := by
  cases h with
  | var hv => exact normalize_form_eq (by decide) (List.forall_mem_singleton.2 hv.normalize_eq)
  | app function hargs =>
    exact normalize_form_eq (by decide)
      (List.forall_mem_cons.2 ⟨rfl, List.forall_mem_singleton.2 (normalize_vars hargs)⟩)
  | appTail function hargs =>
    exact normalize_form_eq (by decide)
      (List.forall_mem_cons.2 ⟨rfl, List.forall_mem_singleton.2 (normalize_vars hargs)⟩)
  | bind hv hvalue hbody =>
    exact normalize_form_eq (by decide)
      (List.forall_mem_cons.2 ⟨hv.normalize_eq, List.forall_mem_cons.2
        ⟨hvalue.normalize_eq, List.forall_mem_singleton.2 hbody.normalize_eq⟩⟩)
  | update hv hvalue =>
    exact normalize_form_eq (by decide)
      (List.forall_mem_cons.2 ⟨hv.normalize_eq, List.forall_mem_singleton.2 hvalue.normalize_eq⟩)
  | con tag name hargs =>
    exact normalize_form_eq (by decide) (List.forall_mem_cons.2 ⟨rfl,
      List.forall_mem_cons.2 ⟨rfl, List.forall_mem_singleton.2 (normalize_vars hargs)⟩⟩)
  | case hv halts =>
    exact normalize_form_eq (by decide)
      (List.forall_mem_cons.2 ⟨hv.normalize_eq, halts.normalize_eq⟩)
  | checkedCase hv halts =>
    exact normalize_form_eq (by decide)
      (List.forall_mem_cons.2 ⟨hv.normalize_eq, halts.normalize_eq⟩)
  | proj index hv =>
    exact normalize_form_eq (by decide)
      (List.forall_mem_cons.2 ⟨hv.normalize_eq, List.forall_mem_singleton.2 rfl⟩)
  | const hc => exact normalize_form_eq (by decide) (List.forall_mem_singleton.2 hc.normalize_eq)
  | foreign hfunction hargs =>
    exact normalize_form_eq (by decide) (List.forall_mem_cons.2
      ⟨hfunction.normalize_eq, List.forall_mem_singleton.2 (normalize_foreignArgs hargs)⟩)
  | op types htag hargs => rw [normalize_op, normalize_types, normalize_vars hargs]; rfl
  | external name hargs => rw [normalize_op, normalize_vars hargs]; rfl
  | nothing => exact normalize_form (by decide)
  | error message => exact normalize_form (by decide)

theorem IsAlt.normalize_eq {d : Datum} (h : IsAlt d) : normalize d = d := by
  cases h with
  | const hc hbody =>
    exact normalize_form_eq (by decide)
      (List.forall_mem_cons.2 ⟨hc.normalize_eq, List.forall_mem_singleton.2 hbody.normalize_eq⟩)
  | con first tag name hfields hbody =>
    refine (normalize_form (by decide)).trans ?_
    simp only [List.map_cons, List.map_nil, normalize_texts hfields, hbody.normalize_eq]
    rfl
  | default hbody =>
    exact normalize_form_eq (by decide) (List.forall_mem_singleton.2 hbody.normalize_eq)

theorem AreAlts.normalize_eq {ds : List Datum} (h : AreAlts ds) : ∀ d ∈ ds, normalize d = d := by
  cases h with
  | nil => exact List.forall_mem_nil _
  | cons halt halts => exact List.forall_mem_cons.2 ⟨halt.normalize_eq, halts.normalize_eq⟩

end

theorem IsProgram.normalize_eq {d : Datum} (h : IsProgram d) : normalize d = d := by
  cases h with
  | mk hdefinitions =>
    refine normalize_form_eq (by decide) fun d hd => ?_
    cases hdefinitions d hd with
    | mk name hparams hbody =>
      exact normalize_form_eq (by decide) (List.forall_mem_cons.2 ⟨rfl, List.forall_mem_cons.2
        ⟨normalize_texts hparams, List.forall_mem_singleton.2 hbody.normalize_eq⟩⟩)

/-! ## Reading loses nothing but looseness -/

/-- **What is read is its normal form.** A program is written as the normal form of what it was read
from. That is a sentence of the grammar, and read as the same program; what was read was a sentence
itself exactly if it is in normal form. Programs are equal exactly if they were read from the same
normal form. -/
theorem readProgram_normalize {s : Datum} {p : Program} (hs : readProgram s = .ok p) :
    p.datum = normalize s ∧ IsProgram (normalize s) ∧ readProgram (normalize s) = .ok p ∧
      (IsProgram s ↔ normalize s = s) ∧
      ∀ t q, readProgram t = .ok q → (p = q ↔ normalize s = normalize t) := by
  have hnormal : normalize s = p.datum := normalize_of_readProgram hs
  have hsentence : IsProgram (normalize s) := hnormal ▸ isProgram_of_readProgram hs
  have hagain : readProgram (normalize s) = .ok p := hnormal ▸ readProgram_again hs
  refine ⟨hnormal.symm, hsentence, hagain, ⟨IsProgram.normalize_eq, fun h => h ▸ hsentence⟩, ?_⟩
  intro t q ht
  constructor
  · rintro rfl
    rw [hnormal, normalize_of_readProgram ht]
  · intro h
    -- both programs are what is read from their common normal form
    rw [h, normalize_of_readProgram ht, readProgram_again ht] at hagain
    exact (Except.ok.inj hagain).symm

/-- The form of a program that calls itself, compares with a constant, adds, and calls something
unknown. -/
def sampleForm (call constant addition unknown : Datum) : Datum :=
  form "program" [form "fun" [.text "Main.f", .list [.text "x"],
    form "let" [form "loc" [.integer 1], call,
      form "case" [form "loc" [.integer 1], form "const-case" [constant, addition],
        form "default" [form "foreign" [unknown, .list [.list [unknown, form "loc" [.integer 0]]]]]]]]]

/-- All that is loose in one program. -/
def looseForm : Datum :=
  sampleForm (form "app_tail" [.text "Main.f", .list [form "loc" [.integer 0]]])
    (form "float" [.integer 3])
    (form "op" [.text "LPlus", .list [.symbol "ITNative", .text "ITBig"], .list []])
    (form "unknown" [.integer 7, .list [.text "x"]])

/-- The number three. -/
def three : Binary64 := .finite false 0x18000000000000 1023

theorem ofInt?_three : Binary64.ofInt? 3 = some three := by decide +kernel

def strictForm : Datum :=
  sampleForm (form "app-tail" [.text "Main.f", .list [form "loc" [.integer 0]]])
    (form "float" [.real three])
    (form "op" [.symbol "LPlus", .list [.symbol "ITNative", .symbol "ITBig"], .list []])
    (form "unknown" [])

/-- The program of both forms. -/
def sampleProgram : Program :=
  let f : Name := .topLevel ["Main"] "f"
  ⟨[{ name := f
      params := [.topLevel [] "x"]
      body := .bind (.loc 1) (.app f [.loc 0] true)
        (.case (.loc 1)
          [.const (.float three) (.op ⟨.plus, [.native, .big], none⟩ []),
            .default (.foreign .unknown [⟨.unknown, .loc 0⟩] none)] false true) }]⟩

theorem readProgram_looseForm : readProgram looseForm = .ok sampleProgram := by
  have hconst : readConst (form "float" [.integer 3]) = .ok (.float three) := by
    change readFloat (.integer 3) = _
    rw [readFloat, ofInt?_three]
  refine readProgram_eq_ok.2 ⟨_, rfl, mapM_eq_ok.2 (.cons (readDefinition_eq_ok.2
    ⟨_, _, _, rfl, rfl, rfl, ?_⟩) .nil)⟩
  refine .bind rfl rfl (.app rfl rfl rfl) (.case rfl rfl (.cons ?_ (.cons ?_ .nil)))
  · exact .const hconst (.op rfl rfl rfl)
  · exact .default (.foreign rfl rfl rfl)

/-- Each of the four normalisations is made in a form that is read, and the program is that of the
sentence. -/
theorem readProgram_normalize_looseForm :
    readProgram looseForm = .ok sampleProgram ∧ sampleProgram.datum = strictForm ∧
      IsProgram strictForm ∧ readProgram strictForm = .ok sampleProgram ∧
      ¬ IsProgram looseForm ∧ normalize strictForm = strictForm := by
  have hnormal : normalize looseForm = strictForm := by
    have hreal : asReal (.integer 3) = .real three := by rw [asReal, ofInt?_three]
    rw [strictForm, ← hreal]
    rfl
  obtain ⟨hdatum, hsentence, hagain, hiff, hequal⟩ := readProgram_normalize readProgram_looseForm
  rw [hnormal] at hdatum hsentence hagain hiff hequal
  refine ⟨readProgram_looseForm, hdatum, hsentence, hagain, fun h => ?_, ?_⟩
  · have heq := hiff.1 h
    simp [strictForm, looseForm, sampleForm, form] at heq
  · exact ((hequal strictForm sampleProgram hagain).1 rfl).symm

end Vimgen.Ir
