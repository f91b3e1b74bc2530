import Vimgen.Proofs.Denotes
import Vimgen.Proofs.NameText
import Vimgen.Proofs.Reading

/-!
# Programs that can be written

`Program.IsWritable` collects what program text can express: names are read back from their text,
integers have no more digits than can be read, floating point numbers are canonical, and what is not
written (hints for reuse, types of foreign results, sharing) has its default. The two halves of the
round trip meet there:

* `Expr.IsWritable.denotes` and `Expr.IsWritable.isPlain`: the form of a writable expression denotes
  it, and both written forms of it are read back.
* `Denotes.isWritable`: what a sound form denotes is writable.
-/

namespace Vimgen

/-- A name is read back from its text. -/
def Name.ReadsBack (n : Name) : Prop := Name.parse n.display = .ok n

namespace Ir

open Numeral (Spellable)
open Sexp (Datum allPlain allPlain_iff allSound_iff)

/-! ## The conditions -/

def Const.IsWritable : Const → Prop
  | .int n | .bigInt n => Spellable n
  | .bits width n => Spellable width ∧ Spellable n
  | .float x => x.IsCanonical
  | .char _ | .str _ | .world | .type _ => True

def Var.IsWritable : Var → Prop
  | .loc i => Spellable i
  | .glob n => n.ReadsBack

/-- A primitive outside the language has a name and no types, any other has no name. -/
def PrimOp.IsWritable (op : PrimOp) : Prop :=
  if op.tag = .external then op.name ≠ none ∧ op.types = [] else op.name = none

mutual

def Expr.IsWritable : Expr → Prop
  | .var v => v.IsWritable
  | .app f args _ => f.ReadsBack ∧ ∀ v ∈ args, v.IsWritable
  | .bind v value body => v.IsWritable ∧ value.IsWritable ∧ body.IsWritable
  | .update v value => v.IsWritable ∧ value.IsWritable
  | .con tag name args reuse =>
    Spellable tag ∧ name.ReadsBack ∧ (∀ v ∈ args, v.IsWritable) ∧ reuse = none
  | .case v alts _ shared => v.IsWritable ∧ altsWritable alts ∧ shared = true
  | .proj v index => v.IsWritable ∧ Spellable index
  | .const c => c.IsWritable
  | .foreign _ args result => (∀ a ∈ args, a.var.IsWritable) ∧ result = none
  | .op op args => op.IsWritable ∧ ∀ v ∈ args, v.IsWritable
  | .nothing | .error _ => True

def Alt.IsWritable : Alt → Prop
  | .const c body => c.IsWritable ∧ body.IsWritable
  | .con first tag name fields body =>
    Spellable first ∧ Spellable tag ∧ name.ReadsBack ∧ (∀ n ∈ fields, n.ReadsBack) ∧ body.IsWritable
  | .default body => body.IsWritable

def altsWritable : List Alt → Prop
  | [] => True
  | alt :: rest => alt.IsWritable ∧ altsWritable rest

end

def Definition.IsWritable (d : Definition) : Prop :=
  d.name.ReadsBack ∧ (∀ n ∈ d.params, n.ReadsBack) ∧ d.body.IsWritable

/-- What program text can express. -/
def Program.IsWritable (p : Program) : Prop := ∀ d ∈ p.definitions, d.IsWritable

/-! ## Leaves are read back -/

theorem mapM_map_ok {α : Type} {f : Datum → Read α} {g : α → Datum} {xs : List α}
    (h : ∀ x ∈ xs, f (g x) = .ok x) : (xs.map g).mapM f = .ok xs := by
  rw [mapM_eq_ok, List.forall₂_map_left_iff, List.forall₂_same]
  exact h

theorem readName_datum {n : Name} (h : n.ReadsBack) : readName (nameDatum n) = .ok n :=
  readName_eq_ok.2 ⟨_, rfl, h⟩

theorem readNames_datum {role : String} {ns : List Name} (h : ∀ n ∈ ns, n.ReadsBack) :
    readNames role (.list (ns.map nameDatum)) = .ok ns :=
  readItems_eq_ok.2 ⟨_, rfl, mapM_map_ok fun n hn => readName_datum (h n hn)⟩

theorem readConst_datum (c : Const) : readConst c.datum = .ok c := by
  cases c with
  | char c =>
    have hchar : (String.singleton c).toList = [c] := by simp
    have hread : readConst (Const.char c).datum = readChar (.text (String.singleton c)) := rfl
    rw [hread]
    exact bind_eq_ok.2 ⟨_, rfl, by rw [hchar]⟩
  | _ => rfl

theorem readVar_datum {v : Var} (h : v.IsWritable) : readVar v.datum = .ok v := by
  cases v with
  | loc i => rfl
  | glob n => exact readVar_eq_ok.2 (.inr ⟨_, n, rfl, readName_datum h, rfl⟩)

theorem readVars_datum {vs : List Var} (h : ∀ v ∈ vs, v.IsWritable) :
    readVars (varData vs) = .ok vs :=
  readItems_eq_ok.2 ⟨_, rfl, mapM_map_ok fun v hv => readVar_datum (h v hv)⟩

mutual

theorem readDescriptor_datum (d : Descriptor) : readDescriptor d.datum = .ok d := by
  cases d with
  | con name => rfl
  | str value => rfl
  | app name args =>
    have hread : readDescriptor (Descriptor.app name args).datum =
        (do return .app name (← readDescriptors (descriptorData args))) := rfl
    rw [hread, readDescriptors_data args]
    rfl
  | unknown => rfl

theorem readDescriptors_data (ds : List Descriptor) :
    readDescriptors (descriptorData ds) = .ok ds := by
  cases ds with
  | nil => rfl
  | cons d rest =>
    rw [descriptorData, readDescriptors, readDescriptor_datum d, readDescriptors_data rest]
    rfl

end

theorem readForeignArg_datum {a : ForeignArg} (h : readVar a.var.datum = .ok a.var) :
    readForeignArg a.datum = .ok a :=
  readForeignArg_eq_ok.2 ⟨_, _, rfl, readDescriptor_datum a.type, h⟩

theorem ofSpelling?_primTag (t : PrimTag) : PrimTag.ofSpelling? t.spelling = some t := by
  cases t <;> decide

theorem ofSpelling?_arithType (t : ArithType) : ArithType.ofSpelling? t.spelling = some t := by
  cases t <;> decide

theorem readPrimTag_symbol (t : PrimTag) : readPrimTag (.symbol t.spelling) = .ok t := by
  simp only [readPrimTag, spelled, Option.bind_some, ofSpelling?_primTag]

theorem readArithType_symbol (t : ArithType) : readArithType (.symbol t.spelling) = .ok t := by
  simp only [readArithType, spelled, Option.bind_some, ofSpelling?_arithType]

theorem readPrimOp_details {op : PrimOp} (h : op.IsWritable) :
    readPrimOp (.symbol op.tag.spelling) op.details = .ok op := by
  obtain ⟨tag, types, name⟩ := op
  unfold PrimOp.IsWritable at h
  unfold readPrimOp PrimOp.details
  rw [readPrimTag_symbol]
  refine bind_eq_ok.2 ⟨_, rfl, ?_⟩
  dsimp only at h ⊢
  split at h
  · rename_i htag
    obtain ⟨hname, rfl⟩ := h
    obtain ⟨name, rfl⟩ := Option.ne_none_iff_exists'.1 hname
    rw [if_pos htag, if_pos htag]
    rfl
  · rename_i htag
    subst h
    rw [if_neg htag, if_neg htag]
    have hlist : (types.map fun t => Datum.symbol t.spelling).mapM readArithType = .ok types :=
      mapM_map_ok fun t _ => readArithType_symbol t
    exact bind_eq_ok.2 ⟨_, rfl, bind_eq_ok.2 ⟨_, hlist, rfl⟩⟩

/-! ## Forms denote what they were written for -/

mutual

/-- **The form of a writable expression denotes it.** -/
theorem Expr.IsWritable.denotes (e : Expr) (h : e.IsWritable) : Denotes e.datum e := by
  cases e with
  | var v => exact .var rfl (readVar_datum h)
  | app f args tailCall =>
    cases tailCall with
    | true => exact .app rfl (readName_datum h.1) (readVars_datum h.2)
    | false => exact .app rfl (readName_datum h.1) (readVars_datum h.2)
  | bind v value body =>
    exact .bind rfl (readVar_datum h.1) (Expr.IsWritable.denotes value h.2.1)
      (Expr.IsWritable.denotes body h.2.2)
  | update v value => exact .update rfl (readVar_datum h.1) (Expr.IsWritable.denotes value h.2)
  | con tag name args reuse =>
    obtain ⟨-, hname, hargs, rfl⟩ := h
    exact .con rfl rfl (readName_datum hname) (readVars_datum hargs)
  | case v alts checked shared =>
    obtain ⟨hv, halts, rfl⟩ := h
    cases checked with
    | true => exact .case rfl (readVar_datum hv) (altsWritable_denote alts halts)
    | false => exact .case rfl (readVar_datum hv) (altsWritable_denote alts halts)
  | proj v index => exact .proj rfl (readVar_datum h.1) rfl
  | const c => exact .const rfl (readConst_datum c)
  | foreign f args result =>
    obtain ⟨hargs, rfl⟩ := h
    refine .foreign rfl (mapM_map_ok fun a ha => ?_) (readDescriptor_datum f)
    exact readForeignArg_datum (readVar_datum (hargs a ha))
  | op op args => exact .op rfl (readPrimOp_details h.1) (readVars_datum h.2)
  | nothing => exact .nothing rfl
  | error message => exact .error rfl

theorem Alt.IsWritable.denotes (alt : Alt) (h : alt.IsWritable) : AltDenotes alt.datum alt := by
  cases alt with
  | const c body => exact .const (readConst_datum c) (Expr.IsWritable.denotes body h.2)
  | con first tag name fields body =>
    obtain ⟨-, -, hname, hfields, hbody⟩ := h
    exact .con (readNames_datum hfields) rfl rfl (readName_datum hname)
      (Expr.IsWritable.denotes body hbody)
  | default body => exact .default (Expr.IsWritable.denotes body h)

theorem altsWritable_denote (alts : List Alt) (h : altsWritable alts) :
    AltsDenote (altData alts) alts := by
  cases alts with
  | nil => exact .nil
  | cons alt rest => exact .cons (Alt.IsWritable.denotes alt h.1) (altsWritable_denote rest h.2)

end

theorem readDefinition_datum {d : Definition} (h : d.IsWritable) :
    readDefinition d.datum = .ok d := by
  obtain ⟨hname, hparams, hbody⟩ := h
  exact readDefinition_eq_ok.2 ⟨_, _, _, rfl, readNames_datum hparams, readName_datum hname,
    Expr.IsWritable.denotes d.body hbody⟩

theorem readProgram_datum {p : Program} (h : p.IsWritable) : readProgram p.datum = .ok p :=
  readProgram_eq_ok.2 ⟨_, rfl, mapM_map_ok fun d hd => readDefinition_datum (h d hd)⟩

/-! ## Forms are plain -/

theorem isPlain_form {head : String} {fields : List Datum} (hhead : Sexp.isWord head = true)
    (hfields : allPlain fields) : (form head fields).IsPlain :=
  ⟨.of_isWord hhead, hfields⟩

theorem isPlain_list {α : Type} {f : α → Datum} {xs : List α} (h : ∀ x ∈ xs, (f x).IsPlain) :
    (Datum.list (xs.map f)).IsPlain := by
  refine allPlain_iff.2 fun d hd => ?_
  obtain ⟨x, hx, rfl⟩ := List.mem_map.1 hd
  exact h x hx

theorem isPlain_nameDatum (n : Name) : (nameDatum n).IsPlain := trivial

theorem Const.IsWritable.isPlain {c : Const} (h : c.IsWritable) : c.datum.IsPlain := by
  cases c with
  | int n => exact isPlain_form (by decide) ⟨h, trivial⟩
  | bigInt n => exact isPlain_form (by decide) ⟨h, trivial⟩
  | float x => exact isPlain_form (by decide) ⟨h, trivial⟩
  | char c => exact isPlain_form (by decide) ⟨trivial, trivial⟩
  | str s => exact isPlain_form (by decide) ⟨trivial, trivial⟩
  | bits width n => exact isPlain_form (by decide) ⟨h.1, h.2, trivial⟩
  | world => exact isPlain_form (by decide) trivial
  | type name => exact isPlain_form (by decide) ⟨trivial, trivial⟩

theorem Var.IsWritable.isPlain {v : Var} (h : v.IsWritable) : v.datum.IsPlain := by
  cases v with
  | loc i => exact isPlain_form (by decide) ⟨h, trivial⟩
  | glob n => exact isPlain_form (by decide) ⟨isPlain_nameDatum n, trivial⟩

theorem isPlain_varData {vs : List Var} (h : ∀ v ∈ vs, v.IsWritable) : (varData vs).IsPlain :=
  isPlain_list fun v hv => (h v hv).isPlain

mutual

theorem isPlain_descriptor (d : Descriptor) : d.datum.IsPlain := by
  cases d with
  | con name => exact isPlain_form (by decide) ⟨trivial, trivial⟩
  | str value => exact isPlain_form (by decide) ⟨trivial, trivial⟩
  | app name args => exact isPlain_form (by decide) ⟨trivial, allPlain_descriptors args⟩
  | unknown => exact isPlain_form (by decide) trivial

theorem allPlain_descriptors (ds : List Descriptor) : allPlain (descriptorData ds) := by
  cases ds with
  | nil => trivial
  | cons d rest => exact ⟨isPlain_descriptor d, allPlain_descriptors rest⟩

end

theorem isWord_primTag (t : PrimTag) : Sexp.isWord t.spelling = true := by
  have hall : ∀ t ∈ PrimTag.all, Sexp.isWord t.spelling = true := by decide +kernel
  exact hall t (by cases t <;> decide)

theorem isWord_arithType (t : ArithType) : Sexp.isWord t.spelling = true := by
  cases t <;> decide

theorem isPlain_details {op : PrimOp} (h : op.IsWritable) : op.details.IsPlain := by
  unfold PrimOp.IsWritable at h
  unfold PrimOp.details
  split at h
  · rename_i htag
    obtain ⟨name, hname⟩ := Option.ne_none_iff_exists'.1 h.1
    rw [if_pos htag, hname]
    trivial
  · rename_i htag
    rw [if_neg htag]
    exact isPlain_list fun t _ => .of_isWord (isWord_arithType t)

mutual

/-- **The form of a writable expression is plain.** -/
theorem Expr.IsWritable.isPlain (e : Expr) (h : e.IsWritable) : e.datum.IsPlain := by
  cases e with
  | var v => exact isPlain_form (by decide) ⟨Var.IsWritable.isPlain h, trivial⟩
  | app f args tailCall =>
    refine isPlain_form (by cases tailCall <;> decide) ?_
    exact ⟨isPlain_nameDatum f, isPlain_varData h.2, trivial⟩
  | bind v value body =>
    refine isPlain_form (by decide) ⟨h.1.isPlain, ?_, ?_, trivial⟩
    · exact Expr.IsWritable.isPlain value h.2.1
    · exact Expr.IsWritable.isPlain body h.2.2
  | update v value =>
    exact isPlain_form (by decide) ⟨h.1.isPlain, Expr.IsWritable.isPlain value h.2, trivial⟩
  | con tag name args reuse =>
    exact isPlain_form (by decide)
      ⟨h.1, isPlain_nameDatum name, isPlain_varData h.2.2.1, trivial⟩
  | case v alts checked shared =>
    refine isPlain_form (by cases checked <;> decide) ?_
    exact ⟨h.1.isPlain, altsWritable_isPlain alts h.2.1⟩
  | proj v index => exact isPlain_form (by decide) ⟨h.1.isPlain, h.2, trivial⟩
  | const c => exact isPlain_form (by decide) ⟨Const.IsWritable.isPlain h, trivial⟩
  | foreign f args result =>
    refine isPlain_form (by decide) ⟨isPlain_descriptor f, ?_, trivial⟩
    refine isPlain_list fun a ha => ?_
    exact ⟨isPlain_descriptor a.type, (h.1 a ha).isPlain, trivial⟩
  | op op args =>
    refine isPlain_form (by decide) ⟨?_, isPlain_details h.1, isPlain_varData h.2, trivial⟩
    exact .of_isWord (isWord_primTag op.tag)
  | nothing => exact isPlain_form (by decide) trivial
  | error message => exact isPlain_form (by decide) ⟨trivial, trivial⟩

theorem Alt.IsWritable.isPlain (alt : Alt) (h : alt.IsWritable) : alt.datum.IsPlain := by
  cases alt with
  | const c body =>
    exact isPlain_form (by decide) ⟨h.1.isPlain, Expr.IsWritable.isPlain body h.2, trivial⟩
  | con first tag name fields body =>
    obtain ⟨hfirst, htag, -, -, hbody⟩ := h
    have hfields : (Datum.list (fields.map nameDatum)).IsPlain :=
      isPlain_list fun n _ => isPlain_nameDatum n
    exact isPlain_form (by decide)
      ⟨hfirst, htag, isPlain_nameDatum name, hfields, Expr.IsWritable.isPlain body hbody, trivial⟩
  | default body => exact isPlain_form (by decide) ⟨Expr.IsWritable.isPlain body h, trivial⟩

theorem altsWritable_isPlain (alts : List Alt) (h : altsWritable alts) :
    allPlain (altData alts) := by
  cases alts with
  | nil => trivial
  | cons alt rest => exact ⟨Alt.IsWritable.isPlain alt h.1, altsWritable_isPlain rest h.2⟩

end

theorem Definition.IsWritable.isPlain {d : Definition} (h : d.IsWritable) : d.datum.IsPlain := by
  have hparams : (Datum.list (d.params.map nameDatum)).IsPlain :=
    isPlain_list fun n _ => isPlain_nameDatum n
  exact isPlain_form (by decide)
    ⟨isPlain_nameDatum d.name, hparams, Expr.IsWritable.isPlain d.body h.2.2, trivial⟩

theorem Program.IsWritable.isPlain {p : Program} (h : p.IsWritable) : p.datum.IsPlain := by
  exact isPlain_form (by decide) (isPlain_list fun d hd => (h d hd).isPlain)

/-! ## What is read is writable -/

theorem readsBack_of_readName {d : Datum} {n : Name} (h : readName d = .ok n) : n.ReadsBack := by
  obtain ⟨s, -, hparse⟩ := readName_eq_ok.1 h
  exact Name.parse_display_iff.2 ⟨s, hparse⟩

theorem readsBack_of_readNames {role : String} {d : Datum} {ns : List Name}
    (h : readNames role d = .ok ns) : ∀ n ∈ ns, n.ReadsBack := by
  obtain ⟨ds, -, h⟩ := readItems_eq_ok.1 h
  intro n hn
  obtain ⟨d, -, hd⟩ := exists_of_mapM h n hn
  exact readsBack_of_readName hd

theorem spellable_of_readInt {role : String} {d : Datum} {n : Int} (h : readInt role d = .ok n)
    (hd : d.IsSound) : Spellable n := by
  rw [readInt_eq_ok.1 h] at hd
  exact hd

theorem isWritable_of_readVar {d : Datum} {v : Var} (h : readVar d = .ok v) (hd : d.IsSound) :
    v.IsWritable := by
  obtain ⟨i, rfl, rfl⟩ | ⟨dn, n, rfl, hn, rfl⟩ := readVar_eq_ok.1 h
  · exact hd.2.1
  · exact readsBack_of_readName hn

theorem isWritable_of_readVars {d : Datum} {vs : List Var} (h : readVars d = .ok vs)
    (hd : d.IsSound) : ∀ v ∈ vs, v.IsWritable := by
  obtain ⟨ds, rfl, h⟩ := readItems_eq_ok.1 h
  intro v hv
  obtain ⟨e, he, hread⟩ := exists_of_mapM h v hv
  exact isWritable_of_readVar hread (allSound_iff.1 hd e he)

theorem isWritable_of_readFloat {d : Datum} {c : Const} (h : readFloat d = .ok c) (hd : d.IsSound) :
    c.IsWritable := by
  unfold readFloat at h
  split at h
  · cases h; exact hd
  · split at h
    · rename_i hint
      cases h
      exact Binary64.isCanonical_of_ofInt? hint
    · cases h
  · cases h

theorem isWritable_of_readChar {d : Datum} {c : Const} (h : readChar d = .ok c) : c.IsWritable := by
  obtain ⟨s, -, h⟩ := bind_eq_ok.1 h
  split at h
  · cases h; trivial
  · cases h

theorem isWritable_of_readConst {d : Datum} {c : Const} (h : readConst d = .ok c) (hd : d.IsSound) :
    c.IsWritable := by
  unfold readConst at h
  split at h
  · split at h
    · cases h
    · split at h
      · obtain ⟨n, hn, h⟩ := bind_eq_ok.1 h
        cases h
        exact spellable_of_readInt hn hd.2.1
      · obtain ⟨n, hn, h⟩ := bind_eq_ok.1 h
        cases h
        exact spellable_of_readInt hn hd.2.1
      · exact isWritable_of_readFloat h hd.2.1
      · exact isWritable_of_readChar h
      · obtain ⟨s, -, h⟩ := bind_eq_ok.1 h
        cases h
        trivial
      · obtain ⟨width, hwidth, h⟩ := bind_eq_ok.1 h
        obtain ⟨n, hn, h⟩ := bind_eq_ok.1 h
        cases h
        exact ⟨spellable_of_readInt hwidth hd.2.1, spellable_of_readInt hn hd.2.2.1⟩
      · cases h; trivial
      · obtain ⟨s, -, h⟩ := bind_eq_ok.1 h
        cases h
        trivial
      · cases h
  · cases h

theorem isWritable_of_readForeignArg {d : Datum} {a : ForeignArg} (h : readForeignArg d = .ok a)
    (hd : d.IsSound) : a.var.IsWritable := by
  obtain ⟨dt, dv, rfl, -, hvar⟩ := readForeignArg_eq_ok.1 h
  exact isWritable_of_readVar hvar hd.2.1

theorem isWritable_of_readPrimOp {dt types : Datum} {op : PrimOp}
    (h : readPrimOp dt types = .ok op) : op.IsWritable := by
  obtain ⟨tag, -, h⟩ := bind_eq_ok.1 h
  unfold PrimOp.IsWritable
  split at h
  · rename_i htag
    obtain ⟨name, -, h⟩ := bind_eq_ok.1 h
    cases h
    rw [if_pos htag]
    exact ⟨by simp, rfl⟩
  · rename_i htag
    obtain ⟨ds, -, h⟩ := bind_eq_ok.1 h
    obtain ⟨types, -, h⟩ := bind_eq_ok.1 h
    cases h
    rw [if_neg htag]

mutual

/-- **What a sound form denotes is writable.** -/
theorem Denotes.isWritable {d : Datum} {e : Expr} (h : Denotes d e) (hd : d.IsSound) :
    e.IsWritable := by
  cases h with
  | var _ hv => exact isWritable_of_readVar hv hd.2.1
  | app _ hf hvs => exact ⟨readsBack_of_readName hf, isWritable_of_readVars hvs hd.2.2.1⟩
  | bind _ hv hvalue hbody =>
    exact ⟨isWritable_of_readVar hv hd.2.1, hvalue.isWritable hd.2.2.1, hbody.isWritable hd.2.2.2.1⟩
  | update _ hv hvalue => exact ⟨isWritable_of_readVar hv hd.2.1, hvalue.isWritable hd.2.2.1⟩
  | con _ htag hname hvs =>
    exact ⟨spellable_of_readInt htag hd.2.1, readsBack_of_readName hname,
      isWritable_of_readVars hvs hd.2.2.2.1, rfl⟩
  | case _ hv halts => exact ⟨isWritable_of_readVar hv hd.2.1, halts.isWritable hd.2.2, rfl⟩
  | proj _ hv hindex =>
    exact ⟨isWritable_of_readVar hv hd.2.1, spellable_of_readInt hindex hd.2.2.1⟩
  | const _ hc => exact isWritable_of_readConst hc hd.2.1
  | foreign _ hargs _ =>
    refine ⟨fun a ha => ?_, rfl⟩
    obtain ⟨e, he, hread⟩ := exists_of_mapM hargs a ha
    exact isWritable_of_readForeignArg hread (allSound_iff.1 hd.2.2.1 e he)
  | op _ hop hvs => exact ⟨isWritable_of_readPrimOp hop, isWritable_of_readVars hvs hd.2.2.2.1⟩
  | nothing _ => trivial
  | error _ => trivial

theorem AltDenotes.isWritable {d : Datum} {alt : Alt} (h : AltDenotes d alt) (hd : d.IsSound) :
    alt.IsWritable := by
  cases h with
  | const hc hbody => exact ⟨isWritable_of_readConst hc hd.2.1, hbody.isWritable hd.2.2.1⟩
  | con hnames hfirst htag hname hbody =>
    exact ⟨spellable_of_readInt hfirst hd.2.1, spellable_of_readInt htag hd.2.2.1,
      readsBack_of_readName hname, readsBack_of_readNames hnames, hbody.isWritable hd.2.2.2.2.2.1⟩
  | default hbody => exact hbody.isWritable hd.2.1

theorem AltsDenote.isWritable {ds : List Datum} {alts : List Alt} (h : AltsDenote ds alts)
    (hd : Sexp.allSound ds) : altsWritable alts := by
  cases h with
  | nil => trivial
  | cons halt halts => exact ⟨halt.isWritable hd.1, halts.isWritable hd.2⟩

end

theorem isWritable_of_readDefinition {d : Datum} {f : Definition} (h : readDefinition d = .ok f)
    (hd : d.IsSound) : f.IsWritable := by
  obtain ⟨dn, dps, db, rfl, hparams, hname, hbody⟩ := readDefinition_eq_ok.1 h
  exact ⟨readsBack_of_readName hname, readsBack_of_readNames hparams,
    hbody.isWritable hd.2.2.2.1⟩

theorem isWritable_of_readProgram {d : Datum} {p : Program} (h : readProgram d = .ok p)
    (hd : d.IsSound) : p.IsWritable := by
  obtain ⟨ds, rfl, hdefs⟩ := readProgram_eq_ok.1 h
  intro f hf
  obtain ⟨e, he, hread⟩ := exists_of_mapM hdefs f hf
  exact isWritable_of_readDefinition hread (allSound_iff.1 hd.2 e he)

end Ir

end Vimgen
