import Vimgen.Ir.Reader
import Vimgen.Ir.Writer
import Vimgen.Proofs.Result

/-!
# What forms denote

`Denotes d e` says which expression an S-expression is the form of, one rule for each kind of
expression. `readExpr_eq_ok` is the reason to have it: the reader accepts exactly the forms that
denote something, and gives what they denote. Proofs about accepted forms are then inductions on the
rules. `readDefinition_eq_ok` and `readProgram_eq_ok` carry this over to definitions and programs.
-/

namespace Vimgen.Ir

open Sexp (Datum)

/-! ## Leaves -/

theorem readText_eq_ok {role s : String} {d : Datum} : readText role d = .ok s ↔ d = .text s := by
  unfold readText
  split
  · constructor
    · intro h; cases h; rfl
    · intro h; cases h; rfl
  · rename_i hno
    constructor
    · intro h; cases h
    · rintro rfl; exact absurd rfl (hno s)

theorem readInt_eq_ok {role : String} {n : Int} {d : Datum} :
    readInt role d = .ok n ↔ d = .integer n := by
  unfold readInt
  split
  · constructor
    · intro h; cases h; rfl
    · intro h; cases h; rfl
  · rename_i hno
    constructor
    · intro h; cases h
    · rintro rfl; exact absurd rfl (hno n)

theorem readList_eq_ok {role : String} {ds : List Datum} {d : Datum} :
    readList role d = .ok ds ↔ d = .list ds := by
  unfold readList
  split
  · constructor
    · intro h; cases h; rfl
    · intro h; cases h; rfl
  · rename_i hno
    constructor
    · intro h; cases h
    · rintro rfl; exact absurd rfl (hno ds)

/-- A list that is read item by item. -/
theorem readItems_eq_ok {α : Type} {role : String} {f : Datum → Read α} {d : Datum} {xs : List α} :
    (readList role d >>= List.mapM f) = .ok xs ↔ ∃ ds, d = .list ds ∧ ds.mapM f = .ok xs := by
  rw [bind_eq_ok]
  simp only [readList_eq_ok]

theorem readName_eq_ok {d : Datum} {n : Name} :
    readName d = .ok n ↔ ∃ s, d = .text s ∧ Name.parse s = .ok n := by
  rw [readName, bind_eq_ok]
  refine exists_congr fun s => and_congr readText_eq_ok ?_
  cases Name.parse s with
  | ok m =>
    constructor
    · intro h; cases h; rfl
    · intro h; cases h; rfl
  | error e =>
    constructor
    · intro h; cases h
    · intro h; cases h

theorem ConstHead.head_of_ofHead? {s : String} {kind : ConstHead} (h : ofHead? s = some kind) :
    s = kind.head := by
  have hhead := List.find?_some h
  exact (of_decide_eq_true hhead).symm

theorem readVar_eq_ok {d : Datum} {v : Var} :
    readVar d = .ok v ↔ (∃ i, d = form "loc" [.integer i] ∧ v = .loc i) ∨
      ∃ dn n, d = form "glob" [dn] ∧ readName dn = .ok n ∧ v = .glob n := by
  constructor
  · intro h
    unfold readVar at h
    split at h
    · split at h
      · rename_i htag
        subst htag
        split at h
        · obtain ⟨i, hi, h⟩ := bind_eq_ok.1 h
          cases h
          rw [readInt_eq_ok.1 hi]
          exact .inl ⟨i, rfl, rfl⟩
        · cases h
      split at h
      · rename_i htag
        subst htag
        split at h
        · obtain ⟨n, hn, h⟩ := bind_eq_ok.1 h
          cases h
          exact .inr ⟨_, n, rfl, hn, rfl⟩
        · cases h
      · cases h
    · cases h
  · rintro (⟨i, rfl, rfl⟩ | ⟨dn, n, rfl, hn, rfl⟩)
    · rfl
    · exact bind_eq_ok.2 ⟨n, hn, rfl⟩

theorem readForeignArg_eq_ok {d : Datum} {a : ForeignArg} :
    readForeignArg d = .ok a ↔ ∃ dt dv, d = .list [dt, dv] ∧ readDescriptor dt = .ok a.type ∧
      readVar dv = .ok a.var := by
  constructor
  · intro h
    obtain ⟨ds, hds, h⟩ := bind_eq_ok.1 h
    split at h
    · obtain ⟨type, htype, h⟩ := bind_eq_ok.1 h
      obtain ⟨var, hvar, h⟩ := bind_eq_ok.1 h
      cases h
      exact ⟨_, _, readList_eq_ok.1 hds, htype, hvar⟩
    · cases h
  · rintro ⟨dt, dv, rfl, htype, hvar⟩
    exact bind_eq_ok.2 ⟨_, rfl, bind_eq_ok.2 ⟨_, htype, bind_eq_ok.2 ⟨_, hvar, rfl⟩⟩⟩

/-! ## Expressions -/

mutual

/-- The expression that a form denotes. -/
inductive Denotes : Datum → Expr → Prop
  | var {head : String} {d : Datum} {v : Var} (hhead : ExprHead.ofHead? head = some .var)
    (hv : readVar d = .ok v) : Denotes (form head [d]) (.var v)
  | app {head : String} {tailCall : Bool} {d args : Datum} {f : Name} {vs : List Var}
    (hhead : ExprHead.ofHead? head = some (.app tailCall)) (hf : readName d = .ok f)
    (hvs : readVars args = .ok vs) : Denotes (form head [d, args]) (.app f vs tailCall)
  | bind {head : String} {d dv db : Datum} {v : Var} {value body : Expr}
    (hhead : ExprHead.ofHead? head = some .bind) (hv : readVar d = .ok v)
    (hvalue : Denotes dv value) (hbody : Denotes db body) :
    Denotes (form head [d, dv, db]) (.bind v value body)
  | update {head : String} {d dv : Datum} {v : Var} {value : Expr}
    (hhead : ExprHead.ofHead? head = some .update) (hv : readVar d = .ok v)
    (hvalue : Denotes dv value) : Denotes (form head [d, dv]) (.update v value)
  | con {head : String} {dt dn args : Datum} {tag : Int} {name : Name} {vs : List Var}
    (hhead : ExprHead.ofHead? head = some .con) (htag : readInt "constructor tag" dt = .ok tag)
    (hname : readName dn = .ok name) (hvs : readVars args = .ok vs) :
    Denotes (form head [dt, dn, args]) (.con tag name vs none)
  | case {head : String} {checked : Bool} {d : Datum} {ds : List Datum} {v : Var} {alts : List Alt}
    (hhead : ExprHead.ofHead? head = some (.case checked)) (hv : readVar d = .ok v)
    (halts : AltsDenote ds alts) : Denotes (form head (d :: ds)) (.case v alts checked true)
  | proj {head : String} {d di : Datum} {v : Var} {index : Int}
    (hhead : ExprHead.ofHead? head = some .proj) (hv : readVar d = .ok v)
    (hindex : readInt "projection index" di = .ok index) :
    Denotes (form head [d, di]) (.proj v index)
  | const {head : String} {d : Datum} {c : Const} (hhead : ExprHead.ofHead? head = some .const)
    (hc : readConst d = .ok c) : Denotes (form head [d]) (.const c)
  | foreign {head : String} {df : Datum} {ds : List Datum} {f : Descriptor} {args : List ForeignArg}
    (hhead : ExprHead.ofHead? head = some .foreign) (hargs : ds.mapM readForeignArg = .ok args)
    (hf : readDescriptor df = .ok f) : Denotes (form head [df, .list ds]) (.foreign f args none)
  | op {head : String} {dt types args : Datum} {op : PrimOp} {vs : List Var}
    (hhead : ExprHead.ofHead? head = some .op) (hop : readPrimOp dt types = .ok op)
    (hvs : readVars args = .ok vs) : Denotes (form head [dt, types, args]) (.op op vs)
  | nothing {head : String} (hhead : ExprHead.ofHead? head = some .nothing) :
    Denotes (form head []) .nothing
  | error {head : String} {message : String} (hhead : ExprHead.ofHead? head = some .error) :
    Denotes (form head [.text message]) (.error message)

/-- The alternative that a form denotes. -/
inductive AltDenotes : Datum → Alt → Prop
  | const {dc db : Datum} {c : Const} {body : Expr} (hc : readConst dc = .ok c)
    (hbody : Denotes db body) : AltDenotes (form "const-case" [dc, db]) (.const c body)
  | con {di dt dn dns db : Datum} {first tag : Int} {name : Name} {names : List Name} {body : Expr}
    (hnames : readNames "field names" dns = .ok names)
    (hfirst : readInt "first local" di = .ok first)
    (htag : readInt "constructor tag" dt = .ok tag) (hname : readName dn = .ok name)
    (hbody : Denotes db body) :
    AltDenotes (form "con-case" [di, dt, dn, dns, db]) (.con first tag name names body)
  | default {db : Datum} {body : Expr} (hbody : Denotes db body) :
    AltDenotes (form "default" [db]) (.default body)

inductive AltsDenote : List Datum → List Alt → Prop
  | nil : AltsDenote [] []
  | cons {d : Datum} {ds : List Datum} {alt : Alt} {alts : List Alt} (halt : AltDenotes d alt)
    (halts : AltsDenote ds alts) : AltsDenote (d :: ds) (alt :: alts)

end

mutual

theorem denotes_of_readExpr (d : Datum) {e : Expr} (h : readExpr d = .ok e) : Denotes d e := by
  unfold readExpr at h
  split at h
  · rename_i head fields
    split at h
    · cases h
    · rename_i kind hhead
      -- one case for each kind of form with as many fields as it takes, and the rest fails
      split at h
      · obtain ⟨v, hv, h⟩ := bind_eq_ok.1 h
        cases h
        exact .var hhead hv
      · obtain ⟨f, hf, h⟩ := bind_eq_ok.1 h
        obtain ⟨vs, hvs, h⟩ := bind_eq_ok.1 h
        cases h
        exact .app hhead hf hvs
      · obtain ⟨v, hv, h⟩ := bind_eq_ok.1 h
        obtain ⟨value, hvalue, h⟩ := bind_eq_ok.1 h
        obtain ⟨body, hbody, h⟩ := bind_eq_ok.1 h
        cases h
        exact .bind hhead hv (denotes_of_readExpr _ hvalue) (denotes_of_readExpr _ hbody)
      · obtain ⟨v, hv, h⟩ := bind_eq_ok.1 h
        obtain ⟨value, hvalue, h⟩ := bind_eq_ok.1 h
        cases h
        exact .update hhead hv (denotes_of_readExpr _ hvalue)
      · obtain ⟨tag, htag, h⟩ := bind_eq_ok.1 h
        obtain ⟨name, hname, h⟩ := bind_eq_ok.1 h
        obtain ⟨vs, hvs, h⟩ := bind_eq_ok.1 h
        cases h
        exact .con hhead htag hname hvs
      · obtain ⟨v, hv, h⟩ := bind_eq_ok.1 h
        obtain ⟨alts, halts, h⟩ := bind_eq_ok.1 h
        cases h
        exact .case hhead hv (denotes_of_readAlts _ halts)
      · obtain ⟨v, hv, h⟩ := bind_eq_ok.1 h
        obtain ⟨index, hindex, h⟩ := bind_eq_ok.1 h
        cases h
        exact .proj hhead hv hindex
      · obtain ⟨c, hc, h⟩ := bind_eq_ok.1 h
        cases h
        exact .const hhead hc
      · obtain ⟨ds, hds, h⟩ := bind_eq_ok.1 h
        obtain ⟨args, hargs, h⟩ := bind_eq_ok.1 h
        obtain ⟨f, hf, h⟩ := bind_eq_ok.1 h
        cases h
        rw [readList_eq_ok.1 hds]
        exact .foreign hhead hargs hf
      · obtain ⟨op, hop, h⟩ := bind_eq_ok.1 h
        obtain ⟨vs, hvs, h⟩ := bind_eq_ok.1 h
        cases h
        exact .op hhead hop hvs
      · cases h
        exact .nothing hhead
      · obtain ⟨message, hmessage, h⟩ := bind_eq_ok.1 h
        cases h
        rw [readText_eq_ok.1 hmessage]
        exact .error hhead
      · cases h
  · cases h
termination_by sizeOf d

theorem denotes_of_readAlt (d : Datum) {alt : Alt} (h : readAlt d = .ok alt) :
    AltDenotes d alt := by
  unfold readAlt at h
  split at h
  · rename_i head fields
    split at h
    · rename_i hhead
      subst hhead
      split at h
      · obtain ⟨c, hc, h⟩ := bind_eq_ok.1 h
        obtain ⟨body, hbody, h⟩ := bind_eq_ok.1 h
        cases h
        exact .const hc (denotes_of_readExpr _ hbody)
      · cases h
    split at h
    · rename_i hhead
      subst hhead
      split at h
      · obtain ⟨names, hnames, h⟩ := bind_eq_ok.1 h
        obtain ⟨first, hfirst, h⟩ := bind_eq_ok.1 h
        obtain ⟨tag, htag, h⟩ := bind_eq_ok.1 h
        obtain ⟨name, hname, h⟩ := bind_eq_ok.1 h
        obtain ⟨body, hbody, h⟩ := bind_eq_ok.1 h
        cases h
        exact .con hnames hfirst htag hname (denotes_of_readExpr _ hbody)
      · cases h
    split at h
    · rename_i hhead
      subst hhead
      split at h
      · obtain ⟨body, hbody, h⟩ := bind_eq_ok.1 h
        cases h
        exact .default (denotes_of_readExpr _ hbody)
      · cases h
    · cases h
  · cases h
termination_by sizeOf d

theorem denotes_of_readAlts (ds : List Datum) {alts : List Alt} (h : readAlts ds = .ok alts) :
    AltsDenote ds alts := by
  cases ds with
  | nil => cases h; exact .nil
  | cons d rest =>
    rw [readAlts] at h
    obtain ⟨alt, halt, h⟩ := bind_eq_ok.1 h
    obtain ⟨alts, halts, h⟩ := bind_eq_ok.1 h
    cases h
    exact .cons (denotes_of_readAlt d halt) (denotes_of_readAlts rest halts)
termination_by sizeOf ds

end

mutual

theorem Denotes.readExpr {d : Datum} {e : Expr} (h : Denotes d e) : readExpr d = .ok e := by
  cases h with
  | var hhead hv => simp only [form, Ir.readExpr, hhead, hv]; rfl
  | app hhead hf hvs => simp only [form, Ir.readExpr, hhead, hf, hvs]; rfl
  | bind hhead hv hvalue hbody =>
    simp only [form, Ir.readExpr, hhead, hv, hvalue.readExpr, hbody.readExpr]; rfl
  | update hhead hv hvalue => simp only [form, Ir.readExpr, hhead, hv, hvalue.readExpr]; rfl
  | con hhead htag hname hvs => simp only [form, Ir.readExpr, hhead, htag, hname, hvs]; rfl
  | case hhead hv halts => simp only [form, Ir.readExpr, hhead, hv, halts.readAlts]; rfl
  | proj hhead hv hindex => simp only [form, Ir.readExpr, hhead, hv, hindex]; rfl
  | const hhead hc => simp only [form, Ir.readExpr, hhead, hc]; rfl
  | foreign hhead hargs hf =>
    simp only [form, Ir.readExpr, hhead, readList, hf]
    -- arguments are read before the function, so their reading is still open here
    rw [bind_eq_ok]
    exact ⟨_, rfl, bind_eq_ok.2 ⟨_, hargs, rfl⟩⟩
  | op hhead hop hvs => simp only [form, Ir.readExpr, hhead, hop, hvs]; rfl
  | nothing hhead => simp only [form, Ir.readExpr, hhead]; rfl
  | error hhead => simp only [form, Ir.readExpr, hhead]; rfl

theorem AltDenotes.readAlt {d : Datum} {alt : Alt} (h : AltDenotes d alt) :
    readAlt d = .ok alt := by
  cases h with
  | const hc hbody => simp only [form, Ir.readAlt, if_true, hc, hbody.readExpr]; rfl
  | con hnames hfirst htag hname hbody =>
    have hne : "con-case" ≠ "const-case" := by decide
    simp only [form, Ir.readAlt, if_neg hne, if_true, hnames, hfirst, htag, hname, hbody.readExpr]
    rfl
  | default hbody =>
    have hconst : "default" ≠ "const-case" := by decide
    have hcon : "default" ≠ "con-case" := by decide
    simp only [form, Ir.readAlt, if_neg hconst, if_neg hcon, if_true, hbody.readExpr]
    rfl

theorem AltsDenote.readAlts {ds : List Datum} {alts : List Alt} (h : AltsDenote ds alts) :
    readAlts ds = .ok alts := by
  cases h with
  | nil => rfl
  | cons halt halts => simp only [Ir.readAlts, halt.readAlt, halts.readAlts]; rfl

end

/-- **The reader accepts exactly the forms that denote something.** -/
theorem readExpr_eq_ok {d : Datum} {e : Expr} : readExpr d = .ok e ↔ Denotes d e :=
  ⟨denotes_of_readExpr d, Denotes.readExpr⟩

/-! ## Programs -/

theorem readDefinition_eq_ok {d : Datum} {f : Definition} :
    readDefinition d = .ok f ↔ ∃ dn dps db, d = form "fun" [dn, dps, db] ∧
      readNames "argument list" dps = .ok f.params ∧ readName dn = .ok f.name ∧
        Denotes db f.body := by
  constructor
  · intro h
    unfold readDefinition at h
    split at h
    · split at h
      · rename_i htag
        subst htag
        split at h
        · obtain ⟨params, hparams, h⟩ := bind_eq_ok.1 h
          obtain ⟨name, hname, h⟩ := bind_eq_ok.1 h
          obtain ⟨body, hbody, h⟩ := bind_eq_ok.1 h
          cases h
          exact ⟨_, _, _, rfl, hparams, hname, readExpr_eq_ok.1 hbody⟩
        · cases h
      · cases h
    · cases h
  · rintro ⟨dn, dps, db, rfl, hparams, hname, hbody⟩
    simp only [form, readDefinition, if_true, hparams, hname, readExpr_eq_ok.2 hbody]
    rfl

theorem readProgram_eq_ok {d : Datum} {p : Program} :
    readProgram d = .ok p ↔ ∃ ds, d = form "program" ds ∧
      ds.mapM readDefinition = .ok p.definitions := by
  constructor
  · intro h
    unfold readProgram at h
    split at h
    · split at h
      · rename_i htag
        subst htag
        obtain ⟨definitions, hdefs, h⟩ := bind_eq_ok.1 h
        cases h
        exact ⟨_, rfl, hdefs⟩
      · cases h
    · cases h
  · rintro ⟨ds, rfl, hdefs⟩
    simp only [form, readProgram, if_true]
    exact bind_eq_ok.2 ⟨_, hdefs, rfl⟩

end Vimgen.Ir
