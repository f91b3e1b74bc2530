import Vimgen.Proofs.Writable

/-!
# The normal form of what is read

The reader takes some forms that the grammar of programs does not have. `normalize` rewrites them,
wherever they stand: a tail call has one spelling, the tag and the types of a primitive are symbols,
an unknown descriptor has no fields, and a floating point constant is not written as an integer.
Nothing else is lost by reading:

* `Denotes.normalize_eq`: what is read is written as the normal form of what it was read from.
* `Denotes.datum`: that is read as the same again.

`normalize_of_readProgram` and `readProgram_again` are the two for programs.
-/

namespace Vimgen.Ir

open Sexp (Datum)

/-! ## Normal forms -/

/-- A quoted text as the symbol of that spelling. -/
def asSymbol : Datum → Datum
  | .text s => .symbol s
  | d => d

def asSymbols : Datum → Datum
  | .list items => .list (items.map asSymbol)
  | d => d

/-- An integer as a floating point number. -/
def asReal : Datum → Datum
  | .integer n =>
    match Binary64.ofInt? n with
    | some x => .real x
    | none => .integer n
  | d => d

/-- The fields of a primitive, whose tag and types are symbols. -/
def opFields : List Datum → List Datum
  | tag :: types :: args => asSymbol tag :: asSymbols types :: args
  | fields => fields

/-- What becomes of the fields of a form. -/
def normalFields (head : String) (fields : List Datum) : List Datum :=
  if head = "unknown" then []
  else if head = "float" then fields.map asReal
  else if head = "op" then opFields fields
  else fields

/-- What becomes of the items of a list. -/
def normalItems : List Datum → List Datum
  | .symbol head :: fields =>
    .symbol (if head = "app_tail" then "app-tail" else head) :: normalFields head fields
  | items => items

mutual

/-- The normal form of an S-expression. -/
def normalize : Datum → Datum
  | .list items => .list (normalItems (normalizeAll items))
  | d => d

def normalizeAll : List Datum → List Datum
  | [] => []
  | d :: rest => normalize d :: normalizeAll rest

end

/-- The heads of forms that may change. -/
def looseHeads : List String := ["app_tail", "unknown", "float", "op"]

theorem normalize_symbol (s : String) : normalize (.symbol s) = .symbol s := rfl

theorem normalize_integer (n : Int) : normalize (.integer n) = .integer n := rfl

theorem normalizeAll_eq_map (ds : List Datum) : normalizeAll ds = ds.map normalize := by
  induction ds with
  | nil => rw [normalizeAll]; rfl
  | cons d rest ih => rw [normalizeAll, ih]; rfl

theorem normalize_eq_symbol {d : Datum} {s : String} (h : normalize d = .symbol s) :
    d = .symbol s := by
  cases d with
  | list items => rw [normalize] at h; cases h
  | _ => exact h

theorem normalItems_eq {items : List Datum}
    (h : ∀ head, items.head? = some (.symbol head) → head ∉ looseHeads) :
    normalItems items = items := by
  unfold normalItems
  split
  · rename_i head fields
    have hhead := h head rfl
    simp only [looseHeads, List.mem_cons, List.not_mem_nil, or_false, not_or] at hhead
    obtain ⟨htail, hunknown, hfloat, hop⟩ := hhead
    rw [normalFields, if_neg htail, if_neg hunknown, if_neg hfloat, if_neg hop]
  · rfl

/-- A list that is no loose form is only changed inside. -/
theorem normalize_list {items : List Datum}
    (h : ∀ head, items.head? = some (.symbol head) → head ∉ looseHeads) :
    normalize (.list items) = .list (items.map normalize) := by
  rw [normalize, normalizeAll_eq_map, normalItems_eq]
  intro head hhead
  rw [List.head?_map, Option.map_eq_some_iff] at hhead
  obtain ⟨d, hd, hsymbol⟩ := hhead
  exact h head (by rw [hd, normalize_eq_symbol hsymbol])

theorem normalize_form {head : String} {fields : List Datum} (h : head ∉ looseHeads) :
    normalize (form head fields) = form head (fields.map normalize) := by
  rw [form, normalize_list]
  · rw [List.map_cons, normalize_symbol]; rfl
  · intro s hs
    cases hs
    exact h

theorem normalize_items {items : List Datum} (h : ∀ d ∈ items, ∀ s, d ≠ .symbol s) :
    normalize (.list items) = .list (items.map normalize) :=
  normalize_list fun s hs => absurd rfl (h _ (List.mem_of_mem_head? hs) s)

theorem normalize_unknown (fields : List Datum) :
    normalize (form "unknown" fields) = form "unknown" [] := by
  rw [form, normalize, normalizeAll, normalize_symbol]
  rfl

theorem normalize_appTail (fields : List Datum) :
    normalize (form "app_tail" fields) = form "app-tail" (fields.map normalize) := by
  rw [form, normalize, normalizeAll, normalize_symbol, normalizeAll_eq_map]
  rfl

theorem normalize_float (d : Datum) :
    normalize (form "float" [d]) = form "float" [asReal (normalize d)] := by
  rw [form, normalize, normalizeAll, normalize_symbol, normalizeAll_eq_map]
  rfl

theorem normalize_op (tag types args : Datum) :
    normalize (form "op" [tag, types, args]) =
      form "op" [asSymbol (normalize tag), asSymbols (normalize types), normalize args] := by
  rw [form, normalize, normalizeAll, normalize_symbol, normalizeAll_eq_map]
  rfl

/-! ## Leaves -/

theorem map_eq_of_mapM {α : Type} {f : Datum → Read α} {g : α → Datum} {k : Datum → Datum}
    {ds : List Datum} {xs : List α} (hf : ∀ d x, f d = .ok x → k d = g x)
    (h : ds.mapM f = .ok xs) : ds.map k = xs.map g := by
  rw [mapM_eq_ok] at h
  induction h with
  | nil => rfl
  | cons hd _ ih => rw [List.map_cons, List.map_cons, hf _ _ hd, ih]

theorem eq_of_readName {d : Datum} {n : Name} (h : readName d = .ok n) : d = nameDatum n := by
  obtain ⟨s, rfl, hparse⟩ := readName_eq_ok.1 h
  rw [nameDatum, Name.display_of_parse hparse]

theorem eq_of_readNames {role : String} {d : Datum} {ns : List Name}
    (h : readNames role d = .ok ns) : d = .list (ns.map nameDatum) := by
  obtain ⟨ds, rfl, h⟩ := readItems_eq_ok.1 h
  have hmap := map_eq_of_mapM (k := id) (fun _ _ => eq_of_readName) h
  rw [← hmap, List.map_id]

theorem eq_of_readVar {d : Datum} {v : Var} (h : readVar d = .ok v) : d = v.datum := by
  obtain ⟨i, rfl, rfl⟩ | ⟨dn, n, rfl, hn, rfl⟩ := readVar_eq_ok.1 h
  · rfl
  · rw [eq_of_readName hn]
    rfl

theorem eq_of_readVars {d : Datum} {vs : List Var} (h : readVars d = .ok vs) : d = varData vs := by
  obtain ⟨ds, rfl, h⟩ := readItems_eq_ok.1 h
  have hmap := map_eq_of_mapM (k := id) (fun _ _ => eq_of_readVar) h
  rw [varData, ← hmap, List.map_id]

theorem normalize_var (v : Var) : normalize v.datum = v.datum := by
  cases v with
  | loc i => exact normalize_form (by decide)
  | glob n => exact normalize_form (by decide)

theorem normalize_varData (vs : List Var) : normalize (varData vs) = varData vs := by
  have hsymbol : ∀ d ∈ vs.map Var.datum, ∀ s, d ≠ .symbol s := by
    refine List.forall_mem_map.2 fun v _ s h => ?_
    cases v <;> cases h
  rw [varData, normalize_items hsymbol, List.map_map]
  exact congrArg Datum.list (List.map_congr_left fun v _ => normalize_var v)

theorem normalize_names (ns : List Name) :
    normalize (.list (ns.map nameDatum)) = .list (ns.map nameDatum) := by
  rw [normalize_items (List.forall_mem_map.2 fun n _ s h => by cases h), List.map_map]
  rfl

theorem normalize_of_readFloat {d : Datum} {c : Const} (h : readFloat d = .ok c) :
    normalize (form "float" [d]) = c.datum := by
  rw [normalize_float]
  unfold readFloat at h
  split at h
  · cases h; rfl
  · split at h
    · rename_i n x hx
      cases h
      rw [normalize_integer, asReal, hx]
      rfl
    · cases h
  · cases h

theorem normalize_of_readChar {d : Datum} {c : Const} (h : readChar d = .ok c) :
    normalize (form "char" [d]) = c.datum := by
  obtain ⟨s, hs, h⟩ := bind_eq_ok.1 h
  split at h
  · rename_i value hvalue
    cases h
    have htext : s = String.singleton value := String.toList_inj.1 (by rw [hvalue]; simp)
    rw [readText_eq_ok.1 hs, htext]
    exact normalize_form (by decide)
  · cases h

theorem normalize_of_readConst {d : Datum} {c : Const} (h : readConst d = .ok c) :
    normalize d = c.datum := by
  unfold readConst at h
  split at h
  · rename_i tag fields
    split at h
    · cases h
    · rename_i kind hkind
      obtain rfl := ConstHead.head_of_ofHead? hkind
      change normalize (form kind.head fields) = c.datum
      split at h
      · obtain ⟨n, hn, h⟩ := bind_eq_ok.1 h
        cases h
        rw [readInt_eq_ok.1 hn]
        exact normalize_form (by decide)
      · obtain ⟨n, hn, h⟩ := bind_eq_ok.1 h
        cases h
        rw [readInt_eq_ok.1 hn]
        exact normalize_form (by decide)
      · exact normalize_of_readFloat h
      · exact normalize_of_readChar h
      · obtain ⟨s, hs, h⟩ := bind_eq_ok.1 h
        cases h
        rw [readText_eq_ok.1 hs]
        exact normalize_form (by decide)
      · obtain ⟨width, hwidth, h⟩ := bind_eq_ok.1 h
        obtain ⟨n, hn, h⟩ := bind_eq_ok.1 h
        cases h
        rw [readInt_eq_ok.1 hwidth, readInt_eq_ok.1 hn]
        exact normalize_form (by decide)
      · cases h
        exact normalize_form (by decide)
      · obtain ⟨s, hs, h⟩ := bind_eq_ok.1 h
        cases h
        rw [readText_eq_ok.1 hs]
        exact normalize_form (by decide)
      · cases h
  · cases h

mutual

theorem normalize_of_readDescriptor (d : Datum) {f : Descriptor} (h : readDescriptor d = .ok f) :
    normalize d = f.datum := by
  unfold readDescriptor at h
  split at h
  · rename_i tag fields
    split at h
    · rename_i htag
      subst htag
      split at h
      · obtain ⟨s, hs, h⟩ := bind_eq_ok.1 h
        cases h
        rw [readText_eq_ok.1 hs]
        exact normalize_form (by decide)
      · cases h
    split at h
    · rename_i htag
      subst htag
      split at h
      · obtain ⟨s, hs, h⟩ := bind_eq_ok.1 h
        cases h
        rw [readText_eq_ok.1 hs]
        exact normalize_form (by decide)
      · cases h
    split at h
    · rename_i htag
      subst htag
      split at h
      · cases h
      · rename_i args
        obtain ⟨s, hs, h⟩ := bind_eq_ok.1 h
        obtain ⟨fs, hfs, h⟩ := bind_eq_ok.1 h
        cases h
        rw [readText_eq_ok.1 hs, Descriptor.datum, ← normalize_of_readDescriptors args hfs]
        exact normalize_form (by decide)
    split at h
    · rename_i htag
      subst htag
      cases h
      exact normalize_unknown fields
    · cases h
  · cases h
termination_by sizeOf d

theorem normalize_of_readDescriptors (ds : List Datum) {fs : List Descriptor}
    (h : readDescriptors ds = .ok fs) : ds.map normalize = descriptorData fs := by
  cases ds with
  | nil => cases h; rfl
  | cons d rest =>
    rw [readDescriptors] at h
    obtain ⟨f, hf, h⟩ := bind_eq_ok.1 h
    obtain ⟨fs, hfs, h⟩ := bind_eq_ok.1 h
    cases h
    rw [List.map_cons, normalize_of_readDescriptor d hf, normalize_of_readDescriptors rest hfs]
    rfl
termination_by sizeOf ds

end

theorem normalize_of_readForeignArg {d : Datum} {a : ForeignArg} (h : readForeignArg d = .ok a) :
    normalize d = a.datum := by
  obtain ⟨dt, dv, rfl, htype, hvar⟩ := readForeignArg_eq_ok.1 h
  -- an argument starts with a descriptor, which is a list, so it is no form itself
  have hlist : normalize (.list [dt, dv]) = .list [normalize dt, normalize dv] := by
    refine normalize_list fun head hhead => ?_
    cases hhead
    cases htype
  rw [hlist, normalize_of_readDescriptor dt htype, eq_of_readVar hvar, normalize_var]
  rfl

/-! ## Primitives -/

/-- A symbol, or the quoted text that is taken for it. -/
def Spells (d : Datum) (s : String) : Prop := d = .symbol s ∨ d = .text s

theorem Spells.asSymbol_normalize {d : Datum} {s : String} (h : Spells d s) :
    asSymbol (normalize d) = .symbol s := by
  rcases h with rfl | rfl <;> rfl

theorem spells_of_spelled {α : Type} {d : Datum} {spelling : α → String} {all : List α} {x : α}
    (h : ((spelled d).1.bind fun s => all.find? fun y => spelling y = s) = some x) :
    Spells d (spelling x) := by
  obtain ⟨s, hs, hfind⟩ := Option.bind_eq_some_iff.1 h
  have hfound := List.find?_some hfind
  rw [of_decide_eq_true hfound]
  cases d with
  | symbol name => cases hs; exact .inl rfl
  | text value => cases hs; exact .inr rfl
  | _ => cases hs

theorem spells_of_readPrimTag {d : Datum} {tag : PrimTag} (h : readPrimTag d = .ok tag) :
    Spells d tag.spelling := by
  unfold readPrimTag at h
  split at h
  · rename_i hspelled
    cases h
    exact spells_of_spelled hspelled
  · cases h

theorem spells_of_readArithType {d : Datum} {t : ArithType} (h : readArithType d = .ok t) :
    Spells d t.spelling := by
  unfold readArithType at h
  split at h
  · rename_i hspelled
    cases h
    exact spells_of_spelled hspelled
  · cases h

theorem spelling_notMem_looseHeads (t : ArithType) : t.spelling ∉ looseHeads := by
  cases t <;> decide

theorem asSymbols_of_mapM {ds : List Datum} {types : List ArithType}
    (h : ds.mapM readArithType = .ok types) :
    asSymbols (normalize (.list ds)) = .list (types.map fun t => .symbol t.spelling) := by
  have hlist : normalize (.list ds) = .list (ds.map normalize) := by
    refine normalize_list fun head hhead => ?_
    -- a type can stand where a form has its head, but no type is the head of a loose form
    obtain ⟨rest, rfl⟩ := List.head?_eq_some_iff.1 hhead
    rw [mapM_eq_ok] at h
    cases h with
    | @cons _ t _ _ ht _ =>
      rcases spells_of_readArithType ht with heq | heq
      · cases heq
        exact spelling_notMem_looseHeads t
      · cases heq
  rw [hlist, asSymbols, List.map_map]
  exact congrArg Datum.list
    (map_eq_of_mapM (fun _ _ ht => (spells_of_readArithType ht).asSymbol_normalize) h)

theorem normalize_of_readPrimOp {dt types args : Datum} {op : PrimOp}
    (h : readPrimOp dt types = .ok op) :
    normalize (form "op" [dt, types, args]) =
      form "op" [.symbol op.tag.spelling, op.details, normalize args] := by
  obtain ⟨tag, htag, h⟩ := bind_eq_ok.1 h
  rw [normalize_op]
  split at h
  · rename_i hexternal
    obtain ⟨name, hname, h⟩ := bind_eq_ok.1 h
    cases h
    rw [(spells_of_readPrimTag htag).asSymbol_normalize, readText_eq_ok.1 hname, PrimOp.details,
      if_pos hexternal]
    rfl
  · rename_i hexternal
    obtain ⟨ds, hds, h⟩ := bind_eq_ok.1 h
    obtain ⟨types, htypes, h⟩ := bind_eq_ok.1 h
    cases h
    rw [(spells_of_readPrimTag htag).asSymbol_normalize, readList_eq_ok.1 hds,
      asSymbols_of_mapM htypes, PrimOp.details, if_neg hexternal]

/-! ## Expressions -/

/-- The heads of a kind of expression. -/
def ExprHead.heads : ExprHead → List String
  | .var => ["var"]
  | .app tailCall => if tailCall then ["app-tail", "app_tail"] else ["app"]
  | .bind => ["let"]
  | .update => ["update"]
  | .con => ["con"]
  | .case checked => if checked then ["chkcase"] else ["case"]
  | .proj => ["proj"]
  | .const => ["const"]
  | .foreign => ["foreign"]
  | .op => ["op"]
  | .nothing => ["nothing"]
  | .error => ["error"]

theorem ExprHead.mem_heads {s : String} {kind : ExprHead} (h : ofHead? s = some kind) :
    s ∈ kind.heads := by
  unfold ofHead? at h
  simp only [Bool.or_eq_true, decide_eq_true_eq] at h
  -- one head after the other, of which only that of tail calls has two spellings
  repeat
    obtain ⟨hs, hkind⟩ | ⟨-, h⟩ := ite_eq_iff.1 h
    · cases hkind
      first
        | subst hs; decide
        | rcases hs with rfl | rfl <;> decide
  cases h

theorem ExprHead.eq_of_ofHead? {s t : String} {kind : ExprHead} (h : ofHead? s = some kind)
    (hkind : kind.heads = [t]) : s = t := by
  have hmem := mem_heads h
  rw [hkind] at hmem
  exact List.mem_singleton.1 hmem

mutual

/-- **An expression is written as the normal form of what it was read from.** -/
theorem Denotes.normalize_eq {d : Datum} {e : Expr} (h : Denotes d e) : normalize d = e.datum := by
  cases h with
  | var hhead hv =>
    obtain rfl := ExprHead.eq_of_ofHead? hhead rfl
    refine (normalize_form (by decide)).trans ?_
    rw [eq_of_readVar hv, List.map_singleton, normalize_var]
    rfl
  | @app head tailCall _ _ f vs hhead hf hvs =>
    rw [eq_of_readName hf, eq_of_readVars hvs]
    have hfields : [nameDatum f, varData vs].map normalize = [nameDatum f, varData vs] := by
      rw [List.map_cons, List.map_singleton, normalize_varData]
      rfl
    cases tailCall with
    | false =>
      obtain rfl := ExprHead.eq_of_ofHead? hhead rfl
      exact (normalize_form (by decide)).trans (congrArg (form "app") hfields)
    | true =>
      -- the one kind of expression whose head may change
      have hmem : head ∈ ["app-tail", "app_tail"] := ExprHead.mem_heads hhead
      rcases List.mem_pair.1 hmem with rfl | rfl
      · exact (normalize_form (by decide)).trans (congrArg (form "app-tail") hfields)
      · exact (normalize_appTail _).trans (congrArg (form "app-tail") hfields)
  | bind hhead hv hvalue hbody =>
    obtain rfl := ExprHead.eq_of_ofHead? hhead rfl
    refine (normalize_form (by decide)).trans ?_
    simp only [List.map_cons, List.map_nil, eq_of_readVar hv, normalize_var, hvalue.normalize_eq,
      hbody.normalize_eq]
    rfl
  | update hhead hv hvalue =>
    obtain rfl := ExprHead.eq_of_ofHead? hhead rfl
    refine (normalize_form (by decide)).trans ?_
    simp only [List.map_cons, List.map_nil, eq_of_readVar hv, normalize_var, hvalue.normalize_eq]
    rfl
  | con hhead htag hname hvs =>
    obtain rfl := ExprHead.eq_of_ofHead? hhead rfl
    refine (normalize_form (by decide)).trans ?_
    simp only [List.map_cons, List.map_nil, readInt_eq_ok.1 htag, eq_of_readName hname,
      eq_of_readVars hvs, normalize_varData]
    rfl
  | @case head checked _ ds v alts hhead hv halts =>
    have hfields : (v.datum :: ds).map normalize = v.datum :: altData alts := by
      rw [List.map_cons, normalize_var, halts.normalize_eq]
    rw [eq_of_readVar hv]
    cases checked with
    | false =>
      obtain rfl := ExprHead.eq_of_ofHead? hhead rfl
      exact (normalize_form (by decide)).trans (congrArg (form "case") hfields)
    | true =>
      obtain rfl := ExprHead.eq_of_ofHead? hhead rfl
      exact (normalize_form (by decide)).trans (congrArg (form "chkcase") hfields)
  | proj hhead hv hindex =>
    obtain rfl := ExprHead.eq_of_ofHead? hhead rfl
    refine (normalize_form (by decide)).trans ?_
    simp only [List.map_cons, List.map_nil, eq_of_readVar hv, normalize_var, readInt_eq_ok.1 hindex]
    rfl
  | const hhead hc =>
    obtain rfl := ExprHead.eq_of_ofHead? hhead rfl
    refine (normalize_form (by decide)).trans ?_
    rw [List.map_singleton, normalize_of_readConst hc]
    rfl
  | @foreign head df ds f args hhead hargs hf =>
    obtain rfl := ExprHead.eq_of_ofHead? hhead rfl
    refine (normalize_form (by decide)).trans ?_
    have hds : ds.map normalize = args.map ForeignArg.datum :=
      map_eq_of_mapM (fun _ _ => normalize_of_readForeignArg) hargs
    -- arguments are lists, so that a list of them does not start with a symbol
    have hlist : normalize (.list ds) = .list (ds.map normalize) := by
      refine normalize_list fun s hs => ?_
      obtain ⟨rest, rfl⟩ := List.head?_eq_some_iff.1 hs
      rw [mapM_eq_ok] at hargs
      cases hargs with
      | cons hsymbol _ => cases hsymbol
    rw [List.map_cons, List.map_singleton, normalize_of_readDescriptor df hf, hlist, hds]
    rfl
  | op hhead hop hvs =>
    obtain rfl := ExprHead.eq_of_ofHead? hhead rfl
    rw [normalize_of_readPrimOp hop, eq_of_readVars hvs, normalize_varData]
    rfl
  | nothing hhead =>
    obtain rfl := ExprHead.eq_of_ofHead? hhead rfl
    exact normalize_form (by decide)
  | error hhead =>
    obtain rfl := ExprHead.eq_of_ofHead? hhead rfl
    exact normalize_form (by decide)

theorem AltDenotes.normalize_eq {d : Datum} {alt : Alt} (h : AltDenotes d alt) :
    normalize d = alt.datum := by
  cases h with
  | const hc hbody =>
    refine (normalize_form (by decide)).trans ?_
    rw [List.map_cons, List.map_singleton, normalize_of_readConst hc, hbody.normalize_eq]
    rfl
  | con hnames hfirst htag hname hbody =>
    refine (normalize_form (by decide)).trans ?_
    simp only [List.map_cons, List.map_nil, readInt_eq_ok.1 hfirst, readInt_eq_ok.1 htag,
      eq_of_readName hname, eq_of_readNames hnames, normalize_names, hbody.normalize_eq]
    rfl
  | default hbody =>
    refine (normalize_form (by decide)).trans ?_
    rw [List.map_singleton, hbody.normalize_eq]
    rfl

theorem AltsDenote.normalize_eq {ds : List Datum} {alts : List Alt} (h : AltsDenote ds alts) :
    ds.map normalize = altData alts := by
  cases h with
  | nil => rfl
  | cons halt halts => rw [List.map_cons, halt.normalize_eq, halts.normalize_eq]; rfl

end

/-! ## Reading again -/

theorem readForeignArg_again {d : Datum} {a : ForeignArg} (h : readForeignArg d = .ok a) :
    readForeignArg a.datum = .ok a := by
  obtain ⟨dt, dv, -, -, hvar⟩ := readForeignArg_eq_ok.1 h
  exact readForeignArg_datum (eq_of_readVar hvar ▸ hvar)

mutual

/-- **What was read is read again** from the form that is written for it. -/
theorem Denotes.datum {d : Datum} {e : Expr} (h : Denotes d e) : Denotes e.datum e := by
  cases h with
  | var _ hv => exact .var rfl (eq_of_readVar hv ▸ hv)
  | @app _ tailCall _ _ _ _ _ hf hvs =>
    have hhead : ExprHead.ofHead? (if tailCall then "app-tail" else "app") =
        some (.app tailCall) := by cases tailCall <;> rfl
    exact .app hhead (eq_of_readName hf ▸ hf) (eq_of_readVars hvs ▸ hvs)
  | bind _ hv hvalue hbody => exact .bind rfl (eq_of_readVar hv ▸ hv) hvalue.datum hbody.datum
  | update _ hv hvalue => exact .update rfl (eq_of_readVar hv ▸ hv) hvalue.datum
  | con _ _ hname hvs =>
    exact .con rfl rfl (eq_of_readName hname ▸ hname) (eq_of_readVars hvs ▸ hvs)
  | @case _ checked _ _ _ _ _ hv halts =>
    have hhead : ExprHead.ofHead? (if checked then "chkcase" else "case") =
        some (.case checked) := by cases checked <;> rfl
    exact .case hhead (eq_of_readVar hv ▸ hv) halts.datum
  | proj _ hv _ => exact .proj rfl (eq_of_readVar hv ▸ hv) rfl
  | const _ _ => exact .const rfl (readConst_datum _)
  | foreign _ hargs _ =>
    refine .foreign rfl (mapM_map_ok fun a ha => ?_) (readDescriptor_datum _)
    obtain ⟨d, -, hd⟩ := exists_of_mapM hargs a ha
    exact readForeignArg_again hd
  | op _ hop hvs =>
    exact .op rfl (readPrimOp_details (isWritable_of_readPrimOp hop)) (eq_of_readVars hvs ▸ hvs)
  | nothing _ => exact .nothing rfl
  | error _ => exact .error rfl

theorem AltDenotes.datum {d : Datum} {alt : Alt} (h : AltDenotes d alt) :
    AltDenotes alt.datum alt := by
  cases h with
  | const _ hbody => exact .const (readConst_datum _) hbody.datum
  | con hnames _ _ hname hbody =>
    exact .con (eq_of_readNames hnames ▸ hnames) rfl rfl (eq_of_readName hname ▸ hname) hbody.datum
  | default hbody => exact .default hbody.datum

theorem AltsDenote.datum {ds : List Datum} {alts : List Alt} (h : AltsDenote ds alts) :
    AltsDenote (altData alts) alts := by
  cases h with
  | nil => exact .nil
  | cons halt halts => exact .cons halt.datum halts.datum

end

/-! ## Programs -/

theorem normalize_of_readDefinition {d : Datum} {f : Definition} (h : readDefinition d = .ok f) :
    normalize d = f.datum := by
  obtain ⟨dn, dps, db, rfl, hparams, hname, hbody⟩ := readDefinition_eq_ok.1 h
  refine (normalize_form (by decide)).trans ?_
  simp only [List.map_cons, List.map_nil, eq_of_readName hname, eq_of_readNames hparams,
    normalize_names, hbody.normalize_eq]
  rfl

theorem readDefinition_again {d : Datum} {f : Definition} (h : readDefinition d = .ok f) :
    readDefinition f.datum = .ok f := by
  obtain ⟨dn, dps, db, rfl, hparams, hname, hbody⟩ := readDefinition_eq_ok.1 h
  exact readDefinition_eq_ok.2 ⟨_, _, _, rfl, eq_of_readNames hparams ▸ hparams,
    eq_of_readName hname ▸ hname, hbody.datum⟩

/-- A program is written as the normal form of what it was read from. -/
theorem normalize_of_readProgram {d : Datum} {p : Program} (h : readProgram d = .ok p) :
    normalize d = p.datum := by
  obtain ⟨ds, rfl, hdefs⟩ := readProgram_eq_ok.1 h
  refine (normalize_form (by decide)).trans ?_
  rw [map_eq_of_mapM (fun _ _ => normalize_of_readDefinition) hdefs]
  rfl

theorem readProgram_again {d : Datum} {p : Program} (h : readProgram d = .ok p) :
    readProgram p.datum = .ok p := by
  obtain ⟨ds, rfl, hdefs⟩ := readProgram_eq_ok.1 h
  refine readProgram_eq_ok.2 ⟨_, rfl, mapM_map_ok fun f hf => ?_⟩
  obtain ⟨d, -, hd⟩ := exists_of_mapM hdefs f hf
  exact readDefinition_again hd

end Vimgen.Ir
