import Vimgen.Ir.Same
import Vimgen.Proofs.Writable

/-!
# Programs and their texts

* `program_text_roundTrip`: a writable program is read back from both of its texts, as the same
  program where no constant is undefined; all programs that are read from some text are writable;
  and so reading a text, writing the program and reading again gives the program once more.
* `Program.same_self`: an undefined constant is the only thing that makes a program differ from
  itself.
-/

namespace Vimgen.Ir

/-! ## Programs that equal themselves -/

/-- Whether a constant is a number, or none was asked for. -/
def Const.isDefined (c : Const) : Bool := c ≠ .float .nan

mutual

/-- Whether all floating point constants are numbers. -/
def Expr.noNaN : Expr → Bool
  | .bind _ value body => value.noNaN && body.noNaN
  | .update _ value => value.noNaN
  | .case _ alts _ _ => altsNoNaN alts
  | .const c => c.isDefined
  | _ => true

def Alt.noNaN : Alt → Bool
  | .const c body => c.isDefined && body.noNaN
  | .con _ _ _ _ body => body.noNaN
  | .default body => body.noNaN

def altsNoNaN : List Alt → Bool
  | [] => true
  | alt :: rest => alt.noNaN && altsNoNaN rest

end

/-- Whether all floating point constants of a program are numbers. -/
def Program.noNaN (p : Program) : Bool := p.definitions.all fun d => d.body.noNaN

theorem Const.same_self (c : Const) : c.same c = c.isDefined := by
  cases c with
  | float x =>
    cases x with
    | nan => rfl
    | infinite negative => cases negative <;> rfl
    | finite negative m s => cases m <;> simp [Const.same, Binary64.equals, Const.isDefined]
  | _ => simp [Const.same, Const.isDefined]

mutual

theorem Descriptor.same_self (d : Descriptor) : d.same d = true := by
  cases d with
  | con name => simp [Descriptor.same]
  | str value => simp [Descriptor.same]
  | app name args => simp [Descriptor.same, Descriptor.sameAll_self args]
  | unknown => rfl

theorem Descriptor.sameAll_self (ds : List Descriptor) : Descriptor.sameAll ds ds = true := by
  cases ds with
  | nil => rfl
  | cons d rest => simp [Descriptor.sameAll, Descriptor.same_self d, Descriptor.sameAll_self rest]

end

theorem sameForeignArgs_self (args : List ForeignArg) : sameForeignArgs args args = true := by
  induction args with
  | nil => rfl
  | cons a rest ih => simp [sameForeignArgs, ForeignArg.same, Descriptor.same_self, ih]

theorem sameDescriptor?_self (d? : Option Descriptor) : sameDescriptor? d? d? = true := by
  cases d? with
  | none => rfl
  | some d => exact Descriptor.same_self d

mutual

theorem Expr.same_self (e : Expr) : e.same e = e.noNaN := by
  cases e with
  | bind v value body => simp [Expr.same, Expr.noNaN, Expr.same_self value, Expr.same_self body]
  | update v value => simp [Expr.same, Expr.noNaN, Expr.same_self value]
  | case v alts checked shared => simp [Expr.same, Expr.noNaN, sameAlts_self alts]
  | const c => simp [Expr.same, Expr.noNaN, Const.same_self]
  | foreign f args result =>
    simp [Expr.same, Expr.noNaN, Descriptor.same_self, sameForeignArgs_self, sameDescriptor?_self]
  | _ => simp [Expr.same, Expr.noNaN]

theorem Alt.same_self (alt : Alt) : alt.same alt = alt.noNaN := by
  cases alt with
  | const c body => simp [Alt.same, Alt.noNaN, Const.same_self, Expr.same_self body]
  | con first tag name fields body => simp [Alt.same, Alt.noNaN, Expr.same_self body]
  | default body => simp [Alt.same, Alt.noNaN, Expr.same_self body]

theorem sameAlts_self (alts : List Alt) : sameAlts alts alts = altsNoNaN alts := by
  cases alts with
  | nil => rfl
  | cons alt rest => simp [sameAlts, altsNoNaN, Alt.same_self alt, sameAlts_self rest]

end

/-- **A program equals itself** unless one of its constants is undefined. -/
theorem Program.same_self (p : Program) : p.same p = p.noNaN := by
  have hdefs : ∀ ds : List Definition,
      sameDefinitions ds ds = ds.all fun d => d.body.noNaN := by
    intro ds
    induction ds with
    | nil => rfl
    | cons d rest ih => simp [sameDefinitions, Definition.same, Expr.same_self, ih]
  exact hdefs p.definitions

/-! ## The round trip -/

theorem Program.IsWritable.read_pretty {p : Program} (h : p.IsWritable) :
    ∃ text, p.pretty = .ok text ∧ Program.read text = .ok p := by
  have hindent : ∀ c ∈ ({} : Sexp.Datum.Layout).indentText.toList,
      Sexp.Token.isSeparator c = true := List.all_eq_true.1 (by decide)
  obtain ⟨text, hpretty, hread⟩ := Sexp.read_pretty hindent 0 h.isPlain
  refine ⟨text, hpretty, ?_⟩
  unfold Program.read
  rw [hread]
  exact readProgram_datum h

theorem Program.IsWritable.read_flat {p : Program} (h : p.IsWritable) :
    Program.read p.flat = .ok p := by
  have hread : Sexp.Datum.read p.flat = .ok p.datum := (Sexp.reads_flat p.datum h.isPlain).read
  unfold Program.read
  rw [hread]
  exact readProgram_datum h

theorem isWritable_of_read {text : String} {p : Program} (h : Program.read text = .ok p) :
    p.IsWritable := by
  unfold Program.read at h
  split at h
  · rename_i hread
    exact isWritable_of_readProgram h (Sexp.sound_of_read hread)
  · cases h

/-- **Programs and their texts.** What can be written is read back from both texts, and whatever is
read can be written. -/
theorem program_text_roundTrip :
    (∀ p : Program, p.IsWritable → p.noNaN = true →
      (∃ text, p.pretty = .ok text ∧ Program.read text = .ok p) ∧ Program.read p.flat = .ok p ∧
        p.same p = true) ∧
    (∀ text p, Program.read text = .ok p → p.IsWritable ∧
      (∃ again, p.pretty = .ok again ∧ Program.read again = Program.read text) ∧
      Program.read p.flat = Program.read text) := by
  constructor
  · intro p hp hnan
    exact ⟨hp.read_pretty, hp.read_flat, by rw [Program.same_self, hnan]⟩
  · intro text p hread
    have hp := isWritable_of_read hread
    obtain ⟨again, hpretty, hagain⟩ := hp.read_pretty
    exact ⟨hp, ⟨again, hpretty, hagain.trans hread.symm⟩, hp.read_flat.trans hread.symm⟩

/-- A program with a text of quotes, backslashes, line breaks and brackets, and with the least
negative number. -/
def awkwardProgram : Program :=
  ⟨[{ name := .machine "runMain" 0
      params := [.topLevel ["Main"] "x"]
      body := .bind (.loc 1) (.const (.str "\"\\\n;)"))
        (.case (.loc 0)
          [.const (.float (.finite true 1 0)) (.op ⟨.external, [], some "log"⟩ [.loc 1]),
            .default (.error "none")] false true) }]⟩

theorem program_text_roundTrip_awkward :
    (∃ text, awkwardProgram.pretty = .ok text ∧ Program.read text = .ok awkwardProgram) ∧
      Program.read awkwardProgram.flat = .ok awkwardProgram ∧ awkwardProgram.IsWritable := by
  have hslot : ∀ i : Int, (Nat.toDigits 10 i.natAbs).length ≤ 4300 → (Var.loc i).IsWritable :=
    fun _ h => h
  have hfloat : (Const.float (.finite true 1 0)).IsWritable := ⟨by decide, .inl rfl, by decide⟩
  have hop : (Expr.op ⟨.external, [], some "log"⟩ [.loc 1]).IsWritable := by
    refine ⟨⟨by simp, rfl⟩, fun v hv => ?_⟩
    rw [List.mem_singleton.1 hv]
    exact hslot 1 (by decide)
  have hp : awkwardProgram.IsWritable := by
    intro d hd
    rw [awkwardProgram, List.mem_singleton] at hd
    subst hd
    refine ⟨rfl, fun n hn => ?_, hslot 1 (by decide), trivial, hslot 0 (by decide),
      ⟨⟨hfloat, hop⟩, trivial, trivial⟩, rfl⟩
    rw [List.mem_singleton.1 hn]
    rfl
  obtain ⟨hpretty, hflat, -⟩ := program_text_roundTrip.1 awkwardProgram hp rfl
  exact ⟨hpretty, hflat, (program_text_roundTrip.2 _ _ hflat).1⟩

end Vimgen.Ir
