import Mathlib.Data.List.Induction
import Vimgen.Proofs.Result
import Vimgen.Script.Renderer

/-!
# What a renderer does, step by step

Rendering a node is a sequence of moves: lines, each of which may fail, the empty line after a
function, and the ends of blocks. `Stmt.moves` gives them in order, and `Renderer.run` performs
them one by one, up to the first that fails.

* `Stmt.performs`: the draft of a statement comes to the same as its moves, and blocks that are
  entered are left again.
* `Renderer.run_eq`: what is written, and how deep the renderer ends up, in terms of the moves
  before the first failure.
* `renderer_over_history`: so much is known of every request to a renderer, **whatever it was asked
  before**.
-/

namespace Vimgen.Script

/-! ## Moves -/

/-- A move of a renderer: a line, unless a part of it cannot be rendered, an empty line, or one of
the ends of a block. -/
inductive Move where
  | line (fault? : Option RenderError) (content : String)
  | blank
  | enter
  | leave
  deriving DecidableEq

/-- Why a move cannot be performed. -/
def Move.failure? : Move → Option RenderError
  | .line fault? _ => fault?
  | .blank | .enter | .leave => none

/-- The moves inside a block of its own. -/
def inBlock (ms : List Move) : List Move := .enter :: ms ++ [.leave]

mutual

/-- The moves of a statement. -/
def Stmt.moves : Stmt → List Move
  | .function name params body =>
    .line none ("function! " ++ name.text ++ "(" ++ commaList params ++ ") abort") ::
      (inBlock (blockMoves body) ++ [.line none "endfunction", .blank])
  | .bind name value => [.line value.fault? ("let " ++ name.text ++ " = " ++ value.text)]
  | .assign target value =>
    [.line (target.fault?.or value.fault?) ("let " ++ target.text ++ " = " ++ value.text)]
  | .ret value => [.line value.fault? ("return " ++ value.text)]
  | .call name args =>
    [.line (exprsFault? args) ("call " ++ name.text ++ "(" ++ commaList (exprTexts args) ++ ")")]
  | .command command arg => [.line arg.fault? (command ++ " " ++ arg.text)]
  | .cond [] _ => [.line (some .noArms) ""]
  | .cond (.mk test body :: rest) default =>
    .line test.fault? ("if " ++ test.text) ::
      (inBlock (blockMoves body) ++ armsMoves rest ++ defaultMoves default)
  | .stray node => [.line (some (.statement node.kind)) ""]

/-- The moves of statements in a row. -/
def blockMoves : List Stmt → List Move
  | [] => []
  | s :: rest => s.moves ++ blockMoves rest

/-- The moves of the arms after the first. -/
def armsMoves : List Arm → List Move
  | [] => []
  | .mk test body :: rest =>
    .line test.fault? ("elseif " ++ test.text) :: (inBlock (blockMoves body) ++ armsMoves rest)

/-- The moves from the default of a condition on. -/
def defaultMoves : Option (List Stmt) → List Move
  | none => [.line none "endif"]
  | some default => .line none "else" :: (inBlock (blockMoves default) ++ [.line none "endif"])

end

/-! ## Performing them -/

/-- What comes next, unless there was a failure. -/
def andThen (result : Renderer × Option RenderError)
    (next : Renderer → Renderer × Option RenderError) : Renderer × Option RenderError :=
  match result.2 with
  | none => next result.1
  | some _ => result

theorem andThen_assoc (result : Renderer × Option RenderError)
    (f g : Renderer → Renderer × Option RenderError) :
    andThen (andThen result f) g = andThen result fun r => andThen (f r) g := by
  obtain ⟨r, failed⟩ := result
  cases failed with
  | none => rfl
  | some e => rfl

namespace Renderer

/-- Performs a move. -/
def act (r : Renderer) : Move → Renderer × Option RenderError
  | .line (some e) _ => (r, some e)
  | .line none content =>
    ({ r with lines := r.lines ++ [indentation r.indentText r.indent ++ content] }, none)
  | .blank => ({ r with lines := r.lines ++ [""] }, none)
  | .enter => ({ r with indent := r.indent + 1 }, none)
  | .leave => ({ r with indent := r.indent - 1 }, none)

/-- Performs moves in turn, up to the first that fails. -/
def run (r : Renderer) : List Move → Renderer × Option RenderError
  | [] => (r, none)
  | m :: rest => andThen (r.act m) fun r' => r'.run rest

theorem run_append (r : Renderer) (ms ns : List Move) :
    r.run (ms ++ ns) = andThen (r.run ms) fun r' => r'.run ns := by
  induction ms generalizing r with
  | nil => rfl
  | cons m ms ih =>
    rw [List.cons_append, run, run, andThen_assoc]
    exact congrArg _ (funext ih)

theorem run_singleton (r : Renderer) (m : Move) : r.run [m] = r.act m := by
  cases m with
  | line fault? content => cases fault? <;> rfl
  | blank | enter | leave => rfl

/-- Drafts are written one after the other. -/
theorem write_append (r : Renderer) (a b : Draft) :
    r.write (a ++ b) = andThen (r.write a) fun r' => r'.write b := by
  obtain ⟨lines, halt⟩ := a
  cases halt with
  | none =>
    change r.write ⟨lines ++ b.lines, b.halt⟩ = _
    simp [write, andThen]
  | some h => rfl

end Renderer

/-! ## Blocks that are entered and left -/

/-- The number of blocks that are open after some moves. -/
def openBlocks (ms : List Move) : Nat := ms.count .enter - ms.count .leave

/-- At any point, no more blocks have been left than entered, and in the end all are left. -/
structure Balanced (ms : List Move) : Prop where
  nested : ∀ done, done <+: ms → done.count .leave ≤ done.count .enter
  closed : ms.count .leave = ms.count .enter

theorem Balanced.nil : Balanced [] := by
  refine ⟨fun done hdone => ?_, rfl⟩
  rw [List.prefix_nil.1 hdone]
  exact Nat.le_refl _

theorem prefix_append_cases {ms ns done : List Move} (h : done <+: ms ++ ns) :
    done <+: ms ∨ ∃ more, more <+: ns ∧ done = ms ++ more := by
  rcases List.prefix_or_prefix_of_prefix h (List.prefix_append ms ns) with hleft | ⟨more, rfl⟩
  · exact .inl hleft
  · exact .inr ⟨more, (List.prefix_append_right_inj ms).1 h, rfl⟩

theorem Balanced.append {ms ns : List Move} (hms : Balanced ms) (hns : Balanced ns) :
    Balanced (ms ++ ns) := by
  have hclosed := hms.closed
  refine ⟨fun done hdone => ?_, ?_⟩
  · rcases prefix_append_cases hdone with hleft | ⟨more, hmore, rfl⟩
    · exact hms.nested done hleft
    · have hright := hns.nested more hmore
      rw [List.count_append, List.count_append]
      omega
  · rw [List.count_append, List.count_append, hms.closed, hns.closed]

/-- Lines neither enter nor leave. -/
theorem Balanced.single {m : Move} (henter : m ≠ .enter) (hleave : m ≠ .leave) :
    Balanced [m] := by
  refine ⟨fun done hdone => ?_, ?_⟩
  · have hnone : done.count .leave = 0 := by
      apply List.count_eq_zero_of_not_mem
      intro hmem
      exact hleave (List.mem_singleton.1 (hdone.subset hmem)).symm
    omega
  · rw [List.count_singleton, List.count_singleton, if_neg (by simpa using hleave),
      if_neg (by simpa using henter)]

theorem Balanced.inBlock {ms : List Move} (h : Balanced ms) : Balanced (inBlock ms) := by
  have hclosed := h.closed
  refine ⟨fun done hdone => ?_, ?_⟩
  · rcases List.prefix_cons_iff.1 hdone with rfl | ⟨inner, rfl, hinner⟩
    · exact Nat.le_refl _
    · have hcount : inner.count .leave ≤ inner.count .enter + 1 := by
        rcases prefix_append_cases hinner with hleft | ⟨more, hmore, rfl⟩
        · exact Nat.le_succ_of_le (h.nested inner hleft)
        · have hlast : more.count .leave ≤ 1 :=
            Nat.le_trans List.count_le_length hmore.length_le
          rw [List.count_append, List.count_append]
          omega
      simpa using hcount
  · simp [Script.inBlock, h.closed]

/-! ## Drafts and moves -/

/-- To write a draft is to perform some moves, which leave the blocks that they enter. -/
structure Draft.Performs (d : Draft) (ms : List Move) : Prop where
  run : ∀ r : Renderer, r.run ms = r.write d
  balanced : Balanced ms

namespace Draft.Performs

theorem empty : Draft.empty.Performs [] := by
  refine ⟨fun r => ?_, .nil⟩
  simp [Renderer.run, Renderer.write, Draft.empty]

theorem line (fault? : Option RenderError) (content : String) :
    (Draft.line fault? content).Performs [.line fault? content] := by
  refine ⟨fun r => ?_, .single nofun nofun⟩
  rw [Renderer.run_singleton]
  cases fault? with
  | none => simp [Renderer.act, Renderer.write, Draft.line, Line.write]
  | some e => simp [Renderer.act, Renderer.write, Draft.line, Draft.fail]

theorem fail (e : RenderError) : (Draft.fail e).Performs [.line (some e) ""] := line (some e) ""

theorem blank : Draft.Performs ⟨[.blank], none⟩ [.blank] :=
  ⟨fun _ => rfl, .single nofun nofun⟩

theorem append {a b : Draft} {ms ns : List Move} (ha : a.Performs ms) (hb : b.Performs ns) :
    (a ++ b).Performs (ms ++ ns) := by
  refine ⟨fun r => ?_, ha.balanced.append hb.balanced⟩
  rw [Renderer.run_append, Renderer.write_append, ha.run]
  exact congrArg _ (funext hb.run)

/-- A line in a block is a line one step deeper, and a failure there leaves one more block open. -/
theorem nest {d : Draft} {ms : List Move} (h : d.Performs ms) : d.nest.Performs (inBlock ms) := by
  refine ⟨fun r => ?_, h.balanced.inBlock⟩
  have hline : ∀ line : Line, line.write r.indentText (r.indent + 1) =
      line.nest.write r.indentText r.indent := by
    intro line
    cases line with
    | text depth content => simp [Line.write, Line.nest, Nat.add_assoc, Nat.add_comm 1]
    | blank => rfl
  have hlines : d.lines.map (·.write r.indentText (r.indent + 1)) =
      (d.lines.map Line.nest).map (·.write r.indentText r.indent) := by
    rw [List.map_map]
    exact List.map_congr_left fun line _ => hline line
  have henter : r.run (inBlock ms) =
      andThen (({ r with indent := r.indent + 1 } : Renderer).write d) fun r' => r'.act .leave := by
    rw [inBlock, List.cons_append, Renderer.run, ← h.run]
    simp only [Renderer.act, andThen, Renderer.run_append, Renderer.run_singleton]
  rw [henter]
  obtain ⟨lines, halt⟩ := d
  cases halt with
  | none => simp [Renderer.write, andThen, Renderer.act, Draft.nest, hlines]
  | some halt =>
    simp [Renderer.write, andThen, Draft.nest, hlines, Nat.add_assoc, Nat.add_comm 1]

end Draft.Performs

mutual

/-- **The draft of a statement is what its moves come to.** -/
theorem Stmt.performs (s : Stmt) : s.draft.Performs s.moves := by
  cases s with
  | bind name value => exact .line _ _
  | assign target value => exact .line _ _
  | ret value => exact .line _ _
  | call name args => exact .line _ _
  | command command arg => exact .line _ _
  | stray node => exact .fail _
  | function name params body =>
    have hheader := Draft.Performs.line none
      ("function! " ++ name.text ++ "(" ++ commaList params ++ ") abort")
    have hbody := hheader.append (blockDraft_performs body).nest
    have hend := (hbody.append (.line none "endfunction")).append .blank
    simpa [Stmt.draft, Stmt.moves] using hend
  | cond arms default =>
    cases arms with
    | nil => exact .fail _
    | cons arm rest =>
      obtain ⟨test, body⟩ := arm
      have hif := (Draft.Performs.line test.fault? ("if " ++ test.text)).append
        (blockDraft_performs body).nest
      have harms := hif.append (armsDraft_performs rest)
      cases default with
      | none => simpa [Stmt.draft, Stmt.moves, defaultMoves] using harms.append (.line none "endif")
      | some default =>
        have helse := (harms.append (.line none "else")).append (blockDraft_performs default).nest
        simpa [Stmt.draft, Stmt.moves, defaultMoves] using helse.append (.line none "endif")

theorem blockDraft_performs (b : List Stmt) : (blockDraft b).Performs (blockMoves b) := by
  cases b with
  | nil => exact .empty
  | cons s rest => exact s.performs.append (blockDraft_performs rest)

theorem armsDraft_performs (arms : List Arm) : (armsDraft arms).Performs (armsMoves arms) := by
  cases arms with
  | nil => exact .empty
  | cons arm rest =>
    obtain ⟨test, body⟩ := arm
    have hif := (Draft.Performs.line test.fault? ("elseif " ++ test.text)).append
      (blockDraft_performs body).nest
    exact hif.append (armsDraft_performs rest)

end

/-! ## What was written, and how deep -/

/-- The moves before the first that fails. -/
def performed (ms : List Move) : List Move := ms.takeWhile fun m => m.failure?.isNone

/-- The line that a move writes at a depth. -/
def Move.written? (indentText : String) (depth : Nat) : Move → Option String
  | .line _ content => some (indentation indentText depth ++ content)
  | .blank => some ""
  | .enter | .leave => none

/-- The lines that moves write from a depth on, each as deep as it has blocks around it: those
that are open after the moves before it. -/
def linesAt (indentText : String) (base : Nat) (ms : List Move) : List String :=
  ms.zipIdx.filterMap fun (m, i) => m.written? indentText (base + openBlocks (ms.take i))

theorem linesAt_concat (indentText : String) (base : Nat) (ms : List Move) (m : Move) :
    linesAt indentText base (ms ++ [m]) =
      linesAt indentText base ms ++ (m.written? indentText (base + openBlocks ms)).toList := by
  have hbefore : ms.zipIdx.filterMap (fun (x, i) =>
        x.written? indentText (base + openBlocks ((ms ++ [m]).take i))) =
      linesAt indentText base ms := by
    apply List.filterMap_congr
    rintro ⟨x, i⟩ hmem
    have hlt : i < ms.length := by simpa using List.snd_lt_of_mem_zipIdx hmem
    simp only [List.take_append_of_le_length (Nat.le_of_lt hlt)]
  unfold linesAt
  rw [List.zipIdx_append, List.filterMap_append]
  refine congrArg₂ _ hbefore ?_
  cases hwritten : m.written? indentText (base + openBlocks ms) <;> simp [hwritten]

theorem performed_append_of_ok {ms : List Move} (h : ms.findSome? Move.failure? = none)
    (ns : List Move) : performed (ms ++ ns) = ms ++ performed ns := by
  rw [List.findSome?_eq_none_iff] at h
  exact List.takeWhile_append_of_pos fun m hm => by rw [h m hm]; rfl

theorem performed_of_ok {ms : List Move} (h : ms.findSome? Move.failure? = none) :
    performed ms = ms := by
  have hall := performed_append_of_ok h []
  simpa [performed] using hall

/-- Nothing behind a failure is performed. -/
theorem performed_append_of_failed {ms : List Move} {e : RenderError}
    (h : ms.findSome? Move.failure? = some e) (ns : List Move) :
    performed (ms ++ ns) = performed ms := by
  unfold performed
  induction ms with
  | nil => cases h
  | cons m ms ih =>
    rw [List.cons_append, List.takeWhile_cons, List.takeWhile_cons]
    rw [List.findSome?_cons] at h
    cases hfailure : m.failure? with
    | none =>
      rw [hfailure] at h
      simp only [Option.isNone_none, if_true, ih h]
    | some f => simp only [Option.isNone_some, Bool.false_eq_true, if_false]

namespace Renderer

/-- A renderer after some moves, none of which has failed. -/
def advanced (r : Renderer) (done : List Move) : Renderer :=
  { r with
    lines := r.lines ++ linesAt r.indentText r.indent done
    indent := r.indent + openBlocks done }

theorem advanced_nil (r : Renderer) : r.advanced [] = r := by
  simp [advanced, linesAt, openBlocks]

/-- **One move more**: it fails and changes nothing, or is now among those that were done. -/
theorem act_advanced (r : Renderer) {done : List Move} {m : Move}
    (hdone : done.count .leave ≤ done.count .enter)
    (hnext : (done ++ [m]).count .leave ≤ (done ++ [m]).count .enter) :
    (r.advanced done).act m = (r.advanced (done ++ performed [m]), m.failure?) := by
  cases m with
  | line fault? content =>
    cases fault? with
    | none =>
      simp [act, advanced, performed, Move.failure?, linesAt_concat, Move.written?, openBlocks]
    | some e => simp [act, performed, Move.failure?]
  | blank =>
    simp [act, advanced, performed, Move.failure?, linesAt_concat, Move.written?, openBlocks]
  | enter =>
    have hentered : (done ++ [Move.enter]).count .enter = done.count .enter + 1 := by simp
    have hleft : (done ++ [Move.enter]).count .leave = done.count .leave := by simp
    have hdepth : openBlocks (done ++ [.enter]) = openBlocks done + 1 := by
      rw [openBlocks, openBlocks, hentered, hleft]
      omega
    simp [act, advanced, performed, Move.failure?, linesAt_concat, Move.written?, hdepth,
      Nat.add_assoc]
  | leave =>
    -- the block that is left has been entered
    have hentered : (done ++ [Move.leave]).count .enter = done.count .enter := by simp
    have hleft : (done ++ [Move.leave]).count .leave = done.count .leave + 1 := by simp
    have hdepth : r.indent + openBlocks done - 1 = r.indent + openBlocks (done ++ [.leave]) := by
      rw [openBlocks, openBlocks, hentered, hleft]
      omega
    simp [act, advanced, performed, Move.failure?, linesAt_concat, Move.written?, hdepth]

/-- **What moves come to**: everything before the first failure is done, and nothing else. -/
theorem run_eq (r : Renderer) {ms : List Move}
    (h : ∀ done, done <+: ms → done.count .leave ≤ done.count .enter) :
    r.run ms = (r.advanced (performed ms), ms.findSome? Move.failure?) := by
  -- on the last move: all before it have been done, or one of them has failed
  induction ms using List.reverseRecOn with
  | nil => rw [performed, List.takeWhile_nil, advanced_nil]; rfl
  | append_singleton ms m ih =>
    have hbefore := ih fun done hdone => h done (hdone.trans (List.prefix_append ms [m]))
    rw [run_append, hbefore, List.findSome?_append]
    cases hfailure : ms.findSome? Move.failure? with
    | none =>
      have hstep :=
        r.act_advanced (h ms (List.prefix_append ms [m])) (h (ms ++ [m]) List.prefix_rfl)
      rw [performed_of_ok hfailure, performed_append_of_ok hfailure]
      simp only [andThen, run_singleton, hstep, Option.none_or, List.findSome?_singleton]
    | some e => rw [performed_append_of_failed hfailure]; rfl

end Renderer

/-! ## Requests to a renderer -/

/-- What a renderer is asked for. -/
inductive Request where
  | render (p : Program)
  | emit (s : Stmt)
  | block (b : Block)
  | expr (e : Expr)

/-- The answer to a request that asks for no text. -/
def silently : Option RenderError → Except RenderError (Option String)
  | none => .ok none
  | some e => .error e

namespace Renderer

/-- The renderer after a request, and its answer. -/
def step (r : Renderer) : Request → Renderer × Except RenderError (Option String)
  | .render p => ((r.render p).1, (r.render p).2.map some)
  | .emit s => ((r.emit s).1, silently (r.emit s).2)
  | .block b => ((r.emitBlock b).1, silently (r.emitBlock b).2)
  | .expr e => (r, e.render.map some)

/-- The renderer after a sequence of requests. -/
def after (r : Renderer) (history : List Request) : Renderer :=
  history.foldl (fun r q => (r.step q).1) r

/-- The renderer with nothing written. -/
def cleared (r : Renderer) : Renderer := { r with indent := 0, lines := [] }

end Renderer

/-- **How a renderer comes out of a request** that makes it perform some moves. Lines are only
appended: those of the moves before the first failure, each as deep as the blocks around it say.
The depth has grown by the blocks that were open there; without a failure these are none. -/
structure Emitted (r : Renderer) (ms : List Move)
    (result : Renderer × Except RenderError (Option String)) : Prop where
  nested : ∀ n, (ms.take n).count .leave ≤ (ms.take n).count .enter
  indentText : result.1.indentText = r.indentText
  lines : result.1.lines = r.lines ++ linesAt r.indentText r.indent (performed ms)
  indent : result.1.indent = r.indent + openBlocks (performed ms)
  failure : errorOf? result.2 = ms.findSome? Move.failure?
  restored : errorOf? result.2 = none → performed ms = ms ∧ result.1.indent = r.indent

theorem errorOf?_silently (failed : Option RenderError) : errorOf? (silently failed) = failed := by
  cases failed with
  | none => rfl
  | some e => rfl

theorem Draft.Performs.emitted {d : Draft} {ms : List Move} (h : d.Performs ms) {r : Renderer}
    {result : Renderer × Except RenderError (Option String)} (hstate : result.1 = (r.write d).1)
    (hfailure : errorOf? result.2 = (r.write d).2) : Emitted r ms result := by
  have hrun := r.run_eq h.balanced.nested
  rw [h.run] at hrun
  rw [hrun] at hstate hfailure
  refine ⟨fun n => h.balanced.nested _ (List.take_prefix n ms), ?_, ?_, ?_, hfailure, fun hok => ?_⟩
  · rw [hstate]; rfl
  · rw [hstate]; rfl
  · rw [hstate]; rfl
  · rw [hfailure] at hok
    have hall := performed_of_ok hok
    have hclosed : openBlocks ms = 0 := by
      rw [openBlocks, h.balanced.closed, Nat.sub_self]
    refine ⟨hall, ?_⟩
    rw [hstate, hall, Renderer.advanced, hclosed, Nat.add_zero]

namespace Renderer

theorem render_eq (r : Renderer) (p : Program) :
    r.render p = ((r.cleared.write (blockDraft p.items)).1, p.render r.indentText) := by
  unfold render Program.render cleared
  generalize blockDraft p.items = d
  obtain ⟨lines, halt⟩ := d
  cases halt with
  | none => simp [write]
  | some h => rfl

theorem step_emitted (r : Renderer) :
    (∀ s, Emitted r s.moves (r.step (.emit s))) ∧
    (∀ b, Emitted r (inBlock (blockMoves b)) (r.step (.block b))) ∧
    ∀ p, Emitted r.cleared (blockMoves p.items) (r.step (.render p)) := by
  refine ⟨fun s => s.performs.emitted rfl (errorOf?_silently _),
    fun b => (blockDraft_performs b).nest.emitted rfl (errorOf?_silently _),
    fun p => (blockDraft_performs p.items).emitted ?_ ?_⟩
  · rw [step, render_eq]
  · rw [step, render_eq, Program.render, write]
    cases (blockDraft p.items).halt with
    | none => rfl
    | some h => rfl

theorem step_indentText (r : Renderer) (q : Request) : (r.step q).1.indentText = r.indentText := by
  obtain ⟨hemit, hblock, hrender⟩ := r.step_emitted
  cases q with
  | render p => exact (hrender p).indentText
  | emit s => exact (hemit s).indentText
  | block b => exact (hblock b).indentText
  | expr e => rfl

theorem after_indentText (r : Renderer) (history : List Request) :
    (r.after history).indentText = r.indentText := by
  induction history generalizing r with
  | nil => rfl
  | cons q history ih => exact (ih _).trans (r.step_indentText q)

/-- What was written before a script is rendered, and how deep, does not matter. -/
theorem step_render_eq {r other : Renderer} (h : r.indentText = other.indentText) (p : Program) :
    r.step (.render p) = other.step (.render p) := by
  have hcleared : r.cleared = other.cleared := by rw [cleared, cleared, h]
  simp only [step, render_eq, hcleared, h]

end Renderer

/-- **A renderer after any history.** Whatever it was asked before, and however that ended, a
statement or a block is emitted as its moves say, a script as if nothing had been written before,
with the text or the failure of the script on its own, and an expression leaves no trace. -/
theorem renderer_over_history (indentText : String) (history : List Request) :
    let fresh : Renderer := { indentText := indentText }
    let r := fresh.after history
    (∀ s, Emitted r s.moves (r.step (.emit s))) ∧
    (∀ b, Emitted r (inBlock (blockMoves b)) (r.step (.block b))) ∧
    (∀ p, Emitted fresh (blockMoves p.items) (r.step (.render p))) ∧
    (∀ e, r.step (.expr e) = (r, e.render.map some)) ∧
    (∀ p, (r.step (.render p)).2 = (p.render indentText).map some) ∧
    ∀ p, r.step (.render p) = fresh.step (.render p) := by
  intro fresh r
  have htext : r.indentText = fresh.indentText := fresh.after_indentText history
  obtain ⟨hemit, hblock, -⟩ := r.step_emitted
  obtain ⟨-, -, hrender⟩ := fresh.step_emitted
  have hsame : ∀ p, r.step (.render p) = fresh.step (.render p) := Renderer.step_render_eq htext
  refine ⟨hemit, hblock, fun p => ?_, fun _ => rfl, fun p => ?_, hsame⟩
  · rw [hsame p]
    exact hrender p
  · rw [hsame p, Renderer.step, Renderer.render_eq]

/-- A failure two blocks deep, one of them inside the other. -/
example :
    ({ indent := 1 } : Renderer).emit
      (.function ⟨.script, "f"⟩ ["x"]
        [.ret (.int 1), .cond [.mk (.int 0) [.stray (.alien "Bogus")]] none]) =
      ({ indent := 3, lines := ["  function! s:f(x) abort", "    return 1", "    if 0"] },
        some (.statement "Bogus")) := by
  decide

/-- An integer with one digit too many, in a list whose line is not written. -/
example :
    ({ indent := 1 } : Renderer).emit
      (.cond [.mk (.int 1)
        [.ret (.list [.int 2, .int (Nat.pow 10 Numeral.digitLimit : Nat)])]] none) =
      ({ indent := 2, lines := ["  if 1"] }, some .digits) := by
  decide +kernel

end Vimgen.Script
