import NativeBridge.Proofs.Engine.Checks
/-!
# Cells that are never taken away

Whatever is done to an object, its cell stays: if the native code of the constructors takes no cell away, running them
takes none away (`Environment.grows_construct`). An object that is put into a new cell therefore has an address that was
not in use at any time before.
-/
namespace NativeBridge
variable {Ω : Type} [ObjectModel Ω] {α β : Type}

open Act

namespace Act

/-- However the action ends, there are no fewer cells than before. -/
def Grows (act : Act Ω α) : Prop :=
  ∀ b, b.heap.cells.length ≤ (act.final b).heap.cells.length

section
omit [ObjectModel Ω]

theorem Local.grows {act : Act Ω α} (h : act.Local) : act.Grows :=
  fun b => (h.level b).cells

theorem Grows.of_heap {act : Act Ω α} (h : ∀ b, (act.final b).heap = b.heap) : act.Grows :=
  fun b => by rw [h b]

theorem Grows.throw (i : Interrupt) : (throw i : Act Ω α).Grows :=
  .of_heap fun _ => rfl

theorem Grows.relates {act : Act Ω α} (hact : act.Grows) :
    act.Relates fun b b' => b.heap.cells.length ≤ b'.heap.cells.length :=
  hact

theorem Grows.bind {act : Act Ω α} {f : α → Act Ω β} (hact : act.Grows) (hf : ∀ a, (f a).Grows) : (act >>= f).Grows :=
  hact.relates.bind .trans hf

theorem Grows.ensuring {act : Act Ω α} {after : Boundary Ω → Boundary Ω} (hact : act.Grows)
    (hafter : ∀ b, b.heap.cells.length ≤ (after b).heap.cells.length) : (act.ensuring after).Grows :=
  hact.relates.ensuring fun _ b' h => h.trans (hafter b')

theorem Grows.onFailure {act : Act Ω α} {after : Boundary Ω → Boundary Ω} (hact : act.Grows)
    (hafter : ∀ b, b.heap.cells.length ≤ (after b).heap.cells.length) : (act.onFailure after).Grows :=
  hact.relates.onFailure fun _ b' h => h.trans (hafter b')

theorem Grows.attempt {act : Act Ω α} (hact : act.Grows) : act.attempt.Grows :=
  hact.relates.attempt

theorem Grows.atArgument {act : Act Ω α} (hact : act.Grows) (i : Nat) : (act.atArgument i).Grows :=
  hact.relates.atArgument i

theorem Grows.takeArg (i : Nat) : (takeArg i : Act Ω Wire).Grows := .of_heap fun b => by
  unfold final Act.takeArg
  cases b.call.args[i]? <;> rfl

end

namespace Grows

theorem thenDrop {act : Act Ω α} (hact : act.Grows) (as : List Address) : (act.thenDrop as).Grows :=
  hact.ensuring fun b => (Level.drop b as).cells

theorem orDrop {act : Act Ω α} (hact : act.Grows) (as : List Address) : (act.orDrop as).Grows :=
  hact.onFailure fun b => (Level.drop b as).cells

theorem inCall {act : Act Ω α} (hact : act.Grows) (context : CallContext) : (act.inCall context).Grows := fun b => by
  change _ ≤ (Act.final (act.ensuring _) { b with call := context }).heap.cells.length
  rw [final_ensuring]
  exact (hact { b with call := context }).trans (Level.drop _ _).cells

omit [ObjectModel Ω] in
theorem congruence (params : List NativeType) :
    Congruence.OfCalls (Ω := Ω) (fun _ _ => True) params fun {α} (x _ : Act Ω α) => x.Grows where
  inward := ⟨fun _ _ _ _ _ => trivial, fun _ _ _ _ _ _ => trivial, fun _ _ _ => trivial, fun _ _ _ => trivial⟩
  loc := Local.grows
  bind := fun hx hf => hx.bind hf
  ensuring := fun hx hafter => hx.ensuring fun b => (hafter b).cells
  onFailure := fun hx hafter => hx.onFailure fun b => (hafter b).cells
  atArgument := fun i hx => hx.atArgument i
  takeArg := fun _ hf => (takeArg _).bind fun w => hf w trivial

end Grows
end Act

/-! ## Native code -/

/-- The body takes no cell away, whatever it meets. -/
def Body.KeepsCells {ρ : Type} (host : HostBehaviour) (body : Body Ω ρ α) : Prop :=
  ∀ s, s.scene.heap.cells.length ≤ (body.exec host s).2.scene.heap.cells.length

/-- The native code of the entry takes no cell away. -/
def Entry.KeepsCells (host : HostBehaviour) (e : Entry Ω) : Prop :=
  ∀ seen xs, (e.closure seen xs).KeepsCells host

omit [ObjectModel Ω] in
theorem Body.grows_run {ρ : Type} {host : HostBehaviour} {body : Body Ω ρ α} (h : body.KeepsCells host) (receiver : ρ) :
    (Body.run host receiver body).Grows :=
  fun b => h ⟨⟨receiver, b.heap, b.program, []⟩, b.sinks, b.journal⟩

namespace Entry
variable {sv : Services Ω}

omit [ObjectModel Ω] in
theorem grows_harvest {ρ : Type} (refs : α → List Address) (ended : Body.Ended ρ α) :
    (harvest refs ended : Act Ω α).Grows := by
  refine .bind (.of_heap fun b => ?_) fun x => .bind (fun b => (Level.retain b (refs x)).cells) fun _ => .of_heap fun _ => rfl
  cases ended.outcome <;> rfl

theorem grows_runFree (refs : α → List Address) (held : List Address) {body : Body Ω Unit α}
    (h : body.KeepsCells sv.host) : (runFree sv refs held body).Grows :=
  .bind (Body.grows_run h ()) fun ended => .thenDrop (grows_harvest refs ended) _

variable (hconstruct : ∀ c args, (sv.construct c args).Grows)
include hconstruct

theorem grows_arguments (ts : List NativeType) (check : Boundary Ω → Except CallError Unit) :
    (arguments sv ts check).Grows :=
  have hR := Grows.congruence (Ω := Ω) ts
  related_arguments hR sv.construct (fun c w _ =>
    Convert.related_importValue hR.toCongruence sv.construct .attempt hconstruct c w) check

/-- A constructor takes no cell away. -/
theorem grows_constructor {e : Entry Ω} (he : e.isConstructor = true) (h : e.KeepsCells sv.host) : (e.run sv).Grows := by
  cases e with
  | constructor c params body =>
    refine .bind (grows_arguments hconstruct params _) fun xs => .bind (grows_runFree _ _ (h () xs)) fun x => ?_
    refine .bind (Local.newObject x).grows fun p => fun b => ?_
    exact (Level.drop { b with call := { b.call with result := .pointer p } } b.call.result.refs).cells
  | function params ret body | method c params ret body | methodMut c params ret body => cases he

end Entry

/-! ## Constructors -/

namespace Environment
variable {env : Environment Ω} {services : Nat → Services Ω} {code : Code Ω}

omit [ObjectModel Ω] in
theorem grows_report : (report : Act Ω Wire).Grows := .of_heap fun b => by
  unfold Act.final
  rw [report_eq]
  cases b.errorIn b.call.sink <;> rfl

theorem grows_finish (hcode : (code.run services).Grows) : (env.finish services code).Grows := fun b => by
  have hgrows := hcode b
  unfold Act.final
  have hfinishes := env.finishes services code b
  generalize env.finish services code b = r at hfinishes ⊢
  cases hfinishes with
  | @ran b' hrun =>
    rw [final_ok hrun] at hgrows
    exact hgrows.trans (grows_report b')
  | @caught i b' hrun hi x =>
    rw [final_error hrun] at hgrows
    exact hgrows.trans (grows_report { b' with sinks := recordIn b'.sinks b'.call.sink x })
  | escaped hrun =>
    rw [final_error hrun] at hgrows
    exact hgrows

section
variable (henv : env.Constructs fun _ => True)
  (hkeeps : ∀ c n entry, env.Makes c n entry → entry.KeepsCells env.program.host)
include henv hkeeps

/-- **Running constructors takes no cell away**, however deep they nest. -/
theorem grows_construct : ∀ depth c args, ((env.services depth).construct c args).Grows
  | 0, _, args => Grows.orDrop (.throw .nesting) (Wire.refsAll args)
  | depth + 1, c, args => by
    change (env.constructNested (fun _ => env.services depth) c args).Grows
    unfold constructNested
    split
    · exact .orDrop (.throw _) _
    rename_i d hd
    obtain ⟨hd, -⟩ := Option.filter_eq_some_iff.mp hd
    refine .bind (.of_heap fun _ => rfl) fun b => .inCall (.bind (fun b => ?_) fun w => ?_) _
    · unfold Act.final
      rw [dispatch_eq]
      cases hselect : env.select d.constructors b with
      | error x => exact Nat.le_refl _
      | ok e =>
        obtain ⟨m, ref, s, href, he⟩ := select_entry hselect
        obtain ⟨entry, hcode, hctor, -⟩ := henv c d m ref s e hd href he
        have hentry := hkeeps c _ entry ⟨d, e, hd, select_overload hselect, hcode⟩
        rw [← services_host env depth] at hentry
        have hrun : (e.code.run fun _ => env.services depth).Grows := by
          rw [hcode]
          exact .bind (.of_heap fun _ => rfl) fun _ => Entry.grows_constructor (grows_construct depth) hctor hentry
        exact grows_finish hrun b
    · exact (local_constructed d.name w).grows

end

end Environment
end NativeBridge
