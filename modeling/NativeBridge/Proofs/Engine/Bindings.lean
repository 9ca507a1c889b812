import NativeBridge.Proofs.Call.PreCheck
import NativeBridge.Proofs.Engine.Checks
import NativeBridge.Session.Engine
/-!
# What the host can have rebuilt

An engine converts nothing that the pre-check refuses as long as the host's bindings hand over fields only of records and
arrays (`Environment.ReadsForms.accepts`). So it is from the start on, for values have the record binding then
(`Environment.start_readsForms`), and so it stays under all bindings of the catalog, whatever a session does
(`Session.runSteps_readsForms`). A binding of another kind makes a gap: one that reads whole numbers as points has a number
converted that the type of points refuses (`Environment.diagonal_converts`).
-/
namespace NativeBridge
variable {Ω : Type} [ObjectModel Ω]

namespace Environment
variable {env : Environment Ω}

/-- All bindings hand over fields only of values in a form that the type of objects accepts. -/
def ReadsForms (env : Environment Ω) : Prop :=
  ∀ entry ∈ env.bindings, entry.2.ReadsForms

theorem ReadsForms.rebuildsForms (h : env.ReadsForms) (n : Nat) : (env.services n).RebuildsForms := by
  refine Services.rebuildsForms fun c binding hbinding => ?_
  have hlookup : env.bindings.lookup c = some binding := by
    cases n <;> exact hbinding
  obtain ⟨before, after, heq, -⟩ := List.lookup_eq_some_iff.mp hlookup
  refine h (c, binding) ?_
  rw [heq]
  exact List.mem_append_right before List.mem_cons_self

/-- **Under such bindings nothing is converted to a type that refuses it.** -/
theorem ReadsForms.accepts (h : env.ReadsForms) {n : Nat} {t : NativeType} {w : Wire} {b b' : Boundary Ω}
    {x : t.Value Ω} (hx : Convert.fromWire (env.services n) t w b = .ok x b') : t.accepts w = true :=
  Convert.accepts_of_forms (h.rebuildsForms n) t w hx

theorem start_readsForms {r : Registry (Upcast Ω) (Code Ω)} {config : EngineConfig} {program : NativeProgram Ω}
    (h : start r config program = .ok env) : env.ReadsForms := by
  unfold start at h
  cases hlong : overlong? r config.maxArity with
  | some e =>
    rw [hlong] at h
    cases h
  | none =>
    rw [hlong] at h
    obtain ⟨registry, -, h⟩ := NativeBridge.bind_ok h
    cases h
    intro entry hentry
    obtain ⟨d, -, rfl⟩ := List.mem_map.mp hentry
    exact HostBinding.record_readsForms

theorem ReadsForms.bind (h : env.ReadsForms) (c : Class) {binding : HostBinding} (hbinding : binding.ReadsForms) :
    (env.bind c binding).ReadsForms := by
  intro entry hentry
  rcases List.mem_cons.mp hentry with rfl | hentry
  · exact hbinding
  · exact h entry (List.mem_of_mem_filter hentry)

theorem ReadsForms.unbind (h : env.ReadsForms) (c : Class) : (env.unbind c).ReadsForms :=
  fun entry hentry => h entry (List.mem_of_mem_filter hentry)

end Environment

/-! ## The bindings of the catalog -/

namespace Catalog

theorem arrayBinding_readsForms (read : String → List Wire → ImportScript) : (arrayBinding read).ReadsForms := by
  intro c w fields next h
  cases w with
  | array _ | record _ _ => rfl
  | _ => cases h

theorem bindingNamed_readsForms (name : String) : (bindingNamed name).ReadsForms := by
  unfold bindingNamed
  split
  · exact HostBinding.record_readsForms
  · exact arrayBinding_readsForms fun name _ => .done (.error (.native ("cannot read " ++ name)))
  · exact arrayBinding_readsForms handOver
  · exact arrayBinding_readsForms handOver
  all_goals exact arrayBinding_readsForms _

end Catalog

namespace Session
open Catalog

theorem bindStep?_readsForms {d : Doc} {env env' : Environment Specimen} {out : Doc} (henv : env.ReadsForms)
    (h : bindStep? d env = some (out, env')) : env'.ReadsForms := by
  unfold bindStep? at h
  dsimp only at h
  split at h
  · cases h
    exact henv.bind _ (Catalog.bindingNamed_readsForms _)
  · cases h
    exact henv.unbind _
  · cases h

theorem engineStep_readsForms (d : Doc) {run : Running} (h : run.env.ReadsForms) :
    (engineStep d run).2.env.ReadsForms := by
  unfold engineStep stepAnswer
  dsimp only
  cases hstep : bindStep? d run.env with
  | some step => exact bindStep?_readsForms h hstep
  | none =>
    dsimp only
    split <;> exact h

/-- Whatever a session does, its host hands over fields of records and arrays only. -/
theorem runSteps_readsForms (ds : List Doc) {run : Running} (h : run.env.ReadsForms) :
    (runSteps engineStep ds run).2.env.ReadsForms := by
  induction ds generalizing run with
  | nil => exact h
  | cons d ds ih => exact ih (engineStep_readsForms d h)

end Session

/-! ## Bindings that read more -/

namespace Environment

/-- **A binding that reads a refused value opens a gap**: the value is converted wherever an object can be made of the
fields that the binding hands over. -/
theorem bind_converts (env : Environment Ω) {c : Class} {binding : HostBinding} {w : Wire} {fields : List Wire}
    (hrefused : (NativeType.object c).accepts w = false) (hread : binding.read c.name w = .emit fields .done) {n : Nat}
    {b b' : Boundary Ω} {x : Instance Ω c}
    (hmade : (do
      let p ← ((env.bind c binding).services n).construct c fields
      Access.intoOwned c p) (b.retain (Wire.refsAll fields)) = .ok x b') :
    Convert.fromWire ((env.bind c binding).services n) (.object c) w b = .ok x ((b'.drop []).drop w.refs) := by
  have hbinding : ((env.bind c binding).services n).binding c = some binding := by
    cases n <;> exact List.lookup_cons_self
  obtain ⟨p, b₁, hconstruct, howned⟩ := Act.bind_eq_ok hmade
  have himport := Convert.importValue_emit hbinding hread hconstruct howned
  cases w with
  | object _ | pointer _ => cases hrefused
  | _ => exact himport

open Catalog

/-- A whole number is read as a point on the diagonal. -/
def diagonal : HostBinding where
  construct := HostBinding.record.construct
  read name
    | .int n => .emit [.int n, .int n] .done
    | w => HostBinding.record.read name w

/-- A number is converted to a point, although the type of points refuses it. -/
theorem diagonal_converts : (NativeType.object Species.point.cls).accepts (.int 3) = false ∧
    ∃ x b, Convert.fromWire ((points.bind Species.point.cls diagonal).services 1) (.object Species.point.cls) (.int 3)
      .empty = .ok x b ∧ x.object.asPoint = ⟨3, 3⟩ := by
  have hpoint : Act.observed (fun x _ => some x.object.asPoint) ((do
      let p ← ((points.bind Species.point.cls diagonal).services 1).construct Species.point.cls [.int 3, .int 3]
      Access.intoOwned Species.point.cls p : Act Specimen (Instance Specimen Species.point.cls)) .empty) =
        some ⟨3, 3⟩ := by
    rw [points_eq]
    generalize pointRegistry .none [pointOfPoint, pointOfXY] = r
    cbv
  obtain ⟨x, b, hmade, hx⟩ := Act.observed_eq_some hpoint
  exact ⟨rfl, x, _, points.bind_converts rfl rfl hmade, Option.some.inj hx⟩

end Environment
end NativeBridge
