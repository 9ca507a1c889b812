import Mathlib
import NativeBridge.Catalog.Specimen
import NativeBridge.Engine.Basic
import NativeBridge.Proofs.Engine.Constructors
/-!
# Engines of points

Engines whose only class is that of points, which travel by value, with given constructors. The declarations that such an
engine is started from are evaluated once (`Environment.pointEngine_eq`), apart from what its calls do.
-/
namespace NativeBridge
variable {Ω : Type} [ObjectModel Ω]

namespace Environment

/-- Declarations that can be closed start an engine. -/
theorem start_eq {r : Registry (Upcast Ω) (Code Ω)} {config : EngineConfig} {program : NativeProgram Ω}
    {h : Hierarchy (Upcast Ω)} (hlong : overlong? r config.maxArity = none) (hopen : r.exposure = none)
    (hbuild : Hierarchy.build r.classes = .ok h) :
    start r config program = .ok {
      registry := { r with
        classes := r.classes.map (·.markReady)
        functions := r.functions.map (·.freeze)
        exposure := some (.ofDeclarations h r.classes r.functions) }
      config, program
      bindings := (if config.isOn .defaultRecordBinding then (r.classes.map (·.markReady)).filter (·.valueType) else []).map
        fun d => (d.cls, .record) } := by
  unfold start
  rw [hlong]
  unfold Registry.finalize Registry.ensureOpen Registry.isClosed
  rw [hopen, hbuild]
  rfl

open Catalog

/-- A point from its coordinates. -/
def pointOfXY : Entry Specimen :=
  .constructor Species.point.cls [.int .int32, .int .int32] fun (x, y, _) => .done (Specimen.ofPoint ⟨x, y⟩)

/-- A point from another. -/
def pointOfPoint : Entry Specimen :=
  .constructor Species.point.cls [.object Species.point.cls] fun (p, _) => .done p

/-- The point at the origin. -/
def pointOfNothing : Entry Specimen :=
  .constructor Species.point.cls [] fun _ => .done (Specimen.ofPoint ⟨0, 0⟩)

/-- Declare constructors of points one after another. -/
def declareConstructors (flags : TypeFlags) : List (Entry Specimen) → Registry (Upcast Specimen) (Code Specimen) →
    Except RegistrationError (Registry (Upcast Specimen) (Code Specimen))
  | [], r => .ok r
  | e :: es, r => do
    let (_, r) ← r.declareConstructor Species.point.cls flags e.shape ⟨0⟩ (.typed e)
    declareConstructors flags es r

/-- Points that travel by value. -/
def declarePoints (flags : TypeFlags) (entries : List (Entry Specimen)) :
    Except RegistrationError (Registry (Upcast Specimen) (Code Specimen)) := do
  let r ← (Registry.empty 16 : Registry (Upcast Specimen) (Code Specimen)).declareClass Species.point.cls.info
  let r ← r.declareValueType Species.point.cls
  declareConstructors flags entries r

def pointRegistry (flags : TypeFlags) (entries : List (Entry Specimen)) : Registry (Upcast Specimen) (Code Specimen) :=
  match declarePoints flags entries with
  | .ok r => r
  | .error _ => .empty 0

/-- The engine of points with these constructors, on a host that answers nothing. -/
def pointEngine (flags : TypeFlags) (entries : List (Entry Specimen)) : Environment Specimen :=
  match start (pointRegistry flags entries) .new (bare Specimen).program with
  | .ok env => env
  | .error _ => bare Specimen

/-- The class of points before the declarations are closed. -/
def pointClass (overloads : List (Nat × EntryRef)) : ClassDescriptor (Upcast Specimen) where
  cls := Species.point.cls
  name := "Point"
  size := Species.point.cls.info.size
  members := []
  constructors := ⟨"Point", .cls Species.point.cls, overloads, false⟩
  supers := []
  valueType := true
  declared := true
  ready := false

/-- The constructors of points of an engine. -/
def pointGroup (overloads : List (Nat × EntryRef)) : OverloadGroup :=
  (pointClass overloads).markReady.constructors

/-- A signature with one constructor of points under it. -/
def pointSignature (flags : TypeFlags) (e : Entry Specimen) : Signature (Code Specimen) :=
  ⟨e.shape.key (flags.contains .strict), e.shape.args, e.shape.ret, [⟨"Point", flags.union .static, ⟨0⟩, .typed e⟩]⟩

/-- The engine that declarations of points with these constructors start. -/
def opened (r : Registry (Upcast Specimen) (Code Specimen)) (signatures : List (Signature (Code Specimen)))
    (overloads : List (Nat × EntryRef)) : Environment Specimen where
  registry := { r with
    signatures := ⟨signatures⟩
    classes := [(pointClass overloads).markReady]
    functions := []
    exposure := some (.ofDeclarations ⟨[Species.point.cls], [], 1⟩ [pointClass []] []) }
  config := .new
  program := (bare Specimen).program
  bindings := [(Species.point.cls, .record)]

theorem pointEngine_eq {flags : TypeFlags} {entries : List (Entry Specimen)}
    {signatures : List (Signature (Code Specimen))} {overloads : List (Nat × EntryRef)}
    (hlong : overlong? (pointRegistry flags entries) 16 = none) (hopen : (pointRegistry flags entries).exposure = none)
    (hsignatures : (pointRegistry flags entries).signatures = ⟨signatures⟩)
    (hclasses : (pointRegistry flags entries).classes = [pointClass overloads])
    (hfunctions : (pointRegistry flags entries).functions = []) :
    pointEngine flags entries = opened (pointRegistry flags entries) signatures overloads := by
  have hbuild : Hierarchy.build (pointRegistry flags entries).classes = .ok ⟨[Species.point.cls], [], 1⟩ := by
    rw [hclasses]
    cbv
  have hexposure : Exposure.ofDeclarations (⟨[Species.point.cls], [], 1⟩ : Hierarchy (Upcast Specimen))
      [pointClass overloads] [] = .ofDeclarations ⟨[Species.point.cls], [], 1⟩ [pointClass []] [] := by cbv
  unfold pointEngine
  rw [start_eq hlong hopen hbuild, hclasses, hfunctions, hexposure, hsignatures]
  rfl

theorem class?_opened {r : Registry (Upcast Specimen) (Code Specimen)} {signatures : List (Signature (Code Specimen))}
    {overloads : List (Nat × EntryRef)} {c : Class} {d : ClassDescriptor (Upcast Specimen)}
    (h : (opened r signatures overloads).registry.class? c = some d) :
    c = Species.point.cls ∧ d = (pointClass overloads).markReady := by
  obtain ⟨hmem, rfl⟩ := Registry.class?_mem h
  rw [List.mem_singleton.mp hmem]
  exact ⟨rfl, rfl⟩

end Environment
end NativeBridge
