import NativeBridge.Engine.Environment
import NativeBridge.Proofs.Call.Conversions
import NativeBridge.Proofs.Registry.Declarations
/-!
# Nested constructors

A conversion may run constructors of the classes in the registry, each in a call of its own, and their arguments may
be values that run constructors again. What the moving out of objects does to the object table, or leaves alone if
no constructor has such a parameter, is then what every nested constructor does.
-/
namespace NativeBridge
variable {Ω : Type} [ObjectModel Ω]

namespace Entry

def isConstructor : Entry Ω → Bool
  | .constructor .. => true
  | _ => false

def params : Entry Ω → List NativeType
  | .function params _ _ => params
  | .method _ params _ _ => params
  | .methodMut _ params _ _ => params
  | .constructor _ params _ => params

end Entry

namespace Environment

/-- Every constructor overload of a class is a typed constructor whose parameters are allowed. -/
def Constructs (env : Environment Ω) (allowed : NativeType → Prop) : Prop :=
  ∀ c d n ref s e, env.registry.class? c = some d → d.constructors.resolve n = .ok ref →
    env.registry.entry ref = .ok (s, e) →
    ∃ entry : Entry Ω, e.code = .typed entry ∧ entry.isConstructor = true ∧ ∀ t ∈ entry.params, allowed t

theorem Constructs.mono {env : Environment Ω} {allowed allowed' : NativeType → Prop} (henv : env.Constructs allowed)
    (h : ∀ t, allowed t → allowed' t) : env.Constructs allowed' := by
  intro c d n ref s e hd href he
  obtain ⟨entry, hcode, hctor, hparams⟩ := henv c d n ref s e hd href he
  exact ⟨entry, hcode, hctor, fun t ht => h t (hparams t ht)⟩

theorem Constructs.and {env : Environment Ω} {allowed allowed' : NativeType → Prop} (henv : env.Constructs allowed)
    (henv' : env.Constructs allowed') : env.Constructs fun t => allowed t ∧ allowed' t := by
  intro c d n ref s e hd href he
  obtain ⟨entry, hcode, hctor, hparams⟩ := henv c d n ref s e hd href he
  obtain ⟨entry', hcode', -, hparams'⟩ := henv' c d n ref s e hd href he
  obtain rfl : entry = entry' := by
    rw [hcode] at hcode'
    exact Code.typed.inj hcode'
  exact ⟨entry, hcode, hctor, fun t ht => ⟨hparams t ht, hparams' t ht⟩⟩

/-! ## What conversions see at every depth -/

theorem services_host (env : Environment Ω) (n : Nat) : (env.services n).host = env.program.host := by
  cases n <;> rfl

theorem services_upcastPath (env : Environment Ω) (n : Nat) :
    (env.services n).upcastPath = env.registry.upcastPath? := by
  cases n <;> rfl

theorem services_binding (env : Environment Ω) (n : Nat) (c : Class) :
    (env.services n).binding c = env.bindings.lookup c := by
  cases n <;> rfl

theorem services_exporter (env : Environment Ω) (n : Nat) (c : Class) : (env.services n).exporter c =
    (match env.registry.class? c with
    | some d => if d.valueType then some (env.program.exporter c) else none
    | none => none) := by
  cases n <;> rfl

/-! ## Constructors in a call -/

open Act

variable {R : ObjectTable → ObjectTable → Prop} [IsPreorder ObjectTable R]
variable {env : Environment Ω}

/-- The entry that a call in progress is sent to, if it is let through. -/
def select (env : Environment Ω) (group : OverloadGroup) (b : Boundary Ω) :
    Except CallError (SignatureEntry (Code Ω)) := do
  let ref ← group.resolve b.call.args.length
  let (signature, entry) ← env.registry.entry ref
  if signature.key.strict || env.config.isOn .strictTypeChecks || !group.isSingle then
    signature.checkArgs b.call.args
  checkConst b entry.name entry.flags
  return entry

/-- Run the code of a call that was let through and report the first error. -/
def finish (env : Environment Ω) (services : Nat → Services Ω) (code : Code Ω) : Act Ω Wire := do
  if let .error e := ← (env.runCode services code).attempt then Act.record e
  match ← Act.takeError with
  | some e => Act.fail e
  | none => Act.takeResult

omit [IsPreorder ObjectTable R] in
theorem dispatch_eq (services : Nat → Services Ω) (group : OverloadGroup) (b : Boundary Ω) :
    env.dispatch services group b = (do
      let entry ← Act.ofExcept (env.select group b)
      env.finish services entry.code : Act Ω Wire) b := by
  unfold select
  rw [dispatch, get_bind]
  simp only [ofExcept_bind, bind_assoc]
  cases group.resolve b.call.args.length with
  | error e => rfl
  | ok ref =>
    change (Act.ofExcept (env.registry.entry ref) >>= _) b = (Act.ofExcept (env.registry.entry ref) >>= _) b
    cases env.registry.entry ref with
    | error e => rfl
    | ok e =>
      change (if _ then _ else _ : Act Ω Wire) b = (Act.ofExcept (if _ then _ else _) >>= _) b
      split
      · change (Act.ofExcept (e.1.checkArgs b.call.args) >>= _) b = _
        cases e.1.checkArgs b.call.args with
        | error e => rfl
        | ok _ =>
          change (Act.ofExcept (checkConst b e.2.name e.2.flags) >>= _) b = _
          cases checkConst b e.2.name e.2.flags <;> rfl
      · change (Act.ofExcept (checkConst b e.2.name e.2.flags) >>= _) b = _
        cases checkConst b e.2.name e.2.flags <;> rfl

theorem select_entry {group : OverloadGroup} {b : Boundary Ω} {e : SignatureEntry (Code Ω)}
    (h : env.select group b = .ok e) :
    ∃ n ref s, group.resolve n = .ok ref ∧ env.registry.entry ref = .ok (s, e) := by
  unfold select at h
  obtain ⟨ref, href, h⟩ := NativeBridge.bind_ok h
  obtain ⟨⟨s, e'⟩, he, h⟩ := NativeBridge.bind_ok h
  dsimp only at h
  split at h
  · obtain ⟨-, -, h⟩ := NativeBridge.bind_ok h
    obtain ⟨-, -, h⟩ := NativeBridge.bind_ok h
    cases h
    exact ⟨_, ref, s, href, he⟩
  · obtain ⟨-, -, h⟩ := NativeBridge.bind_ok h
    cases h
    exact ⟨_, ref, s, href, he⟩

theorem keeps_runCode {services : Nat → Services Ω} {entry : Entry Ω} (hrun : ∀ n, (entry.run (services n)).Keeps R) :
    (env.runCode services (.typed entry)).Keeps R := by
  have hact : (do entry.run (services (Wire.depthAll (← get).call.args)) : Act Ω Unit).Keeps R :=
    .bind .get fun _ => hrun _
  unfold runCode
  dsimp only
  split
  · refine .bind hact.outcome fun r => ?_
    split
    · exact .fail _
    · exact .ofOutcome _
  · exact hact

omit [ObjectModel Ω] in
/-- The report of a call. -/
theorem keeps_report (r : Except CallError Unit) : (do
    if let .error e := r then Act.record e
    match ← Act.takeError with
    | some e => Act.fail e
    | none => Act.takeResult : Act Ω Wire).Keeps R := by
  have htake : (do
      match ← Act.takeError with
      | some e => Act.fail e
      | none => Act.takeResult : Act Ω Wire).Keeps R := by
    refine .bind .takeError fun e => ?_
    cases e with
    | some e => exact .fail e
    | none => exact .takeResult
  cases r with
  | ok _ => exact htake
  | error e => exact .bind (.record e) fun _ => htake

theorem keeps_finish {services : Nat → Services Ω} {code : Code Ω} (hcode : (env.runCode services code).Keeps R) :
    (env.finish services code).Keeps R :=
  .bind hcode.attempt keeps_report

theorem keeps_dispatch {services : Nat → Services Ω} {group : OverloadGroup}
    (hcode : ∀ b e, env.select group b = .ok e → (env.runCode services e.code).Keeps R) :
    (env.dispatch services group).Keeps R := by
  intro b
  unfold final
  rw [dispatch_eq]
  cases h : env.select group b with
  | error e => exact refl_of R _
  | ok e => exact keeps_finish (hcode b e h) b

theorem keeps_constructed (name : String) (w : Wire) : (constructed name w : Act Ω Pointer).Keeps R := by
  cases w with
  | pointer p => exact .pure _
  | _ => exact Convert.keeps_refuse _ _

/-- What the moving out of objects keeps, for each parameter type that could do it, is kept by every nested
constructor. -/
theorem keeps_construct
    (henv : env.Constructs fun t => t.movesOut = true →
      ∀ c h, (Access.takeUnique c h : Act Ω (Instance Ω c)).Keeps R) :
    ∀ depth c args, ((env.services depth).construct c args).Keeps R
  | 0, _, _ => .orDrop (.throw _) _
  | depth + 1, c, args => by
    change (env.constructNested (fun _ => env.services depth) c args).Keeps R
    unfold constructNested
    split
    · exact .orDrop (.fail _) _
    rename_i d hd
    obtain ⟨hd, -⟩ := Option.filter_eq_some_iff.mp hd
    refine .bind .get fun b => .inCall (.bind (keeps_dispatch ?_) fun w => keeps_constructed _ w) _
    intro _ e hselect
    obtain ⟨n, ref, s, href, he⟩ := select_entry hselect
    obtain ⟨entry, hcode, hctor, hparams⟩ := henv c d n ref s e hd href he
    rw [hcode]
    refine keeps_runCode fun _ => ?_
    cases entry with
    | constructor k params body => exact Entry.keeps_constructor (keeps_construct henv depth) k params body hparams
    | _ => cases hctor

variable (Ω)

/-- The engine without declarations, on a host that answers nothing. -/
def bare : Environment Ω :=
  ⟨.empty 8, .new, [], ⟨fun _ => ⟨fun _ => .done (.ok ()), fun _ => 0⟩, fun _ _ _ => (.ok .undefined, [])⟩⟩

theorem constructs_bare (allowed : NativeType → Prop) : (bare Ω).Constructs allowed := by
  intro c d n ref s e hd
  cases hd

end Environment
end NativeBridge
