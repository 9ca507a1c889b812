import NativeBridge.Proofs.Engine.Dispatch
/-!
# Native code runs at most once

What a dispatch makes of an entry is a function of its native code. For any native code in the place of the entry's own
it either stops before, and ends in the same way whatever the native code is, or it has passed the gate of the entry,
runs the native code once on what it was started with, and goes on with what that came to (`Entry.RunsOnce`). The engine
stays as it is: the conversions of the arguments may construct value objects, each in a call of its own that is
dispatched and gated like every other. So is each call by tag, unless it is sent to no overload and runs no native code
at all (`Environment.Built.gated`).
-/
namespace NativeBridge
variable {Ω : Type} [ObjectModel Ω]

open Act

/-! ## One run -/

namespace Entry
variable {env : Environment Ω} {services : Nat → Services Ω} {b : Boundary Ω}

/-- What a call in progress in `b` comes to, given native code for its entry. -/
inductive RunsOnce (env : Environment Ω) (sv : Services Ω) (e : Entry Ω) (b : Boundary Ω)
    (call : e.Closure → Act Ω Wire) : Prop
  /-- It stops before it comes to the native code. -/
  | stopped {i : Interrupt} {b' : Boundary Ω} (hbegin : e.begin sv b = .error i b')
      (hcall : ∀ f, call f b = env.concluding (throw i) b')
  /-- It has passed the gate, runs the native code once, and goes on from there. -/
  | ran {s : e.Start} {b' : Boundary Ω} (hbegin : e.begin sv b = .ok s b') (hpassed : e.Passed env sv b s b')
      (hcall : ∀ f, call f b = (do
        let ended ← e.runClosure sv f s
        env.concluding (e.finish sv s ended) : Act Ω Wire) b')

/-- **An entry runs its native code at most once**, and only behind its gate. -/
theorem runsOnce (henv : env.Built) {n : Nat} (hservices : services (Wire.depthAll b.call.args) = env.services n)
    (e : Entry Ω) (harity : b.call.args.length = e.params.length) :
    e.RunsOnce env (env.services n) b fun f => env.finish services (.typed (e.withClosure f)) := by
  -- the run of the entry, for any native code in it
  have hrun (f : e.Closure) : env.finish services (.typed (e.withClosure f)) b = env.concluding (do
      let s ← e.begin (env.services n)
      let ended ← e.runClosure (env.services n) f s
      e.finish (env.services n) s ended) b := by
    rw [Environment.finish_eq, ← run_withClosure, ← hservices]
    exact Environment.concluding_at rfl rfl
  cases hbegin : e.begin (env.services n) b with
  | error i b' =>
    refine .stopped hbegin fun f => (hrun f).trans (Environment.concluding_at ?_ rfl)
    exact Act.bind_error hbegin
  | ok s b' =>
    refine .ran hbegin (begin_ok henv harity hbegin) fun f => (hrun f).trans ?_
    obtain ⟨ended, b₂, hended⟩ := Body.total_run (env.services n).host (e.place s.receiver) (f (e.seen s.receiver) s.args) b'
    have hended : e.runClosure (env.services n) f s b' = .ok ended b₂ := hended
    rw [Act.bind_ok hended]
    refine Environment.concluding_at ?_ rfl
    rw [Act.bind_ok hbegin, Act.bind_ok hended]

end Entry

/-! ## Dispatches -/

namespace Environment
variable {env : Environment Ω} {services : Nat → Services Ω} {group : OverloadGroup} {suits : Entry Ω → Prop}
  {b : Boundary Ω}

/-- What a dispatch of the call in progress to a group of suitable entries comes to. -/
inductive Gates (env : Environment Ω) (services : Nat → Services Ω) (group : OverloadGroup) (suits : Entry Ω → Prop)
    (b : Boundary Ω) : Prop
  /-- It is refused and changes nothing. -/
  | refused {x : CallError} (hselect : env.select group b = .error x)
      (hdispatch : env.dispatch services group b = .error (.error x) b)
  /-- It is sent to an entry, which runs its native code at most once. -/
  | sent {entry : SignatureEntry (Code Ω)} {e : Entry Ω} (hselect : env.select group b = .ok entry)
      (hcode : entry.code = .typed e) (hsuits : suits e)
      (hdispatch : env.dispatch services group b = env.finish services (.typed (e.withClosure e.closure)) b)
      (hruns : e.RunsOnce env (services (Wire.depthAll b.call.args)) b fun f => env.finish services (.typed (e.withClosure f)))

theorem Built.gates (henv : env.Built) {n : Nat} (hservices : services (Wire.depthAll b.call.args) = env.services n)
    (hgroup : group.Leads env.registry.signatures suits) : env.Gates services group suits b := by
  cases hselect : env.select group b with
  | error x => exact .refused hselect (dispatch_refused hselect)
  | ok entry =>
    obtain ⟨ref, s, href, he⟩ := select_ok hselect
    obtain ⟨s', e', e, he', hcode, hlength, htokens, hsuits⟩ := hgroup _ ref href
    rw [he] at he'
    cases he'
    have harity : b.call.args.length = e.params.length := by
      have hsame := congrArg List.length htokens
      rw [List.length_map, List.length_map, hlength] at hsame
      exact hsame
    refine .sent hselect hcode hsuits ?_ ?_
    · rw [Entry.withClosure_closure]
      exact dispatch_selected hselect hcode
    · rw [hservices]
      exact Entry.runsOnce henv hservices e harity

/-! ## Calls -/

/-- A call by tag that runs no native code: it fails, releases its receiver or binds a pointer to a wrapper. -/
inductive Unsent (env : Environment Ω) (tag : CallTag) (receiver : Option Handle) (args : List Wire) : Prop
  | refused (e : CallError) (hcall : env.call tag receiver args = (Act.fail e).orDrop (Wire.refsAll args))
  | released (c : Class) (hcall : env.call tag receiver args = (env.releaseAs c receiver).thenDrop (Wire.refsAll args))
  | bound (c : Class) (p : Pointer) (flags : Wire) (hcall : env.call tag receiver args = env.rewrap c p flags)

theorem unsent {tag : CallTag} {receiver : Option Handle} {args : List Wire}
    (hnone : env.tagCall tag receiver args = none) : env.Unsent tag receiver args := by
  unfold tagCall at hnone
  cases htarget : env.registry.target tag with
  | error e => exact .refused e (by rw [call, htarget])
  | ok target =>
    rw [htarget] at hnone
    cases target with
    | release c => exact .released c (by rw [call, htarget])
    | member c i | function i =>
      refine .refused (.unknownEntry tag.text) ?_
      rw [call, htarget]
      dsimp only
      rw [Option.map_eq_none_iff.mp hnone]
    | constructor c =>
      have hcall : env.call tag receiver args = env.construct c args := by rw [call, htarget]
      dsimp only at hnone
      unfold constructorCall at hnone
      split at hnone
      · rename_i p flags
        exact .bound c p flags hcall
      · rename_i hraw
        refine .refused (.unknownEntry c.qualified) ?_
        rw [hcall, construct.eq_2 env c args hraw, Option.map_eq_none_iff.mp hnone]

/-- The engine as the conversions of a call with these arguments see it. -/
abbrev servicesFor (env : Environment Ω) (args : List Wire) : Services Ω :=
  env.services (Wire.depthAll args)

/-- **Native code is gated.** A call by tag that is sent to an overload group dispatches once, in a call of its own; any
other runs no native code. The dispatch is refused, or sent to a typed entry of the kind that the tag stands for. There
it stops before the native code, with an outcome that does not depend on it, or it runs the native code once and goes on
with what that came to. Then there is a parameter for each argument, the arguments were converted to their parameters one
after another, and in the state that this has led to the receiver is live, of a class that is the method's or has it
among its ancestors, seen as the part at the end of the upcast path, and not const where the method may change it. The
same holds of the constructors that the conversions run, each in a call of its own. -/
theorem Built.gated (henv : env.Built) :
    (∀ tag receiver args, env.tagCall tag receiver args = none → env.Unsent tag receiver args) ∧
    (∀ tag receiver args group this passed, env.tagCall tag receiver args = some (group, this, passed) →
      env.call tag receiver args = env.callGroup group this passed >>= env.takeOver tag ∧
      ∃ target, env.registry.target tag = .ok target ∧ ∀ b,
        env.callGroup group this passed b = (env.dispatch env.services group).ensuring
          (fun inner => { inner.drop inner.call.refs with call := b.call }) (entering b this passed) ∧
        env.Gates env.services group (env.Suits · target) (entering b this passed)) ∧
    ∀ depth c d args b, (env.registry.class? c).filter (·.declared) = some d →
      (env.services (depth + 1)).construct c args b =
        ((do constructed d.name (← env.dispatch (fun _ => env.services depth) d.constructors)).inCall
          (.new args none b.call.sink) : Act Ω Pointer) b ∧
      env.Gates (fun _ => env.services depth) d.constructors (·.Serves c .constructor)
        { b with call := .new args none b.call.sink } := by
  refine ⟨fun tag receiver args => unsent, fun tag receiver args group this passed hcall => ?_, fun depth c d args b hd => ?_⟩
  · obtain ⟨target, htarget, hleads⟩ := leads_tagCall henv.settles hcall
    exact ⟨call_eq hcall, target, htarget, fun b => ⟨callGroup_at _ _ _ _ b, henv.gates rfl hleads⟩⟩
  · obtain ⟨hclass, -⟩ := Option.filter_eq_some_iff.mp hd
    obtain ⟨hmem, rfl⟩ := Registry.class?_mem hclass
    refine ⟨?_, henv.gates rfl (henv.settles.classes d hmem).constructors⟩
    change env.constructNested (fun _ => env.services depth) d.cls args b = _
    unfold constructNested
    rw [hd]
    rfl

open Catalog

/-- A setter of a point's first coordinate. -/
def setX : Entry Specimen :=
  .methodMut Species.point.cls [.int .int32] .unit fun (x, _) =>
    .updateReceiver fun p => Specimen.ofPoint { p.object.asPoint with x }

/-- Points with a setter, and sprites below them. -/
def declareSprites : Except RegistrationError (Registry (Upcast Specimen) (Code Specimen)) := do
  let r ← (Registry.empty 16 : Registry (Upcast Specimen) (Code Specimen)).declareClass Species.point.cls.info
  let (_, r) ← r.declareMember Species.point.cls ⟨"x", .setter⟩ .none setX.shape ⟨0⟩ (.typed setX)
  let r ← r.declareClass Species.sprite.cls.info
  r.declareSuper Species.sprite.cls Species.point.cls.info Specimen.spritePoint

theorem reachedTyped_declareSprites {r : Registry (Upcast Specimen) (Code Specimen)} (h : declareSprites = .ok r) :
    r.ReachedTyped := by
  unfold declareSprites at h
  obtain ⟨r₁, h₁, h⟩ := NativeBridge.bind_ok h
  obtain ⟨⟨ref, r₂⟩, h₂, h⟩ := NativeBridge.bind_ok h
  obtain ⟨r₃, h₃, h₄⟩ := NativeBridge.bind_ok h
  have hpoint : Relation.ReflTransGen Registry.DeclaresTyped (.empty 16) r₂ :=
    .tail (.tail .refl (.cls _ h₁)) (.member Species.point.cls ⟨"x", .setter⟩ .none setX _ ref rfl h₂)
  exact ⟨16, .tail (.tail hpoint (.cls _ h₃)) (.super _ _ _ h₄)⟩

/-- The engine of points and sprites, on a host that answers nothing. -/
def spriteEngine : Environment Specimen :=
  match declareSprites >>= (start · .new (bare Specimen).program) with
  | .ok env => env
  | .error _ => bare Specimen

/-- A sprite with its wrapper. -/
def oneSprite : Boundary Specimen :=
  { (Boundary.empty : Boundary Specimen) with
    heap := ⟨[⟨.sprite ⟨⟨1, 2⟩, "a"⟩, 1, 0, false⟩]⟩
    table := ⟨[⟨0, some ⟨Species.sprite.cls, 0, .owned, .none⟩⟩], [], [(⟨0, false⟩, ⟨0, 0⟩)]⟩ }

/-- The setters of that name. -/
def settersOfX : OverloadGroup :=
  ⟨"x", .cls Species.point.cls, [(1, ⟨0, 0⟩)], true⟩

theorem spriteEngine_built : spriteEngine.Built := by
  have hstarts : (declareSprites >>= fun r => (start r .new (bare Specimen).program).map fun _ => ()) = .ok () := by cbv
  exact starts_built (fun _ => reachedTyped_declareSprites) hstarts fun _ henv => by rw [spriteEngine, henv]

/-- The setter of points runs on the point of a sprite, whose wrapper is not const. -/
theorem spriteEngine_gated : spriteEngine.tagCall ⟨2⟩ (some ⟨0, 0⟩) [.int 7] =
      some (settersOfX, some ⟨0, 0⟩, [.int 7]) ∧
    ∃ s b₁ b₂ w, setX.begin (spriteEngine.servicesFor [.int 7]) (entering oneSprite (some ⟨0, 0⟩) [.int 7]) = .ok s b₂ ∧
      s.args = (7, ()) ∧ s.receiver.part.object.asPoint = ⟨1, 2⟩ ∧
      spriteEngine.Grants b₁ Species.point.cls true ⟨0, 0⟩ w s.receiver ∧
      ∀ f, spriteEngine.finish spriteEngine.services (.typed (setX.withClosure f))
          (entering oneSprite (some ⟨0, 0⟩) [.int 7]) = (do
        let ended ← setX.runClosure (spriteEngine.servicesFor [.int 7]) f s
        spriteEngine.concluding (setX.finish (spriteEngine.servicesFor [.int 7]) s ended) : Act Specimen Wire) b₂ := by
  have htag : spriteEngine.tagCall ⟨2⟩ (some ⟨0, 0⟩) [.int 7] = some (settersOfX, some ⟨0, 0⟩, [.int 7]) := by cbv
  have hselect : spriteEngine.select settersOfX (entering oneSprite (some ⟨0, 0⟩) [.int 7]) =
      .ok ⟨"x", TypeFlags.none.union .method, ⟨0⟩, .typed setX⟩ := by cbv
  have hseen : Act.observed (fun s _ => some (s.args, s.receiver.part.object.asPoint))
      (setX.begin (spriteEngine.servicesFor [.int 7]) (entering oneSprite (some ⟨0, 0⟩) [.int 7])) =
        some ((7, ()), ⟨1, 2⟩) := by cbv
  obtain ⟨s, b₂, hbegin, hseen⟩ := Act.observed_eq_some hseen
  obtain ⟨hargs, hpart⟩ := Prod.mk.inj (Option.some.inj hseen)
  obtain ⟨-, hsent, -⟩ := Built.gated spriteEngine_built
  obtain ⟨-, target, -, hgates⟩ := hsent _ _ _ _ _ _ htag
  cases (hgates oneSprite).2 with
  | refused hrefused =>
    rw [hselect] at hrefused
    cases hrefused
  | sent hselected hcode hsuits hdispatch hruns =>
    rw [hselect] at hselected
    cases hselected
    cases hcode
    cases hruns with
    | stopped hstopped =>
      have hboth := hstopped.symm.trans hbegin
      cases hboth
    | ran hran hpassed hcall =>
      have hboth := hran.symm.trans hbegin
      cases hboth
      obtain ⟨b₁, -, hsame, ⟨h, w, hgrants⟩, -⟩ := hpassed.gate
      obtain rfl : h = ⟨0, 0⟩ := by
        have hreceiver := hgrants.receiver
        rw [hsame.1] at hreceiver
        cases hreceiver
        rfl
      exact ⟨htag, s, b₁, b₂, w, hbegin, hargs, hpart, hgrants, hcall⟩

end Environment
end NativeBridge
