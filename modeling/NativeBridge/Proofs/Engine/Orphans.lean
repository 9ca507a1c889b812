import NativeBridge.Catalog.Behaviour
import NativeBridge.Catalog.Host
import NativeBridge.Proofs.Call.Moves
import NativeBridge.Proofs.Engine.Gated
import NativeBridge.Proofs.Engine.Points
import NativeBridge.Proofs.Object.References
/-!
# Wrappers that a failed operation leaves behind

Everything of an operation up to its result adds no live wrapper: neither the arguments, nor the body, nor a nested
constructor. What adds them is the conversion of the result. It may fail half-way, and a recorded error is looked at
only after it, so the operation can fail with wrappers made whose handles nobody was given.
-/
namespace NativeBridge
variable {Ω : Type} [ObjectModel Ω]

open Act ObjectTable

/-- Whether a value of the type may be or hold an object. -/
def NativeType.wraps : NativeType → Bool
  | .object _ => true
  | .handle _ _ => true
  | .vector t => t.wraps
  | .array t _ => t.wraps
  | .optional t => t.wraps
  | .result t => t.wraps
  | _ => false

namespace Convert
variable {R : ObjectTable → ObjectTable → Prop} [IsPreorder ObjectTable R]

theorem keeps_listToWire {α : Type} (refs : α → List Address) {convert : α → Act Ω Wire} :
    ∀ xs : List α, (∀ x ∈ xs, (convert x).Keeps R) → (listToWire refs convert xs).Keeps R
  | [], _ => .pure _
  | x :: xs, hconvert => .bind ((hconvert x List.mem_cons_self).orDrop _) fun _ =>
      .bind ((keeps_listToWire refs xs fun y hy => hconvert y (List.mem_cons_of_mem x hy)).orDrop _) fun _ => .pure _

/-- Plain values are converted without touching the table. -/
theorem keeps_toWireWith (sv : Services Ω) (fieldsOf : FieldsOf Ω) :
    ∀ (t : NativeType) (x : t.Value Ω), t.wraps = false → (toWireWith sv fieldsOf t x).Keeps R
  | .unit, _, _ | .bool, _, _ | .char, _, _ | .float _, _, _ | .text, _, _ | .staticText, _, _ | .any, _, _
  | .callback, _, _ | .pointer, _, _ => .pure _
  | .int k, x, _ => by
    unfold toWireWith
    split
    · exact .pure _
    · exact .fail _
  | .vector t, xs, h =>
    .bind (keeps_listToWire _ xs fun x _ => keeps_toWireWith sv fieldsOf t x h) fun _ => .pure _
  | .array t _, xs, h =>
    .bind (keeps_listToWire _ (Vector.toList xs) fun x _ => keeps_toWireWith sv fieldsOf t x h) fun _ => .pure _
  | .optional t, x, h => by
    cases x with
    | none => exact .pure _
    | some x => exact keeps_toWireWith sv fieldsOf t x h
  | .result t, x, h => by
    cases x with
    | error message => exact .fail _
    | ok x => exact keeps_toWireWith sv fieldsOf t x h

end Convert

namespace Entry

/-- Run the entry up to the conversion of its result. A constructor has nothing to be converted. -/
def produce (sv : Services Ω) : Entry Ω → Act Ω (Option (Typed Ω))
  | .function params ret body => do
    let xs ← arguments sv params fun _ => .ok ()
    return some ⟨ret, ← runFree sv ret.refs (NativeType.valuesRefs params xs) (body xs)⟩
  | .method c params ret body => do
    let xs ← arguments sv params fun b => Access.checkThis sv b c false
    return some ⟨ret, ← runReading sv ret.refs (NativeType.valuesRefs params xs) fun this => body this xs⟩
  | .methodMut c params ret body => do
    let xs ← arguments sv params fun b => Access.checkThis sv b c true
    return some ⟨ret, ← runWriting sv ret.refs (NativeType.valuesRefs params xs) (body xs)⟩
  | .constructor _ params body => do
    let xs ← arguments sv params fun _ => .ok ()
    let x ← runFree sv Instance.refs (NativeType.valuesRefs params xs) (body xs)
    Act.setResult (.pointer (← Act.newObject x))
    return none

/-- Convert what an entry has produced and leave it as the result of the call. -/
def deliver (sv : Services Ω) : Option (Typed Ω) → Act Ω Unit
  | some x => do Act.setResult (← Convert.toWire sv x.type x.value)
  | none => pure ()

theorem run_eq (sv : Services Ω) (e : Entry Ω) : e.run sv = e.produce sv >>= deliver sv := by
  cases e <;> simp only [run, produce, deliver, bind_assoc, pure_bind, bind_pure_unit]

theorem within_produce {sv : Services Ω} (hconstruct : ∀ c args, (sv.construct c args).Keeps Within) (e : Entry Ω) :
    (e.produce sv).Keeps Within := by
  cases e with
  | function params ret body =>
    exact .bind (keeps_arguments hconstruct _ _ fun _ _ _ => Access.within_takeUnique) fun _ =>
      .bind (keeps_runFree _ _ _) fun _ => .pure _
  | method c params ret body =>
    exact .bind (keeps_arguments hconstruct _ _ fun _ _ _ => Access.within_takeUnique) fun _ =>
      .bind (keeps_runReading _ _ _) fun _ => .pure _
  | methodMut c params ret body =>
    exact .bind (keeps_arguments hconstruct _ _ fun _ _ _ => Access.within_takeUnique) fun _ =>
      .bind (keeps_runWriting _ _ _) fun _ => .pure _
  | constructor c params body =>
    exact .bind (keeps_arguments hconstruct _ _ fun _ _ _ => Access.within_takeUnique) fun _ =>
      .bind (keeps_runFree _ _ _) fun _ => .bind (.newObject _) fun _ => .bind (.setResult _) fun _ => .pure _

theorem final_deliver (sv : Services Ω) (x : Typed Ω) (b : Boundary Ω) :
    ((deliver sv (some x)).final b).table = ((Convert.toWire sv x.type x.value).final b).table := by
  exact final_bind_table (fun _ => .setResult _) b

/-- An entry adds a live wrapper only by the conversion of its result. -/
theorem within_run_iff {sv : Services Ω} (hconstruct : ∀ c args, (sv.construct c args).Keeps Within) (e : Entry Ω)
    (b : Boundary Ω) :
    b.table.Within ((e.run sv).final b).table ↔ ∀ x b₁, e.produce sv b = .ok (some x) b₁ →
      b.table.Within ((Convert.toWire sv x.type x.value).final b₁).table := by
  have hproduce := within_produce hconstruct e b
  rw [run_eq]
  cases h : e.produce sv b with
  | error i b₁ =>
    rw [final_error h] at hproduce
    rw [final_bind_error h]
    exact ⟨fun _ x b₂ hx => (nomatch hx), fun _ => hproduce⟩
  | ok r b₁ =>
    rw [final_ok h] at hproduce
    rw [final_bind_ok h]
    cases r with
    | none => exact ⟨fun _ x b₂ hx => (nomatch hx), fun _ => hproduce⟩
    | some x =>
      rw [final_deliver]
      refine ⟨fun hwithin y b₂ hy => ?_, fun hall => hall x b₁ rfl⟩
      cases hy
      exact hwithin

end Entry

/-! ## Calls -/

namespace Environment

/-- Every entry is typed, and constructors are what classes have as constructors. -/
structure Typed (env : Environment Ω) : Prop where
  code : ∀ ref s e, env.registry.entry ref = .ok (s, e) → ∃ entry : Entry Ω, e.code = .typed entry
  constructs : env.Constructs fun _ => True

/-- An engine that was started on typed declarations is of that kind. -/
theorem Built.typed {env : Environment Ω} (henv : env.Built) : env.Typed where
  code ref s e he := by
    obtain ⟨entry, hcode, -⟩ := henv.settles.typed ref s e (Registry.entry_eq_ok.mp he)
    exact ⟨entry, hcode⟩
  constructs := henv.constructs

/-- The call of a group in progress has its result converted at nesting depth `n`: the value `x`, in state `b₁`. -/
def Delivers (env : Environment Ω) (group : OverloadGroup) (b : Boundary Ω) (n : Nat) (x : NativeBridge.Typed Ω)
    (b₁ : Boundary Ω) : Prop :=
  ∃ e entry, env.select group b = .ok e ∧ e.code = .typed entry ∧ n = Wire.depthAll b.call.args ∧
    entry.produce (env.services n) b = .ok (some x) b₁

variable {env : Environment Ω}

theorem within_callGroup_iff (henv : env.Typed) (group : OverloadGroup) (receiver : Option Handle) (args : List Wire)
    (b : Boundary Ω) :
    b.table.Within ((env.callGroup group receiver args).final b).table ↔
      ∀ n x b₁, env.Delivers group (entering b receiver args) n x b₁ →
        b.table.Within ((Convert.toWire (env.services n) x.type x.value).final b₁).table := by
  have hconstruct := keeps_construct (henv.constructs.mono fun _ _ _ => Access.within_takeUnique)
  rw [final_callGroup, final, dispatch_eq]
  cases hselect : env.select group (entering b receiver args) with
  | error e =>
    refine ⟨fun _ n x b₁ h => ?_, fun _ _ => id⟩
    obtain ⟨e', entry, he, -⟩ := h
    rw [hselect] at he
    cases he
  | ok e =>
    obtain ⟨m, ref, s, -, he⟩ := select_entry hselect
    obtain ⟨entry, hcode⟩ := henv.code ref s e he
    change b.table.Within ((env.finish env.services e.code).final (entering b receiver args)).table ↔ _
    rw [final_finish, hcode, final_runCode]
    refine (Entry.within_run_iff (hconstruct _) entry (entering b receiver args)).trans ⟨fun h n x b₁ hx => ?_, fun h x b₁ hx => ?_⟩
    · obtain ⟨e', entry', he', hcode', rfl, hx⟩ := hx
      rw [hselect] at he'
      cases he'
      rw [hcode] at hcode'
      cases hcode'
      exact h x b₁ hx
    · exact h _ x b₁ ⟨e, entry, hselect, hcode, rfl, hx⟩

/-! ## Operations -/

/-- The table after a call, if there is one. -/
def tableAfter (env : Environment Ω) (b : Boundary Ω) : Option GroupCall → ObjectTable
  | none => b.table
  | some (group, receiver, args) => ((env.callGroup group receiver args).final b).table

theorem failsClean_rewrap (c : Class) (p : Pointer) (flags : Wire) : (env.rewrap c p flags).FailsClean := by
  refine .bind (.orDrop (.thenDrop ?_ _) _) fun _ b i b' h => nomatch h
  refine Keeps.refusing ?_
  cases flags.asInt? with
  | none => exact .fail _
  | some bits => exact .bind .get fun _ => .pure _

theorem failsClean_release (h : Handle) : (release h : Act Ω Unit).FailsClean := by
  refine .bind .get fun b => .bind (.ofExcept _) fun s b i b' h => ?_
  cases h

theorem failsClean_releaseAs (c : Class) (receiver : Option Handle) : (env.releaseAs c receiver).FailsClean := by
  cases receiver with
  | none => exact Keeps.failsClean (.fail _)
  | some h =>
    have hrest : (do release h; return .undefined : Act Ω Wire).FailsClean := by
      intro b i b' herr
      rcases Act.bind_eq_error herr with herr | ⟨_, b₁, -, herr⟩
      · exact failsClean_release h b i b' herr
      · cases herr
    refine .bind .get fun b => .bind (.ofExcept _) fun w => ?_
    dsimp only
    split
    · exact .bind (.fail _) fun _ => hrest
    · exact hrest

theorem failsClean_constructed (name : String) (w : Wire) :
    (do return .object (← Act.wrap (← constructed name w) true .none) : Act Ω Wire).FailsClean :=
  .bind (keeps_constructed name w) fun _ _ _ _ h => nomatch h

theorem table_of_construct {c : Class} {args : List Wire} {b b' : Boundary Ω} {i : Interrupt}
    (h : env.construct c args b = .error i b') : b'.table = env.tableAfter b (env.constructorCall c args) := by
  unfold construct at h
  split at h
  · exact failsClean_rewrap _ _ _ b i b' h
  rename_i hargs
  unfold constructorCall
  split
  · exact absurd rfl (hargs _ _)
  cases hd : (env.registry.exposedClass? c).bind fun _ => env.registry.class? c with
  | none =>
    rw [hd] at h
    exact Keeps.failsClean (.orDrop (.fail _) _) b i b' h
  | some d =>
    rw [hd] at h
    rw [Option.map_some, tableAfter]
    rcases Act.bind_eq_error h with h | ⟨w, b₁, hw, h⟩
    · rw [final_error h]
    · rw [final_ok hw]
      exact failsClean_constructed d.name w b₁ i b' h

theorem table_of_call {tag : CallTag} {receiver : Option Handle} {args : List Wire} {b b' : Boundary Ω} {i : Interrupt}
    (h : env.call tag receiver args b = .error i b') : b'.table = env.tableAfter b (env.tagCall tag receiver args) := by
  unfold call at h
  cases htarget : env.registry.target tag with
  | error e =>
    rw [htarget] at h
    rw [tagCall, htarget]
    exact Keeps.failsClean (.orDrop (.fail e) _) b i b' h
  | ok target =>
    rw [tagCall, htarget]
    rw [htarget] at h
    cases target with
    | constructor c => exact table_of_construct h
    | release c =>
      exact (failsClean_releaseAs c receiver).thenDrop _ b i b' h
    | member c n | function n =>
      dsimp only at h ⊢
      cases hgroup : env.registry.group? _ with
      | none =>
        rw [hgroup] at h
        exact Keeps.failsClean (.orDrop (.fail _) _) b i b' h
      | some g =>
        rw [hgroup] at h
        change env.callGroup g receiver args b = _ at h
        rw [Option.map_some, tableAfter, final_error h]

theorem table_of_callMember {h : Handle} {name : String} {kinds : List MemberKind} {args : List Wire}
    {b b' : Boundary Ω} {i : Interrupt} (herr : env.callMember h name kinds args b = .error i b') :
    b'.table = env.tableAfter b (env.memberCall b h name kinds args) := by
  unfold callMember at herr
  unfold memberCall
  cases hm : env.memberTag b h name kinds with
  | error e =>
    have hfind : (do Act.ofExcept (env.memberTag (← get) h name kinds) : Act Ω _) b = .error (.error e) b := by
      rw [get_bind, hm]
      rfl
    rw [Act.bind_error (orDrop_error hfind)] at herr
    cases herr
    rfl
  | ok m =>
    have hfind : (do Act.ofExcept (env.memberTag (← get) h name kinds) : Act Ω _) b = .ok m b := by
      rw [get_bind, hm]
      rfl
    rw [Act.bind_ok (orDrop_ok hfind)] at herr
    exact table_of_call herr

theorem table_of_callFunction {name : String} {args : List Wire} {b b' : Boundary Ω} {i : Interrupt}
    (h : env.callFunction name args b = .error i b') :
    b'.table = env.tableAfter b ((env.registry.functionTag? name).bind (env.tagCall · none args)) := by
  unfold callFunction at h
  cases htag : env.registry.functionTag? name with
  | none =>
    rw [htag] at h
    exact Keeps.failsClean (.orDrop (.fail _) _) b i b' h
  | some tag =>
    rw [htag] at h
    exact table_of_call h

theorem table_of_constructNamed {name : String} {args : List Wire} {b b' : Boundary Ω} {i : Interrupt}
    (h : env.constructNamed name args b = .error i b') :
    b'.table = env.tableAfter b
      ((env.registry.exposedNamed? name).bind fun c => env.constructorCall c.cls args) := by
  unfold constructNamed at h
  cases hc : env.registry.exposedNamed? name with
  | none =>
    rw [hc] at h
    exact Keeps.failsClean (.orDrop (.fail _) _) b i b' h
  | some c =>
    rw [hc] at h
    exact table_of_construct h

theorem within_tableAfter_iff (henv : env.Typed) (b : Boundary Ω) (call : Option GroupCall) :
    b.table.Within (env.tableAfter b call) ↔ ∀ n x b₁,
      (∃ group receiver args, call = some (group, receiver, args) ∧
        env.Delivers group (entering b receiver args) n x b₁) →
      b.table.Within ((Convert.toWire (env.services n) x.type x.value).final b₁).table := by
  cases call with
  | none =>
    refine ⟨fun _ n x b₁ h => ?_, fun _ _ => id⟩
    obtain ⟨group, receiver, args, hcall, -⟩ := h
    cases hcall
  | some c =>
    obtain ⟨group, receiver, args⟩ := c
    refine (within_callGroup_iff henv group receiver args b).trans ⟨fun h n x b₁ hx => ?_, fun h n x b₁ hx => ?_⟩
    · obtain ⟨_, _, _, hcall, hx⟩ := hx
      cases hcall
      exact h n x b₁ hx
    · exact h n x b₁ ⟨group, receiver, args, rfl, hx⟩

end Environment

/-- The operations that take values over from the host or hand them out. -/
inductive Operation (Ω : Type) [ObjectModel Ω] where
  | call (tag : CallTag) (receiver : Option Handle) (args : List Wire)
  | callFunction (name : String) (args : List Wire)
  | callMethod (h : Handle) (name : String) (args : List Wire)
  | construct (c : Class) (args : List Wire)
  | constructNamed (name : String) (args : List Wire)
  | getProperty (h : Handle) (name : String)
  | setProperty (h : Handle) (name : String) (value : Wire)
  | toWire (x : Typed Ω)
  | fromWire (t : NativeType) (w : Wire)

namespace Operation

open Environment

def run (env : Environment Ω) : Operation Ω → Act Ω Unit
  | .call tag receiver args => do let _ ← env.call tag receiver args
  | .callFunction name args => do let _ ← env.callFunction name args
  | .callMethod h name args => do let _ ← env.callMethod h name args
  | .construct c args => do let _ ← env.construct c args
  | .constructNamed name args => do let _ ← env.constructNamed name args
  | .getProperty h name => do let _ ← env.getProperty h name
  | .setProperty h name value => env.setProperty h name value
  | .toWire x => do let _ ← env.toWire x.type x.value
  | .fromWire t w => do let _ ← env.fromWire t w

/-- The call that an operation comes to. The two conversions come to none. -/
def groupCall (env : Environment Ω) (b : Boundary Ω) : Operation Ω → Option GroupCall
  | .call tag receiver args => env.tagCall tag receiver args
  | .callFunction name args => (env.registry.functionTag? name).bind (env.tagCall · none args)
  | .callMethod h name args => env.memberCall b h name [.method, .staticMethod] args
  | .construct c args => env.constructorCall c args
  | .constructNamed name args => (env.registry.exposedNamed? name).bind fun c => env.constructorCall c.cls args
  | .getProperty h name => env.memberCall b h name [.getter] []
  | .setProperty h name value => env.memberCall b h name [.setter] [value]
  | .toWire _ => none
  | .fromWire _ _ => none

/-- The operation comes to convert the value `x` for the host, in state `b₁` and at nesting depth `n`. -/
def Converts (env : Environment Ω) (op : Operation Ω) (b : Boundary Ω) (n : Nat) (x : Typed Ω) (b₁ : Boundary Ω) :
    Prop :=
  match op with
  | .toWire y => n = 0 ∧ x = y ∧ b₁ = entering b none []
  | op => ∃ group receiver args, op.groupCall env b = some (group, receiver, args) ∧
      env.Delivers group (entering b receiver args) n x b₁

variable {env : Environment Ω}

theorem within_of_converts (henv : env.Typed) {op : Operation Ω} {b : Boundary Ω} {n : Nat} {x : Typed Ω}
    {b₁ : Boundary Ω} (h : op.Converts env b n x b₁) : b.table.Within b₁.table := by
  have hdelivers : (∃ group receiver args, op.groupCall env b = some (group, receiver, args) ∧
      env.Delivers group (entering b receiver args) n x b₁) → b.table.Within b₁.table := by
    rintro ⟨group, receiver, args, -, e, entry, -, -, -, hproduce⟩
    have hconstruct := keeps_construct (henv.constructs.mono fun _ _ _ => Access.within_takeUnique)
    have hwithin := Entry.within_produce (hconstruct n) entry (entering b receiver args)
    rwa [final_ok hproduce] at hwithin
  cases op with
  | toWire y =>
    obtain ⟨-, -, rfl⟩ := h
    exact fun _ => id
  | _ => exact hdelivers h

theorem within_iff (henv : env.Typed) (op : Operation Ω) {b b' : Boundary Ω} {i : Interrupt}
    (hrun : op.run env b = .error i b') :
    b.table.Within b'.table ↔ ∀ n x b₁, op.Converts env b n x b₁ →
      b.table.Within ((Convert.toWire (env.services n) x.type x.value).final b₁).table := by
  cases op with
  | call tag receiver args =>
    rw [table_of_call (of_discarded hrun)]
    exact within_tableAfter_iff henv b _
  | callFunction name args =>
    rw [table_of_callFunction (of_discarded hrun)]
    exact within_tableAfter_iff henv b _
  | callMethod h name args =>
    rw [table_of_callMember (of_discarded hrun)]
    exact within_tableAfter_iff henv b _
  | construct c args =>
    rw [table_of_construct (of_discarded hrun)]
    exact within_tableAfter_iff henv b _
  | constructNamed name args =>
    rw [table_of_constructNamed (of_discarded hrun)]
    exact within_tableAfter_iff henv b _
  | getProperty h name =>
    rw [table_of_callMember (of_discarded hrun)]
    exact within_tableAfter_iff henv b _
  | setProperty h name value =>
    rcases Act.bind_eq_error hrun with hrun | ⟨w, b₁, -, hrun⟩
    · rw [table_of_callMember hrun]
      exact within_tableAfter_iff henv b _
    · cases hrun
  | toWire x =>
    have herr : aside [] (Convert.toWire (env.services 0) x.type x.value) b = .error i b' := of_discarded hrun
    have hfinal := final_aside [] (Convert.toWire (env.services 0) x.type x.value) b
    rw [final_error herr] at hfinal
    rw [hfinal]
    refine ⟨fun h n y b₁ hy => ?_, fun h => h 0 x _ ⟨rfl, rfl, rfl⟩⟩
    obtain ⟨rfl, rfl, rfl⟩ := hy
    exact h
  | fromWire t w =>
    have hconstruct := keeps_construct (henv.constructs.mono fun _ _ _ => Access.within_takeUnique)
    have herr : aside [w] (Entry.arg (env.services w.depth) t 0) b = .error i b' := of_discarded hrun
    have hfinal := final_aside [w] (Entry.arg (env.services w.depth) t 0) b
    rw [final_error herr] at hfinal
    have hkeeps := Entry.keeps_arg (hconstruct w.depth) (fun _ => Access.within_takeUnique) 0 (entering b none [w])
      (t := t)
    rw [hfinal]
    refine ⟨fun _ n x b₁ hx => ?_, fun _ => hkeeps⟩
    obtain ⟨_, _, _, hcall, -⟩ := hx
    cases hcall

/-- **Which failed operations leave orphans.** A failed operation leaves every live wrapper one that was live before
exactly if the conversion of its result does, where it came to that. Converting plain values does. -/
theorem failed_within_iff (henv : env.Typed) (op : Operation Ω) {b b' : Boundary Ω} {i : Interrupt}
    (hrun : op.run env b = .error i b') :
    (b.table.Within b'.table ↔ ∀ n x b₁, op.Converts env b n x b₁ →
      b.table.Within ((Convert.toWire (env.services n) x.type x.value).final b₁).table) ∧
    ((∀ n x b₁, op.Converts env b n x b₁ → x.type.wraps = false) → b.table.Within b'.table) := by
  have hiff := within_iff henv op hrun
  refine ⟨hiff, fun hplain => hiff.mpr fun n x b₁ hx => ?_⟩
  have hbefore := within_of_converts henv hx
  have hafter : b₁.table.Within ((Convert.toWire (env.services n) x.type x.value).final b₁).table :=
    Convert.keeps_toWireWith _ _ x.type x.value (hplain n x b₁ hx) b₁
  exact fun h hlive => hbefore h (hafter h hlive)

end Operation

/-! ## A result that is converted half-way -/

open Catalog

namespace Environment

/-- A node by its name. -/
def nodeOfName : Entry Specimen :=
  .constructor Species.node.cls [.text] fun (name, _) => .done (Specimen.ofNode name)

/-- Two results of which the second is an error. -/
def halves : Entry Specimen :=
  .function [] (.vector (.result (.handle .shared Species.node.cls))) fun _ => do
    let a ← Body.alloc (.node "a")
    return [.ok a, .error "no node"]

/-- Points that travel by value, nodes, and a function that gives one. -/
def declareNodes : Except RegistrationError (Registry (Upcast Specimen) (Code Specimen)) := do
  let r ← (Registry.empty 16 : Registry (Upcast Specimen) (Code Specimen)).declareClass Species.point.cls.info
  let r ← r.declareValueType Species.point.cls
  let (_, r) ← r.declareConstructor Species.point.cls .none pointOfXY.shape ⟨0⟩ (.typed pointOfXY)
  let r ← r.declareClass Species.node.cls.info
  let (_, r) ← r.declareConstructor Species.node.cls .none nodeOfName.shape ⟨0⟩ (.typed nodeOfName)
  let (_, r) ← r.declareFunction "halves" .none halves.shape ⟨1⟩ (.typed halves)
  return r

theorem reachedTyped_declareNodes {r : Registry (Upcast Specimen) (Code Specimen)} (h : declareNodes = .ok r) :
    r.ReachedTyped := by
  unfold declareNodes at h
  obtain ⟨r₁, h₁, h⟩ := NativeBridge.bind_ok h
  obtain ⟨r₂, h₂, h⟩ := NativeBridge.bind_ok h
  obtain ⟨⟨ref₃, r₃⟩, h₃, h⟩ := NativeBridge.bind_ok h
  obtain ⟨r₄, h₄, h⟩ := NativeBridge.bind_ok h
  obtain ⟨⟨ref₅, r₅⟩, h₅, h⟩ := NativeBridge.bind_ok h
  obtain ⟨⟨ref₆, r₆⟩, h₆, h⟩ := NativeBridge.bind_ok h
  cases h
  have hpoint : Relation.ReflTransGen Registry.DeclaresTyped (.empty 16) r₃ := Registry.declares_value h₁ h₂ h₃ rfl
  have hnode : Relation.ReflTransGen Registry.DeclaresTyped r₃ r₅ :=
    .tail (.tail .refl (.cls _ h₄)) (.constructor _ .none nodeOfName _ ref₅ rfl h₅)
  exact ⟨16, .tail (hpoint.trans hnode) (.function "halves" .none halves _ ref₆ trivial h₆)⟩

/-- The engine of points and nodes. -/
def nodeEngine : Environment Specimen :=
  match declareNodes >>= (start · .new ⟨exporter, host⟩) with
  | .ok env => env
  | .error _ => bare Specimen

theorem nodeEngine_built : nodeEngine.Built := by
  have hstarts : (declareNodes >>= fun r => (start r .new ⟨exporter, host⟩).map fun _ => ()) = .ok () := by cbv
  exact starts_built (fun _ => reachedTyped_declareNodes) hstarts fun _ henv => by rw [nodeEngine, henv]

theorem nodeEngine_program : nodeEngine.program = ⟨exporter, host⟩ := by cbv

theorem nodeEngine_bindings : nodeEngine.bindings = [(Species.point.cls, .record)] := by cbv

/-- The functions of that name. -/
def halvesGroup : OverloadGroup :=
  ⟨"halves", .global, [(0, ⟨2, 0⟩)], true⟩

end Environment

open Environment

/-- The first result is wrapped before the second turns out to be an error: the wrapper stays, and the host is not given
its handle. -/
theorem Operation.halves_orphan : ∃ b', (Operation.callFunction "halves" []).run nodeEngine .empty =
    .error (.error (.native "no node")) b' ∧ ¬ (Boundary.empty : Boundary Specimen).table.Within b'.table := by
  have hfails : errorOf ((Operation.callFunction "halves" []).run nodeEngine .empty) =
      some (.error (.native "no node")) := by cbv
  have hcall : Operation.groupCall nodeEngine .empty (.callFunction "halves" []) = some (halvesGroup, none, []) := by cbv
  have hselect : nodeEngine.select halvesGroup (entering .empty none []) =
      .ok ⟨"halves", TypeFlags.none.union .static, ⟨1⟩, .typed halves⟩ := by cbv
  have hwrapped : observed (fun r b => r.map fun x =>
      ((Convert.toWire (nodeEngine.services 0) x.type x.value).final b).table.contains ⟨0, 0⟩)
        (halves.produce (nodeEngine.services 0) (entering .empty none [])) = some true := by cbv
  obtain ⟨b', hrun⟩ := errorOf_eq_some hfails
  obtain ⟨r, b₁, hproduce, hcontains⟩ := observed_eq_some hwrapped
  obtain ⟨x, rfl, hx⟩ := Option.map_eq_some_iff.mp hcontains
  refine ⟨b', hrun, fun hwithin => ?_⟩
  have hconverted := (failed_within_iff nodeEngine_built.typed _ hrun).1.mp hwithin 0 x b₁
    ⟨halvesGroup, none, [], hcall, _, halves, hselect, rfl, rfl, hproduce⟩
  have hlive : (Boundary.empty : Boundary Specimen).table.contains ⟨0, 0⟩ = true := hconverted ⟨0, 0⟩ hx
  cases hlive

end NativeBridge
