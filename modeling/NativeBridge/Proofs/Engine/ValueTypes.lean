import NativeBridge.Catalog.Behaviour
import NativeBridge.Catalog.Host
import NativeBridge.Proofs.Call.Sinks
import NativeBridge.Proofs.Engine.Leaks
import NativeBridge.Proofs.Engine.Rebuilding
/-!
# Value types

A value type travels as the components that it exports, from which the host's record is made and, on the way back, the
constructor of that many arguments makes the object again. If the constructor rebuilds what was exported and the
components come back, so does the object, however deeply such objects nest (`Environment.Built.values_roundTrip`).
Components that can be read once only are no exception: while one component is read, the cells that were made for the
others are left alone.
-/
namespace NativeBridge
variable {Ω : Type} [ObjectModel Ω]

open Act

omit [ObjectModel Ω] in
theorem NativeType.IsData.wraps {t : NativeType} (ht : t.IsData) : t.wraps = false := by
  induction ht with
  | vector _ ih | array _ _ ih | optional _ _ ih => exact ih
  | _ => rfl

namespace Environment
variable {env : Environment Ω}

/-! ## To the host -/

section
variable {sv : Services Ω} {fieldsOf : Convert.FieldsOf Ω} {c : Class} {x : Instance Ω c} {b b' : Boundary Ω}

theorem runExport_ok {xs : List (NativeBridge.Typed Ω)} {ws : List Wire}
    {answer : Except CallError Unit → Except CallError Unit}
    (h : Convert.runExport sv fieldsOf c (.emit xs fun r => .done (answer r)) none b = .ok ws b') :
    Convert.typedToWire sv fieldsOf xs (b.retain (xs.flatMap fun x => x.type.refs x.value)) = .ok ws b' := by
  unfold Convert.runExport at h
  obtain ⟨made, b₁, hmade, h⟩ := Act.bind_eq_ok h
  cases made with
  | error e =>
    dsimp only at h
    cases hanswer : answer (.error e) <;> rw [hanswer] at h <;> cases h
  | ok fields =>
    dsimp only at h
    cases hanswer : answer (.ok ()) with
    | error e =>
      rw [hanswer] at h
      cases h
    | ok _ =>
      rw [hanswer] at h
      cases h
      exact attempt_eq_ok hmade

theorem objectToWire_ok {exporter : Exporter Ω} {w : Wire} (hexporter : sv.exporter c = some exporter)
    (hbinding : sv.binding c = some .record) (h : Convert.objectToWire sv fieldsOf x b = .ok w b') :
    ∃ ws b₁, fieldsOf exporter x.object b = .ok ws b₁ ∧ w = .record c.name ws ∧
      b' = ((b₁.retain (Wire.refsAll ws)).drop (Wire.refsAll ws)).drop x.refs := by
  unfold Convert.objectToWire at h
  rw [hexporter, hbinding] at h
  dsimp only at h
  obtain ⟨b₂, hsent, rfl⟩ := ensuring_eq_ok h
  obtain ⟨ws, b₁, hfields, hbuilt⟩ := Act.bind_eq_ok hsent
  obtain ⟨b₃, hmade, rfl⟩ := ensuring_eq_ok hbuilt
  cases hmade
  exact ⟨ws, b₁, hfields, rfl, rfl⟩

end

/-- A value of the type is never sent as no value. -/
def NeverNull (env : Environment Ω) (t : NativeType) (x : t.Value Ω) : Prop :=
  ∀ n fieldsOf b w b', Convert.toWireWith (env.services n) fieldsOf t x b = .ok w b' → w.isNullish = false

/-- The value comes back if those in `S` do that it is sent by: the items of a list, what an option or a result has, or
the components of an object of a value type that travels as a record or is wrapped. -/
def Splits (env : Environment Ω) (old : Address) (S : (t : NativeType) → t.Value Ω → Prop) :
    (t : NativeType) → t.Value Ω → Prop
  | .vector t, xs => ∀ x ∈ (xs : List (t.Value Ω)), S t x
  | .array t _, xs => ∀ x ∈ Vector.toList xs, S t x
  | .optional t, x => ∀ y : t.Value Ω, x = some y → S t y ∧ env.NeverNull t y
  | .result t, x => ∀ y : t.Value Ω, x = .ok y → S t y
  | .object c, x => (env.bindings.lookup c = none ∨ env.bindings.lookup c = some .record) ∧
      ∃ xs, env.Rebuilds old c x xs ∧ ∀ y ∈ xs, S y.type y.value
  | _, _ => False

/-- What passes from the parts of a value to the value. -/
structure PassesOn (env : Environment Ω) (old : Address) (n : Nat) (S : (t : NativeType) → t.Value Ω → Prop)
    (P : Convert.FieldsOf Ω → (t : NativeType) → t.Value Ω → Prop) : Prop where
  vector : ∀ fieldsOf t (xs : List (t.Value Ω)), (∀ x ∈ xs, P fieldsOf t x) → P fieldsOf (.vector t) xs
  array : ∀ fieldsOf t size (xs : Vector (t.Value Ω) size), (∀ x ∈ xs.toList, P fieldsOf t x) →
    P fieldsOf (.array t size) xs
  missing : ∀ fieldsOf t, P fieldsOf (.optional t) none
  present : ∀ fieldsOf t (x : t.Value Ω), env.NeverNull t x → P fieldsOf t x → P fieldsOf (.optional t) (some x)
  failed : ∀ fieldsOf t message, P fieldsOf (.result t) (.error message)
  done : ∀ fieldsOf t (x : t.Value Ω), P fieldsOf t x → P fieldsOf (.result t) (.ok x)
  object : ∀ fieldsOf c x xs depth, S (.object c) x →
    (env.bindings.lookup c = none ∨ env.bindings.lookup c = some .record) → env.Rebuilds old c x xs →
    (∀ y ∈ xs, S y.type y.value) →
    fieldsOf (env.program.exporter c) x.object =
      Convert.fieldsAt (env.services n) depth (env.program.exporter c) x.object →
    (∀ m, depth = m + 1 → ∀ y ∈ xs, P (Convert.fieldsAt (env.services n) m) y.type y.value) →
    P fieldsOf (.object c) x

namespace PassesOn
variable {old : Address} {S : (t : NativeType) → t.Value Ω → Prop} {n : Nat}
  {P : Convert.FieldsOf Ω → (t : NativeType) → t.Value Ω → Prop} (hP : env.PassesOn old n S P)
  (hS : ∀ t v, S t v → (∀ fieldsOf, Convert.Nests (env.services n) fieldsOf → P fieldsOf t v) ∨ env.Splits old S t v)
include hP hS

/-- It holds of all values of a set that splits into values of the set, if it holds of the objects among them. -/
theorem of_objects {fieldsOf : Convert.FieldsOf Ω} (hnests : Convert.Nests (env.services n) fieldsOf)
    (hobjects : ∀ c x, S (.object c) x → env.Splits old S (.object c) x → P fieldsOf (.object c) x) :
    ∀ (t : NativeType) (v : t.Value Ω), S t v → P fieldsOf t v := by
  intro t
  induction t with
  | vector t ih =>
    intro xs hxs
    rcases hS _ xs hxs with h | h
    · exact h fieldsOf hnests
    · exact hP.vector fieldsOf t xs fun x hx => ih x (h x hx)
  | array t size ih =>
    intro xs hxs
    rcases hS _ xs hxs with h | h
    · exact h fieldsOf hnests
    · exact hP.array fieldsOf t size xs fun x hx => ih x (h x hx)
  | optional t ih =>
    intro x hx
    rcases hS _ x hx with h | h
    · exact h fieldsOf hnests
    · cases x with
      | none => exact hP.missing fieldsOf t
      | some y => exact hP.present fieldsOf t y (h y rfl).2 (ih y (h y rfl).1)
  | result t ih =>
    intro x hx
    rcases hS _ x hx with h | h
    · exact h fieldsOf hnests
    · cases x with
      | error message => exact hP.failed fieldsOf t message
      | ok y => exact hP.done fieldsOf t y (ih y (h y rfl))
  | object c =>
    intro x hx
    rcases hS _ x hx with h | h
    · exact h fieldsOf hnests
    · exact hobjects c x hx h
  | _ => exact fun v hv => ((hS _ v hv).resolve_right id) fieldsOf hnests

theorem of_depth (depth : Nat) : ∀ (fieldsOf : Convert.FieldsOf Ω) (c : Class) (x : Instance Ω c),
    fieldsOf (env.program.exporter c) x.object =
      Convert.fieldsAt (env.services n) depth (env.program.exporter c) x.object →
    S (.object c) x → env.Splits old S (.object c) x → P fieldsOf (.object c) x := by
  -- The induction is on how deeply exports nest; `fieldsOf` need agree with the bounded one on this object only.
  induction depth with
  | zero =>
    rintro fieldsOf c x hdepth hmem ⟨hbinding, xs, hx, hxs⟩
    exact hP.object fieldsOf c x xs 0 hmem hbinding hx hxs hdepth fun m hm => nomatch hm
  | succ depth ih =>
    rintro fieldsOf c x hdepth hmem ⟨hbinding, xs, hx, hxs⟩
    refine hP.object fieldsOf c x xs (depth + 1) hmem hbinding hx hxs hdepth fun m hm y hy => ?_
    cases hm
    refine of_objects hP hS (Convert.nests_fieldsAt _ depth) (fun c z hz hsplit => ?_) y.type y.value (hxs y hy)
    exact ih _ c z rfl hz hsplit

theorem all {fieldsOf : Convert.FieldsOf Ω} (hnests : Convert.Nests (env.services n) fieldsOf) {t : NativeType}
    {v : t.Value Ω} (hv : S t v) : P fieldsOf t v := by
  refine of_objects hP hS hnests (fun c x hx hsplit => ?_) t v hv
  obtain ⟨depth, hdepth⟩ := hnests (env.program.exporter c) x.object
  exact of_depth hP hS depth fieldsOf c x hdepth hx hsplit

end PassesOn

theorem Rebuilds.exporter {old : Address} {c : Class} {x : Instance Ω c} {xs : List (NativeBridge.Typed Ω)}
    (hx : env.Rebuilds old c x xs) (n : Nat) : (env.services n).exporter c = some (env.program.exporter c) := by
  obtain ⟨d, hd, -, hvalue⟩ := hx.declared
  rw [services_exporter, hd]
  exact if_pos hvalue

/-- Neither a record nor a wrapper is no value. -/
theorem Splits.neverNull {old : Address} {S : (t : NativeType) → t.Value Ω → Prop} {c : Class} {x : Instance Ω c}
    (h : env.Splits old S (.object c) x) : env.NeverNull (.object c) x := by
  obtain ⟨hbinding, xs, hx, -⟩ := h
  intro n fieldsOf b w b' hw
  change Convert.objectToWire (env.services n) fieldsOf x b = .ok w b' at hw
  rcases hbinding with hunbound | hbound
  · unfold Convert.objectToWire at hw
    rw [hx.exporter, services_binding, hunbound] at hw
    dsimp only at hw
    split at hw <;> cases hw
    rfl
  · obtain ⟨ws, b₁, -, rfl, -⟩ := objectToWire_ok (hx.exporter n) ((env.services_binding n c).trans hbound) hw
    rfl

/-- **An object comes back if the components do that it exports.** -/
theorem Built.returns_object (henv : env.Built) {s : Holdings Ω} {once : Prop} {n depth : Nat}
    {fieldsOf : Convert.FieldsOf Ω} {c : Class} {x : Instance Ω c} {xs : List (NativeBridge.Typed Ω)}
    (hx : env.Rebuilds s.heap.cells.length c x xs) (hrefs : ∀ a ∈ x.refs, a < s.heap.cells.length)
    (hrefs' : ∀ y ∈ xs, ∀ a ∈ y.type.refs y.value, a < s.heap.cells.length)
    (hbinding : env.bindings.lookup c = none ∨ env.bindings.lookup c = some .record)
    (hdepth : fieldsOf (env.program.exporter c) x.object =
      Convert.fieldsAt (env.services n) depth (env.program.exporter c) x.object)
    (hxs : ∀ m, depth = m + 1 → ∀ y ∈ xs,
      Convert.Returns env.services once s n (Convert.fieldsAt (env.services n) m) y.type y.value) :
    Convert.Returns env.services once s n fieldsOf (.object c) x := by
  intro b w b' hb hready hclosed h
  change Convert.objectToWire (env.services n) fieldsOf x b = .ok w b' at h
  rcases hbinding with hunbound | hbound
  · unfold Convert.objectToWire at h
    rw [hx.exporter, services_binding, hunbound] at h
    dsimp only at h
    split at h
    · exact Convert.returns_wrapped hb hready hclosed hrefs h
    · cases h
  · obtain ⟨ws, b₁, hfields, rfl, rfl⟩ :=
      objectToWire_ok (hx.exporter n) ((env.services_binding n c).trans hbound) h
    obtain ⟨answer, hscript⟩ := hx.exported
    rw [hdepth] at hfields
    cases depth with
    | zero => cases hfields
    | succ m =>
      unfold Convert.fieldsAt at hfields
      rw [hscript] at hfields
      have hsent := runExport_ok hfields
      let b₀ : Boundary Ω := b.retain (xs.flatMap fun x => x.type.refs x.value)
      have h₀ : b.toHoldings.Sends s.heap.cells.length b₀.toHoldings := Holdings.sends_retain fun a ha => by
        obtain ⟨y, hy, ha⟩ := List.mem_flatMap.mp ha
        exact hrefs' y hy a ha
      obtain ⟨h₁, ps, rfl, hps⟩ := Convert.listToWire_ok
        (P := fun s' => Entry.StandsFor env.services s.heap.cells.length once s') (fun _ _ _ _ hs hp => hp.later hs)
        (fun y hy b w b' hb hready hclosed hw => hxs m rfl y hy b w b' hb hready hclosed hw)
        (hb.trans h₀) (h₀.ready hready) (h₀.closed hclosed) hsent
      have hold := (Entry.refs_values hps.each).1
      have h₂ := (Holdings.sends_retain (s := b₁.toHoldings) hold).trans
        ((Holdings.sends_drop hold).trans (Holdings.sends_drop hrefs))
      refine ⟨(h₀.trans h₁).trans h₂, standing_record henv hx hrefs ?_ hbound hb.length_le⟩
      exact (hps.widen h₀.length_le h₂.length_le).imp fun p y hp => hp.later h₂

theorem Built.passesOn_returns (henv : env.Built) {S : (t : NativeType) → t.Value Ω → Prop} {s : Holdings Ω}
    (hrefs : ∀ t v, S t v → ∀ a ∈ t.refs v, a < s.heap.cells.length) (once : Prop) (n : Nat) :
    env.PassesOn s.heap.cells.length n S fun fieldsOf => Convert.Returns env.services once s n fieldsOf where
  vector fieldsOf t xs hxs b w b' hb hready hclosed hw := by
    obtain ⟨ws, b₁, hws, hok⟩ := Act.bind_eq_ok hw
    cases hok
    obtain ⟨h₁, ps, rfl, hps⟩ := Convert.returns_items hxs hb hready hclosed hws
    exact ⟨h₁, Convert.standing_vector hps hb.length_le⟩
  array fieldsOf t size xs hxs b w b' hb hready hclosed hw := by
    obtain ⟨ws, b₁, hws, hok⟩ := Act.bind_eq_ok hw
    cases hok
    obtain ⟨h₁, ps, rfl, hps⟩ := Convert.returns_items hxs hb hready hclosed hws
    exact ⟨h₁, Convert.standing_array hps hb.length_le⟩
  missing fieldsOf t b w b' hb _ _ hw := by
    cases hw
    exact ⟨.refl _ _, Convert.standing_none hb.length_le⟩
  present fieldsOf t x hnull hx b w b' hb hready hclosed hw := by
    obtain ⟨h₁, hstanding⟩ := hx b w b' hb hready hclosed hw
    exact ⟨h₁, Convert.standing_some hstanding (hnull n fieldsOf b w b' hw)⟩
  failed fieldsOf t message b w b' _ _ _ hw := nomatch hw
  done fieldsOf t x hx b w b' hb hready hclosed hw := by
    obtain ⟨h₁, hstanding⟩ := hx b w b' hb hready hclosed hw
    exact ⟨h₁, Convert.standing_result hstanding⟩
  object fieldsOf c x xs depth hmem hbinding hx hmems hdepth hxs :=
    henv.returns_object hx (hrefs _ x hmem) (fun y hy => hrefs y.type y.value (hmems y hy)) hbinding hdepth hxs

/-- **The values of a set that splits into values of the set come back**, if those at the bottom do. -/
theorem Built.roundTrips (henv : env.Built) {s : Holdings Ω} {once : Prop}
    {S : (t : NativeType) → t.Value Ω → Prop} (hrefs : ∀ t v, S t v → ∀ a ∈ t.refs v, a < s.heap.cells.length)
    (hS : ∀ t v, S t v →
      Convert.RoundTrips env.services once s t v ∨ env.Splits s.heap.cells.length S t v) {t : NativeType} {v : t.Value Ω}
    (hv : S t v) : Convert.RoundTrips env.services once s t v := by
  intro n fieldsOf hnests
  refine (henv.passesOn_returns hrefs once n).all (fun t v hv => ?_) hnests hv
  rcases hS t v hv with h | h
  · exact .inl fun fieldsOf hnests => h n fieldsOf hnests
  · exact .inr h

/-! ## The object table -/

theorem keeps_runExport {R : ObjectTable → ObjectTable → Prop} [IsPreorder ObjectTable R] {sv : Services Ω}
    {fieldsOf : Convert.FieldsOf Ω} (c : Class) {xs : List (NativeBridge.Typed Ω)}
    (hxs : ∀ x ∈ xs, (Convert.toWireWith sv fieldsOf x.type x.value).Keeps R)
    (answer : Except CallError Unit → Except CallError Unit) :
    (Convert.runExport sv fieldsOf c (.emit xs fun r => .done (answer r)) none).Keeps R := by
  have hdone (r : Except CallError Unit) (fields : Option (List Wire)) :
      (Convert.runExport sv fieldsOf c (.done r) fields).Keeps R := by
    cases r with
    | error e => exact .orDrop (.fail e) _
    | ok _ => cases fields <;> first | exact .pure _ | exact .fail _
  unfold Convert.runExport
  refine .bind (.attempt (.bind (.retain _) fun _ => Convert.keeps_listToWire _ xs hxs)) fun made => ?_
  cases made <;> exact hdone _ _

/-- If the value types are bound, the table is left alone as long as it is by what nests in them. -/
theorem passesOn_keeps {S : (t : NativeType) → t.Value Ω → Prop}
    (hbound : ∀ c x, S (.object c) x → env.bindings.lookup c = some .record) (old : Address) (n : Nat) :
    env.PassesOn old n S fun fieldsOf t v => (Convert.toWireWith (env.services n) fieldsOf t v).Keeps Eq where
  vector fieldsOf t xs hxs := .bind (Convert.keeps_listToWire t.refs xs hxs) fun _ => .pure _
  array fieldsOf t size xs hxs := .bind (Convert.keeps_listToWire t.refs xs.toList hxs) fun _ => .pure _
  missing fieldsOf t := .pure _
  present fieldsOf t x _ hx := hx
  failed fieldsOf t message := .fail _
  done fieldsOf t x hx := hx
  object fieldsOf c x xs depth hmem _ hx _ hdepth hxs := by
    obtain ⟨answer, hscript⟩ := hx.exported
    have hfields : (fieldsOf (env.program.exporter c) x.object).Keeps Eq := by
      rw [hdepth]
      cases depth with
      | zero => exact .throw _
      | succ m =>
        unfold Convert.fieldsAt
        rw [hscript]
        exact keeps_runExport _ (hxs m rfl) answer
    change (Convert.objectToWire (env.services n) fieldsOf x).Keeps Eq
    unfold Convert.objectToWire
    rw [hx.exporter, services_binding, hbound c x hmem]
    refine .thenDrop (.bind hfields fun ws => .thenDrop ?_ _) _
    exact .bind (.ofExcept _) fun _ => .bind (.retain _) fun _ => .pure _

/-! ## Both ways -/

theorem toWire_eq_ok {t : NativeType} {v : t.Value Ω} {b b' : Boundary Ω} {w : Wire} (h : env.toWire t v b = .ok w b') :
    ∃ b₁, Convert.toWire (env.services 0) t v (entering b none []) = .ok w b₁ ∧ b'.toHoldings = b₁.toHoldings := by
  obtain ⟨b₁, hsent⟩ := aside_ok h
  have hcall := Convert.fixes_toWire (P := Boundary.call) (fun _ _ h => h.call) (env.services 0) t v
    (entering b none [])
  rw [final_ok hsent] at hcall
  have haside : env.toWire t v b = .ok w { b₁ with call := b.call } := aside_eq_ok hsent (by rw [hcall]; rfl)
  rw [haside] at h
  cases h
  exact ⟨b₁, hsent, rfl⟩

theorem fromWire_standing {old : Address} {once : Prop} {p : Convert.Sent} {t : NativeType} {v : t.Value Ω}
    {b : Boundary Ω} (h : Convert.Standing env.services old once b.toHoldings p t v) :
    ∃ b₁ b', env.fromWire t p.wire b = .ok v b' ∧ b'.toHoldings = b₁.toHoldings ∧
      (entering b none [.undefined]).Reads old once p.Covers b₁ := by
  have hclear : (entering b none [p.wire]).Clear := by
    change (b.sinks ++ [none])[b.sinks.length]?.join = none
    rw [List.getElem?_concat_length]
    rfl
  have hargs : (entering b none [p.wire]).call.args = [] ++ [p.wire] := rfl
  obtain ⟨b₁, hread, hreads⟩ := Entry.recovers_arg (b := entering b none [p.wire]) h (Nat.le_refl _)
    (fun _ _ => .refl _ _ _) rfl hclear hargs
  have hrefs : b₁.call.refs = [] := by
    rw [hreads.call]
    rfl
  exact ⟨b₁, _, aside_eq_ok hread hrefs, rfl, hreads⟩

/-- **Value types round-trip.** A value is in `S` if it comes back by itself, or splits into values of `S`: objects that
their constructor rebuilds from the components which they export, and lists, options and results of such. What it is sent
as is read as the value again, on any engine. Wrappers that kept objects alive before are there still, and no wrapper is
made by reading; unless some values may be read once only, the object table is left alone by it. If the value types are
bound and what is at the bottom are plain values, sending it leaves the table alone too. -/
theorem Built.values_roundTrip (henv : env.Built) {S : (t : NativeType) → t.Value Ω → Prop} {b : Boundary Ω} {once : Prop}
    (hready : b.Ready) (hclosed : b.Closed) (hrefs : ∀ t v, S t v → ∀ a ∈ t.refs v, a < b.heap.cells.length)
    (hS : ∀ t v, S t v →
      Convert.RoundTrips env.services once b.toHoldings t v ∨ env.Splits b.heap.cells.length S t v) {t : NativeType}
    {v : t.Value Ω} (hv : S t v) :
    (∀ w b', env.toWire t v b = .ok w b' → ∃ b'', env.fromWire t w b' = .ok v b'' ∧
      (∀ h u, b.table.live? h = some u → u.ownership.isStrong = true → b''.table.live? h = some u) ∧
      (∀ h u, b''.table.live? h = some u → b'.table.live? h = some u) ∧ (¬once → b''.table = b'.table)) ∧
    ((∀ t v, S t v → t.wraps = false ∨ env.Splits b.heap.cells.length S t v) →
      (∀ c x, S (.object c) x → env.bindings.lookup c = some .record) →
      ((env.toWire t v).final b).table = b.table) := by
  refine ⟨fun w b' h => ?_, fun hplain hbound => ?_⟩
  · obtain ⟨b₁, hsent, hb₁⟩ := toWire_eq_ok h
    have hreturns : Convert.RoundTrips env.services once b.toHoldings t v := henv.roundTrips hrefs hS hv
    obtain ⟨h₁, hstanding⟩ := hreturns 0 _ (Convert.nests_fields _) (entering b none []) w b₁ (.refl _ _) hready hclosed
      hsent
    rw [← hb₁] at hstanding
    obtain ⟨b₂, b'', hread, hb'', hreads⟩ := fromWire_standing hstanding
    refine ⟨b'', hread, fun g u hu hstrong => ?_, ?_, ?_⟩
    · -- the wrapper is for an object that was there before, and no such object is touched
      have hlt : u.address < b.heap.cells.length := hready.address_lt hu
      have hsent : b'.table.live? g = some u := by
        rw [hb₁]
        exact h₁.live g u hu hstrong
      rw [hb'']
      exact (hreads.keeps u.address fun hcovers => absurd hlt (Nat.not_lt.mpr hcovers.1)).live g u hsent hstrong rfl
    · rw [hb'']
      exact hreads.fewer
    · rw [hb'']
      exact hreads.table
  · have hkeeps := (passesOn_keeps hbound b.heap.cells.length 0).all (fun t v hv => ?_) (Convert.nests_fields _) hv
    · exact (final_aside [] _ b).trans (hkeeps (entering b none [])).symm
    · rcases hplain t v hv with h | h
      · exact .inl fun fieldsOf _ => Convert.keeps_toWireWith _ fieldsOf t v h
      · exact .inr h

/-! ## Polygons, sprites and trees -/

open Catalog

/-- A polygon from its corners. -/
def polyOfPoints : Entry Specimen :=
  .constructor Species.poly.cls [.vector (.object Species.point.cls)] fun (ps, _) =>
    .done (Specimen.ofPoly (List.map (fun p : Of .point => p.object.asPoint) ps))

/-- Points and polygons that travel by value. -/
def declareShapes : Except RegistrationError (Registry (Upcast Specimen) (Code Specimen)) := do
  let r ← (Registry.empty 16 : Registry (Upcast Specimen) (Code Specimen)).declareClass Species.point.cls.info
  let r ← r.declareValueType Species.point.cls
  let (_, r) ← r.declareConstructor Species.point.cls .none pointOfXY.shape ⟨0⟩ (.typed pointOfXY)
  let r ← r.declareClass Species.poly.cls.info
  let r ← r.declareValueType Species.poly.cls
  let (_, r) ← r.declareConstructor Species.poly.cls .none polyOfPoints.shape ⟨1⟩ (.typed polyOfPoints)
  return r

theorem reachedTyped_declareShapes {r : Registry (Upcast Specimen) (Code Specimen)} (h : declareShapes = .ok r) :
    r.ReachedTyped := by
  unfold declareShapes at h
  obtain ⟨r₁, h₁, h⟩ := NativeBridge.bind_ok h
  obtain ⟨r₂, h₂, h⟩ := NativeBridge.bind_ok h
  obtain ⟨⟨ref₃, r₃⟩, h₃, h⟩ := NativeBridge.bind_ok h
  obtain ⟨r₄, h₄, h⟩ := NativeBridge.bind_ok h
  obtain ⟨r₅, h₅, h⟩ := NativeBridge.bind_ok h
  obtain ⟨⟨ref₆, r₆⟩, h₆, h⟩ := NativeBridge.bind_ok h
  cases h
  have hpoint : Relation.ReflTransGen Registry.DeclaresTyped (.empty 16) r₃ := Registry.declares_value h₁ h₂ h₃ rfl
  have hpoly : Relation.ReflTransGen Registry.DeclaresTyped r₃ r := Registry.declares_value h₄ h₅ h₆ rfl
  exact ⟨16, hpoint.trans hpoly⟩

/-- The engine of points and polygons. -/
def shapeEngine : Environment Specimen :=
  match declareShapes >>= (start · .new ⟨exporter, host⟩) with
  | .ok env => env
  | .error _ => bare Specimen

theorem shapeEngine_built : shapeEngine.Built := by
  have hstarts : (declareShapes >>= fun r => (start r .new ⟨exporter, host⟩).map fun _ => ()) = .ok () := by cbv
  exact starts_built (fun _ => reachedTyped_declareShapes) hstarts fun _ henv => by rw [shapeEngine, henv]

theorem shapeEngine_program : shapeEngine.program = ⟨exporter, host⟩ := by cbv

theorem shapeEngine_bindings :
    shapeEngine.bindings = [(Species.point.cls, .record), (Species.poly.cls, .record)] := by cbv

theorem shapeEngine_point : (do
    let d ← shapeEngine.registry.class? Species.point.cls
    let e ← shapeEngine.overload? d.constructors 2
    return (d.declared, d.valueType, e.code)) = some (true, true, .typed pointOfXY) := by cbv

theorem shapeEngine_poly : (do
    let d ← shapeEngine.registry.class? Species.poly.cls
    let e ← shapeEngine.overload? d.constructors 1
    return (d.declared, d.valueType, e.code)) = some (true, true, .typed polyOfPoints) := by cbv

/-- Polygons, and what they are made of. -/
inductive Shape : (t : NativeType) → t.Value Specimen → Prop
  | coordinate (x : Int32) : Shape (.int .int32) x
  | point (p : Point) : Shape (.object Species.point.cls) (Specimen.ofPoint p)
  | points (ps : List Point) : Shape (.vector (.object Species.point.cls)) (ps.map Specimen.ofPoint)
  | poly (ps : List Point) : Shape (.object Species.poly.cls) (Specimen.ofPoly ps)
  | maybe (ps : List Point) : Shape (.optional (.object Species.poly.cls)) (some (Specimen.ofPoly ps))

theorem Shape.refs {t : NativeType} {v : t.Value Specimen} (h : Shape t v) : t.refs v = [] := by
  cases h with
  | points ps =>
    refine List.flatMap_eq_nil_iff.mpr fun x hx => ?_
    obtain ⟨p, -, rfl⟩ := List.mem_map.mp hx
    rfl
  | _ => rfl

/-- Polygons split into points and these into coordinates, whether points travel by value or are wrapped. -/
theorem shapes_split {bindings : List (Class × HostBinding)}
    (hbindings : ∀ s : Species, bindings.lookup s.cls = none ∨ bindings.lookup s.cls = some .record) (old : Address)
    {t : NativeType} {v : t.Value Specimen} (h : Shape t v) :
    t.IsData ∨ { shapeEngine with bindings }.Splits old Shape t v := by
  have hpoly (ps : List Point) :
      { shapeEngine with bindings }.Splits old Shape (.object Species.poly.cls) (Specimen.ofPoly ps) := by
    refine ⟨hbindings .poly, [⟨.vector (.object Species.point.cls), ps.map Specimen.ofPoint⟩],
      .of_class (f := id) shapeEngine_poly ?_ (fun _ => ?_) (Body.spares_done _ _ _), ?_⟩
    · change (shapeEngine.program.exporter _).script _ = _
      rw [shapeEngine_program]
      rfl
    · have hpoints : (ps.map Specimen.ofPoint).map (fun p : Of .point => p.object.asPoint) = ps :=
        List.map_map.trans (List.map_id ps)
      change (Body.done (Specimen.ofPoly ((ps.map Specimen.ofPoint).map fun p : Of .point => p.object.asPoint)) :
        Body Specimen Unit (Of .poly)).Remakes _ _ _
      rw [hpoints]
      exact Body.remakes_done _ _ _
    · rintro y hy
      rw [List.mem_singleton.mp hy]
      exact .points ps
  cases h with
  | coordinate x => exact .inl (.int _)
  | point p =>
    refine .inr ⟨hbindings .point, [⟨.int .int32, p.x⟩, ⟨.int .int32, p.y⟩],
      .of_class (f := id) shapeEngine_point ?_ (fun _ => Body.remakes_done _ _ _) (Body.spares_done _ _ _), ?_⟩
    · change (shapeEngine.program.exporter _).script _ = _
      rw [shapeEngine_program]
      rfl
    · rintro y hy
      rcases List.mem_pair.mp hy with rfl | rfl <;> exact .coordinate _
  | points ps =>
    refine .inr fun x hx => ?_
    obtain ⟨p, -, rfl⟩ := List.mem_map.mp hx
    exact .point p
  | poly ps => exact .inr (hpoly ps)
  | maybe ps =>
    refine .inr fun y hy => ?_
    cases hy
    exact ⟨.poly ps, (hpoly ps).neverNull⟩

/-- A polygon that may be missing, and is not. -/
def maybeSegment : NativeType.Value Specimen (.optional (.object Species.poly.cls)) :=
  some (Specimen.ofPoly [⟨1, 2⟩, ⟨3, 4⟩])

/-- A sprite from its position and its label, which nobody else has. -/
def spriteOfLabel : Entry Specimen :=
  .constructor Species.sprite.cls [.object Species.point.cls, .handle .unique Species.node.cls] fun (p, label, _) =>
    .done (Specimen.ofSprite ⟨p.object.asPoint, label.object.asName⟩)

/-- A tree from its root, which others may share. -/
def treeOfRoot : Entry Specimen :=
  .constructor Species.tree.cls [.handle .shared Species.node.cls] fun (root, _) => .done (Specimen.ofTree root)

/-- Points, sprites and trees that travel by value. -/
def declarePictures : Except RegistrationError (Registry (Upcast Specimen) (Code Specimen)) := do
  let r ← (Registry.empty 16 : Registry (Upcast Specimen) (Code Specimen)).declareClass Species.point.cls.info
  let r ← r.declareValueType Species.point.cls
  let (_, r) ← r.declareConstructor Species.point.cls .none pointOfXY.shape ⟨0⟩ (.typed pointOfXY)
  let r ← r.declareClass Species.sprite.cls.info
  let r ← r.declareValueType Species.sprite.cls
  let (_, r) ← r.declareConstructor Species.sprite.cls .none spriteOfLabel.shape ⟨1⟩ (.typed spriteOfLabel)
  let r ← r.declareClass Species.tree.cls.info
  let r ← r.declareValueType Species.tree.cls
  let (_, r) ← r.declareConstructor Species.tree.cls .none treeOfRoot.shape ⟨2⟩ (.typed treeOfRoot)
  return r

theorem reachedTyped_declarePictures {r : Registry (Upcast Specimen) (Code Specimen)} (h : declarePictures = .ok r) :
    r.ReachedTyped := by
  unfold declarePictures at h
  obtain ⟨r₁, h₁, h⟩ := NativeBridge.bind_ok h
  obtain ⟨r₂, h₂, h⟩ := NativeBridge.bind_ok h
  obtain ⟨⟨ref₃, r₃⟩, h₃, h⟩ := NativeBridge.bind_ok h
  obtain ⟨r₄, h₄, h⟩ := NativeBridge.bind_ok h
  obtain ⟨r₅, h₅, h⟩ := NativeBridge.bind_ok h
  obtain ⟨⟨ref₆, r₆⟩, h₆, h⟩ := NativeBridge.bind_ok h
  obtain ⟨r₇, h₇, h⟩ := NativeBridge.bind_ok h
  obtain ⟨r₈, h₈, h⟩ := NativeBridge.bind_ok h
  obtain ⟨⟨ref₉, r₉⟩, h₉, h⟩ := NativeBridge.bind_ok h
  cases h
  have hpoint : Relation.ReflTransGen Registry.DeclaresTyped (.empty 16) r₃ := Registry.declares_value h₁ h₂ h₃ rfl
  have hsprite : Relation.ReflTransGen Registry.DeclaresTyped r₃ r₆ := Registry.declares_value h₄ h₅ h₆ rfl
  have htree : Relation.ReflTransGen Registry.DeclaresTyped r₆ r := Registry.declares_value h₇ h₈ h₉ rfl
  exact ⟨16, (hpoint.trans hsprite).trans htree⟩

/-- A sprite is exported with a node for its label, and a tree with its root. -/
def pictureExporter (_ : Class) : Exporter Specimen where
  script
    | .sprite s => .emit [⟨.object Species.point.cls, Specimen.ofPoint s.pos⟩,
        ⟨.handle .unique Species.node.cls, Specimen.ofNode s.name⟩] .done
    | .tree root => .emit [⟨.handle .shared Species.node.cls, root⟩] .done
    | o => exportScript o
  depth
    | .sprite _ => 2
    | _ => 1

/-- The engine of points, sprites and trees. -/
def pictureEngine : Environment Specimen :=
  match declarePictures >>= (start · .new ⟨pictureExporter, host⟩) with
  | .ok env => env
  | .error _ => bare Specimen

theorem pictureEngine_built : pictureEngine.Built := by
  have hstarts : (declarePictures >>= fun r => (start r .new ⟨pictureExporter, host⟩).map fun _ => ()) = .ok () := by cbv
  exact starts_built (fun _ => reachedTyped_declarePictures) hstarts fun _ henv => by rw [pictureEngine, henv]

theorem pictureEngine_program : pictureEngine.program = ⟨pictureExporter, host⟩ := by cbv

theorem pictureEngine_point : (do
    let d ← pictureEngine.registry.class? Species.point.cls
    let e ← pictureEngine.overload? d.constructors 2
    return (d.declared, d.valueType, e.code)) = some (true, true, .typed pointOfXY) := by cbv

theorem pictureEngine_sprite : (do
    let d ← pictureEngine.registry.class? Species.sprite.cls
    let e ← pictureEngine.overload? d.constructors 2
    return (d.declared, d.valueType, e.code)) = some (true, true, .typed spriteOfLabel) := by cbv

theorem pictureEngine_tree : (do
    let d ← pictureEngine.registry.class? Species.tree.cls
    let e ← pictureEngine.overload? d.constructors 1
    return (d.declared, d.valueType, e.code)) = some (true, true, .typed treeOfRoot) := by cbv

/-- Sprites and a tree, and what they are made of. -/
inductive Picture : (t : NativeType) → t.Value Specimen → Prop
  | coordinate (x : Int32) : Picture (.int .int32) x
  | point (p : Point) : Picture (.object Species.point.cls) (Specimen.ofPoint p)
  | label (name : String) : Picture (.handle .unique Species.node.cls) (Specimen.ofNode name)
  | sprite (s : Sprite) : Picture (.object Species.sprite.cls) (Specimen.ofSprite s)
  | sprites (ss : List Sprite) : Picture (.vector (.object Species.sprite.cls)) (ss.map Specimen.ofSprite)
  | root : Picture (.handle .shared Species.node.cls) (0 : Address)
  | tree : Picture (.object Species.tree.cls) (Specimen.ofTree 0)

/-- A boundary with one node, which native code holds. -/
def oneNode : Boundary Specimen :=
  { (Boundary.empty : Boundary Specimen) with toHoldings := (Ledger.typedRun [.make (.node "a")]).toHoldings }

theorem pictureEngine_bindings :
    pictureEngine.bindings =
      [(Species.point.cls, .record), (Species.sprite.cls, .record), (Species.tree.cls, .record)] := by cbv

theorem Picture.refs {t : NativeType} {v : t.Value Specimen} (h : Picture t v) : ∀ a ∈ t.refs v, a = 0 := by
  cases h with
  | sprites ss =>
    intro a ha
    obtain ⟨x, hx, ha⟩ := List.mem_flatMap.mp ha
    obtain ⟨s, -, rfl⟩ := List.mem_map.mp hx
    cases ha
  | root | tree => exact fun a ha => List.mem_singleton.mp ha
  | _ => exact fun _ ha => nomatch ha

/-- Sprites and the tree split into values that come back, some of which once only. -/
theorem pictures_split (old : Address) {t : NativeType} {v : t.Value Specimen} (h : Picture t v) :
    Convert.Plain pictureEngine.services True oneNode.toHoldings t v ∨ pictureEngine.Splits old Picture t v := by
  cases h with
  | coordinate x => exact .inl (.int _)
  | label name => exact .inl trivial
  | root => exact .inl rfl
  | point p =>
    refine .inr ⟨.inr (by rw [pictureEngine_bindings]; cbv), [⟨.int .int32, p.x⟩, ⟨.int .int32, p.y⟩],
      .of_class (f := id) pictureEngine_point ?_ (fun _ => Body.remakes_done _ _ _) (Body.spares_done _ _ _), ?_⟩
    · rw [pictureEngine_program]
      rfl
    · rintro y hy
      rcases List.mem_pair.mp hy with rfl | rfl <;> exact .coordinate _
  | sprite s =>
    refine .inr ⟨.inr (by rw [pictureEngine_bindings]; cbv),
      [⟨.object Species.point.cls, Specimen.ofPoint s.pos⟩, ⟨.handle .unique Species.node.cls, Specimen.ofNode s.name⟩],
      .of_class (f := id) pictureEngine_sprite ?_ (fun _ => Body.remakes_done _ _ _) (Body.spares_done _ _ _), ?_⟩
    · rw [pictureEngine_program]
      rfl
    · rintro y hy
      rcases List.mem_pair.mp hy with rfl | rfl
      · exact .point s.pos
      · exact .label s.name
  | sprites ss =>
    refine .inr fun x hx => ?_
    obtain ⟨s, -, rfl⟩ := List.mem_map.mp hx
    exact .sprite s
  | tree =>
    refine .inr ⟨.inr (by rw [pictureEngine_bindings]; cbv), [⟨.handle .shared Species.node.cls, (0 : Address)⟩],
      .of_class (f := id) pictureEngine_tree ?_ (fun _ => Body.remakes_done _ _ _) (Body.spares_done _ _ _), ?_⟩
    · rw [pictureEngine_program]
      rfl
    · rintro y hy
      rw [List.mem_singleton.mp hy]
      exact .root

/-- The tree of the node. -/
def oneTree : NativeType.Value Specimen (.object Species.tree.cls) :=
  Specimen.ofTree 0

/-- Two sprites. -/
def twoSprites : NativeType.Value Specimen (.vector (.object Species.sprite.cls)) :=
  [Specimen.ofSprite ⟨⟨1, 2⟩, "a"⟩, Specimen.ofSprite ⟨⟨3, 4⟩, "b"⟩]

/-- The number of wrappers there are once a value was sent. -/
def wrappersFor (env : Environment Specimen) (t : NativeType) (v : t.Value Specimen) (b : Boundary Specimen) :
    Option Nat :=
  match env.toWire t v b with
  | .ok _ b => some b.table.liveCount
  | .error _ _ => none

theorem wrappersFor_eq_some {env : Environment Specimen} {t : NativeType} {v : t.Value Specimen} {b : Boundary Specimen}
    {n : Nat} (h : wrappersFor env t v b = some n) : ∃ w b', env.toWire t v b = .ok w b' ∧ b'.table.liveCount = n := by
  unfold wrappersFor at h
  split at h
  · rename_i w b' hsent
    exact ⟨w, b', hsent, Option.some.inj h⟩
  · cases h

omit [ObjectModel Ω] in
theorem lookup_record {bindings : List (Class × HostBinding)} (h : ∀ p ∈ bindings, p.2 = .record) (c : Class) :
    bindings.lookup c = none ∨ bindings.lookup c = some .record := by
  cases hc : bindings.lookup c with
  | none => exact .inl rfl
  | some binding =>
    obtain ⟨before, after, rfl, -⟩ := List.lookup_eq_some_iff.mp hc
    exact .inr (congrArg some (h (c, binding) (List.mem_append_right _ List.mem_cons_self)))

/-- A polygon comes back: from a record of records, and from a record of wrapped points if points are not bound. So do
sprites, whose labels are taken back, and a tree, whose root is shared with native code. -/
theorem shapes_roundTrip :
    (∃ w b₁ b₂, shapeEngine.toWire _ maybeSegment .empty = .ok w b₁ ∧ b₁.table = ObjectTable.empty ∧
      shapeEngine.fromWire _ w b₁ = .ok maybeSegment b₂ ∧ b₂.table = b₁.table) ∧
    (∃ w b₁ b₂, (shapeEngine.unbind Species.point.cls).toWire _ maybeSegment .empty = .ok w b₁ ∧
      b₁.table.liveCount = 2 ∧ (shapeEngine.unbind Species.point.cls).fromWire _ w b₁ = .ok maybeSegment b₂ ∧
      b₂.table = b₁.table) ∧
    (∃ w b₁ b₂, pictureEngine.toWire _ twoSprites oneNode = .ok w b₁ ∧ b₁.table.liveCount = 2 ∧
      pictureEngine.fromWire _ w b₁ = .ok twoSprites b₂) ∧
    ∃ w b₁ b₂, pictureEngine.toWire _ oneTree oneNode = .ok w b₁ ∧ b₁.table.liveCount = 1 ∧
      pictureEngine.fromWire _ w b₁ = .ok oneTree b₂ := by
  have hrecord : ∀ p ∈ shapeEngine.bindings, p.2 = .record := by
    rw [shapeEngine_bindings]
    rintro p hp
    rcases List.mem_pair.mp hp with rfl | rfl <;> rfl
  have hrefs (old : Address) (t : NativeType) (v : t.Value Specimen) (hv : Shape t v) : ∀ a ∈ t.refs v, a < old := by
    rw [hv.refs]
    exact nofun
  have hsplit {bindings : List (Class × HostBinding)} (hb : ∀ p ∈ bindings, p.2 = .record) (s : Holdings Specimen)
      (t : NativeType) (v : t.Value Specimen) (hv : Shape t v) :
      Convert.RoundTrips { shapeEngine with bindings }.services False s t v ∨
        { shapeEngine with bindings }.Splits s.heap.cells.length Shape t v :=
    (shapes_split (fun s => lookup_record hb s.cls) _ hv).imp_left fun ht => Convert.roundTrips_data ht v
  have hnode : oneNode.Ready ∧ oneNode.Closed := ⟨(Ledger.coherent_typedRun _).toReady, Ledger.closed_typedRun _⟩
  have hpicture (t : NativeType) (v : t.Value Specimen) (hv : Picture t v) : ∀ a ∈ t.refs v, a < 1 :=
    fun a ha => by rw [hv.refs a ha]; exact Nat.one_pos
  have hpictures (t : NativeType) (v : t.Value Specimen) (hv : Picture t v) :
      Convert.RoundTrips pictureEngine.services True oneNode.toHoldings t v ∨ pictureEngine.Splits 1 Picture t v :=
    (pictures_split 1 hv).imp_left fun h => Convert.roundTrips_plain t v h (hpicture t v hv)
  have hback {t : NativeType} {v : t.Value Specimen} (hv : Picture t v) {n : Nat}
      (hsent : wrappersFor pictureEngine t v oneNode = some n) : ∃ w b₁ b₂, pictureEngine.toWire t v oneNode = .ok w b₁ ∧
        b₁.table.liveCount = n ∧ pictureEngine.fromWire t w b₁ = .ok v b₂ := by
    obtain ⟨w, b₁, hsent, hcount⟩ := wrappersFor_eq_some hsent
    obtain ⟨hreads, -⟩ := Built.values_roundTrip pictureEngine_built hnode.1 hnode.2 hpicture hpictures hv
    obtain ⟨b₂, hread, -⟩ := hreads w b₁ hsent
    exact ⟨w, b₁, b₂, hsent, hcount, hread⟩
  refine ⟨?_, ?_, ?_, ?_⟩
  · obtain ⟨w, b₁, hsent, -⟩ :=
      wrappersFor_eq_some (show wrappersFor shapeEngine _ maybeSegment .empty = some 0 by cbv)
    obtain ⟨hreads, hkeeps⟩ := Built.values_roundTrip shapeEngine_built (b := .empty) (v := maybeSegment)
      Holdings.ready_empty Holdings.closed_empty (hrefs _) (hsplit hrecord _) (.maybe _)
    have hbound (c : Class) (x : Instance Specimen c) (hx : Shape (.object c) x) :
        shapeEngine.bindings.lookup c = some .record := by
      rw [shapeEngine_bindings]
      cases hx <;> cbv
    have htable := hkeeps (fun t v hv =>
      (shapes_split (fun s => lookup_record hrecord s.cls) _ hv).imp_left NativeType.IsData.wraps) hbound
    obtain ⟨b₂, hread, -, -, hsame⟩ := hreads w b₁ hsent
    rw [final_ok hsent] at htable
    exact ⟨w, b₁, b₂, hsent, htable, hread, hsame id⟩
  · obtain ⟨w, b₁, hsent, hcount⟩ := wrappersFor_eq_some
      (show wrappersFor (shapeEngine.unbind Species.point.cls) _ maybeSegment .empty = some 2 by cbv)
    have hrest : ∀ p ∈ (shapeEngine.unbind Species.point.cls).bindings, p.2 = .record :=
      fun p hp => hrecord p (List.mem_of_mem_filter hp)
    obtain ⟨hreads, -⟩ := Built.values_roundTrip (.unbind Species.point.cls shapeEngine_built) (b := .empty)
      (v := maybeSegment) Holdings.ready_empty Holdings.closed_empty (hrefs _) (hsplit hrest _) (.maybe _)
    obtain ⟨b₂, hread, -, -, hsame⟩ := hreads w b₁ hsent
    exact ⟨w, b₁, b₂, hsent, hcount, hread, hsame id⟩
  · exact hback (.sprites [⟨⟨1, 2⟩, "a"⟩, ⟨⟨3, 4⟩, "b"⟩]) (show _ = some 2 by cbv)
  · exact hback .tree (show _ = some 1 by cbv)

end Environment
end NativeBridge
