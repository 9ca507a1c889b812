import NativeBridge.Proofs.Call.Frame
import NativeBridge.Call.Convert
/-!
# What is refused cannot be converted

What a type refuses by the value alone cannot be converted to it, in whatever state, as long as the host hands over fields
only of records and arrays (`Convert.accepts_of_forms`). The types themselves leave no gap: what can be converted though it is
refused is rebuilt from a value in another form, and a binding that reads such a value does rebuild an object from it
(`Convert.importValue_emit`).
-/
namespace NativeBridge
variable {Ω : Type} [ObjectModel Ω] {α β : Type}

open Act

theorem NativeType.accepts_token : ∀ (t : NativeType) (w : Wire), t.token.accepts w = t.accepts w
  | .result t, w => NativeType.accepts_token t w
  | .unit, _ | .bool, _ | .char, _ | .int _, _ | .float _, _ | .text, _ | .staticText, _ | .any, _ | .callback, _
  | .pointer, _ | .vector _, _ | .array _ _, _ | .optional _, _ | .object _, _ | .handle _ _, _ => rfl

/-! ## What bindings read -/

/-- Fields are handed over only of values in a form that the type of objects accepts. -/
def HostBinding.ReadsForms (binding : HostBinding) : Prop :=
  ∀ (c : Class) w fields next, binding.read c.name w = .emit fields next → (NativeType.object c).accepts w = true

theorem HostBinding.record_readsForms : HostBinding.record.ReadsForms := by
  intro c w fields next h
  cases w with
  | array _ | record _ _ => rfl
  | _ => cases h

namespace Services

/-- Objects are rebuilt only from values in a form that their type accepts. -/
def RebuildsForms (sv : Services Ω) : Prop :=
  ∀ (c : Class) (w : Wire) (b b' : Boundary Ω) (x : Instance Ω c), Convert.importValue sv c w b = .ok x b' →
    (NativeType.object c).accepts w = true

/-- Every value type that the host has bound has the record binding. -/
def RecordsOnly (sv : Services Ω) : Prop :=
  ∀ c binding, sv.binding c = some binding → binding = .record

end Services

namespace Convert
variable {sv : Services Ω} {c : Class} {w : Wire} {b b' : Boundary Ω}

/-- What has been rebuilt was made of fields that the binding of its class had handed over. -/
theorem importValue_reads {x : Instance Ω c} (h : importValue sv c w b = .ok x b') :
    ∃ binding fields next, sv.binding c = some binding ∧ binding.read c.name w = .emit fields next := by
  obtain ⟨b₁, h, -⟩ := Act.ensuring_eq_ok h
  cases hbinding : sv.binding c with
  | none =>
    rw [hbinding] at h
    cases h
  | some binding =>
    rw [hbinding] at h
    dsimp only at h
    cases hread : binding.read c.name w with
    | done outcome =>
      rw [hread] at h
      cases outcome <;> cases h
    | emit fields next => exact ⟨binding, fields, next, rfl, hread⟩

/-- A value is rebuilt in whatever form its binding hands over the fields of an object that can be made. -/
theorem importValue_emit {binding : HostBinding} {fields : List Wire} {p : Pointer} {x : Instance Ω c} {b₁ : Boundary Ω}
    (hbinding : sv.binding c = some binding) (hread : binding.read c.name w = .emit fields .done)
    (hmade : sv.construct c fields (b.retain (Wire.refsAll fields)) = .ok p b₁)
    (howned : Access.intoOwned c p b₁ = .ok x b') : importValue sv c w b = .ok x ((b'.drop []).drop w.refs) := by
  have hattempt : (Act.attempt do
      Act.retain (Wire.refsAll fields)
      let p ← sv.construct c fields
      Access.intoOwned c p) b = .ok (.ok x) b' := by
    have hretain : (Act.retain (Wire.refsAll fields) : Act Ω Unit) b = .ok () (b.retain (Wire.refsAll fields)) := rfl
    unfold Act.attempt
    rw [Act.bind_ok hretain, Act.bind_ok hmade, howned]
  have himport : runImport sv c (.emit fields .done) none b = .ok (some x) (b'.drop []) := by
    unfold runImport
    exact Act.bind_ok (Act.orDrop_ok hattempt)
  unfold importValue consuming Act.thenDrop Act.ensuring
  rw [hbinding]
  dsimp only
  rw [hread, Act.bind_ok himport]
  rfl

/-- A value is not rebuilt if the object cannot be made of the fields that its binding hands over. -/
theorem importValue_fails {binding : HostBinding} {fields : List Wire} {i : Interrupt} (hbinding : sv.binding c = some binding)
    (hread : binding.read c.name w = .emit fields .done)
    (hfails : sv.construct c fields (b.retain (Wire.refsAll fields)) = .error i b') :
    ∃ b'', importValue sv c w b = .error i b'' ∧ b''.table = b'.table := by
  have hretain : (Act.retain (Wire.refsAll fields) : Act Ω Unit) b = .ok () (b.retain (Wire.refsAll fields)) := rfl
  have hmake : (do
      Act.retain (Wire.refsAll fields)
      let p ← sv.construct c fields
      Access.intoOwned c p : Act Ω (Instance Ω c)) b = .error i b' := by
    rw [Act.bind_ok hretain, Act.bind_error hfails]
  have himport : runImport sv c (.emit fields .done) none b = .error i (b'.drop []) := by
    unfold runImport
    cases i with
    | error e => exact Act.bind_ok (Act.orDrop_ok (Act.attempt_error hmake))
    | panic | nesting => exact Act.bind_error (Act.orDrop_error (Act.attempt_cut hmake nofun))
  unfold importValue consuming Act.thenDrop Act.ensuring
  rw [hbinding]
  dsimp only
  rw [hread, Act.bind_error himport]
  exact ⟨_, rfl, rfl⟩

end Convert

theorem Services.rebuildsForms {sv : Services Ω}
    (h : ∀ c binding, sv.binding c = some binding → binding.ReadsForms) : sv.RebuildsForms := by
  intro c w b b' x hx
  obtain ⟨binding, fields, next, hbinding, hread⟩ := Convert.importValue_reads hx
  exact h c binding hbinding c w fields next hread

theorem Services.RecordsOnly.rebuildsForms {sv : Services Ω} (h : sv.RecordsOnly) : sv.RebuildsForms :=
  Services.rebuildsForms fun c binding hbinding => h c binding hbinding ▸ HostBinding.record_readsForms

/-! ## What conversions take -/

namespace Convert
variable {sv : Services Ω}

theorem mem_listFromWire {refs : α → List Address} {convert : Wire → Act Ω α} : ∀ {ws : List Wire} {b b' : Boundary Ω}
    {xs : List α}, listFromWire refs convert ws b = .ok xs b' → ∀ w ∈ ws, ∃ x c c', convert w c = .ok x c'
  | [], _, _, _, _, _, hw => nomatch hw
  | v :: vs, b, b', xs, h, w, hw => by
    obtain ⟨x, b₁, hx, h⟩ := Act.bind_eq_ok h
    obtain ⟨ys, b₂, hys, -⟩ := Act.bind_eq_ok h
    rcases List.mem_cons.mp hw with rfl | hw
    · exact ⟨x, b, b₁, Act.orDrop_eq_ok hx⟩
    · exact mem_listFromWire (Act.orDrop_eq_ok hys) w hw

theorem not_refuse {expected : String} {w : Wire} {b b' : Boundary Ω} {x : α} : refuse expected w b ≠ .ok x b' := by
  intro h
  cases h

/-- **What a type refuses cannot be converted to it**, in whatever state. -/
theorem accepts_of_forms (hforms : sv.RebuildsForms) : ∀ (t : NativeType) (w : Wire) {b b' : Boundary Ω}
    {x : t.Value Ω}, fromWire sv t w b = .ok x b' → t.accepts w = true
  | .unit, w, b, b', x, h => by
    unfold fromWire at h
    split at h
    · assumption
    · exact absurd h not_refuse
  | .bool, w, b, b', x, h => by
    cases w with
    | bool b => rfl
    | _ => exact absurd h not_refuse
  | .char, w, b, b', x, h => by
    cases w with
    | text s =>
      unfold fromWire at h
      dsimp only at h
      rcases hs : s.toList with _ | ⟨c, _ | ⟨d, rest⟩⟩
      · rw [hs] at h
        cases h
      · change (s.length == 1) = true
        rw [← String.length_toList, hs]
        rfl
      · rw [hs] at h
        cases h
    | _ => exact absurd h not_refuse
  | .int k, w, b, b', x, h => by
    cases w with
    | int n =>
      unfold fromWire at h
      dsimp only at h
      unfold IntKind.ofInt? at h
      by_cases hrange : k.low ≤ n.toInt ∧ n.toInt ≤ k.high
      · change (decide (k.low ≤ n.toInt) && decide (n.toInt ≤ k.high)) = true
        rw [decide_eq_true hrange.1, decide_eq_true hrange.2]
        rfl
      · rw [if_neg hrange] at h
        cases h
    | _ => exact absurd h not_refuse
  | .float .double, w, b, b', x, h | .float .single, w, b, b', x, h => by
    cases w with
    | float _ | int _ => rfl
    | _ => exact absurd h not_refuse
  | .text, w, b, b', x, h | .staticText, w, b, b', x, h => by
    cases w with
    | text s => rfl
    | _ => exact absurd h not_refuse
  | .any, w, b, b', x, h => rfl
  | .callback, w, b, b', x, h => by
    cases w with
    | function c => rfl
    | _ => exact absurd h not_refuse
  | .pointer, w, b, b', x, h => by
    cases w with
    | pointer _ | object _ => rfl
    | _ => exact absurd h not_refuse
  | .vector t, w, b, b', x, h => by
    cases w with
    | array ws =>
      refine List.all_eq_true.mpr fun w hw => ?_
      obtain ⟨y, c, c', hy⟩ := mem_listFromWire h w hw
      exact accepts_of_forms hforms t w hy
    | _ => exact absurd h not_refuse
  | .array t n, w, b, b', x, h => by
    cases w with
    | array ws =>
      unfold fromWire at h
      dsimp only at h
      split at h
      · rename_i hlength
        obtain ⟨ys, b₁, hys, -⟩ := Act.bind_eq_ok h
        change (ws.length == n && ws.all t.accepts) = true
        rw [beq_iff_eq.mpr hlength, Bool.true_and]
        refine List.all_eq_true.mpr fun w hw => ?_
        obtain ⟨y, c, c', hy⟩ := mem_listFromWire hys w hw
        exact accepts_of_forms hforms t w hy
      · cases h
    | _ => exact absurd h not_refuse
  | .optional t, w, b, b', x, h => by
    unfold fromWire at h
    change (w.isNullish || t.accepts w) = true
    split at h
    · rename_i hnullish
      rw [hnullish, Bool.true_or]
    · obtain ⟨y, b₁, hy, -⟩ := Act.bind_eq_ok h
      rw [accepts_of_forms hforms t w hy, Bool.or_true]
  | .object c, w, b, b', x, h => by
    cases w with
    | object _ | pointer _ | array _ | record _ _ => rfl
    | _ => exact hforms c _ b b' x h
  | .handle .unique c, w, b, b', x, h => by
    cases w with
    | object _ => rfl
    | _ => exact absurd h not_refuse
  | .handle .shared c, w, b, b', x, h | .handle .constShared c, w, b, b', x, h => by
    cases w with
    | object _ | pointer _ => rfl
    | _ => exact absurd h not_refuse
  | .handle .borrowed c, w, b, b', x, h | .handle .constBorrowed c, w, b, b', x, h => by
    obtain ⟨y, b₁, hy, -⟩ := Act.bind_eq_ok h
    cases w with
    | object _ | pointer _ => rfl
    | _ => exact absurd hy not_refuse
  | .result t, w, b, b', x, h => by
    obtain ⟨y, b₁, hy, -⟩ := Act.bind_eq_ok h
    exact accepts_of_forms hforms t w hy

theorem accepts_of_fromWire (hrecords : sv.RecordsOnly) (t : NativeType) (w : Wire) {b b' : Boundary Ω} {x : t.Value Ω}
    (h : fromWire sv t w b = .ok x b') : t.accepts w = true :=
  accepts_of_forms hrecords.rebuildsForms t w h

end Convert
end NativeBridge
