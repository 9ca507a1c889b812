import Mathlib
import NativeBridge.Proofs.Registry.Linearization
/-!
# Member look-up in a closed registry

What `findMember?` answers in every registry that was closed after any sequence of declarations: the member of the
first class of the linearization that has a group of that name and kind.
-/
namespace NativeBridge
namespace Registry
variable {Upcast Code : Type}

/-- A class has a group of this name and kind. -/
def declares (r : Registry Upcast Code) (k : GroupKey) (c : Class) : Bool :=
  ((r.class? c).bind (·.group? k)).isSome

/-- A tag leads to the group of `k` that `c` declared. -/
def Invokes (r : Registry Upcast Code) (tag : CallTag) (c : Class) (k : GroupKey) : Prop :=
  ∃ i d, r.target tag = .ok (.member c i) ∧ r.class? c = some d ∧ d.members[i]?.map (·.key) = some k

/-! ## Closing a registry -/

/-- The exposure that closing a registry adds. -/
theorem finalize_ok {r r' : Registry Upcast Code} (hf : r.finalize = .ok r') :
    ∃ h, Hierarchy.build r.classes = .ok h ∧ r'.classes = r.classes.map (·.markReady) ∧
      r'.exposure = some (.ofDeclarations h r.classes r.functions) := by
  unfold finalize at hf
  obtain ⟨-, -, hf⟩ := bind_ok hf
  obtain ⟨h, hh, hf⟩ := bind_ok hf
  cases hf
  exact ⟨h, hh, rfl, rfl⟩

theorem keysOf_eq (r : Registry Upcast Code) (c : Class) :
    Exposure.keysOf r.classes c = ((r.class? c).map fun d => d.members.map (·.key)).getD [] := by
  unfold Exposure.keysOf Exposure.groupKeys class?
  split
  · rename_i d hd
    rw [hd]
    exact List.zipIdx_map_fst 0 _
  · rename_i hd
    rw [hd]
    rfl

theorem settled {r : Registry Upcast Code} (hr : r.WellFormed) {h : Hierarchy Upcast}
    (hh : Hierarchy.build r.classes = .ok h) :
    (Exposure.ofDeclarations h r.classes r.functions).Settled r.classes := by
  obtain ⟨hshows, hexposed⟩ := Exposure.ofDeclarations_exposes h r.classes r.functions
  refine ⟨Hierarchy.build_sound hh, fun c => ?_, fun c hc => ?_, hshows, hexposed⟩
  · rw [keysOf_eq]
    cases hd : r.class? c with
    | none => exact List.nodup_nil
    | some d => exact (hr.descriptors d (class?_mem hd).1).keys
  · rw [keysOf_eq]
    obtain ⟨rfl, -⟩ := Hierarchy.build_ok hh
    change _ ∧ (Hierarchy.ofClasses r.classes).supers c = []
    cases hd : r.class? c with
    | none =>
      refine ⟨rfl, ?_⟩
      have hnot : c ∉ r.classes.map (·.cls) := by
        intro hm
        obtain ⟨d, hdm, rfl⟩ := List.mem_map.1 hm
        rw [hr.class?_eq hdm] at hd
        cases hd
      rw [Hierarchy.supers, Hierarchy.superLinks_of_not_mem hnot]
      rfl
    | some d =>
      obtain ⟨hdm, rfl⟩ := class?_mem hd
      have hdecl : d.declared = false := by
        rw [← Bool.not_eq_true]
        exact fun ht => hc ⟨d, hd, ht⟩
      obtain ⟨hsup, hmem⟩ := (hr.descriptors d hdm).blank hdecl
      rw [Hierarchy.supers_of_mem hr.nodup hdm, hsup]
      simp [hmem]

theorem class?_finalize {r r' : Registry Upcast Code} (hc : r'.classes = r.classes.map (·.markReady)) (c : Class) :
    r'.class? c = (r.class? c).map (·.markReady) := by
  unfold class?
  rw [hc, List.find?_map]
  rfl

theorem keys_markReady (d : ClassDescriptor Upcast) : d.markReady.members.map (·.key) = d.members.map (·.key) := by
  unfold ClassDescriptor.markReady
  rw [List.map_map]
  rfl

theorem declares_finalize {r r' : Registry Upcast Code} (hc : r'.classes = r.classes.map (·.markReady)) :
    r'.declares = Exposure.declares r.classes := by
  funext k c
  rw [Bool.eq_iff_iff, Exposure.declares_iff, keysOf_eq, declares, class?_finalize hc]
  cases r.class? c with
  | none => simp
  | some d => exact ClassDescriptor.group?_isSome.trans (by rw [keys_markReady]; rfl)

theorem invokes_of_tagged {r r' : Registry Upcast Code} (hc : r'.classes = r.classes.map (·.markReady))
    {x : Exposure Upcast} (hx : r'.exposure = some x) {m : ExposedMember}
    (hm : Exposure.Tagged r.classes x.tags m) : r'.Invokes m.tag m.owner m.key := by
  obtain ⟨i, hi, ht⟩ := hm
  unfold Exposure.groupKeys at hi
  split at hi
  · rename_i d hd
    have hkey := List.mem_zipIdx_iff_getElem?.1 hi
    refine ⟨i, d.markReady, ?_, ?_, ?_⟩
    · unfold target
      rw [hx, Option.bind_some, ht]
    · rw [class?_finalize hc, class?, hd]
      rfl
    · rw [← List.getElem?_map, keys_markReady]
      exact hkey
  · cases hi

/-- **Member look-up is the linearization.** In a registry that was closed after any declarations, for every class that
is shown:
- the linearization is the class, then superclass by superclass each one's linearization, every class where it comes
  first;
- the chain of delegation ends, and the look-up along it needs no more steps than classes are shown;
- the look-up finds the member of the first class of the linearization that declares the key, and nothing if there is
  none;
- the class lists no key twice, and every static key of its linearization;
- a key that is not static and has one declaring class in the linearization is listed on exactly one class of the
  chain. -/
theorem findMember_linearizes {r r' : Registry Upcast Code} (hr : r.Reached) (hf : r.finalize = .ok r')
    {x : Exposure Upcast} (hx : r'.exposure = some x) {c : Class} {shown : ExposedClass}
    (hc : x.class? c = some shown) :
    (∀ d, r'.class? c = some d → x.hierarchy.linearization c =
      c :: ((d.supers.map (·.cls)).flatMap x.hierarchy.linearization).eraseDups) ∧
    Acc (fun parent child => x.Delegates child parent) c ∧
    (∀ (k : GroupKey) (n : Nat), x.classes.length < n →
      x.findAlong k.name k.kind n c = r'.findMember? c k.name k.kind) ∧
    (∀ k : GroupKey, match (x.hierarchy.linearization c).find? (r'.declares k) with
      | none => r'.findMember? c k.name k.kind = none
      | some owner => ∃ m, r'.findMember? c k.name k.kind = some m ∧ m.key = k ∧ m.owner = owner ∧
          r'.Invokes m.tag owner k) ∧
    (shown.members.map (·.key)).Nodup ∧
    (∀ k : GroupKey, k.kind.isStatic = true → ∀ a ∈ x.hierarchy.linearization c, r'.declares k a = true →
      k ∈ shown.members.map (·.key)) ∧
    (∀ k : GroupKey, k.kind.isStatic = false →
      (∃! a, a ∈ x.hierarchy.linearization c ∧ r'.declares k a = true) →
        ∃! d, Relation.ReflTransGen x.Delegates c d ∧
          ∃ e, x.class? d = some e ∧ k ∈ e.members.map (·.key)) := by
  obtain ⟨h, hh, hclasses, hexp⟩ := finalize_ok hf
  have hset := settled hr.wellFormed hh
  rw [hx, Option.some.injEq] at hexp
  rw [← hexp] at hset
  have hdecl := declares_finalize hclasses
  have hfind : ∀ (k : GroupKey), r'.findMember? c k.name k.kind =
      x.findAlong k.name k.kind (x.classes.length + 1) c := fun k => by
    rw [findMember?, hx]
    rfl
  have hsupers : ∀ d ∈ r.classes, x.hierarchy.supers d.cls = d.supers.map (·.cls) := fun d hd => by
    obtain ⟨rfl, -⟩ := Hierarchy.build_ok hh
    rw [hexp]
    exact Hierarchy.supers_of_mem hr.wellFormed.nodup hd
  have hcount := Exposure.shownCount_le hset c
  obtain ⟨hmem, hcls⟩ := Exposure.class?_mem hc
  have hkeys : shown.members.map (·.key) = (Exposure.shownKeys r.classes x.hierarchy c).map (·.1) := by
    rw [(hset.shows shown hmem).keys, hcls]
  rw [hdecl]
  refine ⟨?_, Exposure.delegation_ends hset c, ?_, ?_, ?_, ?_, ?_⟩
  · intro d hd
    rw [class?_finalize hclasses, Option.map_eq_some_iff] at hd
    obtain ⟨d, hd, rfl⟩ := hd
    obtain ⟨hdm, rfl⟩ := class?_mem hd
    rw [Hierarchy.linearization, Hierarchy.ancestors_eq hset.sound, hsupers d hdm]
    rfl
  · intro k n hn
    rw [hfind]
    exact Exposure.findAlong_stable hset _ _ _ _ c (by omega) (by omega)
  · intro k
    obtain ⟨hval, htag⟩ := Exposure.findAlong_eq hset k (x.classes.length + 1) c (by omega)
    rw [← hfind] at hval htag
    cases hfirst : (x.hierarchy.linearization c).find? (Exposure.declares r.classes k) with
    | none =>
      rw [hfirst, Option.map_none, Option.map_eq_none_iff] at hval
      exact hval
    | some owner =>
      rw [hfirst, Option.map_some, Option.map_eq_some_iff] at hval
      obtain ⟨m, hm, horigin⟩ := hval
      obtain ⟨hkey, howner⟩ := Prod.mk.inj horigin
      have hinv := invokes_of_tagged hclasses hx (htag m hm)
      rw [hkey, howner] at hinv
      exact ⟨m, hm, hkey, howner, hinv⟩
  · rw [hkeys]
    exact Exposure.nodup_shownKeys hset.keys c
  · intro k hk a ha hka
    rw [hkeys]
    exact Exposure.shown_of_static hk ha hka
  · intro k hk hone
    exact Exposure.listed_once hset hk hc hone

/-- Declare a class with a method and a class below it. -/
def declareShapes (shape circle : Class) : Except RegistrationError (Registry Unit Unit) := do
  let r ← (empty 16 : Registry Unit Unit).declareClass (NativeType.object shape).info
  let r ← r.declareClass (NativeType.object circle).info
  let r ← r.declareSuper circle (NativeType.object shape).info ()
  let (_, r) ← r.declareMember shape ⟨"area", .method⟩ .none (.method shape [] .unit) ⟨0⟩ ()
  return r

theorem reached_declareShapes {shape circle : Class} {r : Registry Unit Unit}
    (h : declareShapes shape circle = .ok r) : r.Reached := by
  unfold declareShapes at h
  obtain ⟨r₁, h₁, h⟩ := bind_ok h
  obtain ⟨r₂, h₂, h⟩ := bind_ok h
  obtain ⟨r₃, h₃, h⟩ := bind_ok h
  obtain ⟨⟨ref, r₄⟩, h₄, h⟩ := bind_ok h
  cases h
  exact ⟨16, .tail (.tail (.tail (.tail .refl (.cls _ h₁)) (.cls _ h₂)) (.super _ _ _ h₃)) (.member _ _ _ _ _ _ _ h₄)⟩

/-- The class below finds the method of the class above. -/
theorem findMember_shapes : ∃ r m, (declareShapes ⟨"Shape", "Shape", .word 8⟩ ⟨"Circle", "Circle", .word 8⟩ >>= finalize) =
    .ok r ∧ r.findMember? ⟨"Circle", "Circle", .word 8⟩ "area" .method = some m ∧
      m.owner = ⟨"Shape", "Shape", .word 8⟩ := by
  have hev : (declareShapes ⟨"Shape", "Shape", .word 8⟩ ⟨"Circle", "Circle", .word 8⟩ >>= finalize).map (fun r =>
      r.exposure.bind fun x => (x.class? ⟨"Circle", "Circle", .word 8⟩).bind fun _ =>
        (x.hierarchy.linearization ⟨"Circle", "Circle", .word 8⟩).find? (r.declares ⟨"area", .method⟩)) =
      .ok (some ⟨"Shape", "Shape", .word 8⟩) := by cbv
  cases hrun : declareShapes ⟨"Shape", "Shape", .word 8⟩ ⟨"Circle", "Circle", .word 8⟩ >>= finalize with
  | error e =>
    rw [hrun] at hev
    cases hev
  | ok r =>
    rw [hrun, Except.map, Except.ok.injEq] at hev
    obtain ⟨x, hx, hev⟩ := Option.bind_eq_some_iff.1 hev
    obtain ⟨shown, hc, hev⟩ := Option.bind_eq_some_iff.1 hev
    obtain ⟨r₀, hr₀, hf⟩ := bind_ok hrun
    obtain ⟨-, -, -, hlook, -⟩ := findMember_linearizes (reached_declareShapes hr₀) hf hx hc
    have harea := hlook ⟨"area", .method⟩
    rw [hev] at harea
    obtain ⟨m, hm, -, howner, -⟩ := harea
    exact ⟨r, m, rfl, hm, howner⟩

end Registry
end NativeBridge
