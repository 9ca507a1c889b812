import NativeBridge.Proofs.Object.References
import NativeBridge.Proofs.Object.Sound
/-!
# What later steps leave undisturbed

A step leaves the holdings undisturbed if every object is still in its cell and every wrapper that keeps its object
alive is still there (`Holdings.Undisturbed`). Cells may be added, references counted and given up, and new wrappers
made: wrapping an object under its own class disturbs nothing (`Holdings.Ready.wrap`).
-/
namespace NativeBridge
variable {Ω : Type} [ObjectModel Ω]

namespace Heap
variable {h h' : Heap Ω} {a : Address}

/-- The object of each cell, and whether it is being written. -/
def contents (h : Heap Ω) : List (Ω × Bool) :=
  h.cells.map fun c => (c.object, c.writing)

section
omit [ObjectModel Ω]

theorem contents_getElem? (h : Heap Ω) (a : Address) :
    h.contents[a]? = h.cells[a]?.map fun c => (c.object, c.writing) :=
  List.getElem?_map

theorem contents_modify (h : Heap Ω) (a : Address) {f : Cell Ω → Cell Ω}
    (hf : ∀ c, ((f c).object, (f c).writing) = (c.object, c.writing)) : (h.modify a f).contents = h.contents := by
  refine List.ext_getElem? fun i => ?_
  rw [contents_getElem?, contents_getElem?, modify, List.getElem?_modify]
  cases h.cells[i]? with
  | none => rfl
  | some c =>
    refine congrArg some ?_
    dsimp only
    split
    · exact hf c
    · rfl

theorem contents_retain (h : Heap Ω) (as : List Address) : (h.retain as).contents = h.contents := by
  induction as generalizing h with
  | nil => rfl
  | cons a as ih =>
    rw [retain_cons, ih]
    exact contents_modify h a fun _ => rfl

theorem contents_alloc (h : Heap Ω) (o : Ω) : (h.alloc o).2.contents = h.contents ++ [(o, false)] :=
  List.map_append

/-- An object that is there stays what it is while the cells only grow. -/
theorem contents_kept (hgrows : h.contents <+: h'.contents) {x : Ω × Bool} (hx : h.contents[a]? = some x) :
    h'.contents[a]? = some x := by
  obtain ⟨hlt, rfl⟩ := List.getElem?_eq_some_iff.mp hx
  exact List.prefix_iff_getElem?.mp hgrows a hlt

end

theorem contents_release (h : Heap Ω) (as : List Address) : (h.release as).contents = h.contents := by
  induction h, as using Heap.release.induct with
  | case1 h => rw [release_nil]
  | case2 h a rest hc ih => rwa [release_dead (by rw [Heap.strong, hc]; rfl)]
  | case3 h a rest c hc hs ih => rwa [release_dead (by rw [strong_of_cell hc, hs])]
  | case4 h a rest c hc n hs inner ih =>
    rw [release_cons hc hs]
    refine ih.trans ?_
    rw [← modify_eq hc fun c => { c with strong := n }]
    exact contents_modify h a fun _ => rfl

theorem classAt?_eq_contents (h : Heap Ω) (a : Address) :
    h.classAt? a = h.contents[a]?.map fun x => ObjectModel.classOf x.1 := by
  rw [classAt?, contents_getElem?, Option.map_map]
  rfl

theorem classAt?_kept (hgrows : h.contents <+: h'.contents) {c : Class} (hc : h.classAt? a = some c) :
    h'.classAt? a = some c := by
  rw [classAt?_eq_contents, Option.map_eq_some_iff] at hc ⊢
  obtain ⟨x, hx, rfl⟩ := hc
  exact ⟨x, contents_kept hgrows hx, rfl⟩

end Heap

namespace Holdings
variable {s s' s'' : Holdings Ω} {p : Pointer} {owned : Bool} {flags : TypeFlags}

/-- The table is sound, and every wrapper is known by the class of its object: so it is as long as pointers are typed. -/
structure Ready (s : Holdings Ω) : Prop where
  sound : s.table.Sound
  typed : ∀ h w, s.table.live? h = some w → s.heap.classAt? w.address = some w.cls

/-- The objects that there were are in their cells, and the wrappers that keep one alive are there. -/
structure Undisturbed (s s' : Holdings Ω) : Prop where
  contents : s.heap.contents <+: s'.heap.contents
  live : ∀ h w, s.table.live? h = some w → w.ownership.isStrong = true → s'.table.live? h = some w
  ready : s.Ready → s'.Ready

theorem ready_empty : (empty : Holdings Ω).Ready where
  sound := ObjectTable.sound_empty
  typed h w hw := by simp [empty, ObjectTable.empty, ObjectTable.live?] at hw

theorem Undisturbed.refl (s : Holdings Ω) : s.Undisturbed s :=
  ⟨List.prefix_rfl, fun _ _ hw _ => hw, id⟩

theorem Undisturbed.trans (h : s.Undisturbed s') (h' : s'.Undisturbed s'') : s.Undisturbed s'' :=
  ⟨h.contents.trans h'.contents, fun g w hw hstrong => h'.live g w (h.live g w hw hstrong) hstrong, h'.ready ∘ h.ready⟩

theorem Undisturbed.of_table (hcontents : s.heap.contents <+: s'.heap.contents) (htable : s'.table = s.table) :
    s.Undisturbed s' where
  contents := hcontents
  live h w hw _ := htable ▸ hw
  ready hs := by
    refine ⟨htable ▸ hs.sound, fun h w hw => ?_⟩
    rw [htable] at hw
    exact Heap.classAt?_kept hcontents (hs.typed h w hw)

theorem length_takeCell (s : Holdings Ω) (c : Class) (a : Address) :
    (s.takeCell c a).2.heap.cells.length = s.heap.cells.length := by
  unfold takeCell
  split
  · rfl
  split
  · exact Heap.length_release ..
  split
  · exact List.length_modify ..
  · exact Heap.length_release ..

/-! ## Wrapping -/

theorem length_wrap (s : Holdings Ω) (p : Pointer) (owned : Bool) (flags : TypeFlags) :
    (s.wrap p owned flags).2.heap.cells.length = s.heap.cells.length := by
  unfold wrap
  dsimp only
  split
  · rfl
  split
  · split
    · split
      · rfl
      · exact Heap.length_release ..
    · unfold discard
      dsimp only
      split
      · exact Heap.length_release ..
      · rfl
  · rfl

theorem contents_wrap (hs : s.table.Sound) (p : Pointer) (owned : Bool) (flags : TypeFlags) :
    (s.wrap p owned flags).2.heap.contents = s.heap.contents := by
  rcases wrap_heap hs p owned flags with h | h <;> rw [h]
  exact Heap.contents_release _ _

/-- A wrapper that keeps its object alive stays as it is when a pointer is wrapped. -/
theorem live_wrap (hs : s.table.Sound) {h : Handle} {w : Wrapper} (hw : s.table.live? h = some w)
    (hstrong : w.ownership.isStrong = true) : (s.wrap p owned flags).2.table.live? h = some w := by
  -- Only borrowed wrappers are changed or replaced, and this one is not borrowed.
  have hother {g : Handle} {v : Wrapper} (hv : s.table.live? g = some v) (hborrowed : v.ownership = .borrowed) :
      h ≠ g := by
    rintro rfl
    rw [hw] at hv
    cases hv
    rw [hborrowed] at hstrong
    cases hstrong
  have hwraps := wraps hs p owned flags
  generalize s.wrap p owned flags = r at hwraps ⊢
  cases hwraps with
  | fresh hnew =>
    rw [wrapNew_eq, hs.live?_enter, if_neg]
    · exact hw
    · rintro rfl
      rw [hs.live?_allocate] at hw
      cases hw
  | kept hv hkey halive => exact hw
  | promoted hv hkey halive hborrowed =>
    rw [ObjectTable.live?_setWrapper hv, if_neg (hother hv hborrowed)]
    exact hw
  | @replaced g v hv hkey hdead hborrowed =>
    have hkept : (s.table.remove g v).live? h = some w := by
      rw [ObjectTable.live?_remove hv, if_neg (hother hv hborrowed)]
      exact hw
    rw [wrapNew_eq, (hs.remove hv).live?_enter, if_neg]
    · exact hkept
    · rintro rfl
      rw [(hs.remove hv).live?_allocate] at hkept
      cases hkept

/-- A wrapper that is there after a pointer was wrapped is new, or has the class and the address of one before. -/
theorem typed_wrap (hs : s.table.Sound) {h : Handle} {w : Wrapper}
    (hw : (s.wrap p owned flags).2.table.live? h = some w) :
    (w.cls = p.cls ∧ w.address = p.address) ∨
      ∃ g v, s.table.live? g = some v ∧ w.cls = v.cls ∧ w.address = v.address := by
  have hwraps := wraps hs p owned flags
  generalize s.wrap p owned flags = r at hwraps hw
  cases hwraps with
  | fresh hnew =>
    rw [wrapNew_eq, hs.live?_enter] at hw
    split at hw
    · cases hw
      exact .inl ⟨rfl, rfl⟩
    · exact .inr ⟨h, w, hw, rfl, rfl⟩
  | kept hv => exact .inr ⟨h, w, hw, rfl, rfl⟩
  | promoted hv =>
    rw [ObjectTable.live?_setWrapper hv] at hw
    split at hw
    · cases hw
      exact .inr ⟨_, _, hv, rfl, rfl⟩
    · exact .inr ⟨h, w, hw, rfl, rfl⟩
  | replaced hv =>
    rw [wrapNew_eq, (hs.remove hv).live?_enter, ObjectTable.live?_remove hv] at hw
    split at hw
    · cases hw
      exact .inl ⟨rfl, rfl⟩
    · split at hw
      · cases hw
      · exact .inr ⟨h, w, hw, rfl, rfl⟩

/-- **Wrapping an object under its own class disturbs nothing.** -/
theorem Ready.wrap (hs : s.Ready) (hp : s.heap.classAt? p.address = some p.cls) (owned : Bool) (flags : TypeFlags) :
    s.Undisturbed (s.wrap p owned flags).2 where
  contents := contents_wrap hs.sound p owned flags ▸ List.prefix_rfl
  live _ _ hw hstrong := live_wrap hs.sound hw hstrong
  ready _ := by
    refine ⟨sound_wrap hs.sound p owned flags, fun h w hw => ?_⟩
    have hclass : s.heap.classAt? w.address = some w.cls := by
      rcases typed_wrap hs.sound hw with ⟨hcls, haddress⟩ | ⟨g, v, hv, hcls, haddress⟩
      · rw [hcls, haddress]
        exact hp
      · rw [hcls, haddress]
        exact hs.typed g v hv
    exact Heap.classAt?_kept (contents_wrap hs.sound p owned flags ▸ List.prefix_rfl) hclass

/-- The handle that is given for a strong pointer names a wrapper that keeps the object alive. -/
theorem strong_wrap (hs : s.table.Sound) (hp : p.weak = false) (owned : Bool) (flags : TypeFlags) :
    ∃ w, (s.wrap p owned flags).2.table.live? (s.wrap p owned flags).1 = some w ∧ w.ownership.isStrong = true ∧
      w.key = ⟨p.address, flags.contains .const⟩ := by
  have hbound : (Wrapper.bound p owned flags).ownership.isStrong = true := by
    rw [Wrapper.isStrong_bound, hp]
    rfl
  have hwraps := wraps hs p owned flags
  rw [← Wrapper.key_bound p owned flags]
  generalize s.wrap p owned flags = r at hwraps ⊢
  cases hwraps with
  | fresh hnew => exact ⟨_, (hs.live?_enter _ _).trans (if_pos rfl), hbound, rfl⟩
  | kept hv hkey halive hstrong =>
    refine ⟨_, hv, hstrong.resolve_left ?_, hkey⟩
    rw [hp]
    exact Bool.false_ne_true
  | promoted hv hkey =>
    exact ⟨_, (ObjectTable.live?_setWrapper hv _ _).trans (if_pos rfl), rfl, (Wrapper.key_promoted _).trans hkey⟩
  | replaced hv => exact ⟨_, ((hs.remove hv).live?_enter _ _).trans (if_pos rfl), hbound, rfl⟩

end Holdings
end NativeBridge
