import NativeBridge.Proofs.Object.Identity
/-!
# Objects that a wrapper alone holds

An object that is passed to the host by value is held by its wrapper and by nothing else (`Holdings.Sole`). It stays so
whatever is done to other objects and references to them (`Holdings.Keeps`), also when more is passed to the host
(`Holdings.Sends`). For that objects refer only to objects that there are (`Holdings.Closed`), as in every state of
typed native code (`Ledger.closed_typedRun`).
-/
namespace NativeBridge
variable {Ω : Type} [ObjectModel Ω]

namespace Heap
variable {h : Heap Ω} {a : Address} {as : List Address}

/-- No object refers to the one at an address. -/
def Unreferred (h : Heap Ω) (a : Address) : Prop :=
  ∀ x ∈ h.contents, a ∉ ObjectModel.refs x.1

omit [ObjectModel Ω] in
theorem lt_of_strong (ha : 0 < h.strong a) : a < h.cells.length := by
  obtain ⟨c, hc, -⟩ := cell_of_strong ha
  exact (List.getElem?_eq_some_iff.mp hc).1

omit [ObjectModel Ω] in
theorem retain_other (h : Heap Ω) (ha : a ∉ as) : (h.retain as).cells[a]? = h.cells[a]? := by
  induction as generalizing h with
  | nil => rfl
  | cons b as ih =>
    rw [List.mem_cons, not_or] at ha
    rw [retain_cons, ih _ ha.2, modify_other h _ (Ne.symm ha.1)]

/-- Giving up references to other objects leaves an object alone to which none of them refers. -/
theorem release_other (ha : a ∉ as) (hfree : h.Unreferred a) : (h.release as).cells[a]? = h.cells[a]? := by
  -- `as` is what is still to be given up: the references of an object that dies join it
  induction h, as using Heap.release.induct with
  | case1 h => rw [release_nil]
  | case2 h b rest hc ih =>
    rw [release_dead (by rw [Heap.strong, hc]; rfl)]
    exact ih (fun h => ha (List.mem_cons_of_mem b h)) hfree
  | case3 h b rest c hc hs ih =>
    rw [release_dead (by rw [strong_of_cell hc, hs])]
    exact ih (fun h => ha (List.mem_cons_of_mem b h)) hfree
  | case4 h b rest c hc n hs inner ih =>
    rw [List.mem_cons, not_or] at ha
    have hset : h.modify b (fun c => { c with strong := n }) = ⟨h.cells.set b { c with strong := n }⟩ := modify_eq hc _
    have hrefs : a ∉ ObjectModel.refs c.object :=
      hfree (c.object, c.writing) (List.mem_of_getElem? (by rw [contents_getElem?, hc]; rfl))
    have hinner : a ∉ inner := by
      change a ∉ (if n = 0 then ObjectModel.refs c.object else [])
      split
      · exact hrefs
      · exact List.not_mem_nil
    rw [release_cons hc hs]
    refine (ih (fun hmem => (List.mem_append.mp hmem).elim hinner ha.2) ?_).trans ?_
    · have hcontents := contents_modify h b (f := fun c => { c with strong := n }) fun _ => rfl
      rw [← hset, Unreferred, hcontents]
      exact hfree
    · rw [← hset]
      exact modify_other h _ (Ne.symm ha.1)

end Heap

namespace Holdings
variable {s s' s'' : Holdings Ω} {old a : Address} {o : Ω} {as : List Address} {heap : Heap Ω}

/-- Nobody is using the object in a cell, and the only reference to it is that of a wrapper. -/
structure Sole (s : Holdings Ω) (a : Address) (o : Ω) : Prop where
  cell : s.heap.cells[a]? = some ⟨o, 1, 0, false⟩
  wrapped : ∃ h w, s.table.live? h = some w ∧ w.ownership.isStrong = true ∧ w.address = a
  unreferred : s.heap.Unreferred a

/-- Objects refer to objects that there are. -/
def Closed (s : Holdings Ω) : Prop :=
  ∀ x ∈ s.heap.contents, ∀ a ∈ ObjectModel.refs x.1, a < s.heap.cells.length

theorem closed_empty : (empty : Holdings Ω).Closed :=
  fun _ hx => nomatch hx

/-- What is put into cells refers to objects that there are then. -/
theorem Closed.put (hs : s.Closed) (hlength : s.heap.cells.length ≤ s'.heap.cells.length)
    (hput : ∀ x ∈ s'.heap.contents, x ∈ s.heap.contents ∨ ∀ a ∈ ObjectModel.refs x.1, a < s'.heap.cells.length) :
    s'.Closed := by
  intro x hx a ha
  rcases hput x hx with hx | hx
  · exact Nat.lt_of_lt_of_le (hs x hx a ha) hlength
  · exact hx a ha

theorem Closed.of_contents (hs : s.Closed) (hcontents : s'.heap.contents = s.heap.contents) : s'.Closed := by
  have hlength := congrArg List.length hcontents
  rw [Heap.contents, Heap.contents, List.length_map, List.length_map] at hlength
  exact hs.put (Nat.le_of_eq hlength.symm) fun x hx => .inl (hcontents ▸ hx)

theorem Closed.alloc (hs : s.Closed) (ho : ∀ a ∈ ObjectModel.refs o, a < s.heap.cells.length) :
    Closed { s with heap := (s.heap.alloc o).2 } := by
  have hlength : (s.heap.alloc o).2.cells.length = s.heap.cells.length + 1 := List.length_append
  refine hs.put (hlength ▸ Nat.le_succ _) fun x hx => ?_
  rw [Heap.contents_alloc, List.mem_append, List.mem_singleton] at hx
  refine hx.imp_right ?_
  rintro rfl a ha
  exact hlength ▸ Nat.lt_succ_of_lt (ho a ha)

theorem Closed.set (hs : s.Closed) (ho : ∀ a ∈ ObjectModel.refs o, a < s.heap.cells.length) (a : Address) {c : Cell Ω}
    (hc : c.object = o) : Closed { s with heap := ⟨s.heap.cells.set a c⟩ } := by
  have hlength : (s.heap.cells.set a c).length = s.heap.cells.length := List.length_set
  refine hs.put (Nat.le_of_eq hlength.symm) fun x hx => ?_
  obtain ⟨d, hd, rfl⟩ := List.mem_map.mp hx
  rcases List.mem_or_eq_of_mem_set hd with hd | rfl
  · exact .inl (List.mem_map_of_mem hd)
  · exact .inr fun b hb => hlength ▸ ho b (hc ▸ hb)

theorem Closed.store (hs : s.Closed) (ho : ∀ a ∈ ObjectModel.refs o, a < s.heap.cells.length) (a : Address) :
    Closed { s with heap := s.heap.store a o } := by
  unfold Heap.store
  split
  · rename_i c hc
    have hretained : Closed { s with heap := s.heap.retain (ObjectModel.refs o) } :=
      hs.of_contents (Heap.contents_retain _ _)
    have hset := hretained.set (fun b hb => (Heap.length_retain s.heap _).symm ▸ ho b hb) a
      (c := { c with object := o, strong := c.strong + (ObjectModel.refs o).count a }) rfl
    rw [Heap.modify_eq (Heap.retain_cell hc _)]
    exact hset.of_contents (Heap.contents_release _ _)
  · exact hs

theorem Closed.letGo (hs : s.Closed) (h : Handle) : (s.letGo h).Closed := by
  cases hv : s.table.live? h with
  | none => rwa [letGo_dead hv]
  | some v =>
    rw [letGo_live hv]
    exact hs.of_contents (Heap.contents_release _ _)

theorem Closed.letGo_all (hs : s.Closed) (gs : List Handle) : (gs.foldl Holdings.letGo s).Closed := by
  induction gs generalizing s with
  | nil => exact hs
  | cons g gs ih => exact ih (hs.letGo g)

theorem Closed.unreferred (hs : s.Closed) (ha : s.heap.cells.length ≤ a) : s.heap.Unreferred a :=
  fun x hx hmem => absurd (hs x hx a hmem) (Nat.not_lt.mpr ha)

theorem Sole.lt (h : s.Sole a o) : a < s.heap.cells.length :=
  (List.getElem?_eq_some_iff.mp h.cell).1

/-! ## What later steps keep -/

/-- The wrappers that keep the object at an address alive are there later on, and if it was made after `old` and a
wrapper alone holds it, it is as it was. -/
structure Keeps (old : Address) (s s' : Holdings Ω) (a : Address) : Prop where
  live : ∀ h w, s.table.live? h = some w → w.ownership.isStrong = true → w.address = a → s'.table.live? h = some w
  sole : old ≤ a → ∀ o, s.Sole a o → s'.Sole a o

theorem Keeps.refl (old : Address) (s : Holdings Ω) (a : Address) : s.Keeps old s a :=
  ⟨fun _ _ hw _ _ => hw, fun _ _ => id⟩

theorem Keeps.trans (h : s.Keeps old s' a) (h' : s'.Keeps old s'' a) : s.Keeps old s'' a where
  live g w hw hstrong ha := h'.live g w (h.live g w hw hstrong ha) hstrong ha
  sole hold o ho := h'.sole hold o (h.sole hold o ho)

/-- What is kept if the table is. -/
theorem Keeps.of_heap (hcell : old ≤ a → ∀ o, s.Sole a o → heap.cells[a]? = s.heap.cells[a]?)
    (hfree : old ≤ a → ∀ o, s.Sole a o → heap.Unreferred a) : s.Keeps old { s with heap } a where
  live _ _ hw _ _ := hw
  sole hold o ho := ⟨(hcell hold o ho).trans ho.cell, ho.wrapped, hfree hold o ho⟩

theorem Keeps.of_contents (hcontents : heap.contents = s.heap.contents)
    (hcell : old ≤ a → ∀ o, s.Sole a o → heap.cells[a]? = s.heap.cells[a]?) : s.Keeps old { s with heap } a := by
  refine .of_heap hcell fun _ _ ho => ?_
  rw [Heap.Unreferred, hcontents]
  exact ho.unreferred

theorem keeps_retain (has : old ≤ a → a ∉ as) : s.Keeps old (s.retain as) a :=
  .of_contents (Heap.contents_retain _ _) fun hold _ _ => Heap.retain_other _ (has hold)

theorem keeps_drop (has : old ≤ a → ∀ o, s.Sole a o → a ∉ as) : s.Keeps old (s.drop as) a :=
  .of_contents (Heap.contents_release _ _) fun hold o ho => Heap.release_other (has hold o ho) ho.unreferred

theorem keeps_modify {b : Address} {f : Cell Ω → Cell Ω} (hne : b ≠ a)
    (hf : ∀ c, ((f c).object, (f c).writing) = (c.object, c.writing)) :
    s.Keeps old { s with heap := s.heap.modify b f } a :=
  .of_contents (Heap.contents_modify _ _ hf) fun _ _ _ => Heap.modify_other _ f hne

/-- A new object that refers to old ones only. -/
theorem keeps_alloc (ho : ∀ b ∈ ObjectModel.refs o, b < old) : s.Keeps old { s with heap := (s.heap.alloc o).2 } a := by
  refine .of_heap (fun _ _ ha => List.getElem?_append_left ha.lt) fun hold _ ha x hx => ?_
  rw [Heap.contents_alloc, List.mem_append, List.mem_singleton] at hx
  rcases hx with hx | rfl
  · exact ha.unreferred x hx
  · exact fun hmem => absurd (ho a hmem) (Nat.not_lt.mpr hold)

/-- A new object that is moved out again. -/
theorem keeps_alloc_vacate (ho : ∀ b ∈ ObjectModel.refs o, b < old) :
    s.Keeps old { s with heap := (s.heap.alloc o).2.vacate s.heap.cells.length } a where
  live _ _ hw _ _ := hw
  sole hold o' ha :=
    (keeps_modify (f := fun c => { c with strong := 0 }) (Nat.ne_of_gt ha.lt) fun _ => rfl).sole hold o'
      ((keeps_alloc ho).sole hold o' ha)

theorem keeps_moveOut {h : Handle} {v : Wrapper} (hv : s.table.live? h = some v) (hne : a ≠ v.address) :
    s.Keeps old (s.moveOut h v) a := by
  have hlive (g : Handle) (w : Wrapper) (hw : s.table.live? g = some w) (ha : w.address = a) :
      (s.moveOut h v).table.live? g = some w := by
    refine (ObjectTable.live?_remove hv g).trans ((if_neg ?_).trans hw)
    rintro rfl
    rw [hw] at hv
    cases hv
    exact hne ha.symm
  refine ⟨fun g w hw _ ha => hlive g w hw ha, fun _ o ho => ⟨?_, ?_, ?_⟩⟩
  · exact (Heap.modify_other _ _ (Ne.symm hne)).trans ho.cell
  · obtain ⟨g, w, hw, hstrong, ha⟩ := ho.wrapped
    exact ⟨g, w, hlive g w hw ha, hstrong, ha⟩
  · change Heap.Unreferred (s.heap.vacate v.address) a
    rw [Heap.Unreferred, Heap.contents_vacate]
    exact ho.unreferred

/-! ## Passing more to the host -/

/-- What passing values to the host does to what was passed to it after `old`: nothing. -/
structure Sends (old : Address) (s s' : Holdings Ω) : Prop extends s.Undisturbed s' where
  closed : s.Closed → s'.Closed
  sole : ∀ a o, old ≤ a → s.Sole a o → s'.Sole a o

theorem Sends.refl (old : Address) (s : Holdings Ω) : s.Sends old s :=
  ⟨.refl s, id, fun _ _ _ => id⟩

theorem Sends.trans (h : s.Sends old s') (h' : s'.Sends old s'') : s.Sends old s'' :=
  ⟨h.toUndisturbed.trans h'.toUndisturbed, h'.closed ∘ h.closed, fun a o hold ho => h'.sole a o hold (h.sole a o hold ho)⟩

theorem Sends.keeps (h : s.Sends old s') (a : Address) : s.Keeps old s' a :=
  ⟨fun g w hw hstrong _ => h.live g w hw hstrong, fun hold o ho => h.sole a o hold ho⟩

theorem Sends.length_le (h : s.Sends old s') : s.heap.cells.length ≤ s'.heap.cells.length := by
  have hlength := h.contents.length_le
  rwa [Heap.contents, Heap.contents, List.length_map, List.length_map] at hlength

theorem Sends.of_contents (hcontents : heap.contents = s.heap.contents)
    (hkeeps : ∀ a, s.Keeps old { s with heap } a) : s.Sends old { s with heap } :=
  ⟨.of_table (hcontents ▸ List.prefix_rfl) rfl, fun hs => hs.of_contents hcontents,
    fun a o hold ho => (hkeeps a).sole hold o ho⟩

theorem sends_retain (has : ∀ a ∈ as, a < old) : s.Sends old (s.retain as) :=
  .of_contents (Heap.contents_retain _ _) fun _ => keeps_retain fun hold ha => absurd (has _ ha) (Nat.not_lt.mpr hold)

theorem sends_drop (has : ∀ a ∈ as, a < old) : s.Sends old (s.drop as) :=
  .of_contents (Heap.contents_release _ _) fun _ =>
    keeps_drop fun hold _ _ ha => absurd (has _ ha) (Nat.not_lt.mpr hold)

theorem sends_alloc (hold : old ≤ s.heap.cells.length) (ho : ∀ b ∈ ObjectModel.refs o, b < old) :
    s.Sends old { s with heap := (s.heap.alloc o).2 } := by
  have hcontents := Heap.contents_alloc s.heap o
  refine ⟨.of_table (by rw [hcontents]; exact List.prefix_append _ _) rfl, fun hs => ?_,
    fun a o' holda ha => (keeps_alloc ho).sole holda o' ha⟩
  exact hs.alloc fun b hb => Nat.lt_of_lt_of_le (ho b hb) hold

/-- A pointer is wrapped to an old object, or to one that no wrapper has. -/
theorem sends_wrap (hs : s.Ready) {p : Pointer} (hclass : s.heap.classAt? p.address = some p.cls)
    (hp : old ≤ p.address → ∀ o, ¬s.Sole p.address o) (owned : Bool) (flags : TypeFlags) :
    s.Sends old (s.wrap p owned flags).2 := by
  have hwrap := hs.wrap hclass owned flags
  have hcontents := contents_wrap hs.sound p owned flags
  refine ⟨hwrap, fun h => h.of_contents hcontents, fun a o hold ho => ⟨?_, ?_, ?_⟩⟩
  · refine Eq.trans ?_ ho.cell
    rcases wrap_heap hs.sound p owned flags with h | h <;> rw [h]
    refine Heap.release_other (fun ha => ?_) ho.unreferred
    obtain rfl : a = p.address := by
      unfold Pointer.refs at ha
      split at ha
      · cases ha
      · exact List.mem_singleton.mp ha
    exact hp hold o ho
  · obtain ⟨g, w, hw, hstrong, ha⟩ := ho.wrapped
    exact ⟨g, w, hwrap.live g w hw hstrong, hstrong, ha⟩
  · rw [Heap.Unreferred, hcontents]
    exact ho.unreferred

/-- **A new object that is wrapped is held by its wrapper alone.** -/
theorem sole_wrap (hs : s.Ready) (hclosed : s.Closed) (hold : old ≤ s.heap.cells.length)
    (ho : ∀ b ∈ ObjectModel.refs o, b < old) {p : Pointer} (hp : p.address = s.heap.cells.length)
    (hstrong : p.weak = false) (owned : Bool) (flags : TypeFlags) :
    (({ s with heap := (s.heap.alloc o).2 } : Holdings Ω).wrap p owned flags).2.Sole p.address o := by
  have hfresh (h : Handle) (v : Wrapper) (hv : s.table.live? h = some v) : v.address ≠ p.address :=
    fun haddress => Nat.ne_of_lt (hs.address_lt hv) (haddress.trans hp)
  rw [wrap_unknown (s := { s with heap := (s.heap.alloc o).2 }) hs.sound hfresh, wrapNew_eq]
  refine ⟨by rw [hp]; exact List.getElem?_concat_length, ⟨_, _, (hs.sound.live?_enter _ _).trans (if_pos rfl), ?_, rfl⟩,
    fun x hx => ?_⟩
  · rw [Wrapper.isStrong_bound, hstrong]
    rfl
  · rw [Heap.contents_alloc, List.mem_append, List.mem_singleton] at hx
    rcases hx with hx | rfl
    · exact hclosed.unreferred (Nat.le_of_eq hp.symm) x hx
    · exact fun hmem => absurd (ho _ hmem) (Nat.not_lt.mpr (hp ▸ hold))

end Holdings

/-! ## Typed runs -/

namespace Ledger
variable {w : Ledger Ω}

theorem Balanced.lt_of_covers (hw : w.Balanced) {as : List Address} (has : covers w.held as = true) :
    ∀ a ∈ as, a < w.heap.cells.length := by
  intro a ha
  have halive := Heap.Counts.alive (hw.give has) (List.mem_append_left _ (List.mem_append_right _ ha))
  exact Heap.lt_of_strong halive

theorem Balanced.closed_advance (hw : w.Balanced) (hclosed : w.Closed) {e : Event Ω} (he : w.enabled e = true) :
    (w.advance e).Closed := by
  cases e with
  | make o => exact hclosed.alloc (hw.lt_of_covers he)
  | reuse a o =>
    simp only [enabled, Bool.and_eq_true] at he
    exact hclosed.set (hw.lt_of_covers he.1.1.1) a rfl
  | clone a => exact hclosed.of_contents (Heap.contents_retain _ _)
  | drop a => exact hclosed.of_contents (Heap.contents_release _ _)
  | store a o =>
    rw [enabled, Bool.and_eq_true, List.all_eq_true] at he
    exact hclosed.store (fun b hb => Heap.lt_of_strong (Heap.isAlive_iff.mp (he.2 b hb))) a
  | unwrap c a =>
    have hcell : (w.takeCell c a).2.Closed := hclosed.of_contents (Holdings.contents_takeCell w.toHoldings c a)
    rw [Ledger.advance]
    split
    · rename_i heq
      rwa [heq] at hcell
    · rename_i heq
      rwa [heq] at hcell
  | wrap p owned flags => exact hclosed.of_contents (Holdings.contents_wrap hw.sound p owned flags)
  | release h => exact hclosed.letGo h
  | takeUnique h =>
    rw [Ledger.advance]
    split
    · rename_i a s heq
      obtain ⟨v, hv, -, -, -, -, rfl⟩ := Holdings.takeUnique_ok heq
      exact hclosed.of_contents ((Heap.contents_release _ _).trans (Heap.contents_retain _ _))
    · exact hclosed
  | clear =>
    rw [Ledger.advance, Holdings.clear_eq hw.sound]
    exact hclosed.letGo_all _

/-- **In every state of typed native code objects refer to objects that there are.** -/
theorem closed_typedRun (es : List (Event Ω)) : (typedRun es).Closed := by
  have hrun : ∀ w : Ledger Ω, w.Balanced → w.Closed → (es.foldl typedStep w).Closed := by
    induction es with
    | nil => exact fun w _ hclosed => hclosed
    | cons e es ih =>
      refine fun w hw hclosed => ih _ (balanced_typedStep hw e) ?_
      rw [typedStep, step]
      split
      · split
        · rename_i he
          exact hw.closed_advance hclosed he
        · exact hclosed
      · exact hclosed
  exact hrun empty balanced_empty Holdings.closed_empty

end Ledger
end NativeBridge
