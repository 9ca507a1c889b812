import NativeBridge.Proofs.Call.Unique
/-!
# What a conversion demands

A conversion to a consuming type demands some handles, each for an object of a class (`Convert.demands`). It succeeds
just when the objects can be moved out of them one after another (`Access.Moved`), and what it has changed then are
those wrappers and cells (`Convert.moved_of_fromWire`, `Convert.fromWire_of_moved`). In the states that typed native
code reaches the moves do not get into each other's way unless a handle is demanded twice (`Access.exists_moved`), so the
pre-check could be exact; it is, except that it overlooks a handle that is demanded twice and a value that is not an
array where one is asked for (`Convert.precheck_exact_iff`).
-/
namespace NativeBridge
variable {Ω : Type} [ObjectModel Ω]

open Act ObjectTable

omit [ObjectModel Ω] in
theorem Heap.object?_of_contents {h h' : Heap Ω} (hcontents : h'.contents = h.contents) (a : Address) :
    h'.object? a = h.object? a := by
  have hobject (h : Heap Ω) : h.object? a = h.contents[a]?.map (·.1) := by
    rw [object?, contents_getElem?, Option.map_map]
    rfl
  rw [hobject, hobject, hcontents]

omit [ObjectModel Ω] in
theorem Heap.object?_vacate (h : Heap Ω) (a b : Address) : (h.vacate a).object? b = h.object? b :=
  object?_of_contents (contents_vacate h a) b

theorem Holdings.table_letGo_all {s s' : Holdings Ω} (htable : s.table = s'.table) (hs : List Handle) :
    (hs.foldl letGo s).table = (hs.foldl letGo s').table := by
  induction hs generalizing s s' with
  | nil => exact htable
  | cons h hs ih =>
    refine ih ?_
    cases hv : s.table.live? h with
    | none => rw [letGo_dead hv, letGo_dead (htable ▸ hv), htable]
    | some v => rw [letGo_live hv, letGo_live (htable ▸ hv), htable]

namespace Access

/-! ## Moves one after another -/

/-- A move: which class was asked for of which handle, and the wrapper and the object that were found. -/
structure Move (Ω : Type) [ObjectModel Ω] where
  cls : Class
  handle : Handle
  wrapper : Wrapper
  object : Instance Ω cls

namespace Move

def demand (m : Move Ω) : Class × Handle :=
  (m.cls, m.handle)

def taken (m : Move Ω) : (c : Class) × Instance Ω c :=
  ⟨m.cls, m.object⟩

end Move

/-- The moves are made one after another, each out of a wrapper that its object can be moved out of by then. -/
inductive Moved (receiver : Option Handle) : Holdings Ω → List (Move Ω) → Holdings Ω → Prop
  | nil (s : Holdings Ω) : Moved receiver s [] s
  | cons {s s' : Holdings Ω} {m : Move Ω} {ms : List (Move Ω)}
    (hmovable : Movable receiver s m.cls m.handle m.wrapper)
    (hobject : s.heap.object? m.wrapper.address = some m.object.object)
    (hrest : Moved receiver (s.moveOut m.handle m.wrapper) ms s') : Moved receiver s (m :: ms) s'

variable {receiver : Option Handle} {s s' s'' : Holdings Ω} {c d : Class} {g h : Handle} {v w : Wrapper}

omit [ObjectModel Ω] in
theorem Movable.before (hv : s.table.live? h = some v) (hw : Movable receiver (s.moveOut h v) d g w) :
    g ≠ h ∧ w.address ≠ v.address ∧ Movable receiver s d g w := by
  have hlive := hw.live
  rw [Holdings.moveOut, live?_remove hv] at hlive
  have hsole := hw.sole
  rw [Holdings.moveOut, Heap.strong_vacate] at hsole
  have hne : g ≠ h := by
    rintro rfl
    rw [if_pos rfl] at hlive
    cases hlive
  have haddress : w.address ≠ v.address := by
    intro heq
    rw [if_pos heq] at hsole
    cases hsole
  rw [if_neg hne] at hlive
  rw [if_neg haddress] at hsole
  exact ⟨hne, haddress, hlive, hw.cls, hw.receiver, hw.const, hw.strong, hsole⟩

/-- Moves do not get into each other's way. -/
theorem Movable.after (hs : s.Coherent) (hv : Movable receiver s c h v) (hw : Movable receiver s d g w) (hne : g ≠ h) :
    Movable receiver (s.moveOut h v) d g w := by
  have haddress : w.address ≠ v.address := by
    intro heq
    have hborrowed := hs.sole hv.live hv.strong hv.sole hw.live hne heq
    have hstrong := hw.strong
    rw [hborrowed] at hstrong
    cases hstrong
  refine ⟨?_, hw.cls, hw.receiver, hw.const, hw.strong, ?_⟩
  · rw [Holdings.moveOut, live?_remove hv.live, if_neg hne]
    exact hw.live
  · rw [Holdings.moveOut, Heap.strong_vacate, if_neg haddress]
    exact hw.sole

namespace Moved
variable {ms ns : List (Move Ω)}

theorem append (h : Moved receiver s ms s') (h' : Moved receiver s' ns s'') : Moved receiver s (ms ++ ns) s'' := by
  induction h with
  | nil => exact h'
  | cons hmovable hobject _ ih => exact .cons hmovable hobject (ih h')

theorem of_append (h : Moved receiver s (ms ++ ns) s'') : ∃ s', Moved receiver s ms s' ∧ Moved receiver s' ns s'' := by
  induction ms generalizing s with
  | nil => exact ⟨s, .nil s, h⟩
  | cons m ms ih =>
    cases h with
    | cons hmovable hobject hrest =>
      obtain ⟨s', hms, hns⟩ := ih hrest
      exact ⟨s', .cons hmovable hobject hms, hns⟩

theorem movable (h : Moved receiver s ms s') : ∀ m ∈ ms, Movable receiver s m.cls m.handle m.wrapper ∧
    s.heap.object? m.wrapper.address = some m.object.object := by
  induction h with
  | nil => exact fun m hm => nomatch hm
  | cons hmovable hobject _ ih =>
    intro n hn
    rcases List.mem_cons.mp hn with rfl | hn
    · exact ⟨hmovable, hobject⟩
    · obtain ⟨hn, ho⟩ := ih n hn
      rw [Holdings.moveOut, Heap.object?_vacate] at ho
      exact ⟨(hn.before hmovable.live).2.2, ho⟩

/-- No handle is moved out of twice, and no object is moved twice. -/
theorem nodup (h : Moved receiver s ms s') : (ms.map (·.handle)).Nodup ∧ (ms.map (·.wrapper.address)).Nodup := by
  induction h with
  | nil => exact ⟨.nil, .nil⟩
  | @cons s s' m ms hmovable hobject hrest ih =>
    have hlater (n : Move Ω) (hn : n ∈ ms) : n.handle ≠ m.handle ∧ n.wrapper.address ≠ m.wrapper.address := by
      obtain ⟨hhandle, haddress, -⟩ := (hrest.movable n hn).1.before hmovable.live
      exact ⟨hhandle, haddress⟩
    rw [List.map_cons, List.map_cons, List.nodup_cons, List.nodup_cons]
    refine ⟨⟨fun hm => ?_, ih.1⟩, fun hm => ?_, ih.2⟩
    · obtain ⟨n, hn, heq⟩ := List.mem_map.mp hm
      exact (hlater n hn).1 heq
    · obtain ⟨n, hn, heq⟩ := List.mem_map.mp hm
      exact (hlater n hn).2 heq

theorem table (h : Moved receiver s ms s') : s'.table = ((ms.map (·.handle)).foldl Holdings.letGo s).table := by
  induction h with
  | nil => rfl
  | cons hmovable _ _ ih =>
    rw [ih, List.map_cons, List.foldl_cons]
    refine Holdings.table_letGo_all ?_ _
    rw [Holdings.letGo_live hmovable.live]
    rfl

end Moved

/-- What can be moved out can be moved out one after another, as long as nothing is demanded twice. -/
theorem exists_moved (hs : s.Coherent) {ds : List (Class × Handle)} (hnodup : (ds.map Prod.snd).Nodup)
    (hmovable : ∀ e ∈ ds, ∃ v, Movable receiver s e.1 e.2 v) :
    ∃ ms s', ms.map Move.demand = ds ∧ Moved receiver s ms s' := by
  induction ds generalizing s with
  | nil => exact ⟨[], s, rfl, .nil s⟩
  | cons e ds ih =>
    obtain ⟨c, h⟩ := e
    obtain ⟨v, hv⟩ := hmovable (c, h) List.mem_cons_self
    obtain ⟨x, hx⟩ := hv.object hs
    rw [List.map_cons, List.nodup_cons] at hnodup
    obtain ⟨ms, s', hms, hmoved⟩ := ih (hs.moveOut hv.live hv.strong hv.sole) hnodup.2 fun e he => by
      obtain ⟨w, hw⟩ := hmovable e (List.mem_cons_of_mem _ he)
      have hne : e.2 ≠ h := fun heq => hnodup.1 (List.mem_map.mpr ⟨e, he, heq⟩)
      exact ⟨w, hv.after hs hw hne⟩
    exact ⟨⟨c, h, v, x⟩ :: ms, s', congrArg ((c, h) :: ·) hms, .cons hv hx hmoved⟩

end Access

/-! ## What one conversion demands -/

/-- The objects that a native value has taken over, in order. -/
def NativeType.uniques : (t : NativeType) → t.Value Ω → List ((c : Class) × Instance Ω c)
  | .handle .unique c, x => [⟨c, x⟩]
  | .vector t, xs => xs.flatMap t.uniques
  | .array t _, xs => xs.toList.flatMap t.uniques
  | .optional t, x =>
    match x with
    | some x => t.uniques x
    | none => []
  | _, _ => []

namespace Convert
open Access

/-- What all items demand, if all of them fit. -/
def demandsAll (demands : Wire → Option (List (Class × Handle))) : List Wire → Option (List (Class × Handle))
  | [] => some []
  | w :: ws => do return (← demands w) ++ (← demandsAll demands ws)

/-- The handles to move objects out of, in order, each with the class that is asked for; nothing if the value does not
fit a consuming type. -/
def demands : NativeType → Wire → Option (List (Class × Handle))
  | .handle .unique c, .object h => some [(c, h)]
  | .vector t, .array ws => demandsAll (demands t) ws
  | .array t n, .array ws => if ws.length = n then demandsAll (demands t) ws else none
  | .optional t, w => if w.isNullish then some [] else demands t w
  | _, _ => none

/-- From `b` to `b'` what was demanded has been moved out, and no more has changed; `xs` are the objects. -/
def Delivers (demanded : Option (List (Class × Handle))) (b : Boundary Ω) (xs : List ((c : Class) × Instance Ω c))
    (b' : Boundary Ω) : Prop :=
  ∃ ms, demanded = some (ms.map Move.demand) ∧ xs = ms.map Move.taken ∧
    Moved b.call.receiver b.toHoldings ms b'.toHoldings ∧ b' = { b with toHoldings := b'.toHoldings }

theorem delivers_nothing (b : Boundary Ω) : Delivers (some []) b [] b :=
  ⟨[], rfl, rfl, .nil _, rfl⟩

theorem Delivers.append {ds es : Option (List (Class × Handle))} {b b₁ b₂ : Boundary Ω}
    {xs ys : List ((c : Class) × Instance Ω c)} (h : Delivers ds b xs b₁) (h' : Delivers es b₁ ys b₂) :
    Delivers (do return (← ds) ++ (← es)) b (xs ++ ys) b₂ := by
  obtain ⟨ms, rfl, rfl, hms, hb₁⟩ := h
  obtain ⟨ns, rfl, rfl, hns, hb₂⟩ := h'
  rw [hb₁] at hns hb₂
  exact ⟨ms ++ ns, congrArg some (List.map_append ..).symm, (List.map_append ..).symm, hms.append hns, hb₂⟩

theorem delivers_listFromWire {α : Type} {refs : α → List Address} {convert : Wire → Act Ω α}
    {f : Wire → Option (List (Class × Handle))} {g : α → List ((c : Class) × Instance Ω c)} : ∀ {ws : List Wire}
    {b b' : Boundary Ω} {xs : List α},
    (∀ w ∈ ws, ∀ b x b', convert w b = .ok x b' → Delivers (f w) b (g x) b') →
    listFromWire refs convert ws b = .ok xs b' → Delivers (demandsAll f ws) b (xs.flatMap g) b'
  | [], b, b', xs, _, h => by
    cases h
    exact delivers_nothing b
  | w :: ws, b, b', xs, hconvert, h => by
    obtain ⟨x, b₁, hx, h⟩ := Act.bind_eq_ok h
    obtain ⟨xs, b₂, hxs, h⟩ := Act.bind_eq_ok h
    cases h
    have hhead := hconvert w List.mem_cons_self b x b₁ (Act.orDrop_eq_ok hx)
    have htail := delivers_listFromWire (fun v hv => hconvert v (List.mem_cons_of_mem _ hv)) (Act.orDrop_eq_ok hxs)
    exact hhead.append htail

/-- **A conversion to a consuming type that succeeds has moved out what it demands, and done no more.** -/
theorem moved_of_fromWire {sv : Services Ω} : ∀ (t : NativeType) (w : Wire), t.consumes = true →
    ∀ (b : Boundary Ω) (x : t.Value Ω) (b' : Boundary Ω), fromWire sv t w b = .ok x b' →
      Delivers (demands t w) b (t.uniques x) b'
  | .handle .unique c, w, _ => by
    intro b x b' h
    cases w with
    | object g =>
      obtain ⟨v, hv, hx, rfl⟩ := takeUnique_eq_ok.mp h
      exact ⟨[⟨c, g, v, x⟩], rfl, rfl, .cons hv hx (.nil _), rfl⟩
    | _ => cases h
  | .vector t, w, ht => by
    intro b x b' h
    cases w with
    | array ws => exact delivers_listFromWire (fun w _ => moved_of_fromWire t w ht) h
    | _ => cases h
  | .array t n, w, ht => by
    intro b x b' h
    cases w with
    | array ws =>
      unfold fromWire at h
      unfold demands
      dsimp only at h ⊢
      split at h
      · rename_i hn
        obtain ⟨xs, b₁, hxs, h⟩ := Act.bind_eq_ok h
        rw [dif_pos ((length_listFromWire hxs).trans hn)] at h
        cases h
        rw [if_pos hn]
        exact delivers_listFromWire (fun w _ => moved_of_fromWire t w ht) hxs
      · cases h
    | _ => cases h
  | .optional t, w, ht => by
    intro b x b' h
    unfold fromWire at h
    unfold demands
    split at h
    · rename_i hnull
      cases h
      rw [if_pos hnull]
      exact delivers_nothing b
    · rename_i hnull
      obtain ⟨y, b₁, hy, h⟩ := Act.bind_eq_ok h
      cases h
      rw [if_neg hnull]
      exact moved_of_fromWire t w ht b y _ hy

theorem demandsAll_cons {f : Wire → Option (List (Class × Handle))} {w : Wire} {ws : List Wire}
    {ds : List (Class × Handle)} (h : demandsAll f (w :: ws) = some ds) :
    ∃ es es', f w = some es ∧ demandsAll f ws = some es' ∧ ds = es ++ es' := by
  rw [demandsAll, Option.bind_eq_bind, Option.bind_eq_some_iff] at h
  obtain ⟨es, hes, h⟩ := h
  rw [Option.bind_eq_some_iff] at h
  obtain ⟨es', hes', h⟩ := h
  exact ⟨es, es', hes, hes', (Option.some.inj h).symm⟩

theorem listFromWire_of_moved {α : Type} (refs : α → List Address) {convert : Wire → Act Ω α}
    {f : Wire → Option (List (Class × Handle))} : ∀ {ws : List Wire} {ms : List (Move Ω)} {b : Boundary Ω}
    {s' : Holdings Ω},
    (∀ w ∈ ws, ∀ ms b s', f w = some (ms.map Move.demand) → Moved b.call.receiver b.toHoldings ms s' →
      ∃ x, convert w b = .ok x { b with toHoldings := s' }) →
    demandsAll f ws = some (ms.map Move.demand) → Moved b.call.receiver b.toHoldings ms s' →
    ∃ xs, listFromWire refs convert ws b = .ok xs { b with toHoldings := s' }
  | [], ms, b, s', _, hdemands, hmoved => by
    obtain rfl : ms = [] := List.map_eq_nil_iff.mp (Option.some.inj hdemands).symm
    cases hmoved
    exact ⟨[], rfl⟩
  | w :: ws, ms, b, s', hconvert, hdemands, hmoved => by
    obtain ⟨ds, es, hds, hes, heq⟩ := demandsAll_cons hdemands
    obtain ⟨ms, ns, rfl, rfl, rfl⟩ := List.map_eq_append_iff.mp heq
    obtain ⟨s₁, hms, hns⟩ := hmoved.of_append
    obtain ⟨x, hx⟩ := hconvert w List.mem_cons_self ms b s₁ hds hms
    have htail : ∃ xs, listFromWire refs convert ws { b with toHoldings := s₁ } = .ok xs { b with toHoldings := s' } :=
      listFromWire_of_moved refs (fun v hv => hconvert v (List.mem_cons_of_mem _ hv)) hes hns
    obtain ⟨xs, hxs⟩ := htail
    refine ⟨x :: xs, ?_⟩
    rw [listFromWire, Act.bind_ok (orDrop_ok hx), Act.bind_ok (orDrop_ok hxs)]
    rfl

/-- It succeeds if what it demands can be moved out. -/
theorem fromWire_of_moved (sv : Services Ω) : ∀ {t : NativeType} {w : Wire} {ms : List (Move Ω)} {b : Boundary Ω}
    {s' : Holdings Ω}, demands t w = some (ms.map Move.demand) → Moved b.call.receiver b.toHoldings ms s' →
    ∃ x, fromWire sv t w b = .ok x { b with toHoldings := s' }
  | .handle .unique c, w, ms, b, s', hdemands, hmoved => by
    cases w with
    | object h =>
      obtain ⟨m, ns, rfl, hm, hns⟩ := List.map_eq_cons_iff.mp (Option.some.inj hdemands).symm
      obtain rfl : ns = [] := List.map_eq_nil_iff.mp hns
      obtain ⟨d, g, v, x⟩ := m
      cases hm
      cases hmoved with
      | cons hmovable hobject hrest =>
        cases hrest
        exact ⟨x, takeUnique_eq_ok.mpr ⟨v, hmovable, hobject, rfl⟩⟩
    | _ => cases hdemands
  | .vector t, w, ms, b, s', hdemands, hmoved => by
    cases w with
    | array ws => exact listFromWire_of_moved t.refs (fun w _ ms b s' => fromWire_of_moved sv) hdemands hmoved
    | _ => cases hdemands
  | .array t n, w, ms, b, s', hdemands, hmoved => by
    cases w with
    | array ws =>
      unfold demands at hdemands
      unfold fromWire
      dsimp only at hdemands ⊢
      split at hdemands
      · rename_i hn
        obtain ⟨xs, hxs⟩ := listFromWire_of_moved t.refs (fun w _ ms b s' => fromWire_of_moved sv) hdemands
          hmoved
        rw [if_pos hn, Act.bind_ok hxs, dif_pos ((length_listFromWire hxs).trans hn)]
        exact ⟨_, rfl⟩
      · cases hdemands
    | _ => cases hdemands
  | .optional t, w, ms, b, s', hdemands, hmoved => by
    unfold demands at hdemands
    unfold fromWire
    split at hdemands
    · rename_i hnull
      obtain rfl : ms = [] := List.map_eq_nil_iff.mp (Option.some.inj hdemands).symm
      cases hmoved
      rw [if_pos hnull]
      exact ⟨none, rfl⟩
    · rename_i hnull
      obtain ⟨x, hx⟩ := fromWire_of_moved sv hdemands hmoved
      rw [if_neg hnull, Act.bind_ok hx]
      exact ⟨some x, rfl⟩

/-! ## The pre-check -/

omit [ObjectModel Ω] in
theorem forM_precheck {b : Boundary Ω} {t : NativeType} {ws : List Wire} :
    ws.forM (precheck b t) = .ok () ↔ ∀ w ∈ ws, precheck b t w = .ok () := by
  refine ⟨precheck_of_forM, fun h => ?_⟩
  induction ws with
  | nil => rfl
  | cons w ws ih =>
    change (precheck b t w >>= fun _ => ws.forM (precheck b t)) = .ok ()
    rw [h w List.mem_cons_self]
    exact ih fun v hv => h v (List.mem_cons_of_mem _ hv)

theorem forall_demandsAll {f : Wire → Option (List (Class × Handle))} {p : Wire → Prop} {P : Class × Handle → Prop} :
    ∀ {ws : List Wire} {ds : List (Class × Handle)},
      (∀ w ∈ ws, ∀ ds, f w = some ds → (p w ↔ ∀ e ∈ ds, P e)) → demandsAll f ws = some ds →
      ((∀ w ∈ ws, p w) ↔ ∀ e ∈ ds, P e)
  | [], _, _, h => by
    cases h
    simp
  | w :: ws, _, hf, h => by
    obtain ⟨es, es', hes, hes', rfl⟩ := demandsAll_cons h
    have hhead := hf w List.mem_cons_self es hes
    have htail := forall_demandsAll (fun v hv => hf v (List.mem_cons_of_mem _ hv)) hes'
    rw [List.forall_mem_cons, List.forall_mem_append, hhead, htail]

omit [ObjectModel Ω] in
/-- The pre-check of a value that fits checks each handle that it demands. -/
theorem precheck_eq_ok {b : Boundary Ω} : ∀ {t : NativeType} {w : Wire} {ds : List (Class × Handle)},
    demands t w = some ds → (precheck b t w = .ok () ↔ ∀ e ∈ ds, checkUnique b e.1 e.2 = .ok ())
  | .handle .unique c, w, ds, h => by
    cases w with
    | object g =>
      cases h
      change checkUnique b c g = .ok () ↔ _
      simp
    | _ => cases h
  | .vector t, w, ds, h => by
    cases w with
    | array ws => exact forM_precheck.trans (forall_demandsAll (fun w _ ds => precheck_eq_ok) h)
    | _ => cases h
  | .array t n, w, ds, h => by
    cases w with
    | array ws =>
      unfold demands at h
      unfold precheck
      split at h
      · rename_i hn
        rw [if_pos hn]
        exact forM_precheck.trans (forall_demandsAll (fun w _ ds => precheck_eq_ok) h)
      · cases h
    | _ => cases h
  | .optional t, w, ds, h => by
    unfold demands at h
    unfold precheck
    split at h
    · rename_i hnull
      cases h
      rw [if_pos hnull]
      simp
    · rename_i hnull
      rw [if_neg hnull]
      exact precheck_eq_ok h

/-- Somewhere in the value, an array is asked for and something else is there. -/
def misplaced : NativeType → Wire → Bool
  | .vector t, .array ws => ws.any (misplaced t)
  | .array t _, .array ws => ws.any (misplaced t)
  | .vector _, _ => true
  | .array _ _, _ => true
  | .optional t, w => !w.isNullish && misplaced t w
  | _, _ => false

theorem demandsAll_isSome {f : Wire → Option (List (Class × Handle))} : ∀ ws : List Wire,
    (demandsAll f ws).isSome = ws.all fun w => (f w).isSome
  | [] => rfl
  | w :: ws => by
    rw [List.all_cons, ← demandsAll_isSome ws, demandsAll]
    cases f w <;> cases demandsAll f ws <;> rfl

theorem misplaced_items {f : Wire → Option (List (Class × Handle))} {t : NativeType} {ws : List Wire}
    (hf : ∀ w ∈ ws, (f w).isSome = !misplaced t w) : (demandsAll f ws).isSome = !ws.any (misplaced t) := by
  rw [demandsAll_isSome, List.not_any_eq_all_not, Bool.eq_iff_iff, List.all_eq_true, List.all_eq_true]
  refine forall₂_congr fun w hw => ?_
  rw [hf w hw]

omit [ObjectModel Ω] in
/-- A value that passes the pre-check fits, unless something else is where an array should be. -/
theorem isSome_demands {b : Boundary Ω} : ∀ {t : NativeType} {w : Wire}, t.consumes = true →
    precheck b t w = .ok () → (demands t w).isSome = !misplaced t w
  | .handle .unique c, w, _, h => by
    cases w with
    | object g => rfl
    | _ => cases h
  | .vector t, w, ht, h => by
    cases w with
    | array ws => exact misplaced_items fun w hw => isSome_demands ht (forM_precheck.mp h w hw)
    | _ => rfl
  | .array t n, w, ht, h => by
    cases w with
    | array ws =>
      unfold precheck at h
      unfold demands misplaced
      split at h
      · rename_i hn
        rw [if_pos hn]
        exact misplaced_items fun w hw => isSome_demands ht (forM_precheck.mp h w hw)
      · cases h
    | _ => rfl
  | .optional t, w, ht, h => by
    unfold precheck at h
    unfold demands misplaced
    split at h
    · rename_i hnull
      rw [if_pos hnull, hnull]
      rfl
    · rename_i hnull
      rw [if_neg hnull, Bool.eq_false_iff.mpr hnull]
      exact isSome_demands ht h

/-- **When the conversion to a consuming type succeeds**: the value fits, nothing is demanded of a handle twice, and the
pre-check passes. -/
theorem fromWire_succeeds_iff (sv : Services Ω) {b : Boundary Ω} (hb : b.toHoldings.Coherent) {t : NativeType}
    (ht : t.consumes = true) (w : Wire) : (∃ x b', fromWire sv t w b = .ok x b') ↔
      ∃ ds, demands t w = some ds ∧ (ds.map Prod.snd).Nodup ∧ precheck b t w = .ok () := by
  constructor
  · rintro ⟨x, b', h⟩
    obtain ⟨ms, hdemands, -, hmoved, -⟩ := moved_of_fromWire t w ht b x b' h
    refine ⟨_, hdemands, ?_, (precheck_eq_ok hdemands).mpr fun e he => ?_⟩
    · rw [List.map_map]
      exact hmoved.nodup.1
    · obtain ⟨m, hm, rfl⟩ := List.mem_map.mp he
      exact checkUnique_eq_ok.mpr ⟨m.wrapper, (hmoved.movable m hm).1⟩
  · rintro ⟨ds, hdemands, hnodup, hcheck⟩
    have hmovable : ∀ e ∈ ds, ∃ v, Movable b.call.receiver b.toHoldings e.1 e.2 v :=
      fun e he => checkUnique_eq_ok.mp ((precheck_eq_ok hdemands).mp hcheck e he)
    obtain ⟨ms, s', rfl, hmoved⟩ := exists_moved hb hnodup hmovable
    obtain ⟨x, hx⟩ := fromWire_of_moved sv hdemands hmoved
    exact ⟨x, _, hx⟩

/-- **How exact the pre-check is**, in every state that typed native code reaches and for every call in it. What it
refuses the conversion refuses. What it lets pass is converted exactly if there is no value that is not an array where
one is asked for, and no handle is demanded twice: these two it overlooks. -/
theorem precheck_exact_iff (es : List (Event Ω)) (b₀ : Boundary Ω) (sv : Services Ω) {t : NativeType}
    (ht : t.consumes = true) (w : Wire) :
    let b : Boundary Ω := { b₀ with toHoldings := (Ledger.typedRun es).toHoldings }
    (∀ e, precheck b t w = .error e → ∀ x b', fromWire sv t w b ≠ .ok x b') ∧
    (precheck b t w = .ok () → ((∃ x b', fromWire sv t w b = .ok x b') ↔
      misplaced t w = false ∧ (((demands t w).getD []).map Prod.snd).Nodup)) := by
  intro b
  have hb : b.toHoldings.Coherent := Ledger.coherent_typedRun es
  have hsucceeds := fromWire_succeeds_iff sv hb ht w
  refine ⟨fun e he x b' hx => ?_, fun hcheck => hsucceeds.trans ?_⟩
  · obtain ⟨-, -, -, hcheck⟩ := hsucceeds.mp ⟨x, b', hx⟩
    rw [he] at hcheck
    cases hcheck
  · have hfits := isSome_demands ht hcheck
    cases hdemands : demands t w with
    | none =>
      rw [hdemands] at hfits
      constructor
      · rintro ⟨ds, hds, -⟩
        cases hds
      · rintro ⟨hplaced, -⟩
        rw [hplaced] at hfits
        cases hfits
    | some ds =>
      rw [hdemands] at hfits
      have hplaced : misplaced t w = false := by simpa using hfits
      constructor
      · rintro ⟨es, hes, hnodup, -⟩
        obtain rfl := Option.some.inj hes
        exact ⟨hplaced, hnodup⟩
      · rintro ⟨-, hnodup⟩
        exact ⟨ds, rfl, hnodup, hcheck⟩

open Catalog in
/-- With one node at hand, the pre-check of a list of nodes passes both the node's handle twice and a number in place of
the list; neither can be converted. -/
theorem precheck_overlooks :
    let es : List (Event Specimen) := [.make (.node "a"), .wrap ⟨Species.node.cls, 0, false⟩ true .none]
    let b : Boundary Specimen :=
      { (Boundary.empty : Boundary Specimen) with toHoldings := (Ledger.typedRun es).toHoldings }
    let nodes : NativeType := .vector (.handle .unique Species.node.cls)
    let twice : Wire := .array [.object ⟨0, 0⟩, .object ⟨0, 0⟩]
    (precheck b nodes twice = .ok () ∧ ∀ sv x b', fromWire sv nodes twice b ≠ .ok x b') ∧
    precheck b nodes (.int 3) = .ok () ∧ ∀ sv x b', fromWire sv nodes (.int 3) b ≠ .ok x b' := by
  intro es b nodes twice
  have hcheck : precheck b nodes twice = .ok () ∧ precheck b nodes (.int 3) = .ok () := by
    constructor <;> rfl
  refine ⟨⟨hcheck.1, fun sv x b' hx => ?_⟩, hcheck.2, fun sv x b' hx => ?_⟩
  · obtain ⟨-, hnodup⟩ := ((precheck_exact_iff es Boundary.empty sv rfl twice).2 hcheck.1).mp ⟨x, b', hx⟩
    exact absurd hnodup (by decide)
  · obtain ⟨hplaced, -⟩ := ((precheck_exact_iff es Boundary.empty sv rfl (.int 3)).2 hcheck.2).mp ⟨x, b', hx⟩
    cases hplaced

end Convert
end NativeBridge
