import NativeBridge.Catalog.Specimen
import NativeBridge.Proofs.Registry.UpcastPaths
/-!
# Upcasts along declared links

What the two searches over a hierarchy find, said of the declarations alone: `Chain` follows declared links from a class
up to another, `Walk` lists the classes above some classes depth first, as often as it comes to them. A path that
`upcastPath?` gives is a chain, there is one for every class that can be reached, and the ancestors are the walk with
every class where it comes first (`upcasts_and_ancestors`).
-/
namespace NativeBridge
namespace Hierarchy

section
variable {Upcast : Type} {classes : List (ClassDescriptor Upcast)}

/-! ## Declared links -/

/-- The links that the descriptors of a class declare. -/
def linksOf (classes : List (ClassDescriptor Upcast)) (c : Class) : List (SuperLink Upcast) :=
  (classes.filter (·.cls = c)).flatMap (·.supers)

/-- `s` is declared as a direct superclass of `c`. -/
def Extends (links : Class → List (SuperLink Upcast)) (c s : Class) : Prop :=
  ∃ l ∈ links c, l.cls = s

/-- The upcasts of links that lead one after another from a class to another. -/
inductive Chain (links : Class → List (SuperLink Upcast)) : Class → List Upcast → Class → Prop
  | nil (c : Class) : Chain links c [] c
  | cons {c a : Class} {l : SuperLink Upcast} {us : List Upcast} :
      l ∈ links c → Chain links l.cls us a → Chain links c (l.upcast :: us) a

/-- The classes of a list, each followed by the walk over its direct superclasses. -/
inductive Walk (links : Class → List (SuperLink Upcast)) : List Class → List Class → Prop
  | nil : Walk links [] []
  | cons {c : Class} {cs above rest : List Class} :
      Walk links ((links c).map (·.cls)) above → Walk links cs rest → Walk links (c :: cs) (c :: above ++ rest)

theorem linksOf_mem {d : ClassDescriptor Upcast} : ∀ {classes : List (ClassDescriptor Upcast)},
    (classes.map (·.cls)).Nodup → d ∈ classes → linksOf classes d.cls = d.supers
  | e :: classes, hn, hd => by
    rw [List.map_cons, List.nodup_cons] at hn
    unfold linksOf
    rcases List.mem_cons.1 hd with rfl | hd
    · have hrest : classes.filter (·.cls = d.cls) = [] :=
        List.filter_eq_nil_iff.2 fun f hf hfd => hn.1 (by
          rw [← of_decide_eq_true hfd]
          exact List.mem_map_of_mem hf)
      simp [hrest]
    · have he : e.cls ≠ d.cls := fun he => hn.1 (by rw [he]; exact List.mem_map_of_mem hd)
      rw [List.filter_cons_of_neg (by simpa using he)]
      exact linksOf_mem hn.2 hd

/-- The graph has the declared links. -/
theorem superLinks_ofClasses (hn : (classes.map (·.cls)).Nodup) :
    (ofClasses classes).superLinks = linksOf classes := by
  funext c
  by_cases hc : c ∈ classes.map (·.cls)
  · obtain ⟨d, hd, rfl⟩ := List.mem_map.1 hc
    rw [superLinks_of_mem hn hd, linksOf_mem hn hd]
  · have hnone : classes.filter (·.cls = c) = [] :=
      List.filter_eq_nil_iff.2 fun d hd hdc => hc (by
        rw [← of_decide_eq_true hdc]
        exact List.mem_map_of_mem hd)
    rw [superLinks_of_not_mem hc, linksOf, hnone, List.flatMap_nil]

/-! ## Paths are chains -/

variable {h : Hierarchy Upcast}

/-- Every path found goes on from a path on the stack by the upcasts of a chain. -/
theorem pathsFrom_chain (unseen : List Class) (stack : List (Class × List Upcast)) :
    ∀ q ∈ h.pathsFrom unseen stack, ∃ p ∈ stack, ∃ us, q.2 = p.2 ++ us ∧ Chain h.superLinks p.1 us q.1 := by
  induction unseen, stack using search_induct (h := h) with
  | nil unseen => simp [pathsFrom_nil]
  | cons unseen c path rest ih =>
    have hopened : ∀ q ∈ (h.opened c path unseen).1, ∃ l ∈ h.superLinks c, q = (l.cls, path ++ [l.upcast]) := by
      intro q hq
      obtain ⟨-, l, hl, rfl⟩ := discover_sound path _ unseen q hq
      exact ⟨l, List.mem_reverse.1 hl, rfl⟩
    intro q hq
    rw [pathsFrom_cons] at hq
    rcases List.mem_append.1 hq with hq | hq
    · obtain ⟨l, hl, rfl⟩ := hopened q hq
      exact ⟨(c, path), List.mem_cons_self, [l.upcast], rfl, .cons hl (.nil _)⟩
    · obtain ⟨p, hp, us, hq, hus⟩ := ih q hq
      rcases List.mem_append.1 hp with hp | hp
      · obtain ⟨l, hl, rfl⟩ := hopened p (List.mem_reverse.1 hp)
        exact ⟨(c, path), List.mem_cons_self, l.upcast :: us, by simp [hq], .cons hl hus⟩
      · exact ⟨p, List.mem_cons_of_mem _ hp, us, hq, hus⟩

/-- **A path is a chain of links.** -/
theorem chain_of_upcastPath? {c a : Class} {us : List Upcast} (hp : h.upcastPath? c a = some us) :
    Chain h.superLinks c us a := by
  unfold upcastPath? at hp
  split at hp
  · rename_i hca
    cases hp
    rw [hca]
    exact .nil a
  · unfold paths at hp
    split at hp
    · obtain ⟨before, after, hsplit, -⟩ := List.lookup_eq_some_iff.1 hp
      have hmem : (a, us) ∈ h.pathsFrom h.nodes [(c, [])] := by simp [hsplit]
      obtain ⟨p, hp, vs, hus, hchain⟩ := pathsFrom_chain _ _ _ hmem
      rw [List.mem_singleton.1 hp] at hus hchain
      rw [show us = vs from hus]
      exact hchain
    · cases hp

theorem Chain.reaches {links : Class → List (SuperLink Upcast)} {c a : Class} {us : List Upcast}
    (hus : Chain links c us a) : Relation.ReflTransGen (Extends links) c a := by
  induction hus with
  | nil => exact .refl
  | cons hl _ ih => exact .head ⟨_, hl, rfl⟩ ih

theorem extends_superLinks : Extends h.superLinks = h.Super := by
  funext c s
  simp [Extends, Super, supers]

/-- There is a path to the class itself and to the classes above it, and to no other. -/
theorem upcastPath?_isSome (hh : h.Sound) {c a : Class} :
    (h.upcastPath? c a).isSome = true ↔ c = a ∨ h.Above c a := by
  constructor
  · intro hs
    obtain ⟨us, hus⟩ := Option.isSome_iff_exists.1 hs
    have hreach := (chain_of_upcastPath? hus).reaches
    rw [extends_superLinks] at hreach
    exact (Relation.reflTransGen_iff_eq_or_transGen.1 hreach).imp Eq.symm id
  · rintro (rfl | ha)
    · simp [upcastPath?]
    · obtain ⟨us, hus, -⟩ := upcastPath?_of_above hh ha
      rw [hus]
      rfl

theorem isAncestor_iff (hh : h.Sound) {c a : Class} : h.isAncestor c a = true ↔ h.Above c a := by
  have hself : ¬ h.Above c c := hh.acyclic c
  by_cases hca : c = a
  · subst hca
    simp [isAncestor, hself]
  · have hpath := upcastPath?_isSome hh (c := c) (a := a)
    rw [upcastPath?, if_neg hca] at hpath
    simpa [isAncestor, hca] using hpath

/-! ## Ancestors are a walk -/

theorem eraseDups_filter (p : Class → Bool) : ∀ l : List Class, (l.filter p).eraseDups = l.eraseDups.filter p
  | [] => rfl
  | c :: l => by
    have hrest : ((l.filter p).filter fun b => !b == c).eraseDups =
        ((l.filter fun b => !b == c).eraseDups).filter p := by
      rw [← eraseDups_filter p (l.filter fun b => !b == c), List.filter_filter, List.filter_filter]
      congr 2
      funext b
      exact Bool.and_comm _ _
    by_cases hc : p c = true
    · rw [List.filter_cons_of_pos hc, List.eraseDups_cons, List.eraseDups_cons, hrest, List.filter_cons_of_pos hc]
    · rw [List.filter_cons_of_neg hc, List.eraseDups_cons, List.filter_cons_of_neg hc, ← hrest]
      have hnot : (l.filter p).filter (fun b => !b == c) = l.filter p :=
        List.filter_eq_self.2 fun b hb => by
          have hbc : b ≠ c := fun hbc => hc (hbc ▸ (List.mem_filter.1 hb).2)
          simpa using hbc
      rw [hnot]
termination_by l => l.length
decreasing_by
  have := List.length_filter_le (fun b => !b == c) l
  simp only [List.length_cons]
  omega

/-- First places in a list come from those in its parts. -/
theorem eraseDups_append_congr {k m l l' : List Class} (hk : k.eraseDups = m.eraseDups)
    (hl : l.eraseDups = l'.eraseDups) : (k ++ l).eraseDups = (m ++ l').eraseDups := by
  have hmem : ∀ c, c ∈ k ↔ c ∈ m := fun c => by rw [← List.mem_eraseDups, hk, List.mem_eraseDups]
  have hremove : (l.removeAll k).eraseDups = (l'.removeAll m).eraseDups := by
    unfold List.removeAll
    rw [eraseDups_filter, eraseDups_filter, hl]
    refine List.filter_congr fun c _ => ?_
    simp [hmem c]
  rw [List.eraseDups_append, List.eraseDups_append, hk, hremove]

theorem length_ancestors_lt (hh : h.Sound) {c s : Class} (hs : h.Super c s) :
    (h.ancestors s).length < (h.ancestors c).length := by
  have hsub : s :: h.ancestors s ⊆ h.ancestors c := by
    intro a ha
    rw [mem_ancestors hh]
    rcases List.mem_cons.1 ha with rfl | ha
    · exact .single hs
    · exact .head hs ((mem_ancestors hh).1 ha)
  exact (List.subperm_of_subset (nodup_linearization hh s) hsub).length_le

/-- A walk over some classes comes to what their linearizations hold, in that order. -/
theorem walk_linearizations (hh : h.Sound) : ∀ (n : Nat) (cs : List Class), (∀ c ∈ cs, (h.ancestors c).length < n) →
    ∃ w, Walk h.superLinks cs w ∧ (cs.flatMap h.linearization).eraseDups = w.eraseDups
  | _, [], _ => ⟨[], .nil, rfl⟩
  | 0, c :: cs, hlt => absurd (hlt c List.mem_cons_self) (Nat.not_lt_zero _)
  | n + 1, c :: cs, hlt => by
    have hc : (h.ancestors c).length < n + 1 := hlt c List.mem_cons_self
    obtain ⟨above, habove, hup⟩ := walk_linearizations hh n (h.supers c) fun s hs => by
      have := length_ancestors_lt hh hs
      omega
    obtain ⟨rest, hrest, heq⟩ := walk_linearizations hh (n + 1) cs fun d hd => hlt d (List.mem_cons_of_mem _ hd)
    refine ⟨c :: above ++ rest, .cons habove hrest, ?_⟩
    have hfirst : (h.linearization c).eraseDups = (c :: above).eraseDups := by
      have hdups : (h.ancestors c).eraseDups = above.eraseDups := by
        rw [eraseDups_of_nodup (nodup_ancestors hh c), ancestors_eq hh, hup]
      exact eraseDups_append_congr (k := [c]) (m := [c]) rfl hdups
    exact eraseDups_append_congr hfirst heq
termination_by n cs => (n, cs.length)

theorem Walk.unique {links : Class → List (SuperLink Upcast)} {cs w w' : List Class} (hw : Walk links cs w)
    (hw' : Walk links cs w') : w = w' := by
  induction hw generalizing w' with
  | nil => cases hw' with | nil => rfl
  | cons _ _ ihup ihrest => cases hw' with | cons hup hrest => rw [ihup hup, ihrest hrest]

/-- **The ancestors are the depth-first walk over the superclasses**, every class where it comes first. -/
theorem ancestors_walk (hh : h.Sound) (c : Class) :
    ∃ w, (∀ w', Walk h.superLinks (h.supers c) w' ↔ w' = w) ∧ h.ancestors c = w.eraseDups := by
  obtain ⟨w, hw, heq⟩ := walk_linearizations hh (h.ancestors c).length (h.supers c) fun s hs =>
    length_ancestors_lt hh hs
  exact ⟨w, fun w' => ⟨fun hw' => hw'.unique hw, fun h => h ▸ hw⟩, by rw [ancestors_eq hh, heq]⟩

end

/-! ## Objects -/

variable {Ω : Type} [ObjectModel Ω]

/-- Every object of the class of a link has a part of the link's superclass. -/
def LinksLeadUp (links : Class → List (SuperLink (Upcast Ω))) : Prop :=
  ∀ c, ∀ l ∈ links c, ∀ o, ObjectModel.classOf o = c →
    ∃ part, l.upcast.view o = some part ∧ ObjectModel.classOf part = l.cls

/-- What is put into an object along a link is found there again, and the object stays of its class. -/
def LinksWriteBack (links : Class → List (SuperLink (Upcast Ω))) : Prop :=
  ∀ c, ∀ l ∈ links c, ∀ o part, ObjectModel.classOf o = c → ObjectModel.classOf part = l.cls →
    ObjectModel.classOf (l.upcast.put o part) = c ∧ l.upcast.view (l.upcast.put o part) = some part

section
variable {links : Class → List (SuperLink (Upcast Ω))} {c a : Class} {us : List (Upcast Ω)}

/-- The upcasts of a chain lead from any object of the lower class to a part of the upper class. -/
theorem Chain.viewAlong (hup : LinksLeadUp links) (hus : Chain links c us a) : ∀ o, ObjectModel.classOf o = c →
    ∃ part, Upcast.viewAlong us o = some part ∧ ObjectModel.classOf part = a := by
  induction hus with
  | nil => exact fun o ho => ⟨o, rfl, ho⟩
  | cons hl _ ih =>
    intro o ho
    obtain ⟨inner, hview, hinner⟩ := hup _ _ hl o ho
    obtain ⟨part, hpart, ha⟩ := ih inner hinner
    exact ⟨part, by rw [Upcast.viewAlong, hview, Option.bind_some, hpart], ha⟩

/-- What is put into an object along a chain is found at its end again. -/
theorem Chain.putAlong (hup : LinksLeadUp links) (hback : LinksWriteBack links) (hus : Chain links c us a) :
    ∀ o part, ObjectModel.classOf o = c → ObjectModel.classOf part = a →
      ObjectModel.classOf (Upcast.putAlong us o part) = c ∧
        Upcast.viewAlong us (Upcast.putAlong us o part) = some part := by
  induction hus with
  | nil => exact fun o part _ hpart => ⟨hpart, rfl⟩
  | @cons c a l us hl _ ih =>
    intro o part ho hpart
    obtain ⟨inner, hview, hinner⟩ := hup _ _ hl o ho
    obtain ⟨hcls, hfound⟩ := ih inner part hinner hpart
    obtain ⟨hwhole, hput⟩ := hback _ _ hl o _ ho hcls
    have hstep : Upcast.putAlong (l.upcast :: us) o part = l.upcast.put o (Upcast.putAlong us inner part) := by
      rw [Upcast.putAlong, hview]
    rw [hstep, Upcast.viewAlong, hput, Option.bind_some]
    exact ⟨hwhole, hfound⟩

end

/-- **Upcasts and ancestors are those of the declared links.** In every hierarchy that was built from descriptors of
distinct classes:
- there is a path from a class to itself, which is empty, and to the classes that declared links lead to, and no other;
- a path is the upcasts of a chain of declared links;
- the ancestors of a class are the classes that links lead to, each once and never the class itself, in the order of the
  only depth-first walk over the declared superclasses;
- if every link leads from any object of its class to a part of its superclass, a path leads from any object of the class
  to a part of the ancestor, and if links find what was put along them, so does the path. -/
theorem upcasts_and_ancestors {classes : List (ClassDescriptor (Upcast Ω))} {h : Hierarchy (Upcast Ω)}
    (hn : (classes.map (·.cls)).Nodup) (hb : build classes = .ok h) (c a : Class) :
    h.upcastPath? c c = some [] ∧
    ((h.upcastPath? c a).isSome = true ↔ c = a ∨ Relation.TransGen (Extends (linksOf classes)) c a) ∧
    (∀ us, h.upcastPath? c a = some us → Chain (linksOf classes) c us a) ∧
    (h.isAncestor c a = true ↔ Relation.TransGen (Extends (linksOf classes)) c a) ∧
    (a ∈ h.ancestors c ↔ h.isAncestor c a = true) ∧ (h.ancestors c).Nodup ∧ c ∉ h.ancestors c ∧
    (∃ w, (∀ w', Walk (linksOf classes) ((linksOf classes c).map (·.cls)) w' ↔ w' = w) ∧
      h.ancestors c = w.eraseDups) ∧
    (LinksLeadUp (linksOf classes) → ∀ us, h.upcastPath? c a = some us →
      (∀ o, ObjectModel.classOf o = c →
        ∃ part, Upcast.viewAlong us o = some part ∧ ObjectModel.classOf part = a) ∧
      (LinksWriteBack (linksOf classes) → ∀ o part, ObjectModel.classOf o = c → ObjectModel.classOf part = a →
        ObjectModel.classOf (Upcast.putAlong us o part) = c ∧
          Upcast.viewAlong us (Upcast.putAlong us o part) = some part)) := by
  have hh := build_sound hb
  obtain ⟨rfl, -⟩ := build_ok hb
  have hlinks : (ofClasses classes).superLinks = linksOf classes := superLinks_ofClasses hn
  have hextends : (ofClasses classes).Super = Extends (linksOf classes) := by rw [← hlinks, extends_superLinks]
  have hpath := upcastPath?_isSome hh (c := c) (a := a)
  have hanc := isAncestor_iff hh (c := c) (a := a)
  have hwalk := ancestors_walk hh c
  have hchain : ∀ us, (ofClasses classes).upcastPath? c a = some us → Chain (linksOf classes) c us a := by
    intro us hus
    rw [← hlinks]
    exact chain_of_upcastPath? hus
  unfold Above at hpath hanc
  rw [hextends] at hpath hanc
  rw [supers, hlinks] at hwalk
  refine ⟨if_pos rfl, hpath, hchain, hanc, ?_, nodup_ancestors hh c, not_mem_ancestors_self hh c, hwalk, ?_⟩
  · rw [mem_ancestors hh, isAncestor_iff hh]
  · intro hup us hus
    exact ⟨(hchain us hus).viewAlong hup, fun hback => (hchain us hus).putAlong hup hback⟩

open Catalog in
/-- Sprites, which have a point, and points. -/
def spriteClasses : List (ClassDescriptor (Upcast Specimen)) :=
  [(ClassDescriptor.placeholder Species.sprite.cls "Sprite" 32).addSuper Species.point.cls Specimen.spritePoint,
    .placeholder Species.point.cls "Point" 8]

theorem links_spriteClasses {c : Class} {l : SuperLink (Upcast Catalog.Specimen)}
    (hl : l ∈ linksOf spriteClasses c) :
    c = Catalog.Species.sprite.cls ∧ l = ⟨Catalog.Species.point.cls, Catalog.Specimen.spritePoint⟩ := by
  obtain ⟨d, hd, hl⟩ := List.mem_flatMap.1 hl
  obtain ⟨hd, hc⟩ := List.mem_filter.1 hd
  rcases List.mem_cons.1 hd with rfl | hd
  · exact ⟨(of_decide_eq_true hc).symm, List.mem_singleton.1 hl⟩
  · rw [List.mem_singleton.1 hd] at hl
    cases hl

open Catalog in
/-- Only sprites and points are of their classes. -/
theorem specimen_cases (o : Specimen) :
    (ObjectModel.classOf o = Species.sprite.cls → ∃ s, o = .sprite s) ∧
      (ObjectModel.classOf o = Species.point.cls → ∃ p, o = .point p) := by
  have hspecies : ∀ s : Species, (s.cls = Species.sprite.cls → s = .sprite) ∧
      (s.cls = Species.point.cls → s = .point) := by
    intro s
    cases s with
    | kin i =>
      revert i
      decide
    | _ => decide
  refine ⟨fun ho => ?_, fun ho => ?_⟩
  · have := (hspecies o.species).1 ho
    cases o <;> simp_all [Specimen.species]
  · have := (hspecies o.species).2 ho
    cases o <;> simp_all [Specimen.species]

open Catalog in
/-- A sprite is upcast to its position, and a position that is put there is found again. -/
theorem upcasts_of_sprites : ∃ h, build spriteClasses = .ok h ∧
    ∃ us, h.upcastPath? Species.sprite.cls Species.point.cls = some us ∧ ∀ (s : Sprite) (p : Point),
      (∃ q : Point, Upcast.viewAlong us (.sprite s) = some (.point q)) ∧
        Upcast.viewAlong us (Upcast.putAlong us (.sprite s) (.point p)) = some (.point p) := by
  have hb : build spriteClasses = .ok (ofClasses spriteClasses) := by
    have hc : (ofClasses spriteClasses).digraph.culprit? = none := by cbv
    simp only [build, hc]
  obtain ⟨-, hsome, -, -, -, -, -, -, hobjects⟩ :=
    upcasts_and_ancestors (by decide) hb Species.sprite.cls Species.point.cls
  have hlink : Extends (linksOf spriteClasses) Species.sprite.cls Species.point.cls :=
    ⟨⟨Species.point.cls, Specimen.spritePoint⟩, List.mem_cons_self, rfl⟩
  obtain ⟨us, hus⟩ := Option.isSome_iff_exists.1 (hsome.2 (.inr (.single hlink)))
  have hup : LinksLeadUp (linksOf spriteClasses) := by
    intro c l hl o ho
    obtain ⟨rfl, rfl⟩ := links_spriteClasses hl
    obtain ⟨s, rfl⟩ := (specimen_cases o).1 ho
    exact ⟨.point s.pos, rfl, rfl⟩
  have hback : LinksWriteBack (linksOf spriteClasses) := by
    intro c l hl o part ho hpart
    obtain ⟨rfl, rfl⟩ := links_spriteClasses hl
    obtain ⟨s, rfl⟩ := (specimen_cases o).1 ho
    obtain ⟨p, rfl⟩ := (specimen_cases part).2 hpart
    exact ⟨rfl, rfl⟩
  obtain ⟨hview, hput⟩ := hobjects hup us hus
  refine ⟨_, hb, us, hus, fun s p => ⟨?_, (hput hback (.sprite s) (.point p) rfl rfl).2⟩⟩
  obtain ⟨part, hpart, hcls⟩ := hview (.sprite s) rfl
  obtain ⟨q, rfl⟩ := (specimen_cases part).2 hcls
  exact ⟨q, hpart⟩

end Hierarchy
end NativeBridge
