import NativeBridge.Proofs.Call.PureData
import NativeBridge.Proofs.Call.Reading
/-!
# Values that come back

A value round-trips if what it is sent as is accepted for its type and read as the value again, at once or later
(`Convert.RoundTrips`). Some values can be read once only: an object that is passed on its own is moved out of its
wrapper. So what was sent is told together with the cells that were made for it (`Convert.Sent`). It stands for the value
as long as these cells and the old objects are left alone (`Convert.Standing`), and reading it touches no other cell that
was made since. Values that are sent without asking for others come back so (`Convert.roundTrips_plain`).
-/
namespace NativeBridge
variable {Ω : Type} [ObjectModel Ω] {α β : Type} {old : Address} {once : Prop} {R : Address → Prop}

open Act

namespace Convert

/-! ## What stands for a value -/

/-- What a value was sent as, and the cells that were made for it: those from `lo` on and before `hi`. -/
structure Sent where
  wire : Wire
  lo : Address
  hi : Address

/-- The cell was made for the value. -/
def Sent.Covers (p : Sent) (a : Address) : Prop :=
  p.lo ≤ a ∧ a < p.hi

/-- One of the cells was made for one of the values. -/
def Covered (ps : List Sent) (a : Address) : Prop :=
  ∃ p ∈ ps, p.Covers a

/-- What was sent is there still: the cells that were made for it, and the wrappers of old objects. -/
def Lasts (old : Address) (s : Holdings Ω) (p : Sent) (s' : Holdings Ω) : Prop :=
  ∀ a, a < old ∨ p.Covers a → s.Keeps old s' a

theorem Sent.Covers.not_later {p q : Sent} {a : Address} (ha : p.Covers a) (hpq : p.hi ≤ q.lo) : ¬q.Covers a :=
  fun hq => absurd (Nat.lt_of_lt_of_le ha.2 hpq) (Nat.not_lt.mpr hq.1)

theorem covered_cons {p : Sent} {ps : List Sent} {a : Address} : Covered (p :: ps) a ↔ p.Covers a ∨ Covered ps a :=
  List.exists_mem_cons_iff ..

section
variable {s s' : Holdings Ω} {p q : Sent} {ps : List Sent} {b b' : Boundary Ω}

theorem reads_head (h : b.Reads old once p.Covers b') : b.Reads old once (Covered (p :: ps)) b' :=
  h.mono fun _ ha => covered_cons.mpr (.inl ha)

theorem reads_tail (h : b.Reads old once (Covered ps) b') : b.Reads old once (Covered (p :: ps)) b' :=
  h.mono fun _ ha => covered_cons.mpr (.inr ha)

theorem Lasts.before (h : Lasts old s' p b.toHoldings) (hs : s.Sends old s') : Lasts old s p b.toHoldings :=
  fun a ha => (hs.keeps a).trans (h a ha)

theorem Lasts.part (h : Lasts old s p b.toHoldings) (hlo : p.lo ≤ q.lo) (hhi : q.hi ≤ p.hi) :
    Lasts old s q b.toHoldings :=
  fun a ha => h a (ha.imp_right fun ha => ⟨Nat.le_trans hlo ha.1, Nat.lt_of_lt_of_le ha.2 hhi⟩)

/-- Reading what other cells were made for leaves it there. -/
theorem lasts_of_reads (hreads : b.Reads old once R b') (h : Lasts old s p b.toHoldings)
    (hR : ∀ a, R a → old ≤ a ∧ ¬p.Covers a) : Lasts old s p b'.toHoldings := by
  refine fun a ha => (h a ha).trans (hreads.keeps a fun hr => ?_)
  rcases ha with ha | ha
  · exact absurd (hR a hr).1 (Nat.not_le.mpr ha)
  · exact (hR a hr).2 ha

theorem lasts_of_head (hreads : b.Reads old once p.Covers b') (h : Lasts old s q b.toHoldings) (hnew : old ≤ p.lo)
    (hpq : p.hi ≤ q.lo) : Lasts old s q b'.toHoldings :=
  lasts_of_reads hreads h fun _ ha => ⟨Nat.le_trans hnew ha.1, ha.not_later hpq⟩

theorem lasts_of_tail (hreads : b.Reads old once (Covered ps) b') (h : Lasts old s p b.toHoldings)
    (hnew : ∀ q ∈ ps, old ≤ q.lo) (hbefore : ∀ q ∈ ps, p.hi ≤ q.lo) : Lasts old s p b'.toHoldings := by
  refine lasts_of_reads hreads h ?_
  rintro a ⟨q, hq, ha⟩
  exact ⟨Nat.le_trans (hnew q hq) ha.1, fun hp => hp.not_later (hbefore q hq) ha⟩

end

/-- What was sent after `old` is accepted for a type and read as `v`, as long as it is there. -/
structure Standing (sv : Nat → Services Ω) (old : Address) (once : Prop) (s : Holdings Ω) (p : Sent) (t : NativeType)
    (v : t.Value Ω) : Prop where
  accepted : t.accepts p.wire = true
  /-- The value and what it was sent as refer to old objects only. -/
  refs : (∀ a ∈ p.wire.refs, a < old) ∧ ∀ a ∈ t.refs v, a < old
  new : old ≤ p.lo
  foreseen : t.consumes = true → ∀ b : Boundary Ω, Lasts old s p b.toHoldings → b.call.receiver = none →
    precheck b t p.wire = .ok ()
  reads : ∀ n (b : Boundary Ω), p.wire.depth ≤ n → Lasts old s p b.toHoldings → b.call.receiver = none → b.Clear →
    (fromWire (sv n) t p.wire).Recovers old once p.Covers b v

/-- Exports may nest up to some depth for each object. -/
def Nests (sv : Services Ω) (fieldsOf : FieldsOf Ω) : Prop :=
  ∀ exporter o, ∃ depth, fieldsOf exporter o = fieldsAt sv depth exporter o

/-- Whenever the value is sent after `s`, what was sent before is left alone, and the value is stood for. -/
def Returns (sv : Nat → Services Ω) (once : Prop) (s : Holdings Ω) (n : Nat) (fieldsOf : FieldsOf Ω) (t : NativeType)
    (v : t.Value Ω) : Prop :=
  ∀ b w b', s.Sends s.heap.cells.length b.toHoldings → b.Ready → b.Closed →
    toWireWith (sv n) fieldsOf t v b = .ok w b' →
    b.toHoldings.Sends s.heap.cells.length b'.toHoldings ∧
      Standing sv s.heap.cells.length once b'.toHoldings ⟨w, b.heap.cells.length, b'.heap.cells.length⟩ t v

/-- The value comes back, however deeply exports nest: once if `once` holds, otherwise as often as it is read. -/
def RoundTrips (sv : Nat → Services Ω) (once : Prop) (s : Holdings Ω) (t : NativeType) (v : t.Value Ω) : Prop :=
  ∀ n fieldsOf, Nests (sv n) fieldsOf → Returns sv once s n fieldsOf t v

variable {sv : Nat → Services Ω} {s s' : Holdings Ω} {n : Nat} {fieldsOf : FieldsOf Ω} {t : NativeType} {p : Sent}

theorem nests_fields (sv : Services Ω) : Nests sv (fields sv) :=
  fun exporter o => ⟨exporter.depth o, rfl⟩

theorem nests_fieldsAt (sv : Services Ω) (depth : Nat) : Nests sv (fieldsAt sv depth) :=
  fun _ _ => ⟨depth, rfl⟩

theorem Standing.later {v : t.Value Ω} (h : Standing sv old once s p t v) (hs : s.Sends old s') :
    Standing sv old once s' p t v :=
  { h with
    foreseen := fun ht b hb => h.foreseen ht b (hb.before hs)
    reads := fun n b hn hb => h.reads n b hn (hb.before hs) }

/-! ## Items -/

/-- Values that were sent one after another, from the cell `lo` on and before `hi`. -/
structure Row (P : Sent → α → Prop) (lo hi : Address) (ps : List Sent) (xs : List α) : Prop where
  each : List.Forall₂ P ps xs
  apart : ps.Pairwise fun p q => p.hi ≤ q.lo
  within : ∀ p ∈ ps, lo ≤ p.lo ∧ p.hi ≤ hi

section
variable {P : Sent → α → Prop} {ps : List Sent} {xs : List α} {lo hi : Address}

theorem Row.lasts (h : Row P lo hi ps xs) {b : Boundary Ω} {w : Wire} (hb : Lasts old s ⟨w, lo, hi⟩ b.toHoldings) :
    ∀ p ∈ ps, Lasts old s p b.toHoldings :=
  fun p hp => hb.part (h.within p hp).1 (h.within p hp).2

theorem Row.covers (h : Row P lo hi ps xs) (w : Wire) (a : Address) (ha : Covered ps a) :
    (Sent.mk w lo hi).Covers a := by
  obtain ⟨p, hp, hlo, hhi⟩ := ha
  exact ⟨Nat.le_trans (h.within p hp).1 hlo, Nat.lt_of_lt_of_le hhi (h.within p hp).2⟩

theorem Row.widen (h : Row P lo hi ps xs) {lo' hi' : Address} (hlo : lo' ≤ lo) (hhi : hi ≤ hi') : Row P lo' hi' ps xs :=
  { h with within := fun p hp => ⟨Nat.le_trans hlo (h.within p hp).1, Nat.le_trans (h.within p hp).2 hhi⟩ }

theorem Row.imp {Q : Sent → α → Prop} (h : Row P lo hi ps xs) (hPQ : ∀ p x, P p x → Q p x) : Row Q lo hi ps xs :=
  { h with each := h.each.imp hPQ }

/-- Lists of values refer to the objects that their items refer to, and so does what they were sent as. -/
theorem refs_sent {refs : α → List Address} (h : List.Forall₂ P ps xs)
    (hP : ∀ p x, P p x → (∀ a ∈ p.wire.refs, a < old) ∧ ∀ a ∈ refs x, a < old) :
    (∀ a ∈ Wire.refsAll (ps.map Sent.wire), a < old) ∧ ∀ a ∈ xs.flatMap refs, a < old := by
  induction h with
  | nil => exact ⟨fun _ ha => (nomatch ha), fun _ ha => nomatch ha⟩
  | @cons p x _ _ hp _ ih =>
    obtain ⟨hwire, hvalue⟩ := hP p x hp
    refine ⟨fun a ha => ?_, fun a ha => ?_⟩
    · rw [List.map_cons, Wire.refsAll, List.mem_append] at ha
      exact ha.elim (hwire a) (ih.1 a)
    · rw [List.flatMap_cons, List.mem_append] at ha
      exact ha.elim (hvalue a) (ih.2 a)

end

section
variable {ps : List Sent} {xs : List (t.Value Ω)} (h : List.Forall₂ (fun p => Standing sv old once s p t) ps xs)
include h

theorem accepts_items : (ps.map Sent.wire).all t.accepts = true := by
  induction h with
  | nil => rfl
  | cons hp _ ih => rw [List.map_cons, List.all_cons, hp.accepted, ih, Bool.true_and]

theorem foresees_items (ht : t.consumes = true) {b : Boundary Ω} (hb : ∀ p ∈ ps, Lasts old s p b.toHoldings)
    (hreceiver : b.call.receiver = none) : (ps.map Sent.wire).forM (precheck b t) = .ok () := by
  induction h with
  | nil => rfl
  | @cons p _ ps _ hp _ ih =>
    change (precheck b t p.wire >>= fun _ => (ps.map Sent.wire).forM (precheck b t)) = .ok ()
    rw [hp.foreseen ht b (hb p List.mem_cons_self) hreceiver]
    exact ih fun q hq => hb q (List.mem_cons_of_mem p hq)

theorem recovers_items (hapart : ps.Pairwise fun p q => p.hi ≤ q.lo) (refs : t.Value Ω → List Address) {n : Nat}
    (hn : Wire.depthAll (ps.map Sent.wire) ≤ n) {b : Boundary Ω} (hb : ∀ p ∈ ps, Lasts old s p b.toHoldings)
    (hreceiver : b.call.receiver = none) (hclear : b.Clear) :
    (listFromWire refs (fromWire (sv n) t) (ps.map Sent.wire)).Recovers old once (Covered ps) b xs := by
  induction h generalizing b with
  | nil => exact .pure b []
  | @cons p x ps xs hp _ ih =>
    rw [List.map_cons, Wire.depthAll] at hn
    obtain ⟨hbefore, hapart⟩ := List.pairwise_cons.mp hapart
    obtain ⟨b₁, hread, h₁⟩ := hp.reads n b (by omega) (hb p List.mem_cons_self) hreceiver hclear
    have hlasts (q : Sent) (hq : q ∈ ps) : Lasts old s q b₁.toHoldings :=
      lasts_of_head h₁ (hb q (List.mem_cons_of_mem p hq)) hp.new (hbefore q hq)
    obtain ⟨b₂, hrest, h₂⟩ := ih hapart (by omega) hlasts (h₁.call ▸ hreceiver) (h₁.clear hclear)
    exact ⟨b₂, (Act.bind_ok (orDrop_ok hread)).trans ((Act.bind_ok (orDrop_ok hrest)).trans rfl),
      (reads_head h₁).trans (reads_tail h₂)⟩

end

variable {ps : List Sent} {lo hi : Address}

theorem standing_vector {xs : List (t.Value Ω)} (h : Row (fun p => Standing sv old once s p t) lo hi ps xs)
    (hnew : old ≤ lo) : Standing sv old once s ⟨.array (ps.map Sent.wire), lo, hi⟩ (.vector t) xs where
  accepted := accepts_items h.each
  refs := refs_sent h.each fun _ _ hp => hp.refs
  new := hnew
  foreseen ht b hb hreceiver := foresees_items h.each ht (h.lasts hb) hreceiver
  reads n b hn hb hreceiver hclear := by
    rw [Wire.depth] at hn
    exact (recovers_items h.each h.apart t.refs (by omega) (h.lasts hb) hreceiver hclear).mono (h.covers _)

theorem standing_array {size : Nat} {xs : Vector (t.Value Ω) size}
    (h : Row (fun p => Standing sv old once s p t) lo hi ps xs.toList) (hnew : old ≤ lo) :
    Standing sv old once s ⟨.array (ps.map Sent.wire), lo, hi⟩ (.array t size) xs := by
  have hlength : (ps.map Sent.wire).length = size := by
    rw [List.length_map, h.each.length_eq, xs.length_toList]
  refine ⟨?_, refs_sent h.each fun _ _ hp => hp.refs, hnew, fun ht b hb hreceiver => ?_, fun n b hn hb hreceiver hclear => ?_⟩
  · change ((ps.map Sent.wire).length == size && (ps.map Sent.wire).all t.accepts) = true
    rw [beq_iff_eq.mpr hlength, Bool.true_and]
    exact accepts_items h.each
  · unfold precheck
    rw [if_pos hlength]
    exact foresees_items h.each ht (h.lasts hb) hreceiver
  · rw [Wire.depth] at hn
    unfold fromWire
    dsimp only
    rw [if_pos hlength]
    have hitems := recovers_items h.each h.apart t.refs (n := n) (by omega) (h.lasts hb) hreceiver hclear
    refine (hitems.mono (h.covers _)).bind fun b₁ _ => ?_
    rw [dif_pos xs.length_toList]
    exact .pure b₁ xs

/-- What is sent for no value is read as no value, and only that. -/
theorem standing_some {x : t.Value Ω} (h : Standing sv old once s p t x) (hp : p.wire.isNullish = false) :
    Standing sv old once s p (.optional t) (some x) := by
  refine ⟨?_, h.refs, h.new, fun ht b hb hreceiver => ?_, fun n b hn hb hreceiver hclear => ?_⟩
  · change (p.wire.isNullish || t.accepts p.wire) = true
    rw [h.accepted, Bool.or_true]
  · unfold precheck
    rw [hp]
    exact h.foreseen ht b hb hreceiver
  · unfold fromWire
    rw [hp]
    exact (h.reads n b hn hb hreceiver hclear).bind fun b₁ _ => .pure b₁ _

theorem standing_none (hnew : old ≤ lo) : Standing sv old once s ⟨.null, lo, hi⟩ (.optional t) none :=
  ⟨rfl, ⟨fun _ ha => (nomatch ha), fun _ ha => nomatch ha⟩, hnew, fun _ _ _ _ => rfl, fun _ b _ _ _ _ => .pure b _⟩

theorem standing_result {x : t.Value Ω} (h : Standing sv old once s p t x) :
    Standing sv old once s p (.result t) (.ok x) where
  accepted := h.accepted
  refs := h.refs
  new := h.new
  foreseen ht := nomatch ht
  reads n b hn hb hreceiver hclear := (h.reads n b hn hb hreceiver hclear).bind fun b₁ _ => .pure b₁ _

/-- What each item of a list stands for once it is sent stands for it after the whole list is sent. -/
theorem listToWire_ok {P : Holdings Ω → Sent → α → Prop}
    (hlater : ∀ s s' p x, s.Sends old s' → P s p x → P s' p x) {refs : α → List Address} {convert : α → Act Ω Wire} :
    ∀ {xs : List α}, (∀ x ∈ xs, ∀ b w b', s.Sends old b.toHoldings → b.Ready → b.Closed → convert x b = .ok w b' →
      b.toHoldings.Sends old b'.toHoldings ∧
        P b'.toHoldings ⟨w, b.heap.cells.length, b'.heap.cells.length⟩ x) →
    ∀ {b : Boundary Ω} {ws : List Wire} {b' : Boundary Ω}, s.Sends old b.toHoldings → b.Ready → b.Closed →
      listToWire refs convert xs b = .ok ws b' →
      b.toHoldings.Sends old b'.toHoldings ∧ ∃ ps, ps.map Sent.wire = ws ∧
        Row (P b'.toHoldings) b.heap.cells.length b'.heap.cells.length ps xs
  | [], _, b, _, _, _, _, _, h => by
    cases h
    exact ⟨.refl _ _, [], rfl, .nil, .nil, fun _ hp => nomatch hp⟩
  | x :: xs, hconvert, b, _, b', hb, hready, hclosed, h => by
    obtain ⟨w, b₁, hw, h⟩ := Act.bind_eq_ok h
    obtain ⟨ws, b₂, hws, h⟩ := Act.bind_eq_ok h
    cases h
    obtain ⟨h₁, hx⟩ := hconvert x List.mem_cons_self b w b₁ hb hready hclosed (orDrop_eq_ok hw)
    obtain ⟨h₂, ps, rfl, hps⟩ := listToWire_ok hlater (fun y hy => hconvert y (List.mem_cons_of_mem x hy))
      (hb.trans h₁) (h₁.ready hready) (h₁.closed hclosed) (orDrop_eq_ok hws)
    refine ⟨h₁.trans h₂, ⟨w, b.heap.cells.length, b₁.heap.cells.length⟩ :: ps, rfl,
      .cons (hlater _ _ _ _ h₂ hx) hps.each, List.pairwise_cons.mpr ⟨fun q hq => (hps.within q hq).1, hps.apart⟩,
      fun q hq => ?_⟩
    rcases List.mem_cons.mp hq with rfl | hq
    · exact ⟨Nat.le_refl _, h₂.length_le⟩
    · exact ⟨Nat.le_trans h₁.length_le (hps.within q hq).1, (hps.within q hq).2⟩

theorem returns_items {xs : List (t.Value Ω)} (hxs : ∀ x ∈ xs, Returns sv once s n fieldsOf t x) {b b' : Boundary Ω}
    {ws : List Wire} (hb : s.Sends s.heap.cells.length b.toHoldings) (hready : b.Ready) (hclosed : b.Closed)
    (h : listToWire t.refs (toWireWith (sv n) fieldsOf t) xs b = .ok ws b') :
    b.toHoldings.Sends s.heap.cells.length b'.toHoldings ∧ ∃ ps, ps.map Sent.wire = ws ∧
      Row (fun p => Standing sv s.heap.cells.length once b'.toHoldings p t) b.heap.cells.length b'.heap.cells.length
        ps xs :=
  listToWire_ok (P := fun s' p => Standing sv s.heap.cells.length once s' p t) (fun _ _ _ _ hs hp => hp.later hs)
    (fun x hx b w b' hb hready hclosed hw => hxs x hx b w b' hb hready hclosed hw) hb hready hclosed h

/-! ## What is wrapped -/

/-- The handle that a strong pointer to an object is wrapped under names a wrapper of the object's class. -/
theorem wrap_ok {s : Holdings Ω} (hs : s.Ready) {p : Pointer} (hp : p.weak = false)
    (hclass : s.heap.classAt? p.address = some p.cls) (owned : Bool) (flags : TypeFlags) :
    s.Undisturbed (s.wrap p owned flags).2 ∧
      ∃ v, (s.wrap p owned flags).2.table.live? (s.wrap p owned flags).1 = some v ∧ v.ownership.isStrong = true ∧
        v.cls = p.cls ∧ v.address = p.address ∧ v.isConst = flags.contains .const := by
  have hwrap := hs.wrap hclass owned flags
  obtain ⟨v, hv, hstrong, hkey⟩ := Holdings.strong_wrap hs.sound hp owned flags
  obtain ⟨haddress, hconst⟩ := IdentityKey.mk.inj hkey
  have htyped := (hwrap.ready hs).typed _ v hv
  rw [haddress, Heap.classAt?_kept hwrap.contents hclass] at htyped
  exact ⟨hwrap, v, hv, hstrong, (Option.some.inj htyped).symm, haddress, hconst⟩

/-- The wrapper of a handle holds an object of its class alone, and is not const. -/
structure Owns (s : Holdings Ω) {c : Class} (x : Instance Ω c) (g : Handle) (v : Wrapper) : Prop where
  live : s.table.live? g = some v
  strong : v.ownership.isStrong = true
  cls : v.cls = c
  const : v.isConst = false
  sole : s.Sole v.address x.object

section
variable {c : Class} {x : Instance Ω c} {g : Handle} {v : Wrapper}

theorem Owns.keeps (h : Owns s x g v) (hs : s.Keeps old s' v.address) (hold : old ≤ v.address) : Owns s' x g v where
  live := hs.live g v h.live h.strong rfl
  strong := h.strong
  cls := h.cls
  const := h.const
  sole := hs.sole hold _ h.sole

theorem Owns.lasts (h : Owns s x g v) (hp : p.Covers v.address) (hnew : old ≤ p.lo) (hs : Lasts old s p s') :
    Owns s' x g v :=
  h.keeps (hs v.address (.inr hp)) (Nat.le_trans hnew hp.1)

/-- An object that a wrapper alone holds is copied as often as it is read. -/
theorem standing_copied (h : Owns s x g v) (hx : ∀ a ∈ x.refs, a < old) (hnew : old ≤ lo)
    (hcovers : (Sent.mk (.object g) lo hi).Covers v.address) :
    Standing sv old once s ⟨.object g, lo, hi⟩ (.object c) x where
  accepted := rfl
  refs := ⟨fun _ ha => (nomatch ha), hx⟩
  new := hnew
  foreseen ht := nomatch ht
  reads n b _ hb _ _ := by
    have hthere := h.lasts hcovers hnew hb
    exact Access.recovers_copy (sv n) hthere.live hthere.strong hthere.cls hthere.sole.cell hx hcovers

/-- It can also be moved out, once. -/
theorem standing_moved (honce : once) (h : Owns s x g v) (hx : ∀ a ∈ x.refs, a < old) (hnew : old ≤ lo)
    (hcovers : (Sent.mk (.object g) lo hi).Covers v.address) :
    Standing sv old once s ⟨.object g, lo, hi⟩ (.handle .unique c) x := by
  have hmovable {b : Boundary Ω} (hb : Lasts old s ⟨.object g, lo, hi⟩ b.toHoldings) (hreceiver : b.call.receiver = none) :
      Access.Movable b.call.receiver b.toHoldings c g v := by
    have hthere := h.lasts hcovers hnew hb
    refine ⟨hthere.live, hthere.cls, ?_, hthere.const, hthere.strong, Heap.strong_of_cell hthere.sole.cell⟩
    rw [hreceiver]
    exact nofun
  refine ⟨rfl, ⟨fun _ ha => (nomatch ha), hx⟩, hnew, fun _ b hb hreceiver => ?_, fun n b _ hb hreceiver _ => ?_⟩
  · exact Access.checkUnique_eq_ok.mpr ⟨v, hmovable hb hreceiver⟩
  · have hthere := h.lasts hcovers hnew hb
    have hobject : b.heap.object? v.address = some x.object := by
      rw [Heap.object?, hthere.sole.cell]
      rfl
    refine ⟨_, Access.takeUnique_eq_ok.mpr ⟨v, hmovable hb hreceiver, hobject, rfl⟩, fun a ha => ?_, fun y w hw => ?_,
      fun hnot => absurd honce hnot, rfl, fun hclear => hclear.of_eq rfl rfl⟩
    · refine Holdings.keeps_moveOut hthere.live ?_
      rintro rfl
      exact ha hcovers
    · rw [show (b.toHoldings.moveOut g v).table.live? y = _ from ObjectTable.live?_remove hthere.live y] at hw
      split at hw
      · cases hw
      · exact hw

end

/-- **An object that is wrapped is held by its wrapper alone.** -/
theorem wrapObject_ok {c : Class} {x : Instance Ω c} {b b' : Boundary Ω} {w : Wire} (hready : b.Ready)
    (hclosed : b.Closed) (hold : old ≤ b.heap.cells.length) (hx : ∀ a ∈ x.refs, a < old)
    (h : wrapObject x b = .ok w b') : b.toHoldings.Sends old b'.toHoldings ∧ ∃ g v, w = .object g ∧
      (Sent.mk w b.heap.cells.length b'.heap.cells.length).Covers v.address ∧ Owns b'.toHoldings x g v := by
  let p : Pointer := ⟨c, b.heap.cells.length, false⟩
  let s₁ : Holdings Ω := ⟨(b.heap.alloc x.object).2, b.table⟩
  have h₁ : b.toHoldings.Sends old s₁ := Holdings.sends_alloc hold hx
  have hclass : s₁.heap.classAt? p.address = some p.cls := by
    have hcell : s₁.heap.cells[b.heap.cells.length]? = some ⟨x.object, 1, 0, false⟩ := List.getElem?_concat_length
    rw [Heap.classAt?, hcell, Option.map_some, x.isOf]
  -- no wrapper has the new cell
  have hfree : ∀ o, ¬s₁.Sole p.address o := by
    rintro o ⟨-, ⟨g, v, hv, -, haddress⟩, -⟩
    exact Nat.ne_of_lt (hready.address_lt hv) haddress
  obtain ⟨-, v, hv, hstrong, hcls, haddress, hconst⟩ := wrap_ok (h₁.ready hready) rfl hclass true .none
  have hsole : (s₁.wrap p true .none).2.Sole v.address x.object := by
    rw [haddress]
    exact Holdings.sole_wrap hready hclosed hold hx rfl rfl true .none
  have h₂ : s₁.Sends old (s₁.wrap p true .none).2 :=
    Holdings.sends_wrap (h₁.ready hready) hclass (fun _ => hfree) true .none
  have hlt : v.address < (s₁.wrap p true .none).2.heap.cells.length := hsole.lt
  cases h
  exact ⟨h₁.trans h₂, _, v, rfl, ⟨Nat.le_of_eq haddress.symm, hlt⟩, hv, hstrong, hcls, hconst, hsole⟩

theorem returns_wrapped {c : Class} {x : Instance Ω c} {b b' : Boundary Ω} {w : Wire}
    (hb : s.Sends s.heap.cells.length b.toHoldings) (hready : b.Ready) (hclosed : b.Closed)
    (hx : ∀ a ∈ x.refs, a < s.heap.cells.length) (h : wrapObject x b = .ok w b') :
    b.toHoldings.Sends s.heap.cells.length b'.toHoldings ∧ Standing sv s.heap.cells.length once b'.toHoldings
      ⟨w, b.heap.cells.length, b'.heap.cells.length⟩ (.object c) x := by
  obtain ⟨hsends, g, v, rfl, hcovers, howns⟩ := wrapObject_ok hready hclosed hb.length_le hx h
  exact ⟨hsends, standing_copied howns hx hb.length_le hcovers⟩

/-! ## Values that come back at once -/

/-- Values that are sent without asking for others: pure data, numbers of single precision, what crosses the boundary
unconverted, shared objects, objects of classes that are no value types, and objects that may be taken back once. -/
def Plain (sv : Nat → Services Ω) (once : Prop) (s : Holdings Ω) : (t : NativeType) → t.Value Ω → Prop
  | .any, _ => True
  | .pointer, _ => True
  | .float .single, x => Binary64.toSingle x = x
  | .handle .shared c, a => s.heap.classAt? a = some c
  | .handle .constShared c, a => s.heap.classAt? a = some c
  | .handle .unique _, _ => once
  | .object c, _ => ∀ n, (sv n).exporter c = none
  | t, _ => t.IsData

theorem consumes_eq_false (ht : t.IsData) : t.consumes = false := by
  induction ht with
  | vector _ ih | array _ _ ih | optional _ _ ih => exact ih
  | _ => rfl

theorem roundTrips_data (ht : t.IsData) (v : t.Value Ω) : RoundTrips sv once s t v := by
  intro n fieldsOf _ b w b' hb _ _ h
  by_cases hv : t.Oversized v
  · obtain ⟨e, he⟩ := toWire_eq_fail (sv n) fieldsOf ht v hv
    rw [he] at h
    cases h
  · obtain ⟨w', hto, hfrom, hrefs, -⟩ := toWire_eq_pure (sv n) fieldsOf ht v hv
    rw [hto] at h
    cases h
    refine ⟨.refl _ _, ?_, ⟨?_, ?_⟩, hb.length_le, fun hconsumes => ?_, fun m b₂ _ _ _ _ => ?_⟩
    · -- No object is asked for: it is read alike where no value type is bound.
      let sv' : Services Ω := { sv n with binding := fun _ => none }
      have hrecords : sv'.RecordsOnly := fun _ _ h => nomatch h
      rw [fromWire_services ht sv' w] at hfrom
      have hread : fromWire sv' t w b = .ok v b := by
        rw [hfrom]
        rfl
      exact accepts_of_fromWire hrecords t w hread
    · rw [hrefs]
      exact nofun
    · rw [ht.refs]
      exact nofun
    · rw [consumes_eq_false ht] at hconsumes
      cases hconsumes
    · rw [fromWire_services ht (sv m) w] at hfrom
      rw [hfrom]
      exact .pure b₂ v

/-- What is sent as it is comes back as it is. -/
theorem returns_unchanged {v : t.Value Ω} {w : Wire} (hsent : ∀ sv fieldsOf, toWireWith (Ω := Ω) sv fieldsOf t v = pure w)
    (haccepted : t.accepts w = true) (hconsumes : t.consumes = false)
    (hread : ∀ sv, fromWire (Ω := Ω) sv t w = pure v)
    (hrefs : (∀ a ∈ w.refs, a < s.heap.cells.length) ∧ ∀ a ∈ t.refs v, a < s.heap.cells.length) :
    RoundTrips sv once s t v := by
  intro n fieldsOf _ b w' b' hb _ _ h
  rw [hsent] at h
  cases h
  refine ⟨.refl _ _, haccepted, hrefs, hb.length_le, fun ht => ?_, fun m b₂ _ _ _ _ => ?_⟩
  · rw [hconsumes] at ht
    cases ht
  · rw [hread]
    exact .pure b₂ v

/-- The wrapper of a shared object is old, or it is a new one for an old object: it is there as long as that is. -/
theorem recovers_shared {c : Class} {a : Address} {flags : TypeFlags} {b b' : Boundary Ω} {w : Wire} (hready : b.Ready)
    (hclass : b.heap.classAt? a = some c) (ha : a < old) (h : wrapShared c a flags b = .ok w b') :
    b.toHoldings.Sends old b'.toHoldings ∧ (∃ g, w = .object g) ∧
      ∀ (once : Prop) (R : Address → Prop) (p : Sent) (b₂ : Boundary Ω), Lasts old b'.toHoldings p b₂.toHoldings →
        (sharedFromWire c (flags.contains .const) w).Recovers old once R b₂ a := by
  let p : Pointer := ⟨c, a, false⟩
  obtain ⟨-, v, hv, hstrong, hcls, haddress, hconst⟩ := wrap_ok (p := p) hready rfl hclass false flags
  have hsends : b.toHoldings.Sends old (b.toHoldings.wrap p false flags).2 :=
    Holdings.sends_wrap hready hclass (fun hold => absurd ha (Nat.not_lt.mpr hold)) false flags
  cases h
  refine ⟨hsends, ⟨_, rfl⟩, fun once R q b₂ hb₂ => ?_⟩
  obtain rfl : v.address = a := haddress
  have hthere := (hb₂ v.address (.inl ha)).live _ v hv hstrong rfl
  exact Access.recovers_share hthere hstrong hcls (fun h => hconst.symm.trans h) ha

/-- **What is sent without asking for other values comes back.** -/
theorem roundTrips_plain : ∀ (t : NativeType) (v : t.Value Ω), Plain sv once s t v →
    (∀ a ∈ t.refs v, a < s.heap.cells.length) → RoundTrips sv once s t v
  | .any, w, _, hrefs => returns_unchanged (fun _ _ => rfl) rfl rfl (fun _ => rfl) ⟨hrefs, hrefs⟩
  | .pointer, p, _, hrefs => returns_unchanged (fun _ _ => rfl) rfl rfl (fun _ => rfl) ⟨hrefs, hrefs⟩
  | .float .single, x, hx, hrefs => by
    refine returns_unchanged (w := .float x) (fun _ _ => rfl) rfl rfl (fun _ => ?_) ⟨fun _ ha => (nomatch ha), hrefs⟩
    change (pure (Binary64.toSingle x) : Act Ω Binary64) = pure x
    rw [show Binary64.toSingle x = x from hx]
  | .handle .shared c, a, hclass, hrefs | .handle .constShared c, a, hclass, hrefs => by
    intro n fieldsOf _ b w b' hb hready hclosed h
    obtain ⟨hsends, ⟨g, rfl⟩, hreads⟩ := recovers_shared hready (Heap.classAt?_kept hb.contents hclass)
      (hrefs a List.mem_cons_self) h
    exact ⟨hsends, rfl, ⟨fun _ ha => (nomatch ha), hrefs⟩, hb.length_le, fun ht => (nomatch ht),
      fun _ b₂ _ hb₂ _ _ => hreads once _ _ b₂ hb₂⟩
  | .handle .unique c, x, honce, hrefs => fun n fieldsOf _ b w b' hb hready hclosed h => by
    obtain ⟨hsends, g, v, rfl, hcovers, howns⟩ := wrapObject_ok hready hclosed hb.length_le hrefs h
    exact ⟨hsends, standing_moved honce howns hrefs hb.length_le hcovers⟩
  | .object c, x, hexporter, hrefs => fun n fieldsOf _ b w b' hb hready hclosed h => by
    unfold toWireWith objectToWire at h
    rw [hexporter n] at h
    exact returns_wrapped hb hready hclosed hrefs h
  | .unit, v, ht, _ | .bool, v, ht, _ | .char, v, ht, _ | .int _, v, ht, _ | .float .double, v, ht, _ | .text, v, ht, _
  | .staticText, v, ht, _ | .callback, v, ht, _ | .vector _, v, ht, _ | .array _ _, v, ht, _ | .optional _, v, ht, _
  | .handle .borrowed _, v, ht, _ | .handle .constBorrowed _, v, ht, _ | .result _, v, ht, _ => roundTrips_data ht v

end Convert

end NativeBridge
