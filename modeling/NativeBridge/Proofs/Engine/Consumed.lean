import NativeBridge.Proofs.Call.Demands
import NativeBridge.Proofs.Call.Recounts
import NativeBridge.Proofs.Engine.Gated
/-!
# Objects that a call consumes

A call that takes no object by value converts its other arguments without changing any wrapper or object. What is left
are the moves that the consuming arguments demand, one after another, from the table and the objects as the call found
them: when native code starts, each has been made once, native code has the objects, and the table has lost just those
wrappers (`Entry.consumed_once`).
-/
namespace NativeBridge
variable {Ω : Type} [ObjectModel Ω]

open Act ObjectTable

namespace NativeType

/-- The objects that the values of all arguments have taken over, in order. -/
def valuesUniques : (ts : List NativeType) → NativeType.Values Ω ts → List ((c : Class) × Instance Ω c)
  | [], _ => []
  | t :: ts, (x, xs) => t.uniques x ++ valuesUniques ts xs

theorem uniques_eq_nil : ∀ {t : NativeType} (x : t.Value Ω), t.consumes = false → t.uniques x = []
  | .vector t, xs, h => List.flatMap_eq_nil_iff.mpr fun x _ => uniques_eq_nil x h
  | .array t n, xs, h => List.flatMap_eq_nil_iff.mpr fun x _ => uniques_eq_nil x h
  | .optional t, x, h => by
    cases x with
    | none => rfl
    | some x => exact uniques_eq_nil (t := t) x h
  | .handle .unique _, _, h => nomatch h
  | .handle .shared _, _, _ | .handle .constShared _, _, _ | .handle .borrowed _, _, _ | .handle .constBorrowed _, _, _
  | .unit, _, _ | .bool, _, _ | .char, _, _ | .int _, _, _ | .float _, _, _ | .text, _, _ | .staticText, _, _
  | .any, _, _ | .callback, _, _ | .pointer, _, _ | .object _, _, _ | .result _, _, _ => rfl

end NativeType

namespace Entry
variable {sv : Services Ω}

theorem keeps_grasp (e : Entry Ω) : (e.grasp sv).Keeps Eq := by
  have hseize (mutable : Bool) (c : Class) : (Access.grasp sv c mutable).Keeps Eq := by
    refine .bind .get fun _ => .bind (.ofExcept _) fun _ => .bind .get fun _ => .bind (.ofExcept _) fun _ => ?_
    refine .bind .get fun b => ?_
    dsimp only
    split
    · exact .fail _
    refine .bind (.modify fun _ => rfl) fun _ => ?_
    split
    · exact .pure _
    · exact .onFailure (.fail _) fun _ => rfl
  cases e with
  | function params ret body | constructor c params body => exact .pure _
  | method c params ret body => exact hseize false c
  | methodMut c params ret body => exact hseize true c

/-! ## What a call demands -/

/-- What the consuming arguments from a position on demand. -/
def demands (args : List Wire) : List NativeType → Nat → Option (List (Class × Handle))
  | [], _ => some []
  | t :: ts, i =>
    if t.consumes then do return (← args[i]?.bind (Convert.demands t)) ++ (← demands args ts (i + 1))
    else demands args ts (i + 1)

/-- What is demanded depends on the consuming arguments only. -/
theorem demands_congr {args args' : List Wire} : ∀ {ts : List NativeType} {i : Nat},
    (∀ j t, ts[j]? = some t → t.consumes = true → args'[i + j]? = args[i + j]?) →
    demands args' ts i = demands args ts i
  | [], _, _ => rfl
  | t :: ts, i, h => by
    have htail : demands args' ts (i + 1) = demands args ts (i + 1) := demands_congr fun j u hu hconsumes => by
      have hj := h (j + 1) u hu hconsumes
      rwa [Nat.add_comm j 1, ← Nat.add_assoc] at hj
    rw [demands, demands, htail]
    split
    · rename_i ht
      rw [show args'[i]? = args[i]? from h 0 t rfl ht]
    · rfl

/-- The arguments that the first pass has left are those that it was given. -/
theorem demands_untaken {args : List Wire} {b : Boundary Ω} : ∀ {ts : List NativeType} {i : Nat}
    {xs : NativeType.PartialValues Ω ts}, Untaken args b ts i xs → Awaits ts xs →
    demands b.call.args ts i = demands args ts i
  | [], _, _, _, _ => rfl
  | t :: ts, i, (some x, xs), huntaken, ⟨ht, hawaits⟩ => by
    have ht : t.consumes = false := ht.symm
    rw [demands, demands, if_neg (Bool.eq_false_iff.mp ht), if_neg (Bool.eq_false_iff.mp ht)]
    exact demands_untaken huntaken hawaits
  | t :: ts, i, (none, xs), huntaken, ⟨_, hawaits⟩ => by
    rw [demands, demands, huntaken.1, demands_untaken huntaken.2 hawaits]

open Access in
/-- The second pass makes the moves that are demanded, and no others. -/
theorem delivers_late : ∀ {ts : List NativeType} {xs : NativeType.PartialValues Ω ts} {i : Nat} {b b' : Boundary Ω}
    {ys : NativeType.Values Ω ts}, Awaits ts xs → late sv ts xs i b = .ok ys b' →
    ∃ ms, demands b.call.args ts i = some (ms.map Move.demand) ∧
      NativeType.valuesUniques ts ys = ms.map Move.taken ∧
      Moved b.call.receiver b.toHoldings ms b'.toHoldings ∧ b'.call.receiver = b.call.receiver
  | [], _, _, b, _, _, _, h => by
    cases h
    exact ⟨[], rfl, rfl, .nil _, rfl⟩
  | t :: ts, (some x, xs), i, b, b', ys, ⟨ht, hawaits⟩, h => by
    have ht : t.consumes = false := ht.symm
    rw [late_some] at h
    obtain ⟨zs, b₁, hzs, h⟩ := Act.bind_eq_ok h
    cases h
    rw [demands, if_neg (Bool.eq_false_iff.mp ht), NativeType.valuesUniques, NativeType.uniques_eq_nil x ht]
    exact delivers_late hawaits (Act.orDrop_eq_ok hzs)
  | t :: ts, (none, xs), i, b, b', ys, ⟨ht, hawaits⟩, h => by
    have ht : t.consumes = true := ht.symm
    rw [late_none] at h
    obtain ⟨x, b₁, hx, h⟩ := Act.bind_eq_ok h
    obtain ⟨zs, b₂, hzs, h⟩ := Act.bind_eq_ok h
    cases h
    have hx := Act.orDrop_eq_ok hx
    cases hw : b.call.args[i]? with
    | none =>
      obtain ⟨w, b₃, htake, -⟩ := Act.bind_eq_ok hx
      unfold takeArg at htake
      rw [hw] at htake
      cases htake
    | some w =>
      rw [arg_eq hw] at hx
      obtain ⟨ms, hms, hxms, hmoved, hb₁⟩ := Convert.moved_of_fromWire t w ht _ _ _ (atArgument_eq_ok hx)
      obtain ⟨ns, hns, hzns, hmoved', hreceiver⟩ := delivers_late hawaits (Act.orDrop_eq_ok hzs)
      have hargs : demands b₁.call.args ts (i + 1) = demands b.call.args ts (i + 1) := by
        rw [hb₁]
        exact demands_congr fun j _ _ _ => List.getElem?_set_ne (by omega)
      have hcall : b₁.call.receiver = b.call.receiver := by rw [hb₁]
      rw [hcall] at hmoved' hreceiver
      refine ⟨ms ++ ns, ?_, ?_, hmoved.append hmoved', hreceiver⟩
      · rw [demands, if_pos ht, hw, ← hargs, hns, Option.bind_some, hms, List.map_append]
        rfl
      · rw [NativeType.valuesUniques, hxms, hzns, List.map_append]

/-! ## Once each -/

open Access in
/-- The moves `ms` are what a call from `b` has consumed when native code is started with `s` in `b'`. -/
structure Consumed (sv : Services Ω) (e : Entry Ω) (b : Boundary Ω) (s : e.Start) (b' : Boundary Ω) (ms : List (Move Ω)) :
    Prop where
  /-- They are what the arguments have at the positions of unique handles, in order. -/
  demanded : demands b.call.args e.params 0 = some (ms.map Move.demand)
  /-- Native code is given each of the objects, in order and once. -/
  received : NativeType.valuesUniques e.params s.args = ms.map Move.taken
  /-- They are the objects that were in the cells of the wrappers before the call. -/
  found : ∀ m ∈ ms, b.heap.object? m.wrapper.address = some m.object.object
  handles : (ms.map (·.handle)).Nodup
  objects : (ms.map (·.wrapper.address)).Nodup
  /-- Before the call each handle was the one of its wrapper. -/
  live : ∀ m ∈ ms, b.table.live? m.handle = some m.wrapper
  /-- They were made one after another in the second pass of the call, from the wrappers and objects as they were before
  it, each out of a live wrapper that was of just the class asked for, not const, not the receiver's, and held the only
  strong reference to the object. All that came after was to take hold of the receiver. -/
  moved : ∃ ys b₁ b₂, early sv e.params 0 b = .ok ys b₁ ∧ b₁.table = b.table ∧ b₁.heap.contents = b.heap.contents ∧
    late sv e.params ys 0 b₁ = .ok s.args b₂ ∧ Moved b.call.receiver b₁.toHoldings ms b₂.toHoldings ∧
    e.grasp sv b₂ = .ok s.receiver b'
  /-- The table is the one before without just those wrappers. -/
  table : b'.table = ((ms.map (·.handle)).foldl Holdings.letGo b.toHoldings).table
  others : ∀ g, b'.table.live? g = if g ∈ ms.map (·.handle) then none else b.table.live? g

open Access in
/-- **A call consumes each object once.** Whenever the native code of an entry that takes no object by value is started,
whatever the table, the receiver and the arguments: the handles at the positions of unique handles are pairwise
different, each was movable when the call moved it, native code has the objects, and the table has lost just those
wrappers. -/
theorem consumed_once {env : Environment Ω} {depth : Nat} {e : Entry Ω} (hparams : ∀ t ∈ e.params, t.byHandle = true)
    {b b' : Boundary Ω} {s : e.Start} (hstart : e.begin (env.services depth) b = .ok s b') :
    ∃ ms, e.Consumed (env.services depth) b s b' ms := by
  obtain ⟨xs, b₂, hxs, hstart⟩ := Act.bind_eq_ok hstart
  obtain ⟨r, b₃, hr, hstart⟩ := Act.bind_eq_ok hstart
  cases hstart
  rw [arguments_eq] at hxs
  obtain ⟨ys, b₁, hearly, hxs⟩ := Act.bind_eq_ok hxs
  obtain ⟨⟨⟩, b₀, hchecks, hlate⟩ := Act.bind_eq_ok hxs
  obtain rfl := checks_eq_ok (Act.orDrop_eq_ok hchecks)
  have hgrasp := Act.orDrop_eq_ok hr
  have hawaits := awaits_early hearly
  -- the first pass leaves the wrappers, the objects, the receiver and the consuming arguments alone
  have huncounted : b₀.uncounted = b.uncounted := by
    have hrecounts : ((early (env.services depth) e.params 0).final b).uncounted = b.uncounted :=
      recounts_early 0 hparams b
    rwa [final_ok hearly] at hrecounts
  obtain ⟨htable, hcontents⟩ := Prod.mk.inj huncounted
  obtain ⟨hsame, -, huntaken, -⟩ := early_ok hearly fun _ _ => rfl
  have hargs := demands_untaken huntaken hawaits
  obtain ⟨ms, hms, htaken, hmoved, -⟩ := delivers_late hawaits hlate
  rw [hsame.1] at hmoved
  -- and the taking hold of the receiver leaves the table alone
  have hgrasped : b'.table = b₂.table := by
    have hkeeps := (keeps_grasp e : (e.grasp (env.services depth)).Keeps Eq) b₂
    rw [final_ok hgrasp] at hkeeps
    exact hkeeps.symm
  have hrest : b'.table = ((ms.map (·.handle)).foldl Holdings.letGo b.toHoldings).table := by
    rw [hgrasped, hmoved.table]
    exact Holdings.table_letGo_all htable _
  refine ⟨ms, hargs ▸ hms, htaken, fun m hm => ?_, hmoved.nodup.1, hmoved.nodup.2, fun m hm => ?_,
    ⟨ys, b₀, b₂, hearly, htable, hcontents, hlate, hmoved, hgrasp⟩, hrest, fun g => ?_⟩
  · rw [← Heap.object?_of_contents hcontents]
    exact (hmoved.movable m hm).2
  · rw [← htable]
    exact (hmoved.movable m hm).1.live
  · rw [hrest, Holdings.live?_letGo_all]

end Entry

/-! ## A call that consumes two of three nodes -/

namespace Entry
open Catalog

/-- A function of a list of nodes. -/
def crew : Entry Specimen :=
  .function [.vector (.handle .unique Species.node.cls)] .unit fun _ => .done ()

/-- Three nodes with their wrappers, of which the third and the first are handed over. -/
def threeNodes : Boundary Specimen where
  heap := ⟨[⟨.node "a", 1, 0, false⟩, ⟨.node "b", 1, 0, false⟩, ⟨.node "c", 1, 0, false⟩]⟩
  table := ⟨[⟨0, some ⟨Species.node.cls, 0, .owned, .none⟩⟩, ⟨0, some ⟨Species.node.cls, 1, .owned, .none⟩⟩,
    ⟨0, some ⟨Species.node.cls, 2, .owned, .none⟩⟩], [],
    [(⟨2, false⟩, ⟨2, 0⟩), (⟨1, false⟩, ⟨1, 0⟩), (⟨0, false⟩, ⟨0, 0⟩)]⟩
  sinks := []
  call := .new [.array [.object ⟨2, 0⟩, .object ⟨0, 0⟩]] none 0
  program := ⟨none, []⟩
  pointers := []
  journal := []

theorem crew_starts : ∃ s b', crew.begin ((Environment.bare Specimen).services 0) threeNodes = .ok s b' := by
  let sv : Services Specimen := (Environment.bare Specimen).services 0
  have hchecks : crew.checks sv threeNodes = .ok () threeNodes := checks_ok (by cbv) (by cbv)
  have hlate : ∃ xs b', late sv crew.params (none, ()) 0 threeNodes = .ok xs b' := by
    refine ⟨([⟨.node "c", rfl⟩, ⟨.node "a", rfl⟩], ()), (late sv crew.params (none, ()) 0).final threeNodes, ?_⟩
    change late sv [_] _ _ _ = _
    rw [late_none]
    cbv
  obtain ⟨xs, b', hlate⟩ := hlate
  have hearly : early sv crew.params 0 threeNodes = .ok (none, ()) threeNodes := rfl
  have hargs : arguments sv crew.params (crew.check sv) threeNodes = .ok xs b' := by
    rw [arguments_eq, Act.bind_ok hearly, Act.bind_ok (orDrop_ok hchecks)]
    exact hlate
  refine ⟨⟨(), xs⟩, b', ?_⟩
  rw [begin, Act.bind_ok hargs]
  rfl

/-- The function is given both nodes, and the second stays where it is. -/
theorem crew_consumed : ∃ s b' ms, crew.begin ((Environment.bare Specimen).services 0) threeNodes = .ok s b' ∧
    crew.Consumed ((Environment.bare Specimen).services 0) threeNodes s b' ms ∧ ms.map (·.handle) = [⟨2, 0⟩, ⟨0, 0⟩] ∧
    b'.table.live? ⟨1, 0⟩ = threeNodes.table.live? ⟨1, 0⟩ := by
  obtain ⟨s, b', hstart⟩ := crew_starts
  obtain ⟨ms, hms⟩ := consumed_once (by decide) hstart
  have hhandles : ms.map (·.handle) = [⟨2, 0⟩, ⟨0, 0⟩] := by
    have hsnd := congrArg (Option.map (List.map Prod.snd)) hms.demanded
    rw [Option.map_some, List.map_map] at hsnd
    exact (Option.some.inj hsnd).symm
  refine ⟨s, b', ms, hstart, hms, hhandles, ?_⟩
  rw [hms.others, hhandles, if_neg (by decide)]

end Entry
end NativeBridge
