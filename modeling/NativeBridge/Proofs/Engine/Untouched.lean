import Mathlib
import NativeBridge.Catalog.Specimen
import NativeBridge.Proofs.Call.Moves
import NativeBridge.Proofs.Engine.Constructors
/-!
# Calls that fail before their body runs

Such a call has changed the object table only through the conversion of its arguments: in the first pass by nested
constructors that move objects out, in the second by the handles that it came to before something failed. It never
adds a wrapper.
-/
namespace NativeBridge
variable {Ω : Type} [ObjectModel Ω]

open Act ObjectTable Catalog

/-! ## What an action can yield -/

section
variable {α β γ : Type} {Q : α → Prop}

/-- Whatever the action yields satisfies `Q`. With an empty `Q` it never succeeds. -/
def Act.Yields (Q : α → Prop) (act : Act Ω α) : Prop :=
  ∀ b a b', act b = .ok a b' → Q a

omit [ObjectModel Ω] in
theorem Act.Yields.fail (e : CallError) : (Act.fail e : Act Ω α).Yields Q := by
  intro b a b' h
  cases h

omit [ObjectModel Ω] in
theorem Act.Yields.bind {act : Act Ω β} {f : β → Act Ω α} (hf : ∀ x, (f x).Yields Q) : (act >>= f).Yields Q := by
  intro b a b' h
  obtain ⟨x, b₁, -, h⟩ := Act.bind_eq_ok h
  exact hf x b₁ a b' h

omit [ObjectModel Ω] in
theorem Act.Yields.ensuring {act : Act Ω α} (hact : act.Yields Q) (after : Boundary Ω → Boundary Ω) :
    (act.ensuring after).Yields Q := by
  intro b a b' h
  unfold Act.ensuring at h
  split at h
  · rename_i a₁ b₁ hb
    cases h
    exact hact b a b₁ hb
  · cases h

omit [ObjectModel Ω] in
theorem Act.Yields.ofOutcome {x : Except Interrupt α} (hx : ∀ a, x = .ok a → Q a) :
    (Act.ofOutcome x : Act Ω α).Yields Q := by
  intro b a b' h
  cases x with
  | ok a₁ =>
    cases h
    exact hx a rfl
  | error i => cases h

theorem Access.yields_reading (a : Address) (path : List (Upcast Ω)) (c : Class) {use : Instance Ω c → Act Ω α}
    (huse : ∀ x, (use x).Yields Q) : (Access.reading a path c use).Yields Q := by
  unfold Access.reading
  refine .bind fun b => ?_
  dsimp only
  split
  · exact .fail _
  refine .bind fun _ => .ensuring ?_ _
  split
  · exact huse _
  · exact .fail _

theorem Access.yields_writing (a : Address) (path : List (Upcast Ω)) (c : Class)
    {use : Instance Ω c → Act Ω (Except Interrupt α × Instance Ω c)}
    (huse : ∀ x, (use x).Yields fun r => ∀ a, r.1 = .ok a → Q a) : (Access.writing a path c use).Yields Q := by
  unfold Access.writing
  refine .bind fun b => ?_
  dsimp only
  split
  · exact .fail _
  refine .bind fun _ => .ensuring ?_ _
  split
  · exact .fail _
  split
  · exact .fail _
  intro b a b' h
  obtain ⟨r, b₁, hr, h⟩ := Act.bind_eq_ok h
  obtain ⟨-, b₂, -, h⟩ := Act.bind_eq_ok h
  exact Act.Yields.ofOutcome (huse _ b r b₁ hr) b₂ a b' h

omit [ObjectModel Ω] in
/-- Two actions in a row fail, of which the second never succeeds: the table is left as the first left it. -/
theorem table_of_failed {act : Act Ω α} {use : α → Act Ω β} {rest : β → Act Ω γ} {b b' : Boundary Ω} {i : Interrupt}
    (hyields : ∀ a, (use a).Yields fun _ => False) (hkeeps : ∀ a, (use a).Keeps Eq)
    (h : (act >>= fun a => use a >>= rest) b = .error i b') : b'.table = (act.final b).table := by
  cases hact : act b with
  | ok a b₁ =>
    rw [Act.bind_ok hact] at h
    have htable := hkeeps a b₁
    rw [final_ok hact, htable]
    cases huse : use a b₁ with
    | ok x b₂ => exact (hyields a b₁ x b₂ huse).elim
    | error j b₂ =>
      rw [bind_error huse] at h
      cases h
      rw [final_error huse]
  | error j b₁ =>
    rw [bind_error hact] at h
    cases h
    rw [final_error hact]

end

namespace Entry

/-- The receiver's check between the two passes. -/
def check (sv : Services Ω) : Entry Ω → Boundary Ω → Except CallError Unit
  | .function _ _ _ => fun _ => .ok ()
  | .method c _ _ _ => fun b => Access.checkThis sv b c false
  | .methodMut c _ _ _ => fun b => Access.checkThis sv b c true
  | .constructor _ _ _ => fun _ => .ok ()

/-- The entry with a body that only panics. -/
def panicking (p : Panic) : Entry Ω → Entry Ω
  | .function params ret _ => .function params ret fun _ => .panic p
  | .method c params ret _ => .method c params ret fun _ _ => .panic p
  | .methodMut c params ret _ => .methodMut c params ret fun _ => .panic p
  | .constructor c params _ => .constructor c params fun _ => .panic p

/-- A call in which the body does not run: it would make no difference if it panicked. -/
def Stops (sv : Services Ω) (e : Entry Ω) (b : Boundary Ω) : Prop :=
  ∀ p, (e.panicking p).run sv b = e.run sv b

/-- The call passes every check between the two passes, in the state that the first pass leaves. -/
def Cleared (sv : Services Ω) (e : Entry Ω) (b b₁ : Boundary Ω) : Prop :=
  (∃ xs, early sv e.params 0 b = .ok xs b₁) ∧ e.check sv b₁ = .ok () ∧ precheck b₁ e.params 0 = .ok ()

theorem yields_runFree {α : Type} (sv : Services Ω) (refs : α → List Address) (held : List Address) (p : Panic) :
    (runFree sv refs held (.panic p)).Yields fun _ => False := by
  intro b a b' h
  cases h

theorem yields_runReading {c : Class} {α : Type} (sv : Services Ω) (refs : α → List Address) (held : List Address)
    (p : Panic) : (runReading sv refs held fun _ : Instance Ω c => .panic p).Yields fun _ => False := by
  refine .ensuring (.bind fun _ => .bind fun _ => .bind fun _ => .bind fun _ => ?_) _
  refine Access.yields_reading _ _ c fun x b a b' h => ?_
  cases h

theorem yields_runWriting {c : Class} {α : Type} (sv : Services Ω) (refs : α → List Address) (held : List Address)
    (p : Panic) : (runWriting sv refs held (.panic p : Body Ω (Instance Ω c) α)).Yields fun _ => False := by
  refine .ensuring (.bind fun _ => .bind fun h => ?_) _
  intro b a b' h
  obtain ⟨⟨outcome, fresh⟩, b₁, hr, h⟩ := Act.bind_eq_ok h
  have hpanic : outcome = .error (.panic p) := by
    obtain ⟨b₂, b₃, -, hr⟩ := Act.bind_eq_ok hr
    obtain ⟨l, b₄, -, hr⟩ := Act.bind_eq_ok hr
    refine Access.yields_writing (Q := fun r => r.1 = .error (.panic p)) _ _ c (fun x b₅ s b₆ hs => ?_) b₄ _ b₁ hr
    cases hs
    intro r hr
    cases hr
    rfl
  subst hpanic
  cases h

/-- A call that fails without running its body leaves the table as the conversion of its arguments did. -/
theorem table_of_stopped {sv : Services Ω} {e : Entry Ω} {b b' : Boundary Ω} {i : Interrupt} (hstops : e.Stops sv b)
    (hrun : e.run sv b = .error i b') : b'.table = ((arguments sv e.params (e.check sv)).final b).table := by
  rw [← hstops .other] at hrun
  cases e with
  | function params ret body => exact table_of_failed (fun _ => yields_runFree _ _ _ _) (fun _ => keeps_runFree _ _ _) hrun
  | method c params ret body =>
    exact table_of_failed (fun _ => yields_runReading _ _ _ _) (fun _ => keeps_runReading _ _ _) hrun
  | methodMut c params ret body =>
    exact table_of_failed (fun _ => yields_runWriting _ _ _ _) (fun _ => keeps_runWriting _ _ _) hrun
  | constructor c params body =>
    exact table_of_failed (fun _ => yields_runFree _ _ _ _) (fun _ => keeps_runFree _ _ _) hrun

/-- The checks between the two passes. -/
def checks (sv : Services Ω) (e : Entry Ω) : Act Ω Unit := do
  Act.ofExcept (e.check sv (← get))
  Act.ofExcept (precheck (← get) e.params 0)

theorem checks_ok {sv : Services Ω} {e : Entry Ω} {b : Boundary Ω} (hcheck : e.check sv b = .ok ())
    (hpre : precheck b e.params 0 = .ok ()) : e.checks sv b = .ok () b := by
  rw [checks, get_bind, hcheck]
  change (Act.ofExcept (precheck b e.params 0)) b = _
  rw [hpre]
  rfl

theorem checks_error {sv : Services Ω} {e : Entry Ω} {b : Boundary Ω}
    (h : ¬ (e.check sv b = .ok () ∧ precheck b e.params 0 = .ok ())) : ∃ i, e.checks sv b = .error i b := by
  rw [checks, get_bind]
  cases hcheck : e.check sv b with
  | error i => exact ⟨.error i, rfl⟩
  | ok _ =>
    change ∃ i, (Act.ofExcept (precheck b e.params 0)) b = _
    cases hpre : precheck b e.params 0 with
    | error i => exact ⟨.error i, rfl⟩
    | ok _ => exact absurd ⟨hcheck, hpre⟩ h

theorem checks_eq_ok {sv : Services Ω} {e : Entry Ω} {b b' : Boundary Ω} (h : e.checks sv b = .ok () b') : b' = b := by
  by_cases hclear : e.check sv b = .ok () ∧ precheck b e.params 0 = .ok ()
  · rw [checks_ok hclear.1 hclear.2] at h
    cases h
    rfl
  · obtain ⟨i, hi⟩ := checks_error hclear
    rw [hi] at h
    cases h

theorem arguments_eq (sv : Services Ω) (e : Entry Ω) :
    arguments sv e.params (e.check sv) = (do
      let xs ← early sv e.params 0
      (e.checks sv).orDrop (NativeType.partialRefs e.params xs)
      late sv e.params xs 0) := rfl

theorem shrinks_early {sv : Services Ω} (hconstruct : ∀ c args, (sv.construct c args).Keeps Shrinks)
    (ts : List NativeType) (i : Nat) : (early sv ts i).Keeps Shrinks :=
  keeps_early hconstruct ts i fun _ _ _ _ => Access.shrinks_takeUnique

/-- The conversion of the arguments leaves the table alone exactly if its first pass does and its second, if it comes to
that, has no handle to move. -/
theorem arguments_table_iff {sv : Services Ω} (hconstruct : ∀ c args, (sv.construct c args).Keeps Shrinks)
    (e : Entry Ω) (b : Boundary Ω) :
    ((arguments sv e.params (e.check sv)).final b).table = b.table ↔
      ((early sv e.params 0).final b).table = b.table ∧
        ∀ b₁, e.Cleared sv b b₁ → (moves b₁.call.args e.params 0).1 = [] := by
  rw [arguments_eq]
  have hshrinks := shrinks_early hconstruct e.params 0 b
  cases hearly : early sv e.params 0 b with
  | error i b₁ =>
    rw [final_bind_error hearly, final_error hearly]
    refine ⟨fun h => ⟨h, fun b₂ hclear => ?_⟩, And.left⟩
    obtain ⟨⟨xs, hxs⟩, -⟩ := hclear
    rw [hearly] at hxs
    cases hxs
  | ok xs b₁ =>
    rw [final_ok hearly] at hshrinks
    rw [final_bind_ok hearly, final_ok hearly]
    have hunique {b₂ : Boundary Ω} (hclear : e.Cleared sv b b₂) : b₂ = b₁ := by
      obtain ⟨⟨ys, hys⟩, -⟩ := hclear
      rw [hearly] at hys
      cases hys
      rfl
    by_cases hclear : e.check sv b₁ = .ok () ∧ precheck b₁ e.params 0 = .ok ()
    · rw [final_bind_ok (orDrop_ok (checks_ok hclear.1 hclear.2))]
      obtain ⟨hsame, hless⟩ := late_table hconstruct e.params xs 0 b₁ (awaits_early hearly) hclear.2
      by_cases hmoves : (moves b₁.call.args e.params 0).1 = []
      · rw [hsame hmoves]
        refine ⟨fun h => ⟨h, fun b₂ hb₂ => ?_⟩, And.left⟩
        rwa [hunique hb₂]
      · refine ⟨fun h => ?_, fun h => absurd (h.2 b₁ ⟨⟨xs, hearly⟩, hclear⟩) hmoves⟩
        have hlt := Nat.lt_of_lt_of_le (hless hmoves) hshrinks.le
        rw [h] at hlt
        exact absurd hlt (Nat.lt_irrefl _)
    · obtain ⟨i, hi⟩ := checks_error hclear
      rw [final_bind_error (orDrop_error hi)]
      refine ⟨fun h => ⟨h, fun b₂ hb₂ => ?_⟩, And.left⟩
      obtain rfl := hunique hb₂
      exact absurd hb₂.2 hclear

end Entry

/-- **What a call that fails before its body runs has done to the object table.** It never adds a wrapper. It has left
the table alone exactly if the first pass over the arguments did and the second, where the call came to it, met no
handle to move before something failed. The first pass changes nothing if no constructor moves objects out. -/
theorem Environment.stopped_table_iff {env : Environment Ω} (henv : env.Constructs fun _ => True) (depth : Nat)
    (e : Entry Ω) {b b' : Boundary Ω} {i : Interrupt} (hstops : e.Stops (env.services depth) b)
    (hrun : e.run (env.services depth) b = .error i b') :
    b.table.Shrinks b'.table ∧
    (b'.table = b.table ↔
      ((Entry.early (env.services depth) e.params 0).final b).table = b.table ∧
        ∀ b₁, e.Cleared (env.services depth) b b₁ → (Entry.moves b₁.call.args e.params 0).1 = []) ∧
    ((env.Constructs fun t => t.movesOut = false) → (∀ t ∈ e.params, t.movesOut = true → t.consumes = true) →
      ((Entry.early (env.services depth) e.params 0).final b).table = b.table) := by
  have hconstruct := keeps_construct (henv.mono fun _ _ _ => Access.shrinks_takeUnique) depth
  rw [Entry.table_of_stopped hstops hrun]
  refine ⟨?_, Entry.arguments_table_iff hconstruct e b, fun hquiet hparams => ?_⟩
  · exact Entry.keeps_arguments hconstruct _ _ (fun _ _ _ => Access.shrinks_takeUnique) b
  · have hsame := keeps_construct (R := Eq) (hquiet.mono fun t ht hmoves => by simp [ht] at hmoves) depth
    refine (Entry.keeps_early hsame e.params 0 (fun t ht hconsumes hmoves => ?_) b).symm
    rw [hparams t ht hmoves] at hconsumes
    cases hconsumes

/-- A function of two nodes that are moved in. -/
def takeTwo : Entry Specimen :=
  .function [.handle .unique Species.node.cls, .handle .unique Species.node.cls] .unit fun _ => .done ()

/-- One node with its wrapper, handed over twice. -/
def sameTwice : Boundary Specimen where
  heap := ⟨[⟨.node "a", 1, 0, false⟩]⟩
  table := ⟨[⟨0, some ⟨Species.node.cls, 0, .owned, .none⟩⟩], [], [(⟨0, false⟩, ⟨0, 0⟩)]⟩
  sinks := []
  call := .new [.object ⟨0, 0⟩, .object ⟨0, 0⟩] none 0
  program := ⟨none, []⟩
  pointers := []
  journal := []

/-- The first node is moved out before the second turns out to be gone: the function does not run, and its argument is
lost. -/
theorem sameTwice_moved : takeTwo.Stops ((Environment.bare Specimen).services 0) sameTwice ∧
    ∃ b', takeTwo.run ((Environment.bare Specimen).services 0) sameTwice = .error (.error (.useAfterFree ⟨0, 0⟩)) b' ∧
      sameTwice.table.Shrinks b'.table ∧ b'.table ≠ sameTwice.table := by
  have hstops : takeTwo.Stops ((Environment.bare Specimen).services 0) sameTwice := by
    intro p
    cbv
  have hrun : takeTwo.run ((Environment.bare Specimen).services 0) sameTwice =
      .error (.error (.useAfterFree ⟨0, 0⟩)) ((takeTwo.run ((Environment.bare Specimen).services 0)).final sameTwice) := by cbv
  obtain ⟨hshrinks, hiff, -⟩ := Environment.stopped_table_iff (Environment.constructs_bare Specimen _) 0 takeTwo hstops hrun
  refine ⟨hstops, _, hrun, hshrinks, fun hsame => ?_⟩
  have hmoves := (hiff.mp hsame).2 sameTwice ⟨⟨(none, none, ()), by cbv⟩, by cbv, by cbv⟩
  have hmoved : (Entry.moves sameTwice.call.args takeTwo.params 0).1 = [⟨0, 0⟩, ⟨0, 0⟩] := by cbv
  rw [hmoved] at hmoves
  cases hmoves

end NativeBridge
