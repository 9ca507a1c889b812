import NativeBridge.Registry.Signature
/-!
# Overload groups

The entries of one name, at most one for each number of arguments. Once frozen a group takes no more.
-/
namespace NativeBridge

/-- Where a group's name lives. -/
inductive GroupScope where
  | global
  | cls (c : Class)
deriving DecidableEq, Inhabited

/-- Overloads by arity, ascending. -/
structure OverloadGroup where
  name : String
  scope : GroupScope
  overloads : List (Nat × EntryRef)
  frozen : Bool
deriving Inhabited

namespace OverloadGroup

def empty (name : String) (scope : GroupScope) : OverloadGroup :=
  ⟨name, scope, [], false⟩

/-- The pairs with a new one at its place. -/
def insertAt (arity : Nat) (entry : EntryRef) : List (Nat × EntryRef) → List (Nat × EntryRef)
  | [] => [(arity, entry)]
  | (n, e) :: rest =>
    if arity < n then (arity, entry) :: (n, e) :: rest else (n, e) :: insertAt arity entry rest

def overload? (g : OverloadGroup) (arity : Nat) : Option EntryRef :=
  g.overloads.lookup arity

/-- Add the overload of `arity` arguments. -/
def insert (g : OverloadGroup) (arity : Nat) (entry : EntryRef) : Except RegistrationError OverloadGroup :=
  if g.frozen then .error .alreadyInitialized
  else if (g.overload? arity).isSome then .error (.duplicateArity g.name arity)
  else .ok { g with overloads := insertAt arity entry g.overloads }

/-- The entry for a call with `count` arguments. -/
def resolve (g : OverloadGroup) (count : Nat) : Except CallError EntryRef :=
  match g.overload? count with
  | some e => .ok e
  | none => .error (.arityMismatch g.name count)

def maxArity? (g : OverloadGroup) : Option Nat :=
  g.overloads.getLast?.map (·.1)

def size (g : OverloadGroup) : Nat :=
  g.overloads.length

/-- Exactly one overload: a call then need not be checked to be told apart from another. -/
def isSingle (g : OverloadGroup) : Bool :=
  g.size == 1

def freeze (g : OverloadGroup) : OverloadGroup :=
  { g with frozen := true }

end OverloadGroup
end NativeBridge
