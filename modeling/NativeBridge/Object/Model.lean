import NativeBridge.Wire
/-!
# Native objects

The library is generic in the objects of the native program. All it needs to know of an object is its class
and the strong references that it holds.
-/
namespace NativeBridge

/-- A type of native objects. -/
class ObjectModel (Ω : Type) where
  /-- The class that an object belongs to. -/
  classOf : Ω → Class
  /-- The addresses of the objects that it keeps alive. -/
  refs : Ω → List Address

/-- An object of class `c`. -/
structure Instance (Ω : Type) [ObjectModel Ω] (c : Class) where
  object : Ω
  isOf : ObjectModel.classOf object = c

namespace Instance
variable {Ω : Type} [ObjectModel Ω]

/-- The object as an instance of `c`, if it is one. -/
def of? (c : Class) (o : Ω) : Option (Instance Ω c) :=
  if h : ObjectModel.classOf o = c then some ⟨o, h⟩ else none

def refs {c : Class} (x : Instance Ω c) : List Address :=
  ObjectModel.refs x.object

end Instance

/-- The step from an object to a superclass: the superclass object is a part of it, which can be looked at
and replaced. An object of another class has no such part. -/
structure Upcast (Ω : Type) where
  view : Ω → Option Ω
  put : Ω → Ω → Ω

namespace Upcast
variable {Ω : Type}

/-- The part at the end of a chain of steps. -/
def viewAlong : List (Upcast Ω) → Ω → Option Ω
  | [], o => some o
  | u :: us, o => (u.view o).bind (viewAlong us)

/-- Replace the part at the end of a chain of steps. -/
def putAlong : List (Upcast Ω) → Ω → Ω → Ω
  | [], _, part => part
  | u :: us, o, part =>
    match u.view o with
    | some inner => u.put o (putAlong us inner part)
    | none => o

end Upcast
end NativeBridge
