import Vcrtl.Displacement
import Vcrtl.EhFlags

namespace Vcrtl.CatchVariable

open Lib.Memory Displacement EhFlags

variable {w : Nat}

/-- What a frame handler does to the program: it calls code, and it binds or
copies the catch variable. An object to destroy may be found through a pointer
in a slot of the frame. -/
inductive Effect (w : Nat)
  | funclet (fn frame : BitVec w)
  | destroy (fn object : BitVec w)
  | destroyThrough (fn slot object : BitVec w)
  | reference (var object : BitVec w)
  | memcpy (dst src : BitVec w) (size : Nat)
  | copy (fn self other : BitVec w)
  | copyVb (fn self other : BitVec w)
  deriving DecidableEq

abbrev Code (w : Nat) := Effect w → Mem w → Mem w

structure World (w : Nat) where
  mem : Mem w
  trace : List (Effect w)

def World.perform (code : Code w) (e : Effect w) (s : World w) : World w where
  mem :=
    match e with
    | .reference var object => writeWord s.mem var object
    | .memcpy dst src size => write s.mem dst (readBytes s.mem src size)
    | .funclet _ _ | .destroy _ _ | .destroyThrough _ _ _ | .copy _ _ _ | .copyVb _ _ _ =>
      code e s.mem
  trace := s.trace ++ [e]

/-- The address of what an initialisation takes for the caught subobject. -/
def Effect.source : Effect w → Option (BitVec w)
  | .reference _ object => some object
  | .memcpy _ src _ => some src
  | .copy _ _ other | .copyVb _ _ other => some other
  | .funclet _ _ | .destroy _ _ | .destroyThrough _ _ _ => none

def initByValue (code : Code w) (properties : BitVec 32) (offset : PtrToMember) (size : BitVec 32)
    (copyFn : Option (BitVec w)) (var object : BitVec w) (s : World w) : World w :=
  if hasAnyOf properties CatchableProperty.isSimpleType then
    let s := s.perform code (.memcpy var object size.toNat)
    if size.toNat = w / 8 then
      let ptr := readWord s.mem var
      if ptr ≠ 0 then
        { s with mem := writeWord s.mem var (offset.apply s.mem ptr) }
      else
        s
    else
      s
  else
    match copyFn with
    | none => s.perform code (.memcpy var (offset.apply s.mem object) size.toNat)
    | some fn =>
      if hasAnyOf properties CatchableProperty.hasVirtualBase then
        s.perform code (.copyVb fn var object)
      else
        s.perform code (.copy fn var object)

/-- Everything done between two worlds takes the displaced object for its source. -/
def SeesSubobject (offset : PtrToMember) (object : BitVec w) (s t : World w) : Prop :=
  ∀ e ∈ t.trace.drop s.trace.length, e.source = some (offset.apply s.mem object)

variable {code : Code w} {properties size : BitVec 32} {offset : PtrToMember}
  {copyFn : Option (BitVec w)} {var object : BitVec w} {s : World w}

theorem sees_perform {e : Effect w} :
    SeesSubobject offset object s (s.perform code e) ↔
      e.source = some (offset.apply s.mem object) := by
  simp [SeesSubobject, World.perform]

theorem sees_object {e : Effect w} (he : e.source = some object) :
    SeesSubobject offset object s (s.perform code e) ↔ offset.apply s.mem object = object := by
  rw [sees_perform, he, Option.some.injEq, eq_comm]

theorem sees_initByValue (hclass : hasAnyOf properties CatchableProperty.isSimpleType = false) :
    SeesSubobject offset object s (initByValue code properties offset size copyFn var object s) ↔
      copyFn = none ∨ offset.apply s.mem object = object := by
  simp only [initByValue, hclass, Bool.false_eq_true, if_false]
  cases copyFn with
  | none => simp [sees_perform, Effect.source]
  | some fn =>
    simp only [reduceCtorEq, false_or]
    split
    · apply sees_object rfl
    · apply sees_object rfl

end Vcrtl.CatchVariable
