import Vcrtl.Lib.Links
import Vcrtl.Lib.Runs
import Vcrtl.X86.ThrowFrame

namespace Vcrtl.X86.Steps

open Lib.Custody Lib.Links Lib.Runs BugCheck EhStructs ThrowFrame

structure FunctionFrame where
  addr : Ptr
  handler : Ptr
  ehInfo : FunctionEhInfo
  frameBase : Ptr

/-- What stands on the stack, innermost first. A throw in flight is inside when
it searches the catch body of the next frame. A catch frame is closing while its
handler destroys the exception: the frame is still registered. The number is
the exception that a throw or handler is about; only the proofs look at it. -/
inductive Cell
  | function (f : FunctionFrame)
  | throwing (addr : Ptr) (tf : CxxThrowFrame) (subject : Nat) (inside : Bool)
  | catching (addr : Ptr) (tf : CxxThrowFrame) (subject : Nat)
  | closing (addr : Ptr) (tf : CxxThrowFrame)

/-- The registration record of a catch frame comes right before its throw frame.
A throw in flight has none. -/
def registration (handler : Ptr) : Cell → Option SehRegistration
  | .function f => some ⟨f.addr, f.handler, .primary f.ehInfo f.frameBase⟩
  | .throwing _ _ _ _ => none
  | .catching addr tf _ | .closing addr tf => some ⟨addr - 8, handler, .catchFrame addr tf⟩

def registrations (handler : Ptr) (stack : List Cell) : List SehRegistration :=
  stack.filterMap (registration handler)

def frameAddr : Cell → Option Ptr
  | .function _ => none
  | .throwing addr _ _ _ | .catching addr _ _ | .closing addr _ => some addr

def frameAddrs (stack : List Cell) : List Ptr := stack.filterMap frameAddr

def throwFrame : Cell → Option CxxThrowFrame
  | .function _ | .closing _ _ => none
  | .throwing _ tf _ _ | .catching _ tf _ => some tf

def subject : Cell → Option Nat
  | .function _ | .closing _ _ => none
  | .throwing _ _ n _ | .catching _ _ n => some n

def frameAt : List Cell → FrameAt
  | [], _ => none
  | .function _ :: rest, p => frameAt rest p
  | .throwing addr tf _ _ :: rest, p | .catching addr tf _ :: rest, p
  | .closing addr tf :: rest, p => if addr = p then some tf else frameAt rest p

def slot : Cell → Option (Slot Ptr ThrowInfo)
  | .function _ | .closing _ _ => none
  | .throwing addr tf n _ => some ⟨addr, tf.exceptionObjectOrLink, tf.throwInfoIfOwner, n, false⟩
  | .catching addr tf n => some ⟨addr, tf.exceptionObjectOrLink, tf.throwInfoIfOwner, n, true⟩

structure State where
  stack : List Cell
  record : Record Ptr ThrowInfo

def State.initial : State := ⟨[], .empty⟩

def Fresh (s : State) (a : Ptr) : Prop :=
  a ≠ null ∧ a ∉ frameAddrs s.stack ∧ a ∉ (owners (slots slot s.stack)).map Prod.fst

/-- The throw frame that `__CxxThrowException@8` pushes. -/
def initThrowFrame (exceptionObject : Ptr) (throwInfo : Option ThrowInfo) : CxxThrowFrame :=
  ⟨none, 0, 0, exceptionObject, throwInfo⟩

def SameException (a b : CxxThrowFrame) : Prop :=
  a.exceptionObjectOrLink = b.exceptionObjectOrLink ∧ a.throwInfoIfOwner = b.throwInfoIfOwner

def destroyAll (r : Record Ptr ThrowInfo) (calls : List DestroyCall) : Record Ptr ThrowInfo :=
  r.destroyAll (calls.map DestroyCall.object)

inductive Event
  | call
  | ret
  | throwNew
  | rethrow
  | search
  | skip
  | land
  | enter
  | landInside
  | leave
  | destroy
  | advance
  | finish

/-- A search goes over the handlers of a function or of a catch body in it. -/
def Searches : Bool → List Cell → Prop
  | false, .function _ :: _ => True
  | true, .catching _ _ _ :: _ => True
  | _, _ => False

/-- The steps of a run. Code may be entered, left or throw at any time, also
in a cleanup action or destructor that runs during a dispatch; a throw in
flight moves on when it is innermost and never past another one. -/
inductive Step : State → Event → State → Prop
  | call (f stack r) : Step ⟨stack, r⟩ .call ⟨.function f :: stack, r⟩
  | ret (f stack r) : Step ⟨.function f :: stack, r⟩ .ret ⟨stack, r⟩
  | throwNew (s : State) (addr obj ti) (hframe : Fresh s addr) (hobj : Fresh s obj)
      (hne : obj ≠ addr) :
      Step s .throwNew
        ⟨.throwing addr (initThrowFrame obj (some ti)) s.record.thrown.length false :: s.stack,
          s.record.hand obj ti⟩
  | rethrow (s : State) (addr n) (hframe : Fresh s addr)
      (hlive : current (slots slot s.stack) = some n) :
      Step s .rethrow ⟨.throwing addr (initThrowFrame null none) n false :: s.stack, s.record⟩
  | search (addr tf n inside stack r v handler tf') (hat : Searches inside stack)
      (h : ensureThrowInfo v (registrations handler stack)
        (frameAt (.throwing addr tf n inside :: stack)) tf = .ok tf') :
      Step ⟨.throwing addr tf n inside :: stack, r⟩ .search
        ⟨.throwing addr tf' n inside :: stack, r⟩
  | skip (addr tf n f stack r) :
      Step ⟨.throwing addr tf n false :: .function f :: stack, r⟩ .skip
        ⟨.throwing addr tf n false :: stack, r⟩
  | land (addr tf n f stack r tf') (hsame : SameException tf' tf) :
      Step ⟨.throwing addr tf n false :: .function f :: stack, r⟩ .land
        ⟨.catching addr tf' n :: .function f :: stack, r⟩
  | enter (addr tf n frameAddr frame m stack r) :
      Step ⟨.throwing addr tf n false :: .catching frameAddr frame m :: stack, r⟩ .enter
        ⟨.throwing addr (enterCatchFrame frameAddr frame tf) n true ::
          .catching frameAddr frame m :: stack, r⟩
  | landInside (addr tf n frameAddr frame m stack r tf') (hsame : SameException tf' tf) :
      Step ⟨.throwing addr tf n true :: .catching frameAddr frame m :: stack, r⟩ .landInside
        ⟨.catching addr tf' n :: .catching frameAddr frame m :: stack, r⟩
  | leave (addr tf n frameAddr frame m stack r tf')
      (h : leaveCatchFrame frameAddr frame tf = (tf', [])) :
      Step ⟨.throwing addr tf n true :: .catching frameAddr frame m :: stack, r⟩ .leave
        ⟨.throwing addr tf' n false :: stack, r⟩
  | destroy (addr tf n frameAddr frame m stack r tf' calls)
      (h : leaveCatchFrame frameAddr frame tf = (tf', calls)) (hcalls : calls ≠ []) :
      Step ⟨.throwing addr tf n true :: .catching frameAddr frame m :: stack, r⟩ .destroy
        ⟨.throwing addr tf' n false :: .closing frameAddr frame :: stack, destroyAll r calls⟩
  | advance (addr tf n frameAddr frame stack r) :
      Step ⟨.throwing addr tf n false :: .closing frameAddr frame :: stack, r⟩ .advance
        ⟨.throwing addr tf n false :: stack, r⟩
  | finish (addr tf n stack r) :
      Step ⟨.catching addr tf n :: stack, r⟩ .finish
        ⟨stack, destroyAll r (cxxDestroyThrowFrame tf)⟩

def firstCatch : List Cell → Option Cell
  | [] => none
  | .function _ :: rest | .throwing _ _ _ _ :: rest => firstCatch rest
  | c@(.catching _ _ _) :: _ | c@(.closing _ _) :: _ => some c

/-- The catch frame that a step links an empty throw frame to. -/
def linkTarget (s : State) : Event → Option Cell
  | .search =>
    match s.stack with
    | .throwing _ tf _ _ :: rest =>
      if tf.exceptionObjectOrLink = null then firstCatch rest else none
    | _ => none
  | .enter =>
    match s.stack with
    | .throwing _ tf _ _ :: c :: _ => if tf.exceptionObjectOrLink = null then some c else none
    | _ => none
  | _ => none

/-- Links are made only to live handlers such as `target` allows. -/
def LinksTo (target : Slot Ptr ThrowInfo → Prop) (s : State) (e : Event) : Prop :=
  ∀ c, linkTarget s e = some c → ∃ x, slot c = some x ∧ target x

theorem linksTo_none {target : Slot Ptr ThrowInfo → Prop} {s : State} {e : Event}
    (h : linkTarget s e = none) : LinksTo target s e := by
  intro c hc
  rw [h] at hc
  cases hc

/-- The image has two handlers, that of all functions and that of catch frames. -/
def safeHandlers : SehVerifier := ⟨0x10000, 0, 0, [0x10, 0x20]⟩

def functionAt (addr : Ptr) : FunctionFrame :=
  ⟨addr, 0x10, ⟨0x19930522, [], [], 0, 0⟩, addr + 12⟩

def destructible : ThrowInfo := ⟨0, 0x40, []⟩

/-- A function has caught an exception and its handler has called another function. -/
def inHandler : State :=
  ⟨[.function (functionAt 0x1800), .catching 0x3000 (initThrowFrame 0x2000 (some destructible)) 0,
    .function (functionAt 0x8000)], Record.empty.hand 0x2000 destructible⟩

theorem run_inHandler : ∃ tr, Run Step .initial tr inHandler ∧
    ∀ p ∈ tr, linkTarget p.1 p.2 = none ∧ p.2 ≠ .enter := by
  have h : Run Step .initial [] .initial := .nil
  have h := h.snoc (.call (functionAt 0x8000) [] .empty)
  have h := h.snoc (.throwNew _ 0x3000 0x2000 destructible ⟨by decide, by decide, by decide⟩
    ⟨by decide, by decide, by decide⟩ (by decide))
  have h := h.snoc (.land _ _ _ _ _ _ _ ⟨rfl, rfl⟩)
  have h := h.snoc (.call (functionAt 0x1800) _ _)
  exact ⟨_, h, by simp [linkTarget]⟩

end Vcrtl.X86.Steps
