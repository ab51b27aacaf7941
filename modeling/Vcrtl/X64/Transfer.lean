import Vcrtl.X64.Capture

namespace Vcrtl.X64.Transfer

open Lib.Memory Lib.Listing Lib.Amd64 Lib.Parts BugCheck EhStructs Unwinder Capture

/-- What a throw calls, apart from the functions that only return. -/
structure Env where
  dispatch : Cpu → Cpu → Prop
  funclet : Cpu → Cpu → Prop
  destroy : Cpu → Cpu → Prop

def Env.returns (env : Env) : Callee → Cpu → Cpu → Prop
  | .cxxDispatchException => env.dispatch
  | .rcx => env.funclet
  | .cxxDestroyException => env.destroy
  | .nlgDispatch2 | .nlgReturn2 => fun s t => ∃ returnAddress, t = s.returned returnAddress

structure Conforms (s t : Cpu) : Prop where
  rsp : t.reg .rsp = s.reg .rsp
  context : context t = context s

/-- The functions keep to the convention, and to what the frame has for the time
after them: the return address behind `throw_fr`, and in `catch_fr` the machine
frame, for the handler with the three words behind it. -/
structure Env.Abides (env : Env) : Prop where
  dispatch : ∀ s t, env.dispatch s t →
    Conforms s t ∧ Same s.mem t.mem (slot (s.reg .rsp) 0x158) 8
  funclet : ∀ s t, env.funclet s t →
    Conforms s t ∧ Same s.mem t.mem (slot (s.reg .rsp) 0x20) 0x40
  destroy : ∀ s t, env.destroy s t →
    Conforms s t ∧ Same s.mem t.mem (slot (s.reg .rsp) 0x20) 0x28

def thrower (s : Cpu) : Caller := ⟨context s, readWord s.mem (s.reg .rsp), s.reg .rsp + 8⟩

def catcher (s : Cpu) : Caller :=
  let mach := machFrameAt s.mem (slot (s.reg .rsp) 0x100)
  ⟨contextAt s.mem (slot (s.reg .rsp) 0x20), mach.rip, mach.rsp⟩

/-- Where the catching function goes on after its handler: at one of the addresses
in the catch info, or where the handler says. -/
def continuation (dispatched handled : Cpu) : Ptr :=
  if handled.reg .rax ≤ 1 then
    readWord dispatched.mem (slot (dispatched.reg .rsp) 0x128 + 8 * handled.reg .rax)
  else
    handled.reg .rax

def capturedFlags (s : Cpu) : BitVec 64 :=
  (s.statusOfSub (s.reg .rsp) 0x30).rflags &&& 0xfcffff

/-- The whole context of the thrower is in the throw frame, and nothing else was written. -/
structure Captured (s t : Cpu) : Prop where
  rsp : t.reg .rsp = s.reg .rsp - 0x158
  aligned : aligned (t.reg .rsp)
  exceptionObject : t.reg .rcx = s.reg .rcx
  throwInfo : t.reg .rdx = s.reg .rdx
  throwFrame : t.reg .r8 = t.reg .rsp
  context : contextAt t.mem (slot (t.reg .r8) 0x20) = context s
  mach : machFrameAt t.mem (slot (t.reg .r8) 0x100) = ⟨(thrower s).rip,
    (s.selector .cs).setWidth 64, capturedFlags s, (thrower s).rsp, (s.selector .ss).setWidth 64⟩
  mem : Same s.mem t.mem (s.reg .rsp) (2 ^ 64 - 0x158)

/-- The handler is called with the frame pointer and the registers of the catcher,
on what the dispatch has left from `catch_fr` on. -/
structure Landed (dispatched t : Cpu) : Prop where
  rsp : t.reg .rsp = slot (dispatched.reg .rsp) 0xe0
  aligned : aligned (t.reg .rsp)
  handler : t.reg .rcx = dispatched.reg .rax
  primaryFramePtr : t.reg .rdx = readWord dispatched.mem (slot (dispatched.reg .rsp) 0x138)
  context : context t = (catcher dispatched).ctx
  mem : Same dispatched.mem t.mem (t.reg .rsp) (2 ^ 64 - 0xe0)

structure Finished (dispatched handled t : Cpu) : Prop where
  rsp : t.reg .rsp = slot (dispatched.reg .rsp) 0xe0
  aligned : aligned (t.reg .rsp)
  catchInfo : t.reg .rcx = slot (dispatched.reg .rsp) 0x128
  mem : Same handled.mem t.mem (t.reg .rcx) (2 ^ 64 - 0x128)

structure Resumed (dispatched handled t : Cpu) : Prop where
  rip : t.rip = continuation dispatched handled
  rsp : t.reg .rsp = (catcher dispatched).rsp
  context : context t = (catcher dispatched).ctx
  cs : t.selector .cs =
    (machFrameAt dispatched.mem (slot (dispatched.reg .rsp) 0x100)).cs.setWidth 16
  ss : t.selector .ss =
    (machFrameAt dispatched.mem (slot (dispatched.reg .rsp) 0x100)).ss.setWidth 16
  rflags : t.rflags = (machFrameAt dispatched.mem (slot (dispatched.reg .rsp) 0x100)).eflags

def unwound : Funclet → Nat × Nat
  | .cxxThrowException => (0x158, 8)
  | .cxxEhApplyContext => (0x20, 0x108)
  | .cxxCallCatchHandler | .cxxCallExceptionDestructor => (0x20, 0x28)
  | .cxxContinueAfterException => (0, 0x28)

/-- Where the unwinder may start for a place in the listing, from `.endprolog` on. For a call it
is also where the return address is. -/
def active : Code → List Region
  | (.prolog, _) :: _ | [] => []
  | (r, .call _) :: (r', _) :: _ => [r, r']
  | (r, _) :: _ => [r]

/-- In `_CxxThrowException` the caller is the thrower. In the functions behind it it is the catcher,
and behind the store of the continuation the catcher with the address at which it goes on. -/
def Expected (s : Cpu) (calls : List (Called Callee Cpu)) (r : Region) (x : Caller) : Prop :=
  match r with
  | .prolog | .body .cxxThrowException => x = thrower s
  | .body .cxxEhApplyContext | .body .cxxCallCatchHandler =>
    ∃ d ∈ calls, d.callee = .cxxDispatchException ∧ x = catcher d.after
  | .redirected | .body .cxxCallExceptionDestructor | .body .cxxContinueAfterException =>
    ∃ d ∈ calls, d.callee = .cxxDispatchException ∧ ∃ h ∈ calls, h.callee = .rcx ∧
      x = { catcher d.after with rip := continuation d.after h.after }

/-- Whatever is done to the rest of the memory, the unwinder finds the right caller. -/
def Stacked (offsets : Nat → BitVec 8) (s : Cpu) (calls : List (Called Callee Cpu)) (r : Region)
    (t : Cpu) : Prop :=
  ∀ m, Same t.mem m (slot (t.reg .rsp) (unwound r.funclet).1) (unwound r.funclet).2 →
    ∃ x, callerOf offsets r.funclet m t = .ok x ∧ Expected s calls r x

def AtCall (s : Cpu) (calls : List (Called Callee Cpu)) (t : Cpu) : Callee → Prop
  | .cxxDispatchException => calls = [] ∧ Captured s t
  | .rcx => ∃ d n, calls = [d, n] ∧ d.callee = .cxxDispatchException ∧ n.callee = .nlgDispatch2 ∧
      Landed d.after t
  | .cxxDestroyException => ∃ d n h n' n'', calls = [d, n, h, n', n''] ∧
      d.callee = .cxxDispatchException ∧ h.callee = .rcx ∧ Finished d.after h.after t
  | .nlgDispatch2 => ∃ d ∈ calls, d.callee = .cxxDispatchException ∧
      t.reg .rdx = readWord d.after.mem (slot (d.after.reg .rsp) 0x138) ∧
      (calls = [d] ∧ t.reg .rcx = d.after.reg .rax ∧ t.reg .r8 = 1 ∨
        ∃ h ∈ calls, h.callee = .rcx ∧ t.reg .rcx = continuation d.after h.after ∧ t.reg .r8 = 2)
  | .nlgReturn2 => True

structure AtLine (offsets : Nat → BitVec 8) (s : Cpu) (calls : List (Called Callee Cpu))
    (code : Code) (t : Cpu) : Prop where
  callstack : ∀ r ∈ active code, Stacked offsets s calls r t
  call : ∀ f k rest, code = (f, .call k) :: rest → AtCall s calls t k

def Done (calls : List (Called Callee Cpu)) (t : Cpu) : Prop :=
  ∃ d n h n' n'' e, calls = [d, n, h, n', n'', e] ∧ calls.map Called.callee =
    [.cxxDispatchException, .nlgDispatch2, .rcx, .nlgReturn2, .nlgDispatch2,
      .cxxDestroyException] ∧ Resumed d.after h.after t

variable {offsets : Nat → BitVec 8} {s t : Cpu} {b : Ptr} {r r' : Region}
  {past : List (Called Callee Cpu)} {code : Code} {n : Nat} {i : Instr} {k : Callee}
  {l : Line Instr Condition Callee}

theorem address_above (s : Cpu) (r : Reg) (n : Nat) : s.address (.above r n) = slot (s.reg r) n :=
  rfl

theorem aligned_slot (hb : aligned b = true) (hn : n % 16 = 0) : aligned (slot b n) = true := by
  simp only [aligned, decide_eq_true_eq, slot, BitVec.toNat_add, BitVec.toNat_ofNat] at *
  omega

theorem atLine_prolog : AtLine offsets s past ((.prolog, .instr i) :: code) t :=
  ⟨by simp [active], by simp⟩

theorem atLine_instr (h : Stacked offsets s past r t) :
    AtLine offsets s past ((r, .instr i) :: code) t := by
  refine ⟨?_, by simp⟩
  cases r with
  | prolog => simp [active]
  | body f => simpa [active] using h
  | redirected => simpa [active] using h

theorem atLine_skip {c : Condition} {n : Nat} (h : Stacked offsets s past r t) :
    AtLine offsets s past ((r, .skip c n) :: code) t := by
  refine ⟨?_, by simp⟩
  cases r with
  | prolog => simp [active]
  | body f => simpa [active] using h
  | redirected => simpa [active] using h

theorem atLine_call (hr : Stacked offsets s past r t) (hr' : Stacked offsets s past r' t)
    (hk : AtCall s past t k) : AtLine offsets s past ((r, .call k) :: (r', l) :: code) t := by
  constructor
  · cases r with
    | prolog => simp [active]
    | body f => simpa [active] using ⟨hr, hr'⟩
    | redirected => simpa [active] using ⟨hr, hr'⟩
  · intro f' k' rest' heq
    cases heq
    exact hk

end Vcrtl.X64.Transfer
