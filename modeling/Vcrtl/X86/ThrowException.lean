import Vcrtl.Lib.Ia32
import Vcrtl.Lib.Listing
import Vcrtl.Lib.Parts
import Vcrtl.X86.EhStructs

namespace Vcrtl.X86.ThrowException

open Lib.Memory Lib.Ia32 EhStructs
open Lib.Listing hiding run run_nil run_cons
open Lib.Parts (Same slot slot_add slot_sub slot_zero same_refl same_write)

inductive Label
  | cxxThrowException
  | nlgReturn2

/-- What it calls. The handler is called through `eax`. -/
inductive Callee
  | cxxDispatchException
  | nlgNotify
  | eax
  | cxxDestroyThrowFrame
  deriving DecidableEq

abbrev Code := Lines Label Instr Empty Callee

def construct : List Instr :=
  [.push (.place (.reg .ebp)),
    .mov (.reg .ebp) (.place (.reg .esp)),
    .push (.place (.above .ebp 0x0c)),
    .push (.place (.above .ebp 0x08)),
    .push (.imm 0),
    .push (.imm 0),
    .push (.imm 0),
    .lea .ecx .esp 0]

def enterFrame : List Instr :=
  [.mov (.reg .ebp) (.place (.above .esp 0x08)),
    .push (.imm 0x100)]

def pushRegistration (catchFrameHandler : Ptr) : List Instr :=
  [.push (.imm catchFrameHandler),
    .push (.place .fs0)]

def popRegistration : List Instr :=
  [.mov (.reg .ebx) (.place (.reg .eax)),
    .pop .ecx]

def passTwo : List Instr :=
  [.mov (.reg .ecx) (.imm 2),
    .mov (.above .esp 0) (.place (.reg .ecx))]

def leave : List Instr :=
  [.mov (.reg .esp) (.place (.below .ebp 0x10)),
    .jmp .ebx]

def listing (catchFrameHandler : Ptr) : Code :=
  lines .cxxThrowException construct ++
    (.cxxThrowException, .call .cxxDispatchException) ::
  (lines .cxxThrowException enterFrame ++
    (.cxxThrowException, .call .nlgNotify) ::
  (lines .cxxThrowException (pushRegistration catchFrameHandler) ++
    (.cxxThrowException, .instr (.mov .fs0 (.place (.reg .esp)))) ::
    (.cxxThrowException, .call .eax) ::
  (lines .nlgReturn2 popRegistration ++
    (.nlgReturn2, .instr (.mov .fs0 (.place (.reg .ecx)))) ::
  (lines .nlgReturn2 passTwo ++
    (.nlgReturn2, .call .nlgNotify) ::
    (.nlgReturn2, .instr (.lea .ecx .esp 0)) ::
    (.nlgReturn2, .call .cxxDestroyThrowFrame) ::
  lines .nlgReturn2 leave))))

/-- `_NLG_Notify`. A debugger stops at `__NLG_Dispatch`, behind the pushes. -/
def nlgPush : List Instr :=
  [.push (.place (.reg .ebp)),
    .push (.place (.above .esp 0x08)),
    .push (.place (.reg .eax))]

-- The last two are `ret 4`.
def nlgDispatch : List Instr :=
  [.add .esp (.imm 0x0c),
    .ret,
    .add .esp (.imm 4)]

def nlgNotify : List Instr := nlgPush ++ nlgDispatch

/-- What a throw calls, apart from the notification. -/
structure Env where
  dispatch : Cpu → Cpu → Prop
  funclet : Cpu → Cpu → Prop
  destroy : Cpu → Cpu → Prop

def Env.returns (env : Env) : Callee → Cpu → Cpu → Prop
  | .cxxDispatchException => env.dispatch
  | .nlgNotify => fun s t => ∃ returnAddress, t = run nlgNotify (s.push returnAddress)
  | .eax => env.funclet
  | .cxxDestroyThrowFrame => env.destroy

def machine (env : Env) : Machine Instr Empty Callee Cpu where
  exec i s := some (i.exec s)
  test c _ := c.elim
  returns := env.returns

structure SehRecord where
  next : Ptr
  handler : Ptr
  deriving DecidableEq

def sehRecordAt (m : Mem 32) (p : Ptr) : SehRecord := ⟨readWord m p, readWord m (p + 4)⟩

structure ThrowFr where
  ehInfo : Ptr
  unwoundState : BitVec 32
  primaryFrameBase : Ptr
  exceptionObject : Ptr
  throwInfo : Ptr
  deriving DecidableEq

def throwFrAt (m : Mem 32) (p : Ptr) : ThrowFr :=
  ⟨readWord m p, readWord m (p + 0x04), readWord m (p + 0x08), readWord m (p + 0x0c),
    readWord m (p + 0x10)⟩

/-- The handler keeps only the stack and the frame pointer. The destructor also keeps
`ebx`, as every function does. The record stays what it is while it is registered. -/
structure Env.Abides (env : Env) : Prop where
  dispatch : ∀ s t, env.dispatch s t → t.reg .esp = s.reg .esp
  funclet : ∀ s t, env.funclet s t → t.reg .esp = s.reg .esp ∧ t.reg .ebp = s.reg .ebp ∧
    t.fs0 = s.fs0 ∧ sehRecordAt t.mem (s.reg .esp) = sehRecordAt s.mem (s.reg .esp)
  destroy : ∀ s t, env.destroy s t → t.reg .esp = s.reg .esp ∧ t.reg .ebp = s.reg .ebp ∧
    t.fs0 = s.fs0 ∧ t.reg .ebx = s.reg .ebx

def frameBase (dispatched : Cpu) : Ptr :=
  (throwFrAt dispatched.mem (dispatched.reg .esp)).primaryFrameBase

/-- The dispatch gets a throw frame with what was thrown, on a stack that is otherwise
the thrower's. -/
structure Framed (s t : Cpu) : Prop where
  esp : t.reg .esp = s.reg .esp - 0x18
  throwFrame : t.reg .ecx = t.reg .esp
  frame : throwFrAt t.mem (t.reg .ecx) =
    ⟨0, 0, 0, readWord s.mem (s.reg .esp + 0x04), readWord s.mem (s.reg .esp + 0x08)⟩
  fs0 : t.fs0 = s.fs0
  mem : Same s.mem t.mem (s.reg .esp) (2 ^ 32 - 0x18)

/-- The handler is called in the frame of the function that catches, below a record of its
own that goes before what the dispatch has left of the chain. -/
structure Landed (catchFrameHandler : Ptr) (dispatched t : Cpu) : Prop where
  esp : t.reg .esp = dispatched.reg .esp - 0x08
  handler : t.reg .eax = dispatched.reg .eax
  ebp : t.reg .ebp = frameBase dispatched
  head : t.fs0 = t.reg .esp
  record : sehRecordAt t.mem t.fs0 = ⟨dispatched.fs0, catchFrameHandler⟩
  mem : Same dispatched.mem t.mem (dispatched.reg .esp) (2 ^ 32 - 0x14)

structure Finished (dispatched handled t : Cpu) : Prop where
  esp : t.reg .esp = dispatched.reg .esp
  throwFrame : t.reg .ecx = t.reg .esp
  fs0 : t.fs0 = dispatched.fs0
  mem : Same handled.mem t.mem (dispatched.reg .esp) (2 ^ 32 - 0x14)

structure Resumed (dispatched handled destroyed t : Cpu) : Prop where
  eip : t.eip = handled.reg .eax
  ebp : t.reg .ebp = frameBase dispatched
  esp : t.reg .esp = readWord destroyed.mem (t.reg .ebp - 0x10)
  fs0 : t.fs0 = dispatched.fs0
  mem : t.mem = destroyed.mem

/-- What a debugger sees of a notification. -/
def Notified (frame target code : BitVec 32) (t : Cpu) : Prop :=
  t.reg .ebp = frame ∧ t.reg .eax = target ∧ readWord t.mem (t.reg .esp) = code

def AtCall (catchFrameHandler : Ptr) (s : Cpu) (calls : List (Called Callee Cpu)) (t : Cpu) :
    Callee → Prop
  | .cxxDispatchException => calls = [] ∧ Framed s t
  | .nlgNotify => ∃ d rest, calls = d :: rest ∧ d.callee = .cxxDispatchException ∧
      (rest = [] ∧ Notified (frameBase d.after) (d.after.reg .eax) 0x100 t ∨
        ∃ n h, rest = [n, h] ∧ h.callee = .eax ∧
          Notified (frameBase d.after) (h.after.reg .eax) 2 t)
  | .eax => ∃ d n, calls = [d, n] ∧ d.callee = .cxxDispatchException ∧
      Landed catchFrameHandler d.after t
  | .cxxDestroyThrowFrame => ∃ d n h n', calls = [d, n, h, n'] ∧
      d.callee = .cxxDispatchException ∧ h.callee = .eax ∧ Finished d.after h.after t

/-- Only a whole record is ever registered. The chain behind it is what the dispatch has left,
and before the dispatch what the thrower had. -/
def Chained (catchFrameHandler : Ptr) (s : Cpu) (calls : List (Called Callee Cpu)) (t : Cpu) :
    Prop :=
  calls = [] ∧ t.fs0 = s.fs0 ∨ ∃ d rest, calls = d :: rest ∧ d.callee = .cxxDispatchException ∧
    (t.fs0 = d.after.fs0 ∨ t.fs0 = d.after.reg .esp - 0x08 ∧
      sehRecordAt t.mem t.fs0 = ⟨d.after.fs0, catchFrameHandler⟩)

structure AtLine (catchFrameHandler : Ptr) (s : Cpu) (calls : List (Called Callee Cpu))
    (code : Code) (t : Cpu) : Prop where
  chain : Chained catchFrameHandler s calls t
  call : ∀ f k rest, code = (f, .call k) :: rest → AtCall catchFrameHandler s calls t k

def Done (calls : List (Called Callee Cpu)) (t : Cpu) : Prop :=
  ∃ d n h n' e, calls = [d, n, h, n', e] ∧ calls.map Called.callee =
    [.cxxDispatchException, .nlgNotify, .eax, .nlgNotify, .cxxDestroyThrowFrame] ∧
      Resumed d.after h.after e.after t

variable {env : Env} {catchFrameHandler : Ptr} {s t u : Cpu} {b : Ptr} {f g : Label}
  {past calls : List (Called Callee Cpu)} {code rest : Code} {i : Instr} {is : List Instr}
  {k : Callee} {d n h n' e : Called Callee Cpu}

theorem atLine_instr (h : Chained catchFrameHandler s past t) :
    AtLine catchFrameHandler s past ((f, .instr i) :: code) t :=
  ⟨h, by simp⟩

theorem atLine_call (h : Chained catchFrameHandler s past t)
    (hk : AtCall catchFrameHandler s past t k) :
    AtLine catchFrameHandler s past ((f, .call k) :: code) t := by
  refine ⟨h, ?_⟩
  rintro f' k' rest' heq
  cases heq
  exact hk

theorem chained_left (hd : d.callee = .cxxDispatchException) (h : t.fs0 = d.after.fs0) :
    Chained catchFrameHandler s (d :: past) t :=
  .inr ⟨d, past, rfl, hd, .inl h⟩

theorem listingRun (is : List Instr) (s : Cpu) :
    Lib.Listing.run (machine env) is s = some (run is s) := by
  induction is generalizing s with
  | nil => rfl
  | cons i is ih => exact ih (i.exec s)

theorem safe_block {inv : List (Called Callee Cpu) → Code → Cpu → Prop}
    {post : List (Called Callee Cpu) → Cpu → Prop} (keep : Cpu → Prop) (hs : keep s)
    (hkeep : ∀ i ∈ is, ∀ t, keep t → keep (i.exec t))
    (hinv : ∀ i code t, keep t → inv past ((f, .instr i) :: code) t)
    (hrest : Safe (machine env) inv post past rest (run is s)) :
    Safe (machine env) inv post past (lines f is ++ rest) s := by
  refine safe_lines keep hs hinv (fun i hi t ht => ⟨_, rfl, hkeep i hi t ht⟩) ?_
  intro t hrun _
  obtain rfl := Option.some.inj ((listingRun is s).symm.trans hrun)
  exact hrest

def frameWords (s : Cpu) (b : Ptr) : List (Nat × BitVec 32) :=
  [(0x14, s.reg .ebp), (0x10, readWord s.mem (slot b 0x20)), (0x0c, readWord s.mem (slot b 0x1c)),
    (0x08, 0), (0x04, 0), (0x00, 0)]

theorem frameWords_spaced (s : Cpu) (b : Ptr) : Spaced (frameWords s b) := by
  refine ⟨?_, ?_⟩
  · simp [frameWords, Separate]
  · simp [frameWords]

theorem run_construct (hesp : s.reg .esp = slot b 0x18) :
    (run construct s).reg .esp = slot b 0 ∧ (run construct s).reg .ecx = slot b 0 ∧
      (run construct s).fs0 = s.fs0 ∧
        (run construct s).mem = writeAll s.mem (words b (frameWords s b)) := by
  have hread (i : Nat) (ws : List (Nat × BitVec 32)) (hi : 0x18 ≤ i ∧ i + 4 ≤ 2 ^ 32)
      (hws : ∀ x ∈ ws, x.1 + 4 ≤ 0x18) :
      readWord (writeAll s.mem (words b ws)) (slot b i) = readWord s.mem (slot b i) := by
    apply readWord_other hi.2
    intro x hx
    have := hws x hx
    exact ⟨.inl (by omega), by omega⟩
  have hpushed : writeWord s.mem (slot b 0x14) (s.reg .ebp) =
      writeAll s.mem (words b [(0x14, s.reg .ebp)]) := rfl
  simp [construct, Instr.exec, Cpu.push, Cpu.eval, Cpu.load, Cpu.store, Cpu.setReg, hesp, slot_add,
    slot_sub, hpushed, hread, writeWord_words, frameWords]

theorem same_words {m : Mem 32} {ws : List (Nat × BitVec 32)} {i n : Nat}
    (hws : ∀ x ∈ ws, (i + n ≤ x.1 ∨ x.1 + 4 ≤ i) ∧ x.1 + 4 ≤ 2 ^ 32) (hn : i + n ≤ 2 ^ 32) :
    Same m (writeAll m (words b ws)) (slot b i) n := by
  rw [words_stores]
  refine Lib.Parts.same_stores ?_ hn
  rw [List.map_map]
  intro e he
  obtain ⟨x, hx, rfl⟩ := List.mem_map.mp he
  simpa [Lib.Parts.Clear, Lib.Parts.extent, wordPart] using hws x hx

theorem framed_of_words (hesp : s.reg .esp = slot b 0x18) (ht : t.reg .esp = slot b 0)
    (hecx : t.reg .ecx = slot b 0) (hfs0 : t.fs0 = s.fs0)
    (hmem : t.mem = writeAll s.mem (words b (frameWords s b))) : Framed s t := by
  have hread (i : Nat) (v : BitVec 32) (h : (i, v) ∈ frameWords s b) :
      readWord t.mem (slot b i) = v := by
    rw [hmem]
    exact readWord_words (frameWords_spaced s b) h
  have hsub : slot b 0 = slot b 0x18 - 0x18 := (slot_sub (Nat.le_refl 0x18)).symm
  have hargs (n : Nat) : s.reg .esp + .ofNat 32 n = slot b (0x18 + n) := by
    rw [hesp, slot_add]
  refine ⟨?_, ?_, ?_, hfs0, ?_⟩
  · rw [ht, hesp, hsub]
  · rw [hecx, ht]
  · have hobject : s.reg .esp + 0x04 = slot b 0x1c := hargs 4
    have hinfo : s.reg .esp + 0x08 = slot b 0x20 := hargs 8
    have h₁ : slot b 0 + 0x04 = slot b 0x04 := slot_add
    have h₂ : slot b 0 + 0x08 = slot b 0x08 := slot_add
    have h₃ : slot b 0 + 0x0c = slot b 0x0c := slot_add
    have h₄ : slot b 0 + 0x10 = slot b 0x10 := slot_add
    rw [throwFrAt, hecx, h₁, h₂, h₃, h₄, hobject, hinfo, hread 0 0 (by simp [frameWords]),
      hread 4 0 (by simp [frameWords]), hread 8 0 (by simp [frameWords]),
      hread 0x0c (readWord s.mem (slot b 0x1c)) (by simp [frameWords]),
      hread 0x10 (readWord s.mem (slot b 0x20)) (by simp [frameWords])]
  · rw [hmem, hesp]
    exact same_words (by simp [frameWords]) (by decide)

/-- The notification returns to where it was called, without its argument. -/
theorem run_nlgNotify (returnAddress : Ptr) (hesp : s.reg .esp = slot b 0x10) :
    (∀ r, r ≠ .esp → (run nlgNotify (s.push returnAddress)).reg r = s.reg r) ∧
      (run nlgNotify (s.push returnAddress)).reg .esp = slot b 0x14 ∧
      (run nlgNotify (s.push returnAddress)).fs0 = s.fs0 ∧
      (run nlgNotify (s.push returnAddress)).eip = returnAddress ∧
      (run nlgNotify (s.push returnAddress)).mem = writeAll s.mem (words b
        [(0x0c, returnAddress), (0x08, s.reg .ebp), (0x04, readWord s.mem (slot b 0x10)),
          (0x00, s.reg .eax)]) := by
  have hread (ws : List (Nat × BitVec 32)) (hws : ∀ x ∈ ws, x.1 + 4 ≤ 0x10) :
      readWord (writeAll s.mem (words b ws)) (slot b 0x10) = readWord s.mem (slot b 0x10) := by
    apply readWord_other (by decide)
    intro x hx
    have := hws x hx
    exact ⟨.inl this, by omega⟩
  have hpushed : writeWord s.mem (slot b 0x0c) returnAddress =
      writeAll s.mem (words b [(0x0c, returnAddress)]) := rfl
  have hspaced : Spaced [(0x0c, returnAddress), (0x08, s.reg .ebp),
      (0x04, readWord s.mem (slot b 0x10)), (0x00, s.reg .eax)] := by
    refine ⟨?_, ?_⟩
    · simp [Separate]
    · simp
  have hreturn : readWord (writeAll s.mem (words b [(0x0c, returnAddress), (0x08, s.reg .ebp),
      (0x04, readWord s.mem (slot b 0x10)), (0x00, s.reg .eax)])) (slot b 0x0c) = returnAddress :=
    readWord_words hspaced List.mem_cons_self
  refine ⟨?_, ?_, ?_, ?_, ?_⟩
  · intro r hr
    simp [nlgNotify, nlgPush, nlgDispatch, Instr.exec, Cpu.push, Cpu.eval, Cpu.load, Cpu.setReg,
      hr]
  · simp [nlgNotify, nlgPush, nlgDispatch, Instr.exec, Cpu.push, Cpu.eval, Cpu.load, Cpu.setReg,
      hesp, slot_add, slot_sub]
  · rfl
  · simp [nlgNotify, nlgPush, nlgDispatch, Instr.exec, Cpu.push, Cpu.eval, Cpu.load, Cpu.setReg,
      hesp, slot_add, slot_sub, hpushed, hread, writeWord_words, hreturn]
  · simp [nlgNotify, nlgPush, nlgDispatch, Instr.exec, Cpu.push, Cpu.eval, Cpu.load, Cpu.setReg,
      hesp, slot_add, slot_sub, hpushed, hread, writeWord_words]

def below (dispatched : Cpu) : Ptr := dispatched.reg .esp - 0x14

theorem slot_below (s : Cpu) : slot (below s) 0x14 = s.reg .esp := BitVec.sub_add_cancel _ _

/-- In the frame of the function that catches, on top of what is left of the throw frame. -/
structure Catching (dispatched : Cpu) (m : Mem 32) (t : Cpu) : Prop where
  ebp : t.reg .ebp = frameBase dispatched
  mem : Same m t.mem (dispatched.reg .esp) (2 ^ 32 - 0x14)

theorem same_below {dispatched : Cpu} {m : Mem 32} {ws : List (Nat × BitVec 32)}
    (hws : ∀ x ∈ ws, x.1 + 4 ≤ 0x14) :
    Same m (writeAll m (words (below dispatched) ws)) (dispatched.reg .esp) (2 ^ 32 - 0x14) := by
  rw [← slot_below]
  refine same_words ?_ (by decide)
  intro x hx
  have := hws x hx
  exact ⟨.inr this, by omega⟩

theorem Catching.notify {dispatched : Cpu} {m : Mem 32} (h : Catching dispatched m t)
    (hesp : t.reg .esp = slot (below dispatched) 0x10) (returnAddress : Ptr) :
    Catching dispatched m (run nlgNotify (t.push returnAddress)) ∧
      (run nlgNotify (t.push returnAddress)).reg .esp = dispatched.reg .esp ∧
      (run nlgNotify (t.push returnAddress)).reg .eax = t.reg .eax ∧
      (run nlgNotify (t.push returnAddress)).reg .ebx = t.reg .ebx ∧
      (run nlgNotify (t.push returnAddress)).fs0 = t.fs0 := by
  obtain ⟨hregs, hesp', hfs0, -, hmem⟩ := run_nlgNotify returnAddress hesp
  refine ⟨⟨?_, ?_⟩, ?_, hregs _ (by decide), hregs _ (by decide), hfs0⟩
  · rw [hregs _ (by decide), h.ebp]
  · rw [hmem]
    exact h.mem.trans (same_below (by simp))
  · rw [hesp', slot_below]

theorem run_enterFrame (d : Cpu) :
    (run enterFrame d).reg .esp = slot (below d) 0x10 ∧
      (run enterFrame d).reg .eax = d.reg .eax ∧ (run enterFrame d).fs0 = d.fs0 ∧
      readWord (run enterFrame d).mem (slot (below d) 0x10) = 0x100 ∧
      Catching d d.mem (run enterFrame d) := by
  have hesp := (slot_below d).symm
  have hpushed (v : BitVec 32) : writeWord d.mem (slot (below d) 0x10) v =
      writeAll d.mem (words (below d) [(0x10, v)]) := rfl
  have hspaced : Spaced [(0x10, (0x100 : BitVec 32))] := by
    refine ⟨?_, ?_⟩ <;> simp
  have harg : readWord (writeAll d.mem (words (below d) [(0x10, 0x100)]))
      (slot (below d) 0x10) = 0x100 := readWord_words hspaced List.mem_cons_self
  have hmem : (run enterFrame d).mem = writeAll d.mem (words (below d) [(0x10, 0x100)]) := by
    simp [enterFrame, Instr.exec, Cpu.push, Cpu.eval, Cpu.load, Cpu.store, Cpu.setReg, hesp,
      slot_sub, hpushed]
  refine ⟨?_, rfl, rfl, ?_, rfl, ?_⟩
  · simp [enterFrame, Instr.exec, Cpu.push, Cpu.eval, Cpu.load, Cpu.store, Cpu.setReg, hesp,
      slot_sub]
  · rw [hmem, harg]
  · rw [hmem]
    exact same_below (by simp)

theorem run_pushRegistration (catchFrameHandler : Ptr) {dispatched : Cpu}
    (hc : Catching dispatched dispatched.mem t)
    (hesp : t.reg .esp = dispatched.reg .esp) :
    (run (pushRegistration catchFrameHandler) t).reg .esp = dispatched.reg .esp - 0x08 ∧
      (run (pushRegistration catchFrameHandler) t).reg .eax = t.reg .eax ∧
      (run (pushRegistration catchFrameHandler) t).fs0 = t.fs0 ∧
      sehRecordAt (run (pushRegistration catchFrameHandler) t).mem
        (dispatched.reg .esp - 0x08) = ⟨t.fs0, catchFrameHandler⟩ ∧
      Catching dispatched dispatched.mem (run (pushRegistration catchFrameHandler) t) := by
  have hslot : dispatched.reg .esp - 0x08 = slot (below dispatched) 0x0c := by
    rw [← slot_below]
    exact slot_sub (by decide)
  have hesp' : t.reg .esp = slot (below dispatched) 0x14 := hesp.trans (slot_below _).symm
  have hpushed : writeWord t.mem (slot (below dispatched) 0x10) catchFrameHandler =
      writeAll t.mem (words (below dispatched) [(0x10, catchFrameHandler)]) := rfl
  have hspaced : Spaced [(0x10, catchFrameHandler), (0x0c, t.fs0)] := by
    refine ⟨?_, ?_⟩
    · simp [Separate]
    · simp
  have hmem : (run (pushRegistration catchFrameHandler) t).mem = writeAll t.mem
      (words (below dispatched) [(0x10, catchFrameHandler), (0x0c, t.fs0)]) := by
    simp [pushRegistration, Instr.exec, Cpu.push, Cpu.eval, Cpu.load, Cpu.setReg, hesp', slot_sub,
      hpushed, writeWord_words]
  refine ⟨?_, rfl, rfl, ?_, ?_, ?_⟩
  · rw [hslot]
    simp [pushRegistration, Instr.exec, Cpu.push, Cpu.eval, Cpu.load, Cpu.setReg, hesp', slot_sub]
  · have hsecond : slot (below dispatched) 0x0c + 4 = slot (below dispatched) 0x10 := slot_add
    rw [sehRecordAt, hslot, hsecond, hmem, readWord_words hspaced (v := t.fs0) (by simp),
      readWord_words hspaced (v := catchFrameHandler) (by simp)]
  · exact hc.ebp
  · rw [hmem]
    exact hc.mem.trans (same_below (by simp))

theorem run_popRegistration {dispatched : Cpu} (hesp : t.reg .esp = dispatched.reg .esp - 0x08) :
    (run popRegistration t).reg .esp = slot (below dispatched) 0x10 ∧
      (run popRegistration t).reg .ebx = t.reg .eax ∧
      (run popRegistration t).reg .eax = t.reg .eax ∧
      (run popRegistration t).reg .ebp = t.reg .ebp ∧
      (run popRegistration t).reg .ecx = (sehRecordAt t.mem (t.reg .esp)).next ∧
      (run popRegistration t).mem = t.mem := by
  have hslot : t.reg .esp = slot (below dispatched) 0x0c := by
    rw [hesp, ← slot_below]
    exact slot_sub (by decide)
  refine ⟨?_, rfl, rfl, rfl, rfl, rfl⟩
  simp [popRegistration, Instr.exec, Cpu.pop, Cpu.eval, Cpu.load, Cpu.store, Cpu.setReg, hslot,
    slot_add]

theorem run_passTwo {dispatched : Cpu} {m : Mem 32} (hc : Catching dispatched m t)
    (hesp : t.reg .esp = slot (below dispatched) 0x10) :
    (run passTwo t).reg .esp = slot (below dispatched) 0x10 ∧
      (run passTwo t).reg .eax = t.reg .eax ∧ (run passTwo t).reg .ebx = t.reg .ebx ∧
      (run passTwo t).fs0 = t.fs0 ∧
      readWord (run passTwo t).mem (slot (below dispatched) 0x10) = 2 ∧
      Catching dispatched m (run passTwo t) := by
  have hwritten (v : BitVec 32) : writeWord t.mem (slot (below dispatched) 0x10) v =
      writeAll t.mem (words (below dispatched) [(0x10, v)]) := rfl
  have hspaced : Spaced [(0x10, (2 : BitVec 32))] := by
    refine ⟨?_, ?_⟩ <;> simp
  have hmem : (run passTwo t).mem = writeAll t.mem (words (below dispatched) [(0x10, 2)]) := by
    simp [passTwo, Instr.exec, Cpu.eval, Cpu.load, Cpu.store, Cpu.setReg, hesp, hwritten]
  refine ⟨hesp, rfl, rfl, rfl, ?_, hc.ebp, ?_⟩
  · rw [hmem, readWord_words hspaced (v := 2) (by simp)]
  · rw [hmem]
    exact hc.mem.trans (same_below (by simp))

theorem safe_leave (hd : d.callee = .cxxDispatchException)
    (hebx : e.after.reg .ebx = h.after.reg .eax) (hebp : e.after.reg .ebp = frameBase d.after)
    (hfs0 : e.after.fs0 = d.after.fs0)
    (hcallees : [d, n, h, n', e].map Called.callee =
      [.cxxDispatchException, .nlgNotify, .eax, .nlgNotify, .cxxDestroyThrowFrame]) :
    Safe (machine env) (AtLine catchFrameHandler s) Done [d, n, h, n', e]
      (lines .nlgReturn2 leave) e.after := by
  have hnil : (lines .nlgReturn2 leave : Code) = lines .nlgReturn2 leave ++ [] :=
    (List.append_nil _).symm
  rw [hnil]
  refine safe_block (fun t => t.fs0 = d.after.fs0) hfs0 ?_
    (fun i code t ht => atLine_instr (chained_left hd ht)) ?_
  · simp [leave, Instr.exec, Cpu.store, Cpu.setReg]
  · exact safe_nil ⟨d, n, h, n', e, rfl, hcallees, hebx, hebp, rfl, hfs0, rfl⟩

theorem safe_nlgReturn2 (henv : env.Abides)
    (hcallees : [d, n, h].map Called.callee = [.cxxDispatchException, .nlgNotify, .eax])
    (hesp : h.after.reg .esp = d.after.reg .esp - 0x08)
    (hebp : h.after.reg .ebp = frameBase d.after) (hfs0 : h.after.fs0 = h.after.reg .esp)
    (hrecord : sehRecordAt h.after.mem h.after.fs0 = ⟨d.after.fs0, catchFrameHandler⟩) :
    Safe (machine env) (AtLine catchFrameHandler s) Done [d, n, h]
      (lines .nlgReturn2 popRegistration ++
        (.nlgReturn2, .instr (.mov .fs0 (.place (.reg .ecx)))) ::
      (lines .nlgReturn2 passTwo ++
        (.nlgReturn2, .call .nlgNotify) ::
        (.nlgReturn2, .instr (.lea .ecx .esp 0)) ::
        (.nlgReturn2, .call .cxxDestroyThrowFrame) ::
      lines .nlgReturn2 leave)) h.after := by
  obtain ⟨hd, hn, hh, -⟩ : d.callee = .cxxDispatchException ∧ n.callee = .nlgNotify ∧
      h.callee = .eax ∧ True := by simpa using hcallees
  have hregistered (t : Cpu) (hfs : t.fs0 = h.after.fs0) (hmem : t.mem = h.after.mem) :
      Chained catchFrameHandler s [d, n, h] t := by
    refine .inr ⟨d, _, rfl, hd, .inr ⟨?_, ?_⟩⟩
    · rw [hfs, hfs0, hesp]
    · rw [hfs, hmem, hrecord]
  refine safe_block (fun t => t.fs0 = h.after.fs0 ∧ t.mem = h.after.mem) ⟨rfl, rfl⟩ ?_
    (fun i code t ht => atLine_instr (hregistered t ht.1 ht.2)) ?_
  · simp only [popRegistration, List.forall_mem_cons]
    exact ⟨fun t ht => ht, fun t ht => ht, by simp⟩
  obtain ⟨hesp₁, hebx₁, heax₁, hebp₁, hecx₁, hmem₁⟩ := run_popRegistration hesp
  have hfs₁ : (run popRegistration h.after).fs0 = h.after.fs0 := rfl
  generalize run popRegistration h.after = t₁ at *
  refine safe_instr (t := t₁.store (t₁.reg .ecx) .fs0) (atLine_instr (hregistered t₁ hfs₁ hmem₁))
    rfl ?_
  have hleft : (t₁.store (t₁.reg .ecx) .fs0).fs0 = d.after.fs0 := by
    change t₁.reg .ecx = d.after.fs0
    rw [hecx₁, ← hfs0, hrecord]
  have hc : Catching d.after h.after.mem (t₁.store (t₁.reg .ecx) .fs0) := by
    refine ⟨hebp₁.trans hebp, ?_⟩
    change Same _ t₁.mem _ _
    rw [hmem₁]
    exact same_refl _ _ _
  obtain ⟨hesp₂, heax₂, hebx₂, hfs₂, harg, hc₂⟩ := run_passTwo hc hesp₁
  refine safe_block (fun t => t.fs0 = d.after.fs0) hleft ?_
    (fun i code t ht => atLine_instr (chained_left hd ht)) ?_
  · simp [passTwo, Instr.exec, Cpu.store, Cpu.setReg]
  replace heax₂ := heax₂.trans heax₁
  replace hebx₂ := hebx₂.trans hebx₁
  rw [hleft] at hfs₂
  generalize run passTwo (t₁.store (t₁.reg .ecx) .fs0) = t₂ at *
  refine safe_call (atLine_call (chained_left hd hfs₂) ?_) ?_
  · exact ⟨d, _, rfl, hd, .inr ⟨n, h, rfl, hh, hc₂.ebp, heax₂, by rw [hesp₂, harg]⟩⟩
  rintro t₃ ⟨returnAddress, rfl⟩
  obtain ⟨hc₃, hesp₃, -, hebx₃, hfs₃⟩ := hc₂.notify hesp₂ returnAddress
  rw [hfs₂] at hfs₃
  rw [hebx₂] at hebx₃
  generalize run nlgNotify (t₂.push returnAddress) = t₃ at *
  refine safe_instr (t := t₃.setReg .ecx (t₃.reg .esp + 0)) (atLine_instr (chained_left hd hfs₃))
    rfl ?_
  refine safe_call (atLine_call (chained_left hd hfs₃) ?_) ?_
  · refine ⟨d, n, h, _, rfl, hd, hh, hesp₃, ?_, hfs₃, hc₃.mem⟩
    simp [Cpu.setReg]
  · intro t₄ hdestroy
    obtain ⟨-, hebp₄, hfs₄, hebx₄⟩ := henv.destroy _ _ hdestroy
    refine safe_leave (e := ⟨.cxxDestroyThrowFrame, _, t₄⟩) hd (hebx₄.trans hebx₃)
      (hebp₄.trans hc₃.ebp) (hfs₄.trans hfs₃) ?_
    simp [hd, hn, hh]

theorem safe_dispatched (henv : env.Abides) (hd : d.callee = .cxxDispatchException) :
    Safe (machine env) (AtLine catchFrameHandler s) Done [d]
      (lines .cxxThrowException enterFrame ++
        (.cxxThrowException, .call .nlgNotify) ::
      (lines .cxxThrowException (pushRegistration catchFrameHandler) ++
        (.cxxThrowException, .instr (.mov .fs0 (.place (.reg .esp)))) ::
        (.cxxThrowException, .call .eax) ::
      (lines .nlgReturn2 popRegistration ++
        (.nlgReturn2, .instr (.mov .fs0 (.place (.reg .ecx)))) ::
      (lines .nlgReturn2 passTwo ++
        (.nlgReturn2, .call .nlgNotify) ::
        (.nlgReturn2, .instr (.lea .ecx .esp 0)) ::
        (.nlgReturn2, .call .cxxDestroyThrowFrame) ::
      lines .nlgReturn2 leave)))) d.after := by
  refine safe_block (fun t => t.fs0 = d.after.fs0) rfl ?_
    (fun i code t ht => atLine_instr (chained_left hd ht)) ?_
  · simp [enterFrame, Instr.exec, Cpu.store, Cpu.push, Cpu.setReg]
  obtain ⟨hesp₁, heax₁, hfs₁, harg, hc₁⟩ := run_enterFrame d.after
  generalize run enterFrame d.after = t₁ at *
  refine safe_call (atLine_call (chained_left hd hfs₁) ?_) ?_
  · exact ⟨d, _, rfl, hd, .inl ⟨rfl, hc₁.ebp, heax₁, by rw [hesp₁, harg]⟩⟩
  rintro t₂ ⟨returnAddress, rfl⟩
  obtain ⟨hc₂, hesp₂, heax₂, -, hfs₂⟩ := hc₁.notify hesp₁ returnAddress
  rw [heax₁] at heax₂
  rw [hfs₁] at hfs₂
  generalize run nlgNotify (t₁.push returnAddress) = t₂ at *
  refine safe_block (fun t => t.fs0 = d.after.fs0) hfs₂ ?_
    (fun i code t ht => atLine_instr (chained_left hd ht)) ?_
  · simp [pushRegistration, Instr.exec, Cpu.push, Cpu.setReg]
  obtain ⟨hesp₃, heax₃, hfs₃, hrecord, hc₃⟩ :=
    run_pushRegistration catchFrameHandler hc₂ hesp₂
  rw [heax₂] at heax₃
  rw [hfs₂] at hfs₃ hrecord
  generalize run (pushRegistration catchFrameHandler) t₂ = t₃ at *
  refine safe_instr (t := { t₃ with fs0 := t₃.reg .esp }) (atLine_instr (chained_left hd hfs₃))
    rfl ?_
  have hrecord' : sehRecordAt t₃.mem (t₃.reg .esp) = ⟨d.after.fs0, catchFrameHandler⟩ := by
    rw [hesp₃, hrecord]
  refine safe_call (atLine_call ?_ ?_) ?_
  · exact .inr ⟨d, _, rfl, hd, .inr ⟨hesp₃, hrecord'⟩⟩
  · exact ⟨d, _, rfl, hd, hesp₃, heax₃, hc₃.ebp, rfl, hrecord', hc₃.mem⟩
  · intro t₄ hfunclet
    obtain ⟨hesp₄, hebp₄, hfs₄, hrecord₄⟩ := henv.funclet _ _ hfunclet
    refine safe_nlgReturn2 (h := ⟨.eax, _, t₄⟩) henv ?_ (hesp₄.trans hesp₃)
      (hebp₄.trans hc₃.ebp) (hfs₄.trans hesp₄.symm) ?_
    · simp [hd]
    · change sehRecordAt t₄.mem t₄.fs0 = _
      rw [hfs₄]
      exact hrecord₄.trans hrecord'

theorem safe_listing (henv : env.Abides) :
    Safe (machine env) (AtLine catchFrameHandler s) Done [] (listing catchFrameHandler) s := by
  have hesp : s.reg .esp = slot (s.reg .esp - 0x18) 0x18 := (BitVec.sub_add_cancel _ _).symm
  refine safe_block (fun t => t.fs0 = s.fs0) rfl ?_
    (fun i code t ht => atLine_instr (.inl ⟨rfl, ht⟩)) ?_
  · simp [construct, Instr.exec, Cpu.store, Cpu.push, Cpu.setReg]
  obtain ⟨hesp₁, hecx₁, hfs₁, hmem₁⟩ := run_construct hesp
  refine safe_call (atLine_call (.inl ⟨rfl, hfs₁⟩) ?_) ?_
  · exact ⟨rfl, framed_of_words hesp hesp₁ hecx₁ hfs₁ hmem₁⟩
  · intro t hdispatch
    exact safe_dispatched (d := ⟨.cxxDispatchException, _, t⟩) henv rfl

/-- Whenever the throw is interrupted, the chain is whole. -/
theorem chain_whole (henv : env.Abides)
    (hgets : Gets (machine env) (listing catchFrameHandler) s calls code t) :
    Chained catchFrameHandler s calls t := by
  by_cases hcode : code = []
  · subst hcode
    obtain ⟨d, n, h, n', e, rfl, hcallees, hresumed⟩ := (safe_listing henv).post _ _ hgets
    exact chained_left (List.cons.inj hcallees).1 hresumed.fs0
  · exact ((safe_listing henv).inv _ _ _ hgets hcode).chain

/-- Each call is made with what it needs, and at its turn. -/
theorem calls_handed (henv : env.Abides)
    (hgets : Gets (machine env) (listing catchFrameHandler) s calls ((f, .call k) :: code) t) :
    AtCall catchFrameHandler s calls t k :=
  ((safe_listing henv).inv _ _ _ hgets (List.cons_ne_nil _ _)).call _ _ _ rfl

/-- Behind the last line the function that catches goes on, with its frame and its chain. -/
theorem catcher_resumes (henv : env.Abides) :
    (∀ calls t, Gets (machine env) (listing catchFrameHandler) s calls [] t → Done calls t) ∧
    ((∀ calls f k rest t,
      Gets (machine env) (listing catchFrameHandler) s calls ((f, .call k) :: rest) t →
        ∃ u, env.returns k t u) →
      ∃ calls t, Gets (machine env) (listing catchFrameHandler) s calls [] t ∧ Done calls t) := by
  have hsafe : Safe (machine env) (AtLine catchFrameHandler s) Done []
      (listing catchFrameHandler) s := safe_listing henv
  refine ⟨fun calls t hgets => hsafe.post calls t hgets, fun hreturn => ?_⟩
  obtain ⟨calls, t, hgets⟩ := hsafe.ends hreturn
  exact ⟨calls, t, hgets, hsafe.post calls t hgets⟩

/-- The dispatch selects a handler, and leaves the record of the function that catches. The handler
takes over the exception. -/
def taking : Env where
  dispatch s t := t = Cpu.setReg
    { s with fs0 := 0x9000, mem := writeWord s.mem (slot (s.reg .esp) 0x08) 0x900c } .eax 0x402000
  funclet s t := t =
    Cpu.setReg { s with mem := writeWord s.mem (slot (s.reg .esp) 0x18) 0 } .eax 0x401060
  destroy s t := t = s.setReg .ecx 0

def thrown : Cpu where
  reg r := if r = .esp then 0x8000 else
    .ofNat 32 ([Reg.eax, .ecx, .edx, .ebx, .ebp, .esi, .edi].idxOf r)
  fs0 := 0x8f00
  mem p := p.setWidth 8
  eip := 0

theorem taking_abides : taking.Abides := by
  refine ⟨?_, ?_, ?_⟩
  · rintro s _ rfl
    rfl
  · rintro s _ rfl
    refine ⟨rfl, rfl, rfl, ?_⟩
    have hsame : Same s.mem (writeWord s.mem (slot (s.reg .esp) 0x18) 0) (slot (s.reg .esp) 0) 8 :=
      same_write (by simp [Lib.Parts.Clear]) (by decide) (by simp)
    have hnext := hsame.within (Nat.le_refl 0) (by decide : 0 + 4 ≤ 0 + 8)
    have hhandler := hsame.within (Nat.zero_le 4) (by decide : 4 + 4 ≤ 0 + 8)
    rw [slot_zero] at hnext
    exact congrArg₂ SehRecord.mk hnext.readWord hhandler.readWord
  · rintro s _ rfl
    exact ⟨rfl, rfl, rfl, rfl⟩

theorem returns_taking (k : Callee) (s : Cpu) : ∃ t, taking.returns k s t := by
  cases k with
  | cxxDispatchException | eax | cxxDestroyThrowFrame => exact ⟨_, rfl⟩
  | nlgNotify => exact ⟨_, 0, rfl⟩

theorem gets_destroy : ∃ calls g code t, Gets (machine taking) (listing 0x402800) thrown calls
    ((g, .call .cxxDestroyThrowFrame) :: code) t := by
  have hsafe : Safe (machine taking) (AtLine 0x402800 thrown) Done [] (listing 0x402800) thrown :=
    safe_listing taking_abides
  obtain ⟨calls, t, hgets⟩ := hsafe.ends fun _ _ k _ t _ => returns_taking k t
  obtain ⟨d, n, h, n', e, rfl, hcallees, -⟩ := hsafe.post _ _ hgets
  obtain ⟨g, code, hto, -⟩ :=
    Gets.split (show Gets _ (listing 0x402800) thrown ([d, n, h, n'] ++ e :: []) [] t from hgets)
  have hcallee : e.callee = .cxxDestroyThrowFrame :=
    Option.some.inj (congrArg (fun callees : List Callee => callees[4]?) hcallees)
  rw [hcallee] at hto
  exact ⟨_, g, code, _, hto⟩

theorem chain_whole_taking : ∃ calls g code t,
    Gets (machine taking) (listing 0x402800) thrown calls
        ((g, .call .cxxDestroyThrowFrame) :: code) t ∧ Chained 0x402800 thrown calls t := by
  obtain ⟨calls, g, code, t, hgets⟩ := gets_destroy
  exact ⟨calls, g, code, t, hgets, chain_whole taking_abides hgets⟩

theorem calls_handed_taking : ∃ calls g code t,
    Gets (machine taking) (listing 0x402800) thrown calls
        ((g, .call .cxxDestroyThrowFrame) :: code) t ∧
      AtCall 0x402800 thrown calls t .cxxDestroyThrowFrame := by
  obtain ⟨calls, g, code, t, hgets⟩ := gets_destroy
  exact ⟨calls, g, code, t, hgets, calls_handed taking_abides hgets⟩

theorem catcher_resumes_taking : ∃ calls t,
    Gets (machine taking) (listing 0x402800) thrown calls [] t ∧ Done calls t :=
  (catcher_resumes taking_abides).2 fun _ _ k _ t _ => returns_taking k t

end Vcrtl.X86.ThrowException
