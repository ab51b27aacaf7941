import Vcrtl.X86.ChainWalk
import Vcrtl.X86.ThrowException

namespace Vcrtl.X86.ThrowLands

open Lib.Memory BugCheck EhStructs ThrowFrame CatchVariable Handler ChainWalk ThrowException
open Lib.Ia32 (Cpu)
open Lib.Listing (Gets Called gets_lines lines)
open Lib.Parts (Same slot slot_slot slot_zero)

structure Image where
  ehInfoAt : Ptr → Option FunctionEhInfo
  throwInfoAt : Ptr → Option ThrowInfo

def Image.throwFrame (image : Image) (f : ThrowFr) : CxxThrowFrame :=
  ⟨image.ehInfoAt f.ehInfo, f.unwoundState.toInt, f.primaryFrameBase, f.exceptionObject,
    image.throwInfoAt f.throwInfo⟩

/-- What a record is a part of: a `fh3_frame_t`, or a `cxx_catch_frame_t`. -/
def Embedded (image : Image) (m : Mem 32) (reg : SehRegistration) : Prop :=
  match reg.target with
  | .primary _ frameBase => frameBase = slot reg.addr 0x0c
  | .catchFrame addr tf => addr = slot reg.addr 0x08 ∧ image.throwFrame (throwFrAt m addr) = tf

def size (reg : SehRegistration) : Nat :=
  match reg.target with
  | .primary .. => 0x08
  | .catchFrame .. => 0x1c

/-- A chain in memory, with what its records are parts of. -/
structure Registered (image : Image) (m : Mem 32) (regs : List SehRegistration) (p : Ptr) :
    Prop where
  chain : ChainAt m regs p
  embedded : ∀ reg ∈ regs, Embedded image m reg

def frameBaseOf : Target → Ptr
  | .primary _ frameBase => frameBase
  | .catchFrame _ tf => tf.primaryFrameBase

def start (image : Image) (s : Cpu) : Dispatch :=
  ⟨image.throwFrame (throwFrAt s.mem (s.reg .ecx)), null, ⟨s.mem, []⟩⟩

section

variable (image : Image) (code : Code 32) (v : SehVerifier) (frameAt : FrameAt)
  (regs : List SehRegistration)

/-- The handlers that a dispatch calls leave their own record and those behind it as they are. -/
def Spares : List SehRegistration → Dispatch → Prop
  | [], _ => True
  | reg :: rest, d => ∀ d', v.verifySehRegistration reg = .ok () →
      visit code v (reg :: rest) frameAt reg d = .ok d' →
        Registered image d'.world.mem (reg :: rest) reg.addr ∧
          (d'.handler = null → Spares rest d')

/-- The walk from the head of the chain ends at `q`, with what the dispatch returns. -/
def Walks (p : Ptr) (d : Dispatch) (q : Ptr) (d' : Dispatch) : Prop :=
  ∃ e, Reaches (dispatchTurn v (chainWalker code v frameAt regs)) p d q e ∧
    (dispatchTurn v (chainWalker code v frameAt regs) q e).2 = .ok (none, d')

/-- What the dispatch leaves of a walk: the handler in `eax`, its record as the head of the
chain, the throw frame, and all that is above it on the stack. -/
structure Leaves (v : SehVerifier) (image : Image) (s : Cpu) (q : Ptr) (d' : Dispatch)
    (t : Cpu) : Prop where
  handler : t.reg .eax = d'.handler
  head : t.fs0 = q
  throwFrame : image.throwFrame (throwFrAt t.mem (s.reg .ecx)) = d'.throwFrame
  mem : Same d'.world.mem t.mem (slot (s.reg .ecx) 0x14)
    (v.stackBase - slot (s.reg .ecx) 0x14).toNat

def OnStack (v : SehVerifier) (p : Ptr) (reg : SehRegistration) : Prop :=
  (reg.addr - p).toNat + size reg ≤ (v.stackBase - p).toNat

structure Dispatches (env : Env) (s : Cpu) : Prop where
  walks : ∀ u t, Framed s u → env.dispatch u t → ∃ q d',
    Walks code v frameAt regs u.fs0 (start image u) q d' ∧ Leaves v image u q d' t
  spares : ∀ u t, Framed s u → env.dispatch u t →
    Spares image code v frameAt regs (start image u)

/-- A throw with records above it on the stack, and with a stack that its frame fits on. -/
structure Throws (env : Env) (s : Cpu) : Prop where
  abides : env.Abides
  dispatches : Dispatches image code v frameAt regs env s
  registered : Registered image s.mem regs s.fs0
  nodup : (regs.map SehRegistration.addr).Nodup
  above : ∀ reg ∈ regs, OnStack v (s.reg .esp) reg
  room : (v.stackBase - s.reg .esp).toNat + 0x2c ≤ 2 ^ 32

/-- A throw from inside the handler that was called in `t`: it comes with more on the stack and
with room for its frame, and the handler has not written to the records. -/
structure Inside (t s : Cpu) : Prop where
  head : s.fs0 = t.fs0
  records : ∀ reg ∈ regs, Same t.mem s.mem reg.addr (size reg)
  room : ∃ k, t.reg .esp = slot (s.reg .esp) k ∧
    (v.stackBase - t.reg .esp).toNat + k + 0x2c ≤ 2 ^ 32

end

section

variable {image : Image} {code : Code 32} {v : SehVerifier} {frameAt : FrameAt}
  {regs tail rest : List SehRegistration} {reg : SehRegistration} {m m' : Mem 32} {p q : Ptr}
  {d d' e : Dispatch}

theorem fh3Handler_primaryFrameBase {ehInfo : FunctionEhInfo} {frameBase : Ptr} {unwound : Int}
    (h : fh3Handler code v regs frameAt frameBase ehInfo unwound d = .ok d')
    (hd : d.handler = null) (hd' : d'.handler ≠ null) :
    d'.throwFrame.primaryFrameBase = frameBase := by
  rw [fh3Handler] at h
  split at h
  · cases h
  · simp only [bind_ok] at h
    obtain ⟨throwInfo, -, ⟨tf, found⟩, -, h⟩ := h
    cases found with
    | some x =>
      simp only [bind_ok] at h
      obtain ⟨s, -, s', -, h⟩ := h
      cases h
      rfl
    | none =>
      simp only [bind_ok] at h
      obtain ⟨s, -, h⟩ := h
      split at h
      · cases h
      · cases h
        exact absurd hd hd'

theorem visit_primaryFrameBase (h : visit code v regs frameAt reg d = .ok d')
    (hd : d.handler = null) (hd' : d'.handler ≠ null) :
    d'.throwFrame.primaryFrameBase = frameBaseOf reg.target := by
  rw [visit] at h
  cases htarget : reg.target with
  | primary ehInfo frameBase =>
    simp only [htarget, fh3PrimaryHandler] at h
    split at h
    · cases h
    · exact fh3Handler_primaryFrameBase h hd hd'
  | catchFrame addr tf =>
    simp only [htarget, cxxCatchFrameHandler] at h
    cases hinfo : tf.ehInfo with
    | none =>
      rw [hinfo] at h
      cases h
    | some ehInfo =>
      simp only [hinfo, bind_ok] at h
      obtain ⟨d₁, hsearch, h⟩ := h
      split at h
      · rename_i hnull
        cases h
        exact absurd hnull hd'
      · cases h
        exact fh3Handler_primaryFrameBase hsearch hd hd'

theorem dropWhile_addr (hnodup : (regs.map SehRegistration.addr).Nodup)
    (htail : reg :: rest <:+ regs) :
    regs.dropWhile (fun r => r.addr != reg.addr) = reg :: rest := by
  obtain ⟨before, rfl⟩ := htail
  rw [List.map_append, List.map_cons, List.nodup_append] at hnodup
  rw [List.dropWhile_append_of_pos, List.dropWhile_cons_of_neg (by simp)]
  intro r hr
  have hne := hnodup.2.2 r.addr (List.mem_map_of_mem hr) reg.addr List.mem_cons_self
  simpa using hne

theorem turn_cases (hnodup : (regs.map SehRegistration.addr).Nodup)
    (hspares : Spares image code v frameAt tail d) (htail : tail <:+ regs)
    (hregistered : Registered image d.world.mem tail p) {next : Option Ptr}
    (h : (dispatchTurn v (chainWalker code v frameAt regs) p d).2 = .ok (next, d')) :
    ∃ reg rest, tail = reg :: rest ∧ p = reg.addr ∧ v.verifySehRegistration reg = .ok () ∧
      visit code v (reg :: rest) frameAt reg d = .ok d' ∧
      Registered image d'.world.mem (reg :: rest) p ∧
      (d'.handler ≠ null ∧ next = none ∨
        d'.handler = null ∧ next = some (read32 d'.world.mem p) ∧
          Spares image code v frameAt rest d') := by
  cases tail with
  | nil =>
    obtain rfl : p = 0xffffffff := hregistered.chain
    have hlast : v.stackBase.toNat ≤ 0xffffffff := Nat.le_of_lt_succ v.stackBase.isLt
    have hout : (0xffffffff : Ptr) < v.stackLimit ∨ v.stackBase ≤ 0xffffffff :=
      .inr (BitVec.le_def.mpr hlast)
    rw [dispatchTurn, visitRecord_outside hout] at h
    cases h
  | cons reg rest =>
    obtain ⟨rfl, hhandler, hrest⟩ := hregistered.chain
    have hvisited := visitRecord_verify (v := v) (w := chainWalker code v frameAt regs) hhandler
    rw [dispatchTurn] at h
    generalize visitRecord v (chainWalker code v frameAt regs) reg.addr d = visited at h hvisited
    obtain ⟨log, e | d₁⟩ := visited
    · cases h
    · simp only [chainWalker, dropWhile_addr hnodup htail] at hvisited
      cases hverify : v.verifySehRegistration reg with
      | error e =>
        rw [hverify] at hvisited
        cases hvisited
      | ok =>
        cases hvisit : visit code v (reg :: rest) frameAt reg d with
        | error e =>
          rw [hverify, hvisit] at hvisited
          cases hvisited
        | ok d₂ =>
          rw [hverify, hvisit] at hvisited
          cases hvisited
          obtain ⟨hkept, hsparesRest⟩ := hspares d₂ hverify hvisit
          simp only at h
          split at h
          · rename_i hfound
            cases h
            exact ⟨reg, rest, rfl, rfl, hverify, hvisit, hkept, .inl ⟨hfound, rfl⟩⟩
          · rename_i hfound
            cases h
            refine ⟨reg, rest, rfl, rfl, hverify, hvisit, hkept,
              .inr ⟨not_not.mp hfound, rfl, hsparesRest (not_not.mp hfound)⟩⟩

/-- The walk along the records in memory is the dispatch along the list, and it ends at the record
of the function that catches. -/
theorem walks_dispatch (hnodup : (regs.map SehRegistration.addr).Nodup)
    (hspares : Spares image code v frameAt tail d) (htail : tail <:+ regs)
    (hregistered : Registered image d.world.mem tail p) (hd : d.handler = null)
    (h : Walks code v frameAt regs p d q d') :
    dispatch code v frameAt tail d = .ok d' ∧ d'.handler ≠ null ∧
      ∃ passed reg rest, tail = passed ++ reg :: rest ∧ q = reg.addr ∧
        d'.throwFrame.primaryFrameBase = frameBaseOf reg.target ∧
        Registered image d'.world.mem (reg :: rest) q := by
  obtain ⟨e, hreaches, hturn⟩ := h
  induction hreaches generalizing tail with
  | here p d =>
    obtain ⟨reg, rest, rfl, rfl, hverify, hvisit, hkept, ⟨hfound, -⟩ | ⟨-, hnext, -⟩⟩ :=
      turn_cases hnodup hspares htail hregistered hturn
    · refine ⟨?_, hfound, [], reg, rest, rfl, rfl, visit_primaryFrameBase hvisit hd hfound, hkept⟩
      simp only [dispatch, hverify, hvisit, bind, Except.bind]
      exact if_pos hfound
    · cases hnext
  | next hfirst _ ih =>
    obtain ⟨reg, rest, rfl, rfl, hverify, hvisit, hkept,
      ⟨-, hnext⟩ | ⟨hnull, hnext, hsparesRest⟩⟩ :=
      turn_cases hnodup hspares htail hregistered hfirst
    · cases hnext
    · cases hnext
      have hrest : rest <:+ regs := (List.suffix_cons _ _).trans htail
      obtain ⟨hdispatch, hfound, passed, reg', rest', rfl, hq, hbase, hchain⟩ :=
        ih hsparesRest hrest
          ⟨hkept.chain.2.2, fun r hr => hkept.embedded r (List.mem_cons_of_mem _ hr)⟩ hnull hturn
      refine ⟨?_, hfound, reg :: passed, reg', rest', rfl, hq, hbase, hchain⟩
      simp only [dispatch, hverify, hvisit, bind, Except.bind]
      rw [if_neg (not_not.mpr hnull)]
      exact hdispatch

theorem throwFrAt_same (h : Same m m' p 0x14) : throwFrAt m' p = throwFrAt m p := by
  have hword (i : Nat) (hi : i + 4 ≤ 0x14) : readWord m' (slot p i) = readWord m (slot p i) := by
    rw [← slot_zero p] at h
    have hwithin := h.within (Nat.zero_le i) (by omega : i + 4 ≤ 0 + 0x14)
    exact hwithin.readWord
  have hfirst := hword 0 (by decide)
  have h₁ : readWord m' (p + 0x04) = readWord m (p + 0x04) := hword 0x04 (by decide)
  have h₂ : readWord m' (p + 0x08) = readWord m (p + 0x08) := hword 0x08 (by decide)
  have h₃ : readWord m' (p + 0x0c) = readWord m (p + 0x0c) := hword 0x0c (by decide)
  have h₄ : readWord m' (p + 0x10) = readWord m (p + 0x10) := hword 0x10 (by decide)
  rw [slot_zero] at hfirst
  rw [throwFrAt, hfirst, h₁, h₂, h₃, h₄, throwFrAt]

theorem record_same {n : Nat} (h : Same m m' p n) (hn : 8 ≤ n) :
    read32 m' p = read32 m p ∧ read32 m' (p + 4) = read32 m (p + 4) := by
  rw [← slot_zero p] at h
  have hnext := h.within (Nat.le_refl 0) (by omega : 0 + 4 ≤ 0 + n)
  have hhandler := h.within (Nat.zero_le 4) (by omega : 4 + 4 ≤ 0 + n)
  rw [slot_zero] at hnext
  exact ⟨hnext.readWord, hhandler.readWord⟩

theorem size_ge (reg : SehRegistration) : 8 ≤ size reg := by
  rw [size]
  split <;> decide

theorem Registered.same (h : Registered image m regs p)
    (hsame : ∀ reg ∈ regs, Same m m' reg.addr (size reg)) : Registered image m' regs p := by
  refine ⟨?_, ?_⟩
  · have hchain := h.chain
    clear h
    induction regs generalizing p with
    | nil => exact hchain
    | cons reg rest ih =>
      obtain ⟨rfl, hhandler, hrest⟩ := hchain
      obtain ⟨hreg, hsame⟩ := List.forall_mem_cons.mp hsame
      obtain ⟨hnext, hword⟩ := record_same hreg (size_ge reg)
      refine ⟨rfl, hword.trans hhandler, ?_⟩
      rw [hnext]
      exact ih hsame hrest
  · intro reg hreg
    have hembedded := h.embedded reg hreg
    have hmem := hsame reg hreg
    rw [Embedded] at hembedded ⊢
    rw [size] at hmem
    cases htarget : reg.target with
    | primary ehInfo frameBase =>
      rw [htarget] at hembedded
      exact hembedded
    | catchFrame addr tf =>
      simp only [htarget] at hembedded hmem ⊢
      obtain ⟨rfl, hframe⟩ := hembedded
      rw [← slot_zero reg.addr] at hmem
      have hframeSame := hmem.within (Nat.zero_le 8) (by decide : 8 + 0x14 ≤ 0 + 0x1c)
      rw [throwFrAt_same hframeSame]
      exact ⟨rfl, hframe⟩

theorem toNat_sub_slot {a c : Ptr} {k : Nat} (h : (a - slot c k).toNat + k < 2 ^ 32) :
    (a - c).toNat = (a - slot c k).toNat + k := by
  have hadd : a - c = (a - slot c k) + .ofNat 32 k := by
    rw [slot, ← BitVec.sub_sub, BitVec.sub_add_cancel]
  rw [hadd, BitVec.toNat_add, BitVec.toNat_ofNat, Nat.add_mod_mod]
  exact Nat.mod_eq_of_lt h

theorem OnStack.lower {c : Ptr} {k : Nat} (h : OnStack v (slot c k) reg)
    (hk : (v.stackBase - slot c k).toNat + k < 2 ^ 32) : OnStack v c reg := by
  rw [OnStack] at h ⊢
  have haddr : (reg.addr - c).toNat = (reg.addr - slot c k).toNat + k := toNat_sub_slot (by omega)
  rw [haddr, toNat_sub_slot hk]
  omega

theorem OnStack.same {c : Ptr} {j k n : Nat} (h : OnStack v (slot c k) reg)
    (hsame : Same m m' (slot c j) n) (hj : j ≤ k)
    (hn : (v.stackBase - slot c k).toNat + k ≤ j + n) : Same m m' reg.addr (size reg) := by
  have haddr : reg.addr = slot c (k + (reg.addr - slot c k).toNat) := by
    have hcancel : reg.addr = reg.addr - slot c k + slot c k := (BitVec.sub_add_cancel _ _).symm
    rw [← slot_slot, slot, BitVec.ofNat_toNat, BitVec.setWidth_eq, BitVec.add_comm]
    exact hcancel
  rw [OnStack] at h
  rw [haddr]
  exact hsame.within (by omega) (by omega)

end

section

variable {image : Image} {code : Code 32} {v : SehVerifier} {frameAt : FrameAt}
  {regs : List SehRegistration} {env : Env} {catchFrameHandler : Ptr} {s t : Cpu} {f : Label}
  {calls : List (Called Callee Cpu)} {rest : ThrowException.Code} {d : Called Callee Cpu}

structure Left (image : Image) (code : Code 32) (v : SehVerifier) (frameAt : FrameAt)
    (passed tail : List SehRegistration) (reg : SehRegistration) (d : Called Callee Cpu)
    (d' : Dispatch) : Prop where
  dispatch : dispatch code v frameAt (passed ++ reg :: tail) (start image d.before) = .ok d'
  handler : d.after.reg .eax = d'.handler
  found : d'.handler ≠ null
  head : d.after.fs0 = reg.addr
  frameBase : frameBase d.after = frameBaseOf reg.target
  throwFrame : image.throwFrame (throwFrAt d.after.mem (d.after.reg .esp)) = d'.throwFrame
  registered : Registered image d.after.mem (reg :: tail) reg.addr

theorem gets_dispatched (henv : env.Abides) (hcallee : d.callee = .cxxDispatchException)
    (hgets : Gets (machine env) (listing catchFrameHandler) s (d :: calls) rest t) :
    Framed s d.before ∧ env.dispatch d.before d.after := by
  have hcalls : Gets (machine env) (listing catchFrameHandler) s ([] ++ d :: calls) rest t := hgets
  obtain ⟨g, code', hto, hreturns, -⟩ := hcalls.split
  have hline := (safe_listing henv).inv _ _ _ hto (List.cons_ne_nil _ _)
  have hcall := hline.call _ _ _ rfl
  rw [hcallee] at hcall hreturns
  exact ⟨hcall.2, hreturns⟩

theorem Throws.left (h : Throws image code v frameAt regs env s)
    (hcallee : d.callee = .cxxDispatchException)
    (hgets : Gets (machine env) (listing catchFrameHandler) s (d :: calls) rest t) :
    ∃ passed tail reg d', regs = passed ++ reg :: tail ∧
      d.after.reg .esp = s.reg .esp - 0x18 ∧
        Left image code v frameAt passed tail reg d d' := by
  obtain ⟨hframed, hdispatch⟩ := gets_dispatched h.abides hcallee hgets
  have hesp := (h.abides.dispatch _ _ hdispatch).trans hframed.esp
  have hecx : d.before.reg .ecx = s.reg .esp - 0x18 := hframed.throwFrame.trans hframed.esp
  have hslot : s.reg .esp = slot (s.reg .esp - 0x18) 0x18 := (BitVec.sub_add_cancel _ _).symm
  have habove := h.above
  have hroom := h.room
  have hbefore := hframed.mem
  rw [hslot] at habove hroom hbefore
  generalize s.reg .esp - 0x18 = c at *
  have hregistered : Registered image d.before.mem regs d.before.fs0 := by
    rw [hframed.fs0]
    refine h.registered.same fun reg hreg => ?_
    exact (habove reg hreg).same hbefore (Nat.le_refl _) (by omega)
  obtain ⟨q, d', hwalks, hleaves⟩ := h.dispatches.walks _ _ hframed hdispatch
  obtain ⟨hok, hfound, passed, reg, tail, rfl, rfl, hbase, hchain⟩ :=
    walks_dispatch h.nodup (h.dispatches.spares _ _ hframed hdispatch) List.suffix_rfl hregistered
      rfl hwalks
  have hbelow : (v.stackBase - slot c 0x14).toNat = (v.stackBase - slot c 0x18).toNat + 4 := by
    rw [← slot_slot (n := 4) (i := 0x14)]
    apply toNat_sub_slot
    rw [slot_slot]
    change (v.stackBase - slot c 0x18).toNat + 4 < 2 ^ 32
    omega
  have hmem := hleaves.mem
  rw [hecx, hbelow] at hmem
  refine ⟨passed, tail, reg, d', rfl, hesp, hok, hleaves.handler, hfound, hleaves.head, ?_, ?_, ?_⟩
  · have hframe := congrArg CxxThrowFrame.primaryFrameBase hleaves.throwFrame
    rw [hecx] at hframe
    rw [frameBase, hesp]
    exact hframe.trans hbase
  · rw [hesp, ← hecx]
    exact hleaves.throwFrame
  · refine hchain.same fun r hr => ?_
    exact (habove r (List.mem_append_right _ hr)).same hmem (by decide) (by omega)

def catchRecord (catchFrameHandler : Ptr) (t : Cpu) (d' : Dispatch) : SehRegistration :=
  ⟨t.fs0, catchFrameHandler, .catchFrame (slot t.fs0 0x08) d'.throwFrame⟩

theorem Inside.throws (henv : env.Abides) (hregistered : Registered image t.mem regs t.fs0)
    (hnodup : (regs.map SehRegistration.addr).Nodup)
    (habove : ∀ reg ∈ regs, OnStack v (t.reg .esp) reg) (h : Inside v regs t u)
    (hdispatches : Dispatches image code v frameAt regs env u) :
    Throws image code v frameAt regs env u := by
  obtain ⟨k, hesp, hroom⟩ := h.room
  rw [hesp] at habove hroom
  refine ⟨henv, hdispatches, ?_, hnodup, ?_, ?_⟩
  · rw [h.head]
    exact hregistered.same h.records
  · intro reg hreg
    exact (habove reg hreg).lower (by omega)
  · rw [toNat_sub_slot (by omega : (v.stackBase - slot (u.reg .esp) k).toNat + k < 2 ^ 32)]
    exact hroom

theorem esp_of_landed {dispatched : Cpu} (h : Landed catchFrameHandler dispatched t) :
    dispatched.reg .esp = slot (t.reg .esp) 0x08 := by
  rw [h.esp]
  exact (BitVec.sub_add_cancel _ _).symm

section

variable {passed tail : List SehRegistration} {reg : SehRegistration} {d' : Dispatch}

theorem Left.catch_registered (hleft : Left image code v frameAt passed tail reg d d')
    (hlanded : Landed catchFrameHandler d.after t)
    (habove : ∀ r ∈ reg :: tail, OnStack v (slot (t.reg .esp) 0x20) r)
    (hroom : (v.stackBase - slot (t.reg .esp) 0x20).toNat + 0x2c ≤ 2 ^ 32) :
    Registered image t.mem (catchRecord catchFrameHandler t d' :: reg :: tail) t.fs0 := by
  have hmem := hlanded.mem
  have hthrowFrame := hleft.throwFrame
  rw [esp_of_landed hlanded] at hmem hthrowFrame
  have hregistered : Registered image t.mem (reg :: tail) reg.addr :=
    hleft.registered.same fun r hr => (habove r hr).same hmem (by decide) (by omega)
  have hrecord := hlanded.record
  rw [hleft.head] at hrecord
  refine ⟨⟨rfl, congrArg SehRecord.handler hrecord, ?_⟩, ?_⟩
  · have hnext : read32 t.mem t.fs0 = reg.addr := congrArg SehRecord.next hrecord
    rw [hnext]
    exact hregistered.chain
  · rw [List.forall_mem_cons]
    refine ⟨⟨rfl, ?_⟩, hregistered.embedded⟩
    rw [hlanded.head, throwFrAt_same (hmem.within (Nat.le_refl _) (by decide)), hthrowFrame]

theorem catch_distinct (catchFrameHandler : Ptr) (d' : Dispatch) (hhead : t.fs0 = t.reg .esp)
    (habove : ∀ r ∈ regs, OnStack v (slot (t.reg .esp) 0x20) r)
    (hroom : (v.stackBase - slot (t.reg .esp) 0x20).toNat + 0x2c ≤ 2 ^ 32)
    (hnodup : (regs.map SehRegistration.addr).Nodup) :
    ((catchRecord catchFrameHandler t d' :: regs).map SehRegistration.addr).Nodup := by
  rw [List.map_cons]
  refine List.nodup_cons.mpr ⟨?_, hnodup⟩
  intro hmem
  obtain ⟨r, hr, heq⟩ := List.mem_map.mp hmem
  have hrest := habove r hr
  rw [OnStack] at hrest
  have haddr : (r.addr - t.reg .esp).toNat = (r.addr - slot (t.reg .esp) 0x20).toNat + 0x20 :=
    toNat_sub_slot (by omega)
  have hzero : (r.addr - t.reg .esp).toNat = 0 := by
    rw [heq, ← hhead]
    simp [catchRecord]
  rw [haddr] at hzero
  exact absurd hzero (Nat.succ_ne_zero _)

theorem catch_above (catchFrameHandler : Ptr) (d' : Dispatch) (hhead : t.fs0 = t.reg .esp)
    (habove : ∀ r ∈ regs, OnStack v (slot (t.reg .esp) 0x20) r)
    (hroom : (v.stackBase - slot (t.reg .esp) 0x20).toNat + 0x2c ≤ 2 ^ 32) :
    ∀ r ∈ catchRecord catchFrameHandler t d' :: regs, OnStack v (t.reg .esp) r := by
  rw [List.forall_mem_cons]
  refine ⟨?_, fun r hr => (habove r hr).lower (by omega)⟩
  rw [OnStack, toNat_sub_slot
    (by omega : (v.stackBase - slot (t.reg .esp) 0x20).toNat + 0x20 < 2 ^ 32)]
  simp [catchRecord, size, hhead]

end

/-- While the handler runs, the chain has its record before those that were not left, all of it
above the stack pointer. Another throw finds it like the first one did. -/
theorem handler_chained (h : Throws image code v frameAt regs env s)
    (hgets : Gets (machine env) (listing catchFrameHandler) s calls ((f, .call .eax) :: rest) t) :
    ∃ passed tail reg d u, regs = passed ++ reg :: tail ∧ Framed s u ∧
      dispatch code v frameAt regs (start image u) = .ok d ∧ d.handler ≠ null ∧
      t.reg .eax = d.handler ∧ t.reg .ebp = frameBaseOf reg.target ∧
      t.reg .esp = s.reg .esp - 0x20 ∧
      let chain := catchRecord catchFrameHandler t d :: reg :: tail
      Registered image t.mem chain t.fs0 ∧ (chain.map SehRegistration.addr).Nodup ∧
        (∀ r ∈ chain, OnStack v (t.reg .esp) r) ∧
        ∀ s', Inside v chain t s' → Dispatches image code v frameAt chain env s' →
          Throws image code v frameAt chain env s' := by
  have hline := (safe_listing h.abides).inv _ _ _ hgets (List.cons_ne_nil _ _)
  obtain ⟨d, n, rfl, hcallee, hlanded⟩ := hline.call _ _ _ rfl
  obtain ⟨hframed, -⟩ := gets_dispatched h.abides hcallee hgets
  obtain ⟨passed, tail, reg, d', rfl, hesp, hleft⟩ := h.left hcallee hgets
  have hsesp : s.reg .esp = slot (t.reg .esp) 0x20 := by
    have hcancel : s.reg .esp = d.after.reg .esp + 0x18 := by
      rw [hesp]
      exact (BitVec.sub_add_cancel _ _).symm
    rw [hcancel, esp_of_landed hlanded]
    exact slot_slot
  have htesp : t.reg .esp = s.reg .esp - 0x20 := by
    rw [hsesp]
    exact (BitVec.add_sub_cancel _ _).symm
  have habove := h.above
  have hroom := h.room
  rw [hsesp] at habove hroom
  have hrest (r : SehRegistration) (hr : r ∈ reg :: tail) :
      OnStack v (slot (t.reg .esp) 0x20) r := habove r (List.mem_append_right _ hr)
  have hnodup := h.nodup
  rw [List.map_append] at hnodup
  have hchain := hleft.catch_registered hlanded hrest hroom
  have hdistinct := catch_distinct catchFrameHandler d' hlanded.head hrest hroom
    (List.nodup_append.mp hnodup).2.1
  have hplaced := catch_above catchFrameHandler d' hlanded.head hrest hroom
  exact ⟨passed, tail, reg, d', d.before, rfl, hframed, hleft.dispatch, hleft.found,
    hlanded.handler.trans hleft.handler, hlanded.ebp.trans hleft.frameBase, htesp, hchain,
    hdistinct, hplaced, fun s' hinside => hinside.throws h.abides hchain hdistinct hplaced⟩

/-- The function that catches goes on where its handler says, in its own frame, and with its own
record as the head of the chain. -/
theorem catcher_registered (h : Throws image code v frameAt regs env s)
    (hgets : Gets (machine env) (listing catchFrameHandler) s calls [] t) :
    ∃ passed tail reg d u, regs = passed ++ reg :: tail ∧ Framed s u ∧
      dispatch code v frameAt regs (start image u) = .ok d ∧ t.fs0 = reg.addr ∧
      t.reg .ebp = frameBaseOf reg.target ∧ t.reg .esp = readWord t.mem (t.reg .ebp - 0x10) ∧
      ∃ c ∈ calls, c.callee = .eax ∧ c.before.reg .eax = d.handler ∧ t.eip = c.after.reg .eax := by
  obtain ⟨d, n, k, n', e, rfl, hcallees, hresumed⟩ := (safe_listing h.abides).post _ _ hgets
  have hcallee : d.callee = .cxxDispatchException := (List.cons.inj hcallees).1
  have hk : k.callee = .eax := (List.cons.inj (List.cons.inj (List.cons.inj hcallees).2).2).1
  obtain ⟨hframed, -⟩ := gets_dispatched h.abides hcallee hgets
  obtain ⟨passed, tail, reg, d', rfl, hesp, hleft⟩ := h.left hcallee hgets
  have hcalls : Gets (machine env) (listing catchFrameHandler) s ([d, n] ++ k :: [n', e]) [] t :=
    hgets
  obtain ⟨g, code', hto, -⟩ := hcalls.split
  have hlanded := ((safe_listing h.abides).inv _ _ _ hto (List.cons_ne_nil _ _)).call _ _ _ rfl
  rw [hk] at hlanded
  obtain ⟨d₁, n₁, heq, -, hlanded⟩ := hlanded
  obtain ⟨rfl, -⟩ := List.cons.inj heq
  refine ⟨passed, tail, reg, d', d.before, rfl, hframed, hleft.dispatch,
    hresumed.fs0.trans hleft.head, hresumed.ebp.trans hleft.frameBase, ?_, k, by simp, hk,
    hlanded.handler.trans hleft.handler, hresumed.eip⟩
  rw [hresumed.mem]
  exact hresumed.esp

end

def cleaning : FunctionEhInfo := ⟨0x19930520, [⟨-1, 0x401800⟩], [], 0, 0⟩

/-- A function that catches an `int` in `ebp-20h`. -/
def catching : FunctionEhInfo :=
  ⟨0x19930520, [⟨-1, null⟩], [⟨0, 0, 1, [⟨0, 0x404000, -0x20, 0x402000⟩]⟩], 0, 0⟩

def thrownInt : ThrowInfo :=
  ⟨0, null, [⟨EhFlags.CatchableProperty.isSimpleType, 0x404000, ⟨0, -1, 0⟩, 4, null⟩]⟩

def inner : SehRegistration := ⟨0x8f00, 0x401000, .primary cleaning 0x8f0c⟩

def outer : SehRegistration := ⟨0x9000, 0x401040, .primary catching 0x900c⟩

def twoHandlers : SehVerifier := ⟨0xa000, 0x7000, 0x400000, [0x1000, 0x1040]⟩

def twoFunctions : Image where
  ehInfoAt p := if p = 0x403000 then some catching else none
  throwInfoAt p := if p = 0x405000 then some thrownInt else none

def destructor : Code 32
  | .funclet _ frameBase, m => writeWord m (frameBase - 0x14) 7
  | _, m => m

/-- A throw of 5, from a function that the first of the two has called. -/
def throwing : Cpu where
  reg r := if r = .esp then 0x8000 else 0
  fs0 := 0x8f00
  mem := writeAll (fun _ => 0) (Lib.Ia32.words 0x8000 [(0x04, 0x8e00), (0x08, 0x405000),
    (0xe00, 5), (0xf00, 0x9000), (0xf04, 0x401000), (0x1000, 0xffffffff), (0x1004, 0x401040)])
  eip := 0

def framed : Cpu := Lib.Ia32.run construct throwing

def left : Dispatch where
  throwFrame := ⟨none, 0, 0, 0x8e00, some thrownInt⟩
  handler := null
  world := ⟨writeWord (writeWord framed.mem 0x8f08 (-1)) 0x8ef8 7, [.funclet 0x401800 0x8f0c]⟩

def caught : Dispatch where
  throwFrame := ⟨some catching, -1, 0x900c, 0x8e00, some thrownInt⟩
  handler := 0x402000
  world := ⟨writeWord (write (writeWord left.world.mem 0x9008 1) 0x8fec (bytesLE 4 5)) 0x8fec 5,
    [.funclet 0x401800 0x8f0c, .memcpy 0x8fec 0x8e00 4]⟩

def dispatched : Cpu :=
  { framed.setReg .eax 0x402000 with
    fs0 := 0x9000
    mem := writeAll caught.world.mem (Lib.Ia32.words (framed.reg .ecx)
      [(0x00, 0x403000), (0x04, -1), (0x08, 0x900c)]) }

def finds : Env where
  dispatch u t := u = framed ∧ t = dispatched
  funclet := taking.funclet
  destroy := taking.destroy

theorem finds_abides : finds.Abides := by
  refine ⟨?_, taking_abides.funclet, taking_abides.destroy⟩
  rintro s t ⟨rfl, rfl⟩
  rfl

theorem visit_inner : visit destructor twoHandlers [inner, outer] (fun _ => none) inner
    (start twoFunctions framed) = .ok left :=
  rfl

theorem visit_outer : visit destructor twoHandlers [outer] (fun _ => none) outer left =
    .ok caught :=
  rfl

theorem spares_throwing : Spares twoFunctions destructor twoHandlers (fun _ => none)
    [inner, outer] (start twoFunctions framed) := by
  intro d _ hinner
  obtain rfl := Except.ok.inj (visit_inner.symm.trans hinner)
  refine ⟨⟨⟨rfl, rfl, rfl, rfl, rfl⟩, by simp [inner, outer, Embedded, slot]⟩, fun _ => ?_⟩
  intro d _ houter
  obtain rfl := Except.ok.inj (visit_outer.symm.trans houter)
  refine ⟨⟨⟨rfl, rfl, rfl⟩, by simp [outer, Embedded, slot]⟩, fun hnull => ?_⟩
  exact absurd hnull (by decide)

theorem walks_throwing : Walks destructor twoHandlers (fun _ => none) [inner, outer] 0x8f00
    (start twoFunctions framed) 0x9000 caught :=
  ⟨left, .next rfl (.here _ _), rfl⟩

theorem throws_throwing : Throws twoFunctions destructor twoHandlers (fun _ => none)
    [inner, outer] finds throwing where
  abides := finds_abides
  dispatches := by
    refine ⟨?_, ?_⟩
    · rintro u t - ⟨rfl, rfl⟩
      refine ⟨0x9000, caught, walks_throwing, rfl, rfl, rfl, ?_⟩
      exact same_words (by simp) (by decide)
    · rintro u t - ⟨rfl, -⟩
      exact spares_throwing
  registered := ⟨⟨rfl, rfl, rfl, rfl, rfl⟩, by simp [inner, outer, Embedded, slot]⟩
  nodup := by decide
  above := by
    rw [List.forall_mem_cons, List.forall_mem_singleton, OnStack, OnStack]
    decide
  room := by decide

theorem handler_chained_throwing : ∃ calls f rest t,
    Gets (machine finds) (listing 0x402800) throwing calls ((f, .call .eax) :: rest) t ∧
      ∃ passed tail reg d u, [inner, outer] = passed ++ reg :: tail ∧ Framed throwing u ∧
        dispatch destructor twoHandlers (fun _ => none) [inner, outer] (start twoFunctions u) =
          .ok d ∧
        d.handler ≠ null ∧ t.reg .eax = d.handler ∧ t.reg .ebp = frameBaseOf reg.target ∧
        t.reg .esp = throwing.reg .esp - 0x20 ∧
        let chain := catchRecord 0x402800 t d :: reg :: tail
        Registered twoFunctions t.mem chain t.fs0 ∧ (chain.map SehRegistration.addr).Nodup ∧
          (∀ r ∈ chain, OnStack twoHandlers (t.reg .esp) r) ∧
          ∀ s', Inside twoHandlers chain t s' →
            Dispatches twoFunctions destructor twoHandlers (fun _ => none) chain finds s' →
              Throws twoFunctions destructor twoHandlers (fun _ => none) chain finds s' := by
  have hgets : ∃ calls f rest t,
      Gets (machine finds) (listing 0x402800) throwing calls ((f, .call .eax) :: rest) t :=
    ⟨_, _, _, _, gets_lines (@listingRun finds _ _) (.call (t := dispatched) ⟨rfl, rfl⟩
      (gets_lines (@listingRun finds _ _) (.call ⟨0, rfl⟩
        (gets_lines (@listingRun finds _ _) (.instr rfl (.here _ _))))))⟩
  obtain ⟨calls, f, rest, t, hgets⟩ := hgets
  exact ⟨calls, f, rest, t, hgets, handler_chained throws_throwing hgets⟩

theorem catcher_registered_throwing : ∃ calls t,
    Gets (machine finds) (listing 0x402800) throwing calls [] t ∧
      ∃ passed tail reg d u, [inner, outer] = passed ++ reg :: tail ∧ Framed throwing u ∧
        dispatch destructor twoHandlers (fun _ => none) [inner, outer] (start twoFunctions u) =
          .ok d ∧
        t.fs0 = reg.addr ∧ t.reg .ebp = frameBaseOf reg.target ∧
        t.reg .esp = readWord t.mem (t.reg .ebp - 0x10) ∧
        ∃ c ∈ calls, c.callee = .eax ∧ c.before.reg .eax = d.handler ∧
          t.eip = c.after.reg .eax := by
  have hend (t : Cpu) : Gets (machine finds) (lines Label.nlgReturn2 leave) t [] []
      (Lib.Ia32.run leave t) := by
    rw [← List.append_nil (lines Label.nlgReturn2 leave)]
    exact gets_lines (@listingRun finds _ _) (.here _ _)
  have hgets : ∃ calls t, Gets (machine finds) (listing 0x402800) throwing calls [] t :=
    ⟨_, _, gets_lines (@listingRun finds _ _) (.call (t := dispatched) ⟨rfl, rfl⟩
      (gets_lines (@listingRun finds _ _) (.call ⟨0, rfl⟩
        (gets_lines (@listingRun finds _ _) (.instr rfl (.call rfl
          (gets_lines (@listingRun finds _ _) (.instr rfl
            (gets_lines (@listingRun finds _ _) (.call ⟨0, rfl⟩ (.instr rfl (.call rfl
              (hend _)))))))))))))⟩
  obtain ⟨calls, t, hgets⟩ := hgets
  exact ⟨calls, t, hgets, catcher_registered throws_throwing hgets⟩

end Vcrtl.X86.ThrowLands
