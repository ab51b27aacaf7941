import Vcrtl.X64.Rebinding
import Vcrtl.X64.UnwindStates

namespace Vcrtl.X64.CatchByValue

open Lib.Memory BugCheck EhFlags EhStructs Throw CatchFrame CatchVariable Cleanup DispatcherContext
  Dispatch HandlerMap Rebinding UnwindStates

def isCall : Effect 64 → Bool
  | .reference _ _ => false
  | .funclet _ _ | .destroy _ _ | .destroyThrough _ _ _ | .memcpy _ _ _ | .copy _ _ _
  | .copyVb _ _ _ => true

def calls (s : World 64) : List (Effect 64) := s.trace.filter isCall

section

variable (env : Env)

/-- The calls up to the handler's body, if it catches by value. A constructor that throws
leaves the search, with nothing cleaned up. -/
def valueCalls (framePtr : Ptr) (c : Selection) (actions : List Action) (throws : Option Dispatch) :
    List (Effect 64) :=
  match throws with
  | none => calls (runAll env.code framePtr actions c.dispatch.world)
  | some _ => calls c.dispatch.world

/-- The first action of a body that copies what the reference in a slot refers to. -/
def copyFirst (vb : Bool) (fn self slot : Ptr) (s : World 64) : World 64 :=
  s.perform env.code (copyCall vb fn self (readWord s.mem slot))

def referenceCalls (framePtr : Ptr) (c : Selection) (actions : List Action) (vb : Bool)
    (fn self slot : Ptr) : List (Effect 64) :=
  calls (copyFirst env vb fn self slot (runAll env.code framePtr actions c.dispatch.world))

def destroyed (info : CatchInfo) : List (Effect 64) :=
  (cxxDestroyException info).map fun x =>
    .destroy (displace env.imageBase x.destroyExcObj) x.object

/-- An exception that a copy constructor throws on some stack destroys the one that is being
caught, and gets to the frame of the handler's function. -/
def Propagates (info : CatchInfo) (stack position : List Frame) (e : Dispatch) : Prop :=
  ∃ e', Visits env stack e position e' ∧ e'.world.trace = e.world.trace ++ destroyed env info

variable {env} {framePtr : Ptr} {actions : List Action} {s : World 64}

theorem isCall_of_cleanup {e : Effect 64} {p : Ptr} (h : cleanupAddress e = some p) :
    isCall e = true := by
  cases e <;> first | rfl | cases h

theorem cleanupAddress_copyCall (vb : Bool) (fn self other : Ptr) :
    cleanupAddress (copyCall vb fn self other) = none := by
  cases vb <;> rfl

theorem isCall_copyCall (vb : Bool) (fn self other : Ptr) :
    isCall (copyCall vb fn self other) = true := by
  cases vb <;> rfl

theorem calls_runAll : ∃ effects, calls (runAll env.code framePtr actions s) = calls s ++ effects ∧
    (runAll env.code framePtr actions s).trace = s.trace ++ effects ∧
    effects.length = actions.length ∧
    ∀ e ∈ effects, ∀ vb fn self other, e ≠ copyCall vb fn self other := by
  obtain ⟨effects, htrace, haddress⟩ := @trace_runAll env.code framePtr s actions
  have hcleanup : ∀ e ∈ effects, ∃ p, cleanupAddress e = some p := by
    intro e he
    have hmem := List.mem_map_of_mem (f := cleanupAddress) he
    rw [haddress] at hmem
    obtain ⟨a, -, ha⟩ := List.mem_map.mp hmem
    exact ⟨_, ha.symm⟩
  have hlength := congrArg List.length haddress
  simp only [List.length_map] at hlength
  refine ⟨effects, ?_, htrace, hlength, ?_⟩
  · have hall : effects.filter isCall = effects := by
      apply List.filter_eq_self.mpr
      intro e he
      obtain ⟨p, hp⟩ := hcleanup e he
      exact isCall_of_cleanup hp
    rw [calls, htrace, List.filter_append, hall]
    rfl
  · rintro e he vb fn self other rfl
    obtain ⟨p, hp⟩ := hcleanup _ he
    rw [cleanupAddress_copyCall] at hp
    cases hp

theorem visits_seh {inner rest frames' : List Frame} {d d' : Dispatch}
    (h : Visits env (inner ++ .seh :: rest) d frames' d') : rest.length < frames'.length := by
  induction inner generalizing d with
  | nil =>
    cases h with
    | here => simp
    | next hexecute =>
      simp only [executeHandler, cxxSehFrameHandler, bind_ok] at hexecute
      obtain ⟨disposition, hdisposition, u, hverify, -⟩ := hexecute
      cases hdisposition
      cases verify_ok.mp hverify
  | cons frame inner ih =>
    cases h with
    | here =>
      simp only [List.cons_append, List.length_cons, List.length_append]
      omega
    | next _ _ hrest => exact ih hrest

theorem not_propagates {info : CatchInfo} (inner walked : List Frame) {f : Frame}
    {rest : List Frame} {e : Dispatch} :
    ¬ Propagates env info (inner ++ .seh :: (walked ++ f :: rest)) (f :: rest) e := by
  rintro ⟨e', hvisits, -⟩
  have hlt := visits_seh hvisits
  simp only [List.length_append, List.length_cons] at hlt
  omega

theorem trace_destroy (xs : List DestroyCall) (s : World 64) :
    (xs.foldl (fun s x => s.perform env.code
      (.destroy (displace env.imageBase x.destroyExcObj) x.object)) s).trace =
      s.trace ++ xs.map fun x => .destroy (displace env.imageBase x.destroyExcObj) x.object := by
  induction xs generalizing s with
  | nil => exact (List.append_nil _).symm
  | cons x xs ih =>
    rw [List.foldl_cons, ih]
    exact List.append_assoc _ _ _

theorem propagates_catch {info : CatchInfo} {funclet : FunctionFrame} {framePtr : Ptr}
    {position : List Frame} {e : Dispatch} (hhandler : e.handler = null)
    (hfunclet : executeHandler env (.function funclet :: .callCatch framePtr info :: position)
      (.function funclet) e = .ok e)
    (hfresh : ¬ (e.catchInfo.exceptionObjectOrLink = null ∨
      e.catchInfo.exceptionObjectOrLink = catchInfoAddr framePtr)) :
    Propagates env info (.function funclet :: .callCatch framePtr info :: position) position e := by
  have hcall : executeHandler env (.callCatch framePtr info :: position)
      (.callCatch framePtr info) e = .ok { e with
        catchInfo := { e.catchInfo with
          primaryFramePtr := info.primaryFramePtr
          unwindContext := info.unwindContext }
        world := (cxxDestroyException info).foldl (fun s x => s.perform env.code
          (.destroy (displace env.imageBase x.destroyExcObj) x.object)) e.world } := by
    simp only [executeHandler, callCatch_drop hfresh, bind, Except.bind]
    rfl
  refine ⟨_, .next hfunclet hhandler (.next hcall hhandler (.here _ _)), ?_⟩
  exact trace_destroy _ _

theorem Selects.unique {frames : List Frame} {f : FunctionFrame} {d : Dispatch} {c c' : Selection}
    {as as' : List Action} (h : Selects env frames f d c as) (h' : Selects env frames f d c' as') :
    c = c' ∧ as = as' := by
  cases hdata : f.ehData with
  | none => simp only [Selects, hdata] at h
  | fh3 ehInfo =>
    simp only [Selects, hdata] at h h'
    obtain rfl := Except.ok.inj (h.1.symm.trans h'.1)
    exact ⟨rfl, Except.ok.inj (h.2.symm.trans h'.2)⟩
  | fh4 funcInfo =>
    simp only [Selects, hdata] at h h'
    obtain rfl := Except.ok.inj (h.1.symm.trans h'.1)
    exact ⟨rfl, Except.ok.inj (h.2.symm.trans h'.2)⟩

theorem probeUnless_function (infoAt : InfoAt) (f f' : FunctionFrame) (rest : List Frame) :
    probeUnless infoAt (.function f' :: rest) = probeUnless infoAt (.function f :: rest) := rfl

theorem calls_copy {s t : World 64} {vb : Bool} {fn self other : Ptr}
    (h : t.trace = s.trace ++ [copyCall vb fn self other]) :
    calls t = calls s ++ [copyCall vb fn self other] := by
  rw [calls, h, List.filter_append, List.filter_singleton, isCall_copyCall]
  rfl

theorem calls_agree_iff {s t : World 64} {vb : Bool} {fn self other slot : Ptr}
    (h : t.trace = s.trace ++ [copyCall vb fn self other]) :
    calls (runAll env.code framePtr actions t) = calls (copyFirst env vb fn self slot
        (runAll env.code framePtr actions (s.perform env.code (.reference slot other)))) ↔
      actions = [] := by
  constructor
  · intro heq
    obtain ⟨effects, hcalls, -, -, -⟩ :=
      @calls_runAll env framePtr actions t
    obtain ⟨effects', hcalls', -, hlength, hother⟩ :=
      @calls_runAll env framePtr actions (s.perform env.code (.reference slot other))
    have hbody := calls_copy (s := runAll env.code framePtr actions
      (s.perform env.code (.reference slot other))) (t := copyFirst env vb fn self slot
        (runAll env.code framePtr actions (s.perform env.code (.reference slot other)))) rfl
    have hbound : calls (s.perform env.code (.reference slot other)) = calls s := by
      rw [calls, World.perform, List.filter_append]
      exact List.append_nil _
    rw [hcalls, calls_copy h, hbody, hcalls', hbound, List.append_assoc, List.append_assoc] at heq
    have hcancel := List.append_cancel_left heq
    cases effects' with
    | nil => exact List.length_eq_zero_iff.mp hlength.symm
    | cons e effects' =>
      have hhead := (List.cons.inj hcancel).1
      exact absurd hhead.symm (hother e List.mem_cons_self vb fn self other)
  · rintro rfl
    have hread : readWord (s.perform env.code (.reference slot other)).mem slot = other :=
      readWord_writeWord (by decide)
    have hbody := calls_copy (s := s.perform env.code (.reference slot other))
      (t := copyFirst env vb fn self slot (s.perform env.code (.reference slot other))) rfl
    rw [hread] at hbody
    change calls t =
      calls (copyFirst env vb fn self slot (s.perform env.code (.reference slot other)))
    rw [calls_copy h, hbody]
    congr 1
    rw [calls, calls, World.perform, List.filter_append]
    exact (List.append_nil _).symm

/-- A handler that catches by value is the same as one that catches by reference and copies
first, in the calls that the program sees and in what becomes of an exception from the copy
constructor, exactly if the constructor does not throw and the states that the frame leaves
have no cleanup to do. -/
theorem by_value_iff {f funclet : FunctionFrame} {ehData : EhData} {g : UnwindGraph}
    {target slot : Rva} {inner walked rest : List Frame} {d : Dispatch} {c c' : Selection}
    {actions' : List Action} {vb : Bool} {fn self other : Ptr} {throws : Option Dispatch}
    (hmapped : Mapped env.imageBase) (htable : UnwindTable env f g) (hnull : d.handler = null)
    (hvalue : Selects env (.function f :: rest) f d c actions)
    (htarget : c.dispatch.handler = displace env.imageBase target)
    (hdistinct : (funcletsOf env f).Nodup)
    (hcopy : c.dispatch.world.trace = d.world.trace ++ [copyCall vb fn self other])
    (href : ByReference env f target slot ehData)
    (hreference : Selects env (.function { f with ehData := ehData } :: rest)
      { f with ehData := ehData } d c' actions')
    (hthrows : ∀ e ∈ throws, e.handler = null ∧
      executeHandler env (.function funclet :: .callCatch framePtr c'.dispatch.catchInfo ::
        .function { f with ehData := ehData } :: rest) (.function funclet) e = .ok e ∧
      ¬ (e.catchInfo.exceptionObjectOrLink = null ∨
        e.catchInfo.exceptionObjectOrLink = catchInfoAddr framePtr)) :
    (valueCalls env f.framePtr c actions throws = referenceCalls env f.framePtr c' actions' vb fn
        self (displace c'.primaryFramePtr slot) ∧
      ∀ e ∈ throws,
        (Propagates env c.dispatch.catchInfo
            (inner ++ .seh :: (walked ++ .function f :: rest)) (.function f :: rest) e ↔
          Propagates env c'.dispatch.catchInfo
            (.function funclet :: .callCatch framePtr c'.dispatch.catchInfo ::
              .function { f with ehData := ehData } :: rest)
            (.function { f with ehData := ehData } :: rest) e)) ↔
      throws = none ∧ NothingToDo f.ehData g c.targetState c.state := by
  rw [← actions_eq_nil_iff htable hvalue]
  have hrebound := selects_rebind
    (probeUnless_function env.infoAt f { f with ehData := ehData } rest)
    hmapped hnull hvalue htarget hdistinct hcopy href
  obtain ⟨rfl, rfl⟩ := Selects.unique hreference hrebound
  cases throws with
  | none =>
    rw [valueCalls, referenceCalls, calls_agree_iff hcopy]
    simp
  | some e =>
    obtain ⟨hhandler, hfunclet, hfresh⟩ := hthrows e rfl
    have hpropagates := propagates_catch hhandler hfunclet hfresh
    constructor
    · rintro ⟨-, hsame⟩
      exact absurd ((hsame e rfl).mpr hpropagates) (not_propagates _ _)
    · rintro ⟨hnone, -⟩
      cases hnone

end

def valueHandler : FunctionEhInfo where
  unwindGraph := [⟨-1, 0⟩, ⟨0, 0x30⟩]
  tryBlocks := [⟨0, 1, 2, [⟨0, 0x20, 0x28, 0x60, 0⟩]⟩]
  regions := [⟨0x10, 0⟩, ⟨0x18, 1⟩]
  ehFlags := 0

def valueFrame (rip : Ptr) : FunctionFrame := ⟨0x5000, rip, 0x10, .fh3 valueHandler⟩

def valueGraph : UnwindGraph := ⟨Fh3.edges 0x400000 valueHandler.unwindGraph, by decide⟩

def referenceData : EhData :=
  .fh3 { valueHandler with tryBlocks := valueHandler.tryBlocks.map (rebindBlock 0x60 0x30) }

def thrown : Dispatch :=
  ⟨⟨0, 0, 0, 0x800, some ⟨0, 0x70, [⟨0, 0x20, ⟨0, 0, 0⟩, 8, 0x80⟩]⟩, 0⟩, null, ⟨fun _ => 0, []⟩⟩

def thrownByCopy : Dispatch := ⟨⟨0, 0, 0, 0x900, some ⟨0, 0, []⟩, 0⟩, null, ⟨fun _ => 0, []⟩⟩

def copyOf : Effect 64 := .copy 0x400080 0x5028 0x800

theorem by_value_without_cleanup : ∃ c c' actions',
    Selects bareEnv [.function (valueFrame 0x400010)] (valueFrame 0x400010) thrown c [] ∧
    Selects bareEnv [.function { valueFrame 0x400010 with ehData := referenceData }]
      { valueFrame 0x400010 with ehData := referenceData } thrown c' actions' ∧
    ((valueCalls bareEnv 0x5000 c [] none = referenceCalls bareEnv 0x5000 c' actions' false
        0x400080 0x5028 (displace c'.primaryFramePtr 0x30) ∧
      ∀ e ∈ none,
        (Propagates bareEnv c.dispatch.catchInfo
            ([] ++ .seh :: ([] ++ [.function (valueFrame 0x400010)]))
            [.function (valueFrame 0x400010)] e ↔
          Propagates bareEnv c'.dispatch.catchInfo
            (.function (valueFrame 0x400060) :: .callCatch 0x4000 c'.dispatch.catchInfo ::
              [.function { valueFrame 0x400010 with ehData := referenceData }])
            [.function { valueFrame 0x400010 with ehData := referenceData }] e)) ↔
      (none : Option Dispatch) = none ∧
        NothingToDo (.fh3 valueHandler) valueGraph c.targetState c.state) := by
  have hmapped : Mapped bareEnv.imageBase := mapped_of_le (by decide) (by decide)
  have htable : UnwindTable bareEnv (valueFrame 0x400010) valueGraph :=
    ⟨rfl, by decide, by decide⟩
  have hvalue : ∃ c, Selects bareEnv [.function (valueFrame 0x400010)] (valueFrame 0x400010)
      thrown c [] ∧ c.dispatch.handler = displace bareEnv.imageBase 0x60 ∧
      c.dispatch.world.trace = thrown.world.trace ++ [copyCall false 0x400080 0x5028 0x800] :=
    ⟨_, ⟨rfl, rfl⟩, rfl, rfl⟩
  obtain ⟨c, hvalue, htarget, hcopy⟩ := hvalue
  have hreference : ∃ c' actions',
      Selects bareEnv [.function { valueFrame 0x400010 with ehData := referenceData }]
        { valueFrame 0x400010 with ehData := referenceData } thrown c' actions' :=
    ⟨_, _, ⟨rfl, rfl⟩⟩
  obtain ⟨c', actions', hreference⟩ := hreference
  refine ⟨c, c', actions', hvalue, hreference, ?_⟩
  apply by_value_iff hmapped htable rfl hvalue htarget (by decide) hcopy rfl hreference
  intro e he
  cases he

/-- By value, the copy comes before the object of the try block is destroyed, and its exception
is not let through. -/
theorem copy_before_cleanup : ∃ c c' actions,
    Selects bareEnv [.function (valueFrame 0x400018)] (valueFrame 0x400018) thrown c actions ∧
    Selects bareEnv [.function { valueFrame 0x400018 with ehData := referenceData }]
      { valueFrame 0x400018 with ehData := referenceData } thrown c' actions ∧
    valueCalls bareEnv 0x5000 c actions none = [copyOf, .funclet 0x400030 0x5000] ∧
    referenceCalls bareEnv 0x5000 c' actions false 0x400080 0x5028
      (displace c'.primaryFramePtr 0x30) = [.funclet 0x400030 0x5000, copyOf] ∧
    ¬ Propagates bareEnv c.dispatch.catchInfo [.seh, .function (valueFrame 0x400018)]
      [.function (valueFrame 0x400018)] thrownByCopy ∧
    Propagates bareEnv c'.dispatch.catchInfo
      [.function ⟨0x3000, 0x400060, 0x60, .none⟩, .callCatch 0x4000 c'.dispatch.catchInfo,
        .function { valueFrame 0x400018 with ehData := referenceData }]
      [.function { valueFrame 0x400018 with ehData := referenceData }] thrownByCopy := by
  refine ⟨_, _, _, ⟨rfl, rfl⟩, ⟨rfl, rfl⟩, rfl, rfl, ?_, ?_⟩
  · exact not_propagates [] []
  · exact propagates_catch rfl rfl (by decide)

end Vcrtl.X64.CatchByValue
