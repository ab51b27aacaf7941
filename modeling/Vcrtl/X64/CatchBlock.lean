import Vcrtl.CatchVariable
import Vcrtl.BugCheck
import Vcrtl.X64.EhStructs

namespace Vcrtl.X64.CatchBlock

open BugCheck EhFlags EhStructs CatchVariable

def findCatchable (imageBase : Ptr) (adjectives : BitVec 32) (matchType : Ptr)
    (throwInfo : ThrowInfo) : Option CatchableType :=
  throwInfo.catchables.find? fun c => displace imageBase c.desc == matchType &&
    (!hasAnyOf c.properties CatchableProperty.byReferenceOnly ||
      hasAnyOf adjectives CatchFlag.isReference)

def initCatchVariable (code : Code 64) (imageBase : Ptr) (adjectives : BitVec 32)
    (catchVar exceptionObject : Ptr) (c : CatchableType) (s : World 64) : World 64 :=
  if hasAnyOf adjectives CatchFlag.isReference then
    s.perform code (.reference catchVar exceptionObject)
  else
    let copyFn := if c.copyFn = 0 then none else some (displace imageBase c.copyFn)
    initByValue code c.properties c.offset c.size copyFn catchVar exceptionObject s

/-- `process_catch_block`. Only `catch (...)` gets along without a throw info. -/
def processCatchBlock (code : Code 64) (imageBase : Ptr) (adjectives : BitVec 32)
    (matchType catchVar exceptionObject : Ptr) (throwInfo : Option ThrowInfo) (s : World 64) :
    Exec (Bool × World 64) :=
  if hasAnyOf adjectives CatchFlag.isEllipsis then
    .ok (true, s)
  else
    match throwInfo with
    | none => .error .fault
    | some throwInfo =>
      if hasAnyOf throwInfo.attributes ThrowFlag.isConst ∧
          ¬ hasAnyOf adjectives CatchFlag.isConst then
        .ok (false, s)
      else if hasAnyOf throwInfo.attributes ThrowFlag.isUnaligned ∧
          ¬ hasAnyOf adjectives CatchFlag.isUnaligned then
        .ok (false, s)
      else if hasAnyOf throwInfo.attributes ThrowFlag.isVolatile ∧
          ¬ hasAnyOf adjectives CatchFlag.isVolatile then
        .ok (false, s)
      else
        match findCatchable imageBase adjectives matchType throwInfo with
        | none => .ok (false, s)
        | some c =>
          .ok (true, initCatchVariable code imageBase adjectives catchVar exceptionObject c s)

theorem processCatchBlock_found {code : Code 64} {imageBase matchType catchVar object : Ptr}
    {adjectives : BitVec 32} {throwInfo : ThrowInfo} {c : CatchableType} {s t : World 64}
    (hellipsis : hasAnyOf adjectives CatchFlag.isEllipsis = false)
    (h : processCatchBlock code imageBase adjectives matchType catchVar object (some throwInfo) s =
      .ok (true, t))
    (hc : findCatchable imageBase adjectives matchType throwInfo = some c) :
    t = initCatchVariable code imageBase adjectives catchVar object c s := by
  simp only [processCatchBlock, hellipsis, Bool.false_eq_true, if_false, hc] at h
  split at h
  · cases h
  · split at h
    · cases h
    · split at h
      · cases h
      · cases h
        rfl

end Vcrtl.X64.CatchBlock
