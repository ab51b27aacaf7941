import Vcrtl.Lib.Runs
import Vcrtl.Matching
import Vcrtl.SehPass
import Vcrtl.Subobject
import Vcrtl.UnnamedHandler
import Vcrtl.X64.BackwardWalk
import Vcrtl.X64.CatchByValue
import Vcrtl.X64.FailStop
import Vcrtl.X64.FrameAllocation
import Vcrtl.X64.FrameBase
import Vcrtl.X64.FuncletSearch
import Vcrtl.X64.FunctionInfo
import Vcrtl.X64.Noexcept
import Vcrtl.X64.Ownership
import Vcrtl.X64.PrimaryFrame
import Vcrtl.X64.Resume
import Vcrtl.X64.Resumption
import Vcrtl.X64.RethrowProbe
import Vcrtl.X64.SameActivation
import Vcrtl.X64.SaveForms
import Vcrtl.X64.SearchRefinement
import Vcrtl.X64.SelectedLands
import Vcrtl.X64.Shortfall
import Vcrtl.X86.ChainWalk
import Vcrtl.X86.CleanupOnce
import Vcrtl.X86.EhHelpers
import Vcrtl.X86.NestedSearch
import Vcrtl.X86.Noexcept
import Vcrtl.X86.Ownership
import Vcrtl.X86.Resolution
import Vcrtl.X86.SafeSeh
import Vcrtl.X86.ThrowLands
