import DotMatrix.Memory.Basic

/-! The hook that is asked before every instruction. -/
namespace DotMatrix

inductive Action where
  | proceed
  | stop
deriving DecidableEq, Repr

/-- An observer that is shown the state before each instruction and may stop the machine. -/
class Debugger (δ : Type) where
  beforeStep : Cpu → Memory → δ → Action × δ

/-- The debugger that never interferes. -/
inductive NoDebugger where
  | noDebugger
deriving DecidableEq, Repr, Inhabited

instance : Debugger NoDebugger := ⟨fun _ _ debugger => (.proceed, debugger)⟩

end DotMatrix
