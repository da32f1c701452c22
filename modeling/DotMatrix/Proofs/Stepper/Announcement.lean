import DotMatrix.Stepper
import DotMatrix.Proofs.Checked.Cpu
import DotMatrix.Proofs.Text.Hexadecimal

/-!
# What a stepper announces

A stepper reads the opcode at PC by itself before the processor fetches it. The line it shows can be
read back: it tells an address, an opcode, and whether that is marked as unsupported. These are PC,
the opcode that the processor looks up in its two tables, and the outcome of its step.
-/
namespace DotMatrix

/-! ## Two tables -/

def Opcode.byte : Opcode → UInt8
  | .primary byte => byte
  | .extended byte => byte

/-- The opcode that the tables are asked for at this address, and the handler they have for it. -/
def Cpu.dispatch (read : Reader) (address : UInt16) : Opcode × Option Handler :=
  match entryFor primaryEntries (read address).toNat with
  | some (.direct handler) => (.primary (read address), some handler)
  | some .extension =>
    let byte := read (address + 1)
    (.extended byte, entryFor extendedEntries byte.toNat)
  | none => (.primary (read address), none)

theorem Handler.map_of_fits {byte : UInt8} {decoded : Option Instruction}
    {handler? : Option Handler} (fits : Handler.fits byte decoded handler?) :
    handler?.map (·.instruction byte) = decoded := by
  cases handler? with
  | none =>
    rw [Handler.fits, beq_iff_eq] at fits
    exact fits.symm
  | some handler => exact (Handler.fits_some fits).2.symm

/-- The tables are asked for what is fetched, and have what it decodes to. -/
theorem Cpu.dispatch_eq (read : Reader) (address : UInt16) :
    (dispatch read address).1 = Opcode.fetch read address ∧
      (dispatch read address).2.map (·.instruction (Opcode.fetch read address).byte) =
        (Opcode.fetch read address).instruction? := by
  have fits := primaryEntries_fit (read address)
  unfold dispatch
  generalize entryFor primaryEntries (read address).toNat = entry at fits ⊢
  rcases entry with none | handler | _
  · rw [Route.fits, Bool.and_eq_true, bne_iff_ne] at fits
    rw [Opcode.fetch, if_neg fits.1]
    exact ⟨rfl, Handler.map_of_fits fits.2⟩
  · rw [Route.fits, Bool.and_eq_true, bne_iff_ne] at fits
    rw [Opcode.fetch, if_neg fits.1]
    exact ⟨rfl, Handler.map_of_fits fits.2⟩
  · rw [Route.fits, beq_iff_eq] at fits
    rw [Opcode.fetch, if_pos fits]
    exact ⟨rfl, Handler.map_of_fits (extendedEntries_fit _)⟩

/-! ## The line that is shown -/

/-- The line that tells what is at PC, with a mark if that is not supported. -/
def Stepper.headline (address : UInt16) (opcode : Opcode) (supported : Bool) : String :=
  "0x" ++ String.ofList (hexWord address) ++ ": " ++ opcode.text ++
    (if supported then "" else " (unsupported)") ++ "\n"

namespace Opcode

theorem exists_hexByte (byte : UInt8) : ∃ high low, hexByte byte = [high, low] := by
  have two := length_hexByte byte
  match hexByte byte, two with
  | [high, low], _ => exact ⟨high, low, rfl⟩

/-- An opcode can be told from what is shown of it, and so can the mark behind it. -/
theorem eq_of_text_append {opcode other : Opcode} {supported supported' : Bool}
    {rest rest' : List Char}
    (same :
      opcode.text.toList ++ ((if supported then "" else " (unsupported)").toList ++
          ("\n".toList ++ rest)) =
        other.text.toList ++ ((if supported' then "" else " (unsupported)").toList ++
          ("\n".toList ++ rest'))) :
    opcode = other ∧ supported = supported' := by
  have marks : ∀ {rest rest' : List Char},
      (if supported then "" else " (unsupported)").toList ++ ("\n".toList ++ rest) =
        (if supported' then "" else " (unsupported)").toList ++ ("\n".toList ++ rest') →
      supported = supported' := by
    intro rest rest' same
    cases supported <;> cases supported' <;> simp_all
  cases opcode with
  | primary byte =>
    obtain ⟨high, low, digits⟩ := exists_hexByte byte
    cases other with
    | primary byte' =>
      simp only [text, String.toList_append, String.toList_ofList, List.append_assoc] at same
      obtain ⟨bytes, behind⟩ := List.append_inj (List.append_cancel_left same)
        (by simp)
      exact ⟨congrArg primary (hexByte_injective bytes), marks behind⟩
    | extended byte' =>
      cases supported <;> simp [text, digits] at same
  | extended byte =>
    cases other with
    | primary byte' =>
      obtain ⟨high, low, digits⟩ := exists_hexByte byte'
      cases supported' <;> simp [text, digits] at same
    | extended byte' =>
      simp only [text, String.toList_append, String.toList_ofList, List.append_assoc] at same
      obtain ⟨bytes, behind⟩ := List.append_inj (List.append_cancel_left same)
        (by simp)
      exact ⟨congrArg extended (hexByte_injective bytes), marks behind⟩

end Opcode

namespace Stepper

/-- Wherever a headline stands, it can be read back from there. -/
theorem eq_of_headline_append {before rest rest' : String} {address address' : UInt16}
    {opcode opcode' : Opcode} {supported supported' : Bool}
    (same : before ++ headline address opcode supported ++ rest =
      before ++ headline address' opcode' supported' ++ rest') :
    address = address' ∧ opcode = opcode' ∧ supported = supported' := by
  have chars := congrArg String.toList same
  simp only [headline, String.toList_append, String.toList_ofList, List.append_assoc] at chars
  obtain ⟨addresses, behind⟩ := List.append_inj
    (List.append_cancel_left (List.append_cancel_left chars))
    (by simp)
  obtain ⟨opcodes, marks⟩ := Opcode.eq_of_text_append (List.append_cancel_left behind)
  exact ⟨hexWord_injective addresses, opcodes, marks⟩

theorem announcement_eq (r : Registers) (read : Reader) :
    announcement r read =
      headline r.pc (Opcode.fetch read r.pc) (Opcode.fetch read r.pc).isSupported ++ r.report :=
  rfl

/-- Asking only adds to what is written. -/
theorem exists_written_ask (lines : List (List UInt8)) (written : String) :
    ∃ added, (ask lines written).2.written = written ++ added := by
  induction lines generalizing written with
  | nil => exact ⟨question, rfl⟩
  | cons line rest ih =>
    rw [ask]
    cases Command.ofLine line with
    | step | resume | quit | unreadable => exact ⟨question, rfl⟩
    | unknown word =>
      obtain ⟨added, same⟩ := ih (written ++ question ++ complaint word)
      exact ⟨question ++ complaint word ++ added, by rw [same]; simp only [String.append_assoc]⟩

/-- A stepper that asks first writes what it announces, even where its question gets lost. -/
theorem exists_written_beforeStep {stepper : Stepper} (paused : stepper.paused = true)
    (takes : stepper.display ≠ .refusesText) (cpu : Cpu) (memory : Memory) :
    ∃ added, (Debugger.beforeStep cpu memory stepper).2.written =
      stepper.written ++ announcement cpu.registers memory.read ++ added := by
  have asks : Debugger.beforeStep cpu memory stepper =
      stepper.prompt cpu.registers memory.read := if_pos paused
  rw [asks, prompt]
  cases shown : stepper.display with
  | working => exact exists_written_ask _ _
  | refusesText => exact absurd shown takes
  | refusesFlush => exact ⟨question, rfl⟩

/-- What a stepper that asks announces is what the processor then does. Its line is read in one way
only: as PC, the opcode that the processor's tables are asked for, and whether they have a handler
for it. If they have, the step does what the handler does; if not, it fails, and its fault shows the
same opcode and the same address. -/
theorem announces_what_runs {stepper : Stepper} (paused : stepper.paused = true)
    (takes : stepper.display ≠ .refusesText) (cpu : Cpu) (memory : Memory) :
    let written := (Debugger.beforeStep cpu memory stepper).2.written
    (∃ address opcode supported rest,
      written = stepper.written ++ headline address opcode supported ++ rest) ∧
    ∀ address opcode supported rest,
      written = stepper.written ++ headline address opcode supported ++ rest →
        address = cpu.registers.pc ∧
        opcode = (Cpu.dispatch memory.read cpu.registers.pc).1 ∧
        match (Cpu.dispatch memory.read cpu.registers.pc).2 with
        | some handler =>
          supported = true ∧
            let effect := (handler.instruction opcode.byte).effect cpu.policy memory.read
              (cpu.registers.skip opcode.size)
            cpu.step memory =
              (.ok (), { cpu with registers := effect.registers }, Bus.apply memory effect.writes)
        | none =>
          supported = false ∧
            ∃ fault, cpu.step memory = (.error fault, cpu, memory) ∧
              fault.opcode.text = opcode.text ∧ fault.address = address := by
  intro written
  obtain ⟨answers, announced⟩ := exists_written_beforeStep paused takes cpu memory
  rw [announcement_eq, ← String.append_assoc, String.append_assoc] at announced
  refine ⟨⟨_, _, _, _, announced⟩, ?_⟩
  intro address opcode supported rest shown
  obtain ⟨rfl, rfl, rfl⟩ := eq_of_headline_append (shown.symm.trans announced)
  obtain ⟨asked, found⟩ := Cpu.dispatch_eq memory.read cpu.registers.pc
  refine ⟨rfl, asked.symm, ?_⟩
  rw [Opcode.isSupported_fetch]
  cases entry : (Cpu.dispatch memory.read cpu.registers.pc).2 with
  | some handler =>
    rw [entry, Option.map_some] at found
    exact ⟨by rw [← found, Option.isSome_some], Cpu.step_of_found found.symm⟩
  | none =>
    rw [entry, Option.map_none] at found
    exact ⟨by rw [← found, Option.isSome_none], _, Cpu.step_of_missing found.symm, rfl, rfl⟩

/-- The prefix lies right below the line register, whose cell holds a byte that no one can see. -/
theorem announces_what_runs_at_line_register :
    let stepper := ofInput [] .working
    let cpu : Cpu := { registers := { pc := 0xFF43 } }
    let memory := (Memory.blank.write 0xFF43 0xCB).write 0xFF44 0x47
    stepper.paused = true ∧ stepper.display ≠ .refusesText ∧
      (∃ rest, (Debugger.beforeStep cpu memory stepper).2.written =
        "" ++ headline 0xFF43 (.extended 0x90) false ++ rest) ∧
      ∃ fault, cpu.step memory = (.error fault, cpu, memory) ∧
        fault.opcode.text = "0xCB 0x90" ∧ fault.address = 0xFF43 := by
  intro stepper cpu memory
  have looked : Cpu.dispatch memory.read 0xFF43 = (.extended 0x90, none) := by
    have first : memory.read 0xFF43 = 0xCB := by
      simp [memory, Memory.read_write, Memory.lineRegister]
    have second : memory.read (0xFF43 + 1) = 0x90 := Memory.read_lineRegister memory
    rw [Cpu.dispatch, first, second]
    decide
  have paused : stepper.paused = true := rfl
  have takes : stepper.display ≠ .refusesText := by decide
  obtain ⟨⟨address, opcode, supported, rest, shown⟩, only⟩ :=
    announces_what_runs paused takes cpu memory
  have done := only address opcode supported rest shown
  rw [show cpu.registers.pc = 0xFF43 from rfl, looked] at done
  obtain ⟨rfl, rfl, rfl, failed⟩ := done
  exact ⟨paused, takes, ⟨rest, shown⟩, failed⟩

end Stepper

end DotMatrix
