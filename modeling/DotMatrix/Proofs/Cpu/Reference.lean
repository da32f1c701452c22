import Mathlib.Algebra.Group.Nat.Defs
import DotMatrix.Cpu.Flags

/-!
# The instruction set on integers

A second account of every instruction: operands are picked by the bit fields of the opcode, and all
arithmetic is that of the integers, cut down to eight or sixteen bits at the end. It shares neither
the instructions nor the byte arithmetic of the processor.
-/
namespace DotMatrix.Reference

/-- The registers as numbers, the flags one by one. -/
structure File where
  (a b c d e h l sp pc : Nat)
  (zero negative half carry : Bool)
deriving DecidableEq, Repr

/-- The registers after an instruction, and the stores it makes: address and byte, in order. -/
structure Outcome where
  file : File
  stores : List (Nat × Nat) := []
deriving DecidableEq, Repr

/-- What stands in the cell at an address. -/
abbrev Cells := Nat → Nat

def byte (n : Int) : Nat := (n % 0x100).toNat

def word (n : Int) : Nat := (n % 0x10000).toNat

/-! ## The fields of an opcode -/

def y (op : Nat) : Nat := op >>> 3 &&& 7

def z (op : Nat) : Nat := op &&& 7

def p (op : Nat) : Nat := op >>> 4 &&& 3

/-! ## Operands -/

namespace File

def bc (f : File) : Nat := 256 * f.b + f.c

def de (f : File) : Nat := 256 * f.d + f.e

def hl (f : File) : Nat := 256 * f.h + f.l

/-- The flag register: Z, N, H and C from bit 7 down to bit 4. -/
def status (f : File) : Nat :=
  128 * f.zero.toNat + 64 * f.negative.toNat + 32 * f.half.toNat + 16 * f.carry.toNat

def af (f : File) : Nat := 256 * f.a + f.status

def setBC (f : File) (n : Nat) : File := { f with b := n / 256, c := n % 256 }

def setDE (f : File) (n : Nat) : File := { f with d := n / 256, e := n % 256 }

def setHL (f : File) (n : Nat) : File := { f with h := n / 256, l := n % 256 }

/-- The four low bits are lost. -/
def setAF (f : File) (n : Nat) : File :=
  { f with
    a := n / 256
    zero := n / 128 % 2 = 1
    negative := n / 64 % 2 = 1
    half := n / 32 % 2 = 1
    carry := n / 16 % 2 = 1 }

/-- Past an instruction of so many bytes. -/
def next (f : File) (size : Nat) : File := { f with pc := word (f.pc + size) }

/-- r = [B, C, D, E, H, L, (HL), A] -/
def r (cells : Cells) (f : File) (i : Nat) : Nat :=
  [f.b, f.c, f.d, f.e, f.h, f.l, cells f.hl, f.a].getD i 0

def setR (f : File) (i n : Nat) : Outcome :=
  match i with
  | 0 => { file := { f with b := n } }
  | 1 => { file := { f with c := n } }
  | 2 => { file := { f with d := n } }
  | 3 => { file := { f with e := n } }
  | 4 => { file := { f with h := n } }
  | 5 => { file := { f with l := n } }
  | 6 => { file := f, stores := [(f.hl, n)] }
  | _ => { file := { f with a := n } }

/-- rp = [BC, DE, HL, SP] -/
def rp (f : File) (i : Nat) : Nat := [f.bc, f.de, f.hl, f.sp].getD i 0

def setRp (f : File) (i n : Nat) : File :=
  [f.setBC n, f.setDE n, f.setHL n, { f with sp := n }].getD i f

/-- rp2 = [BC, DE, HL, AF] -/
def rp2 (f : File) (i : Nat) : Nat := [f.bc, f.de, f.hl, f.af].getD i 0

def setRp2 (f : File) (i n : Nat) : File :=
  [f.setBC n, f.setDE n, f.setHL n, f.setAF n].getD i f

/-- (BC), (DE), (HL+), (HL-) -/
def pointer (f : File) (i : Nat) : Nat := [f.bc, f.de, f.hl, f.hl].getD i 0

def movePointer (f : File) (i : Nat) : File :=
  [f, f, f.setHL (word (f.hl + 1)), f.setHL (word (f.hl - 1))].getD i f

/-- NZ, Z, NC, C -/
def condition (f : File) (i : Nat) : Bool :=
  [!f.zero, f.zero, !f.carry, f.carry].getD i false

/-- The byte after a one-byte opcode. -/
def d8 (cells : Cells) (f : File) : Nat := cells (word (f.pc + 1))

/-- The two bytes after a one-byte opcode, the low one first. -/
def d16 (cells : Cells) (f : File) : Nat :=
  cells (word (f.pc + 1)) + 256 * cells (word (f.pc + 2))

/-- A byte in two's complement, as a distance. -/
def distance (n : Nat) : Int := if n < 128 then n else n - 256

/-- The word above the stack pointer. -/
def top (cells : Cells) (f : File) : Nat :=
  cells (word (f.sp + 1)) + 256 * cells (word (f.sp + 2))

/-- The high byte goes to SP, the low byte below it. -/
def push (f : File) (n : Nat) : Outcome where
  file := { f with sp := word (f.sp - 2) }
  stores := [(f.sp, n / 256), (word (f.sp - 1), n % 256)]

def drop (f : File) : File := { f with sp := word (f.sp + 2) }

/-! ## Arithmetic -/

/-- The half carry of an addition or subtraction, which only the accurate policy computes. -/
def halfCarry (policy : FlagPolicy) (f : File) (computed : Bool) : Bool :=
  if policy = .accurate then computed else f.half

/-- A + n + k. -/
def add (policy : FlagPolicy) (f : File) (n k : Nat) : File :=
  { f with
    a := byte (f.a + n + k)
    zero := byte (f.a + n + k) = 0
    negative := false
    half := f.halfCarry policy (0x10 ≤ f.a % 16 + n % 16 + k)
    carry := 0x100 ≤ f.a + n + k }

/-- The flags of A - n - k. -/
def compare (policy : FlagPolicy) (f : File) (n k : Nat) : File :=
  { f with
    zero := byte (f.a - n - k) = 0
    negative := true
    half := f.halfCarry policy (((f.a % 16 : Nat) - (n % 16 : Nat) - k : Int) < 0)
    carry := (f.a - n - k : Int) < 0 }

/-- A - n - k. -/
def subtract (policy : FlagPolicy) (f : File) (n k : Nat) : File :=
  { f.compare policy n k with a := byte (f.a - n - k) }

/-- A bitwise operation: N and C are clear, H is as told. -/
def logic (f : File) (result : Nat) (half : Bool) : File :=
  { f with a := result, zero := result = 0, negative := false, half, carry := false }

/-- ADD, ADC, SUB, SBC, AND, XOR, OR, CP -/
def alu (policy : FlagPolicy) (f : File) (i n : Nat) : File :=
  match i with
  | 0 => f.add policy n 0
  | 1 => f.add policy n f.carry.toNat
  | 2 => f.subtract policy n 0
  | 3 => f.subtract policy n f.carry.toNat
  | 4 => f.logic (f.a &&& n) true
  | 5 => f.logic (f.a ^^^ n) false
  | 6 => f.logic (f.a ||| n) false
  | _ => f.compare policy n 0

/-- The flags of n + 1; the carry is kept. -/
def increment (policy : FlagPolicy) (f : File) (n : Nat) : File :=
  { f with
    zero := byte (n + 1) = 0
    negative := false
    half := f.halfCarry policy (0x10 ≤ n % 16 + 1) }

/-- The flags of n - 1; the carry is kept. -/
def decrement (policy : FlagPolicy) (f : File) (n : Nat) : File :=
  { f with
    zero := byte (n - 1) = 0
    negative := true
    half := f.halfCarry policy (((n % 16 : Nat) - 1 : Int) < 0) }

/-- The nine bits of carry and operand, turned left by one place. -/
def turned (f : File) (n : Nat) : Nat := (2 * n + f.carry.toNat) % 512

/-- The flags of a rotation: bit 8 of the turned number is the carry. -/
def rotate (f : File) (n : Nat) : File :=
  { f with
    zero := f.turned n % 256 = 0
    negative := false
    half := false
    carry := f.turned n / 256 = 1 }

/-- Z tells that the bit is clear; the carry is kept. -/
def testBit (f : File) (bit n : Nat) : File :=
  { f with zero := n / 2 ^ bit % 2 = 0, negative := false, half := true }

end File

/-! ## Instructions -/

/-- The kinds of instructions. -/
inductive Kind where
  | nop
  | loadPair | storePointer | loadPointer | incrementPair | decrementPair
  | increment | decrement | loadByte | rotateA | jumpRelative | jumpRelativeIf
  | load | aluRegister | aluByte
  | storeTop | loadTop | storeTopC | loadTopC | storeAbsolute | loadAbsolute
  | jump | call | ret | push | pop
  | rotate | testBit
deriving DecidableEq, Repr

/-- An opcode with the given bits under the mask is of the given kind. -/
structure Row where
  mask : Nat
  bits : Nat
  kind : Kind

def primaryRows : List Row := [
  ⟨0xFF, 0x00, .nop⟩, ⟨0xCF, 0x01, .loadPair⟩, ⟨0xCF, 0x02, .storePointer⟩,
  ⟨0xCF, 0x0A, .loadPointer⟩, ⟨0xCF, 0x03, .incrementPair⟩, ⟨0xCF, 0x0B, .decrementPair⟩,
  ⟨0xC7, 0x04, .increment⟩, ⟨0xC7, 0x05, .decrement⟩, ⟨0xC7, 0x06, .loadByte⟩,
  ⟨0xFF, 0x17, .rotateA⟩, ⟨0xFF, 0x18, .jumpRelative⟩, ⟨0xE7, 0x20, .jumpRelativeIf⟩,
  ⟨0xC0, 0x40, .load⟩, ⟨0xC0, 0x80, .aluRegister⟩, ⟨0xC7, 0xC6, .aluByte⟩,
  ⟨0xFF, 0xE0, .storeTop⟩, ⟨0xFF, 0xF0, .loadTop⟩, ⟨0xFF, 0xE2, .storeTopC⟩,
  ⟨0xFF, 0xF2, .loadTopC⟩, ⟨0xFF, 0xEA, .storeAbsolute⟩, ⟨0xFF, 0xFA, .loadAbsolute⟩,
  ⟨0xFF, 0xC3, .jump⟩, ⟨0xFF, 0xCD, .call⟩, ⟨0xFF, 0xC9, .ret⟩,
  ⟨0xCF, 0xC5, .push⟩, ⟨0xCF, 0xC1, .pop⟩]

/-- The table behind the byte 0xCB. -/
def extendedRows : List Row := [⟨0xF8, 0x10, .rotate⟩, ⟨0xC0, 0x40, .testBit⟩]

def kindIn (rows : List Row) (op : Nat) : Option Kind :=
  (rows.find? fun row => op &&& row.mask = row.bits).map (·.kind)

/-- The place of LD (HL),(HL) is taken by HALT, which is left out. -/
def primaryKind (op : Nat) : Option Kind := if op = 0x76 then none else kindIn primaryRows op

def extendedKind (op : Nat) : Option Kind := kindIn extendedRows op

/-- What the instruction at PC does. -/
def execute (policy : FlagPolicy) (cells : Cells) (op : Nat) (f : File) : Kind → Outcome
  | .nop => { file := f.next 1 }
  | .loadPair => { file := (f.next 3).setRp (p op) (f.d16 cells) }
  | .storePointer =>
    { file := (f.next 1).movePointer (p op), stores := [(f.pointer (p op), f.a)] }
  | .loadPointer =>
    { file := { (f.next 1).movePointer (p op) with a := cells (f.pointer (p op)) } }
  | .incrementPair => { file := (f.next 1).setRp (p op) (word (f.rp (p op) + 1)) }
  | .decrementPair => { file := (f.next 1).setRp (p op) (word (f.rp (p op) - 1)) }
  | .increment =>
    ((f.next 1).increment policy (f.r cells (y op))).setR (y op) (byte (f.r cells (y op) + 1))
  | .decrement =>
    ((f.next 1).decrement policy (f.r cells (y op))).setR (y op) (byte (f.r cells (y op) - 1))
  | .loadByte => (f.next 2).setR (y op) (f.d8 cells)
  | .rotateA =>
    { file := { (f.next 1).rotate f.a with a := f.turned f.a % 256, zero := false } }
  | .jumpRelative => { file := { f with pc := word (f.pc + 2 + File.distance (f.d8 cells)) } }
  | .jumpRelativeIf =>
    if f.condition (y op % 4) then
      { file := { f with pc := word (f.pc + 2 + File.distance (f.d8 cells)) } }
    else { file := f.next 2 }
  | .load => (f.next 1).setR (y op) (f.r cells (z op))
  | .aluRegister => { file := (f.next 1).alu policy (y op) (f.r cells (z op)) }
  | .aluByte => { file := (f.next 2).alu policy (y op) (f.d8 cells) }
  | .storeTop => { file := f.next 2, stores := [(0xFF00 + f.d8 cells, f.a)] }
  | .loadTop => { file := { f.next 2 with a := cells (0xFF00 + f.d8 cells) } }
  | .storeTopC => { file := f.next 1, stores := [(0xFF00 + f.c, f.a)] }
  | .loadTopC => { file := { f.next 1 with a := cells (0xFF00 + f.c) } }
  | .storeAbsolute => { file := f.next 3, stores := [(f.d16 cells, f.a)] }
  | .loadAbsolute => { file := { f.next 3 with a := cells (f.d16 cells) } }
  | .jump => { file := { f with pc := f.d16 cells } }
  | .call =>
    let pushed := f.push (word (f.pc + 3))
    { pushed with file := { pushed.file with pc := f.d16 cells } }
  | .ret => { file := { f.drop with pc := f.top cells } }
  | .push => (f.next 1).push (f.rp2 (p op))
  | .pop => { file := (f.next 1).drop.setRp2 (p op) (f.top cells) }
  | .rotate =>
    ((f.next 2).rotate (f.r cells (z op))).setR (z op) (f.turned (f.r cells (z op)) % 256)
  | .testBit => { file := (f.next 2).testBit (y op) (f.r cells (z op)) }

/-- One step; `none` if there is no instruction at PC. -/
def step (policy : FlagPolicy) (cells : Cells) (f : File) : Option Outcome :=
  let op := cells f.pc
  if op = 0xCB then
    let extended := cells (word (f.pc + 1))
    (extendedKind extended).map (execute policy cells extended f)
  else (primaryKind op).map (execute policy cells op f)

end DotMatrix.Reference
