import DotMatrix.Memory.Load

/-!
# What images leave in memory

Two images are mapped into memory, side by side: the boot ROM from the first cell on, the cartridge
behind the first page. Whatever is loaded and written in whatever order, a cell holds the byte of the
last operation that covered it.
-/
namespace DotMatrix

namespace Ram

theorem ext_read {ram ram' : Ram} (same : ∀ address, ram.read address = ram'.read address) :
    ram = ram' := by
  obtain ⟨cells⟩ := ram
  obtain ⟨cells'⟩ := ram'
  congr 1
  apply Vector.ext
  intro i bound
  have number : (UInt16.ofNat i).toNat = i := by
    simp
    omega
  simpa [read, number] using same (UInt16.ofNat i)

/-- Bytes that fill the address space at most are all to be found, even where they go round. -/
theorem read_store_around (ram : Ram) (address other : UInt16) (bytes : List UInt8)
    (fits : bytes.length ≤ 65536) :
    (ram.store address bytes).read other =
      bytes[(other - address).toNat]?.getD (ram.read other) := by
  induction bytes generalizing ram address with
  | nil => simp [store]
  | cons byte rest ih =>
    rw [List.length_cons] at fits
    have one : (1 : UInt16).toNat = 1 := rfl
    have := address.toNat_lt
    have := other.toNat_lt
    rw [store, ih _ _ (by omega), read_write]
    by_cases same : address = other
    · -- Only a row longer than the address space would come back to its first cell.
      subst same
      have last : (address - (address + 1)).toNat = 65535 := by
        rw [UInt16.toNat_sub, UInt16.toNat_add, one]
        omega
      rw [if_pos rfl, last, List.getElem?_eq_none (by omega), UInt16.sub_self]
      rfl
    · have apart : address.toNat ≠ other.toNat := mt UInt16.toNat_inj.1 same
      have offset : (other - address).toNat = (other - (address + 1)).toNat + 1 := by
        rw [UInt16.toNat_sub, UInt16.toNat_sub, UInt16.toNat_add, one]
        omega
      rw [if_neg same, offset, List.getElem?_cons_succ]

/-- Bytes that do not reach the end of the address space come to lie in a row. -/
theorem read_store (ram : Ram) (address other : UInt16) (bytes : List UInt8)
    (fits : address.toNat + bytes.length < 65536) :
    (ram.store address bytes).read other =
      (if address.toNat ≤ other.toNat then bytes[other.toNat - address.toNat]? else none).getD
        (ram.read other) := by
  have := address.toNat_lt
  have := other.toNat_lt
  rw [read_store_around _ _ _ _ (by omega), UInt16.toNat_sub]
  split
  · have offset : (65536 - address.toNat + other.toNat) % 65536 = other.toNat - address.toNat := by
      omega
    rw [offset]
  · rw [List.getElem?_eq_none (by omega)]

end Ram

namespace Memory

/-- What can be put into memory from outside. -/
inductive Placement where
  | loadBoot (image : List UInt8)
  | loadCartridge (image : List UInt8)
  | write (address : UInt16) (value : UInt8)

/-- The byte that comes into a cell, if the cell is covered: by a boot image that fits into the first
page from its first cell on, by a cartridge from the second page to the end of the ROM window, and as
far as the image goes. -/
def Placement.byte? (address : UInt16) : Placement → Option UInt8
  | .loadBoot image => if image.length ≤ 0x100 then image[address.toNat]? else none
  | .loadCartridge image =>
    if 0x100 ≤ address.toNat ∧ address.toNat < min image.length 0x8000 then image[address.toNat]?
    else none
  | .write cell value => if cell = address then some value else none

/-- A boot image that does not fit leaves the memory as it was. -/
def place (memory : Memory) : Placement → Memory
  | .loadBoot image =>
    match memory.loadBoot image with
    | .ok after => after
    | .error _ => memory
  | .loadCartridge image => (memory.loadCartridge image).2
  | .write address value => memory.write address value

def placeAll (memory : Memory) (placements : List Placement) : Memory :=
  placements.foldl place memory

theorem length_mapped (image : List UInt8) :
    (mapped image).length = min image.length 0x8000 - 0x100 := by
  simp [mapped, cartridgeStart, romEnd, Nat.min_comm]

theorem getElem?_mapped (image : List UInt8) (i : Nat) :
    (mapped image)[i]? = if 0x100 + i < 0x8000 then image[0x100 + i]? else none := by
  simp [mapped, cartridgeStart, romEnd, List.getElem?_take]

/-- A cell that is covered holds the byte that came into it, any other one what it held before. -/
theorem read_place (memory : Memory) (placement : Placement) (address : UInt16) :
    (memory.place placement).ram.read address =
      (placement.byte? address).getD (memory.ram.read address) := by
  cases placement with
  | loadBoot image =>
    by_cases fits : image.length ≤ 0x100
    · have placed : memory.place (.loadBoot image) = memory.store 0 image := by
        simp [place, loadBoot, bootRomSize, fits]
      rw [placed, Memory.store, Ram.read_store _ _ _ _ (by simp; omega)]
      simp [Placement.byte?, fits]
    · have placed : memory.place (.loadBoot image) = memory := by
        simp [place, loadBoot, bootRomSize, fits]
      simp [placed, Placement.byte?, fits]
  | loadCartridge image =>
    have start : (UInt16.ofNat cartridgeStart).toNat = 0x100 := rfl
    have length := length_mapped image
    rw [place, loadCartridge, Memory.store, Ram.read_store _ _ _ _ (by omega), start,
      Placement.byte?, getElem?_mapped]
    congr 1
    grind
  | write cell value =>
    rw [place, Memory.write, Ram.read_write, Placement.byte?]
    split <;> rfl

theorem read_placeAll (memory : Memory) (placements : List Placement) (address : UInt16) :
    (memory.placeAll placements).ram.read address =
      (placements.reverse.findSome? (Placement.byte? address)).getD (memory.ram.read address) := by
  induction placements generalizing memory with
  | nil => rfl
  | cons first rest ih =>
    rw [placeAll, List.foldl_cons, ← placeAll, ih, read_place, List.reverse_cons,
      List.findSome?_append, List.findSome?_singleton]
    cases rest.reverse.findSome? (Placement.byte? address) <;> rfl

theorem Placement.byte?_loadBoot_of_le {address : UInt16} (behind : 0x100 ≤ address.toNat)
    (image : List UInt8) : byte? address (.loadBoot image) = none := by
  rw [byte?]
  split
  · exact List.getElem?_eq_none (by omega)
  · rfl

theorem Placement.byte?_loadCartridge_of_not {address : UInt16}
    (outside : ¬ (0x100 ≤ address.toNat ∧ address.toNat < 0x8000)) (image : List UInt8) :
    byte? address (.loadCartridge image) = none := by
  rw [byte?, if_neg (by omega)]

/-- No cell is covered by both images. -/
theorem place_loadBoot_loadCartridge (memory : Memory) (boot cartridge : List UInt8) :
    (memory.place (.loadBoot boot)).place (.loadCartridge cartridge) =
      (memory.place (.loadCartridge cartridge)).place (.loadBoot boot) := by
  suffices cells : ((memory.place (.loadBoot boot)).place (.loadCartridge cartridge)).ram =
      ((memory.place (.loadCartridge cartridge)).place (.loadBoot boot)).ram from
    congrArg Memory.mk cells
  apply Ram.ext_read
  intro address
  rw [read_place, read_place, read_place, read_place]
  -- Behind the first page the boot image covers nothing, in it the cartridge covers nothing.
  by_cases behind : 0x100 ≤ address.toNat
  · rw [Placement.byte?_loadBoot_of_le behind]
    rfl
  · rw [Placement.byte?_loadCartridge_of_not (by omega)]
    rfl

/-- What the ROM window does not reach is left alone by both images. -/
theorem read_place_of_ram (memory : Memory) (image : List UInt8) {address : UInt16}
    (above : 0x8000 ≤ address) :
    (memory.place (.loadBoot image)).ram.read address = memory.ram.read address ∧
      (memory.place (.loadCartridge image)).ram.read address = memory.ram.read address := by
  have number : 0x8000 ≤ address.toNat := UInt16.le_iff_toNat_le.1 above
  rw [read_place, read_place, Placement.byte?_loadBoot_of_le (by omega),
    Placement.byte?_loadCartridge_of_not (by omega)]
  exact ⟨rfl, rfl⟩

theorem loadBoot_eq (memory : Memory) (image : List UInt8) :
    memory.loadBoot image =
      if image.length ≤ 0x100 then .ok (memory.place (.loadBoot image))
      else .error (.load .bootRom (.oversized image.length 0x100)) := by
  by_cases fits : image.length ≤ 0x100 <;> simp [place, loadBoot, bootRomSize, fits]

/-- Whatever is loaded into fresh memory and written to it, in whatever order, each cell but the line
register holds the byte of the last operation that covered it, and zero if none did. A boot image is
refused exactly if it is longer than the first page, a cartridge reports the size of the interval that
it covers. The two images may be loaded in either order, and neither reaches the cells behind the ROM
window. -/
theorem read_placeAll_blank (placements : List Placement) :
    (∀ address, address ≠ lineRegister → (blank.placeAll placements).read address =
      (placements.reverse.findSome? (Placement.byte? address)).getD 0) ∧
    ∀ memory : Memory,
      (∀ image, memory.loadBoot image =
        if image.length ≤ 0x100 then .ok (memory.place (.loadBoot image))
        else .error (.load .bootRom (.oversized image.length 0x100))) ∧
      (∀ image, memory.loadCartridge image =
        (min image.length 0x8000 - 0x100, memory.place (.loadCartridge image))) ∧
      (∀ boot cartridge, (memory.place (.loadBoot boot)).place (.loadCartridge cartridge) =
        (memory.place (.loadCartridge cartridge)).place (.loadBoot boot)) ∧
      ∀ image address, 0x8000 ≤ address →
        (memory.place (.loadBoot image)).ram.read address = memory.ram.read address ∧
        (memory.place (.loadCartridge image)).ram.read address = memory.ram.read address := by
  refine ⟨fun address elsewhere => ?_, fun memory => ⟨memory.loadBoot_eq, fun image => ?_,
    memory.place_loadBoot_loadCartridge, fun image _ => memory.read_place_of_ram image⟩⟩
  · rw [read_of_ne elsewhere, read_placeAll, blank, Ram.read_blank]
  · rw [← length_mapped]
    rfl

/-- A shorter cartridge leaves the end of a longer one, an oversized boot image leaves everything. -/
theorem read_placeAll_blank_reloaded :
    let memory := blank.placeAll [.loadCartridge (List.replicate 0x103 1), .write 0x101 9,
      .loadCartridge (List.replicate 0x101 2), .loadBoot (List.replicate 0x101 3)]
    memory.read 0x100 = 2 ∧ memory.read 0x101 = 9 ∧ memory.read 0x102 = 1 ∧ memory.read 0 = 0 := by
  intro memory
  have reads := (read_placeAll_blank [.loadCartridge (List.replicate 0x103 1), .write 0x101 9,
    .loadCartridge (List.replicate 0x101 2), .loadBoot (List.replicate 0x101 3)]).1
  rw [reads 0x100 (by decide), reads 0x101 (by decide), reads 0x102 (by decide),
    reads 0 (by decide)]
  decide +kernel

end Memory

end DotMatrix
