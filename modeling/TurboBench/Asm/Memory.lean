/-!
The memory of the machine: 64 KiB, addressed modulo its size.

Words lie with their low byte first. Any integer may serve as an address or as a value: an address
is taken modulo the size of the memory, a value modulo the size of the cell it is written to, so no
access fails.
-/

namespace TurboBench.Asm

/-- The number of bytes of the memory. -/
def memorySize : Nat := 0x10000

/-- The contents of the memory. -/
structure Memory where
  bytes : Vector UInt8 memorySize
  deriving DecidableEq

namespace Memory

/-- A memory of zeros. -/
def zero : Memory :=
  ⟨Vector.replicate memorySize 0⟩

/-- The cell that an integer addresses. -/
def address (a : Int) : Fin memorySize :=
  ⟨(a % memorySize).toNat, by simp only [memorySize]; omega⟩

/-- The byte at an address. -/
def read (m : Memory) (a : Int) : Nat :=
  (m.bytes[address a]).toNat

/-- The memory with the low byte of a value at an address. -/
def write (m : Memory) (a v : Int) : Memory :=
  ⟨m.bytes.set (address a) (UInt8.ofNat (v % 0x100).toNat)⟩

/-- The word at an address. -/
def readWord (m : Memory) (a : Int) : Nat :=
  m.read a + 0x100 * m.read (a + 1)

/-- The memory with the low word of a value at an address. -/
def writeWord (m : Memory) (a v : Int) : Memory :=
  (m.write a v).write (a + 1) (v / 0x100)

/-- How many bytes a dump of the given length shows: a negative length leaves out that many bytes
at the end, and no more bytes are shown than there are. -/
def dumpLength (n : Int) : Nat :=
  if n < 0 then (memorySize + n).toNat else min n.toNat memorySize

/-- The bytes from the start of the memory on. -/
def dump (m : Memory) (n : Int) : List UInt8 :=
  m.bytes.toList.take (dumpLength n)

/-! ## Reading what was written -/

theorem read_lt (m : Memory) (a : Int) : m.read a < 0x100 :=
  UInt8.toNat_lt _

/-- A word that is read fits in sixteen bits. -/
theorem readWord_lt (m : Memory) (a : Int) : m.readWord a < 0x10000 := by
  have h0 := m.read_lt a
  have h1 := m.read_lt (a + 1)
  simp only [readWord]
  omega

/-- A byte that was written is read back. -/
theorem read_write_self (m : Memory) (a v : Int) : (m.write a v).read a = (v % 0x100).toNat := by
  have hv : (v % 0x100).toNat < 0x100 := by omega
  simp only [read, write, Fin.getElem_fin, Vector.getElem_set_self]
  exact Nat.mod_eq_of_lt hv

/-- Writing a byte leaves every other byte as it is. -/
theorem read_write_of_ne (m : Memory) {a b : Int} (v : Int) (h : address b ≠ address a) :
    (m.write a v).read b = m.read b := by
  have hne : (address a).val ≠ (address b).val := fun e => h (Fin.ext e.symm)
  simp only [read, write, Fin.getElem_fin, Vector.getElem_set_ne _ _ hne]

/-- Neighbouring addresses are different cells. -/
theorem address_add_one_ne (a : Int) : address (a + 1) ≠ address a := by
  intro h
  have := congrArg Fin.val h
  simp only [address, memorySize] at this
  omega

/-- A word that was written is read back. -/
theorem readWord_writeWord_self (m : Memory) (a v : Int) :
    (m.writeWord a v).readWord a = (v % 0x10000).toNat := by
  have hne := address_add_one_ne a
  simp only [readWord, writeWord, read_write_self, read_write_of_ne _ _ hne.symm]
  omega

/-- A dump is as long as its size asks for. -/
theorem length_dump (m : Memory) (n : Int) : (m.dump n).length = dumpLength n := by
  have : dumpLength n ≤ memorySize := by
    unfold dumpLength
    split
    · simp only [memorySize]; omega
    · exact Nat.min_le_right _ _
  simp [dump, Nat.min_eq_left this]

end Memory

end TurboBench.Asm
