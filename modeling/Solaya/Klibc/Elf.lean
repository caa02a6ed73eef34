import Solaya.Core.Bytes
import Solaya.Memory.PageTableEntry

/-!
# ELF files

`ElfFile::parse` (`klibc/elf.rs`) accepts a file whose 64-byte header says it
is a 64-bit little-endian RISC-V executable for System V or Linux and whose
program header table ends inside the file.  The header and the program header
entries are `#[repr(C)]` structs laid over the file's bytes, so each field is
read at its offset: the magic number big-endian, the others little-endian.
Enumerations such as `ProgramHeaderType` are read as the raw numbers they
hold.

`check_validity` multiplies the entry size by the number of entries as `u16`
and adds the table's offset as `u64`; with overflow checks on, either overflow
is a panic (`none`).  An `ElfFile` carries the fact that its data passed
`check_validity`.
-/

namespace Solaya

open Bytes

namespace Elf

/-- `ELF_MAGIC_NUMBER`. -/
def elfMagicNumber : ℕ := 0x7f454c46

/-- `ProgramHeaderType::PT_LOAD`. -/
def ptLoad : ℕ := 1

/-- `size_of::<ElfHeader>()`. -/
def elfHeaderSize : ℕ := 64

/-- `size_of::<ElfProgramHeaderEntry>()`. -/
def programHeaderEntrySize : ℕ := 0x38

/-- `ElfParseErrors`. -/
inductive ElfParseErrors where
  | fileTooShort
  | magicNumberWrong
  | bit32IsNotSupported
  | bigEndianIsNotSupported
  | unsupportedElfVersionNumber
  | unsupportedOsAbi
  | notAnExecutableFile
  | notAnRiscvExecutable
  deriving DecidableEq, Repr

/-- The fields of `ElfHeader` the kernel reads. -/
structure ElfHeader where
  magicNumber : ℕ
  bitFormat : ℕ
  endianness : ℕ
  version : ℕ
  osAbi : ℕ
  objectFileType : ℕ
  machine : ℕ
  version2 : ℕ
  entryPoint : ℕ
  startProgramHeader : ℕ
  sizeProgramHeaderEntry : ℕ
  numberOfEntriesInProgramHeader : ℕ
  deriving DecidableEq, Repr

/-- `ElfHeader` laid over the first 64 bytes. -/
def ElfHeader.read (data : List UInt8) : ElfHeader where
  magicNumber := readBE data 0 4
  bitFormat := readLE data 4 1
  endianness := readLE data 5 1
  version := readLE data 6 1
  osAbi := readLE data 7 1
  objectFileType := readLE data 16 2
  machine := readLE data 18 2
  version2 := readLE data 20 4
  entryPoint := readLE data 24 8
  startProgramHeader := readLE data 32 8
  sizeProgramHeaderEntry := readLE data 54 2
  numberOfEntriesInProgramHeader := readLE data 56 2

/-- `ElfProgramHeaderEntry`. -/
structure ElfProgramHeaderEntry where
  headerType : ℕ
  accessFlags : ℕ
  offsetInFile : ℕ
  virtualAddress : ℕ
  physicalAddress : ℕ
  fileSize : ℕ
  memorySize : ℕ
  alignment : ℕ
  deriving DecidableEq, Repr

/-- `ElfProgramHeaderEntry` laid over the 56 bytes at `offset`. -/
def ElfProgramHeaderEntry.read (data : List UInt8) (offset : ℕ) : ElfProgramHeaderEntry where
  headerType := readLE data offset 4
  accessFlags := readLE data (offset + 4) 4
  offsetInFile := readLE data (offset + 8) 8
  virtualAddress := readLE data (offset + 16) 8
  physicalAddress := readLE data (offset + 24) 8
  fileSize := readLE data (offset + 32) 8
  memorySize := readLE data (offset + 40) 8
  alignment := readLE data (offset + 48) 8

/-- `check_validity`: the first reason to refuse the file, `some none` when
there is none, `none` when a size computation overflows. -/
def checkValidity (data : List UInt8) : Option (Option ElfParseErrors) :=
  if data.length < elfHeaderSize then some (some .fileTooShort)
  else
    let header := ElfHeader.read data
    if header.magicNumber ≠ elfMagicNumber then some (some .magicNumberWrong)
    else if header.bitFormat ≠ 2 then some (some .bit32IsNotSupported)
    else if header.endianness ≠ 1 then some (some .bigEndianIsNotSupported)
    else if header.version ≠ 1 then some (some .unsupportedElfVersionNumber)
    -- `OsAbi::SystemV | OsAbi::Linux`
    else if header.osAbi ≠ 0 ∧ header.osAbi ≠ 3 then some (some .unsupportedOsAbi)
    else if header.objectFileType ≠ 2 then some (some .notAnExecutableFile)
    else if header.machine ≠ 0xf3 then some (some .notAnRiscvExecutable)
    else if header.version2 ≠ 1 then some (some .unsupportedElfVersionNumber)
    else
      let sizeOfProgramHeader :=
        header.sizeProgramHeaderEntry * header.numberOfEntriesInProgramHeader
      if 2 ^ 16 ≤ sizeOfProgramHeader then none
      else
        let endOfProgramHeader := header.startProgramHeader + sizeOfProgramHeader
        if 2 ^ 64 ≤ endOfProgramHeader then none
        else if endOfProgramHeader > data.length then some (some .fileTooShort)
        else some none

/-- `ElfFile`: data that passed `check_validity`. -/
structure ElfFile where
  data : List UInt8
  valid : checkValidity data = some none

/-- `ElfFile::parse`.  The `assert` that the data is eight-byte aligned in
memory is about where the buffer lies, not what it holds, and is not
modelled. -/
def ElfFile.parse (data : List UInt8) : Option (Except ElfParseErrors ElfFile) :=
  match h : checkValidity data with
  | none => none
  | some (some error) => some (.error error)
  | some none => some (.ok ⟨data, h⟩)

namespace ElfFile

/-- `parse` accepts exactly the data `check_validity` passes. -/
theorem parse_eq_ok {data : List UInt8} (h : checkValidity data = some none) :
    parse data = some (.ok ⟨data, h⟩) := by
  unfold parse
  split
  · rename_i hnone
    rw [h] at hnone
    cases hnone
  · rename_i error herror
    rw [h] at herror
    cases herror
  · rfl

/-- A file that passed `check_validity` holds a whole header, so the
`assert` of `get_header` holds. -/
theorem elfHeaderSize_le (elf : ElfFile) : elfHeaderSize ≤ elf.data.length := by
  by_contra hshort
  have hrefused : checkValidity elf.data = some (some .fileTooShort) := by
    unfold checkValidity
    rw [if_pos (by omega)]
  rw [elf.valid] at hrefused
  cases hrefused

/-- `get_header`. -/
def getHeader (elf : ElfFile) : ElfHeader :=
  ElfHeader.read elf.data

/-- `get_program_headers`: the entries, after the `assert`s that an entry is
56 bytes and that the table ends inside the file. -/
def getProgramHeaders (elf : ElfFile) : Option (List ElfProgramHeaderEntry) :=
  let header := elf.getHeader
  if header.sizeProgramHeaderEntry ≠ programHeaderEntrySize then none
  else if elf.data.length < header.startProgramHeader +
      header.sizeProgramHeaderEntry * header.numberOfEntriesInProgramHeader then none
  else some ((List.range header.numberOfEntriesInProgramHeader).map fun i =>
    ElfProgramHeaderEntry.read elf.data (header.startProgramHeader + programHeaderEntrySize * i))

/-- `get_program_header_data`: the segment's bytes in the file; slicing past
the end is a panic. -/
def getProgramHeaderData (elf : ElfFile) (programHeader : ElfProgramHeaderEntry) :
    Option (List UInt8) :=
  if elf.data.length < programHeader.offsetInFile + programHeader.fileSize then none
  else some ((elf.data.drop programHeader.offsetInFile).take programHeader.fileSize)

theorem getProgramHeaderData_of_le {elf : ElfFile} {programHeader : ElfProgramHeaderEntry}
    (h : programHeader.offsetInFile + programHeader.fileSize ≤ elf.data.length) :
    elf.getProgramHeaderData programHeader =
      some ((elf.data.drop programHeader.offsetInFile).take programHeader.fileSize) := by
  simp [getProgramHeaderData, Nat.not_lt.mpr h]

end ElfFile

end Elf

/-- `From<ProgramHeaderFlags> for XWRMode` (`memory/page_table_entry.rs`):
`W` and `WX` panic.  A value that is no `ProgramHeaderFlags` is not a valid
enum in the source; it is a failure here too. -/
def XWRMode.fromProgramHeaderFlags (flags : ℕ) : Option XWRMode :=
  match flags with
  | 0x1 => some .executeOnly
  | 0x4 => some .readOnly
  | 0x5 => some .readExecute
  | 0x6 => some .readWrite
  | 0x7 => some .readWriteExecute
  | _ => none

/-- A segment is never mapped as a pointer to a table. -/
theorem XWRMode.fromProgramHeaderFlags_ne {flags : ℕ} {privileges : XWRMode}
    (h : XWRMode.fromProgramHeaderFlags flags = some privileges) :
    privileges ≠ .pointerToNextLevel := by
  unfold XWRMode.fromProgramHeaderFlags at h
  split at h <;> cases h <;> decide

end Solaya
