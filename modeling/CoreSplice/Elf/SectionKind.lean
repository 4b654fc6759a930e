import CoreSplice.Text.Decimal

/-!
# Kinds of sections

A section header says by a number of what kind the section is.  Most numbers mean the same for
every machine, and a range of them is left to each machine.  A kind has a name, and it decides
what the section must look like.  The names, and the kinds that are known at all, are those of the
library that reads object files (elftools 0.33).

* `SectionKind` — the number together with the machine that it is for.
* `SectionKind.name` — how the kind is called in messages.
* `SectionForm`, `SectionKind.form` — what is looked at in a section of the kind.
-/

namespace CoreSplice.Elf

/-- The kind of a section of a file for a machine. -/
structure SectionKind where
  machine : Nat
  number : Nat
  deriving DecidableEq, Repr

/-! ## Names -/

/-- The number of the MIPS machines. -/
def mipsMachine : Nat := 8

/-- The number of the ARM machines with addresses of 32 bits. -/
def armMachine : Nat := 40

/-- The number of the AMD machines with addresses of 64 bits. -/
def amdMachine : Nat := 62

/-- The number of the ARM machines with addresses of 64 bits. -/
def aarch64Machine : Nat := 183

/-- The number of the RISC-V machines. -/
def riscvMachine : Nat := 243

/-- The names of the kinds that are the same for every machine. -/
def commonKindNames : List (Nat × String) :=
  [(0, "SHT_NULL"), (1, "SHT_PROGBITS"), (2, "SHT_SYMTAB"), (3, "SHT_STRTAB"), (4, "SHT_RELA"),
   (5, "SHT_HASH"), (6, "SHT_DYNAMIC"), (7, "SHT_NOTE"), (8, "SHT_NOBITS"), (9, "SHT_REL"),
   (10, "SHT_SHLIB"), (11, "SHT_DYNSYM"), (14, "SHT_INIT_ARRAY"), (15, "SHT_FINI_ARRAY"),
   (16, "SHT_PREINIT_ARRAY"), (17, "SHT_GROUP"), (18, "SHT_SYMTAB_SHNDX"), (19, "SHT_RELR"),
   (20, "SHT_NUM"), (0x60000000, "SHT_LOOS"), (0x6ffffff3, "SHT_SUNW_LDYNSYM"),
   (0x6ffffff5, "SHT_GNU_ATTRIBUTES"), (0x6ffffff6, "SHT_GNU_HASH"),
   (0x6ffffff7, "SHT_GNU_LIBLIST"), (0x6ffffffc, "SHT_SUNW_syminfo"),
   (0x6ffffffd, "SHT_GNU_verdef"), (0x6ffffffe, "SHT_GNU_verneed"),
   (0x6fffffff, "SHT_GNU_versym"), (0x80000000, "SHT_LOUSER"), (0xffffffff, "SHT_HIUSER")]

/-- The names of the kinds that MIPS machines add. -/
def mipsKindNames : List (Nat × String) :=
  [(0x70000000, "SHT_MIPS_LIBLIST"), (0x70000005, "SHT_MIPS_DEBUG"),
   (0x70000006, "SHT_MIPS_REGINFO"), (0x70000007, "SHT_MIPS_PACKAGE"),
   (0x70000008, "SHT_MIPS_PACKSYM"), (0x70000009, "SHT_MIPS_RELD"),
   (0x7000000b, "SHT_MIPS_IFACE"), (0x7000000c, "SHT_MIPS_CONTENT"),
   (0x7000000d, "SHT_MIPS_OPTIONS"), (0x70000010, "SHT_MIPS_SHDR"),
   (0x70000011, "SHT_MIPS_FDESC"), (0x70000012, "SHT_MIPS_EXTSYM"),
   (0x70000013, "SHT_MIPS_DENSE"), (0x70000014, "SHT_MIPS_PDESC"),
   (0x70000015, "SHT_MIPS_LOCSYM"), (0x70000016, "SHT_MIPS_AUXSYM"),
   (0x70000017, "SHT_MIPS_OPTSYM"), (0x70000018, "SHT_MIPS_LOCSTR"),
   (0x70000019, "SHT_MIPS_LINE"), (0x7000001a, "SHT_MIPS_RFDESC"),
   (0x7000001b, "SHT_MIPS_DELTASYM"), (0x7000001c, "SHT_MIPS_DELTAINST"),
   (0x7000001d, "SHT_MIPS_DELTACLASS"), (0x7000001e, "SHT_MIPS_DWARF"),
   (0x7000001f, "SHT_MIPS_DELTADECL"), (0x70000020, "SHT_MIPS_SYMBOL_LIB"),
   (0x70000021, "SHT_MIPS_EVENTS"), (0x70000022, "SHT_MIPS_TRANSLATE"),
   (0x70000023, "SHT_MIPS_PIXIE"), (0x70000024, "SHT_MIPS_XLATE"),
   (0x70000025, "SHT_MIPS_XLATE_DEBUG"), (0x70000026, "SHT_MIPS_WHIRL"),
   (0x70000027, "SHT_MIPS_EH_REGION"), (0x70000028, "SHT_MIPS_XLATE_OLD"),
   (0x70000029, "SHT_MIPS_PDR_EXCEPTION"), (0x7000002a, "SHT_MIPS_ABIFLAGS")]

/-- The names of the kinds that a machine adds. -/
def machineKindNames (machine : Nat) : List (Nat × String) :=
  if machine = mipsMachine then mipsKindNames
  else if machine = armMachine then
    [(0x70000001, "SHT_ARM_EXIDX"), (0x70000002, "SHT_ARM_PREEMPTMAP"),
     (0x70000003, "SHT_ARM_ATTRIBUTES"), (0x70000004, "SHT_ARM_DEBUGOVERLAY")]
  else if machine = amdMachine then [(0x70000001, "SHT_AMD64_UNWIND")]
  else if machine = aarch64Machine then [(0x70000003, "SHT_AARCH64_ATTRIBUTES")]
  else if machine = riscvMachine then [(0x70000003, "SHT_RISCV_ATTRIBUTES")]
  else []

/-! ## Forms -/

/-- What is looked at in a section. -/
inductive SectionForm where
  /-- Nothing but what every section has. -/
  | plain
  /-- Names that other sections point into. -/
  | strings
  /-- Symbols, whose names are in a linked section. -/
  | symbols
  /-- Something about each symbol of a linked section. -/
  | aboutSymbols
  /-- Versions of symbols, whose names are in a linked section. -/
  | versions
  /-- A table of buckets and chains over the symbols of a linked section. -/
  | symbolHash
  /-- The same behind a filter. -/
  | filteredHash
  /-- Relocations, with or without an addend. -/
  | relocations (addend : Bool)
  /-- Relocations that are packed into addresses. -/
  | packedRelocations
  /-- What a program needs to be linked, with names in a linked section. -/
  | dynamic
  /-- Attributes in a format that starts with its version. -/
  | attributes
  deriving DecidableEq, Repr

namespace SectionKind

/-- How the kind is called; one without a name is called by its number. -/
def name (kind : SectionKind) : String :=
  ((machineKindNames kind.machine ++ commonKindNames).lookup kind.number).getD
    (Text.Decimal.write kind.number)

/-- What is looked at in a section of the kind. -/
def form (kind : SectionKind) : SectionForm :=
  match kind.number with
  | 2 | 11 | 0x6ffffff3 => .symbols
  | 3 => .strings
  | 4 => .relocations true
  | 5 => .symbolHash
  | 6 => .dynamic
  | 9 => .relocations false
  | 19 => .packedRelocations
  | 0x6ffffff6 => .filteredHash
  | 0x6ffffffc | 0x6fffffff => .aboutSymbols
  | 0x6ffffffd | 0x6ffffffe => .versions
  | 0x70000003 =>
    if kind.machine = armMachine ∨ kind.machine = riscvMachine then .attributes else .plain
  | _ => .plain

/-- Whether a section of the kind can be linked to as a table of symbols. -/
def isSymbolTable (kind : SectionKind) : Bool :=
  kind.number = 2 ∨ kind.number = 11

/-- Whether a section of the kind can hold the names of what is needed for linking: a table of
names, or a section without any content of its own. -/
def isDynamicNames (kind : SectionKind) : Bool :=
  kind.number = 3 ∨ kind.number = 8 ∨ kind.number = 0

end SectionKind

end CoreSplice.Elf
