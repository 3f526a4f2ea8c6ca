import LinkScript.Bytes

/-!
# What a linker script stub says

A stub is a small text file in the place of a shared library: it names the libraries that the
linker should use instead, and may name the architecture they are for.

The architectures that an `OUTPUT_FORMAT` directive can select each have a name of their own and the
name of their object file format, which is what a script writes.
-/

namespace LinkScript

/-! ## Processor architectures -/

/-- The supported architectures. -/
inductive CpuArch where
  | x86_64
  | aarch64
  deriving Repr, DecidableEq

namespace CpuArch

/-- The name of an architecture. -/
def name : CpuArch → String
  | x86_64 => "x86_64"
  | aarch64 => "aarch64"

/-- The object file format of an architecture. -/
def outputFormat : CpuArch → String
  | x86_64 => "elf64-x86-64"
  | aarch64 => "elf64-littleaarch64"

/-- Every architecture. -/
def all : List CpuArch := [x86_64, aarch64]

/-- The architecture with a given object file format. -/
def ofOutputFormat? (format : String) : Option CpuArch :=
  all.find? (·.outputFormat == format)

/-- The architecture with a given name. -/
def ofName? (text : String) : Option CpuArch :=
  all.find? (·.name == text)

/-- The format of an architecture selects it. -/
theorem ofOutputFormat?_outputFormat (arch : CpuArch) :
    ofOutputFormat? arch.outputFormat = some arch := by
  cases arch <;> decide

/-- An architecture is found by its name. -/
theorem ofName?_name (arch : CpuArch) : ofName? arch.name = some arch := by
  cases arch <;> decide

end CpuArch

/-! ## Contents -/

/-- A library that a script names: its path as written, whether it is needed whatever refers to
it, and where in the source the path stands. -/
structure Entry where
  path : String
  needed : Bool
  span : Span
  deriving Repr, DecidableEq

/-- What a script says: the architecture of its last format directive, and the libraries it names
in the order in which they stand. -/
structure Contents where
  cpuArch : Option CpuArch := none
  entries : List Entry := []
  deriving Repr, DecidableEq

/-- The contents of a script together with the path it was read from. -/
structure Script extends Contents where
  path : String
  deriving Repr, DecidableEq

end LinkScript
