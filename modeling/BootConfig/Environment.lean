import BootConfig.Text.Utf8

/-!
# Environment

A snapshot of the process environment: names bound to values, both texts. A process environment is
given as raw bytes; `Environment.ofRaw` keeps every byte of it.
-/

namespace BootConfig

/-- Bindings of names to values. Of two bindings of one name the first counts. -/
structure Environment where
  bindings : List (Text × Text)
deriving Inhabited

namespace Environment

def empty : Environment := ⟨[]⟩

/-- The value bound to a name. -/
def get? (env : Environment) (name : Text) : Option Text := env.bindings.lookup name

/-- Removes a name. -/
def erase (env : Environment) (name : Text) : Environment :=
  ⟨env.bindings.filter fun p => p.1 != name⟩

/-- Binds a name, in place of an older binding. -/
def insert (env : Environment) (name value : Text) : Environment :=
  ⟨(name, value) :: (env.erase name).bindings⟩

/-- Bindings in the order they were made: a later one replaces an earlier one. -/
def ofList (bs : List (Text × Text)) : Environment :=
  bs.foldl (fun env p => env.insert p.1 p.2) empty

/-- The snapshot of a raw process environment. -/
def ofRaw (bs : List (Bytes × Bytes)) : Environment :=
  ofList (bs.map fun p => (Utf8.decodeEscaped p.1, Utf8.decodeEscaped p.2))

/-- The bindings of a raw environment written as one block: each is `NAME=value`, with a NUL byte
after it. -/
def blockBindings (block : Bytes) : List (Bytes × Bytes) :=
  ((block.splitOn 0).filter fun entry => entry.contains 0x3D).map fun entry =>
    (entry.takeWhile (· != 0x3D), (entry.dropWhile (· != 0x3D)).drop 1)

def ofBlock (block : Bytes) : Environment := ofRaw (blockBindings block)

end Environment

end BootConfig
