import BootConfig.Flags
import BootConfig.Schema.Ingester

/-!
# The program

The name, the version and the options of the program.
-/

namespace BootConfig.Program

open Options (CommandLine)

def name : String := "blockstore-ingester"

def version : String := "0.1.0"

def description : String := "Block storage ingester."

/-- The program with an option for each of its settings. -/
def commandLine : CommandLine :=
  ⟨name, some description,
    Options.helpOption :: Options.versionOption (name ++ " " ++ version) :: Ingester.schema.flags⟩

/-- The program with the startup options as well. -/
def fullCommandLine : CommandLine :=
  { commandLine with options := commandLine.options ++ Flags.startupOptions }

end BootConfig.Program
