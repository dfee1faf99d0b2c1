import DocStore.CommandLine.Run
import DocStore.Host.Native
/-!
# The program

The program carries out its command line on the host of the process and ends with the exit code.
-/

set_option autoImplicit false

namespace DocStore.CommandLine

/-- The variables that commands look at. -/
def variableNames : List String :=
  ["PATCHDB_ROOT", "PATCHDB_CLI_DEBUG", "PATCHDB_DEBUG", "PATCHDB_LOG_LEVEL"]

/-- The surroundings of the process. -/
def surroundings : IO Environment := do
  let values ← variableNames.mapM fun name => do
    return (name, ← IO.getEnv name)
  let directory ← IO.currentDir
  let valueOf := fun name => (values.lookup name).join
  return {
    valueOf
    home := (← IO.getEnv "HOME").getD "/"
    workingDirectory := Disk.Path.ofText [] directory.toString
    isTerminal := ← (← IO.getStdin).isTty
    logger := ⟨.ofEnvironment valueOf, true⟩ }

end DocStore.CommandLine

/-- Carry out the command line of the process. -/
def main (arguments : List String) : IO UInt32 := do
  let process ← DocStore.Host.Native.start
  let environment ← DocStore.CommandLine.surroundings
  match ← process.run (DocStore.CommandLine.run environment arguments).toProgram with
  | .ok code => return UInt32.ofNat code
  | .error failure => return UInt32.ofNat failure.exitCode
