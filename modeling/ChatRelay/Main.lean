import ChatRelay.Startup

/-!
# The command

Starting up with the variables of the environment.
-/

open ChatRelay

/-- The variables that a start looks at. -/
def ChatRelay.Startup.variableNames : List String :=
  [Startup.logVariable, Provider.Credentials.keyVariable] ++ Settings.variableNames

def main : IO UInt32 := do
  let values ← Startup.variableNames.mapM fun name => return (name, ← IO.getEnv name)
  let started := Startup.run fun name => (values.lookup name).bind id
  IO.eprint started.told
  return started.exitCode.toUInt32
