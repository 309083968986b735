import SearchSql.CommandLine.Run

/-!
The program: it plays a session with the files and the console. It has no connection to a network,
so every call is dropped.
-/

namespace SearchSql

/-- What a path leads to. -/
def fileState (path : String) : IO FileState := do
  try
    return .contents (← IO.FS.readFile path)
  catch
    | .noFileOrDirectory .. => return .missing
    | e => return .unreadable (toString e)

/-- Plays a session. -/
def Session.play {α : Type} : Session α → IO (Except Error α)
  | .done result => return result
  | .print line next => do
    IO.println line
    next.play
  | .warn line next => do
    IO.eprintln line
    next.play
  | .read path next => do (next (← fileState path)).play
  | .call _ next => (next .dropped).play

/-- The directory with the configurations of the user. -/
def userConfigDir : IO (Option String) := do
  match ← IO.getEnv "XDG_CONFIG_HOME" with
  | some dir => if dir.startsWith "/" then return some dir else homeConfigDir
  | none => homeConfigDir
where
  homeConfigDir : IO (Option String) := do
    return (← IO.getEnv "HOME").map (· ++ "/.config")

end SearchSql

def main (args : List String) : IO UInt32 := do
  let around : SearchSql.CommandLine.Surroundings :=
    { configDir := ← SearchSql.userConfigDir, url := ← IO.getEnv "SQLES_URL" }
  match ← (SearchSql.CommandLine.run around args).play with
  | .ok code => return code.toUInt32
  | .error e =>
    IO.eprintln ("Error: " ++ e.message)
    return 1
