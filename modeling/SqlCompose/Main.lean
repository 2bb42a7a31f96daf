import SqlCompose.Command.Arguments
import SqlCompose.Command.Execution
import SqlCompose.Postgres.Client

/-!
# The program

Reads its arguments, the saved profiles and the password from around it, carries out the command,
and prints what comes of it. The program ends with 0 if the command succeeds, with 1 if it fails and
with 2 if the arguments are no command. It has no way to reach a server of its own: a connection
that is opened finds that the server has closed it.
-/

namespace SqlCompose.Program

/-- The server that lets every client down. -/
def absentServer : Postgres.Server Unit where
  securing s := (false, s)
  greeting _ _ s := (.denied .closed, s)
  password _ s := (.denied .closed, s)
  preparing _ s := (.denied .closed, s)
  executing _ s := (.denied .closed, s)

/-- The path of the file of saved profiles. -/
def profilesPath : IO String := do
  let folder ←
    match ← IO.getEnv "XDG_CONFIG_HOME" with
    | some folder => pure folder
    | none => pure (((← IO.getEnv "HOME").getD ".") ++ "/.config")
  pure (folder ++ "/sqlcompose/connections.toml")

/-- The text of a file, if it can be read. -/
def readText? (path : String) : IO (Option String) := do
  try pure (some (← IO.FS.readFile path))
  catch _ => pure none

/-- The bytes of a file, if it can be read. -/
def readBytes? (path : String) : IO (Option (List UInt8)) := do
  try pure (some (← IO.FS.readBinFile path).toList)
  catch _ => pure none

/-- The files that a command may need: the certificates of the saved profile that it names. -/
def filesFor (profiles : Option String) (path : String) : Command → IO Postgres.Files
  | .run name _ => do
    match (Profile.find profiles path name).toOption.bind fun p => p.authorityFile with
    | none => pure fun _ => none
    | some file =>
      let bytes ← readBytes? file
      pure fun _ => bytes
  | _ => pure fun _ => none

/-- Carry out a command. -/
def perform (command : Command) : IO UInt32 := do
  let path ← profilesPath
  let profiles ← readText? path
  let files ← filesFor profiles path command
  let world : Surroundings (Connection (Postgres.Link Unit)) := {
    profiles := profiles
    path := path
    password := (← IO.getEnv "PGPASSWORD").getD ""
    registry := .ofPostgres fun p => .ok (Postgres.connection absentServer files p) }
  match (command.execute world).run ⟨(), .idle⟩ with
  | (.ok output, _) => do
    (← IO.getStdout).putStr output
    pure 0
  | (.error failure, _) => do
    IO.eprintln failure.report
    pure 1

/-- Carry out the command that arguments spell. -/
def start (arguments : List String) : IO UInt32 := do
  match Command.read arguments with
  | .ok command => perform command
  | .error fault => do
    IO.eprintln ("error: " ++ fault.message ++ "\n\n" ++ Command.usage)
    pure 2

end SqlCompose.Program

/-- The program. -/
def main (arguments : List String) : IO UInt32 := SqlCompose.Program.start arguments
