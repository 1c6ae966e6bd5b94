import ChatRelay.Channel.Preset
import ChatRelay.Provider.Credentials
import ChatRelay.Tool.CurrentTime
import ChatRelay.Transport.Console

/-!
# Starting up

A relay starts by reading its settings and its key, opening its store and registering its channels,
and tells what it does on the way. The first failure ends it. What it leaves in the directory is the
directory of its log and its database.
-/

namespace ChatRelay

/-- What can be seen of an attempt to start. -/
structure Startup where
  succeeded : Bool := true
  /-- What has been told so far. -/
  told : String := ""
  /-- The paths that have been made. -/
  paths : List String := []
deriving DecidableEq, Repr

namespace Startup

def version : String := "0.1.0"

def exitCode (s : Startup) : Nat := if s.succeeded then 0 else 1

def tell (s : Startup) (text : String) : Startup := { s with told := s.told ++ text }

def create (s : Startup) (path : String) : Startup := { s with paths := s.paths ++ [path] }

/-- A text every line of which is set off by four blanks. -/
def indented (text : String) : String :=
  .ofList (' ' :: ' ' :: ' ' :: ' ' :: text.toList.flatMap fun c =>
    if c = '\n' then ['\n', ' ', ' ', ' ', ' '] else [c])

def fail (s : Startup) (cause : ConfigError) : Startup :=
  { s.tell ("Error: " ++ cause.message ++ "\n") with succeeded := false }

/-- End with a failure, saying what was attempted. -/
def failAt (s : Startup) (attempt cause : String) : Startup :=
  { s.tell ("Error: " ++ attempt ++ "\n\nCaused by:\n" ++ indented cause ++ "\n") with
    succeeded := false }

def logVariable : String := "RELAY_LOG_DIR"

/-- The channels of a relay whose replies go to the console and to the log. -/
def channels (settings : Settings) : Except ConfigError ChannelRegistry :=
  let parts : Preset.Parts := {
    toolFactories := [.fixed "builtin" [CurrentTime.tool]]
    outputs := [.ofTransport Console.name 0 fun _ _ => .delivered, .log]
    mentionName := settings.mentionName }
  match Preset.registerBoth [] settings parts with
  | (registry, .ok ()) => do
    let _ ← registry.get settings.primaryChannel
    return registry
  | (_, .error cause) => .error cause

def banner (settings : Settings) : String :=
  "🤖 Assist Relay v" ++ version ++ "\n   Model: " ++ settings.model ++
  "\n   Debounce: " ++ Numeral.naturalText settings.debounceMillis ++ " ms\n"

/-- The path of a database that is not kept in a file. -/
def memoryPath : String := ":memory:"

/-- The names that a path goes through. -/
def pathNames (path : String) : List String :=
  (path.splitOn "/").filter fun part => part ≠ "" && part ≠ "."

/-- Whether a path can only be that of a directory: it ends like one, or has been made as one. -/
def isDirectory (s : Startup) (path : String) : Bool :=
  ["", ".", ".."].contains ((path.splitOn "/").getLast?.getD "") || s.paths.contains path

def parent (path : String) : String := "/".intercalate (pathNames path).dropLast

/-- A database in place of which there is a directory. -/
def notAFile (path : String) : StoreError :=
  .unavailable ("Failed to create connection: Failed to connect to database: " ++
    "`Unable to open connection to local database " ++ path ++ ": 14`")

/-- Open the store, which is a file if a path is given. -/
def openStore (s : Startup) (settings : Settings) : Startup :=
  match settings.databasePath with
  | none => s.tell "   Database: in-memory\n"
  | some path =>
    let opened := "   Database: " ++ path ++ "\n"
    if path = memoryPath then s.tell opened
    else if s.isDirectory path then
      (s.create (parent path)).failAt ("opening database at " ++ path) (notAFile path).message
    else (s.create path).tell opened

def announce (s : Startup) (settings : Settings) (registry : ChannelRegistry) : Startup :=
  (s.tell ("   Channels: " ++ ", ".intercalate registry.ids ++ "\n")).tell
    ((match settings.httpPort with
      | some port =>
        "   HTTP ingest: http://0.0.0.0:" ++ Numeral.naturalText port ++ "/api/messages\n"
      | none => "") ++
    "   Type a message and press Enter. Ctrl-C to exit.\n\n")

/-- What follows once the settings and the key are known. -/
def serve (s : Startup) (settings : Settings) : Startup :=
  let s := (s.tell (banner settings)).openStore settings
  if !s.succeeded then s
  else
    match channels settings with
    | .ok registry => s.announce settings registry
    | .error cause => s.fail cause

/-- Start with the variables that can be looked up. -/
def run (lookup : Settings.Lookup) : Startup :=
  let s : Startup := match lookup.value? logVariable with
    | some directory => Startup.create {} directory
    | none => {}
  match Settings.ofLookup lookup with
  | .error cause => s.failAt "invalid RELAY_* configuration" cause.message
  | .ok settings =>
    match Provider.Credentials.ofLookup lookup settings.model with
    | .error cause => s.fail cause
    | .ok _ => s.serve settings

/-- The name that a path adds to the present directory, unless it leads out of it. -/
def topName? (path : String) : Option String :=
  if path.startsWith "/" then none
  else
    match pathNames path with
    | ".." :: _ | [] => none
    | name :: _ => some name

/-- The names that are new in the present directory, in order and each once. -/
def files (s : Startup) : List String :=
  (s.paths.filterMap topName?).foldl
    (fun names name =>
      if names.contains name then names else ChannelRegistry.insertName name names) []

end Startup
end ChatRelay
