import AsyncModule.Command.Run

/-!
# AsyncModule.Main

The program itself. What lies at the paths that a command line can read is looked up first; the
command is then carried out on that. No server is asked for anything.
-/

open AsyncModule

namespace AsyncModule.Main

def namesOf (path : String) : List String := (path.splitOn "/").filter (!·.isEmpty)

def entryAt? (path : String) : IO (Option Entry) := do
  try
    if ← (← IO.FS.realPath path).isDir then return some .directory
    return some (.file (← IO.FS.readBinFile path).toList)
  catch _ => return none

/-- Add what lies at a path and at the directories above it. -/
def survey (files : FileTree) (path : String) : IO FileTree := do
  let names := namesOf path
  let mut files := files
  for n in List.range names.length do
    let path := Surroundings.pathOf (names.take (n + 1))
    if let some entry ← entryAt? path then
      files := files.insert (Surroundings.bytesOf path) entry
  return files

/-- The files that a run of `fetch` would read. -/
def wantedFiles (s : Surroundings) (i : Command.Invocation) : List String :=
  match i.job, s.config i.config with
  | .fetch base, .ok config =>
    match Command.fetchAll (Command.settings config base) s.url s.files i.specifiers with
    | .error _ => []
    | .ok l => l.journal.filterMap fun
      | .load t _ => t.url.toFilePath?.map fun p => String.ofList (Text.Utf8.decodeLossy p)
      | _ => none
  | _, _ => []

def surroundings (args : List String) : IO Surroundings := do
  let here := namesOf (← IO.currentDir).toString
  match Command.Invocation.ofArguments args with
  | .error _ => return ⟨here, .empty⟩
  | .ok i =>
    let s : Surroundings := ⟨here, .empty⟩
    let paths := match i.config with
      | some path => [s.absolute path]
      | none => s.candidates
    let s : Surroundings := ⟨here, ← paths.foldlM survey s.files⟩
    return ⟨here, ← (wantedFiles s i).foldlM survey s.files⟩

end AsyncModule.Main

def main (args : List String) : IO UInt32 := do
  let out := Command.run (← Main.surroundings args) args
  for line in out.lines do IO.println line
  for line in out.errors do IO.eprintln line
  return UInt32.ofNat out.exitCode
