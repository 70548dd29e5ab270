import AsyncModule.Url.Basic

/-!
# AsyncModule.Url.File

URLs of files and the paths they stand for.
-/

namespace AsyncModule.Url

open AsyncModule.Text

/-- A path that ends in a drive is given a slash. -/
def closeDrive (path : List UInt8) : List UInt8 :=
  match path.reverse with
  | b :: a :: _ :: _ =>
    if (b == 0x3A || b == 0x7C) && (Char.ofNat a.toNat).isAlpha then path ++ [0x2F] else path
  | _ => path

def toFilePath? (u : Url) : Option (List UInt8) :=
  match u.path with
  | .rooted (s :: segments) =>
    if u.host.getD Host.empty == Host.empty || u.host == some (.name "localhost") then
      some (closeDrive ((s :: segments).flatMap fun s => 0x2F :: Percent.decodeText s))
    else none
  | _ => none

/-- The URL of a directory given by the names on the way to it. -/
def ofDirectory (names : List (List Char)) : Url :=
  { scheme := "file", username := "", password := "", host := some Host.empty, port := none
    path := .rooted
      (names.map (fun n => String.ofList (Percent.encode Percent.segment n)) ++ [""])
    query := none, fragment := none }

end AsyncModule.Url
