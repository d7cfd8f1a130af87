import TurtleLogo.Text.Lower
import TurtleLogo.Text.Utf8

/-!
# Files

The files that a program can load, under paths relative to the working directory.

* `FileStore` : files and directories by their paths;
* `FileStore.file?` : the bytes of the file that a path leads to;
* `FileText`, `FileStore.read` : a file as lines, each with its end;
* `candidates`, `FileStore.resolve?` : which file a name stands for.
-/

namespace TurtleLogo

open Text

inductive FileEntry where
  | file (bytes : List UInt8)
  | directory

structure FileStore where
  entries : List (String × FileEntry) := []

def pathParts (path : String) : List String :=
  (path.toList.splitOn '/').map String.ofList

def FileEntry.ofText (s : String) : FileEntry := .file (Utf8.encode s)

def FileEntry.bytes? : FileEntry → Option (List UInt8)
  | .file bytes => some bytes
  | .directory => none

namespace FileStore

/-- The entries by the names on the way to them from the working directory. -/
def places (fs : FileStore) : List (List String × FileEntry) :=
  fs.entries.map fun (path, entry) => ((pathParts path).filter (fun p => p ≠ "" && p ≠ "."), entry)

/-- Whether a place is a directory: the working directory, one of its own, or one that holds something. -/
def isDirectory (fs : FileStore) (place : List String) : Bool :=
  place.isEmpty || fs.places.any fun (path, entry) =>
    place.isPrefixOf path && (path ≠ place || entry.bytes?.isNone)

/-- Follows the parts of a path from a place. Every place on the way is a directory, and none is outside of the working
directory. -/
def walk (fs : FileStore) : List String → List String → Option (List String)
  | place, [] => some place
  | place, part :: parts =>
    if !fs.isDirectory place then none
    else if part = "" || part = "." then walk fs place parts
    else if part = ".." then if place.isEmpty then none else walk fs place.dropLast parts
    else walk fs (place ++ [part]) parts

/-- The entry that a path leads to: one with just this path, or the one found on the way from the working directory. -/
def entry? (fs : FileStore) (path : String) : Option FileEntry :=
  match fs.entries.lookup path with
  | some entry => some entry
  | none =>
    if path.isEmpty || path.startsWith "/" then none
    else (fs.walk [] (pathParts path)).bind fun place => fs.places.lookup place

def file? (fs : FileStore) (path : String) : Option (List UInt8) :=
  (fs.entry? path).bind FileEntry.bytes?

def insert (fs : FileStore) (path : String) (entry : FileEntry) : FileStore :=
  ⟨(path, entry) :: fs.entries⟩

end FileStore

/-! ## Lines -/

/-- Text in which every line end, also `\r` and `\r\n`, is `\n`. -/
def unifyNewlines : List Char → List Char
  | '\r' :: '\n' :: rest => '\n' :: unifyNewlines rest
  | '\r' :: rest => '\n' :: unifyNewlines rest
  | c :: rest => c :: unifyNewlines rest
  | [] => []

/-- The lines of a text that are ended, with their ends, and what follows the last of them. -/
def splitLines : List Char → List (List Char) × List Char
  | [] => ([], [])
  | c :: rest =>
    let (lines, last) := splitLines rest
    if c = '\n' then ([c] :: lines, last)
    else
      match lines with
      | line :: lines => ((c :: line) :: lines, last)
      | [] => ([], c :: last)

/-- All lines of a text; the last one may have no end. -/
def allLines (s : List Char) : List String :=
  let (lines, last) := splitLines (unifyNewlines s)
  (if last.isEmpty then lines else lines ++ [last]).map String.ofList

/-- The lines of a text that are certainly ended, whatever follows it: a last `\r` may be half of a line end. -/
def endedLines (s : List Char) : List String :=
  let s := if s.getLast? = some '\r' then s.dropLast else s
  (splitLines (unifyNewlines s)).1.map String.ofList

/-- What can be read of a file. -/
inductive FileText where
  | lines (lines : List String)
  /-- The ended lines that are read before it turns out to be no text. -/
  | broken (lines : List String)

def pieceSize : Nat := 8192

/-- Reads bytes as lines. Lines are known as soon as the piece with their end is read, and nothing is known of a piece
that is no text. A character that is cut off by the end of the file is noticed after its last piece. -/
def FileText.ofBytes (bytes : List UInt8) : FileText :=
  match Utf8.decode bytes with
  | .text chars => .lines (allLines chars)
  | .cutOff chars => .broken (endedLines chars)
  | .invalid before =>
    .broken (endedLines (Utf8.decode (bytes.take (before / pieceSize * pieceSize))).chars)

/-! ## Names of files -/

def fileSuffix : String := ".lgo"

/-- Whether a name has an extension: a dot in its last part, dots that begin the part apart. -/
def hasExtension (name : String) : Bool :=
  let base := (name.toList.reverse.takeWhile (· != '/')).reverse
  (base.dropWhile (· == '.')).contains '.'

/-- The paths that a name may stand for, in order. -/
def candidates (name : String) : List String :=
  let plain := [name, String.ofList (lowerText name.toList)]
  if hasExtension name then plain else plain ++ plain.map (· ++ fileSuffix)

def FileStore.resolve? (fs : FileStore) (name : String) : Option String :=
  (candidates name).find? fun path => (fs.file? path).isSome

/-- The text of the file at a path; what is no file has none. -/
def FileStore.read (fs : FileStore) (path : String) : FileText :=
  match fs.file? path with
  | some bytes => .ofBytes bytes
  | none => .broken []

end TurtleLogo
