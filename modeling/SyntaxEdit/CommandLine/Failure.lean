/-
Failures that end a run of the program.

* `Failure.render` — the text of a failure, with what is behind it.
-/
import SyntaxEdit.PackFile.Build

namespace SyntaxEdit

/-- Why the program cannot go on. -/
inductive Failure where
  /-- A file of packs gives no registry. -/
  | packFile (path : Text) (error : PackFileError)
  | pack (error : PackError)
  /-- A file cannot be read. -/
  | unreadable (path reason : Text)
  /-- A folder cannot be listed. -/
  | unlisted (path reason : Text)
deriving DecidableEq

namespace Failure

/-- The wording of a failure. -/
def message : Failure → Text
  | packFile path error =>
    if error.cause = [] then error.heading (some path) else error.message (some path)
  | pack error => error.message
  | unreadable path _ => "failed to read ".toList ++ path
  | unlisted path reason => "IO error for operation on ".toList ++ path ++ ": ".toList ++ reason

/-- The wording of what is behind a failure; empty if there is nothing. -/
def cause : Failure → Text
  | packFile _ error => error.cause
  | pack _ => []
  | unreadable _ reason => reason
  | unlisted _ reason => reason

/-- The text of a failure. -/
def render (f : Failure) : Text :=
  "Error: ".toList ++ f.message ++ ['\n'] ++
    if f.cause = [] then []
    else
      "\nCaused by:\n".toList ++
        (Text.splitOn '\n' f.cause).flatMap fun line => "    ".toList ++ line ++ ['\n']

end Failure

end SyntaxEdit
