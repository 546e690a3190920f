/-
Lexeme.Files.Reading — reading texts from files and streams.

What a program may see of the outside is a value: for each path, what reading
it gives. Bytes that are not UTF-8 are a read error too, so a reading ends in a
text or in the reason why there is none.
-/
import Lexeme.Text.Utf8

namespace Lexeme

/-- Why nothing could be read. -/
inductive ReadError where
  | notFound
  | notDirectory
  | isDirectory
  | nameTooLong
  /-- The bytes are not UTF-8. -/
  | malformed
  /-- Any other reason, in the words of the system. -/
  | other (text : String)
deriving DecidableEq, Repr

/-- The wording of a read error. -/
def ReadError.message : ReadError → String
  | notFound => "No such file or directory (os error 2)"
  | notDirectory => "Not a directory (os error 20)"
  | isDirectory => "Is a directory (os error 21)"
  | nameTooLong => "File name too long (os error 36)"
  | malformed => "stream did not contain valid UTF-8"
  | other text => text

/-- The bytes of a file or a stream, or why there are none. -/
abbrev Reading := Except ReadError (List UInt8)

/-- The text that was read. -/
def Reading.text (r : Reading) : Except ReadError String :=
  match r with
  | .error why => .error why
  | .ok bs =>
    match Text.ofBytes? bs with
    | some s => .ok s
    | none => .error .malformed

/-- The files there are: what reading gives at each path. -/
structure Files where
  read : String → Reading

namespace Files

/-- Whether there is anything at a path, a directory included. -/
def isThere (files : Files) (path : String) : Bool :=
  match files.read path with
  | .error .notFound => false
  | .error .notDirectory => false
  | .error .nameTooLong => false
  | _ => true

/-- The text of the file at a path. -/
def readText (files : Files) (path : String) : Except ReadError String :=
  Reading.text (files.read path)

/-- The files that were read beforehand; nothing else is there. -/
def ofReadings (readings : List (String × Reading)) : Files where
  read path := (readings.lookup path).getD (.error .notFound)

end Files
end Lexeme
