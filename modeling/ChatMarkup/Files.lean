/-! # Reading texts from files

A file system is seen through one function: what reading a path gives. Reading a text fails if the bytes
cannot be read or are no UTF-8.
-/
namespace ChatMarkup

inductive ReadError where
  | notFound
  | notDirectory
  | isDirectory
  | nameTooLong
  | permissionDenied
  | invalidUtf8
  deriving DecidableEq, Repr

def ReadError.message : ReadError → String
  | .notFound => "No such file or directory (os error 2)"
  | .notDirectory => "Not a directory (os error 20)"
  | .isDirectory => "Is a directory (os error 21)"
  | .nameTooLong => "File name too long (os error 36)"
  | .permissionDenied => "Permission denied (os error 13)"
  | .invalidUtf8 => "stream did not contain valid UTF-8"

def decodeText (bytes : ByteArray) : Except ReadError String :=
  match String.fromUTF8? bytes with
  | some text => .ok text
  | none => .error .invalidUtf8

abbrev Files := String → Except ReadError ByteArray

def Files.readText (files : Files) (path : String) : Except ReadError String :=
  (files path).bind decodeText

end ChatMarkup
