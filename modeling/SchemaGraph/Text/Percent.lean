import SchemaGraph.Text.Basic
import SchemaGraph.Text.Utf8

set_option autoImplicit false

/-! # Percent encoding

`%` and two hexadecimal digits stand for one byte. Decoding joins the bytes of neighbouring
escapes and reads them as UTF-8; a `%` without two digits stands for itself. A character
written plainly never takes part in a sequence of escaped bytes, so runs of escapes can be
read one by one.
-/

namespace SchemaGraph

namespace Percent

/-- Decode, where `run` holds the escaped bytes read just before. -/
def decodeFrom (run : List UInt8) : List Char → List Char
  | [] => Utf8.decodeLossy run
  | c :: rest =>
    match c, rest with
    | '%', a :: b :: rest' =>
      match Ascii.hexValue? a, Ascii.hexValue? b with
      | some x, some y => decodeFrom (run ++ [(16 * x + y).toUInt8]) rest'
      | _, _ => Utf8.decodeLossy run ++ '%' :: decodeFrom [] (a :: b :: rest')
    | c, rest => Utf8.decodeLossy run ++ c :: decodeFrom [] rest

/-- The text with its escapes replaced by what they stand for. -/
def decode (text : List Char) : List Char := decodeFrom [] text

/-- `%` and the two digits of a byte. -/
def escapeByte (b : UInt8) : List Char :=
  ['%', Ascii.hexDigitUpper (b.toNat / 16), Ascii.hexDigitUpper (b.toNat % 16)]

/-- Escape the bytes of every character of the class. -/
def encode (escaped : Char → Bool) (text : List Char) : List Char :=
  text.flatMap fun c => if escaped c then (Utf8.encodeChar c).flatMap escapeByte else [c]

end Percent

end SchemaGraph
