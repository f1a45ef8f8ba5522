import Newsreel.Fault
import Newsreel.Text.Blank

/-!
The encodings in which a plain body can be sent: UTF-8, ASCII and Latin-1, each under several
labels.
-/

namespace Newsreel.Web

inductive Charset where
  | utf8
  | ascii
  | latin1
  deriving DecidableEq, Repr

namespace Charset

/-- A label as it is compared: in lower case, with hyphens for underscores. -/
def normalLabel (label : String) : String :=
  String.ofList ((Text.lowerAscii label).toList.map fun c => if c = '_' then '-' else c)

def ofLabel? (label : String) : Option Charset :=
  match normalLabel label with
  | "utf-8" | "utf8" => some .utf8
  | "ascii" | "us-ascii" => some .ascii
  | "latin-1" | "latin1" | "iso-8859-1" => some .latin1
  | _ => none

/-- The bytes of characters below 256, or the first character that is none of them. -/
def latin1Bytes : List Char → Except Char (List UInt8)
  | [] => .ok []
  | c :: cs =>
    if c.toNat < 256 then (latin1Bytes cs).map (c.toNat.toUInt8 :: ·) else .error c

def encode (charset : Charset) (text : String) : Except ValueFault (List UInt8) :=
  match charset with
  | .utf8 => .ok text.toUTF8.toList
  | .ascii =>
    if text.toList.all fun c => c.toNat < 128 then
      .ok (text.toList.map fun c => c.toNat.toUInt8)
    else .error .notAscii
  | .latin1 => (latin1Bytes text.toList).mapError .notLatin1

end Charset

/-- A text in the encoding of a label. -/
def encode (text label : String) : Except StepError (List UInt8) :=
  match Charset.ofLabel? label with
  | some charset => (charset.encode text).mapError (.invalidValue "body_encoding")
  | none =>
    .error (.invalidValue "body_encoding" (.unsupportedEncoding (Charset.normalLabel label)))

end Newsreel.Web
