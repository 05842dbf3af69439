import HedgedForecast.Text.Hex

/-! # Percent encoding

A character that a part of an address may not hold is written as its bytes, each a percent sign and
two hexadecimal digits. Each part has its own set of such characters; characters beyond ASCII are
always encoded. Form fields have a stricter set and write a space as a plus sign.
-/

namespace HedgedForecast.Url

/-- A byte as a percent sign and two digits. -/
def percentByte (byte : UInt8) : String :=
  "%" ++ Text.hexUpper 2 byte.toNat

/-- The character itself, or its encoded bytes. -/
def encodeChar (reserved : Char → Bool) (c : Char) : String :=
  if 128 ≤ c.toNat || reserved c then String.join ((String.utf8EncodeChar c).map percentByte)
  else c.toString

/-- Encodes the reserved characters of a text. -/
def encode (reserved : Char → Bool) (cs : List Char) : String :=
  String.join (cs.map (encodeChar reserved))

/-- ASCII controls. -/
def isControl (c : Char) : Bool :=
  c.toNat < 32 || c.toNat == 127

/-- What a fragment may not hold. -/
def inFragmentSet (c : Char) : Bool :=
  isControl c || [' ', '"', '<', '>', '`'].contains c

/-- What a path may not hold. -/
def inPathSet (c : Char) : Bool :=
  inFragmentSet c || ['#', '?', '\x7b', '\x7d'].contains c

/-- What a user name or password may not hold. -/
def inUserSet (c : Char) : Bool :=
  inPathSet c || ['/', ':', ';', '=', '@', '[', '\\', ']', '^', '|'].contains c

/-- What a query may not hold; addresses of the web are stricter than others. -/
def inQuerySet (web : Bool) (c : Char) : Bool :=
  isControl c || [' ', '"', '#', '<', '>'].contains c || (web && c == '\'')

/-- Undoes the encoding; a percent sign without two digits stands for itself. -/
def decodeBytes : List Char → List UInt8
  | [] => []
  | [c] => String.utf8EncodeChar c
  | [c, d] => String.utf8EncodeChar c ++ String.utf8EncodeChar d
  | c :: a :: b :: rest =>
    match c == '%', Text.hexValue? a, Text.hexValue? b with
    | true, some high, some low => UInt8.ofNat (high * 16 + low) :: decodeBytes rest
    | _, _, _ => String.utf8EncodeChar c ++ decodeBytes (a :: b :: rest)

/-- The characters of these bytes, if they are well-formed UTF-8. -/
def chars? (bytes : List UInt8) : Option (List Char) :=
  (String.fromUTF8? ⟨bytes.toArray⟩).map String.toList

/-- How a byte stands in a form field. -/
def formByte (byte : UInt8) : String :=
  let c := Char.ofNat byte.toNat
  if byte < 128 && (c.isAlphanum || ['*', '-', '.', '_'].contains c) then c.toString
  else if byte == 32 then "+"
  else percentByte byte

/-- A text as a form field. -/
def formEncode (s : String) : String :=
  String.join (s.toUTF8.data.toList.map formByte)

/-- Fields as a query. -/
def formQuery (fields : List (String × String)) : String :=
  "&".intercalate (fields.map fun (name, value) => formEncode name ++ "=" ++ formEncode value)

end HedgedForecast.Url
