import RegisterMachine.Codec
import RegisterMachine.Value

namespace RegisterMachine

/-- The longest part of a text, from its start and in whole characters, that has at most `room`
bytes. -/
def fittingChars : Nat → List Char → List Char
  | _, [] => []
  | room, c :: cs =>
    if c.utf8Size ≤ room then c :: fittingChars (room - c.utf8Size) cs else []

namespace Codec

/-- A double is written as its bits. -/
def double : Codec Double := uint64.map Double.mk Double.bits

/-- The bytes of a text in UTF-8. -/
def utf8 (s : String) : List UInt8 := s.toUTF8.data.toList

/-- The text that the bytes spell in UTF-8. -/
def ofUtf8? (bytes : List UInt8) : Option String :=
  String.fromUTF8? (ByteArray.mk bytes.toArray)

/-- What is written of a string: all of it, or what fits of one that is too long. -/
def stored (s : String) : String :=
  String.ofList (fittingChars Value.maxStringLength s.toList)

/-- A string is its length in one byte and its bytes. -/
def string : Codec String where
  encode s :=
    let bytes := utf8 (stored s)
    UInt8.ofNat bytes.length :: bytes
  size s := 1 + (stored s).utf8ByteSize
  decode := do
    let length ← Decoder.byte
    let available ← Decoder.remaining
    if available < length.toNat then
      throw (.truncated length.toNat available)
    let bytes ← Decoder.take length.toNat
    match ofUtf8? bytes with
    | some s => return s
    | none => throw .invalidUtf8

/-- The content of a value of a known kind. -/
def payload : Kind → Decoder Value
  | .byte => Value.byte <$> int8.decode
  | .int => Value.int <$> int32.decode
  | .long => Value.long <$> int64.decode
  | .double => Value.double <$> double.decode
  | .string => Value.string <$> string.decode
  | .boolean => Value.bool <$> bool.decode

/-- A value is the tag of its kind and its content. -/
def value : Codec Value where
  encode v := v.kind.tag ::
    match v with
    | .byte v => int8.encode v
    | .int v => int32.encode v
    | .long v => int64.encode v
    | .double v => double.encode v
    | .string s => string.encode s
    | .bool b => bool.encode b
  size v := 1 +
    match v with
    | .byte v => int8.size v
    | .int v => int32.size v
    | .long v => int64.size v
    | .double v => double.size v
    | .string s => string.size s
    | .bool b => bool.size b
  decode := do
    let tag ← Decoder.byte
    match Kind.ofTag? tag with
    | some kind => payload kind
    | none => throw (.unknownTag tag)

end Codec

end RegisterMachine
