import RegisterMachine.Decoder
import RegisterMachine.LittleEndian

namespace RegisterMachine

/-- A byte format: how to write a value, how many bytes that takes, and how to read one. -/
structure Codec (α : Type) where
  encode : α → List UInt8
  size : α → Nat
  decode : Decoder α

namespace Codec

/-- Words of `width` bytes, least significant byte first, through their numbers. -/
def word {α : Type} (width : Nat) (toNat : α → Nat) (ofNat : Nat → α) : Codec α where
  encode x := LittleEndian.bytes width (toNat x)
  size _ := width
  decode := do
    let bytes ← Decoder.take width
    return ofNat (LittleEndian.value bytes)

def uint8 : Codec UInt8 := word 1 UInt8.toNat UInt8.ofNat

def uint16 : Codec UInt16 := word 2 UInt16.toNat UInt16.ofNat

def uint32 : Codec UInt32 := word 4 UInt32.toNat UInt32.ofNat

def uint64 : Codec UInt64 := word 8 UInt64.toNat UInt64.ofNat

/-- Signed words are written as the unsigned word of the same bits. -/
def int8 : Codec Int8 := word 1 (fun v => v.toUInt8.toNat) fun n => (UInt8.ofNat n).toInt8

def int16 : Codec Int16 := word 2 (fun v => v.toUInt16.toNat) fun n => (UInt16.ofNat n).toInt16

def int32 : Codec Int32 := word 4 (fun v => v.toUInt32.toNat) fun n => (UInt32.ofNat n).toInt32

def int64 : Codec Int64 := word 8 (fun v => v.toUInt64.toNat) fun n => (UInt64.ofNat n).toInt64

/-- Sizes are written in eight bytes on every machine, and one that this machine has no word for is
not read. -/
def usize : Codec USize where
  encode n := uint64.encode n.toUInt64
  size n := uint64.size n.toUInt64
  decode := do
    let n ← uint64.decode
    if n.toNat < USize.size then
      return n.toUSize
    throw .lengthOverflow

/-- A Boolean is one byte, and only 0 and 1 are read. -/
def bool : Codec Bool where
  encode b := [if b then 1 else 0]
  size _ := 1
  decode := do
    match ← Decoder.byte with
    | 0 => return false
    | 1 => return true
    | _ => throw .invalidValue

/-- The number of bytes that entries take together. -/
def totalSize {α : Type} (entry : Codec α) : List α → Nat
  | [] => 0
  | x :: xs => entry.size x + totalSize entry xs

/-- The longest list that is read. -/
def maxListLength : Nat := 16 * 1024 * 1024

/-- A list is its length in eight bytes and its entries in order. -/
def list {α : Type} (entry : Codec α) : Codec (List α) where
  encode xs := LittleEndian.bytes 8 xs.length ++ xs.flatMap entry.encode
  size xs := 8 + totalSize entry xs
  decode := do
    let length ← uint64.decode
    if maxListLength < length.toNat then
      throw .lengthOverflow
    Decoder.times entry.decode length.toNat

/-- A list of known length `n` is its entries in order. -/
def array {α : Type} (entry : Codec α) (n : Nat) : Codec (List α) where
  encode xs := xs.flatMap entry.encode
  size xs := totalSize entry xs
  decode := Decoder.times entry.decode n

/-- The format carried over to a type that holds the same values. -/
def map {α β : Type} (codec : Codec α) (wrap : α → β) (unwrap : β → α) : Codec β where
  encode x := codec.encode (unwrap x)
  size x := codec.size (unwrap x)
  decode := wrap <$> codec.decode

/-- The value that `input` spells out from its first byte to its last. -/
def parse {α : Type} (codec : Codec α) (input : List UInt8) : Except DecodeError α :=
  codec.decode.whole input

end Codec

end RegisterMachine
