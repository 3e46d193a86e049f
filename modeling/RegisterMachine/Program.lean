import RegisterMachine.Codec

namespace RegisterMachine

/-- The version of a program file. -/
structure Version where
  major : UInt8
  minor : UInt8
  patch : UInt8
  deriving DecidableEq, Repr

/-- The version that is written. -/
def Version.current : Version := ⟨1, 0, 0⟩

/-- A version with dots between its numbers. -/
def Version.text (v : Version) : String :=
  s!"{v.major.toNat}.{v.minor.toNat}.{v.patch.toNat}"

/-- An assembled program. -/
structure Program where
  code : List UInt8
  deriving DecidableEq, Repr

namespace Codec

/-- A version is its three numbers. -/
def version : Codec Version where
  encode v := [v.major, v.minor, v.patch]
  size _ := 3
  decode := do
    let major ← Decoder.byte
    let minor ← Decoder.byte
    let patch ← Decoder.byte
    return ⟨major, minor, patch⟩

/-- A program is the list of its bytes. -/
def program : Codec Program := (list uint8).map Program.mk Program.code

end Codec

/-- Why bytes are no program file. -/
inductive ProgramError
  | badMagic
  | malformed (cause : DecodeError)
  | unsupportedVersion (version : Version)
  | trailingBytes (count : Nat)
  deriving DecidableEq, Repr

/-- The words for what is wrong. -/
def ProgramError.reason : ProgramError → String
  | badMagic => "bad magic"
  | malformed cause => cause.message
  | unsupportedVersion version =>
    s!"unsupported version {version.text} (reader is {Version.current.text})"
  | trailingBytes count => s!"{count} trailing bytes"

/-- The text that reports a refused program file. -/
def ProgramError.message (e : ProgramError) : String :=
  "invalid program file: " ++ e.reason

namespace Program

/-- The bytes `MICRO`, with which every program file begins. -/
def magic : List UInt8 := [0x4d, 0x49, 0x43, 0x52, 0x4f]

/-- The bytes of a program file: the magic, the version and the program. -/
def toFile (p : Program) : List UInt8 :=
  magic ++ Codec.version.encode Version.current ++ Codec.program.encode p

/-- The program behind the magic and the version, with nothing after it. -/
def ofBody (body : List UInt8) : Except ProgramError Program :=
  match Codec.program.decode body with
  | .error cause _ => .error (.malformed cause)
  | .ok p [] => .ok p
  | .ok _ rest => .error (.trailingBytes rest.length)

/-- Reads a program file. Files of any version with the current major number are read. -/
def ofFile (bytes : List UInt8) : Except ProgramError Program :=
  match splitExactly magic.length bytes with
  | none => .error .badMagic
  | some (start, rest) =>
    if start ≠ magic then .error .badMagic
    else
      match Codec.version.decode rest with
      | .error cause _ => .error (.malformed cause)
      | .ok version body =>
        if version.major ≠ Version.current.major then .error (.unsupportedVersion version)
        else ofBody body

end Program

end RegisterMachine
