import RegisterMachine.Proofs.CompositeCodecs
import RegisterMachine.Proofs.ValueFormat

namespace RegisterMachine

namespace Codec

theorem uint8_encode (b : UInt8) : uint8.encode b = [b] := by
  simp [uint8, word, LittleEndian.bytes]

theorem program_encode (p : Program) : program.encode p = LittleEndian.bytes 8 p.code.length ++ p.code := by
  have hc : p.code.flatMap uint8.encode = p.code := by
    rw [show uint8.encode = fun b => [b] from funext uint8_encode]
    exact List.flatMap_singleton' p.code
  simp only [program, map, list, hc]

theorem list_decode_of_short_length {α : Type} (entry : Codec α) {b : List UInt8} (h : b.length < 8) :
    (list entry).decode b = .error .unexpectedEnd b := by
  have hd : uint64.decode b = .error .unexpectedEnd b := word_decode_of_short h
  change EStateM.bind uint64.decode _ b = _
  simp only [EStateM.bind, hd]

/-- Of bytes that run out, all are taken before that is noticed. -/
theorem timesFrom_byte_of_short {n : Nat} {taken input : List UInt8} (h : input.length < n) :
    Decoder.timesFrom uint8.decode n taken input = .error .unexpectedEnd [] := by
  induction n generalizing taken input with
  | zero => omega
  | succ n ih =>
    cases input with
    | nil => rfl
    | cons b input =>
      have hb : uint8.decode (b :: input) = .ok b input :=
        uint8_lawful.decode_eq_ok.mpr ⟨trivial, by rw [uint8_encode]; rfl⟩
      simp only [Decoder.timesFrom, hb]
      exact ih (Nat.lt_of_succ_lt_succ h)

theorem program_decode_of_cut {n : Nat} (hn : n ≤ maxListLength) {code : List UInt8} (hc : code.length < n) :
    program.decode (LittleEndian.bytes 8 n ++ code) = .error .unexpectedEnd [] := by
  have he : (UInt64.ofNat n).toNat = n := by
    unfold maxListLength at hn
    rw [UInt64.toNat_ofNat']
    omega
  have hd : uint64.decode (LittleEndian.bytes 8 n ++ code) = .ok (UInt64.ofNat n) code := by
    rw [uint64_lawful.decode_eq_ok]
    refine ⟨trivial, ?_⟩
    simp only [uint64, word, he]
  have hl : (list uint8).decode (LittleEndian.bytes 8 n ++ code) = .error .unexpectedEnd [] := by
    rw [list_decode_of_short hd (by omega), he]
    exact timesFrom_byte_of_short hc
  exact map_eq_error.mpr hl

end Codec

namespace Program

/-- What stands in front of the length in a file of a version that is read. -/
def header (minor patch : UInt8) : List UInt8 := magic ++ [1, minor, patch]

/-- Why a file is refused, from the first thing in it that is wrong. -/
inductive Refusal : List UInt8 → ProgramError → Prop
  | otherMagic {b : List UInt8} : ¬ magic <+: b → Refusal b .badMagic
  | noVersion {rest : List UInt8} : rest.length < 3 →
      Refusal (magic ++ rest) (.malformed .unexpectedEnd)
  | otherVersion (version : Version) (rest : List UInt8) : version.major ≠ 1 →
      Refusal (magic ++ [version.major, version.minor, version.patch] ++ rest) (.unsupportedVersion version)
  | noLength (minor patch : UInt8) {rest : List UInt8} : rest.length < 8 →
      Refusal (header minor patch ++ rest) (.malformed .unexpectedEnd)
  | tooLong (minor patch : UInt8) {length : List UInt8} (rest : List UInt8) : length.length = 8 →
      Codec.maxListLength < LittleEndian.value length →
      Refusal (header minor patch ++ length ++ rest) (.malformed .lengthOverflow)
  | cutShort (minor patch : UInt8) {n : Nat} {code : List UInt8} : n ≤ Codec.maxListLength → code.length < n →
      Refusal (header minor patch ++ LittleEndian.bytes 8 n ++ code) (.malformed .unexpectedEnd)
  | trailing (minor patch : UInt8) {code extra : List UInt8} : code.length ≤ Codec.maxListLength → extra ≠ [] →
      Refusal (header minor patch ++ LittleEndian.bytes 8 code.length ++ code ++ extra) (.trailingBytes extra.length)

section Body

variable {body : List UInt8}

theorem ofBody_of_decode_error {e : DecodeError} {rest : List UInt8}
    (h : Codec.program.decode body = .error e rest) : ofBody body = .error (.malformed e) := by
  simp only [ofBody, h]

theorem ofBody_eq_ok {p : Program} :
    ofBody body = .ok p ↔ p.code.length ≤ Codec.maxListLength ∧ body = LittleEndian.bytes 8 p.code.length ++ p.code := by
  have hd : Codec.program.decode body = .ok p [] ↔ _ := Codec.program_lawful.decode_eq_ok
  rw [List.append_nil, Codec.program_encode] at hd
  rw [← hd]
  unfold ofBody
  split
  next e rest he => simp [he]
  next q hq => simp [hq]
  next q rest hne hq =>
    constructor
    · intro h
      cases h
    · intro h
      rw [hq] at h
      cases h
      exact (hne rfl).elim

theorem ofBody_of_extra {code extra : List UInt8} (hc : code.length ≤ Codec.maxListLength) (he : extra ≠ []) :
    ofBody (LittleEndian.bytes 8 code.length ++ code ++ extra) = .error (.trailingBytes extra.length) := by
  have hd := Codec.program_lawful.decode_encode ⟨code⟩ hc extra
  rw [Codec.program_encode] at hd
  unfold ofBody
  rw [hd]
  cases extra with
  | nil => exact (he rfl).elim
  | cons b bs => rfl

end Body

theorem ofFile_of_other_magic {b : List UInt8} (h : ¬ magic <+: b) : ofFile b = .error .badMagic := by
  unfold ofFile
  rw [splitExactly_eq]
  by_cases hl : magic.length ≤ b.length
  · have hne : b.take magic.length ≠ magic := fun he => h (he ▸ List.take_prefix _ b)
    simp only [if_pos hl, if_pos hne]
  · simp only [if_neg hl]

theorem ofFile_of_magic (rest : List UInt8) :
    ofFile (magic ++ rest) =
      match Codec.version.decode rest with
      | .error cause _ => .error (.malformed cause)
      | .ok version body =>
        if version.major ≠ 1 then .error (.unsupportedVersion version) else ofBody body := rfl

theorem ofFile_of_no_version {rest : List UInt8} (h : rest.length < 3) :
    ofFile (magic ++ rest) = .error (.malformed .unexpectedEnd) := by
  rw [ofFile_of_magic]
  match rest with
  | [] => rfl
  | [_] => rfl
  | [_, _] => rfl
  | _ :: _ :: _ :: _ =>
    simp only [List.length_cons] at h
    omega

theorem ofFile_of_header (minor patch : UInt8) (body : List UInt8) :
    ofFile (header minor patch ++ body) = ofBody body := rfl

/-- A refusal is what the reader gives. -/
theorem Refusal.ofFile_eq {b : List UInt8} {cause : ProgramError} (h : Refusal b cause) : ofFile b = .error cause := by
  cases h with
  | otherMagic h => exact ofFile_of_other_magic h
  | noVersion h => exact ofFile_of_no_version h
  | otherVersion version rest h =>
    rw [List.append_assoc, ofFile_of_magic]
    exact if_pos h
  | noLength minor patch h =>
    rw [ofFile_of_header]
    exact ofBody_of_decode_error (map_eq_error.mpr (Codec.list_decode_of_short_length _ h))
  | tooLong minor patch rest hl hv =>
    rw [List.append_assoc, ofFile_of_header]
    exact ofBody_of_decode_error (map_eq_error.mpr (Codec.list_decode_overflow _ rest hl hv))
  | cutShort minor patch hn hc =>
    rw [List.append_assoc, ofFile_of_header]
    exact ofBody_of_decode_error (Codec.program_decode_of_cut hn hc)
  | trailing minor patch hc he =>
    rw [List.append_assoc, List.append_assoc, ofFile_of_header, ← List.append_assoc]
    exact ofBody_of_extra hc he

/-- A file has the header, or there is something wrong before its end. -/
theorem header_or_refusal (b : List UInt8) :
    (∃ minor patch body, b = header minor patch ++ body) ∨ ∃ cause, Refusal b cause := by
  by_cases hm : magic <+: b
  · obtain ⟨rest, rfl⟩ := hm
    match rest with
    | [] => exact .inr ⟨_, .noVersion (by simp)⟩
    | [_] => exact .inr ⟨_, .noVersion (by simp)⟩
    | [_, _] => exact .inr ⟨_, .noVersion (by simp)⟩
    | major :: minor :: patch :: body =>
      by_cases hv : major = 1
      · subst hv
        exact .inl ⟨minor, patch, body, rfl⟩
      · exact .inr ⟨_, .otherVersion ⟨major, minor, patch⟩ body hv⟩
  · exact .inr ⟨_, .otherMagic hm⟩

/-- What follows the header is a program, or there is something wrong with it. -/
theorem ok_or_refusal_of_header (minor patch : UInt8) (body : List UInt8) :
    (∃ p, ofBody body = .ok p) ∨ ∃ cause, Refusal (header minor patch ++ body) cause := by
  rcases Nat.lt_or_ge body.length 8 with hl | hl
  · exact .inr ⟨_, .noLength minor patch hl⟩
  obtain ⟨length, rest, rfl, hlen⟩ : ∃ length rest, body = length ++ rest ∧ length.length = 8 :=
    ⟨body.take 8, body.drop 8, by simp, by simp [hl]⟩
  rcases Nat.lt_or_ge Codec.maxListLength (LittleEndian.value length) with hv | hv
  · have hr := Refusal.tooLong minor patch rest hlen hv
    rw [List.append_assoc] at hr
    exact .inr ⟨_, hr⟩
  have hb : LittleEndian.bytes 8 (LittleEndian.value length) = length := by
    rw [← hlen, LittleEndian.bytes_value]
  generalize LittleEndian.value length = n at hv hb
  rcases Nat.lt_or_ge rest.length n with hc | hc
  · have hr := Refusal.cutShort minor patch hv hc
    rw [hb, List.append_assoc] at hr
    exact .inr ⟨_, hr⟩
  -- the code is the part of the rest that the length asks for
  obtain ⟨code, extra, rfl, rfl⟩ : ∃ code extra, rest = code ++ extra ∧ n = code.length :=
    ⟨rest.take n, rest.drop n, by simp, by simp [hc]⟩
  by_cases he : extra = []
  · subst he
    refine .inl ⟨⟨code⟩, ofBody_eq_ok.mpr ⟨hv, ?_⟩⟩
    rw [hb, List.append_nil]
  · have hr := Refusal.trailing minor patch hv he
    rw [hb, List.append_assoc, List.append_assoc] at hr
    exact .inr ⟨_, hr⟩

theorem ofFile_eq_error {b : List UInt8} {cause : ProgramError} : ofFile b = .error cause ↔ Refusal b cause := by
  constructor
  · intro h
    have hr : ∃ cause', Refusal b cause' := by
      rcases header_or_refusal b with ⟨minor, patch, body, rfl⟩ | hr
      · rcases ok_or_refusal_of_header minor patch body with ⟨p, hp⟩ | hr
        · rw [ofFile_of_header, hp] at h
          cases h
        · exact hr
      · exact hr
    obtain ⟨cause', hr⟩ := hr
    have he := hr.ofFile_eq
    rw [h] at he
    cases he
    exact hr
  · exact Refusal.ofFile_eq

theorem ofFile_eq_ok {b : List UInt8} {p : Program} :
    ofFile b = .ok p ↔ p.code.length ≤ Codec.maxListLength ∧
      ∃ minor patch, b = header minor patch ++ (LittleEndian.bytes 8 p.code.length ++ p.code) := by
  constructor
  · intro h
    rcases header_or_refusal b with ⟨minor, patch, body, rfl⟩ | ⟨cause, hr⟩
    · rw [ofFile_of_header] at h
      obtain ⟨hl, rfl⟩ := ofBody_eq_ok.mp h
      exact ⟨hl, minor, patch, rfl⟩
    · rw [hr.ofFile_eq] at h
      cases h
  · intro h
    obtain ⟨hl, minor, patch, rfl⟩ := h
    rw [ofFile_of_header]
    exact ofBody_eq_ok.mpr ⟨hl, rfl⟩

theorem toFile_eq (p : Program) :
    p.toFile = header 0 0 ++ (LittleEndian.bytes 8 p.code.length ++ p.code) := by
  unfold toFile
  rw [Codec.program_encode]
  rfl

/-- A program is read back from its file exactly if it is not too long for a reader. -/
theorem ofFile_toFile (p : Program) : ofFile p.toFile = .ok p ↔ p.code.length ≤ Codec.maxListLength := by
  rw [ofFile_eq_ok, toFile_eq]
  constructor
  · intro h
    exact h.1
  · intro h
    exact ⟨h, 0, 0, rfl⟩

/-- The writer makes files of programs that no reader takes. -/
theorem ofFile_toFile_of_long {p : Program} (h : Codec.maxListLength < p.code.length)
    (hw : p.code.length < 2 ^ 64) : ofFile p.toFile = .error (.malformed .lengthOverflow) := by
  have hv : LittleEndian.value (LittleEndian.bytes 8 p.code.length) = p.code.length := by
    rw [LittleEndian.value_bytes]
    exact Nat.mod_eq_of_lt hw
  have hr := Refusal.tooLong 0 0 p.code (LittleEndian.length_bytes 8 p.code.length) (by omega)
  rw [toFile_eq, ← List.append_assoc]
  exact hr.ofFile_eq

/-- A file is read as a program exactly if it is the magic, a version of which only the first number counts,
the length and the code, with nothing after it and a length within the limit. Every other file is refused for
the first thing in it that is wrong. -/
theorem file_format_exact :
    (∀ b p, ofFile b = .ok p ↔ p.code.length ≤ 16 * 1024 * 1024 ∧ ∃ minor patch,
      b = [0x4d, 0x49, 0x43, 0x52, 0x4f, 1, minor, patch] ++ LittleEndian.bytes 8 p.code.length ++ p.code) ∧
    (∀ b cause, ofFile b = .error cause ↔ Refusal b cause) ∧
    ∀ cause : ProgramError, cause.message = "invalid program file: " ++ cause.reason := by
  refine ⟨?_, fun b cause => ofFile_eq_error, fun cause => rfl⟩
  intro b p
  simp only [ofFile_eq_ok, List.append_assoc]
  rfl

end Program

end RegisterMachine
