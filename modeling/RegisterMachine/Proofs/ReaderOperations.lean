import RegisterMachine.Proofs.StringReaders

namespace RegisterMachine

namespace CodeReader

/-- What can be asked of a reader. -/
inductive Operation
  | load (code : List UInt8)
  | seek (position : Nat)
  | byte
  | int
  | long
  | double
  | bool
  | string
  | tagged
  deriving DecidableEq

/-- Why an operation fails. -/
inductive Failure
  | load (cause : LoadError)
  | fault (cause : Fault)

/-- A reading step of which only the failure and the reader that it leaves are kept. -/
def settled {α : Type} (step : Reading α) : EStateM Failure CodeReader Unit := fun r =>
  match step r with
  | .ok _ r' => .ok () r'
  | .error cause r' => .error (.fault cause) r'

/-- Carries out an operation. -/
def Operation.perform : Operation → EStateM Failure CodeReader Unit
  | load code => fun r =>
    match r.load code with
    | .ok r' => .ok () r'
    | .error cause => .error (.load cause) r
  | seek position => settled (CodeReader.seek position)
  | byte => settled CodeReader.byte
  | int => settled (decode Codec.int32.decode)
  | long => settled (decode Codec.int64.decode)
  | double => settled (decode Codec.double.decode)
  | bool => settled (decode Codec.bool.decode)
  | string => settled CodeReader.string
  | tagged => settled value

/-- The reader after several operations, whether they fail or not. -/
def after (r : CodeReader) : List Operation → CodeReader
  | [] => r
  | op :: ops =>
    match op.perform r with
    | .ok _ r' => r'.after ops
    | .error _ r' => r'.after ops

/-- Those of several operations that do not fail when they are carried out in turn. -/
def succeeding (r : CodeReader) : List Operation → List Operation
  | [] => []
  | op :: ops =>
    match op.perform r with
    | .ok _ r' => op :: r'.succeeding ops
    | .error _ r' => r'.succeeding ops

section Failures

variable {α : Type} {r r' : CodeReader} {cause : Fault}

theorem settled_eq_error {step : Reading α} {failure : Failure} (h : settled step r = .error failure r') :
    ∃ cause, failure = .fault cause ∧ step r = .error cause r' := by
  unfold settled at h
  split at h
  next => cases h
  next cause q hs =>
    cases h
    exact ⟨cause, rfl, hs⟩

theorem seek_eq_error {position : Nat} (h : seek position r = .error cause r') : r' = r := by
  unfold seek at h
  split at h <;> cases h
  rfl

theorem byte_eq_error (h : byte r = .error cause r') : r' = r := by
  unfold byte at h
  split at h <;> cases h
  rfl

theorem decode_eq_error {decoder : Decoder α} (h : decode decoder r = .error cause r') : r' = r := by
  unfold decode at h
  split at h
  next => cases h; rfl
  next => split at h <;> cases h; rfl

/-- Reading a string fails where the reader stands, or behind a string that is no text. -/
theorem string_eq_error (h : string r = .error cause r') :
    (r' = r ∧ cause ≠ .malformedValue r.cursor .invalidUtf8) ∨
      (cause = .malformedValue r.cursor .invalidUtf8 ∧ ∃ length : UInt8, r.data[r.cursor]? = some length ∧
        r' = r.movedTo (r.cursor + 1 + length.toNat) ∧ r'.cursor ≤ r.data.length) := by
  cases ha : r.data.drop r.cursor with
  | nil =>
    rw [string_of_ahead_nil ha] at h
    cases h
    exact .inl ⟨rfl, by simp⟩
  | cons length content =>
    rcases Nat.lt_or_ge content.length length.toNat with hlt | hge
    · rw [string_of_short ha hlt] at h
      cases h
      exact .inl ⟨rfl, by simp⟩
    · cases ht : Codec.ofUtf8? (content.take length.toNat) with
      | some s =>
        rw [string_of_text ha hge ht] at h
        cases h
      | none =>
        rw [string_of_no_text ha hge ht] at h
        cases h
        have hl : r.data.length - r.cursor = content.length + 1 := by
          rw [← List.length_drop, ha, List.length_cons]
        refine .inr ⟨rfl, length, ?_, rfl, ?_⟩
        · rw [← List.head?_drop, ha]
          rfl
        · change r.cursor + 1 + length.toNat ≤ r.data.length
          omega

end Failures

theorem perform_eq_error {op : Operation} {r r' : CodeReader} {failure : Failure}
    (h : op.perform r = .error failure r') :
    (op ≠ .string ∧ r' = r) ∨
      (op = .string ∧ ∃ cause, failure = .fault cause ∧ string r = .error cause r') := by
  cases op with
  | load code =>
    unfold Operation.perform at h
    simp only at h
    split at h <;> cases h
    exact .inl ⟨by simp, rfl⟩
  | seek position =>
    obtain ⟨cause, -, hs⟩ := settled_eq_error h
    exact .inl ⟨by simp, seek_eq_error hs⟩
  | byte =>
    obtain ⟨cause, -, hs⟩ := settled_eq_error h
    exact .inl ⟨by simp, byte_eq_error hs⟩
  | string =>
    obtain ⟨cause, hc, hs⟩ := settled_eq_error h
    exact .inr ⟨rfl, cause, hc, hs⟩
  | _ =>
    obtain ⟨cause, -, hs⟩ := settled_eq_error h
    exact .inl ⟨by simp, decode_eq_error hs⟩

/-- The failure of reading a string that is no text. -/
def NoText (r : CodeReader) (op : Operation) (failure : Failure) : Prop :=
  op = .string ∧ failure = .fault (.malformedValue r.cursor .invalidUtf8)

/-- A failed operation leaves the reader as it was, unless it was to read a string that is no text. -/
theorem eq_of_perform_error {op : Operation} {r r' : CodeReader} {failure : Failure}
    (h : op.perform r = .error failure r') (hn : ¬ r.NoText op failure) : r' = r := by
  rcases perform_eq_error h with ⟨-, hr⟩ | ⟨rfl, cause, rfl, hs⟩
  · exact hr
  · rcases string_eq_error hs with ⟨hr, -⟩ | ⟨rfl, -⟩
    · exact hr
    · exact (hn ⟨rfl, rfl⟩).elim

theorem moved_of_noText {op : Operation} {r r' : CodeReader} {failure : Failure}
    (h : op.perform r = .error failure r') (hn : r.NoText op failure) :
    ∃ length : UInt8, r.data[r.cursor]? = some length ∧ r' = r.movedTo (r.cursor + 1 + length.toNat) ∧
      r'.cursor ≤ r.data.length := by
  obtain ⟨rfl, rfl⟩ := hn
  obtain ⟨cause, hc, hs⟩ := settled_eq_error h
  cases hc
  rcases string_eq_error hs with ⟨-, hne⟩ | ⟨-, hmoved⟩
  · exact (hne rfl).elim
  · exact hmoved

section Sequences

variable {op : Operation} {ops : List Operation} {r r' : CodeReader} {failure : Failure}

theorem after_of_ok (h : op.perform r = .ok () r') : r.after (op :: ops) = r'.after ops := by
  simp only [after, h]

theorem after_of_error (h : op.perform r = .error failure r') : r.after (op :: ops) = r'.after ops := by
  simp only [after, h]

theorem succeeding_of_ok (h : op.perform r = .ok () r') : r.succeeding (op :: ops) = op :: r'.succeeding ops := by
  simp only [succeeding, h]

theorem succeeding_of_error (h : op.perform r = .error failure r') :
    r.succeeding (op :: ops) = r'.succeeding ops := by
  simp only [succeeding, h]

/-- No string among several operations turns out to be no text. -/
def AllText (r : CodeReader) (ops : List Operation) : Prop :=
  ∀ front op back failure r', ops = front ++ op :: back →
    op.perform (r.after front) = .error failure r' → ¬ (r.after front).NoText op failure

theorem AllText.tail (h : r.AllText (op :: ops)) (hr : ∀ front, r.after (op :: front) = r'.after front) :
    r'.AllText ops := by
  rintro front op' back failure q rfl hp
  rw [← hr] at hp ⊢
  exact h (op :: front) op' back failure q rfl hp

/-- Operations that fail may be left out. -/
theorem AllText.after_succeeding (h : r.AllText ops) : r.after (r.succeeding ops) = r.after ops := by
  induction ops generalizing r with
  | nil => rfl
  | cons op ops ih =>
    cases hp : op.perform r with
    | ok u r' =>
      rw [succeeding_of_ok hp, after_of_ok hp, after_of_ok hp]
      exact ih (h.tail fun front => after_of_ok hp)
    | error failure r' =>
      have hr := eq_of_perform_error hp (h [] op ops failure r' rfl hp)
      subst hr
      rw [succeeding_of_error hp, after_of_error hp]
      exact ih (h.tail fun front => after_of_error hp)

end Sequences

/-- Of all operations on a reader only one can fail and yet change it: reading a string that is no text, which leaves
the reader behind that string. Every other failure leaves the code, the capacity and the position as they were, so
that a sequence of operations without such a string comes to the same as without those of them that fail. -/
theorem failed_operation_leaves_reader (r : CodeReader) :
    (∀ op failure r', op.perform r = .error failure r' → ¬ r.NoText op failure → r' = r) ∧
    (∀ op failure r', op.perform r = .error failure r' → r.NoText op failure →
      ∃ length : UInt8, r.data[r.cursor]? = some length ∧ r' = r.movedTo (r.cursor + 1 + length.toNat) ∧
        r'.cursor ≤ r.data.length) ∧
    ∀ ops, r.AllText ops → r.after (r.succeeding ops) = r.after ops := by
  refine ⟨?_, ?_, ?_⟩
  · intro op failure r' h hn
    exact eq_of_perform_error h hn
  · intro op failure r' h hn
    exact moved_of_noText h hn
  · intro ops h
    exact h.after_succeeding

theorem perform_string_of_stray_bytes :
    Operation.string.perform ((empty 64).after [.load [2, 0xff, 0xfe, 1]]) =
      .error (.fault (.malformedValue 0 .invalidUtf8)) ⟨[2, 0xff, 0xfe, 1], 64, 3⟩ := by
  have hn : Codec.ofUtf8? [0xff, 0xfe] = none := by decide +kernel
  have hr : (empty 64).after [.load [2, 0xff, 0xfe, 1]] = ⟨[2, 0xff, 0xfe, 1], 64, 0⟩ := rfl
  have ha : ([2, 0xff, 0xfe, 1] : List UInt8).drop 0 = 2 :: [0xff, 0xfe, 1] := rfl
  have hs := string_of_no_text (r := ⟨[2, 0xff, 0xfe, 1], 64, 0⟩) ha (by decide) hn
  rw [hr]
  simp only [Operation.perform, settled, hs]
  rfl

/-- A number that is not all there leaves the reader where it is, a string that is no text does not. -/
theorem failed_operation_leaves_reader_of_stray_bytes :
    let r := (empty 64).after [.load [2, 0xff, 0xfe, 1]]
    (∃ failure r', Operation.long.perform r = .error failure r' ∧ r' = r) ∧
      (∃ failure r' length, Operation.string.perform r = .error failure r' ∧ r.data[r.cursor]? = some length ∧
        r' = r.movedTo (r.cursor + 1 + length.toNat)) ∧
      r.succeeding [.long, .byte, .seek 99] = [.byte] ∧ r.after [.byte] = r.after [.long, .byte, .seek 99] := by
  intro r
  obtain ⟨hkept, hmoved, hsequence⟩ := failed_operation_leaves_reader r
  have hlong : Operation.long.perform r = .error (.fault (.endOfStream 0)) r := rfl
  have hstring := perform_string_of_stray_bytes
  have hn : r.NoText .string (.fault (.malformedValue 0 .invalidUtf8)) := ⟨rfl, rfl⟩
  have hs : r.succeeding [.long, .byte, .seek 99] = [.byte] := rfl
  have hall : r.AllText [.long, .byte, .seek 99] := by
    rintro front op back failure r' he - ⟨rfl, -⟩
    have hmem : Operation.string ∈ [.long, .byte, .seek 99] := by
      rw [he]
      simp
    simp at hmem
  obtain ⟨length, hlength, hend, -⟩ := hmoved _ _ _ hstring hn
  refine ⟨⟨_, r, hlong, hkept _ _ _ hlong ?_⟩, ⟨_, _, length, hstring, hlength, hend⟩, hs, ?_⟩
  · rintro ⟨he, -⟩
    cases he
  · rw [← hs]
    exact hsequence _ hall

/-- A failed operation need not leave the reader as it was. -/
theorem reader_moved_by_stray_bytes :
    ¬ ∀ capacity ops op failure r', Operation.perform op ((empty capacity).after ops) = .error failure r' →
      r' = (empty capacity).after ops := by
  intro h
  have hr := h 64 _ _ _ _ perform_string_of_stray_bytes
  have hc : (3 : Nat) = 0 := congrArg CodeReader.cursor hr
  cases hc

end CodeReader

end RegisterMachine
