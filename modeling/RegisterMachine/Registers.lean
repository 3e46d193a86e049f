import RegisterMachine.Fault

namespace RegisterMachine

/-- The registers. One that was never written holds nothing. -/
structure Registers where
  slots : Array (Option Value)
  deriving DecidableEq, Repr

namespace Registers

/-- Registers that were never written. -/
def empty (count : Nat) : Registers := ⟨Array.replicate count none⟩

/-- The number of registers. -/
def count (r : Registers) : Nat := r.slots.size

/-- The value in a register. -/
def get (r : Registers) (index : UInt8) : Except Fault Value :=
  match r.slots[index.toNat]? with
  | none => .error (.indexOutOfRange index r.count)
  | some none => .error (.uninitializedRegister index)
  | some (some v) => .ok v

/-- Writes a register. -/
def set (r : Registers) (index : UInt8) (v : Value) : Except Fault Registers :=
  if index.toNat < r.count then .ok ⟨r.slots.setIfInBounds index.toNat (some v)⟩
  else .error (.indexOutOfRange index r.count)

/-- The registers that hold a value, by number. -/
def initialized (r : Registers) : List (Nat × Value) :=
  r.slots.toList.zipIdx.filterMap fun (slot, i) => slot.map fun v => (i, v)

/-- Writing keeps the number of registers. -/
theorem count_set {r r' : Registers} {index : UInt8} {v : Value}
    (h : r.set index v = .ok r') : r'.count = r.count := by
  unfold set at h
  split at h
  next => cases h; simp [count]
  next => cases h

theorem get_set_self {r r' : Registers} {index : UInt8} {v : Value}
    (h : r.set index v = .ok r') : r'.get index = .ok v := by
  unfold set at h
  split at h
  next bound =>
    cases h
    simp only [count] at bound
    simp [get, bound]
  next => cases h

end Registers

/-- Where the markers passed so far stand: for each location the position behind its latest
marker. -/
structure Locations where
  entries : List (UInt8 × Nat)
  deriving DecidableEq, Repr

namespace Locations

/-- No marker has been passed. -/
def empty : Locations := ⟨[]⟩

/-- The position to go on from after a jump to a location. -/
def find? (l : Locations) (id : UInt8) : Option Nat := l.entries.lookup id

/-- Notes a position for a location in place of an earlier one. -/
def insert (l : Locations) (id : UInt8) (position : Nat) : Locations :=
  ⟨(id, position) :: l.entries.filter fun entry => entry.1 != id⟩

@[simp]
theorem find?_insert_self (l : Locations) (id : UInt8) (position : Nat) :
    (l.insert id position).find? id = some position := by
  simp [find?, insert]

theorem find?_insert_of_ne (l : Locations) {id other : UInt8} (position : Nat)
    (ne : other ≠ id) : (l.insert id position).find? other = l.find? other := by
  have apart : (other == id) = false := by simpa using ne
  simp only [find?, insert, List.lookup_cons, apart]
  induction l.entries with
  | nil => rfl
  | cons entry entries ih =>
    obtain ⟨key, place⟩ := entry
    by_cases same : key = id
    · subst same
      simp [List.lookup_cons, apart, ih]
    · simp [same, List.lookup_cons, ih]

end Locations

end RegisterMachine
