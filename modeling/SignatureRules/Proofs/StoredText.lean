import SignatureRules.Text.Cursor

/-! Texts as they stand in memory. A piece of text is an address and a size, and what is done with
pieces fails where a subtraction would go below zero or a cut would fall inside a character or
outside the text. -/

namespace SignatureRules

inductive Fault
  | belowZero
  | offBoundary
  | nothingFound
  | notJustRead
  | alreadyHeld
deriving DecidableEq, Repr

abbrev Attempt (α : Type) := Except Fault α

def subtract (a b : Nat) : Attempt Nat := if b ≤ a then .ok (a - b) else .error .belowZero

def cutAt (size : Nat) : List Char → Attempt (List Char × List Char)
  | [] => if size = 0 then .ok ([], []) else .error .offBoundary
  | c :: cs =>
    if size = 0 then .ok ([], c :: cs)
    else if size < c.utf8Size then .error .offBoundary
    else do
      let (front, back) ← cutAt (size - c.utf8Size) cs
      return (c :: front, back)

structure Memory where
  address : Nat
  text : List Char
deriving DecidableEq, Repr

structure Slice where
  address : Nat
  size : Nat
deriving DecidableEq, Repr

namespace Memory

def textOf (memory : Memory) (slice : Slice) : Attempt (List Char) := do
  let (_, back) ← cutAt (← subtract slice.address memory.address) memory.text
  let (front, _) ← cutAt slice.size back
  return front

def dropBytes (memory : Memory) (size : Nat) (slice : Slice) : Attempt Slice := do
  let _ ← cutAt size (← memory.textOf slice)
  return ⟨slice.address + size, slice.size - size⟩

def takeBytes (memory : Memory) (size : Nat) (slice : Slice) : Attempt Slice := do
  let _ ← cutAt size (← memory.textOf slice)
  return ⟨slice.address, size⟩

end Memory

namespace Attempt

variable {α β : Type} {attempt : Attempt α} {next : α → Attempt β} {b : β}

@[simp] theorem ok_bind (a : α) (next : α → Attempt β) : (Except.ok a >>= next) = next a := rfl

@[simp] theorem pure_eq_ok (a : α) : (pure a : Attempt α) = .ok a := rfl

theorem bind_eq_ok_iff : attempt >>= next = .ok b ↔ ∃ a, attempt = .ok a ∧ next a = .ok b := by
  cases attempt with
  | error fault =>
    constructor
    · intro h
      cases h
    · rintro ⟨a, h, -⟩
      cases h
  | ok a =>
    constructor
    · exact fun h => ⟨a, rfl, h⟩
    · rintro ⟨_, h, hnext⟩
      cases h
      exact hnext

end Attempt

@[simp] theorem subtract_add (a b : Nat) : subtract (a + b) a = .ok b := by
  rw [subtract, if_pos (Nat.le_add_right a b), Nat.add_sub_cancel_left]

@[simp] theorem cutAt_append (front back : List Char) :
    cutAt (byteSize front) (front ++ back) = .ok (front, back) := by
  induction front with
  | nil => cases back <;> rfl
  | cons c front ih =>
    have hpos := c.utf8Size_pos
    have hzero : byteSize (c :: front) ≠ 0 := by
      rw [byteSize_cons]
      omega
    have hle : ¬ byteSize (c :: front) < c.utf8Size := by
      rw [byteSize_cons]
      omega
    rw [List.cons_append, cutAt, if_neg hzero, if_neg hle, byteSize_cons, Nat.add_sub_cancel_left,
      ih]
    rfl

example : cutAt 1 ['é', 'a'] = .error .offBoundary := rfl

theorem byteSize_of_cutAt {size : Nat} {cs front back : List Char}
    (h : cutAt size cs = .ok (front, back)) : byteSize front = size := by
  induction cs generalizing size front with
  | nil =>
    rw [cutAt] at h
    split at h
    · cases h
      exact Eq.symm ‹_›
    · cases h
  | cons c cs ih =>
    rw [cutAt] at h
    split at h
    · cases h
      exact Eq.symm ‹_›
    split at h
    · cases h
    · obtain ⟨⟨front', back'⟩, hcut, hok⟩ := Attempt.bind_eq_ok_iff.mp h
      cases hok
      rw [byteSize_cons, ih hcut]
      omega

theorem Memory.byteSize_of_textOf {memory : Memory} {slice : Slice} {text : List Char}
    (h : memory.textOf slice = .ok text) : byteSize text = slice.size := by
  obtain ⟨_, -, h⟩ := Attempt.bind_eq_ok_iff.mp h
  obtain ⟨_, -, h⟩ := Attempt.bind_eq_ok_iff.mp h
  obtain ⟨⟨front, back⟩, hcut, h⟩ := Attempt.bind_eq_ok_iff.mp h
  cases h
  exact byteSize_of_cutAt hcut

namespace Position

variable {source w rest : List Char} {p : Position} {offset : Nat}

def In (source : List Char) (p : Position) : Prop :=
  ∃ front, source = front ++ p.rest ∧ p.offset = byteSize front

def slice (address : Nat) (p : Position) : Slice := ⟨address + p.offset, byteSize p.rest⟩

theorem size_slice_append (address : Nat) :
    (slice address ⟨offset, w ++ rest⟩).size = byteSize rest + byteSize w := by
  change byteSize (w ++ rest) = byteSize rest + byteSize w
  rw [byteSize_append, Nat.add_comm]

theorem in_start (source : List Char) : In source ⟨0, source⟩ := ⟨[], rfl, rfl⟩

theorem In.advance (h : In source ⟨offset, w ++ rest⟩) : In source ⟨offset + byteSize w, rest⟩ := by
  obtain ⟨front, hs, ho⟩ := h
  refine ⟨front ++ w, ?_, ?_⟩
  · rw [hs, List.append_assoc]
  · rw [byteSize_append, ← ho]

theorem In.tail {c : Char} {cs : List Char} (h : In source ⟨offset, c :: cs⟩) :
    In source ⟨offset + c.utf8Size, cs⟩ := h.advance (w := [c])

theorem In.textOf (h : In source ⟨offset, w ++ rest⟩) (address : Nat) :
    Memory.textOf ⟨address, source⟩ ⟨address + offset, byteSize w⟩ = .ok w := by
  obtain ⟨front, hs, ho⟩ := h
  simp only at hs ho
  simp [Memory.textOf, hs, ho]

theorem In.textOf_slice (h : p.In source) (address : Nat) :
    Memory.textOf ⟨address, source⟩ (p.slice address) = .ok p.rest := by
  have hp : In source ⟨p.offset, p.rest ++ []⟩ := by
    rw [List.append_nil]
    exact h
  exact hp.textOf address

theorem In.dropBytes (h : In source ⟨offset, w ++ rest⟩) (address : Nat) :
    Memory.dropBytes ⟨address, source⟩ (byteSize w) (slice address ⟨offset, w ++ rest⟩) =
      .ok (slice address ⟨offset + byteSize w, rest⟩) := by
  simp only [Memory.dropBytes, h.textOf_slice address, Attempt.ok_bind, cutAt_append]
  simp [slice, Nat.add_assoc]

theorem In.takeBytes (h : In source ⟨offset, w ++ rest⟩) (address : Nat) :
    Memory.takeBytes ⟨address, source⟩ (byteSize w) (slice address ⟨offset, w ++ rest⟩) =
      .ok ⟨address + offset, byteSize w⟩ := by
  simp only [Memory.takeBytes, h.textOf_slice address, Attempt.ok_bind, cutAt_append]
  rfl

end Position

end SignatureRules
