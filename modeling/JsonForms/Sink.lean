/-!
# Output sinks

A sink keeps what is written to it. It may take only so many bytes in all; of a
write that is longer than what is left it takes what is left, and the write
fails.
-/

namespace JsonForms

namespace Sink

/-- How a sink without room refuses: by an error of its own, or by taking no byte. -/
inductive Refusal where
  | full
  | takesNothing
deriving DecidableEq, Repr

/-- What is said of a refused write. -/
def Refusal.message : Refusal → String
  | .full => "sink full"
  | .takesNothing => "failed to write whole buffer"

end Sink

/-- A sink: the bytes written so far, how many more it takes if that is
limited, and how it refuses the others. -/
structure Sink where
  written : ByteArray
  room : Option Nat
  refusal : Sink.Refusal

namespace Sink

/-- An empty sink that takes everything. -/
def unlimited : Sink := ⟨.empty, none, .full⟩

/-- An empty sink that takes so many bytes in all. -/
def limited (room : Nat) (refusal : Refusal) : Sink := ⟨.empty, some room, refusal⟩

instance : Inhabited Sink := ⟨unlimited⟩

/-- Writes bytes: what becomes of the write, and the sink afterwards. -/
def write (sink : Sink) (bytes : ByteArray) : Except Refusal Unit × Sink :=
  match sink with
  | ⟨written, none, refusal⟩ => (.ok (), ⟨written ++ bytes, none, refusal⟩)
  | ⟨written, some room, refusal⟩ =>
      if bytes.size ≤ room then
        (.ok (), ⟨written ++ bytes, some (room - bytes.size), refusal⟩)
      else (.error refusal, ⟨written ++ bytes.extract 0 room, some 0, refusal⟩)

/-- Writes pieces one after another, up to the first one that is refused. -/
def writeEach (sink : Sink) : List String → Except Refusal Unit × Sink
  | [] => (.ok (), sink)
  | piece :: following =>
      match sink.write piece.toByteArray with
      | (.ok (), after) => after.writeEach following
      | (.error refusal, after) => (.error refusal, after)

/-- Whether so many bytes can still be taken. -/
def fits (sink : Sink) (size : Nat) : Prop := ∀ room, sink.room = some room → size ≤ room

/-- A write that fits is kept whole. -/
theorem write_of_fits {sink : Sink} {bytes : ByteArray} (enough : sink.fits bytes.size) :
    (sink.write bytes).1 = .ok () ∧ (sink.write bytes).2.written = sink.written ++ bytes := by
  rcases sink with ⟨written, _ | room, refusal⟩
  · exact ⟨rfl, rfl⟩
  · have bounded : bytes.size ≤ room := enough room rfl
    simp [write, bounded]

/-- Only a write that fits is taken. -/
theorem fits_of_write {sink after : Sink} {bytes : ByteArray}
    (taken : sink.write bytes = (.ok (), after)) : sink.fits bytes.size := by
  rcases sink with ⟨written, _ | room, refusal⟩
  · exact nofun
  · rw [write] at taken
    split at taken
    next bounded => rintro _ ⟨⟩; exact bounded
    · cases taken

/-- A sink that refused a write has no room left, and refuses in its own way. -/
theorem refused_of_write {sink after : Sink} {bytes : ByteArray} {refusal : Refusal}
    (refused : sink.write bytes = (.error refusal, after)) :
    after.room = some 0 ∧ after.refusal = refusal := by
  rcases sink with ⟨written, _ | room, own⟩
  · cases refused
  · rw [write] at refused
    split at refused <;> cases refused
    exact ⟨rfl, rfl⟩

/-- The first bytes of bytes that are no more than asked for. -/
theorem extract_of_size_le {bytes : ByteArray} {count : Nat} (fits : bytes.size ≤ count) :
    bytes.extract 0 count = bytes := by
  rw [← Nat.max_eq_left fits, ByteArray.extract_zero_max_size]

/-- The first bytes of two parts reach into the second one when the first one is shorter. -/
theorem extract_append_of_size_le {front back : ByteArray} {count : Nat}
    (fits : front.size ≤ count) :
    (front ++ back).extract 0 count = front ++ back.extract 0 (count - front.size) := by
  rw [ByteArray.extract_append, extract_of_size_le fits, Nat.zero_sub]

/-- The first bytes of two parts are in the first one when this is long enough. -/
theorem extract_append_of_le_size {front back : ByteArray} {count : Nat}
    (within : count ≤ front.size) :
    (front ++ back).extract 0 count = front.extract 0 count := by
  rw [ByteArray.extract_append, Nat.sub_eq_zero_of_le within, Nat.zero_sub,
    ByteArray.extract_same, ByteArray.append_empty]

/-- Two writes, the second of which is only made when the first one is taken,
are one write of their bytes. -/
theorem write_append (sink : Sink) (front back : ByteArray) :
    sink.write (front ++ back) =
      match sink.write front with
      | (.ok (), after) => after.write back
      | (.error refusal, after) => (.error refusal, after) := by
  rcases sink with ⟨written, _ | room, refusal⟩
  · simp only [write, ByteArray.append_assoc]
  by_cases frontFits : front.size ≤ room
  · by_cases backFits : back.size ≤ room - front.size
    · have fits : front.size + back.size ≤ room := by omega
      simp [write, frontFits, backFits, fits, ByteArray.append_assoc, Nat.sub_sub]
    · have refused : ¬ front.size + back.size ≤ room := by omega
      have kept := @extract_append_of_size_le _ back _ frontFits
      simp [write, frontFits, backFits, refused, kept, ByteArray.append_assoc]
  · have refused : ¬ front.size + back.size ≤ room := by omega
    have kept := @extract_append_of_le_size _ back _ (Nat.le_of_not_le frontFits)
    simp [write, frontFits, refused, kept]

/-- Writing no bytes changes nothing and is never refused. -/
@[simp]
theorem write_empty (sink : Sink) : sink.write .empty = (.ok (), sink) := by
  rcases sink with ⟨written, _ | room, refusal⟩ <;> simp [write]

/-- Bytes that fit as a whole fit as two parts, one written after the other. -/
theorem fits_append {sink : Sink} {front back : ByteArray}
    (enough : sink.fits (front ++ back).size) :
    sink.fits front.size ∧ (sink.write front).2.fits back.size ∧
      ((sink.write front).2.write back).2 = (sink.write (front ++ back)).2 := by
  rw [ByteArray.size_append] at enough
  have frontFits : sink.fits front.size := fun room limited =>
    Nat.le_of_add_right_le (enough room limited)
  have taken := (write_of_fits frontFits).1
  refine ⟨frontFits, ?_, ?_⟩
  · rcases sink with ⟨written, _ | room, refusal⟩
    · exact nofun
    · have bounded : front.size ≤ room := frontFits room rfl
      rintro left limited
      simp only [write, if_pos bounded, Option.some.injEq] at limited
      have whole := enough room rfl
      omega
  · rw [write_append]
    rcases found : sink.write front with ⟨_ | _, after⟩
    · rw [found] at taken
      cases taken
    · rfl

/-- Into which pieces a text is cut makes no difference to a sink. -/
theorem writeEach_eq_write (sink : Sink) (pieces : List String) :
    sink.writeEach pieces = sink.write (String.join pieces).toByteArray := by
  induction pieces generalizing sink with
  | nil => simp [writeEach]
  | cons piece following inductionHypothesis =>
      rw [String.join_cons, String.toByteArray_append, write_append, writeEach]
      split
      · exact inductionHypothesis _
      · rfl

end Sink

end JsonForms
