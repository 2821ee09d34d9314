import CloudRoster.Net.Frame
import Mathlib.Data.List.Induction
import Mathlib.Data.Nat.Digits.Defs

/-!
# Reading a stream that may go on

Reading a frame looks at four bytes, and then at as many as these announce; it stops before a length
that no frame may have. What it looked at decides the answer, so bytes that arrive later change an
answer only if the stream ended too early. The same then holds of the loop that reads frames until
one cannot be read: it always ends, and what arrives later is only added to what it read.

Nothing is assumed of the bytes: they may be no text, no JSON, or no frame.
-/

namespace CloudRoster.Frame

/-! ## The announced length -/

/-- The number that the four bytes at a position stand for, the highest byte first. -/
def announced (stream : ByteArray) (position : Nat) : Nat :=
  Nat.ofDigits 256
    ((stream.extract position (position + 4)).data.toList.reverse.map UInt8.toNat)

theorem bytesToLength_eq (bytes : ByteArray) :
    bytesToLength bytes = Nat.ofDigits 256 (bytes.data.toList.reverse.map UInt8.toNat) := by
  unfold bytesToLength
  rw [← Array.foldl_toList]
  induction bytes.data.toList using List.reverseRecOn with
  | nil => rfl
  | append_singleton bs b ih =>
    rw [List.foldl_append, ih, List.reverse_append]
    simp only [List.foldl_cons, List.foldl_nil, List.reverse_singleton, List.singleton_append,
      List.map_cons, Nat.ofDigits_cons]
    omega

/-- Bytes that have arrived stay as they are. -/
theorem extract_of_arrived {stream : ByteArray} {stop : Nat} (h : stop ≤ stream.size)
    (start : Nat) (more : ByteArray) :
    (stream ++ more).extract start stop = stream.extract start stop := by
  have hnone : more.extract (start - stream.size) 0 = .empty :=
    ByteArray.extract_eq_empty_iff.2 (by omega)
  rw [ByteArray.extract_append, Nat.sub_eq_zero_of_le h, hnone, ByteArray.append_empty]

theorem announced_append {stream : ByteArray} {position : Nat} (h : position + 4 ≤ stream.size)
    (more : ByteArray) : announced (stream ++ more) position = announced stream position := by
  unfold announced
  rw [extract_of_arrived h]

theorem announced_shift (before stream : ByteArray) (position : Nat) :
    announced (before ++ stream) (before.size + position) = announced stream position := by
  unfold announced
  rw [Nat.add_assoc, ByteArray.extract_append_size_add]

/-! ## Reading one frame -/

/-- What reading a frame at a position comes to. -/
inductive Reads (stream : ByteArray) (position : Nat) :
    Except (FrameError × Nat) (Frame × Nat) → Prop
  | endInLength (h : stream.size < position + 4) :
    Reads stream position (.error (.endInLength, stream.size))
  | tooLarge (h : position + 4 ≤ stream.size) (hlarge : maxBytes < announced stream position) :
    Reads stream position (.error (.tooLarge (announced stream position), position + 4))
  | endInBody (h : position + 4 ≤ stream.size) (hfits : announced stream position ≤ maxBytes)
    (hcut : stream.size < position + 4 + announced stream position) :
    Reads stream position (.error (.endInBody, stream.size))
  | malformed {fault : Json.Fault} (hfits : announced stream position ≤ maxBytes)
    (hwhole : position + 4 + announced stream position ≤ stream.size)
    (hbody : ofBody (stream.extract (position + 4) (position + 4 + announced stream position)) =
      .error (.malformed fault)) :
    Reads stream position (.error (.malformed fault, position + 4 + announced stream position))
  | frame {f : Frame} (hfits : announced stream position ≤ maxBytes)
    (hwhole : position + 4 + announced stream position ≤ stream.size)
    (hbody : ofBody (stream.extract (position + 4) (position + 4 + announced stream position)) =
      .ok f) :
    Reads stream position (.ok (f, position + 4 + announced stream position))

section Once

variable {stream : ByteArray} {position : Nat}
  {r : Except (FrameError × Nat) (Frame × Nat)}

theorem ofBody_cases (body : ByteArray) :
    (∃ f, ofBody body = .ok f) ∨ ∃ fault, ofBody body = .error (.malformed fault) := by
  unfold ofBody
  split
  · exact Or.inl ⟨_, rfl⟩
  · exact Or.inr ⟨_, rfl⟩

theorem readAt_of_length (h : position + 4 ≤ stream.size) :
    readAt stream position =
      if maxBytes < announced stream position then
        .error (.tooLarge (announced stream position), position + 4)
      else if stream.size < position + 4 + announced stream position then
        .error (.endInBody, stream.size)
      else match ofBody
          (stream.extract (position + 4) (position + 4 + announced stream position)) with
        | .ok f => .ok (f, position + 4 + announced stream position)
        | .error e => .error (e, position + 4 + announced stream position) := by
  unfold readAt
  simp only [lengthBytes, bytesToLength_eq, if_neg (Nat.not_lt.2 h), Nat.add_sub_cancel_left]
  rfl

/-- Each outcome is the answer under its conditions. -/
theorem Reads.readAt_eq (h : Reads stream position r) : readAt stream position = r := by
  cases h with
  | endInLength h => exact if_pos h
  | tooLarge h hlarge => rw [readAt_of_length h, if_pos hlarge]
  | endInBody h hfits hcut => rw [readAt_of_length h, if_neg (Nat.not_lt.2 hfits), if_pos hcut]
  | malformed hfits hwhole hbody | frame hfits hwhole hbody =>
    rw [readAt_of_length (by omega), if_neg (Nat.not_lt.2 hfits), if_neg (Nat.not_lt.2 hwhole),
      hbody]

/-- The conditions leave nothing out. -/
theorem reads_readAt (stream : ByteArray) (position : Nat) :
    Reads stream position (readAt stream position) := by
  have hreads : ∃ r, Reads stream position r := by
    by_cases h : stream.size < position + 4
    · exact ⟨_, .endInLength h⟩
    by_cases hlarge : maxBytes < announced stream position
    · exact ⟨_, .tooLarge (Nat.not_lt.1 h) hlarge⟩
    by_cases hcut : stream.size < position + 4 + announced stream position
    · exact ⟨_, .endInBody (Nat.not_lt.1 h) (Nat.not_lt.1 hlarge) hcut⟩
    rcases ofBody_cases
      (stream.extract (position + 4) (position + 4 + announced stream position)) with
      ⟨f, hbody⟩ | ⟨fault, hbody⟩
    · exact ⟨_, .frame (Nat.not_lt.1 hlarge) (Nat.not_lt.1 hcut) hbody⟩
    · exact ⟨_, .malformed (Nat.not_lt.1 hlarge) (Nat.not_lt.1 hcut) hbody⟩
  obtain ⟨r, hr⟩ := hreads
  rwa [hr.readAt_eq]

theorem readAt_eq_iff : readAt stream position = r ↔ Reads stream position r :=
  ⟨fun h => h ▸ reads_readAt stream position, Reads.readAt_eq⟩

/-- An empty body is looked at and is no frame; of one byte more than a frame may have none is. -/
example : readAt ⟨#[0, 0, 0, 0]⟩ 0 = .error (.malformed .endInValue, 4) ∧
    readAt ⟨#[1, 0, 0, 1, 123]⟩ 0 = .error (.tooLarge 16777217, 4) := ⟨by cbv, rfl⟩

/-- Whether reading a frame missed bytes that may still arrive. -/
def missesBytes : Except (FrameError × Nat) (Frame × Nat) → Bool
  | .ok _ => false
  | .error (e, _) => e.isEnd

/-- An answer that missed no bytes stays the answer when more arrive. -/
theorem Reads.append (h : Reads stream position r) (hr : missesBytes r = false)
    (more : ByteArray) : Reads (stream ++ more) position r := by
  have hsize : stream.size ≤ (stream ++ more).size := by
    rw [ByteArray.size_append]
    omega
  cases h with
  | endInLength | endInBody => cases hr
  | tooLarge h hlarge =>
    have hsame := announced_append h more
    rw [← hsame] at hlarge ⊢
    exact .tooLarge (by omega) hlarge
  | malformed hfits hwhole hbody =>
    have hsame := announced_append (show position + 4 ≤ stream.size by omega) more
    rw [← extract_of_arrived hwhole _ more] at hbody
    rw [← hsame] at hfits hwhole hbody ⊢
    exact .malformed hfits (by omega) hbody
  | frame hfits hwhole hbody =>
    have hsame := announced_append (show position + 4 ≤ stream.size by omega) more
    rw [← extract_of_arrived hwhole _ more] at hbody
    rw [← hsame] at hfits hwhole hbody ⊢
    exact .frame hfits (by omega) hbody

/-- An answer whose positions are counted from further in front. -/
def shifted (n : Nat) :
    Except (FrameError × Nat) (Frame × Nat) → Except (FrameError × Nat) (Frame × Nat)
  | .ok (f, next) => .ok (f, n + next)
  | .error (e, next) => .error (e, n + next)

/-- What stands in front of a position plays no part. -/
theorem Reads.shift (h : Reads stream position r) (before : ByteArray) :
    Reads (before ++ stream) (before.size + position) (shifted before.size r) := by
  have hsize : (before ++ stream).size = before.size + stream.size := ByteArray.size_append
  have hsame := announced_shift before stream position
  have hextract (n : Nat) : (before ++ stream).extract (before.size + position + 4)
      (before.size + position + 4 + n) = stream.extract (position + 4) (position + 4 + n) := by
    rw [Nat.add_assoc before.size, Nat.add_assoc before.size, ByteArray.extract_append_size_add]
  cases h with
  | endInLength h =>
    have hreads : Reads (before ++ stream) (before.size + position) _ := .endInLength (by omega)
    rwa [hsize] at hreads
  | tooLarge h hlarge =>
    have hreads : Reads (before ++ stream) (before.size + position) _ :=
      .tooLarge (by omega) (by omega)
    rwa [hsame] at hreads
  | endInBody h hfits hcut =>
    have hreads : Reads (before ++ stream) (before.size + position) _ :=
      .endInBody (by omega) (by omega) (by omega)
    rwa [hsize] at hreads
  | malformed hfits hwhole hbody =>
    rw [← hextract, ← hsame] at hbody
    have hreads := Reads.malformed (by omega) (by omega) hbody
    rwa [hsame, Nat.add_assoc before.size, Nat.add_assoc before.size] at hreads
  | frame hfits hwhole hbody =>
    rw [← hextract, ← hsame] at hbody
    have hreads := Reads.frame (by omega) (by omega) hbody
    rwa [hsame, Nat.add_assoc before.size, Nat.add_assoc before.size] at hreads

end Once

/-! ## Reading to the end -/

section Loop

variable {stream : ByteArray} {position next : Nat}

theorem readAll_of_error {e : FrameError} (h : readAt stream position = .error (e, next)) :
    readAll stream position = ⟨[], e, next⟩ := by
  rw [readAll]
  split
  · rename_i e' next' h'
    cases h.symm.trans h'
    rfl
  · rename_i f next' h'
    cases h.symm.trans h'

theorem readAll_of_ok {f : Frame} (h : readAt stream position = .ok (f, next)) :
    readAll stream position =
      { readAll stream next with frames := f :: (readAll stream next).frames } := by
  rw [readAll]
  split
  · rename_i e' next' h'
    cases h.symm.trans h'
  · rename_i f' next' h'
    cases h.symm.trans h'
    rfl

/-- The loop that reads frames from a position on until one cannot be read: each frame moves the
position behind the bytes that were taken for it, and the first error ends the loop. -/
inductive Loop (stream : ByteArray) : Nat → Reading → Prop
  | stop {position next : Nat} {e : FrameError} (h : readAt stream position = .error (e, next)) :
    Loop stream position ⟨[], e, next⟩
  | step {position next : Nat} {f : Frame} {r : Reading}
    (h : readAt stream position = .ok (f, next))
    (hrest : Loop stream next r) : Loop stream position { r with frames := f :: r.frames }

/-- The loop ends. -/
theorem loop_readAll (stream : ByteArray) (position : Nat) :
    Loop stream position (readAll stream position) := by
  induction position using readAll.induct stream with
  | case1 position e next h =>
    rw [readAll_of_error h]
    exact .stop h
  | case2 position f next h ih =>
    rw [readAll_of_ok h]
    exact .step h ih

/-- The loop can end in one way only. -/
theorem Loop.eq {r : Reading} (h : Loop stream position r) : r = readAll stream position := by
  induction h with
  | stop h => rw [readAll_of_error h]
  | step h hrest ih => rw [readAll_of_ok h, ih]

/-- A reading that missed no bytes stays as it is when more arrive. -/
theorem Loop.append {r : Reading} (h : Loop stream position r) (hr : r.ending.isEnd = false)
    (more : ByteArray) : Loop (stream ++ more) position r := by
  induction h with
  | stop h => exact .stop ((readAt_eq_iff.1 h).append hr more).readAt_eq
  | step h hrest ih => exact .step ((readAt_eq_iff.1 h).append rfl more).readAt_eq (ih hr)

/-- The frames that were read are read also when more bytes arrive. -/
theorem Loop.frames_prefix {r : Reading} (h : Loop stream position r) (more : ByteArray) :
    r.frames <+: (readAll (stream ++ more) position).frames := by
  induction h with
  | stop h => exact List.nil_prefix
  | step h hrest ih =>
    rw [readAll_of_ok ((readAt_eq_iff.1 h).append rfl more).readAt_eq]
    exact (List.prefix_cons_inj _).2 ih

/-- What stands in front of a position plays no part for the loop either. -/
theorem Loop.shift {r : Reading} (h : Loop stream position r) (before : ByteArray) :
    Loop (before ++ stream) (before.size + position)
      { r with position := before.size + r.position } := by
  induction h with
  | stop h => exact .stop ((readAt_eq_iff.1 h).shift before).readAt_eq
  | step h hrest ih => exact .step ((readAt_eq_iff.1 h).shift before).readAt_eq ih

end Loop

/-! ## Bytes of any origin -/

/-- Reading a stream frame by frame always ends, and in one way only. If it ended because of what
it read, the same is read, with the same end at the same position, whatever arrives behind the
stream; if it ended because bytes were missing, the frames it read are the first of those that are
read when more has arrived. At every position the answer, and the position behind it, are those that
`Reads` gives to the bytes there: a frame and a body that is none take the announced number of bytes
behind their length, a length that is too large takes four bytes, and only a stream that is too
short for its length or its body is read to its end. -/
theorem reading_outlasts_arrivals (stream more : ByteArray) :
    ∃ r s : Reading, Loop stream 0 r ∧ (∀ r', Loop stream 0 r' → r' = r) ∧
      Loop (stream ++ more) 0 s ∧ (if r.ending.isEnd then r.frames <+: s.frames else s = r) ∧
      ∀ position, Reads stream position (readAt stream position) := by
  have hread := loop_readAll stream 0
  refine ⟨readAll stream 0, readAll (stream ++ more) 0, hread, fun r' h => h.eq,
    loop_readAll _ 0, ?_, reads_readAt stream⟩
  split
  · exact hread.frames_prefix more
  · rename_i hend
    exact ((hread.append (Bool.eq_false_iff.2 hend) more).eq).symm

end CloudRoster.Frame
