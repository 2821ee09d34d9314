import CloudRoster.Proofs.Net.Reading
import CloudRoster.Proofs.Net.RoundTrip

/-!
# Frames that are written one after another

A stream that frames are written to holds those of them that are not too long, each behind its
length, and nothing of the others. Reading takes off the front what was written for one frame, so
the frames come back one after another, and what stands behind them is read as if it stood alone.
A stream that was cut gives the frames that lie in front of the cut and then ends too early: a part
of a frame is never taken for a frame.
-/

namespace CloudRoster.Frame

/-! ## What stands on a stream -/

/-- Whether a frame is not too long. -/
def fits (f : Frame) : Bool := decide (f.body.size ≤ maxBytes)

/-- A frame as it stands on a stream. -/
def written (f : Frame) : ByteArray := lengthToBytes f.body.size ++ f.body

/-- The number of bytes that frames take on a stream. -/
def span (fs : List Frame) : Nat := (fs.map fun f => 4 + f.body.size).sum

/-- Frames as they stand behind each other on a stream. -/
def joined : List Frame → ByteArray
  | [] => .empty
  | f :: fs => f.written ++ joined fs

theorem size_written (f : Frame) : f.written.size = 4 + f.body.size := ByteArray.size_append

theorem span_cons (f : Frame) (fs : List Frame) :
    span (f :: fs) = 4 + f.body.size + span fs := by
  simp [span]

theorem span_append (fs gs : List Frame) : span (fs ++ gs) = span fs + span gs := by
  simp [span]

theorem size_joined (fs : List Frame) : (joined fs).size = span fs := by
  induction fs with
  | nil => rfl
  | cons f fs ih =>
    rw [joined, ByteArray.size_append, size_written, ih, span_cons]

theorem joined_append (fs gs : List Frame) : joined (fs ++ gs) = joined fs ++ joined gs := by
  induction fs with
  | nil => exact ByteArray.empty_append.symm
  | cons f fs ih => rw [List.cons_append, joined, joined, ih, ByteArray.append_assoc]

/-- Four bytes hold every length below 2 ^ 32. -/
theorem bytesToLength_lengthToBytes {n : Nat} (h : n < 4294967296) :
    bytesToLength (lengthToBytes n) = n := by
  show (((0 * 256 + (UInt8.ofNat (n / 16777216)).toNat) * 256 +
    (UInt8.ofNat (n / 65536)).toNat) * 256 + (UInt8.ofNat (n / 256)).toNat) * 256 +
    (UInt8.ofNat n).toNat = n
  simp only [UInt8.toNat_ofNat']
  omega

/-! ## Writing -/

theorem toBytes_eq (f : Frame) :
    f.toBytes = if f.fits then .ok f.written else .error (.tooLarge f.body.size) := by
  unfold toBytes fits
  by_cases h : f.body.size ≤ maxBytes
  · simp only [h, decide_true, if_true]
    exact if_neg (Nat.not_lt.2 h)
  · simp only [h, decide_false]
    exact if_pos (Nat.not_le.1 h)

/-- What writing a frame tells: the number of bytes added, or why it was refused. -/
def writeResult (f : Frame) : Except FrameError Nat :=
  if f.body.size ≤ maxBytes then .ok (4 + f.body.size) else .error (.tooLarge f.body.size)

theorem writeAll_eq (stream : ByteArray) (fs : List Frame) :
    writeAll stream fs = (stream ++ joined (fs.filter fits), fs.map writeResult) := by
  induction fs generalizing stream with
  | nil => exact Prod.ext ByteArray.append_empty.symm rfl
  | cons f fs ih =>
    have hwrite : write stream f =
        (stream ++ joined ([f].filter fits), writeResult f) := by
      unfold write writeResult
      rw [toBytes_eq]
      by_cases h : f.body.size ≤ maxBytes
      · have hfits : f.fits = true := decide_eq_true h
        simp [hfits, h, joined, size_written]
      · have hfits : f.fits = false := decide_eq_false h
        simp [hfits, h, joined]
    have hsplit : (f :: fs).filter fits = [f].filter fits ++ fs.filter fits :=
      List.filter_append [f] fs
    rw [writeAll, hwrite]
    simp only [ih, hsplit, joined_append, ByteArray.append_assoc, List.map_cons]

/-! ## Reading -/

section Reading

variable {f : Frame}

/-- In front of a frame stands the number of its bytes. -/
theorem announced_written (h : f.fits = true) (rest : ByteArray) :
    announced (f.written ++ rest) 0 = f.body.size := by
  have hsize : f.body.size ≤ 16777216 := of_decide_eq_true h
  have hlength : f.written.extract 0 4 = lengthToBytes f.body.size :=
    ByteArray.extract_append_eq_left rfl
  have hstart : 0 + 4 ≤ f.written.size := by rw [size_written]; omega
  rw [announced_append hstart]
  unfold announced
  rw [Nat.zero_add, hlength, ← bytesToLength_eq, bytesToLength_lengthToBytes (by omega)]

/-- Behind its length stand its bytes. -/
theorem extract_written (f : Frame) (rest : ByteArray) :
    (f.written ++ rest).extract 4 (4 + f.body.size) = f.body := by
  rw [extract_of_arrived (Nat.le_of_eq (size_written f).symm)]
  exact ByteArray.extract_append_eq_right rfl rfl

/-- A frame is taken off the front of a stream, with its own bytes. -/
theorem readAt_written (h : f.fits = true) (rest : ByteArray) :
    readAt (f.written ++ rest) 0 = .ok (f, 4 + f.body.size) := by
  have hannounced := announced_written h rest
  have hfits : f.body.size ≤ maxBytes := of_decide_eq_true h
  have hsize : (f.written ++ rest).size = 4 + f.body.size + rest.size := by
    rw [ByteArray.size_append, size_written]
  have hbody : ofBody ((f.written ++ rest).extract (0 + 4)
      (0 + 4 + announced (f.written ++ rest) 0)) = .ok f := by
    rw [hannounced, Nat.zero_add, extract_written, ofBody_body]
  have hreads := Reads.frame (by omega) (by omega) hbody
  rw [hreads.readAt_eq, hannounced, Nat.zero_add]

/-- A frame in front of a stream is read first, and then the stream as if it stood alone. -/
theorem Loop.behind (h : f.fits = true) {rest : ByteArray} {r : Reading} (hrest : Loop rest 0 r) :
    Loop (f.written ++ rest) 0
      { r with frames := f :: r.frames, position := 4 + f.body.size + r.position } := by
  have hlater := hrest.shift f.written
  rw [Nat.add_zero, size_written] at hlater
  exact .step (readAt_written h rest) hlater

/-- Frames are read one after another, and what stands behind them as if it stood alone. -/
theorem loop_joined {fs : List Frame} (h : ∀ f ∈ fs, f.fits = true) {rest : ByteArray}
    {r : Reading} (hrest : Loop rest 0 r) :
    Loop (joined fs ++ rest) 0
      { r with frames := fs ++ r.frames, position := span fs + r.position } := by
  induction fs with
  | nil =>
    have hspan : span [] + r.position = r.position := Nat.zero_add _
    rw [joined, ByteArray.empty_append, hspan]
    exact hrest
  | cons f fs ih =>
    have hlater := (ih fun g hg => h g (List.mem_cons_of_mem _ hg)).behind (h f List.mem_cons_self)
    rw [joined, ByteArray.append_assoc, span_cons, Nat.add_assoc]
    exact hlater

/-! A frame behind others stands where they end. -/

theorem announced_joined (h : f.fits = true) (before : List Frame) (rest : ByteArray) :
    announced (joined before ++ (f.written ++ rest)) (span before) = f.body.size := by
  have hshift := announced_shift (joined before) (f.written ++ rest) 0
  rw [Nat.add_zero, size_joined] at hshift
  rw [hshift, announced_written h]

theorem extract_joined (f : Frame) (before : List Frame) (rest : ByteArray) :
    (joined before ++ (f.written ++ rest)).extract (span before + 4)
      (span before + (4 + f.body.size)) = f.body := by
  rw [← size_joined, ByteArray.extract_append_size_add, extract_written]

theorem readAt_joined (h : f.fits = true) (before : List Frame) (rest : ByteArray) :
    readAt (joined before ++ (f.written ++ rest)) (span before) =
      .ok (f, span before + (4 + f.body.size)) := by
  have hreads := (readAt_eq_iff.1 (readAt_written h rest)).shift (joined before)
  rw [Nat.add_zero, size_joined] at hreads
  exact hreads.readAt_eq

/-- A stream that was cut inside a frame ends too early at once. -/
theorem loop_cut (h : f.fits = true) (rest : ByteArray) {cut : Nat}
    (hcut : cut < 4 + f.body.size) :
    ∃ e : FrameError, e.isEnd = true ∧
      Loop ((f.written ++ rest).extract 0 cut) 0 ⟨[], e, cut⟩ := by
  have hsize : ((f.written ++ rest).extract 0 cut).size = cut := by
    rw [ByteArray.size_extract, ByteArray.size_append, size_written]
    omega
  by_cases hlength : cut < 4
  · have hreads : Reads ((f.written ++ rest).extract 0 cut) 0 _ := .endInLength (by omega)
    rw [hsize] at hreads
    exact ⟨.endInLength, rfl, .stop hreads.readAt_eq⟩
  · -- the length has arrived, so it is the one that was written
    have hwhole : (f.written ++ rest).extract 0 cut ++
        (f.written ++ rest).extract cut (f.written ++ rest).size = f.written ++ rest := by
      have hle : cut ≤ (f.written ++ rest).size := by
        rw [ByteArray.size_append, size_written]
        omega
      rw [← ByteArray.extract_eq_extract_append_extract cut (Nat.zero_le _) hle,
        ByteArray.extract_zero_size]
    have hannounced : announced ((f.written ++ rest).extract 0 cut) 0 = f.body.size := by
      rw [← announced_append (by omega), hwhole, announced_written h]
    have hfits : f.body.size ≤ maxBytes := of_decide_eq_true h
    have hreads : Reads ((f.written ++ rest).extract 0 cut) 0 _ :=
      .endInBody (by omega) (by omega) (by omega)
    rw [hsize] at hreads
    exact ⟨.endInBody, rfl, .stop hreads.readAt_eq⟩

/-- A stream that was cut gives the frames in front of the cut, and then ends too early. -/
theorem loop_truncated {fs : List Frame} (h : ∀ f ∈ fs, f.fits = true) (cut : Nat) :
    ∃ (n : Nat) (e : FrameError), e.isEnd = true ∧ span (fs.take n) ≤ cut ∧
      (n = fs.length ∨ cut < span (fs.take (n + 1))) ∧
      Loop ((joined fs).extract 0 cut) 0 ⟨fs.take n, e, min cut (span fs)⟩ := by
  induction fs generalizing cut with
  | nil =>
    refine ⟨0, .endInLength, rfl, Nat.zero_le _, Or.inl rfl, ?_⟩
    have hempty : (joined []).extract 0 cut = .empty :=
      ByteArray.extract_eq_empty_iff.2 (Nat.min_le_right _ _)
    have hmin : min cut (span []) = ByteArray.empty.size := Nat.min_zero cut
    have hreads : Reads .empty 0 _ := .endInLength (by decide)
    rw [hempty, hmin]
    exact .stop hreads.readAt_eq
  | cons f fs ih =>
    have hf := h f List.mem_cons_self
    rw [joined, span_cons]
    by_cases hcut : cut < 4 + f.body.size
    · obtain ⟨e, he, hloop⟩ := loop_cut hf (joined fs) hcut
      have hmin : min cut (4 + f.body.size + span fs) = cut := by omega
      have hfirst : span ((f :: fs).take 1) = 4 + f.body.size := span_cons f []
      refine ⟨0, e, he, Nat.zero_le _, Or.inr ?_, ?_⟩
      · rw [Nat.zero_add, hfirst]
        exact hcut
      · rw [hmin]
        exact hloop
    · -- the first frame is there as a whole, and the cut falls into what stands behind it
      obtain ⟨n, e, he, hbefore, hnext, hloop⟩ :=
        ih (fun g hg => h g (List.mem_cons_of_mem _ hg)) (cut - (4 + f.body.size))
      have hsplit : (f.written ++ joined fs).extract 0 cut =
          f.written ++ (joined fs).extract 0 (cut - (4 + f.body.size)) := by
        have hmax : max cut f.written.size = cut := by
          rw [size_written]
          omega
        have hall : f.written.extract 0 cut = f.written := by
          rw [← hmax, ByteArray.extract_zero_max_size]
        rw [ByteArray.extract_append, hall, size_written, Nat.zero_sub]
      have hmin : min cut (4 + f.body.size + span fs) =
          4 + f.body.size + min (cut - (4 + f.body.size)) (span fs) := by omega
      refine ⟨n + 1, e, he, ?_, ?_, ?_⟩
      · rw [List.take_succ_cons, span_cons]
        omega
      · rw [List.take_succ_cons, span_cons, List.length_cons]
        omega
      · rw [hsplit, hmin, List.take_succ_cons]
        exact hloop.behind hf

end Reading

/-! ## Frame streams -/

/-- Frames are written to an empty stream one after another. One that is too long is refused and
leaves no byte; each of the others stands behind those before it, its number of bytes in four bytes
with the highest first and then its bytes. Whatever stands behind them, each is read at its place
and takes its own bytes, and the loop reads all of them and goes on with the rest. Of the stream cut
anywhere it reads those that end before the cut, and then misses bytes. -/
theorem streams_read_back (fs : List Frame) :
    let stream := (writeAll .empty fs).1
    let accepted := fs.filter fun f => decide (f.body.size ≤ maxBytes)
    (writeAll .empty fs).2 = fs.map (fun f =>
      if f.body.size ≤ maxBytes then .ok (4 + f.body.size) else .error (.tooLarge f.body.size)) ∧
    stream.size = span accepted ∧
    (∀ i : Fin accepted.length,
      let start := span (accepted.take i)
      let next := start + (4 + accepted[i].body.size)
      announced stream start = accepted[i].body.size ∧
      stream.extract (start + 4) next = accepted[i].body ∧
      next = span (accepted.take (i + 1)) ∧
      ∀ rest, readAt (stream ++ rest) start = .ok (accepted[i], next)) ∧
    (∀ rest, readAll (stream ++ rest) 0 =
      { readAll rest 0 with
        frames := accepted ++ (readAll rest 0).frames
        position := stream.size + (readAll rest 0).position }) ∧
    ∀ cut, ∃ (n : Nat) (e : FrameError), e.isEnd = true ∧ span (accepted.take n) ≤ cut ∧
      (n = accepted.length ∨ cut < span (accepted.take (n + 1))) ∧
      readAll (stream.extract 0 cut) 0 = ⟨accepted.take n, e, min cut stream.size⟩ := by
  have hwritten : writeAll .empty fs = (joined (fs.filter fits), fs.map writeResult) := by
    rw [writeAll_eq, ByteArray.empty_append]
  intro stream accepted
  have hstream : stream = joined accepted := congrArg Prod.fst hwritten
  have hfits : ∀ f ∈ accepted, f.fits = true := fun f hf => (List.mem_filter.1 hf).2
  have hsize : stream.size = span accepted := by rw [hstream, size_joined]
  refine ⟨congrArg Prod.snd hwritten, hsize, fun i => ?_, fun rest => ?_, fun cut => ?_⟩
  · intro start next
    have hf := hfits accepted[i] (List.getElem_mem i.isLt)
    have hsplit : stream =
        joined (accepted.take i) ++ (accepted[i].written ++ joined (accepted.drop (i + 1))) := by
      rw [hstream, ← joined, ← joined_append, Fin.getElem_fin,
        ← List.drop_eq_getElem_cons i.isLt, List.take_append_drop]
    have htake : accepted.take (i + 1) = accepted.take i ++ [accepted[i]] := by
      rw [List.take_add_one, List.getElem?_eq_getElem i.isLt]
      rfl
    refine ⟨?_, ?_, ?_, fun rest => ?_⟩
    · rw [hsplit]
      exact announced_joined hf _ _
    · rw [hsplit]
      exact extract_joined accepted[i] _ _
    · rw [htake, span_append]
      rfl
    · rw [hsplit, ByteArray.append_assoc, ByteArray.append_assoc]
      exact readAt_joined hf _ _
  · have hloop := loop_joined hfits (loop_readAll rest 0)
    rw [hstream, size_joined]
    exact hloop.eq.symm
  · obtain ⟨n, e, he, hbefore, hnext, hloop⟩ := loop_truncated hfits cut
    refine ⟨n, e, he, hbefore, hnext, ?_⟩
    rw [hsize, hstream]
    exact hloop.eq.symm

end CloudRoster.Frame
