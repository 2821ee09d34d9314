import CloudRoster.Sync.Message
import CloudRoster.Text.Utf8

/-!
# Frames on a byte stream

A frame is a request or a response with the identifier by which the two are matched. On a byte
stream it is the JSON text of the frame behind its length, four bytes with the highest first. A
frame that is too long is not written; a length that is too large ends the reading at once, before
any of the announced bytes is looked at.
-/

namespace CloudRoster

open Json (Codec Document Fault Record)

/-- Whether a frame asks or answers. -/
inductive FrameKind where
  | request
  | response
  deriving Repr, DecidableEq

namespace FrameKind

/-- The written name of a kind of frame. -/
def name : FrameKind → String
  | request => "request"
  | response => "response"

/-- Kinds of frames are written as their names. -/
def codec : Codec FrameKind :=
  .enumeration [("request", request), ("response", response)] name

end FrameKind

/-- A frame. -/
structure Frame where
  id : UInt64
  kind : FrameKind
  message : Message
  deriving Repr, DecidableEq

/-- Why a frame could not be written or read. -/
inductive FrameError where
  /-- The frame has more bytes than a frame may have. -/
  | tooLarge (bytes : Nat)
  /-- The bytes of the frame are no frame. -/
  | malformed (fault : Fault)
  /-- The stream ends within a length, or where one should begin. -/
  | endInLength
  /-- The stream ends within a frame. -/
  | endInBody
  deriving Repr, DecidableEq

namespace FrameError

/-- The wording of an error. -/
def message : FrameError → String
  | tooLarge bytes => "frame too large: " ++ toString bytes ++ " bytes"
  | malformed fault => "JSON decode error: " ++ fault.message
  | endInLength => "unexpected end of file"
  | endInBody => "early eof"

/-- Whether the stream ended too early, rather than holding something wrong. -/
def isEnd : FrameError → Bool
  | endInLength | endInBody => true
  | tooLarge _ | malformed _ => false

end FrameError

namespace Frame

/-- The greatest number of bytes of the text of a frame. -/
def maxBytes : Nat := 16 * 1024 * 1024

/-- The number of bytes of a length. -/
def lengthBytes : Nat := 4

/-- The fields of a frame. -/
def record : Record Frame where
  title := "Frame"
  fields := [.required "id" (.uint64 "u64"), .required "kind" FrameKind.codec,
    .required "message" Message.codec]
  toRow f := (f.id, f.kind, f.message, ())
  ofRow := fun (id, kind, message, ()) => ⟨id, kind, message⟩
  ofRow_toRow _ := rfl
  toRow_ofRow _ := rfl

/-- How frames are written. -/
def codec : Codec Frame := record.codec

/-- A length as four bytes, the highest first. -/
def lengthToBytes (n : Nat) : ByteArray :=
  ⟨#[.ofNat (n / 16777216), .ofNat (n / 65536), .ofNat (n / 256), .ofNat n]⟩

/-- The number that bytes stand for, the highest first. -/
def bytesToLength (bytes : ByteArray) : Nat :=
  bytes.data.foldl (fun n b => n * 256 + b.toNat) 0

/-- The bytes of a frame on a stream. -/
def toBytes (f : Frame) : Except FrameError ByteArray :=
  let body := (codec.encode f).toUTF8
  if maxBytes < body.size then .error (.tooLarge body.size)
  else .ok (lengthToBytes body.size ++ body)

/-- Writes a frame behind what is on a stream: the stream, and the number of bytes added. A frame
that is too long is refused and adds nothing. -/
def write (stream : ByteArray) (f : Frame) : ByteArray × Except FrameError Nat :=
  match f.toBytes with
  | .ok bytes => (stream ++ bytes, .ok bytes.size)
  | .error e => (stream, .error e)

/-- Writes frames one after another. -/
def writeAll (stream : ByteArray) : List Frame → ByteArray × List (Except FrameError Nat)
  | [] => (stream, [])
  | f :: fs =>
    let (stream, result) := write stream f
    let (stream, results) := writeAll stream fs
    (stream, result :: results)

/-- The document that the bytes of a frame hold. -/
def document (body : ByteArray) : Document :=
  match String.fromUTF8? body with
  | some s => .ofText s
  | none => .ofUnits (Text.unitsFrom body 0)

/-- The frame that the bytes of a frame stand for. -/
def ofBody (body : ByteArray) : Except FrameError Frame :=
  match codec.readDocument (document body) with
  | .ok f => .ok f
  | .error fault => .error (.malformed fault)

/-- Reads a frame from a position on: the frame or the error, and the position behind the bytes that
were taken. -/
def readAt (stream : ByteArray) (position : Nat) : Except (FrameError × Nat) (Frame × Nat) :=
  let start := position + lengthBytes
  if stream.size < start then .error (.endInLength, stream.size)
  else
    let next := start + bytesToLength (stream.extract position start)
    if maxBytes < next - start then .error (.tooLarge (next - start), start)
    else if stream.size < next then .error (.endInBody, stream.size)
    else match ofBody (stream.extract start next) with
      | .ok f => .ok (f, next)
      | .error e => .error (e, next)

/-- What reading a stream to its end gives. -/
structure Reading where
  /-- The frames read. -/
  frames : List Frame
  /-- Why the reading ended. -/
  ending : FrameError
  /-- The number of bytes taken. -/
  position : Nat
  deriving Repr, DecidableEq

theorem lt_of_readAt {stream : ByteArray} {position next : Nat} {f : Frame}
    (h : readAt stream position = .ok (f, next)) : position < next ∧ next ≤ stream.size := by
  unfold readAt at h
  simp only [lengthBytes] at h
  grind

/-- Reads frames until one cannot be read. -/
def readAll (stream : ByteArray) (position : Nat) : Reading :=
  match _h : readAt stream position with
  | .error (e, next) => ⟨[], e, next⟩
  | .ok (f, next) =>
    let rest := readAll stream next
    { rest with frames := f :: rest.frames }
termination_by stream.size - position
decreasing_by
  have := lt_of_readAt ‹readAt stream position = .ok (f, next)›
  omega

end Frame

end CloudRoster
