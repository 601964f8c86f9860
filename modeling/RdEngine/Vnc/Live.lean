/-
RdEngine/Vnc/Live.lean

A live VNC session (`vnc/live.rs`): the reader thread, the state it shares with
the frontend, and the frontend's calls that read it or close the session.

The machine's steps are what the threads cannot be interrupted in: a critical
section under the shared lock, an atomic flag, or the reader's work on its own
buffer.  What the server sends, and when a read fails, is the environment's
choice (the labels `receives` and `readFails`).  The frontend's messages to the
server go through a socket of their own and touch none of this state.
-/
import RdEngine.Lib.Runs
import RdEngine.Vnc.Framebuffer

namespace RdEngine

namespace Vnc

/-! ### The picture the reader draws on -/

/-- The reader's `framebuffer` with its `current` size. -/
structure Picture where
  width : Nat
  height : Nat
  pixels : Bytes
  deriving DecidableEq

namespace Picture

/-- A black, fully transparent picture. -/
def blank (width height : Nat) : Picture :=
  ⟨width, height, .replicate (width * height * rgbaBytesPerPixel) 0⟩

/-- The buffer and the size that drawing an update gave. -/
def adopt (picture : Picture) (result : Bytes × Option (Nat × Nat)) : Picture :=
  match result.2 with
  | some (newWidth, newHeight) => ⟨newWidth, newHeight, result.1⟩
  | none => { picture with pixels := result.1 }

/-- The picture after an update. -/
def apply (format : PixelFormat) (picture : Picture) (rectangles : List Rectangle) : Picture :=
  picture.adopt
    (applyRectangles id picture.width picture.height format rectangles picture.pixels)

end Picture

/-- Move the framebuffer out and leave one of the same length behind, all
zeros. -/
def takeBuffer (working : Bytes) : Bytes × Bytes := (working, .replicate working.length 0)

/-! ### State -/

/-- What a server sends after the initialisation. -/
inductive ServerMessage where
  | framebufferUpdate (rectangles : List Rectangle)
  | clipboard (text : String)
  | bell
  | colourMapIgnored (entries : Nat)

/-- What the session was opened with.  The source keeps the size in two atomics
that nothing writes after `open`. -/
structure LiveSession where
  format : PixelFormat
  width : UInt16
  height : UInt16

/-- What the reader shares with the frontend. -/
structure Shared where
  framebuffer : Bytes
  frameReady : Bool
  clipboard : Option String
  failure : Option VncError

structure Counters where
  receivedUpdates : Nat
  receivedRectangles : Nat
  takenFrames : Nat

/-- Where the reader thread is. -/
inductive Reader where
  /-- At the condition of its loop. -/
  | looping
  /-- Waiting for a message. -/
  | reading
  /-- An update is drawn, the shared lock not yet taken. -/
  | drawn
  /-- Text has arrived, the shared lock not yet taken. -/
  | copied (text : String)
  /-- A read failed, the shared lock not yet taken. -/
  | failed (error : VncError)
  /-- The failure is settled under the lock, which it still holds. -/
  | stopping
  | finished

/-- `published` is a history variable: the frames put in the shared slot, the
oldest first. -/
structure Live where
  reader : Reader
  picture : Picture
  shared : Shared
  counters : Counters
  closed : Bool
  published : List Bytes

namespace Live

/-- After `open`, with the reader just started. -/
def opened (session : LiveSession) : Live where
  reader := .looping
  picture := .blank session.width.toNat session.height.toNat
  shared := { framebuffer := [], frameReady := false, clipboard := none, failure := none }
  counters := { receivedUpdates := 0, receivedRectangles := 0, takenFrames := 0 }
  closed := false
  published := []

/-! ### The reader thread -/

/-- The loop's condition. -/
def checkClosed (live : Live) : Live :=
  { live with reader := if live.closed then .finished else .reading }

/-- A message came out of `read_message`: an update is drawn and counted before
the lock is taken; a bell or a colour map changes nothing. -/
def receive (session : LiveSession) (message : ServerMessage) (live : Live) : Live :=
  match message with
  | .framebufferUpdate rectangles =>
    { live with
      reader := .drawn
      picture := live.picture.apply session.format rectangles
      counters :=
        { live.counters with
          receivedUpdates := live.counters.receivedUpdates + 1
          receivedRectangles := live.counters.receivedRectangles + rectangles.length } }
  | .clipboard text => { live with reader := .copied text }
  | .bell | .colourMapIgnored _ => { live with reader := .looping }

/-- Under the lock: the drawn picture goes into the shared slot. -/
def publish (live : Live) : Live :=
  let (taken, working) := takeBuffer live.picture.pixels
  { live with
    reader := .looping
    picture := { live.picture with pixels := working }
    shared := { live.shared with framebuffer := taken, frameReady := true }
    published := live.published ++ [taken] }

/-- Under the lock: text from the server replaces what was not read. -/
def keepClipboard (text : String) (live : Live) : Live :=
  { live with
    reader := .looping
    shared := { live.shared with clipboard := some text } }

/-- Under the lock: a failure is reported unless the frontend closed the
session. -/
def settleFailure (error : VncError) (live : Live) : Live :=
  { live with
    reader := .stopping
    shared :=
      if live.closed then live.shared else { live.shared with failure := some error } }

/-- Still under the lock: the reader closes the session and leaves its loop. -/
def stop (live : Live) : Live := { live with reader := .finished, closed := true }

/-! ### Frontend calls -/

/-- The newest frame that was not taken yet, with the session's size. -/
def takeFrame (session : LiveSession) (live : Live) : Option (Nat × Nat × Bytes) × Live :=
  if !live.shared.frameReady || live.shared.framebuffer.isEmpty then (none, live)
  else
    (some (session.width.toNat, session.height.toNat, live.shared.framebuffer),
      { live with
        shared := { live.shared with frameReady := false }
        counters := { live.counters with takenFrames := live.counters.takenFrames + 1 } })

def takeClipboard (live : Live) : Option String × Live :=
  (live.shared.clipboard, { live with shared := { live.shared with clipboard := none } })

/-- The flag; the socket's shutdown makes the reader's next read fail. -/
def close (live : Live) : Live := { live with closed := true }

/-! ### Steps -/

/-- What happens to a session. -/
inductive Event where
  | checkClosed
  | receives (message : ServerMessage)
  | readFails (error : VncError)
  /-- The reader takes the lock and does what it has to do under it. -/
  | locks
  | stops
  | takeFrame
  | takeClipboard
  | close

/-- One step of a thread.  A thread that needs the shared lock waits while the
reader holds it to stop. -/
inductive Step (session : LiveSession) : Live → Event → Live → Prop
  | checkClosed {s : Live} : s.reader = .looping → Step session s .checkClosed (checkClosed s)
  | receives {s : Live} (message : ServerMessage) : s.reader = .reading →
      Step session s (.receives message) (receive session message s)
  | readFails {s : Live} (error : VncError) : s.reader = .reading →
      Step session s (.readFails error) { s with reader := .failed error }
  | publish {s : Live} : s.reader = .drawn → Step session s .locks (publish s)
  | keepClipboard {s : Live} {text : String} : s.reader = .copied text →
      Step session s .locks (keepClipboard text s)
  | settleFailure {s : Live} {error : VncError} : s.reader = .failed error →
      Step session s .locks (settleFailure error s)
  | stops {s : Live} : s.reader = .stopping → Step session s .stops (stop s)
  | takeFrame {s : Live} : s.reader ≠ .stopping →
      Step session s .takeFrame (takeFrame session s).2
  | takeClipboard {s : Live} : s.reader ≠ .stopping →
      Step session s .takeClipboard (takeClipboard s).2
  | close (s : Live) : Step session s .close (close s)

end Live

end Vnc

end RdEngine
