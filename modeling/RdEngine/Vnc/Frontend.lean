/-
RdEngine/Vnc/Frontend.lean

The frontend's calls of a live session that write to the server
(`vnc/live.rs`), and the live session together with the messages the server was
sent.

The writes go through a handle of their own and take no lock.  A message is
written whole or the call fails, which the environment decides; a call that is
refused writes nothing.
-/
import RdEngine.Vnc.Live

namespace RdEngine

namespace Vnc

namespace Live

/-! ### The calls -/

/-- A full repaint, of the size the session was opened with. -/
def refresh (session : LiveSession) : Bytes :=
  encodeFramebufferUpdateRequest false 0 0 session.width session.height

/-- `send_mouse`; a pointer outside the framebuffer is refused. -/
def sendMouse (session : LiveSession) (buttons : UInt8) (x y : UInt16) : Except VncError Bytes :=
  if x ≥ session.width ∨ y ≥ session.height then
    .error (.geometry (s!"pointer ({x.toNat},{y.toNat}) is outside the " ++
      s!"{session.width.toNat}x{session.height.toNat} framebuffer"))
  else .ok (encodePointerEvent buttons x y)

def sendKey (down : Bool) (keysym : UInt32) : Bytes := encodeKeyEvent down keysym

def sendClipboard (text : String) : Except VncError Bytes := encodeClientCutText text

/-- A call of the frontend. -/
inductive Call where
  | refresh
  | mouse (buttons : UInt8) (x y : UInt16)
  | key (down : Bool) (keysym : UInt32)
  | clipboard (text : String)
  deriving DecidableEq

/-- The message of a call. -/
def Call.message (session : LiveSession) : Call → Except VncError Bytes
  | .refresh => .ok (Live.refresh session)
  | .mouse buttons x y => sendMouse session buttons x y
  | .key down keysym => .ok (sendKey down keysym)
  | .clipboard text => sendClipboard text

/-! ### The session and what it sent -/

/-- A session, and what was written to the server. -/
structure Served where
  live : Live
  sent : List Bytes

/-- What `open` sends before the reader starts, the repaint last. -/
def Served.opened (session : LiveSession) : Served where
  live := Live.opened session
  sent := [encodeSetPixelFormat preferredPixelFormat,
    (encodeSetEncodings [.raw]).toOption.getD [],
    encodeFramebufferUpdateRequest false 0 0 session.width session.height]

/-- A step of the session, or a call of the frontend. -/
inductive ServedEvent where
  | live (event : Event)
  | call (call : Call) (written : Bool)

/-- A step of the live session, or a call of the frontend at any time. -/
inductive ServedStep (session : LiveSession) : Served → ServedEvent → Served → Prop
  | live {s : Served} {e : Event} {t : Live} : Step session s.live e t →
      ServedStep session s (.live e) { s with live := t }
  | call (s : Served) (call : Call) (written : Bool) :
      ServedStep session s (.call call written)
        { s with
          sent := s.sent ++ if written then (call.message session).toOption.toList else [] }

end Live

end Vnc

end RdEngine
