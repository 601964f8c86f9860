/-
RdEngine/InputAgreement.lean

Pointer input and text, from the viewer that sends them to the host that decodes
them.  Each end checks what it is given on its own: the viewer the event's kind,
its buttons and the place on the display, the host the magnitude of what the event
carries.

Within the host's bounds the two agree.  Its bounds on deltas and on the length of a
text are its own (`checkDelta`, `maxTextBytes`), and what lies beyond them is
dropped, though the viewer has taken it.
-/
import RdEngine.Input
import RdEngine.Viewer.Calls

namespace RdEngine

namespace InputAgreement

open Threads Viewer

/-! ### Calls -/

/-- What a call has read and sent so far. -/
structure Record where
  geometry : Option Geometry := none
  sent : List Message := []

/-- The record of a program: the geometry it read last and the messages a queue took. -/
def recorder : Ghost Access.Answer Record where
  next record a answer :=
    match a, answer with
    | .geometry, answer => { record with geometry := answer }
    | .trySend _ message, .ok () => { record with sent := record.sent ++ [message] }
    | _, _ => record
  admits _ _ := True

/-- A call of the viewer whose input the host has to understand. -/
inductive InputCall where
  | sendMouse (kind button : UInt32) (x y : Int)
  | sendText (value : String)
  deriving DecidableEq

def InputCall.program : InputCall → Program (Except ViewerError Unit)
  | .sendMouse kind button x y => Viewer.sendMouse kind button x y
  | .sendText value => Viewer.sendText value

/-- What the host makes of a message. -/
def decoded (message : Message) : Option InputAction := message.union.bind Input.decodeMessage

/-! ### What a call means -/

/-- The protocol's bit of a button. -/
def buttonBit : MouseButton → UInt32
  | .left => 1
  | .right => 2
  | .middle => 4
  | .back => 8
  | .forward => 16

/-- The kinds of pointer events. -/
inductive MouseKind where
  | move | down | up | wheel | trackpad | moveRelative
  deriving DecidableEq, Repr

namespace MouseKind

def number : MouseKind → UInt32
  | .move => 0
  | .down => 1
  | .up => 2
  | .wheel => 3
  | .trackpad => 4
  | .moveRelative => 5

/-- The actions a pointer event stands for: desktop coordinates for a move, and a
wheel's x with its sign turned. -/
inductive Means (geometry : Option Geometry) (bits : UInt32) (x y : Int) :
    MouseKind → MouseAction → Prop
  | move {g : Geometry} (hgeometry : geometry = some g) :
      Means geometry bits x y .move (.moveAbsolute (x + g.x) (y + g.y))
  | down {button : MouseButton} (hbits : bits = buttonBit button) :
      Means geometry bits x y .down (.buttonDown button)
  | up {button : MouseButton} (hbits : bits = buttonBit button) :
      Means geometry bits x y .up (.buttonUp button)
  | wheel : Means geometry bits x y .wheel (.wheel (-x) y)
  | trackpad : Means geometry bits x y .trackpad (.wheel (-x) y)
  | moveRelative : Means geometry bits x y .moveRelative (.moveRelative x y)

end MouseKind

namespace InputCall

/-- The action a call stands for, given the geometry it was made with. -/
inductive Means (geometry : Option Geometry) : InputCall → InputAction → Prop
  | sendMouse {kind : MouseKind} {bits : UInt32} {x y : Int} {action : MouseAction}
      (haction : kind.Means geometry bits x y action) :
      Means geometry (.sendMouse kind.number bits x y) (.mouse action)
  | sendText (value : String) : Means geometry (.sendText value) (.key (.text value))

/-- A call within the host's bounds: on the deltas of an event without a place, and on
the bytes of a text. -/
def Bounded : InputCall → Prop
  | .sendMouse kind _ x y =>
    3 ≤ kind → x.natAbs ≤ Input.maxWheelDelta ∧ y.natAbs ≤ Input.maxWheelDelta
  | .sendText value => value.utf8ByteSize ≤ Input.maxTextBytes

end InputCall

/-- The desktop coordinates of a geometry are within the display limits. -/
def OnDesktop (g : Geometry) : Prop :=
  (-8192 ≤ g.x ∧ g.x + g.width ≤ 8192) ∧ (-8192 ≤ g.y ∧ g.y + g.height ≤ 8192)

/-- One message was sent.  The host decodes it to what the call means, unless the call
is beyond its bounds: then it decodes nothing. -/
def Agrees (call : InputCall) (record : Record) : Prop :=
  ∃ message action, record.sent = [message] ∧ call.Means record.geometry action ∧
    (call.Bounded → decoded message = some action) ∧ (¬call.Bounded → decoded message = none)

/-! ### The mask -/

/-- The kind is in the low three bits, the buttons above them. -/
theorem mask_eq {kind bits : UInt32} (hkind : kind.toNat < 8) (hbits : bits.toNat < 2 ^ 29) :
    (kind ||| bits <<< 3).toNat = 8 * bits.toNat + kind.toNat := by
  have hshift : (bits <<< 3).toNat = 2 ^ 3 * bits.toNat := by
    rw [UInt32.toNat_shiftLeft, show (3 : UInt32).toNat % 32 = 3 from rfl, Nat.shiftLeft_eq]
    omega
  rw [UInt32.toNat_or, hshift, Nat.or_comm, ← Nat.two_pow_add_eq_or_of_lt hkind]

/-- The viewer takes exactly the kinds of the protocol, with one button for a
transition and none for a wheel or a relative move. -/
theorem validMouse_cases {kind bits : UInt32} (h : validMouse kind bits = true) :
    (kind = MouseKind.move.number ∧ bits.toNat ≤ 31) ∨
      ((kind = MouseKind.down.number ∨ kind = MouseKind.up.number) ∧
        ∃ button, bits = buttonBit button) ∨
      ((kind = MouseKind.wheel.number ∨ kind = MouseKind.trackpad.number ∨
        kind = MouseKind.moveRelative.number) ∧ bits = 0) := by
  unfold validMouse at h
  split at h
  · next hmove => exact .inl ⟨hmove, by simpa [UInt32.le_iff_toNat_le] using h⟩
  split at h
  · next htransition =>
    refine .inr (.inl ⟨htransition, ?_⟩)
    rcases of_decide_eq_true h with h | h | h | h | h
    · exact ⟨.left, h⟩
    · exact ⟨.right, h⟩
    · exact ⟨.middle, h⟩
    · exact ⟨.back, h⟩
    · exact ⟨.forward, h⟩
  split at h
  · next hrange =>
    refine .inr (.inr ⟨?_, of_decide_eq_true h⟩)
    simp only [UInt32.le_iff_toNat_le, ← UInt32.toNat_inj, MouseKind.number] at hrange ⊢
    simp only [UInt32.reduceToNat] at hrange ⊢
    omega
  · cases h

/-! ### What the host decodes -/

section Decoded

variable {bits : UInt32} {x y : Int}

/-- The host reads the kind and the buttons of a message back. -/
theorem decoded_mouseMessage {kind : UInt32} (hkind : kind.toNat < 8) (hbits : bits.toNat ≤ 31) :
    decoded (mouseMessage kind bits x y) =
      (Input.decodeMouse ⟨8 * bits.toNat + kind.toNat, x, y⟩).map .mouse := by
  have hmask : (((kind ||| bits <<< 3).toNat : Nat) : Int) = 8 * bits.toNat + kind.toNat := by
    rw [mask_eq hkind (by omega)]
    push_cast
    rfl
  rw [← hmask]
  rfl

theorem decoded_move (hbits : bits.toNat ≤ 31) (hplace : Input.checkAbsolute x y = true) :
    decoded (mouseMessage 0 bits x y) = some (.mouse (.moveAbsolute x y)) := by
  rw [decoded_mouseMessage (by decide) hbits]
  simp [Input.decodeMouse, Input.mouseTypeMove, Input.maxButtonBits, hbits, hplace]

theorem decoded_button {kind : UInt32} (hkind : kind = 1 ∨ kind = 2) (button : MouseButton)
    (hplace : Input.checkAbsolute x y = true) :
    decoded (mouseMessage kind (buttonBit button) x y) =
      some (.mouse (if kind = 1 then .buttonDown button else .buttonUp button)) := by
  rcases hkind with rfl | rfl <;>
  cases button with
  | left | right | middle | back | forward =>
    rw [decoded_mouseMessage (by decide) (by decide)]
    simp [Input.decodeMouse, Input.decodeButton, buttonBit, hplace, Input.maxButtonBits,
      Input.mouseTypeMove, Input.mouseTypeMoveRelative, Input.mouseTypeDown, Input.mouseTypeUp,
      Input.mouseButtonLeft, Input.mouseButtonRight, Input.mouseButtonWheel,
      Input.mouseButtonBack, Input.mouseButtonForward]

theorem decoded_wheel {kind : UInt32} (hkind : kind = 3 ∨ kind = 4) :
    decoded (mouseMessage kind 0 x y) =
      if x.natAbs ≤ Input.maxWheelDelta ∧ y.natAbs ≤ Input.maxWheelDelta then
        some (.mouse (.wheel (-x) y)) else none := by
  have hlt : kind.toNat < 8 := by rcases hkind with rfl | rfl <;> decide
  rw [decoded_mouseMessage hlt (by decide)]
  by_cases hmin : x = -2 ^ 31
  · -- the one number that cannot be negated is far out of bounds
    have hneg : Input.checkedNeg x = none := if_pos hmin
    have hx : ¬(x.natAbs ≤ Input.maxWheelDelta ∧ y.natAbs ≤ Input.maxWheelDelta) := by
      rw [hmin]
      exact fun h => absurd h.1 (by decide)
    rw [if_neg hx]
    rcases hkind with rfl | rfl <;>
    simp [Input.decodeMouse, Input.maxButtonBits, Input.mouseTypeMove, Input.mouseTypeMoveRelative,
      Input.mouseTypeDown, Input.mouseTypeUp, Input.mouseTypeWheel, Input.mouseTypeTrackpad, hneg]
  · have hneg : Input.checkedNeg x = some (-x) := if_neg hmin
    by_cases hdelta : x.natAbs ≤ Input.maxWheelDelta ∧ y.natAbs ≤ Input.maxWheelDelta <;>
    rcases hkind with rfl | rfl <;>
    simp [Input.decodeMouse, Input.maxButtonBits, Input.mouseTypeMove, Input.mouseTypeMoveRelative,
      Input.mouseTypeDown, Input.mouseTypeUp, Input.mouseTypeWheel, Input.mouseTypeTrackpad, hneg,
      Input.checkDelta, hdelta]

theorem decoded_moveRelative :
    decoded (mouseMessage 5 0 x y) =
      if x.natAbs ≤ Input.maxWheelDelta ∧ y.natAbs ≤ Input.maxWheelDelta then
        some (.mouse (.moveRelative x y)) else none := by
  rw [decoded_mouseMessage (by decide) (by decide)]
  by_cases hdelta : x.natAbs ≤ Input.maxWheelDelta ∧ y.natAbs ≤ Input.maxWheelDelta <;>
  simp [Input.decodeMouse, Input.maxButtonBits, Input.mouseTypeMove,
    Input.mouseTypeMoveRelative, Input.checkDelta, hdelta]

theorem decoded_text {value : String} (hvalue : value.utf8ByteSize ≠ 0) :
    decoded (keyMessage { union := some (.seq value) }) =
      if value.utf8ByteSize ≤ Input.maxTextBytes then some (.key (.text value)) else none := by
  have hempty : value ≠ "" := by
    rintro rfl
    exact hvalue rfl
  have hlength : (utf8 value).length = value.utf8ByteSize := rfl
  change (Input.decodeKey _).map InputAction.key = _
  by_cases hlong : value.utf8ByteSize ≤ Input.maxTextBytes
  · have hfits : ¬(value = "" ∨ (utf8 value).length > Input.maxTextBytes) := by
      rw [hlength, not_or, not_lt]
      exact ⟨hempty, hlong⟩
    rw [if_pos hlong]
    change Option.map InputAction.key (if value = "" ∨ (utf8 value).length > _ then _ else _) = _
    rw [if_neg hfits]
    rfl
  · have hrefused : value = "" ∨ (utf8 value).length > Input.maxTextBytes := by
      rw [hlength]
      exact .inr (not_le.mp hlong)
    rw [if_neg hlong]
    change Option.map InputAction.key (if value = "" ∨ (utf8 value).length > _ then _ else _) = _
    rw [if_pos hrefused]
    rfl

end Decoded

/-! ### What the viewer sends -/

/-- `Q` holds of the record a call leaves, if it returns `Ok`. -/
abbrev Returning (Q : Record → Prop) (record : Record) : Program (Except ViewerError Unit) → Prop :=
  Follows recorder (fun record result => result = .ok () → Q record) record

/-- The checks of a call before it sends: nothing of them is recorded. -/
theorem gate_record :
    Follows recorder (fun record _ => record = {}) {} (authenticated.both
      ((remote .keyboard).both isCancelled.not)) := by
  have hcancelled : Follows recorder (fun record _ => record = {}) {} isCancelled.not :=
    ⟨trivial, fun _ => rfl⟩
  have hremote : Follows recorder (fun record _ => record = {}) {}
      ((remote .keyboard).both isCancelled.not) := by
    refine Follows.both ⟨trivial, fun answer => ?_⟩
    cases answer with
    | true => exact hcancelled
    | false => rfl
  refine Follows.both ⟨trivial, fun answer => ?_⟩
  cases answer with
  | true => exact hremote
  | false => rfl

theorem error_record {Q : Record → Prop} {record : Record} (error : ViewerError) :
    Returning Q record (.ret (.error error)) :=
  fun h => by cases h

/-- A message a queue takes is the one recorded. -/
theorem trySend_record {Q : Record → Prop} {record : Record} {queue : Queue} {message : Message}
    (h : Q { record with sent := record.sent ++ [message] }) :
    Returning Q record (trySend queue message) := by
  refine ⟨trivial, fun answer => ?_⟩
  match answer with
  | .ok () => exact fun _ => h
  | .error .full => exact error_record .backpressure
  | .error .closed => exact error_record .closed

theorem enqueue_record {Q : Record → Prop} {record : Record} {message : Message}
    (h : Q { record with sent := record.sent ++ [message] }) :
    Returning Q record (enqueue message) := by
  refine ⟨trivial, fun published => ?_⟩
  cases published with
  | true => exact trySend_record h
  | false => exact error_record .notAuthenticated

theorem checkedAdd_eq {a b c : Int} (h : checkedAdd a b = some c) : c = a + b := by
  unfold checkedAdd at h
  split at h
  · exact (Option.some.inj h).symm
  · cases h

/-- A place on the display is one on the desktop. -/
theorem place_ok {geometry : Option Geometry} {x y : Int} {placed : Int × Int}
    (h : place geometry x y = .ok placed) :
    ∃ g, geometry = some g ∧ (0 ≤ x ∧ x < g.width) ∧ (0 ≤ y ∧ y < g.height) ∧
      placed = (x + g.x, y + g.y) := by
  unfold place at h
  split at h
  · cases h
  · next g =>
    split at h
    · cases h
    · next hinside =>
      simp only [not_or, not_lt, ge_iff_le, not_le] at hinside
      obtain ⟨hx, hy, hwidth, hheight⟩ := hinside
      split at h
      · next hplacedX hplacedY =>
        obtain rfl := Except.ok.inj h
        rw [checkedAdd_eq hplacedX, checkedAdd_eq hplacedY]
        exact ⟨g, rfl, ⟨hx, hwidth⟩, ⟨hy, hheight⟩, rfl⟩
      · cases h

/-- A point of a display within the limits is one the host takes. -/
theorem checkAbsolute_of_onDesktop {g : Geometry} {x y : Int} (hg : OnDesktop g)
    (hx : 0 ≤ x ∧ x < g.width) (hy : 0 ≤ y ∧ y < g.height) :
    Input.checkAbsolute (x + g.x) (y + g.y) = true := by
  obtain ⟨⟨hleft, hright⟩, htop, hbottom⟩ := hg
  unfold Input.checkAbsolute Input.maxAbsoluteCoordinate
  rw [decide_eq_true_eq]
  omega

/-- What has to hold of the record of a call. -/
def Agreed (call : InputCall) (record : Record) : Prop :=
  (∀ g, record.geometry = some g → OnDesktop g) → Agrees call record

theorem sendPlaced_agreed {kind bits : UInt32} {x y : Int} (hvalid : validMouse kind bits = true)
    (hplaced : kind ≤ 2) :
    Returning (Agreed (.sendMouse kind bits x y)) {} (sendPlaced kind bits x y) := by
  refine ⟨trivial, fun geometry => ?_⟩
  dsimp only [Prog.ret_bind]
  rcases hplace : place geometry x y with error | ⟨px, py⟩
  · exact error_record error
  apply trySend_record
  intro hdesktop
  obtain ⟨g, rfl, hx, hy, hpair⟩ := place_ok hplace
  obtain ⟨rfl, rfl⟩ := Prod.mk.inj hpair
  have hcheck := checkAbsolute_of_onDesktop (hdesktop g rfl) hx hy
  have hbounded : InputCall.Bounded (.sendMouse kind bits x y) :=
    fun hdelta => absurd (UInt32.le_trans hdelta hplaced) (by decide)
  rcases validMouse_cases hvalid with ⟨rfl, hbits⟩ | ⟨hkind, button, rfl⟩ | ⟨hkind, -⟩
  · exact ⟨_, _, rfl, .sendMouse (.move rfl), fun _ => decoded_move hbits hcheck,
      fun h => absurd hbounded h⟩
  · rcases hkind with rfl | rfl
    · exact ⟨_, _, rfl, .sendMouse (.down rfl), fun _ => decoded_button (.inl rfl) button hcheck,
        fun h => absurd hbounded h⟩
    · exact ⟨_, _, rfl, .sendMouse (.up rfl), fun _ => decoded_button (.inr rfl) button hcheck,
        fun h => absurd hbounded h⟩
  · rcases hkind with rfl | rfl | rfl <;> exact absurd hplaced (by decide)

/-- Events without a place carry their deltas as they are. -/
theorem sendDelta_agreed {kind bits : UInt32} {x y : Int} (hvalid : validMouse kind bits = true)
    (hdelta : ¬kind ≤ 2) :
    Returning (Agreed (.sendMouse kind bits x y)) {}
      (trySend .mouse (mouseMessage kind bits x y)) := by
  apply trySend_record
  intro _
  have hthree : 3 ≤ kind := by
    rw [UInt32.le_iff_toNat_le] at hdelta ⊢
    simp only [UInt32.reduceToNat] at hdelta ⊢
    omega
  have hbounds : InputCall.Bounded (.sendMouse kind bits x y) ↔
      x.natAbs ≤ Input.maxWheelDelta ∧ y.natAbs ≤ Input.maxWheelDelta :=
    ⟨fun h => h hthree, fun h _ => h⟩
  rcases validMouse_cases hvalid with ⟨rfl, -⟩ | ⟨hkind, -⟩ | ⟨hkind, rfl⟩
  · exact absurd (by decide) hdelta
  · rcases hkind with rfl | rfl <;> exact absurd (by decide) hdelta
  · rcases hkind with rfl | rfl | rfl
    · have hwheel := @decoded_wheel x y 3 (.inl rfl)
      exact ⟨_, _, rfl, .sendMouse .wheel, fun h => hwheel.trans (if_pos (hbounds.mp h)),
        fun h => hwheel.trans (if_neg (mt hbounds.mpr h))⟩
    · have hwheel := @decoded_wheel x y 4 (.inr rfl)
      exact ⟨_, _, rfl, .sendMouse .trackpad, fun h => hwheel.trans (if_pos (hbounds.mp h)),
        fun h => hwheel.trans (if_neg (mt hbounds.mpr h))⟩
    · have hrelative := @decoded_moveRelative x y
      exact ⟨_, _, rfl, .sendMouse .moveRelative, fun h => hrelative.trans (if_pos (hbounds.mp h)),
        fun h => hrelative.trans (if_neg (mt hbounds.mpr h))⟩

theorem sendMouse_agreed (kind bits : UInt32) (x y : Int) :
    Returning (Agreed (.sendMouse kind bits x y)) {} (sendMouse kind bits x y) := by
  refine gate_record.bind fun record allowed hrecord => ?_
  subst hrecord
  cases allowed with
  | false => exact error_record .inputNotAllowed
  | true =>
    rw [if_pos rfl]
    cases hvalid : validMouse kind bits with
    | false => exact error_record .invalidMouse
    | true =>
      rw [if_neg (show ¬(!true) = true by decide)]
      by_cases hplaced : kind ≤ 2
      · rw [if_pos hplaced]
        exact sendPlaced_agreed hvalid hplaced
      · rw [if_neg hplaced]
        exact sendDelta_agreed hvalid hplaced

theorem sendText_agreed (value : String) :
    Returning (Agreed (.sendText value)) {} (sendText value) := by
  refine gate_record.bind fun record allowed hrecord => ?_
  subst hrecord
  cases allowed with
  | false => exact error_record .inputNotAllowed
  | true =>
    rw [if_pos rfl]
    by_cases hlength : value.utf8ByteSize = 0 ∨ value.utf8ByteSize > maxClipboardText
    · rw [if_pos hlength]
      exact error_record .invalidOptions
    · rw [if_neg hlength]
      apply enqueue_record
      intro _
      have htext := decoded_text (not_or.mp hlength).1
      exact ⟨_, _, rfl, .sendText value, fun h => htext.trans (if_pos h),
        fun h => htext.trans (if_neg h)⟩

/-- **Viewer and host agree on pointer input and text**: a call that returns `Ok` has
sent one message, which the host decodes to what the call means, unless the call
carries more than the host takes: then it decodes nothing. -/
theorem input_agrees (call : InputCall) :
    Follows recorder (fun record result => result = .ok () →
      (∀ g, record.geometry = some g → OnDesktop g) → Agrees call record) {} call.program := by
  cases call with
  | sendMouse kind bits x y => exact sendMouse_agreed kind bits x y
  | sendText value => exact sendText_agreed value

/-- A wheel turned too far at once: the viewer takes it and the host drops it. -/
theorem wheel_dropped : ¬∀ call : InputCall, Follows recorder (fun record result =>
    result = .ok () → (∀ g, record.geometry = some g → OnDesktop g) →
      ∃ message action, record.sent = [message] ∧ call.Means record.geometry action ∧
        decoded message = some action) {} call.program := by
  intro h
  have hauthenticated := (h (.sendMouse 3 0 0 16385)).2 true
  have hpermitted := hauthenticated.2 true
  have hrunning := hpermitted.2 false
  have htaken := hrunning.2 (.ok ())
  obtain ⟨message, action, hsent, -, hdecoded⟩ := htaken rfl fun g hg => by cases hg
  obtain rfl : mouseMessage 3 0 0 16385 = message := (List.cons.inj hsent).1
  have hnone : decoded (mouseMessage 3 0 0 16385) = none :=
    (decoded_wheel (.inl rfl)).trans (if_neg (by decide))
  rw [hnone] at hdecoded
  cases hdecoded

end InputAgreement

end RdEngine
