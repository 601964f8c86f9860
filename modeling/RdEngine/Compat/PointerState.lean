/-
RdEngine/Compat/PointerState.lean

The pointer of a VNC session.  The facade tells what happens to the pointer: a
move, a button going down or up, a step of the wheel.  A server is told how things
stand: the buttons held and the place.  Between the two there has to be a state
(`Pointer`), which the backend does not keep: it translates every event on its own.

So a server is told the truth in the sequences in which the events need no state
(`all_told_iff`): as long as no other button is held, for the buttons that both sides
number alike (`pointer_told`).
-/
import Mathlib.Data.Finset.Erase
import Mathlib.Data.Finset.Insert
import RdEngine.Compat.Input
import RdEngine.InputAgreement

namespace RdEngine

namespace PointerState

open InputAgreement (buttonBit)

/-! ### The facade's events -/

/-- The pointer events a RustDesk backend accepts. -/
inductive PointerCall where
  | move (buttons : UInt32) (x y : Int)
  | press (button : MouseButton) (x y : Int)
  | release (button : MouseButton) (x y : Int)
  | wheel (dx dy : Int)
  | trackpad (dx dy : Int)
  | moveRelative (dx dy : Int)
  deriving DecidableEq

namespace PointerCall

/-- The kind a frontend sends for the event. -/
def kind : PointerCall → UInt32
  | .move .. => 0
  | .press .. => 1
  | .release .. => 2
  | .wheel .. => 3
  | .trackpad .. => 4
  | .moveRelative .. => 5

def button : PointerCall → UInt32
  | .move buttons _ _ => buttons
  | .press button _ _ | .release button _ _ => buttonBit button
  | .wheel .. | .trackpad .. | .moveRelative .. => 0

def place : PointerCall → Int × Int
  | .move _ x y | .press _ x y | .release _ x y => (x, y)
  | .wheel dx dy | .trackpad dx dy | .moveRelative dx dy => (dx, dy)

end PointerCall

/-- The vocabulary is complete: every kind and button a RustDesk backend accepts is
one of these events. -/
theorem exists_call {kind button : UInt32} (h : Viewer.validMouse kind button = true) (x y : Int) :
    ∃ call : PointerCall, call.kind = kind ∧ call.button = button ∧ call.place = (x, y) := by
  rcases InputAgreement.validMouse_cases h with
    ⟨rfl, -⟩ | ⟨rfl | rfl, button, rfl⟩ | ⟨rfl | rfl | rfl, rfl⟩
  · exact ⟨.move button x y, rfl, rfl, rfl⟩
  · exact ⟨.press button x y, rfl, rfl, rfl⟩
  · exact ⟨.release button x y, rfl, rfl, rfl⟩
  · exact ⟨.wheel x y, rfl, rfl, rfl⟩
  · exact ⟨.trackpad x y, rfl, rfl, rfl⟩
  · exact ⟨.moveRelative x y, rfl, rfl, rfl⟩

/-! ### The pointer -/

/-- What a server is told: the buttons held and the place. -/
structure PointerEvent where
  mask : UInt8
  x : Int
  y : Int
  deriving DecidableEq, Repr

/-- What the user holds and where the pointer is. -/
structure Pointer where
  held : Finset MouseButton
  x : Int
  y : Int
  deriving DecidableEq

/-- RFB's bits of the buttons held.  Back and forward have none. -/
def mask (held : Finset MouseButton) : UInt8 :=
  (if .left ∈ held then 1 else 0) ||| (if .middle ∈ held then 2 else 0) |||
    if .right ∈ held then 4 else 0

/-- RFB's bits of the wheel: up, down, and to the sides as servers number them. -/
def wheelBits (dx dy : Int) : List UInt8 :=
  (if dy > 0 then [0x08] else if dy < 0 then [0x10] else []) ++
    if dx > 0 then [0x20] else if dx < 0 then [0x40] else []

namespace Pointer

def tell (p : Pointer) : PointerEvent := ⟨mask p.held, p.x, p.y⟩

/-- A wheel button goes down and up where the pointer is. -/
def turn (p : Pointer) (bit : UInt8) : List PointerEvent :=
  [⟨mask p.held ||| bit, p.x, p.y⟩, p.tell]

/-- What the user does, on the user's own pointer. -/
def next (p : Pointer) : PointerCall → Pointer
  | .move _ x y => ⟨p.held, x, y⟩
  | .press button x y => ⟨insert button p.held, x, y⟩
  | .release button x y => ⟨p.held.erase button, x, y⟩
  | .wheel .. | .trackpad .. => p
  | .moveRelative dx dy => ⟨p.held, p.x + dx, p.y + dy⟩

/-- What a server should be told of an event. -/
def told (p : Pointer) : PointerCall → List PointerEvent
  | .wheel dx dy | .trackpad dx dy => (wheelBits dx dy).flatMap p.turn
  | call => [(p.next call).tell]

end Pointer

/-! ### What a server is told -/

/-- A `PointerEvent` as an RFB server reads it. -/
def readPointerEvent : Bytes → Option PointerEvent
  | 5 :: buttons :: place =>
    if place.length = 4 then
      some ⟨buttons, Words.ofBe (place.take 2), Words.ofBe (place.drop 2)⟩
    else none
  | _ => none

/-- The pointer events of a call, as a VNC server reads them. -/
def transmitted (live : Vnc.LiveSession) (call : PointerCall) : List PointerEvent :=
  (Compat.BackendCall.messages live
    (.sendMouse call.kind.toNat call.button.toNat call.place.1 call.place.2)).filterMap
      readPointerEvent

/-- Every event of a sequence is transmitted as it should be. -/
def Told (live : Vnc.LiveSession) : Pointer → List PointerCall → Prop
  | _, [] => True
  | p, call :: calls => transmitted live call = p.told call ∧ Told live (p.next call) calls

/-- A place on the session's framebuffer. -/
def OnScreen (live : Vnc.LiveSession) (x y : Int) : Prop :=
  (0 ≤ x ∧ x < live.width.toNat) ∧ (0 ≤ y ∧ y < live.height.toNat)

/-- An event whose translation needs no state: nothing else is held, and the button is
one that both numberings have in the same place. -/
def Plain (live : Vnc.LiveSession) (p : Pointer) : PointerCall → Prop
  | .move _ x y => OnScreen live x y ∧ mask p.held = 0
  | .press button x y =>
    OnScreen live x y ∧ (button = .left ∨ button = .right) ∧ mask (p.held.erase button) = 0
  | .release button x y =>
    OnScreen live x y ∧ (button = .left ∨ button = .right ∨ button = .middle) ∧
      mask (p.held.erase button) = 0
  -- a turn without a direction, where there is no place to send it to
  | .wheel dx dy | .trackpad dx dy => (dx = 0 ∧ dy = 0) ∧ ¬OnScreen live dx dy
  -- a relative move that leads to the place its deltas name
  | .moveRelative dx dy =>
    OnScreen live (p.x + dx) (p.y + dy) ∧ mask p.held = 0 ∧ (0 ≤ dx ∧ p.x + dx = dx % 65536) ∧
      (0 ≤ dy ∧ p.y + dy = dy % 65536)

/-- Every call of a history is a plain one where it is made. -/
def AllPlain (live : Vnc.LiveSession) : Pointer → List PointerCall → Prop
  | _, [] => True
  | p, call :: calls => Plain live p call ∧ AllPlain live (p.next call) calls

/-! ### The translation -/

/-- The mask the backend translates an event to.  The protocol's middle button is the
number of RFB's wheel. -/
def translated : PointerCall → Option UInt8
  | .move .. | .wheel .. | .trackpad .. | .moveRelative .. => some 0
  | .press button _ _ =>
    match button with
    | .left => some 1
    | .right => some 4
    | .middle => some 8
    | .back | .forward => none
  | .release button _ _ =>
    match button with
    | .left | .right | .middle => some 0
    | .back | .forward => none

section Translation

variable {live : Vnc.LiveSession} {call : PointerCall} {x y : Int}

theorem vncPointer_call (call : PointerCall) (hx : 0 ≤ x) (hy : 0 ≤ y) :
    (Compat.vncPointer call.kind.toNat call.button.toNat x y).toOption =
      (translated call).map fun m => (m, .ofNat x.toNat, .ofNat y.toNat) := by
  have hsign : ¬(x < 0 ∨ y < 0) := by omega
  cases call with
  | move | wheel | trackpad | moveRelative =>
    simp [Compat.vncPointer, hsign, PointerCall.kind, PointerCall.button, Compat.vncButton,
      translated]
    rfl
  | press button | release button =>
    cases button with
    | left | right | middle | back | forward =>
      simp [Compat.vncPointer, hsign, PointerCall.kind, PointerCall.button, buttonBit,
        Compat.vncButton, translated]
      rfl

theorem vncPointer_negative (kind button : Nat) (h : x < 0 ∨ y < 0) :
    (Compat.vncPointer kind button x y).toOption = none := by
  simp [Compat.vncPointer, h]
  rfl

theorem readPointerEvent_encode (buttons : UInt8) (x y : UInt16) :
    readPointerEvent (Vnc.encodePointerEvent buttons x y) = some ⟨buttons, x.toNat, y.toNat⟩ := by
  have hx : Words.ofBe (Words.be 2 x.toNat) = x.toNat := Words.ofBe_be_of_lt x.toNat_lt
  have hy : Words.ofBe (Words.be 2 y.toNat) = y.toNat := Words.ofBe_be_of_lt y.toNat_lt
  have hlength : (Words.be 2 x.toNat ++ Words.be 2 y.toNat).length = 4 := by
    rw [List.length_append, Words.be_length, Words.be_length]
  have htake : (Words.be 2 x.toNat ++ Words.be 2 y.toNat).take 2 = Words.be 2 x.toNat :=
    List.take_left' (Words.be_length 2 _)
  have hdrop : (Words.be 2 x.toNat ++ Words.be 2 y.toNat).drop 2 = Words.be 2 y.toNat :=
    List.drop_left' (Words.be_length 2 _)
  change readPointerEvent (5 :: buttons :: (Words.be 2 x.toNat ++ Words.be 2 y.toNat)) = _
  simp only [readPointerEvent, hlength, htake, hdrop, hx, hy, if_true]

/-- What is transmitted: one event, with the place as 16-bit numbers, if these are on
the framebuffer. -/
theorem transmitted_eq {m : UInt8} (hm : translated call = some m)
    (hx : 0 ≤ call.place.1) (hy : 0 ≤ call.place.2) :
    transmitted live call =
      if call.place.1 % 65536 < live.width.toNat ∧ call.place.2 % 65536 < live.height.toNat then
        [⟨m, call.place.1 % 65536, call.place.2 % 65536⟩] else [] := by
  obtain ⟨px, hpx⟩ := Int.eq_ofNat_of_zero_le hx
  obtain ⟨py, hpy⟩ := Int.eq_ofNat_of_zero_le hy
  have hpointer := vncPointer_call call hx hy
  rw [hm, Option.map_some] at hpointer
  have hok := Compat.eq_ok_of_toOption hpointer
  have hwrapX : (UInt16.ofNat call.place.1.toNat).toNat = call.place.1.toNat % 65536 :=
    UInt16.toNat_ofNat'
  have hwrapY : (UInt16.ofNat call.place.2.toNat).toNat = call.place.2.toNat % 65536 :=
    UInt16.toNat_ofNat'
  simp only [transmitted, Compat.BackendCall.messages, hok, Vnc.Live.sendMouse]
  by_cases hscreen : call.place.1 % 65536 < live.width.toNat ∧
      call.place.2 % 65536 < live.height.toNat
  · have hinside : ¬(UInt16.ofNat call.place.1.toNat ≥ live.width ∨
        UInt16.ofNat call.place.2.toNat ≥ live.height) := by
      simp only [ge_iff_le, UInt16.le_iff_toNat_le, hwrapX, hwrapY]
      omega
    rw [if_neg hinside, if_pos hscreen]
    change ([_] : List Bytes).filterMap readPointerEvent = _
    rw [List.filterMap_cons_some (readPointerEvent_encode _ _ _), hwrapX, hwrapY, hpx, hpy]
    rfl
  · have houtside : UInt16.ofNat call.place.1.toNat ≥ live.width ∨
        UInt16.ofNat call.place.2.toNat ≥ live.height := by
      simp only [ge_iff_le, UInt16.le_iff_toNat_le, hwrapX, hwrapY]
      omega
    rw [if_pos houtside, if_neg hscreen]
    rfl

/-- A place that is negative, or a button RFB has no bit for. -/
theorem transmitted_refused
    (h : translated call = none ∨ call.place.1 < 0 ∨ call.place.2 < 0) :
    transmitted live call = [] := by
  have hnone : (Compat.vncPointer call.kind.toNat call.button.toNat call.place.1
      call.place.2).toOption = none := by
    by_cases hsign : call.place.1 < 0 ∨ call.place.2 < 0
    · exact vncPointer_negative _ _ hsign
    · rw [vncPointer_call call (by omega) (by omega), h.resolve_right hsign, Option.map_none]
  cases hpointer : Compat.vncPointer call.kind.toNat call.button.toNat call.place.1
      call.place.2 with
  | error e => simp only [transmitted, Compat.BackendCall.messages, hpointer, List.filterMap_nil]
  | ok placed => rw [hpointer] at hnone; cases hnone

/-- One event is transmitted exactly when its mask is the one translated and its place
the one given, as 16-bit numbers, on the framebuffer. -/
theorem transmitted_eq_singleton {m : UInt8} {x y : Int} :
    transmitted live call = [⟨m, x, y⟩] ↔ translated call = some m ∧ OnScreen live x y ∧
      (0 ≤ call.place.1 ∧ x = call.place.1 % 65536) ∧
        (0 ≤ call.place.2 ∧ y = call.place.2 % 65536) := by
  constructor
  · intro h
    have hgiven : ¬(translated call = none ∨ call.place.1 < 0 ∨ call.place.2 < 0) := by
      intro hrefused
      rw [transmitted_refused hrefused] at h
      cases h
    obtain ⟨hmask, hsign⟩ := not_or.mp hgiven
    obtain ⟨hx, hy⟩ : 0 ≤ call.place.1 ∧ 0 ≤ call.place.2 := by omega
    obtain ⟨found, hfound⟩ := Option.ne_none_iff_exists'.mp hmask
    rw [transmitted_eq hfound hx hy] at h
    split at h
    · next hscreen =>
      obtain ⟨rfl, rfl, rfl⟩ := PointerEvent.mk.inj (List.cons.inj h).1
      exact ⟨hfound, ⟨⟨by omega, hscreen.1⟩, by omega, hscreen.2⟩, ⟨hx, rfl⟩, hy, rfl⟩
    · cases h
  · rintro ⟨hmask, hscreen, ⟨hx, rfl⟩, hy, rfl⟩
    rw [transmitted_eq hmask hx hy, if_pos ⟨hscreen.1.2, hscreen.2.2⟩]

/-- At a place on the framebuffer nothing wraps around. -/
theorem transmitted_eq_place {m : UInt8} :
    transmitted live call = [⟨m, call.place.1, call.place.2⟩] ↔
      translated call = some m ∧ OnScreen live call.place.1 call.place.2 := by
  rw [transmitted_eq_singleton]
  constructor
  · exact fun h => ⟨h.1, h.2.1⟩
  · rintro ⟨hmask, hscreen⟩
    have hwidth := live.width.toNat_lt
    have hheight := live.height.toNat_lt
    obtain ⟨⟨hx, hright⟩, hy, hbottom⟩ := hscreen
    exact ⟨hmask, ⟨⟨hx, hright⟩, hy, hbottom⟩, ⟨hx, by omega⟩, hy, by omega⟩

theorem transmitted_length_le : (transmitted live call).length ≤ 1 := by
  by_cases hrefused : translated call = none ∨ call.place.1 < 0 ∨ call.place.2 < 0
  · rw [transmitted_refused hrefused]
    exact Nat.zero_le 1
  · obtain ⟨hmask, hsign⟩ := not_or.mp hrefused
    obtain ⟨found, hfound⟩ := Option.ne_none_iff_exists'.mp hmask
    rw [transmitted_eq hfound (by omega) (by omega)]
    split
    · exact le_refl 1
    · exact Nat.zero_le 1

end Translation

/-! ### One event -/

section Step

variable {live : Vnc.LiveSession} {p : Pointer}

theorem wheelBits_eq_nil {dx dy : Int} : wheelBits dx dy = [] ↔ dx = 0 ∧ dy = 0 := by
  unfold wheelBits
  split_ifs <;> simp <;> omega

/-- A turn is two events for a server, and the backend sends one at most. -/
theorem turn_transmitted_iff {call : PointerCall} {dx dy : Int} (hplace : call.place = (dx, dy))
    (hmask : translated call = some 0) :
    transmitted live call = (wheelBits dx dy).flatMap p.turn ↔
      (dx = 0 ∧ dy = 0) ∧ ¬OnScreen live dx dy := by
  cases hbits : wheelBits dx dy with
  | nil =>
    obtain ⟨rfl, rfl⟩ := wheelBits_eq_nil.mp hbits
    have hx : 0 ≤ call.place.1 := by rw [hplace]
    have hy : 0 ≤ call.place.2 := by rw [hplace]
    have hscreen : (call.place.1 % 65536 < live.width.toNat ∧
        call.place.2 % 65536 < live.height.toNat) ↔ OnScreen live 0 0 := by
      rw [hplace]
      unfold OnScreen
      omega
    rw [transmitted_eq hmask hx hy, List.flatMap_nil]
    simp only [ite_eq_right_iff, List.cons_ne_nil, imp_false, hscreen, and_self, true_and]
  | cons bit rest =>
    have hdirection : ¬(dx = 0 ∧ dy = 0) := by
      rw [← wheelBits_eq_nil, hbits]
      exact List.cons_ne_nil bit rest
    constructor
    · intro h
      have hlength := @transmitted_length_le live call
      rw [h, List.flatMap_cons, List.length_append] at hlength
      have htwo : (p.turn bit).length = 2 := rfl
      omega
    · exact fun h => absurd h.1 hdirection

theorem press_mask_iff {button : MouseButton} {x y : Int} :
    translated (.press button x y) = some (mask (insert button p.held)) ↔
      (button = .left ∨ button = .right) ∧ mask (p.held.erase button) = 0 := by
  by_cases hleft : .left ∈ p.held <;> by_cases hmiddle : .middle ∈ p.held <;>
  by_cases hright : .right ∈ p.held <;> cases button <;>
  simp [translated, mask, hleft, hmiddle, hright] <;> decide

theorem release_mask_iff {button : MouseButton} {x y : Int} :
    translated (.release button x y) = some (mask (p.held.erase button)) ↔
      (button = .left ∨ button = .right ∨ button = .middle) ∧ mask (p.held.erase button) = 0 := by
  cases button <;> simp [translated, eq_comm]

/-- **One event is transmitted as it should be** exactly when it is plain. -/
theorem told_iff (call : PointerCall) : transmitted live call = p.told call ↔ Plain live p call := by
  cases call with
  | move buttons x y =>
    have hmask : translated (.move buttons x y) = some (mask p.held) ↔ mask p.held = 0 := by
      simp [translated, eq_comm]
    exact transmitted_eq_place.trans ((and_congr_left' hmask).trans and_comm)
  | press button x y =>
    exact transmitted_eq_place.trans ((and_congr_left' press_mask_iff).trans and_comm)
  | release button x y =>
    exact transmitted_eq_place.trans ((and_congr_left' release_mask_iff).trans and_comm)
  | wheel dx dy => exact turn_transmitted_iff rfl rfl
  | trackpad dx dy => exact turn_transmitted_iff rfl rfl
  | moveRelative dx dy =>
    have hmask : translated (.moveRelative dx dy) = some (mask p.held) ↔ mask p.held = 0 := by
      simp [translated, eq_comm]
    exact transmitted_eq_singleton.trans ((and_congr_left' hmask).trans and_left_comm)

end Step

/-- A sequence is transmitted as it should be exactly when all its events are plain. -/
theorem all_told_iff (live : Vnc.LiveSession) (p : Pointer) (calls : List PointerCall) :
    Told live p calls ↔ AllPlain live p calls := by
  induction calls generalizing p with
  | nil => exact Iff.rfl
  | cons call calls ih => exact and_congr (told_iff call) (ih (p.next call))

/-! ### A client that does not track the buttons -/

/-- Moves on the framebuffer, and the buttons that both numberings have in the same
place, left and right, going down and up there. -/
def Shared (live : Vnc.LiveSession) : PointerCall → Prop
  | .move _ x y => OnScreen live x y
  | .press button x y | .release button x y =>
    OnScreen live x y ∧ (button = .left ∨ button = .right)
  | .wheel .. | .trackpad .. | .moveRelative .. => False

/-- The mask of an event by itself: the button that goes down. -/
def ownMask : PointerCall → UInt8
  | .press .left _ _ => 1
  | .press .right _ _ => 4
  | _ => 0

/-- The buttons held that an event does not name. -/
def Pointer.others (p : Pointer) : PointerCall → Finset MouseButton
  | .press button _ _ | .release button _ _ => p.held.erase button
  | _ => p.held

/-- At every event of a sequence no other button is held. -/
def NoOther : Pointer → List PointerCall → Prop
  | _, [] => True
  | p, call :: calls => mask (p.others call) = 0 ∧ NoOther (p.next call) calls

theorem plain_iff {live : Vnc.LiveSession} {p : Pointer} {call : PointerCall}
    (h : Shared live call) : Plain live p call ↔ mask (p.others call) = 0 := by
  cases call with
  | move => exact and_iff_right h
  | press => exact (and_iff_right h.1).trans (and_iff_right h.2)
  | release button =>
    have hbutton : button = .left ∨ button = .right ∨ button = .middle := h.2.imp_right Or.inl
    exact (and_iff_right h.1).trans (and_iff_right hbutton)
  | wheel | trackpad | moveRelative => exact h.elim

theorem allPlain_iff {live : Vnc.LiveSession} {p : Pointer} {calls : List PointerCall}
    (h : ∀ call ∈ calls, Shared live call) : AllPlain live p calls ↔ NoOther p calls := by
  induction calls generalizing p with
  | nil => exact Iff.rfl
  | cons call calls ih =>
    exact and_congr (plain_iff (h call List.mem_cons_self))
      (ih fun other hother => h other (List.mem_cons_of_mem _ hother))

theorem transmitted_shared {live : Vnc.LiveSession} {call : PointerCall} (h : Shared live call) :
    transmitted live call = [⟨ownMask call, call.place.1, call.place.2⟩] := by
  rw [transmitted_eq_place]
  cases call with
  | move => exact ⟨rfl, h⟩
  | press button =>
    obtain ⟨hscreen, rfl | rfl⟩ := h
    · exact ⟨rfl, hscreen⟩
    · exact ⟨rfl, hscreen⟩
  | release button =>
    obtain ⟨hscreen, rfl | rfl⟩ := h
    · exact ⟨rfl, hscreen⟩
    · exact ⟨rfl, hscreen⟩
  | wheel | trackpad | moveRelative => exact h.elim

/-- **Every event tells its own button**, at its own place: the client does not track
which buttons are held.  So a server is told the pointer's state in exactly those
sequences in which no other button is held. -/
theorem pointer_told {live : Vnc.LiveSession} {calls : List PointerCall}
    (hshared : ∀ call ∈ calls, Shared live call) (p : Pointer) :
    (∀ call ∈ calls,
      transmitted live call = [⟨ownMask call, call.place.1, call.place.2⟩]) ∧
    (Told live p calls ↔ NoOther p calls) :=
  ⟨fun call hcall => transmitted_shared (hshared call hcall),
    (all_told_iff live p calls).trans (allPlain_iff hshared)⟩

theorem pointer_told_click : Told ⟨Vnc.preferredPixelFormat, 800, 600⟩ ⟨∅, 0, 0⟩
    [.press .left 10 20, .release .left 10 20, .move 0 30 20] := by
  refine (pointer_told (fun call hcall => ?_) _).2.mpr ⟨by decide, by decide, by decide, trivial⟩
  simp only [List.mem_cons, List.not_mem_nil, or_false] at hcall
  rcases hcall with rfl | rfl | rfl
  · exact ⟨⟨by decide, by decide⟩, .inl rfl⟩
  · exact ⟨⟨by decide, by decide⟩, .inl rfl⟩
  · exact ⟨by decide, by decide⟩

/-- A drag: the left button goes down, the pointer moves, and the server is told that no
button is held. -/
theorem drag_not_told : ¬Told ⟨Vnc.preferredPixelFormat, 800, 600⟩ ⟨∅, 0, 0⟩
    [.press .left 10 20, .move 0 30 20] := by
  rintro ⟨-, hmove, -⟩
  have hplain := (told_iff _).mp hmove
  exact absurd hplain.2 (by decide)

end PointerState

end RdEngine
