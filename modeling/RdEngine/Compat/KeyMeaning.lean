/-
RdEngine/Compat/KeyMeaning.lean

What becomes of a key event: of `send_key` on a RustDesk backend, through the
message, the host's `decode_key` and its injector to the host's keyboard, and on a
VNC backend through the key events the server reads.

The reference is a keystroke of `Lib/Keys`: the key between its modifiers.  The VNC
backend falls short of it where a press comes without a down.  The RustDesk host
leaves the modifiers out and takes a press for a down, so that it keeps to the
reference only where there are no modifiers and no press (`key_meaning`).
-/
import RdEngine.Compat.Input
import RdEngine.InputAgreement
import RdEngine.Platform.WindowsInput

namespace RdEngine

namespace KeyMeaning

open Threads Viewer Keys WindowsInput

/-! ### The meaning of a call -/

/-- The modifiers a frontend may set with a key. -/
inductive Modifier where
  | alt | ctrl | shift | command
  deriving DecidableEq, Repr

/-- The modifiers that are set, in the order of the calls. -/
def flagged (alt ctrl shift command : Bool) : List Modifier :=
  (if alt then [Modifier.alt] else []) ++ (if ctrl then [Modifier.ctrl] else []) ++
    (if shift then [Modifier.shift] else []) ++ if command then [Modifier.command] else []

/-- What is performed for a call is the keystroke it stands for, and after a press, or
after the release that follows a down or an up, nothing of it is held. -/
def Faithful {K : Type} (key : Option K) (modifiers : List K)
    (performs : Bool → Bool → List (Transition K)) (down press : Bool) : Prop :=
  ∃ k, key = some k ∧ Stroke modifiers k down press (performs down press) ∧
    ∀ held : Set K, ∀ j ∈ k :: modifiers,
      j ∉ after held (performs down press ++ if press then [] else performs false false)

section Faithful

variable {K : Type} {key : Option K} {modifiers : List K}
  {performs : Bool → Bool → List (Transition K)} {down press : Bool}

/-- It is enough that the call and the release are the keystrokes they stand for. -/
theorem faithful_of_strokes {k : K} (hkey : key = some k)
    (hcall : Stroke modifiers k down press (performs down press))
    (hrelease : press = false → Stroke modifiers k false false (performs false false)) :
    Faithful key modifiers performs down press := by
  refine ⟨k, hkey, hcall, fun held j hj => ?_⟩
  cases press with
  | true =>
    have hreleased := hcall.released (.inl rfl) hj held []
    rw [List.nil_append] at hreleased
    rw [if_pos rfl, List.append_nil]
    exact hreleased
  | false =>
    rw [if_neg Bool.false_ne_true]
    exact (hrelease rfl).released (.inr rfl) hj held _

end Faithful

/-! ### The RustDesk backend -/

/-- The event `Viewer::send_key` builds. -/
def legacyMessage (key : ViewerKey) (down press alt ctrl shift command : Bool) : Message :=
  keyMessage {
    down := down
    press := press
    mode := .known .legacy
    union := some (keyUnion key)
    modifiers := legacyModifiers alt ctrl shift command }

/-- What the host does with a message it received, its input armed. -/
def hostTransitions (message : Message) : List (Transition HostKey) :=
  match InputAgreement.decoded message with
  | some (.key action) =>
    match injectKey true action with
    | .ok records => records.map KeyRecord.transition
    | .error _ => []
  | _ => []

/-- The key of the host that a key stands for, if it has one. -/
def hostKey : ViewerKey → Option HostKey
  | .control key => (windowsVirtualKey key).map fun vk => ⟨vk, 0, false⟩
  | .character code =>
    match Input.charFromU32 code with
    | none => none
    | some character =>
      if isControl character ∨ character.toNat > 0xFFFF then none
      else some ⟨0, .ofNat character.toNat, true⟩

/-- The modifier as the host injects it. -/
def hostModifier : Modifier → HostKey
  | .alt => ⟨0x12, 0, false⟩
  | .ctrl => ⟨0x11, 0, false⟩
  | .shift => ⟨0x10, 0, false⟩
  | .command => ⟨0x5b, 0, false⟩

/-- A call that returns `Ok` has sent its event. -/
theorem sendKey_sends (key : ViewerKey) (down press alt ctrl shift command : Bool) :
    InputAgreement.Returning
      (fun record => record.sent = [legacyMessage key down press alt ctrl shift command]) {}
      (sendKey key down press alt ctrl shift command) := by
  refine InputAgreement.gate_record.bind fun record allowed hrecord => ?_
  subst hrecord
  cases allowed with
  | false => exact InputAgreement.error_record .inputNotAllowed
  | true => exact InputAgreement.enqueue_record rfl

section Host

variable {key : ViewerKey} {k : HostKey} {down press alt ctrl shift command : Bool}

/-- The host makes one transition: down for a down and for a press. -/
theorem hostTransitions_legacyMessage (hkey : hostKey key = some k) :
    hostTransitions (legacyMessage key down press alt ctrl shift command) =
      [⟨k, down || press⟩] := by
  cases key with
  | control key =>
    -- every control key but the unknown one is decoded to itself
    obtain ⟨vk, hvk, rfl⟩ := Option.map_eq_some_iff.mp hkey
    have hknown : key ≠ .unknown := by
      rintro rfl
      cases hvk
    have hdecoded : InputAgreement.decoded
        (legacyMessage (.control key) down press alt ctrl shift command) =
          some (.key (.control key (down || press))) := by
      cases key with
      | unknown => exact absurd rfl hknown
      | _ => rfl
    simp [hostTransitions, hdecoded, injectKey, hvk, KeyRecord.transition]
  | character code =>
    -- a character of the basic plane that is no control is injected as it is
    simp only [hostKey] at hkey
    cases hcharacter : Input.charFromU32 code with
    | none =>
      rw [hcharacter] at hkey
      cases hkey
    | some character =>
      rw [hcharacter] at hkey
      dsimp only at hkey
      split at hkey
      · cases hkey
      · next hprintable =>
        obtain rfl := Option.some.inj hkey
        obtain ⟨hcontrol, hplane⟩ := not_or.mp hprintable
        have hdecoded : InputAgreement.decoded
            (legacyMessage (.character code) down press alt ctrl shift command) =
              some (.key (.character character (down || press))) := by
          change (Input.decodeKey _).map InputAction.key = _
          simp [Input.decodeKey, EnumOrUnknown.enumValue, keyUnion, hcharacter, hcontrol]
        simp [hostTransitions, hdecoded, injectKey, injectCharacter, hplane, KeyRecord.transition]

/-- **The RustDesk backend is faithful** exactly to the plain downs and ups of the keys
the host has. -/
theorem host_faithful_iff :
    Faithful (hostKey key) ((flagged alt ctrl shift command).map hostModifier)
        (fun down press => hostTransitions (legacyMessage key down press alt ctrl shift command))
        down press ↔
      (hostKey key).isSome = true ∧ press = false ∧ flagged alt ctrl shift command = [] := by
  constructor
  · rintro ⟨k, hkey, hstroke, -⟩
    have hlength := hstroke.length
    dsimp only at hlength
    rw [hostTransitions_legacyMessage hkey, List.length_map, List.length_singleton] at hlength
    refine ⟨Option.isSome_iff_exists.mpr ⟨k, hkey⟩, ?_, ?_⟩
    · cases press with
      | false => rfl
      | true =>
        rw [if_pos rfl] at hlength
        omega
    · apply List.eq_nil_of_length_eq_zero
      split at hlength <;> omega
  · rintro ⟨hkey, rfl, hflagged⟩
    obtain ⟨k, hk⟩ := Option.isSome_iff_exists.mp hkey
    have hstroke : ∀ down, Stroke ((flagged alt ctrl shift command).map hostModifier) k down false
        (hostTransitions (legacyMessage key down false alt ctrl shift command)) := by
      intro down
      rw [hostTransitions_legacyMessage hk, hflagged, Bool.or_false]
      exact ⟨[], [], .nil, .nil, rfl⟩
    exact faithful_of_strokes hk (hstroke down) fun _ => hstroke false

end Host

/-! ### The VNC backend -/

/-- A `KeyEvent` as an RFB server reads it. -/
def readKeyEvent : Bytes → Option (Transition UInt32)
  | 4 :: down :: _ :: _ :: keysym =>
    if keysym.length = 4 then some ⟨.ofNat (Words.ofBe keysym), down != 0⟩ else none
  | _ => none

/-- What a VNC server reads out of these messages: keys that go down or up. -/
def serverTransitions (messages : List Bytes) : List (Transition UInt32) :=
  messages.filterMap readKeyEvent

/-- The key as an X server knows it. -/
def x11Key (key : ViewerKey) : Option UInt32 := (Compat.vncKeysym key).toOption

def x11Modifier : Modifier → UInt32
  | .alt => 0xFFE9
  | .ctrl => 0xFFE3
  | .shift => 0xFFE1
  | .command => 0xFFEB

theorem readKeyEvent_encode (down : Bool) (keysym : UInt32) :
    readKeyEvent (Vnc.encodeKeyEvent down keysym) = some ⟨keysym, down⟩ := by
  have hkeysym : Words.ofBe (Words.be 4 keysym.toNat) = keysym.toNat :=
    Words.ofBe_be_of_lt keysym.toNat_lt
  have hdown : (down.toUInt8 != 0) = down := by cases down <;> rfl
  have hlength : (Words.be 4 keysym.toNat).length = 4 := Words.be_length 4 _
  change (if (Words.be 4 keysym.toNat).length = 4 then
    some (⟨.ofNat (Words.ofBe (Words.be 4 keysym.toNat)), down.toUInt8 != 0⟩ : Transition UInt32)
      else none) = _
  rw [if_pos hlength, hkeysym, hdown, UInt32.ofNat_toNat]

theorem serverTransitions_map (down : Bool) (keysyms : List UInt32) :
    serverTransitions (keysyms.map (Vnc.encodeKeyEvent down)) = keysyms.map (⟨·, down⟩) := by
  induction keysyms with
  | nil => rfl
  | cons keysym keysyms ih =>
    rw [List.map_cons, List.map_cons, ← ih, serverTransitions,
      List.filterMap_cons_some (readKeyEvent_encode down keysym)]
    rfl

theorem vncModifiers_perm (alt ctrl shift command : Bool) :
    (Compat.vncModifiers alt ctrl shift command).Perm
      ((flagged alt ctrl shift command).map x11Modifier) := by
  revert alt ctrl shift command
  decide

section Server

variable {live : Vnc.LiveSession} {key : ViewerKey} {keysym : UInt32}
  {down press alt ctrl shift command : Bool}

/-- What the server reads of a call: a press without a down is an up alone. -/
theorem serverTransitions_sendKey (hkey : x11Key key = some keysym) :
    serverTransitions (Compat.BackendCall.messages live
        (.sendKey key down press alt ctrl shift command)) =
      (Compat.vncModifiers alt ctrl shift command).map (⟨·, true⟩) ++
        core keysym down (down && press) ++
          (Compat.vncModifiers alt ctrl shift command).reverse.map (⟨·, false⟩) := by
  have hok : Compat.vncKeysym key = .ok keysym := Compat.eq_ok_of_toOption hkey
  have hcore : serverTransitions ((if down then [Vnc.encodeKeyEvent true keysym] else []) ++
      (if !down || press then [Vnc.encodeKeyEvent false keysym] else [])) =
        core keysym down (down && press) := by
    have hup := readKeyEvent_encode false keysym
    have hdown := readKeyEvent_encode true keysym
    cases down <;> cases press <;> simp [serverTransitions, core, hup, hdown]
  rw [← serverTransitions_map, ← serverTransitions_map, ← hcore]
  simp only [Compat.BackendCall.messages, hok, Compat.keyMessages, serverTransitions,
    List.filterMap_append, List.append_assoc]

/-- **The VNC backend is faithful** exactly to the keys with an X11 keysym, where a
press comes with a down. -/
theorem server_faithful_iff :
    Faithful (x11Key key) ((flagged alt ctrl shift command).map x11Modifier)
        (fun down press => serverTransitions (Compat.BackendCall.messages live
          (.sendKey key down press alt ctrl shift command))) down press ↔
      (x11Key key).isSome = true ∧ (down = true ∨ press = false) := by
  have hperm := vncModifiers_perm alt ctrl shift command
  constructor
  · rintro ⟨keysym, hkey, hstroke, -⟩
    refine ⟨Option.isSome_iff_exists.mpr ⟨keysym, hkey⟩, ?_⟩
    have hlength := hstroke.length
    dsimp only at hlength
    rw [serverTransitions_sendKey hkey, ← hperm.length_eq] at hlength
    cases down with
    | true => exact .inl rfl
    | false =>
      cases press with
      | false => exact .inr rfl
      | true =>
        simp [core] at hlength
        omega
  · rintro ⟨hkey, hpress⟩
    obtain ⟨keysym, hk⟩ := Option.isSome_iff_exists.mp hkey
    have hstroke : ∀ {down press : Bool}, (down && press) = press →
        Stroke ((flagged alt ctrl shift command).map x11Modifier) keysym down press
          (serverTransitions (Compat.BackendCall.messages live
            (.sendKey key down press alt ctrl shift command))) := by
      intro down press hboth
      rw [serverTransitions_sendKey hk, hboth]
      exact ⟨_, _, hperm, (List.reverse_perm _).trans hperm, rfl⟩
    refine faithful_of_strokes hk (hstroke ?_) fun _ => hstroke rfl
    rcases hpress with rfl | rfl
    · exact Bool.true_and press
    · exact Bool.and_false down

end Server

/-- **The meaning of a key event**, on either backend and for every key, flag and
combination of down and press.  A call on a RustDesk backend that returns `Ok` has sent
the event, and the host performs the keystroke it stands for exactly when the host has
the key, there is no press and no modifier is flagged.  A VNC server is told the
keystroke exactly when the key has a keysym and a press comes with a down. -/
theorem key_meaning (live : Vnc.LiveSession) (key : ViewerKey)
    (down press alt ctrl shift command : Bool) :
    (InputAgreement.Returning
        (fun record => record.sent = [legacyMessage key down press alt ctrl shift command]) {}
        (sendKey key down press alt ctrl shift command) ∧
      (Faithful (hostKey key) ((flagged alt ctrl shift command).map hostModifier)
          (fun down press => hostTransitions (legacyMessage key down press alt ctrl shift command))
          down press ↔
        (hostKey key).isSome = true ∧ press = false ∧ flagged alt ctrl shift command = [])) ∧
    (Faithful (x11Key key) ((flagged alt ctrl shift command).map x11Modifier)
        (fun down press => serverTransitions (Compat.BackendCall.messages live
          (.sendKey key down press alt ctrl shift command))) down press ↔
      (x11Key key).isSome = true ∧ (down = true ∨ press = false)) :=
  ⟨⟨sendKey_sends key down press alt ctrl shift command, host_faithful_iff⟩, server_faithful_iff⟩

/-- Return pressed, without a down: the host performs a down and no up, and a server is
told an up and no down. -/
theorem press_alone_fails :
    ¬Faithful (hostKey (.control .return_)) []
        (fun down press => hostTransitions
          (legacyMessage (.control .return_) down press false false false false)) false true ∧
      ¬Faithful (x11Key (.control .return_)) []
        (fun down press => serverTransitions (Compat.BackendCall.messages
          ⟨Vnc.preferredPixelFormat, 800, 600⟩
          (.sendKey (.control .return_) down press false false false false))) false true := by
  refine ⟨fun h => ?_, fun h => ?_⟩
  · have hpress := ((@host_faithful_iff (.control .return_) false true false false false false).mp
      h).2.1
    cases hpress
  · have hpress := ((@server_faithful_iff _ (.control .return_) false true false false false
      false).mp h).2
    rcases hpress with hpress | hpress <;> cases hpress

end KeyMeaning

end RdEngine
