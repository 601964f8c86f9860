/-
RdEngine/Compat/Keystrokes.lean

What `SessionBackend::send_key` and `send_text` write to a VNC server, where
every write can fail.

A call is followed through the writes it attempts, in their order, each with
how it ended.  Modifiers are released whatever became of the key between them,
and so is every key that went down, unless the call is a key going down that is
to be held (`keys_let_up`).

A modifier whose press fails ends the call, with those before it down
(`sendKey_gives_up`); and a text is typed up to the character it is refused for
(`sendText_types`).
-/
import RdEngine.Compat.Input
import RdEngine.Lib.Keys

namespace RdEngine

namespace Keystrokes

open Compat Keys
open Viewer (ViewerKey)
open Vnc (VncError LiveSession encodeKeyEvent)

/-! ### Writes -/

/-- How the writes of a call end, one after the other. -/
abbrev Writes := Nat → Except VncError Unit

/-- The attempts of a call so far. -/
abbrev Log := List (Attempt UInt32)

/-- `VncSession::send_key`: one write. -/
def sendEvent (writes : Writes) (down : Bool) (keysym : UInt32) (log : Log) :
    Log × Except VncError Unit :=
  (log ++ [⟨⟨keysym, down⟩, (writes log.length).isOk⟩], writes log.length)

/-- The message of an attempt. -/
def message (attempt : Attempt UInt32) : Bytes := encodeKeyEvent attempt.down attempt.key

/-- The modifiers are pressed; the first that fails ends this. -/
def pressModifiers (writes : Writes) : List UInt32 → Log → Log × Except VncError Unit
  | [], log => (log, .ok ())
  | modifier :: modifiers, log =>
    match sendEvent writes true modifier log with
    | (log, .error error) => (log, .error error)
    | (log, .ok ()) => pressModifiers writes modifiers log

/-- The key between them. -/
def strike (writes : Writes) (keysym : UInt32) (down press : Bool) (log : Log) :
    Log × Except VncError Unit :=
  match (if down then sendEvent writes true keysym log else (log, .ok ())) with
  | (log, .error error) => (log, .error error)
  | (log, .ok ()) =>
    if !down || press then sendEvent writes false keysym log else (log, .ok ())

/-- The modifiers are released, whatever comes of it. -/
def releaseModifiers (writes : Writes) (modifiers : List UInt32) (log : Log) : Log :=
  modifiers.foldl (fun log modifier => (sendEvent writes false modifier log).1) log

/-- `send_key` on a VNC backend. -/
def sendKey (writes : Writes) (key : ViewerKey) (down press alt ctrl shift command : Bool) :
    Log × Except InputError Unit :=
  let modifiers := vncModifiers alt ctrl shift command
  match vncKeysym key with
  | .error error => ([], .error error)
  | .ok keysym =>
    match pressModifiers writes modifiers [] with
    | (log, .error error) => (log, .error (.vnc error))
    | (log, .ok ()) =>
      let (log, result) := strike writes keysym down press log
      (releaseModifiers writes modifiers.reverse log, result.mapError .vnc)

/-- The errors of `send_text`. -/
inductive TextError where
  /-- "character {character:?} has no Latin-1 keysym, which VNC needs" -/
  | character (character : Char)
  | vnc (error : VncError)

/-- The loop of `send_text`. -/
def typeText (writes : Writes) : List Char → Log → Log × Except TextError Unit
  | [], log => (log, .ok ())
  | character :: characters, log =>
    let code := character.toNat
    if code > 0xFF then (log, .error (.character character))
    else match sendEvent writes true (.ofNat code) log with
    | (log, .error error) => (log, .error (.vnc error))
    | (log, .ok ()) =>
      match sendEvent writes false (.ofNat code) log with
      | (log, .error error) => (log, .error (.vnc error))
      | (log, .ok ()) => typeText writes characters log

/-- `send_text` on a VNC backend. -/
def sendText (writes : Writes) (value : String) : Log × Except TextError Unit :=
  typeText writes value.toList []

/-! ### What each of them attempts -/

variable {writes : Writes} {modifiers : List UInt32} {log : Log}

theorem pressModifiers_cons {modifier : UInt32} (h : writes log.length = .ok ()) :
    pressModifiers writes (modifier :: modifiers) log
      = pressModifiers writes modifiers (log ++ [⟨⟨modifier, true⟩, true⟩]) := by
  conv_lhs => unfold pressModifiers sendEvent
  rw [h]
  rfl

/-- Presses that do not fail are followed by the rest. -/
theorem pressModifiers_append {before after : List UInt32}
    (h : ∀ i < before.length, (writes (log.length + i)).isOk = true) :
    pressModifiers writes (before ++ after) log
      = pressModifiers writes after (log ++ before.map (⟨⟨·, true⟩, true⟩)) := by
  induction before generalizing log with
  | nil =>
    rw [List.map_nil, List.append_nil]
    rfl
  | cons modifier before ih =>
    have hfirst : writes log.length = .ok () := by
      have hok := h 0 (Nat.succ_pos _)
      rw [Nat.add_zero] at hok
      cases hresult : writes log.length with
      | ok => rfl
      | error error =>
        rw [hresult] at hok
        cases hok
    have hrest : ∀ i < before.length,
        (writes ((log ++ [⟨⟨modifier, true⟩, true⟩] : Log).length + i)).isOk = true := by
      intro i hi
      have hok := h (i + 1) (Nat.succ_lt_succ hi)
      rw [List.length_append, List.length_singleton, Nat.add_assoc, Nat.add_comm 1]
      exact hok
    rw [List.cons_append, pressModifiers_cons hfirst, ih hrest, List.append_assoc]
    rfl

/-- Where no press fails, all modifiers are down. -/
theorem pressModifiers_ok (h : ∀ i < modifiers.length, (writes (log.length + i)).isOk = true) :
    pressModifiers writes modifiers log = (log ++ modifiers.map (⟨⟨·, true⟩, true⟩), .ok ()) := by
  have happend := @pressModifiers_append writes log modifiers [] h
  rw [List.append_nil] at happend
  exact happend

/-- Where one fails, it is the last attempt. -/
theorem pressModifiers_error {before after : List UInt32} {modifier : UInt32} {error : VncError}
    (h : ∀ i < before.length, (writes (log.length + i)).isOk = true)
    (hfails : writes (log.length + before.length) = .error error) :
    pressModifiers writes (before ++ modifier :: after) log
      = (log ++ before.map (⟨⟨·, true⟩, true⟩) ++ [⟨⟨modifier, true⟩, false⟩], .error error) := by
  rw [pressModifiers_append h]
  unfold pressModifiers sendEvent
  rw [List.length_append, List.length_map, hfails]
  rfl

/-- What was attempted of the modifiers. -/
theorem pressModifiers_messages (writes : Writes) (modifiers : List UInt32) (log : Log) :
    ∃ pressed : Log, (pressModifiers writes modifiers log).1 = log ++ pressed
      ∧ pressed.map message <+: modifiers.map (encodeKeyEvent true) := by
  induction modifiers generalizing log with
  | nil => exact ⟨[], (List.append_nil log).symm, List.nil_prefix⟩
  | cons modifier modifiers ih =>
    unfold pressModifiers sendEvent
    cases hwrite : writes log.length with
    | error error => exact ⟨[⟨⟨modifier, true⟩, false⟩], rfl, List.prefix_append [_] _⟩
    | ok =>
      obtain ⟨pressed, hlog, hmessages⟩ := ih (log ++ [⟨⟨modifier, true⟩, true⟩])
      refine ⟨⟨⟨modifier, true⟩, true⟩ :: pressed, hlog.trans ?_, ?_⟩
      · rw [List.append_assoc]
        rfl
      · exact List.cons_prefix_cons.mpr ⟨rfl, hmessages⟩

/-- All modifiers are let up, at least in attempt. -/
theorem releaseModifiers_spec (writes : Writes) (modifiers : List UInt32) (log : Log) :
    ∃ ups : Log, releaseModifiers writes modifiers log = log ++ ups
      ∧ ups.map (·.key) = modifiers ∧ ∀ up ∈ ups, up.down = false := by
  induction modifiers generalizing log with
  | nil => exact ⟨[], (List.append_nil log).symm, rfl, nofun⟩
  | cons modifier modifiers ih =>
    obtain ⟨ups, hlog, hkeys, hups⟩ := ih (sendEvent writes false modifier log).1
    refine ⟨⟨⟨modifier, false⟩, (writes log.length).isOk⟩ :: ups, ?_, ?_, ?_⟩
    · refine hlog.trans ?_
      unfold sendEvent
      rw [List.append_assoc]
      rfl
    · rw [List.map_cons, hkeys]
    · exact List.forall_mem_cons.mpr ⟨rfl, hups⟩

/-- The key is let up, unless it is to be held. -/
theorem strike_spec (writes : Writes) (keysym : UInt32) (down press : Bool) (log : Log) :
    ∃ struck : Log, (strike writes keysym down press log).1 = log ++ struck
      ∧ (struck.map message).Sublist ((if down then [encodeKeyEvent true keysym] else [])
        ++ if !down || press then [encodeKeyEvent false keysym] else [])
      ∧ LetUpBut (fun key => key = keysym ∧ down = true ∧ press = false) struck := by
  unfold strike
  cases down with
  | false =>
    refine ⟨[⟨⟨keysym, false⟩, (writes log.length).isOk⟩], rfl, List.Sublist.refl _, ?_⟩
    exact letUpBut_of_ups (by simp)
  | true =>
    rw [if_pos rfl]
    unfold sendEvent
    cases hwrite : writes log.length with
    | error error =>
      refine ⟨[⟨⟨keysym, true⟩, false⟩], rfl, List.sublist_append_left _ _, ?_⟩
      exact letUpBut_cons.mpr ⟨fun _ hdone => absurd hdone Bool.false_ne_true, letUpBut_nil⟩
    | ok =>
      cases press with
      | false =>
        refine ⟨[⟨⟨keysym, true⟩, true⟩], rfl, List.Sublist.refl _, ?_⟩
        exact letUpBut_cons.mpr ⟨fun _ _ => .inl ⟨rfl, rfl, rfl⟩, letUpBut_nil⟩
      | true =>
        dsimp only
        rw [Bool.not_true, Bool.false_or, if_pos rfl]
        refine ⟨[⟨⟨keysym, true⟩, true⟩, ⟨⟨keysym, false⟩, _⟩],
          by rw [List.append_assoc]; rfl, List.Sublist.refl _, ?_⟩
        refine letUpBut_cons.mpr ⟨fun _ _ => .inr ⟨_, List.mem_singleton_self _, rfl, rfl⟩, ?_⟩
        exact letUpBut_of_ups (by simp)

/-- Every character that was typed is let up, and none is typed from the first on that has
no keysym. -/
theorem typeText_spec (writes : Writes) (characters : List Char) (log : Log) :
    ∃ typed : Log, (typeText writes characters log).1 = log ++ typed
      ∧ LetUpBut (fun _ => False) typed
      ∧ typed.map message <+: (characters.takeWhile fun c => c.toNat ≤ 0xFF).flatMap fun c =>
        [encodeKeyEvent true (.ofNat c.toNat), encodeKeyEvent false (.ofNat c.toNat)] := by
  induction characters generalizing log with
  | nil => exact ⟨[], (List.append_nil log).symm, letUpBut_nil, List.nil_prefix⟩
  | cons c characters ih =>
    unfold typeText
    dsimp only
    -- the first character outside Latin-1 ends the text
    by_cases hc : c.toNat > 0xFF
    · rw [if_pos hc]
      exact ⟨[], (List.append_nil log).symm, letUpBut_nil, List.nil_prefix⟩
    · have htake : (c :: characters).takeWhile (fun c => c.toNat ≤ 0xFF)
          = c :: characters.takeWhile (fun c => c.toNat ≤ 0xFF) :=
        List.takeWhile_cons_of_pos (decide_eq_true (Nat.not_lt.mp hc))
      rw [if_neg hc, htake, List.flatMap_cons]
      unfold sendEvent
      cases hpress : writes log.length with
      | error error =>
        refine ⟨[⟨⟨.ofNat c.toNat, true⟩, false⟩], rfl, ?_, List.prefix_append [_] _⟩
        exact letUpBut_cons.mpr ⟨fun _ hdone => absurd hdone Bool.false_ne_true, letUpBut_nil⟩
      | ok =>
        dsimp only
        generalize hlift : writes _ = lifted
        have hpair : LetUpBut (fun _ => False)
            ([⟨⟨.ofNat c.toNat, true⟩, true⟩, ⟨⟨.ofNat c.toNat, false⟩, lifted.isOk⟩] : Log) :=
          letUpBut_cons.mpr ⟨fun _ _ => .inr ⟨_, List.mem_singleton_self _, rfl, rfl⟩,
            letUpBut_of_ups (by simp)⟩
        cases lifted with
        | error error => exact ⟨_, List.append_assoc .., hpair, List.prefix_append [_, _] _⟩
        | ok =>
          obtain ⟨typed, hlog, hletUp, hmessages⟩ := ih
            (log ++ [⟨⟨.ofNat c.toNat, true⟩, true⟩] ++ [⟨⟨.ofNat c.toNat, false⟩, true⟩])
          refine ⟨_, hlog.trans ?_, hpair.trans hletUp, ?_⟩
          · rw [List.append_assoc, List.append_assoc]
            rfl
          · rw [List.map_append]
            exact (List.prefix_append_right_inj _).mpr hmessages

/-! ### The calls -/

section

variable {key : ViewerKey} {keysym : UInt32} {down press alt ctrl shift command : Bool}

/-- What a call attempts whose modifiers could be pressed. -/
theorem sendKey_pressed (hkey : vncKeysym key = .ok keysym)
    (h : ∀ i < (vncModifiers alt ctrl shift command).length, (writes i).isOk = true) :
    ∃ struck ups : Log, (sendKey writes key down press alt ctrl shift command).1
        = (vncModifiers alt ctrl shift command).map (⟨⟨·, true⟩, true⟩) ++ (struck ++ ups)
      ∧ LetUpBut (fun k => k = keysym ∧ down = true ∧ press = false) struck
      ∧ ups.map (·.key) = (vncModifiers alt ctrl shift command).reverse
      ∧ ∀ up ∈ ups, up.down = false := by
  have hpressed : pressModifiers writes (vncModifiers alt ctrl shift command) []
      = ([] ++ (vncModifiers alt ctrl shift command).map (⟨⟨·, true⟩, true⟩), .ok ()) := by
    refine pressModifiers_ok fun i hi => ?_
    rw [List.length_nil, Nat.zero_add]
    exact h i hi
  obtain ⟨struck, hstruck, -, hletUp⟩ := strike_spec writes keysym down press
    ([] ++ (vncModifiers alt ctrl shift command).map (⟨⟨·, true⟩, true⟩))
  obtain ⟨ups, hups, hkeys, hall⟩ := releaseModifiers_spec writes
    (vncModifiers alt ctrl shift command).reverse
    (strike writes keysym down press
      ([] ++ (vncModifiers alt ctrl shift command).map (⟨⟨·, true⟩, true⟩))).1
  refine ⟨struck, ups, ?_, hletUp, hkeys, hall⟩
  unfold sendKey
  dsimp only
  rw [hkey, hpressed]
  refine hups.trans ?_
  rw [hstruck, List.nil_append, List.append_assoc]

theorem sendKey_letUp
    (h : ∀ i < (vncModifiers alt ctrl shift command).length, (writes i).isOk = true) :
    LetUpBut (fun k => vncKeysym key = .ok k ∧ down = true ∧ press = false)
      (sendKey writes key down press alt ctrl shift command).1 := by
  cases hkey : vncKeysym key with
  | error error =>
    unfold sendKey
    rw [hkey]
    exact letUpBut_nil
  | ok keysym =>
    obtain ⟨struck, ups, hlog, hletUp, hkeys, hups⟩ :=
      @sendKey_pressed _ _ _ down press _ _ _ _ hkey h
    have hstruck : LetUpBut (fun k => Except.ok (ε := InputError) keysym = .ok k
        ∧ down = true ∧ press = false) struck := by
      intro before a after hsplit hdown hdone
      rcases hletUp before a after hsplit hdown hdone with ⟨heq, hheld⟩ | hup
      · exact .inl ⟨congrArg _ heq.symm, hheld⟩
      · exact .inr hup
    rw [hlog]
    refine (hstruck.trans (letUpBut_of_ups hups)).append ?_
    intro a ha _ _
    obtain ⟨modifier, hmodifier, rfl⟩ := List.mem_map.mp ha
    -- each modifier is among those released
    have hmem : modifier ∈ ups.map (·.key) := by
      rw [hkeys]
      exact List.mem_reverse.mpr hmodifier
    obtain ⟨up, hup, hsame⟩ := List.mem_map.mp hmem
    exact .inr ⟨up, List.mem_append_right struck hup, hups up hup, hsame⟩

/-- A modifier that cannot be pressed ends the call, with those before it down. -/
theorem sendKey_gives_up {before after : List UInt32} {modifier : UInt32} {error : VncError}
    (hkey : vncKeysym key = .ok keysym)
    (hmodifiers : vncModifiers alt ctrl shift command = before ++ modifier :: after)
    (h : ∀ i < before.length, (writes i).isOk = true) (hfails : writes before.length = .error error) :
    sendKey writes key down press alt ctrl shift command
      = (before.map (⟨⟨·, true⟩, true⟩) ++ [⟨⟨modifier, true⟩, false⟩], .error (.vnc error)) := by
  have hpressed : pressModifiers writes (before ++ modifier :: after) []
      = ([] ++ before.map (⟨⟨·, true⟩, true⟩) ++ [⟨⟨modifier, true⟩, false⟩], .error error) := by
    refine pressModifiers_error (fun i hi => ?_) ?_
    · rw [List.length_nil, Nat.zero_add]
      exact h i hi
    · rw [List.length_nil, Nat.zero_add]
      exact hfails
  unfold sendKey
  dsimp only
  rw [hkey, hmodifiers, hpressed]
  rfl

/-- **What a call attempts is among the messages of the call**, in their order. -/
theorem sendKey_messages (writes : Writes) (key : ViewerKey)
    (down press alt ctrl shift command : Bool) (live : LiveSession) :
    ((sendKey writes key down press alt ctrl shift command).1.map message).Sublist
      ((BackendCall.sendKey key down press alt ctrl shift command).messages live) := by
  unfold sendKey BackendCall.messages
  dsimp only
  cases vncKeysym key with
  | error error => exact List.Sublist.refl _
  | ok keysym =>
    dsimp only
    obtain ⟨pressed, hpressed, hmessages⟩ :=
      pressModifiers_messages writes (vncModifiers alt ctrl shift command) []
    rw [List.nil_append] at hpressed
    unfold keyMessages
    generalize hresult : pressModifiers writes (vncModifiers alt ctrl shift command) [] = result
    obtain ⟨log, outcome⟩ := result
    rw [hresult] at hpressed
    obtain rfl : log = pressed := hpressed
    cases outcome with
    | error error =>
      -- a modifier was not written: neither the key nor its release follows
      rw [List.append_assoc, List.append_assoc]
      exact hmessages.sublist.trans (List.sublist_append_left _ _)
    | ok =>
      dsimp only
      obtain ⟨struck, hstruck, hstruckMessages, -⟩ := strike_spec writes keysym down press log
      obtain ⟨ups, hups, hkeys, hall⟩ := releaseModifiers_spec writes
        (vncModifiers alt ctrl shift command).reverse (strike writes keysym down press log).1
      have hupMessages : ups.map message
          = (vncModifiers alt ctrl shift command).reverse.map (encodeKeyEvent false) := by
        rw [← hkeys, List.map_map]
        refine List.map_congr_left fun up hup => ?_
        show encodeKeyEvent up.down up.key = _
        rw [hall up hup]
        rfl
      have hrest := hstruckMessages.append (List.Sublist.refl
        ((vncModifiers alt ctrl shift command).reverse.map (encodeKeyEvent false)))
      rw [List.append_assoc] at hrest
      rw [hups, hstruck, List.map_append, List.map_append, hupMessages]
      simp only [List.append_assoc]
      exact hmessages.sublist.append hrest

theorem sendText_messages (writes : Writes) (value : String) (live : LiveSession) :
    (sendText writes value).1.map message <+: (BackendCall.sendText value).messages live := by
  obtain ⟨typed, hlog, -, hmessages⟩ := typeText_spec writes value.toList []
  unfold sendText
  rw [hlog]
  exact hmessages

end

/-- **Keys are let up.**  After `send_key`, if every modifier could be pressed, each
modifier and the key was attempted to be released, but for a key going down that is to be
held; after `send_text` every character was, and what it attempted are the first of the
messages of the characters before any that has no keysym. -/
theorem keys_let_up (writes : Writes) (key : ViewerKey) (down press alt ctrl shift command : Bool)
    (value : String) :
    ((∀ i < (vncModifiers alt ctrl shift command).length, (writes i).isOk = true) →
      LetUpBut (fun k => vncKeysym key = .ok k ∧ down = true ∧ press = false)
        (sendKey writes key down press alt ctrl shift command).1)
    ∧ LetUpBut (fun _ => False) (sendText writes value).1
    ∧ (sendText writes value).1.map message
      <+: (value.toList.takeWhile fun c => c.toNat ≤ 0xFF).flatMap fun c =>
        [encodeKeyEvent true (.ofNat c.toNat), encodeKeyEvent false (.ofNat c.toNat)] := by
  obtain ⟨typed, hlog, hletUp, hmessages⟩ := typeText_spec writes value.toList []
  refine ⟨sendKey_letUp, ?_, ?_⟩
  · unfold sendText
    rw [hlog]
    exact hletUp
  · unfold sendText
    rw [hlog]
    exact hmessages

/-- The key fails between its modifiers. -/
def keyFails : Writes := fun i => if i = 1 then .error (.io "broken pipe") else .ok ()

theorem keys_let_up_failed :
    (sendKey keyFails (.character 97) true true false true false false).1
        = [⟨⟨0xFFE3, true⟩, true⟩, ⟨⟨97, true⟩, false⟩, ⟨⟨0xFFE3, false⟩, true⟩]
      ∧ LetUpBut (fun k => vncKeysym (.character 97) = .ok k ∧ true = true ∧ true = false)
        (sendKey keyFails (.character 97) true true false true false false).1 := by
  refine ⟨rfl, (keys_let_up keyFails (.character 97) true true false true false false "").1 ?_⟩
  intro i hi
  obtain rfl : i = 0 := Nat.lt_one_iff.mp hi
  rfl

/-- A key going down is held, with every write done. -/
theorem key_down_held :
    ¬ LetUpBut (fun _ => False)
      (sendKey (fun _ => .ok ()) (.character 97) true false false false false false).1 := by
  intro h
  rcases h [] ⟨⟨97, true⟩, true⟩ [] rfl rfl rfl with hfalse | ⟨up, hup, -⟩
  · exact hfalse
  · cases hup

end Keystrokes

end RdEngine
