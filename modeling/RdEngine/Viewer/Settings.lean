/-
RdEngine/Viewer/Settings.lean

The two settings a caller may change while the viewer runs, the requested frame
rate and the image quality: what the viewer stores of a setting, and what the
messages on the wire have told the peer.
-/
import RdEngine.Viewer.Footprint

namespace RdEngine

namespace Viewer

open Threads

/-! ### Settings -/

/-- The option a setter pushes, and the access it stores the value with. -/
inductive Pushes : OptionMessage → Access → Prop
  | fps {fps : Nat} : 1 ≤ fps → Pushes { customFps := fps } (.setRequestedFps fps)
  | quality {quality : ViewerImageQuality} : validQuality quality = true →
      Pushes (qualityOption quality) (.setImageQuality quality)

theorem optionAccess_of_pushes {option : OptionMessage} {a : Access} (h : Pushes option a) :
    optionAccess a = true := by
  cases h <;> rfl

/-- A setting of the stream: the value an option message tells, the value stored,
and the access that stores it.  A setter pushes the value it stores, and no other
setter tells anything about this setting. -/
structure Setting (V : Type) where
  told : OptionMessage → Option V
  stored : State → V
  store : V → Access
  optionAccess_store : ∀ v, optionAccess (store v) = true
  stored_store : ∀ task s v answer, stored (effect task s (store v) answer) = v
  stored_other : ∀ task s a (answer : a.Answer), (∀ v, a ≠ store v) →
    stored (effect task s a answer) = stored s
  pushes : ∀ {option a}, Pushes option a →
    (∃ v, a = store v ∧ told option = some v) ∨ ((∀ v, a ≠ store v) ∧ told option = none)

/-- A frame rate is told by a positive number. -/
def toldFps (option : OptionMessage) : Option Nat :=
  if option.customFps > 0 then some option.customFps.toNat else none

/-- Only the accesses that store an option change one. -/
theorem options_effect (task : Task) (s : State) (a : Access) (answer : a.Answer)
    (h : optionAccess a = false) :
    (effect task s a answer).requestedFps = s.requestedFps ∧
      (effect task s a answer).imageQuality = s.imageQuality := by
  cases a with
  | setRequestedFps | setImageQuality => cases h
  | trySend queue message =>
    match answer with
    | .ok () => cases queue <;> exact ⟨rfl, rfl⟩
    | .error _ => exact ⟨rfl, rfl⟩
  | recv queue =>
    match answer with
    | .message e => cases queue <;> exact ⟨rfl, rfl⟩
    | .empty | .closed => exact ⟨rfl, rfl⟩
  | setRemote kind value => cases kind <;> exact ⟨rfl, rfl⟩
  | acquireSlot | acquireBytes | sendVideo | recvVideo | login | sendSecondFactor | send
  | awaitFirst | joinNext => cases answer <;> exact ⟨rfl, rfl⟩
  | _ => exact ⟨rfl, rfl⟩

/-- What a quality option tells is the quality it was made from. -/
theorem toldQuality_qualityOption {quality : ViewerImageQuality}
    (h : validQuality quality = true) : toldQuality (qualityOption quality) = some quality := by
  cases quality with
  | low | balanced | best => rfl
  | custom value =>
    have hrange : 10 ≤ value ∧ value ≤ 2000 := by simpa [validQuality] using h
    have hpositive : value > 0 := by omega
    simp [toldQuality, qualityOption, ViewerImageQuality.customQuality, hrange, hpositive]

/-- The rate, as a setting of the viewer. -/
def fpsSetting : Setting Nat where
  told := toldFps
  stored s := s.requestedFps
  store := .setRequestedFps
  optionAccess_store _ := rfl
  stored_store _ _ _ _ := rfl
  stored_other task s a answer h := by
    cases a with
    | setRequestedFps fps => exact absurd rfl (h fps)
    | setImageQuality quality => rfl
    | _ => exact (options_effect task s _ answer rfl).1
  pushes h := by
    cases h with
    | @fps fps hfps =>
      refine .inl ⟨fps, rfl, ?_⟩
      have hpositive : (fps : Int) > 0 := by omega
      rw [toldFps, if_pos hpositive]
      rfl
    | quality => exact .inr ⟨(fun _ ha => nomatch ha), rfl⟩

def qualitySetting : Setting ViewerImageQuality where
  told := toldQuality
  stored s := s.imageQuality
  store := .setImageQuality
  optionAccess_store _ := rfl
  stored_store _ _ _ _ := rfl
  stored_other task s a answer h := by
    cases a with
    | setRequestedFps fps => rfl
    | setImageQuality quality => exact absurd rfl (h quality)
    | _ => exact (options_effect task s _ answer rfl).2
  pushes h := by
    cases h with
    | fps => exact .inr ⟨(fun _ ha => nomatch ha), rfl⟩
    | quality hquality => exact .inl ⟨_, rfl, toldQuality_qualityOption hquality⟩

/-! ### What the peer was told -/

section Told

variable {V : Type} (setting : Setting V)

/-- The value a message tells: the login request's options, or an option
message. -/
def Setting.tells (message : Message) : Option V :=
  match message.union with
  | some (.loginRequest request) => request.option.bind setting.told
  | some (.misc ⟨some (.option option)⟩) => setting.told option
  | _ => none

/-- The message tells no value, and is no login. -/
def Setting.Silent (message : Message) : Prop :=
  setting.tells message = none ∧ isLogin message = false

/-- The last value the peer was told. -/
def Setting.lastTold (messages : List Message) : Option V :=
  (messages.filterMap setting.tells).getLast?

/-- The value in force for the peer: the last it was told, or the first one. -/
def Setting.current (first : V) (messages : List Message) : V :=
  (setting.lastTold messages).getD first

variable {setting} {first : V} {messages rest : List Message} {message : Message}

/-- A message that tells nothing changes nothing, wherever it stands. -/
theorem Setting.current_silent (h : setting.tells message = none) :
    setting.current first (messages ++ message :: rest)
      = setting.current first (messages ++ rest) := by
  simp [Setting.current, Setting.lastTold, h]

theorem Setting.current_snoc {v : V} (h : setting.tells message = some v) :
    setting.current first (messages ++ [message]) = v := by
  simp [Setting.current, Setting.lastTold, h]

/-- While everyone tells the first value, that one is in force. -/
theorem Setting.current_first
    (h : ∀ m ∈ messages, setting.tells m = none ∨ setting.tells m = some first) :
    setting.current first messages = first := by
  rw [Setting.current, Setting.lastTold]
  cases hlast : (messages.filterMap setting.tells).getLast? with
  | none => rfl
  | some v =>
    obtain ⟨m, hm, hv⟩ := List.mem_filterMap.mp (List.mem_of_getLast? hlast)
    rcases h m hm with hnone | hfirst
    · rw [hnone] at hv
      cases hv
    · rw [hfirst] at hv
      cases hv
      rfl

/-- Once somebody has told something, the value in force is the last told. -/
theorem Setting.lastTold_eq {v : V} (hmessage : message ∈ messages)
    (h : setting.tells message = some v) :
    setting.lastTold messages = some (setting.current first messages) := by
  rw [Setting.current, Setting.lastTold]
  cases hlast : (messages.filterMap setting.tells).getLast? with
  | some w => rfl
  | none =>
    rw [List.getLast?_eq_none_iff] at hlast
    have hmem : v ∈ messages.filterMap setting.tells :=
      List.mem_filterMap.mpr ⟨message, hmessage, h⟩
    rw [hlast] at hmem
    cases hmem

end Told

end Viewer

end RdEngine
