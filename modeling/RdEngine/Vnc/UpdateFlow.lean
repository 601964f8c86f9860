/-
RdEngine/Vnc/UpdateFlow.lean

How many updates a live session has asked for, and how many have arrived.

A server answers each FramebufferUpdateRequest with one update at most.  The
session sends one request when it opens and one for each refresh of the
frontend; the reader sends none.  So while the reader waits, an update is still
to come exactly if the frontend has refreshed as often as updates have arrived
(`updates_flow_iff`).
-/
import RdEngine.Vnc.Frontend

namespace RdEngine

namespace Vnc

namespace Live

open Lts

variable {session : LiveSession}

/-! ### Counting -/

/-- A FramebufferUpdateRequest. -/
def isUpdateRequest (message : Bytes) : Bool := message.head? = some 3

/-- The FramebufferUpdateRequests sent. -/
def requests (s : Served) : Nat := s.sent.countP isUpdateRequest

def ServedEvent.isUpdate : ServedEvent → Bool
  | .live (.receives (.framebufferUpdate _)) => true
  | _ => false

/-- A refresh whose request was written. -/
def ServedEvent.isRefresh : ServedEvent → Bool
  | .call .refresh true => true
  | _ => false

/-- The server sends an update only in answer to a request. -/
def Answers (s : Served) (e : ServedEvent) : Prop :=
  e.isUpdate = true → s.live.counters.receivedUpdates < requests s

/-- The reader waits for a message, and the server owes an update. -/
def Flows (s : Served) : Prop :=
  s.live.reader = .reading → s.live.counters.receivedUpdates < requests s

/-- Of the frontend's messages only the refresh is a request. -/
theorem isUpdateRequest_message {call : Call} {message : Bytes}
    (h : call.message session = .ok message) :
    isUpdateRequest message = true ↔ call = .refresh := by
  cases call with
  | refresh =>
    cases h
    exact iff_of_true rfl rfl
  | mouse buttons x y =>
    refine iff_of_false ?_ nofun
    simp only [Call.message, sendMouse] at h
    split_ifs at h
    cases h
    exact nofun
  | key down keysym =>
    cases h
    exact iff_of_false nofun nofun
  | clipboard text =>
    refine iff_of_false ?_ nofun
    simp only [Call.message, sendClipboard, encodeClientCutText] at h
    split_ifs at h
    cases h
    exact nofun

theorem countP_message (call : Call) (written : Bool) :
    (if written then (call.message session).toOption.toList else []).countP isUpdateRequest
      = if (ServedEvent.call call written).isRefresh then 1 else 0 := by
  cases written with
  | false => cases call <;> rfl
  | true =>
    rw [if_pos rfl]
    cases hmessage : call.message session with
    | error e =>
      cases call with
      | refresh => cases hmessage
      | mouse | key | clipboard => rfl
    | ok message =>
      have hrequest := isUpdateRequest_message hmessage
      cases call with
      | refresh => simp [Except.toOption, ServedEvent.isRefresh, hrequest]
      | mouse | key | clipboard => simp [Except.toOption, ServedEvent.isRefresh, hrequest]

/-- The reader counts the updates it receives, and nothing else does. -/
theorem receivedUpdates_step {s : Live} {e : Event} {t : Live} (h : Step session s e t) :
    t.counters.receivedUpdates
      = s.counters.receivedUpdates + if (ServedEvent.live e).isUpdate then 1 else 0 := by
  cases h with
  | receives message => cases message <;> rfl
  | settleFailure | takeFrame =>
    first | unfold settleFailure | unfold takeFrame
    split <;> rfl
  | checkClosed | readFails | publish | keepClipboard | stops | takeClipboard | close => rfl

/-! ### Every run -/

/-- What the counts say of a run. -/
structure Counted (es : List ServedEvent) (s : Served) : Prop where
  requests : requests s = 1 + es.countP ServedEvent.isRefresh
  updates : s.live.counters.receivedUpdates = es.countP ServedEvent.isUpdate

theorem counted_opened (session : LiveSession) : Counted [] (.opened session) := ⟨rfl, rfl⟩

theorem Counted.step {es : List ServedEvent} {s : Served} {e : ServedEvent} {t : Served}
    (h : Counted es s) (hstep : ServedStep session s e t) : Counted (es ++ [e]) t := by
  cases hstep with
  | live hstep =>
    refine ⟨?_, ?_⟩
    · rw [List.countP_append]
      exact h.requests
    · rw [List.countP_append, List.countP_singleton]
      exact (receivedUpdates_step hstep).trans (by rw [h.updates])
  | call call written =>
    refine ⟨?_, ?_⟩
    · have hsent := @countP_message session call written
      rw [Live.requests, List.countP_append, hsent, List.countP_append, List.countP_singleton]
      have hbefore := h.requests
      rw [Live.requests] at hbefore
      omega
    · rw [List.countP_append]
      exact h.updates

theorem counted {es : List ServedEvent} {s : Served}
    (h : Run (ServedStep session) (.opened session) es s) : Counted es s :=
  Run.history (P := Counted) (fun _ _ _ _ hP hstep => hP.step hstep) h (counted_opened session)

/-- **An update is still to come exactly if the frontend has refreshed as often as
updates have arrived**: in every state of every run in which the reader waits for
the server. -/
theorem updates_flow_iff {es : List ServedEvent} {s : Served}
    (h : Run (ServedStep session) (.opened session) es s) (hreading : s.live.reader = .reading) :
    Flows s ↔ es.countP ServedEvent.isUpdate ≤ es.countP ServedEvent.isRefresh := by
  have hcounted := counted h
  rw [Flows, hcounted.requests, hcounted.updates]
  constructor
  · intro hflows
    have := hflows hreading
    omega
  · intro hle _
    omega

/-- Once every request is answered, no update arrives before the next refresh. -/
theorem stalls {s t : Served} {es : List ServedEvent}
    (h : Run (Where (ServedStep session) Answers) s es t)
    (hanswered : requests s ≤ s.live.counters.receivedUpdates)
    (hquiet : ∀ e ∈ es, e.isRefresh = false) : ∀ e ∈ es, e.isUpdate = false := by
  induction h with
  | nil => exact nofun
  | @cons s t u e es hst _ ih =>
    obtain ⟨hanswers, hstep⟩ := hst
    have he : e.isUpdate = false := by
      by_contra hupdate
      have := hanswers (Bool.not_eq_false _ ▸ hupdate)
      omega
    have hnext : requests t ≤ t.live.counters.receivedUpdates := by
      cases hstep with
      | live hstep =>
        rw [receivedUpdates_step hstep]
        exact Nat.le_add_right_of_le hanswered
      | call call written =>
        have hsent := @countP_message session call written
        rw [hquiet _ List.mem_cons_self, if_neg Bool.false_ne_true] at hsent
        rw [requests, List.countP_append, hsent]
        exact hanswered
    rintro e' he'
    rcases List.mem_cons.mp he' with rfl | he'
    · exact he
    · exact ih hnext (fun e h => hquiet e (List.mem_cons_of_mem _ h)) e' he'

/-! ### A screen that is drawn once -/

/-- The reader receives an update, publishes its frame and waits again. -/
def answered (rectangles : List Rectangle) : List ServedEvent :=
  [.live .checkClosed, .live (.receives (.framebufferUpdate rectangles)), .live .locks,
    .live .checkClosed]

/-- The opening request is answered, and the reader waits. -/
theorem run_answered (session : LiveSession) (rectangles : List Rectangle) :
    ∃ s, Run (Where (ServedStep session) Answers) (.opened session) (answered rectangles) s ∧
      s.live.reader = .reading ∧ ¬ Flows s := by
  refine ⟨_, .cons ⟨nofun, .live (.checkClosed rfl)⟩ (.cons ⟨fun _ => ?_,
    .live (.receives _ rfl)⟩ (.cons ⟨nofun, .live (.publish rfl)⟩
    (.single ⟨nofun, .live (.checkClosed rfl)⟩))), rfl, fun hflows => ?_⟩
  · show 0 < 1
    decide
  · exact absurd (show 1 < 1 from hflows rfl) (by decide)

theorem updates_stop : ¬ ∀ (session : LiveSession) (es : List ServedEvent) (s : Served),
    Run (Where (ServedStep session) Answers) (.opened session) es s → Flows s := by
  intro h
  obtain ⟨s, hrun, -, hflows⟩ := run_answered ⟨preferredPixelFormat, 2, 1⟩ []
  exact hflows (h _ _ _ hrun)

/-- The frontend refreshes once the opening request is answered, so the server owes an update
again. -/
theorem updates_flow_iff_opened : ∃ s,
    Run (ServedStep ⟨preferredPixelFormat, 2, 1⟩) (.opened ⟨preferredPixelFormat, 2, 1⟩)
      (answered [] ++ [.call .refresh true]) s ∧ s.live.reader = .reading ∧ Flows s := by
  have hanswered : Run (ServedStep ⟨preferredPixelFormat, 2, 1⟩)
      (.opened ⟨preferredPixelFormat, 2, 1⟩) (answered []) _ :=
    .cons (.live (.checkClosed rfl)) (.cons (.live (.receives _ rfl))
      (.cons (.live (.publish rfl)) (.single (.live (.checkClosed rfl)))))
  have hrun := hanswered.append (.single (.call _ .refresh true))
  exact ⟨_, hrun, rfl, (updates_flow_iff hrun rfl).mpr (by decide)⟩

end Live

end Vnc

end RdEngine
