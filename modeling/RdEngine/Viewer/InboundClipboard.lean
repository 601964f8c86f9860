/-
RdEngine/Viewer/InboundClipboard.lean

The inbound clipboard of the viewer: the receive task stores the texts of the peer's
clipboard records (`store_inbound_clipboard`), and callers take them
(`take_clipboard_text`), at any moment of a run of the engine.

The queue is a bounded one that displaces its oldest text.  The receive task is followed
by the texts of its record that it has still to store (`inboundGhost`), which ties the
queue to what was received: the accepted texts are those taken or displaced, then those
in the queue, then those still to be stored, in the order of their arrival
(`inbound_clipboard_queued`).
-/
import RdEngine.Lib.Displacing
import RdEngine.Viewer.Footprint
import RdEngine.Viewer.Progress

namespace RdEngine

namespace Viewer

open Lts Threads
open Displacing (Op Departure Shows put puts takes account_run)

/-! ### Reading the clipboard -/

/-- The local clipboard policy. -/
def Setup.localClipboard (setup : Setup) : Bool := localClipboardEnabled && setup.clipboardEnabled

/-- `State::take_clipboard`. -/
def State.takeClipboard (s : State) : Option String × State :=
  (s.clipboard.head?, { s with clipboard := s.clipboard.tail })

/-- `Viewer::take_clipboard_text`. -/
def takeClipboardText (setup : Setup) (s : State) : Option String × State :=
  if !setup.localClipboard then (none, s) else s.takeClipboard

/-- A step of the engine, or a read with its answer. -/
inductive Event where
  | engine (label : Label Access.Answer Task)
  | take (answer : Option String)

/-- The engine with the callers that read the clipboard. -/
inductive ReadStep (setup : Setup) : Config Access.Answer Outcome State Task → Event →
    Config Access.Answer Outcome State Task → Prop
  | engine {c d : Config Access.Answer Outcome State Task} {l : Label Access.Answer Task} :
      Step (engine setup) c l d → ReadStep setup c (.engine l) d
  | take (c : Config Access.Answer Outcome State Task) :
      ReadStep setup c (.take (takeClipboardText setup c.shared).1)
        { c with shared := (takeClipboardText setup c.shared).2 }

/-! ### Decompression -/

/-- What a decoder of the compression makes of some data: its output, and whether that
ends without an error. -/
structure Decoding where
  output : Bytes
  ended : Bool
  deriving DecidableEq, Repr

/-- `decompress_with_limit`. -/
def decompressWithLimit (decoder : Bytes → Option Decoding) (data : Bytes) (limit : Nat) :
    Option Bytes :=
  match decoder data with
  | none => none
  | some decoding =>
    let output := decoding.output.take (limit + 1)
    -- an error behind the last byte that is read is not met
    if output.length ≤ limit ∧ !decoding.ended then none
    else if output.length > limit then none
    else some output

/-- Data is decompressed if all of its output is within the limit. -/
theorem decompressWithLimit_eq_some_iff {decoder : Bytes → Option Decoding} {data raw : Bytes}
    {limit : Nat} :
    decompressWithLimit decoder data limit = some raw ↔
      decoder data = some ⟨raw, true⟩ ∧ raw.length ≤ limit := by
  unfold decompressWithLimit
  rcases decoder data with - | ⟨output, ended⟩
  · exact iff_of_false nofun fun h => nomatch h.1
  · dsimp only
    by_cases hlong : output.length ≤ limit
    · rw [List.take_of_length_le (by omega)]
      cases ended with
      | false => simp [hlong]
      | true =>
        rw [if_neg (by simp), if_neg (by omega), Option.some_inj, Option.some_inj,
          Decoding.mk.injEq]
        constructor
        · rintro rfl
          exact ⟨⟨rfl, rfl⟩, hlong⟩
        · exact fun h => h.1.1
    · have htake : (output.take (limit + 1)).length = limit + 1 := by
        rw [List.length_take]
        omega
      rw [if_neg (by omega), if_pos (by omega)]
      refine iff_of_false nofun ?_
      rintro ⟨houtput, hlength⟩
      cases houtput
      exact hlong hlength

/-! ### What is accepted -/

/-- A record holds these bytes, compressed where it says so. -/
def Setup.Holds (setup : Setup) (clipboard : Clipboard) (raw : Bytes) : Prop :=
  if clipboard.compress then
    setup.decompressWithLimit clipboard.content maxInboundClipboardText = some raw
  else clipboard.content = raw

/-- A record is accepted with a text: it is of the text format, and its text is in UTF-8,
not empty, and within the limit, before it is decompressed and after. -/
structure Acceptable (setup : Setup) (clipboard : Clipboard) (text : String) : Prop where
  format : clipboard.format = .known .text
  content : clipboard.content.length ≤ maxInboundClipboardText
  holds : setup.Holds clipboard (utf8 text)
  nonempty : text.utf8ByteSize ≠ 0
  size : text.utf8ByteSize ≤ maxInboundClipboardText

theorem inboundText_eq_some_iff {setup : Setup} {clipboard : Clipboard} {text : String} :
    inboundText setup clipboard = some text ↔ Acceptable setup clipboard text := by
  have hformat : clipboard.format.enumValue = some .text ↔ clipboard.format = .known .text := by
    cases clipboard.format with
    | known format => simp [EnumOrUnknown.enumValue]
    | unknown number => simp [EnumOrUnknown.enumValue]
  have hraw : ∀ raw, (if clipboard.compress then
      setup.decompressWithLimit clipboard.content maxInboundClipboardText
      else some clipboard.content) = some raw ↔ setup.Holds clipboard raw := by
    intro raw
    rw [Setup.Holds]
    split
    · rfl
    · exact Option.some_inj
  -- what is left to do once the bytes of the text are there
  have htext : ∀ raw : Bytes, (if raw.isEmpty ∨ raw.length > maxInboundClipboardText then none
      else String.fromUTF8? ⟨raw.toArray⟩) = some text ↔
        raw = utf8 text ∧ text.utf8ByteSize ≠ 0 ∧ text.utf8ByteSize ≤ maxInboundClipboardText := by
    intro raw
    rw [← length_utf8]
    by_cases hbad : raw.isEmpty ∨ raw.length > maxInboundClipboardText
    · rw [if_pos hbad]
      refine iff_of_false nofun ?_
      rintro ⟨rfl, hne, hle⟩
      rcases hbad with hempty | hlong
      · exact hne (List.length_eq_zero_iff.mpr (List.isEmpty_iff.mp hempty))
      · omega
    · rw [if_neg hbad, fromUTF8_eq_some_iff]
      rw [not_or, List.isEmpty_iff, ← List.length_eq_zero_iff] at hbad
      constructor
      · rintro rfl
        exact ⟨rfl, hbad.1, Nat.le_of_not_gt hbad.2⟩
      · exact fun h => h.1
  rw [inboundText]
  by_cases hplain : clipboard.format = .known .text
  · rw [if_neg (not_not.mpr (hformat.mpr hplain))]
    by_cases hlong : clipboard.content.length > maxInboundClipboardText
    · rw [if_pos hlong]
      exact iff_of_false nofun fun h => absurd h.content (by omega)
    · rw [if_neg hlong]
      dsimp only
      split
      · next hnone =>
        refine iff_of_false nofun fun h => ?_
        rw [(hraw _).mpr h.holds] at hnone
        cases hnone
      · next raw hsome =>
        rw [htext]
        constructor
        · rintro ⟨rfl, hne, hle⟩
          exact ⟨hplain, by omega, (hraw _).mp hsome, hne, hle⟩
        · intro h
          refine ⟨?_, h.nonempty, h.size⟩
          exact Option.some_inj.mp (hsome.symm.trans ((hraw _).mpr h.holds))
  · rw [if_pos fun h => hplain (hformat.mp h)]
    exact iff_of_false nofun fun h => hplain h.format

/-- The texts of those records that are accepted, in order. -/
inductive Accepts (setup : Setup) : List Clipboard → List String → Prop
  | nil : Accepts setup [] []
  | accepted {clipboard : Clipboard} {text : String} {clipboards : List Clipboard}
      {texts : List String} (h : Acceptable setup clipboard text)
      (hrest : Accepts setup clipboards texts) :
      Accepts setup (clipboard :: clipboards) (text :: texts)
  | dropped {clipboard : Clipboard} {clipboards : List Clipboard} {texts : List String}
      (h : ∀ text, ¬ Acceptable setup clipboard text)
      (hrest : Accepts setup clipboards texts) : Accepts setup (clipboard :: clipboards) texts

theorem accepts_inboundText (setup : Setup) (clipboards : List Clipboard) :
    Accepts setup clipboards (clipboards.filterMap (inboundText setup)) := by
  induction clipboards with
  | nil => exact .nil
  | cons clipboard clipboards ih =>
    cases htext : inboundText setup clipboard with
    | none =>
      rw [List.filterMap_cons_none htext]
      refine .dropped (fun text h => ?_) ih
      rw [inboundText_eq_some_iff.mpr h] at htext
      cases htext
    | some text =>
      rw [List.filterMap_cons_some htext]
      exact .accepted (inboundText_eq_some_iff.mp htext) ih

/-! ### Histories -/

/-- The clipboard records of a message. -/
def clipboardsOf (message : Message) : List Clipboard :=
  match message.union with
  | some (.clipboard clipboard) => [clipboard]
  | some (.multiClipboards clipboards) => clipboards
  | _ => []

namespace Event

/-- The clipboard records that the receive task received. -/
def received : Event → List Clipboard
  | engine (.access _ .incoming (.message message)) => clipboardsOf message
  | _ => []

def stored : Event → Option String
  | engine (.access _ (.storeClipboard text) _) => some text
  | _ => none

def taken : Event → Option String
  | engine _ => none
  | take answer => answer

/-- What an event does to the queue. -/
def op : Event → Option (Op String)
  | engine (.access _ (.storeClipboard text) _) => some (.put text)
  | take (some text) => some (.take text)
  | _ => none

end Event

def received (es : List Event) : List Clipboard := es.flatMap Event.received

def stored (es : List Event) : List String := es.filterMap Event.stored

def taken (es : List Event) : List String := es.filterMap Event.taken

/-- What an event stores is what it puts, and what it hands out is what it takes. -/
theorem Event.op_bind (e : Event) :
    e.op.bind Op.entryPut = e.stored ∧ e.op.bind Op.entryTaken = e.taken := by
  cases e with
  | take answer => cases answer <;> exact ⟨rfl, rfl⟩
  | engine l =>
    cases l with
    | start => exact ⟨rfl, rfl⟩
    | access task a answer => cases a <;> exact ⟨rfl, rfl⟩

theorem puts_op (es : List Event) : puts (es.filterMap Event.op) = stored es := by
  rw [puts, List.filterMap_filterMap, stored]
  congr 1
  funext e
  exact e.op_bind.1

theorem takes_op (es : List Event) : takes (es.filterMap Event.op) = taken es := by
  rw [takes, List.filterMap_filterMap, taken]
  congr 1
  funext e
  exact e.op_bind.2

/-! ### The queue -/

theorem clipboard_effect (task : Task) (s : State) (a : Access) (answer : a.Answer) :
    (effect task s a answer).clipboard =
      match a with
      | .storeClipboard text => put clipboardQueue s.clipboard text
      | _ => s.clipboard := by
  cases a with
  | trySend queue message =>
    cases answer with
    | error => rfl
    | ok => cases queue <;> rfl
  | recv queue =>
    cases answer with
    | message e => cases queue <;> rfl
    | empty | closed => rfl
  | setRemote kind value => cases kind <;> rfl
  | acquireSlot | acquireBytes | sendVideo | recvVideo | login | sendSecondFactor | send
  | awaitFirst | joinNext => cases answer <;> rfl
  | _ => rfl

/-- Stores and takes are the operations of a bounded queue, and nothing else touches
it. -/
theorem shows_clipboard (setup : Setup) :
    Shows clipboardQueue (ReadStep setup) Event.op fun c => c.shared.clipboard := by
  intro c e d hstep
  cases hstep with
  | engine hstep =>
    cases hstep with
    | start => exact .inl ⟨rfl, rfl⟩
    | @access task a rest answer s' hi hperform =>
      obtain ⟨-, rfl⟩ := hperform
      have hqueue := clipboard_effect task c.shared a answer
      cases a with
      | storeClipboard text =>
        refine .inr ⟨.put text, rfl, ?_⟩
        show Displacing.Step _ _ _ (effect task c.shared _ answer).clipboard
        rw [hqueue]
        exact .put _ text
      | _ => exact .inl ⟨rfl, hqueue⟩
  | take =>
    -- a read that finds nothing, or is refused, is no operation
    show ((Event.take (takeClipboardText setup c.shared).1).op = none ∧
      (takeClipboardText setup c.shared).2.clipboard = c.shared.clipboard) ∨ ∃ o, _ ∧
      Displacing.Step _ c.shared.clipboard o (takeClipboardText setup c.shared).2.clipboard
    rw [takeClipboardText]
    split
    · exact .inl ⟨rfl, rfl⟩
    · rw [State.takeClipboard]
      dsimp only
      cases c.shared.clipboard with
      | nil => exact .inl ⟨rfl, rfl⟩
      | cons text queue => exact .inr ⟨.take text, rfl, .take text queue⟩

/-! ### What the receive task has still to store -/

/-- The texts a program is about to store, one after the other. -/
def unstored : Program Outcome → List String
  | .access (.storeClipboard text) rest => text :: unstored (rest ())
  | _ => []

/-- The texts that are to be stored of a message. -/
def arrivals (setup : Setup) (message : Message) : List String :=
  if setup.localClipboard then (clipboardsOf message).filterMap (inboundText setup) else []

/-- The receive task remembers the texts it has to store, and does nothing else before
they are stored. -/
def inboundGhost (setup : Setup) : Ghost Access.Answer (List String) where
  next pending a answer :=
    match a, answer with
    | .incoming, .message message => arrivals setup message
    | .storeClipboard _, _ => pending.tail
    | _, _ => pending
  admits pending a :=
    match a with
    | .storeClipboard text => pending.head? = some text
    | _ => pending = []

/-- Nothing is left to be stored. -/
def NothingPending (pending : List String) (_ : Outcome) : Prop := pending = []

section Pending

variable {setup : Setup}

theorem unstored_of_follows {pending : List String} {p : Program Outcome}
    (h : Follows (inboundGhost setup) NothingPending pending p) : unstored p = pending := by
  induction p generalizing pending with
  | ret result => exact h.symm
  | access a rest ih =>
    obtain ⟨hadmits, hrest⟩ := h
    cases a with
    | storeClipboard text =>
      cases pending with
      | nil => cases hadmits
      | cons first pending =>
        cases Option.some_inj.mp hadmits
        rw [unstored, ih () (hrest ())]
        rfl
    | _ => exact hadmits.symm

/-- Accesses that neither receive a message nor store a text. -/
def plainAccess : Access → Bool
  | .incoming | .storeClipboard _ => false
  | _ => true

theorem follows_plain {p : Program Outcome} (h : Within plainAccess p) :
    Follows (inboundGhost setup) NothingPending [] p := by
  refine h.follows (fun a ha => ?_) (fun a answer ha => ?_) fun _ => rfl
  · cases a with
    | storeClipboard text => cases ha
    | _ => rfl
  · cases a with
    | incoming | storeClipboard => cases ha
    | _ => rfl

theorem follows_storeInbound (clipboards : List Clipboard) :
    Follows (inboundGhost setup) (fun pending _ => pending = [])
      (clipboards.filterMap (inboundText setup)) (storeInbound setup clipboards) := by
  induction clipboards with
  | nil => exact rfl
  | cons clipboard clipboards ih =>
    rw [storeInbound]
    cases htext : inboundText setup clipboard with
    | none =>
      rw [List.filterMap_cons_none htext]
      exact ih
    | some text =>
      rw [List.filterMap_cons_some htext]
      exact ⟨rfl, fun _ => ih⟩

/-- A record is stored text by text, and the turn ends. -/
theorem follows_receiveClipboards (clipboards : List Clipboard) (outcome : Outcome) :
    Follows (inboundGhost setup) NothingPending
      (if setup.localClipboard then clipboards.filterMap (inboundText setup) else [])
      ((receiveClipboards setup clipboards).bind fun _ => .ret outcome) := by
  refine Follows.bind (Q := fun pending _ => pending = []) ?_ fun pending _ h => h
  show Follows _ _ _ (if (!setup.localClipboard) = true then _ else _)
  cases setup.localClipboard with
  | false => exact rfl
  | true => exact follows_storeInbound clipboards

theorem follows_inboundMessage (decoders : Decoders) (source : Geometry) (message : Message) :
    Follows (inboundGhost setup) NothingPending (arrivals setup message)
      (receiveMessage setup decoders source message) := by
  have hexit : ∀ result, Within plainAccess (exit result) := within_exit fun _ => rfl
  have hnone : clipboardsOf message = [] → arrivals setup message = [] := by
    intro h
    rw [arrivals, h]
    exact ite_self _
  -- only clipboard records bring texts, and only their branches store any
  rw [receiveMessage.eq_def]
  split
  · next frame hunion =>
    rw [hnone (by rw [clipboardsOf, hunion])]
    exact follows_plain (within_receiveVideo (fun _ => rfl) rfl (fun _ => rfl) (fun _ => rfl) _ _ _)
  · next probe hunion =>
    rw [hnone (by rw [clipboardsOf, hunion])]
    split
    · exact rfl
    · refine follows_plain ⟨rfl, fun sent => ?_⟩
      dsimp only [Prog.bind]
      split
      · exact trivial
      · exact hexit _
  · next misc hunion =>
    rw [hnone (by rw [clipboardsOf, hunion])]
    refine follows_plain ?_
    rw [receiveMisc.eq_def]
    split
    · refine Within.bind ?_ fun _ => within_ret _
      rw [receivePermission]
      split
      · exact ⟨rfl, fun _ => trivial⟩
      · exact ⟨rfl, fun _ => trivial⟩
      · exact trivial
    · exact hexit _
    · split
      · exact hexit _
      · exact ⟨rfl, fun _ => trivial⟩
    · refine ((within_receiveOption _).mono fun a ha => ?_).bind fun _ => within_ret _
      cases a <;> first | rfl | cases ha
    · exact trivial
  · next clipboard hunion =>
    rw [arrivals, clipboardsOf, hunion]
    exact follows_receiveClipboards _ _
  · next clipboards hunion =>
    rw [arrivals, clipboardsOf, hunion]
    exact follows_receiveClipboards _ _
  · next hother =>
    refine (hnone ?_) ▸ rfl
    rw [clipboardsOf]
    split <;> simp_all

theorem follows_inboundTurn (decoders : Decoders) (source : Geometry) :
    Follows (inboundGhost setup) NothingPending [] (receiveTurn setup decoders source) := by
  have hexit : ∀ result, Within plainAccess (exit result) := within_exit fun _ => rfl
  refine ⟨rfl, fun arrival => ?_⟩
  cases arrival with
  | ended | failed | cancelled => exact follows_plain (hexit _)
  | message message => exact follows_inboundMessage decoders source message

end Pending

/-! ### Runs -/

/-- What is to be stored in the course of an event. -/
def Event.arrived (setup : Setup) : Event → List String
  | engine (.access _ .incoming (.message message)) => arrivals setup message
  | _ => []

theorem arrived_eq (setup : Setup) (es : List Event) :
    es.flatMap (Event.arrived setup) =
      if setup.localClipboard then (received es).filterMap (inboundText setup) else [] := by
  have hone : ∀ e : Event, e.arrived setup =
      if setup.localClipboard then e.received.filterMap (inboundText setup) else [] := by
    intro e
    unfold Event.arrived Event.received
    split
    · rfl
    · exact (ite_self _).symm
  induction es with
  | nil => exact (ite_self _).symm
  | cons e es ih =>
    have hreceived : received (e :: es) = e.received ++ received es := List.flatMap_cons ..
    rw [List.flatMap_cons, hone, ih, hreceived, List.filterMap_append]
    split
    · rfl
    · rfl

/-- The texts of the records received so far have been stored, but for those that the
receive task is about to store. -/
structure StoresInOrder (setup : Setup) (es : List Event)
    (c : Config Access.Answer Outcome State Task) : Prop where
  within : ∀ task : Task, Within task.access (c.threads task)
  pending : ∃ pending, Follows (inboundGhost setup) NothingPending pending (c.threads .receive) ∧
    es.flatMap (Event.arrived setup) = stored es ++ pending

section Runs

variable {setup : Setup} {es : List Event} {c d : Config Access.Answer Outcome State Task}

/-- Only the receive task receives and stores. -/
theorem plain_of_ne_receive (setup : Setup) {task : Task} (htask : task ≠ .receive) {a : Access}
    (ha : task.access a = true) (answer : a.Answer) :
    (Event.engine (.access task a answer)).arrived setup = [] ∧
      (Event.engine (.access task a answer)).stored = none := by
  cases a with
  | incoming | storeClipboard =>
    cases task with
    | receive => exact absurd rfl htask
    | run | write | feed | caller => cases ha
  | _ => exact ⟨rfl, rfl⟩

/-- What an access of the receive task stores is the first of what is pending, and what it
receives becomes pending. -/
theorem pending_next {pending : List String} {a : Access} {answer : a.Answer}
    (hadmits : (inboundGhost setup).admits pending a) :
    pending ++ (Event.engine (.access .receive a answer)).arrived setup =
      (Event.engine (.access .receive a answer)).stored.toList ++
        (inboundGhost setup).next pending a answer := by
  cases a with
  | incoming =>
    obtain rfl : pending = [] := hadmits
    cases answer <;> rfl
  | storeClipboard text =>
    cases pending with
    | nil => cases hadmits
    | cons first pending =>
      cases Option.some_inj.mp hadmits
      exact List.append_nil _
  | _ =>
    obtain rfl : pending = [] := hadmits
    rfl

theorem StoresInOrder.silent (h : StoresInOrder setup es c) {e : Event}
    (harrived : e.arrived setup = []) (hstored : e.stored = none) (hwithin : ∀ task : Task, Within task.access (d.threads task))
    (hreceive : d.threads .receive = c.threads .receive) : StoresInOrder setup (es ++ [e]) d := by
  obtain ⟨pending, hfollows, heq⟩ := h.pending
  refine ⟨hwithin, pending, by rw [hreceive]; exact hfollows, ?_⟩
  rw [List.flatMap_append, List.flatMap_singleton, harrived, List.append_nil, heq, stored, stored,
    filterMap_snoc, hstored]
  simp

theorem StoresInOrder.step (h : StoresInOrder setup es c) {e : Event}
    (hstep : ReadStep setup c e d) : StoresInOrder setup (es ++ [e]) d := by
  cases hstep with
  -- a reader takes a text and stores none
  | take => exact h.silent rfl (by cases (takeClipboardText setup c.shared).1 <;> rfl) h.within rfl
  | @engine _ l hstep =>
    have hwithin : ∀ task : Task, Within task.access (d.threads task) :=
      within_run (M := engine setup) (P := Task.access) (fun h => start_within h) (.single hstep)
        h.within
    cases hstep with
    | @start task outcome program hi hstart =>
      by_cases htask : task = .receive
      · -- the last turn has stored all it had to
        subst htask
        obtain ⟨pending, hfollows, heq⟩ := h.pending
        rw [hi] at hfollows
        obtain rfl : pending = [] := hfollows
        refine ⟨hwithin, [], ?_, ?_⟩
        · rw [Config.set_threads]
          cases hstart with
          | spawnReceive | receive => exact follows_inboundTurn _ _
        · rw [List.flatMap_append, heq, stored, stored, filterMap_snoc]
          simp [Event.arrived, Event.stored]
      · exact h.silent rfl rfl hwithin (Config.set_threads_of_ne _ (Ne.symm htask) ..)
    | @access task a rest answer s' hi hperform =>
      by_cases htask : task = .receive
      · subst htask
        obtain ⟨pending, hfollows, heq⟩ := h.pending
        rw [hi] at hfollows
        obtain ⟨hadmits, hrest⟩ := hfollows
        refine ⟨hwithin, (inboundGhost setup).next pending a answer, ?_, ?_⟩
        · rw [Config.set_threads]
          exact hrest answer
        · rw [List.flatMap_append, List.flatMap_singleton, heq, List.append_assoc,
            pending_next hadmits, ← List.append_assoc, stored, stored, filterMap_snoc]
      · have ha : task.access a = true := by
          have htaskWithin := h.within task
          rw [hi] at htaskWithin
          exact htaskWithin.1
        obtain ⟨harrived, hstored⟩ := plain_of_ne_receive setup htask ha answer
        exact h.silent harrived hstored hwithin (Config.set_threads_of_ne _ (Ne.symm htask) ..)

theorem storesInOrder_run (hrun : Run (ReadStep setup) (initial setup) es c) :
    StoresInOrder setup es c := by
  refine hrun.history (P := StoresInOrder setup) (fun es c e d h hstep => h.step hstep) ?_
  exact ⟨fun task => by cases task <;> exact trivial, [], rfl, rfl⟩

end Runs

/-! ### The theorem -/

/-- A text was the oldest of a full queue when the receive task stored another one; the
texts before it had left the queue as `left` says. -/
def DisplacedFull (setup : Setup) (es : List Event) (c : Config Access.Answer Outcome State Task)
    (left : List (Departure String)) (text : String) : Prop :=
  ∃ before e after newer d queue, es = before ++ e :: after ∧ e.stored = some newer ∧
    Run (ReadStep setup) (initial setup) before d ∧ Run (ReadStep setup) d (e :: after) c ∧
    d.shared.clipboard = text :: queue ∧ d.shared.clipboard.length = clipboardQueue ∧
    stored before = left.map Departure.entry ++ d.shared.clipboard

/-- The inbound clipboard after a run.  Where the local policy is on, the texts of the
accepted records are those that were taken or displaced, those in the queue and those
about to be stored, in this order, and a text is displaced from a full queue only. -/
structure ClipboardQueued (setup : Setup) (es : List Event)
    (c : Config Access.Answer Outcome State Task) : Prop where
  bounded : c.shared.clipboard.length ≤ clipboardQueue
  entries : ∀ text ∈ c.shared.clipboard,
    text.utf8ByteSize ≠ 0 ∧ text.utf8ByteSize ≤ maxInboundClipboardText
  order : setup.localClipboard = true → ∃ texts gone, Accepts setup (received es) texts ∧
    texts = gone.map Departure.entry ++ c.shared.clipboard ++ unstored (c.threads .receive) ∧
    taken es = gone.filterMap Departure.entryTaken ∧
    ∀ left text later, gone = left ++ .displaced text :: later → DisplacedFull setup es c left text
  off : setup.localClipboard = false →
    stored es = [] ∧ c.shared.clipboard = [] ∧ taken es = []

section Theorems

variable {setup : Setup} {es : List Event} {c : Config Access.Answer Outcome State Task}

/-- **The inbound clipboard holds at most so many texts, hands them out in the order of
their arrival and each once, and loses only the oldest of a full queue**, in every run of
the engine and of those who read it. -/
theorem inbound_clipboard_queued (hrun : Run (ReadStep setup) (initial setup) es c) :
    ClipboardQueued setup es c := by
  have hshows := shows_clipboard setup
  obtain ⟨hbounded, gone, haccount⟩ := account_run (by decide) (hshows.run hrun)
  obtain ⟨-, pending, hfollows, harrived⟩ := storesInOrder_run hrun
  have hunstored := unstored_of_follows hfollows
  have hputs := haccount.puts
  have htakes := haccount.takes
  rw [puts_op] at hputs
  rw [takes_op] at htakes
  rw [arrived_eq, hputs] at harrived
  refine ⟨hbounded, ?_, ?_, ?_⟩
  · intro text htext
    -- what is in the queue was accepted
    have hmem : text ∈ gone.map Departure.entry ++ c.shared.clipboard ++ pending :=
      List.mem_append_left _ (List.mem_append_right _ htext)
    rw [← harrived] at hmem
    split at hmem
    · obtain ⟨clipboard, -, haccepted⟩ := List.mem_filterMap.mp hmem
      have hacceptable := inboundText_eq_some_iff.mp haccepted
      exact ⟨hacceptable.nonempty, hacceptable.size⟩
    · cases hmem
  · intro hon
    rw [if_pos hon] at harrived
    refine ⟨_, gone, accepts_inboundText setup (received es), ?_, htakes, ?_⟩
    · rw [harrived, hunstored]
    · intro left text later hgone
      obtain ⟨before, e, after, newer, d, queue, hes, hop, hbefore, hafter, hqueue, hlength,
        hleft⟩ := hshows.oldestOfFull hrun rfl (haccount.displaced left text later hgone)
      rw [puts_op] at hleft
      refine ⟨before, e, after, newer, d, queue, hes, ?_, hbefore, hafter, hqueue, hlength, hleft⟩
      unfold Event.op at hop
      split at hop
      · cases hop
        rfl
      · cases hop
      · cases hop
  · intro hoff
    rw [if_neg (by rw [hoff]; decide)] at harrived
    obtain ⟨hnone, -⟩ := List.append_eq_nil_iff.mp harrived.symm
    obtain ⟨hgone, hqueue⟩ := List.append_eq_nil_iff.mp hnone
    rw [List.map_eq_nil_iff] at hgone
    refine ⟨by rw [hputs, hnone], hqueue, ?_⟩
    rw [htakes, hgone]
    rfl

end Theorems

/-! ### Records that are received -/

section Sample

variable {setup : Setup} {s t : State}

/-- The receive task stores the texts of a record one by one. -/
theorem alone_storeInbound (clipboards : List Clipboard) {f : Unit → Program Outcome}
    {q : Program Outcome}
    (h : Alone (engine setup) (fun _ => True) .receive
      ((clipboards.filterMap (inboundText setup)).foldl State.storeClipboard s) (f ()) t q) :
    Alone (engine setup) (fun _ => True) .receive s ((storeInbound setup clipboards).bind f)
      t q := by
  induction clipboards generalizing s with
  | nil => exact h
  | cons clipboard clipboards ih =>
    rw [storeInbound]
    cases htext : inboundText setup clipboard with
    | none =>
      rw [List.filterMap_cons_none htext] at h
      exact ih h
    | some text =>
      rw [List.filterMap_cons_some htext] at h
      exact .access () ⟨trivial, rfl⟩ trivial (ih h)

theorem receiveClipboards_eq (hon : setup.localClipboard = true) (clipboards : List Clipboard) :
    receiveClipboards setup clipboards = storeInbound setup clipboards := by
  show (if (!setup.localClipboard) = true then pure () else storeInbound setup clipboards) = _
  rw [hon]
  rfl

/-- Any record can be received while the session lives. -/
theorem alone_receiveRecords (hon : setup.localClipboard = true) (hcancelled : s.cancelled = false)
    (decoders : Decoders) (source : Geometry) (clipboards : List Clipboard) :
    Alone (engine setup) (fun _ => True) .receive s (receiveTurn setup decoders source)
      ((clipboards.filterMap (inboundText setup)).foldl State.storeClipboard s)
      (.ret (.receiving decoders source)) := by
  refine .access (.message (.of (.multiClipboards clipboards))) ⟨hcancelled, rfl⟩ trivial ?_
  show Alone _ _ _ s ((receiveClipboards setup clipboards).bind _) _ _
  rw [receiveClipboards_eq hon]
  exact alone_storeInbound clipboards (.refl _ _)

theorem reads_of_engine {c d : Config Access.Answer Outcome State Task}
    {ls : List (Label Access.Answer Task)} (h : Run (Step (engine setup)) c ls d) :
    Run (ReadStep setup) c (ls.map .engine) d := by
  induction h with
  | nil => exact .nil _
  | cons hstep _ ih => exact .cons (.engine hstep) ih

/-- A text that is sent as it is. -/
def plainRecord (text : String) : Clipboard := { content := utf8 text }

theorem inboundText_plainRecord {text : String} (hne : text.utf8ByteSize ≠ 0)
    (hsize : text.utf8ByteSize ≤ maxInboundClipboardText) :
    inboundText setup (plainRecord text) = some text := by
  refine inboundText_eq_some_iff.mpr ⟨rfl, ?_, rfl, hne, hsize⟩
  show (utf8 text).length ≤ _
  rw [length_utf8]
  exact hsize

/-- The text `a` in one raw block of a Zstandard frame. -/
def sampleFrame : Bytes := [0x28, 0xb5, 0x2f, 0xfd, 0x20, 0x01, 0x09, 0x00, 0x00, 0x61]

/-- A decoder that knows this frame. -/
def sampleDecoder (data : Bytes) : Option Decoding :=
  some (if data = sampleFrame then ⟨[0x61], true⟩ else ⟨[], false⟩)

/-- A viewer that takes clipboards, for runs. -/
def inboundSetup : Setup :=
  { sampleSetup with decompressWithLimit := decompressWithLimit sampleDecoder }

/-- Five texts, one of them compressed, and one that is in another format. -/
def sampleRecords : List Clipboard :=
  [{ compress := true, content := sampleFrame }, plainRecord "b",
    { content := utf8 "<b>b</b>", format := .known .html }, plainRecord "c", plainRecord "d",
    plainRecord "é"]

theorem inboundText_sampleRecords :
    sampleRecords.filterMap (inboundText inboundSetup) = ["a", "b", "c", "d", "é"] := by
  have hframe :
      inboundText inboundSetup { compress := true, content := sampleFrame } = some "a" := by
    refine inboundText_eq_some_iff.mpr ⟨rfl, by decide, ?_, by decide, by decide⟩
    show decompressWithLimit sampleDecoder sampleFrame maxInboundClipboardText = some (utf8 "a")
    exact decompressWithLimit_eq_some_iff.mpr ⟨by decide, by decide⟩
  have hhtml :
      inboundText inboundSetup { content := utf8 "<b>b</b>", format := .known .html } = none :=
    rfl
  rw [sampleRecords, List.filterMap_cons_some hframe,
    List.filterMap_cons_some (inboundText_plainRecord (by decide) (by decide)),
    List.filterMap_cons_none hhtml,
    List.filterMap_cons_some (inboundText_plainRecord (by decide) (by decide)),
    List.filterMap_cons_some (inboundText_plainRecord (by decide) (by decide)),
    List.filterMap_cons_some (inboundText_plainRecord (by decide) (by decide))]
  rfl

/-- Of the five texts the oldest is displaced, and the next one is read. -/
theorem inbound_clipboard_queued_sample :
    ∃ es c, Run (ReadStep inboundSetup) (initial inboundSetup) es c ∧ taken es = ["b"] ∧
      c.shared.clipboard = ["c", "d", "é"] ∧ ClipboardQueued inboundSetup es c := by
  have hlogin : Leads (fun _ => True) inboundSetup (initial inboundSetup) _ :=
    (leads_login inboundSetup sampleDecoders sampleContext rfl rfl rfl rfl rfl).mono
      fun _ _ => trivial
  have hrecords := hlogin.turn rfl (Start.spawnReceive rfl) trivial
    (alone_receiveRecords rfl rfl sampleDecoders sampleGeometry sampleRecords)
  rw [inboundText_sampleRecords] at hrecords
  obtain ⟨ls, hls⟩ := hrecords.run
  have hrun := (reads_of_engine hls).snoc (.take _)
  refine ⟨_, _, hrun, ?_, rfl, inbound_clipboard_queued hrun⟩
  have hnone : taken (ls.map .engine) = [] := List.filterMap_eq_nil_iff.mpr fun e he => by
    obtain ⟨l, -, rfl⟩ := List.mem_map.mp he
    rfl
  rw [taken, filterMap_snoc, ← taken, hnone]
  rfl

end Sample

end Viewer

end RdEngine
