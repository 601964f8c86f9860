/-
RdEngine/Rdp/Connection.lean

The connection request of the RDP client (`rdp/connection.rs`) against the grammar of
MS-RDPBCGR 2.2.1.1: a TPKT header, the fixed part of an X.224 connection request, a
cookie up to CR LF where there is one, and the negotiation request.

`readRequest` is the server of the document and `Request.encode` what it expects;
they are inverse (`readRequest_encode`).  The client writes the negotiation request in
front of the cookie, so a server of the document reads back what was asked for only
where there is no cookie (`connection_request_conforms`).  TPKT itself is read back
whatever follows (`parseTpkt_tpkt`).
-/
import RdEngine.Authentication
import RdEngine.Utf8
import RdEngine.Lib.Words

namespace RdEngine

namespace Rdp

open Words (le be ofLe ofBe)

/-! ### The client -/

/-- `RdpError::Protocol`. -/
inductive RdpError where
  | protocol (message : String)
  deriving DecidableEq, Repr

def x224Cr : UInt8 := 0xe0
def rdpNegReq : UInt8 := 0x01

/-- The security protocols a client can request, a bitmask. -/
structure SecurityProtocol where
  bits : UInt32
  deriving DecidableEq, Repr

/-- A payload in a TPKT header, whose length counts the header. -/
def tpkt (payload : Bytes) : Except RdpError Bytes :=
  let total := payload.length + 4
  if total < 2 ^ 64 then
    if total ≤ 65535 then
      .ok (3 :: 0 :: be 2 total ++ payload)
    else
      .error (.protocol ("TPKT payload of " ++ toString total ++ " bytes exceeds 65535"))
  else
    .error (.protocol "TPKT payload length overflow")

/-- The declared length and the payload. -/
def parseTpkt : Bytes → Except RdpError (Nat × Bytes)
  | version :: reserved :: high :: low :: rest =>
    let frame := version :: reserved :: high :: low :: rest
    let length := ofBe [high, low]
    if version ≠ 3 then
      .error (.protocol ("TPKT version " ++ toString version ++ " is not 3"))
    else if length < 4 then
      .error (.protocol ("TPKT length " ++ toString length ++ " is shorter than its own header"))
    else if length > frame.length then
      .error (.protocol ("TPKT declares " ++ toString length ++ " bytes but only " ++
        toString frame.length ++ " are present"))
    else
      .ok (length, (frame.take length).drop 4)
  | frame => .error (.protocol ("TPKT header needs 4 bytes, got " ++ toString frame.length))

/-- Length indicator, type, destination reference, source reference and class option. -/
def x224Fixed (indicator : UInt8) : Bytes := indicator :: x224Cr :: (be 2 0 ++ be 2 0 ++ [0])

/-- Type, flags, length and the requested protocols. -/
def negotiationRequest (requested : SecurityProtocol) : Bytes :=
  rdpNegReq :: 0 :: (le 2 8 ++ le 4 requested.bits.toNat)

def crLf : Bytes := [13, 10]

/-- `connection_request`; the cookie comes behind the negotiation request. -/
def connectionRequest (requested : SecurityProtocol) (cookie : String) : Except RdpError Bytes :=
  let body := x224Fixed 0 ++ negotiationRequest requested
  if cookie ≠ "" ∧ cookie.toList.any isControl then
    .error (.protocol "cookie contains control characters")
  else
    let body := body ++ if cookie ≠ "" then utf8 cookie ++ crLf else []
    -- the length indicator is fixed up at the end, by `u8::try_from`
    let indicator := body.length - 1
    if indicator ≤ 255 then
      tpkt (body.set 0 (UInt8.ofNat indicator))
    else
      .error (.protocol "X.224 connection request is too long")

/-! ### The grammar -/

/-- What a connection request says. -/
structure Request where
  requested : SecurityProtocol
  cookie : Option Bytes := none
  deriving DecidableEq, Repr

/-- What is in front of the first CR LF, and what is behind it. -/
def splitCrLf : Bytes → Option (Bytes × Bytes)
  | [] => none
  | b :: rest =>
    if crLf <+: b :: rest then some ([], rest.drop 1)
    else (splitCrLf rest).map fun (before, behind) => (b :: before, behind)

/-- The eight bytes of the negotiation request. -/
def readNegotiation : Bytes → Option SecurityProtocol
  | [type, _, length0, length1, a, b, c, d] =>
    if type = rdpNegReq ∧ ofLe [length0, length1] = 8 then
      some ⟨UInt32.ofNat (ofLe [a, b, c, d])⟩
    else none
  | _ => none

/-- The variable part: a cookie where more is left than the negotiation request. -/
def readVariable (rest : Bytes) : Option Request :=
  if rest.length = 8 then
    (readNegotiation rest).map fun requested => { requested }
  else
    (splitCrLf rest).bind fun (cookie, behind) =>
      (readNegotiation behind).map fun requested => { requested, cookie := some cookie }

/-- A frame as MS-RDPBCGR 2.2.1.1 has it: the TPKT length is that of the frame, and the length
indicator covers what is behind it. -/
def readRequest (frame : Bytes) : Option Request :=
  match frame with
  | version :: _ :: high :: low :: indicator :: type :: dst0 :: dst1 :: _ :: _ :: classes :: rest =>
    if version = 3 ∧ ofBe [high, low] = frame.length ∧ indicator.toNat + 5 = frame.length ∧
        indicator.toNat ≤ 254 ∧ type = x224Cr ∧ dst0 = 0 ∧ dst1 = 0 ∧ classes = 0 then
      readVariable rest
    else none
  | _ => none

namespace Request

/-- The variable part, field by field. -/
def variablePart (request : Request) : Bytes :=
  (match request.cookie with
    | none => []
    | some cookie => cookie ++ crLf) ++ negotiationRequest request.requested

/-- The length indicator. -/
def indicator (request : Request) : Nat := 6 + request.variablePart.length

/-- The frame of a request. -/
def encode (request : Request) : Bytes :=
  3 :: 0 :: be 2 (request.indicator + 5) ++
    (x224Fixed (UInt8.ofNat request.indicator) ++ request.variablePart)

/-- A request that has a frame: its cookie is not empty and holds no CR LF, and the length
indicator is at most 254. -/
structure Encodable (request : Request) : Prop where
  cookie : ∀ cookie ∈ request.cookie, cookie ≠ [] ∧ ¬ crLf <:+: cookie ++ [13]
  indicator : request.indicator ≤ 254

end Request

/-! ### The server reads what the grammar writes -/

theorem length_negotiationRequest (requested : SecurityProtocol) :
    (negotiationRequest requested).length = 8 := by
  simp [negotiationRequest]

theorem readNegotiation_negotiationRequest (requested : SecurityProtocol) :
    readNegotiation (negotiationRequest requested) = some requested := by
  have hbits : ofLe (le 4 requested.bits.toNat) = requested.bits.toNat := by
    rw [Words.ofLe_le]
    exact Nat.mod_eq_of_lt requested.bits.toNat_lt
  show (if rdpNegReq = rdpNegReq ∧ ofLe (le 2 8) = 8 then
    some (SecurityProtocol.mk (UInt32.ofNat (ofLe (le 4 requested.bits.toNat)))) else none) = _
  rw [if_pos ⟨rfl, by decide⟩, hbits, UInt32.ofNat_toNat]

/-- The first CR LF is the one behind a cookie that holds none. -/
theorem splitCrLf_append {cookie : Bytes} (h : ¬ crLf <:+: cookie ++ [13]) (behind : Bytes) :
    splitCrLf (cookie ++ crLf ++ behind) = some (cookie, behind) := by
  induction cookie with
  | nil =>
    show splitCrLf (13 :: 10 :: behind) = some ([], behind)
    rw [splitCrLf, if_pos ⟨behind, rfl⟩]
    rfl
  | cons b cookie ih =>
    have htail : ¬ crLf <:+: cookie ++ [13] := by
      intro hin
      exact h (hin.trans (List.suffix_cons b _).isInfix)
    have hhead : ¬ crLf <+: b :: (cookie ++ crLf ++ behind) := by
      intro hpre
      -- two bytes are a prefix of the cookie and the CR behind it
      have hsplit : b :: (cookie ++ crLf ++ behind) = (b :: cookie ++ [13]) ++ (10 :: behind) := by
        simp [crLf]
      rw [hsplit] at hpre
      have hlen : crLf.length ≤ (b :: cookie ++ [13]).length := by simp [crLf]
      exact h (List.prefix_of_prefix_length_le hpre (List.prefix_append _ _) hlen).isInfix
    show splitCrLf (b :: (cookie ++ crLf ++ behind)) = _
    rw [splitCrLf, if_neg hhead, ih htail]
    rfl

theorem readVariable_variablePart {request : Request}
    (h : ∀ cookie ∈ request.cookie, cookie ≠ [] ∧ ¬ crLf <:+: cookie ++ [13]) :
    readVariable request.variablePart = some request := by
  obtain ⟨requested, cookie⟩ := request
  cases cookie with
  | none =>
    show readVariable (negotiationRequest requested) = _
    rw [readVariable, if_pos (length_negotiationRequest requested),
      readNegotiation_negotiationRequest]
    rfl
  | some cookie =>
    obtain ⟨-, hcookie⟩ := h cookie rfl
    show readVariable (cookie ++ crLf ++ negotiationRequest requested) = _
    have hlen : ¬ (cookie ++ crLf ++ negotiationRequest requested).length = 8 := by
      simp [crLf, length_negotiationRequest]
    rw [readVariable, if_neg hlen, splitCrLf_append hcookie, Option.bind_some]
    show (readNegotiation (negotiationRequest requested)).map _ = _
    rw [readNegotiation_negotiationRequest]
    rfl

theorem length_encode (request : Request) : request.encode.length = request.indicator + 5 := by
  simp [Request.encode, Request.indicator, x224Fixed]
  omega

/-- **What the grammar writes is read back.** -/
theorem readRequest_encode {request : Request} (h : request.Encodable) :
    readRequest request.encode = some request := by
  have hindicator := h.indicator
  have hword : ofBe (be 2 (request.indicator + 5)) = request.indicator + 5 :=
    Words.ofBe_be_of_lt (by omega)
  have hbyte : (UInt8.ofNat request.indicator).toNat = request.indicator := by
    rw [UInt8.toNat_ofNat']
    omega
  have hlen := length_encode request
  rw [← readVariable_variablePart h.cookie]
  show (if (3 : UInt8) = 3 ∧ ofBe (be 2 (request.indicator + 5)) = request.encode.length ∧
      (UInt8.ofNat request.indicator).toNat + 5 = request.encode.length ∧
      (UInt8.ofNat request.indicator).toNat ≤ 254 ∧ x224Cr = x224Cr ∧ (0 : UInt8) = 0 ∧
      (0 : UInt8) = 0 ∧ (0 : UInt8) = 0 then readVariable request.variablePart else none) = _
  rw [if_pos]
  rw [hword, hbyte, hlen]
  exact ⟨rfl, rfl, rfl, hindicator, rfl, rfl, rfl, rfl⟩

/-! ### TPKT -/

theorem tpkt_eq_ok {payload frame : Bytes} (h : tpkt payload = .ok frame) :
    payload.length + 4 ≤ 65535 ∧ frame = 3 :: 0 :: be 2 (payload.length + 4) ++ payload := by
  unfold tpkt at h
  dsimp only at h
  split at h
  · split at h
    · next hmax =>
      cases h
      exact ⟨hmax, rfl⟩
    · cases h
  · cases h

theorem tpkt_of_le {payload : Bytes} (h : payload.length + 4 ≤ 65535) :
    tpkt payload = .ok (3 :: 0 :: be 2 (payload.length + 4) ++ payload) := by
  show (if payload.length + 4 < 2 ^ 64 then _ else _) = _
  rw [if_pos (by omega), if_pos h]

theorem parseTpkt_eq_ok (high low : UInt8) (rest : Bytes) (hmin : 4 ≤ ofBe [high, low])
    (hmax : ofBe [high, low] ≤ rest.length + 4) :
    parseTpkt (3 :: 0 :: high :: low :: rest) =
      .ok (ofBe [high, low], rest.take (ofBe [high, low] - 4)) := by
  have hpayload : ((3 :: 0 :: high :: low :: rest).take (ofBe [high, low])).drop 4 =
      rest.take (ofBe [high, low] - 4) := by
    rw [List.drop_take]
    rfl
  have hfits : ¬ ofBe [high, low] > (3 :: 0 :: high :: low :: rest).length := by
    simp only [List.length_cons]
    omega
  unfold parseTpkt
  dsimp only
  rw [if_neg (by decide), if_neg (by omega), if_neg hfits, hpayload]

/-- **TPKT is read back, whatever follows.** -/
theorem parseTpkt_tpkt {payload frame : Bytes} (h : tpkt payload = .ok frame) (trailing : Bytes) :
    parseTpkt (frame ++ trailing) = .ok (frame.length, payload) := by
  obtain ⟨hmax, rfl⟩ := tpkt_eq_ok h
  have hword : ofBe (be 2 (payload.length + 4)) = payload.length + 4 :=
    Words.ofBe_be_of_lt (by omega)
  have hlen : (3 :: 0 :: be 2 (payload.length + 4) ++ payload).length = payload.length + 4 := by
    simp
    omega
  have hread := parseTpkt_eq_ok (UInt8.ofNat ((payload.length + 4) / 256))
    (UInt8.ofNat (payload.length + 4)) (payload ++ trailing)
  change 4 ≤ ofBe (be 2 (payload.length + 4)) → ofBe (be 2 (payload.length + 4)) ≤ _ →
    parseTpkt (3 :: 0 :: be 2 (payload.length + 4) ++ payload ++ trailing) =
      .ok (ofBe (be 2 (payload.length + 4)), _) at hread
  rw [hlen, hread (by omega) (by rw [hword, List.length_append]; omega)]
  show Except.ok (ofBe (be 2 (payload.length + 4)),
    (payload ++ trailing).take (ofBe (be 2 (payload.length + 4)) - 4)) = _
  rw [hword, Nat.add_sub_cancel, List.take_left]

/-! ### The client against the grammar -/

/-- The token a cookie is: an empty cookie is none. -/
def token (cookie : String) : Option Bytes := if cookie = "" then none else some (utf8 cookie)

/-- The frame the client writes conforms to the grammar. -/
structure Conforms (requested : SecurityProtocol) (cookie : String) : Prop where
  /-- What is accepted is read back, mask and cookie. -/
  reads : ∀ frame, connectionRequest requested cookie = .ok frame →
    readRequest frame = some { requested, cookie := token cookie }
  /-- Its TPKT is read back, whatever follows. -/
  splits : ∀ frame, connectionRequest requested cookie = .ok frame →
    ∀ trailing, parseTpkt (frame ++ trailing) = .ok (frame.length, frame.drop 4)
  /-- What does not fit is refused. -/
  refuses : 254 < Request.indicator { requested, cookie := token cookie } →
    ∃ e, connectionRequest requested cookie = .error e

/-- The cookie is refused as a text. -/
def HasControl (cookie : String) : Prop := cookie.toList.any isControl = true

section

variable {requested : SecurityProtocol} {cookie : String} {frame : Bytes}

theorem connectionRequest_empty :
    connectionRequest requested "" = .ok (Request.encode { requested }) := by
  have hlen : (x224Fixed 14 ++ negotiationRequest requested).length = 15 := by
    simp [x224Fixed, length_negotiationRequest]
  show tpkt (x224Fixed 14 ++ negotiationRequest requested) = _
  rw [tpkt_of_le (by omega), hlen]
  rfl

theorem connectionRequest_control (h : cookie ≠ "") (hcontrol : HasControl cookie) :
    connectionRequest requested cookie =
      .error (.protocol "cookie contains control characters") :=
  if_pos ⟨h, hcontrol⟩

/-- The body of a request with a cookie: the negotiation request is in front of the cookie. -/
def cookieBody (requested : SecurityProtocol) (cookie : String) : Bytes :=
  x224Fixed (UInt8.ofNat (16 + (utf8 cookie).length)) ++
    (negotiationRequest requested ++ (utf8 cookie ++ crLf))

theorem length_cookieBody : (cookieBody requested cookie).length = 17 + (utf8 cookie).length := by
  simp [cookieBody, x224Fixed, length_negotiationRequest, crLf]
  omega

theorem connectionRequest_cookie (requested : SecurityProtocol) (h : cookie ≠ "") (hcontrol : ¬ HasControl cookie) :
    connectionRequest requested cookie =
      if (utf8 cookie).length ≤ 239 then tpkt (cookieBody requested cookie)
      else .error (.protocol "X.224 connection request is too long") := by
  have hlen : ((x224Fixed 0 ++ negotiationRequest requested) ++ (utf8 cookie ++ crLf)).length - 1 =
      16 + (utf8 cookie).length := by
    simp [x224Fixed, length_negotiationRequest, crLf]
    omega
  unfold connectionRequest
  dsimp only
  rw [if_neg (fun hc => hcontrol hc.2), if_pos h, hlen]
  by_cases hmax : (utf8 cookie).length ≤ 239
  · rw [if_pos (by omega), if_pos hmax]
    show tpkt (x224Fixed _ ++ negotiationRequest requested ++ (utf8 cookie ++ crLf)) = _
    rw [List.append_assoc]
    rfl
  · rw [if_neg (by omega), if_neg hmax]

/-- The first byte of a character that is none of the control characters. -/
theorem utf8EncodeChar_of_not_control {c : Char} (h : isControl c = false) :
    ∃ b rest, String.utf8EncodeChar c = b :: rest ∧ b ≠ rdpNegReq := by
  have hc : ¬ c.toNat < 0x20 := by
    intro hlt
    simp [isControl, hlt] at h
  have hval : c.val.toNat = c.toNat := rfl
  unfold String.utf8EncodeChar
  dsimp only
  rw [hval]
  -- a byte with 1 as its value is the character U+0001, and every longer one starts higher
  have hbyte : ∀ n, n % 256 ≠ 1 → UInt8.ofNat n ≠ rdpNegReq := by
    intro n hn heq
    have htoNat := congrArg UInt8.toNat heq
    rw [UInt8.toNat_ofNat'] at htoNat
    exact hn htoNat
  split
  · exact ⟨_, _, rfl, hbyte _ (by omega)⟩
  · split
    · exact ⟨_, _, rfl, hbyte _ (by omega)⟩
    · split
      · exact ⟨_, _, rfl, hbyte _ (by omega)⟩
      · exact ⟨_, _, rfl, hbyte _ (by omega)⟩

theorem utf8_eq_flatMap (text : String) :
    utf8 text = text.toList.flatMap String.utf8EncodeChar := by
  unfold utf8
  rw [String.toUTF8_eq_toByteArray, ← String.utf8Encode_toList, List.utf8Encode,
    List.toList_data_toByteArray]

/-- The first byte of an accepted cookie is not that of the negotiation request. -/
theorem utf8_of_not_control (h : cookie ≠ "") (hcontrol : ¬ HasControl cookie) :
    ∃ b rest, utf8 cookie = b :: rest ∧ b ≠ rdpNegReq := by
  rw [utf8_eq_flatMap]
  rcases hchars : cookie.toList with - | ⟨c, chars⟩
  · exact absurd (String.toList_eq_nil_iff.mp hchars) h
  · have hc : isControl c = false := by
      unfold HasControl at hcontrol
      rw [hchars, List.any_cons, Bool.or_eq_true, not_or] at hcontrol
      exact Bool.eq_false_iff.mpr hcontrol.1
    obtain ⟨b, rest, hfirst, hb⟩ := utf8EncodeChar_of_not_control hc
    refine ⟨b, rest ++ chars.flatMap String.utf8EncodeChar, ?_, hb⟩
    rw [List.flatMap_cons, hfirst, List.cons_append]

/-- A token that is read begins with the first byte of the variable part. -/
theorem head_of_readVariable {b : UInt8} {rest : Bytes} {request : Request}
    (h : readVariable (b :: rest) = some request) :
    ∀ token ∈ request.cookie, token = [] ∧ b = 13 ∨ ∃ behind, token = b :: behind := by
  intro token htoken
  unfold readVariable at h
  split at h
  · obtain ⟨requested, -, rfl⟩ := Option.map_eq_some_iff.mp h
    cases htoken
  · obtain ⟨⟨before, behind⟩, hsplit, h⟩ := Option.bind_eq_some_iff.mp h
    obtain ⟨requested, -, rfl⟩ := Option.map_eq_some_iff.mp h
    cases htoken
    rw [splitCrLf] at hsplit
    split at hsplit
    · next hpre =>
      cases hsplit
      obtain ⟨tail, htail⟩ := hpre
      exact .inl ⟨rfl, (List.cons.inj htail).1.symm⟩
    · obtain ⟨⟨before', behind'⟩, -, heq⟩ := Option.map_eq_some_iff.mp hsplit
      cases heq
      exact .inr ⟨before', rfl⟩

theorem readVariable_of_readRequest {high low indicator : UInt8} {rest : Bytes} {request : Request}
    (h : readRequest (3 :: 0 :: high :: low :: (x224Fixed indicator ++ rest)) = some request) :
    readVariable rest = some request := by
  change (if _ then readVariable rest else none) = some request at h
  split at h
  · exact h
  · cases h

/-- A cookie behind the negotiation request is not read back. -/
theorem readRequest_cookieBody (h : cookie ≠ "") (hcontrol : ¬ HasControl cookie)
    (hframe : tpkt (cookieBody requested cookie) = .ok frame) :
    readRequest frame ≠ some { requested, cookie := token cookie } := by
  intro hread
  obtain ⟨-, rfl⟩ := tpkt_eq_ok hframe
  obtain ⟨b, rest, hbytes, hb⟩ := utf8_of_not_control h hcontrol
  have hvariable := readVariable_of_readRequest hread
  rcases head_of_readVariable hvariable _ (by rw [token, if_neg h]; rfl) with ⟨hnil, -⟩ | ⟨behind, hcons⟩
  · rw [hbytes] at hnil
    cases hnil
  · rw [hbytes] at hcons
    exact hb (List.cons.inj hcons).1

/-- Every frame is a payload in TPKT. -/
theorem exists_payload (h : connectionRequest requested cookie = .ok frame) :
    ∃ payload, tpkt payload = .ok frame := by
  unfold connectionRequest at h
  dsimp only at h
  generalize x224Fixed 0 ++ negotiationRequest requested ++
    (if cookie ≠ "" then utf8 cookie ++ crLf else []) = body at h
  split at h
  · cases h
  · split at h
    · exact ⟨_, h⟩
    · cases h

/-- The TPKT of every request is read back. -/
theorem parseTpkt_connectionRequest (h : connectionRequest requested cookie = .ok frame)
    (trailing : Bytes) : parseTpkt (frame ++ trailing) = .ok (frame.length, frame.drop 4) := by
  obtain ⟨payload, hpayload⟩ := exists_payload h
  have hsplit := parseTpkt_tpkt hpayload trailing
  obtain ⟨-, rfl⟩ := tpkt_eq_ok hpayload
  exact hsplit

theorem conforms_of_error {e : RdpError} (h : connectionRequest requested cookie = .error e) :
    Conforms requested cookie where
  reads := by
    intro frame hframe
    rw [h] at hframe
    cases hframe
  splits := fun _ hframe trailing => parseTpkt_connectionRequest hframe trailing
  refuses := fun _ => ⟨e, h⟩

theorem conforms_empty : Conforms requested "" where
  reads := by
    intro frame hframe
    rw [connectionRequest_empty] at hframe
    cases hframe
    apply readRequest_encode
    have hlen := length_negotiationRequest requested
    refine ⟨fun token htoken => (by cases htoken), ?_⟩
    show 6 + ([] ++ negotiationRequest requested).length ≤ 254
    rw [List.nil_append]
    omega
  splits := fun _ hframe trailing => parseTpkt_connectionRequest hframe trailing
  refuses := by
    intro hlong
    change 254 < 6 + ([] ++ negotiationRequest requested).length at hlong
    rw [List.nil_append, length_negotiationRequest] at hlong
    omega

end

/-- The cookies with which the client conforms: none, and those that are refused. -/
def ConformsWhen (cookie : String) : Prop :=
  cookie = "" ∨ HasControl cookie ∨ 239 < (utf8 cookie).length

/-- **A connection request conforms to its grammar exactly when it has no cookie or a cookie
that is refused.** -/
theorem connection_request_conforms (requested : SecurityProtocol) (cookie : String) :
    Conforms requested cookie ↔ ConformsWhen cookie := by
  by_cases hempty : cookie = ""
  · subst hempty
    exact ⟨fun _ => .inl rfl, fun _ => conforms_empty⟩
  by_cases hcontrol : HasControl cookie
  · exact ⟨fun _ => .inr (.inl hcontrol),
      fun _ => conforms_of_error (connectionRequest_control hempty hcontrol)⟩
  have hrequest := connectionRequest_cookie requested hempty hcontrol
  by_cases hlong : (utf8 cookie).length ≤ 239
  · -- an accepted cookie: the frame is written, and not read back
    rw [if_pos hlong, tpkt_of_le (by rw [length_cookieBody]; omega)] at hrequest
    constructor
    · intro h
      refine absurd (h.reads _ hrequest) (readRequest_cookieBody hempty hcontrol ?_)
      exact tpkt_of_le (by rw [length_cookieBody]; omega)
    · rintro (h | h | h)
      · exact absurd h hempty
      · exact absurd h hcontrol
      · omega
  · rw [if_neg hlong] at hrequest
    exact ⟨fun _ => .inr (.inr (by omega)), fun _ => conforms_of_error hrequest⟩

/-- A cookie behind the negotiation request is lost, and the mask with it. -/
theorem connection_request_misread :
    (connectionRequest ⟨11⟩ "token123").toOption.map readRequest = some none ∧
      ¬ Conforms ⟨11⟩ "token123" := by
  have hlost : (connectionRequest ⟨11⟩ "token123").toOption.map readRequest = some none := by decide
  refine ⟨hlost, fun h => ?_⟩
  obtain ⟨frame, hframe, hread⟩ := Option.map_eq_some_iff.mp hlost
  rcases hrequest : connectionRequest ⟨11⟩ "token123" with e | sent
  · rw [hrequest] at hframe
    cases hframe
  · rw [hrequest] at hframe
    cases hframe
    rw [h.reads _ hrequest] at hread
    cases hread

/-- A cookie of 239 bytes is accepted with a length indicator of 255. -/
theorem connectionRequest_reserved_indicator (requested : SecurityProtocol) {cookie : String}
    (hcontrol : ¬ HasControl cookie) (hlen : (utf8 cookie).length = 239) :
    ∃ frame, connectionRequest requested cookie = .ok frame ∧ frame[4]? = some 255 := by
  have hempty : cookie ≠ "" := by
    rintro rfl
    cases hlen
  refine ⟨3 :: 0 :: be 2 ((cookieBody requested cookie).length + 4) ++ cookieBody requested cookie,
    ?_, ?_⟩
  · rw [connectionRequest_cookie _ hempty hcontrol, if_pos (by omega)]
    exact tpkt_of_le (by rw [length_cookieBody]; omega)
  · show some (UInt8.ofNat (16 + (utf8 cookie).length)) = some 255
    rw [hlen]
    rfl

end Rdp

end RdEngine
