/-
RdEngine/Rdp/Confirm.lean

The server's answer to the connection request of RDP (`rdp/connection.rs`): an X.224
connection confirm, with what was negotiated behind its fixed part.

`IsConfirm` is MS-RDPBCGR 2.2.1.2 as far as the client holds a server to it, and says of
a payload what it means; the client accepts exactly these payloads, each as what it
means (`parseConnectionConfirm_eq_ok`).  A server that keeps to all of the document
(`Answer.encode`) is understood, whatever follows its frame, and the code of a refusal is
not lost on the way to a name (`confirm_understood`).
-/
import RdEngine.Rdp.Connection

namespace RdEngine

namespace Rdp

open Words (le be ofLe ofBe)

/-! ### What a server may answer -/

/-- The codes that tell an answer. -/
def x224Cc : UInt8 := 0xd0
def rdpNegRsp : UInt8 := 0x02
def rdpNegFailure : UInt8 := 0x03

/-- The name of a refusal. -/
inductive NegotiationFailure where
  | sslRequiredByServer
  | sslNotAllowedByServer
  | wrongSecurityProtocol
  | clientCertificateRequired
  /-- a code the client has no name for -/
  | unknown (code : UInt32)
  deriving DecidableEq, Repr

namespace NegotiationFailure

def fromCode (code : UInt32) : NegotiationFailure :=
  match code with
  | 1 => .sslRequiredByServer
  | 2 => .sslNotAllowedByServer
  | 3 => .wrongSecurityProtocol
  | 5 => .clientCertificateRequired
  | other => .unknown other

/-- The code a name stands for. -/
def code : NegotiationFailure → UInt32
  | .sslRequiredByServer => 1
  | .sslNotAllowedByServer => 2
  | .wrongSecurityProtocol => 3
  | .clientCertificateRequired => 5
  | .unknown code => code

theorem code_fromCode (n : UInt32) : (fromCode n).code = n := by
  unfold fromCode
  split <;> rfl

end NegotiationFailure

/-- What the server has answered. -/
inductive Negotiation where
  | selected (protocol : SecurityProtocol)
  | noNegotiationRequired
  | refused (failure : NegotiationFailure)
  deriving DecidableEq, Repr

structure ConnectionConfirm where
  negotiation : Negotiation
  deriving DecidableEq, Repr

/-! ### The client -/

/-- A byte as two hexadecimal digits. -/
def hexByte (b : UInt8) : String :=
  .ofList ((Nat.toDigits 16 b.toNat).leftpad 2 '0')

/-- `parse_connection_confirm`; what lies behind the part it reads is ignored. -/
def parseConnectionConfirm (payload : Bytes) : Except RdpError ConnectionConfirm :=
  match payload with
  | _ :: type :: _ :: _ :: _ :: _ :: _ :: rest =>
    if type ≠ x224Cc then
      .error (.protocol ("expected an X.224 connection confirm (0x" ++ hexByte x224Cc ++ "), got 0x" ++
        hexByte type))
    else
      match rest with
      | [] => .ok ⟨.noNegotiationRequired⟩
      | kind :: _ :: low :: high :: a :: b :: c :: d :: more =>
        let length := ofLe [low, high]
        let value := UInt32.ofNat (ofLe [a, b, c, d])
        if length < 8 ∨ length > 8 + more.length then
          .error (.protocol ("negotiation structure declares " ++ toString length ++ " bytes, " ++
            toString (8 + more.length) ++ " are present"))
        else if kind = rdpNegRsp then .ok ⟨.selected ⟨value⟩⟩
        else if kind = rdpNegFailure then .ok ⟨.refused (.fromCode value)⟩
        else .error (.protocol ("unexpected negotiation structure type " ++ toString kind))
      | rest =>
        .error (.protocol ("negotiation structure is " ++ toString rest.length ++
          " bytes, expected at least 8"))
  | payload =>
    .error (.protocol ("connection confirm needs at least 7 bytes, got " ++
      toString payload.length))

/-! ### The grammar -/

/-- Length indicator, type, the two references and the class. -/
structure FixedPart where
  indicator : UInt8
  references : Bytes
  classes : UInt8
  length_references : references.length = 4

def FixedPart.encode (fixed : FixedPart) : Bytes :=
  fixed.indicator :: x224Cc :: (fixed.references ++ [fixed.classes])

/-- Type, flags, length and value, and what follows them. -/
structure VariablePart where
  type : UInt8
  flags : UInt8
  length : Nat
  value : UInt32
  behind : Bytes
  length_ge : 8 ≤ length
  length_le : length ≤ 8 + behind.length
  length_lt : length < 2 ^ 16

/-- The bytes of the variable part, and what lies behind it. -/
def VariablePart.encode (part : VariablePart) : Bytes :=
  part.type :: part.flags :: (le 2 part.length ++ le 4 part.value.toNat ++ part.behind)

/-- What a payload means: nothing behind the fixed part, or a response or a failure, whose
length is within what is there. -/
inductive IsConfirm : Bytes → Negotiation → Prop
  | none (fixed : FixedPart) : IsConfirm fixed.encode .noNegotiationRequired
  | response (fixed : FixedPart) (part : VariablePart) : part.type = rdpNegRsp →
      IsConfirm (fixed.encode ++ part.encode) (.selected ⟨part.value⟩)
  | failure (fixed : FixedPart) (part : VariablePart) : part.type = rdpNegFailure →
      IsConfirm (fixed.encode ++ part.encode) (.refused (.fromCode part.value))

/-! ### The client against the grammar -/

theorem length_four {bytes : Bytes} (h : bytes.length = 4) :
    ∃ a b c d, bytes = [a, b, c, d] := by
  match bytes, h with
  | [a, b, c, d], _ => exact ⟨a, b, c, d, rfl⟩

theorem FixedPart.encode_eq (fixed : FixedPart) : ∃ i a b c d e,
    fixed.encode = [i, x224Cc, a, b, c, d, e] := by
  obtain ⟨a, b, c, d, hreferences⟩ := length_four fixed.length_references
  refine ⟨fixed.indicator, a, b, c, d, fixed.classes, ?_⟩
  rw [FixedPart.encode, hreferences]
  rfl

/-- A variable part is read field by field. -/
theorem VariablePart.encode_eq (part : VariablePart) : ∃ low high a b c d,
    part.encode = part.type :: part.flags :: low :: high :: a :: b :: c :: d :: part.behind ∧
      ofLe [low, high] = part.length ∧ UInt32.ofNat (ofLe [a, b, c, d]) = part.value := by
  have hlength : ofLe (le 2 part.length) = part.length := by
    rw [Words.ofLe_le]
    exact Nat.mod_eq_of_lt part.length_lt
  have hvalue : UInt32.ofNat (ofLe (le 4 part.value.toNat)) = part.value := by
    have hword : part.value.toNat % 256 ^ 4 = part.value.toNat :=
      Nat.mod_eq_of_lt part.value.toNat_lt
    rw [Words.ofLe_le, hword, UInt32.ofNat_toNat]
  exact ⟨_, _, _, _, _, _, rfl, hlength, hvalue⟩

/-- The length of a structure is read whole, and is within what is there. -/
theorem parseConnectionConfirm_part (i x a b c d : UInt8) (part : VariablePart) :
    parseConnectionConfirm (i :: x224Cc :: x :: a :: b :: c :: d :: part.encode) =
      if part.type = rdpNegRsp then .ok ⟨.selected ⟨part.value⟩⟩
      else if part.type = rdpNegFailure then .ok ⟨.refused (.fromCode part.value)⟩
      else .error (.protocol ("unexpected negotiation structure type " ++ toString part.type)) := by
  obtain ⟨low, high, v₀, v₁, v₂, v₃, hencode, hlength, hvalue⟩ := part.encode_eq
  have hge := part.length_ge
  have hle := part.length_le
  have hwithin : ¬ (ofLe [low, high] < 8 ∨ ofLe [low, high] > 8 + part.behind.length) := by
    rw [hlength]
    omega
  rw [hencode]
  unfold parseConnectionConfirm
  dsimp only
  rw [if_neg (not_not_intro rfl), if_neg hwithin, hvalue]

/-- What the grammar has a meaning for is accepted, with that meaning. -/
theorem parseConnectionConfirm_of_isConfirm {payload : Bytes} {negotiation : Negotiation}
    (h : IsConfirm payload negotiation) : parseConnectionConfirm payload = .ok ⟨negotiation⟩ := by
  cases h with
  | none fixed =>
    obtain ⟨i, a, b, c, d, e, hfixed⟩ := fixed.encode_eq
    rw [hfixed]
    rfl
  | response fixed part htype =>
    obtain ⟨i, a, b, c, d, e, hfixed⟩ := fixed.encode_eq
    rw [hfixed]
    show parseConnectionConfirm (i :: x224Cc :: a :: b :: c :: d :: e :: part.encode) = _
    rw [parseConnectionConfirm_part, if_pos htype]
  | failure fixed part htype =>
    obtain ⟨i, a, b, c, d, e, hfixed⟩ := fixed.encode_eq
    rw [hfixed]
    show parseConnectionConfirm (i :: x224Cc :: a :: b :: c :: d :: e :: part.encode) = _
    rw [parseConnectionConfirm_part, if_neg (by rw [htype]; decide), if_pos htype]

/-- A structure whose length is within what is there, written field by field. -/
theorem exists_part {kind flags low high a b c d : UInt8} {more : Bytes}
    (h : ¬ (ofLe [low, high] < 8 ∨ ofLe [low, high] > 8 + more.length)) :
    ∃ part : VariablePart, part.type = kind ∧ part.value = UInt32.ofNat (ofLe [a, b, c, d]) ∧
      kind :: flags :: low :: high :: a :: b :: c :: d :: more = part.encode := by
  have hlt : ofLe [low, high] < 2 ^ 16 := by simpa using Words.ofLe_lt [low, high]
  have hword : ofLe [a, b, c, d] < 2 ^ 32 := by simpa using Words.ofLe_lt [a, b, c, d]
  have hlength : le 2 (ofLe [low, high]) = [low, high] := Words.le_ofLe [low, high]
  have hvalue : le 4 (UInt32.ofNat (ofLe [a, b, c, d])).toNat = [a, b, c, d] := by
    rw [UInt32.toNat_ofNat', Nat.mod_eq_of_lt hword]
    exact Words.le_ofLe [a, b, c, d]
  refine ⟨⟨kind, flags, ofLe [low, high], UInt32.ofNat (ofLe [a, b, c, d]), more, ?_, ?_, hlt⟩, rfl,
    rfl, ?_⟩
  · omega
  · omega
  · rw [VariablePart.encode, hlength, hvalue]
    rfl

/-- What is accepted has that meaning. -/
theorem isConfirm_of_parseConnectionConfirm {payload : Bytes} {negotiation : Negotiation}
    (h : parseConnectionConfirm payload = .ok ⟨negotiation⟩) : IsConfirm payload negotiation := by
  unfold parseConnectionConfirm at h
  split at h
  · next i type x₀ x₁ x₂ x₃ classes rest =>
    split_ifs at h with htype
    obtain rfl : type = x224Cc := not_not.mp htype
    let fixed : FixedPart := ⟨i, [x₀, x₁, x₂, x₃], classes, rfl⟩
    split at h
    · cases h
      exact .none fixed
    · next kind flags low high a b c d more =>
      dsimp only at h
      split_ifs at h with hlength hresponse hfailure
      · cases h
        obtain ⟨part, hkind, hvalue, hpart⟩ := @exists_part kind flags _ _ _ _ _ _ _ hlength
        rw [← hvalue, hpart]
        exact .response fixed part (hkind.trans hresponse)
      · cases h
        obtain ⟨part, hkind, hvalue, hpart⟩ := @exists_part kind flags _ _ _ _ _ _ _ hlength
        rw [← hvalue, hpart]
        exact .failure fixed part (hkind.trans hfailure)
    · cases h
  · cases h

/-- The client accepts exactly what the grammar has a meaning for, each payload as what it
means. -/
theorem parseConnectionConfirm_eq_ok {payload : Bytes} {negotiation : Negotiation} :
    parseConnectionConfirm payload = .ok ⟨negotiation⟩ ↔ IsConfirm payload negotiation :=
  ⟨isConfirm_of_parseConnectionConfirm, parseConnectionConfirm_of_isConfirm⟩

/-! ### A server of the document -/

/-- What a server answers: a response with its flags and the protocol it chose, a failure with
its code, or nothing behind the fixed part. -/
inductive Answer where
  | plain
  | response (flags : UInt8) (selected : SecurityProtocol)
  | failure (code : UInt32)
  deriving DecidableEq, Repr

namespace Answer

/-- The bytes of an answer behind the fixed part. -/
def variablePart : Answer → Bytes
  | .plain => []
  | .response flags selected => rdpNegRsp :: flags :: (le 2 8 ++ le 4 selected.bits.toNat)
  | .failure code => rdpNegFailure :: 0 :: (le 2 8 ++ le 4 code.toNat)

/-- The payload of the answer to a client, with the server's own reference. -/
def encode (answer : Answer) (source : UInt16) : Bytes :=
  UInt8.ofNat (6 + answer.variablePart.length) :: x224Cc ::
    (be 2 0 ++ be 2 source.toNat ++ [0] ++ answer.variablePart)

/-- What the client is to make of it. -/
def meaning : Answer → Negotiation
  | .plain => .noNegotiationRequired
  | .response _ selected => .selected selected
  | .failure code => .refused (.fromCode code)

theorem isConfirm (answer : Answer) (source : UInt16) :
    IsConfirm (answer.encode source) answer.meaning := by
  let fixed : FixedPart :=
    ⟨UInt8.ofNat (6 + answer.variablePart.length), be 2 0 ++ be 2 source.toNat, 0, rfl⟩
  have hencode : answer.encode source = fixed.encode ++ answer.variablePart := by
    show _ = (fixed.indicator :: x224Cc :: (fixed.references ++ [fixed.classes])) ++ _
    simp [encode, fixed]
  rw [hencode]
  cases answer with
  | plain =>
    rw [variablePart, List.append_nil]
    exact .none fixed
  | response flags selected =>
    let part : VariablePart :=
      ⟨rdpNegRsp, flags, 8, selected.bits, [], le_rfl, le_rfl, by decide⟩
    have hpart : variablePart (.response flags selected) = part.encode := by
      rw [variablePart, VariablePart.encode, List.append_nil]
    rw [hpart]
    exact .response fixed part rfl
  | failure code =>
    let part : VariablePart := ⟨rdpNegFailure, 0, 8, code, [], le_rfl, le_rfl, by decide⟩
    have hpart : variablePart (.failure code) = part.encode := by
      rw [variablePart, VariablePart.encode, List.append_nil]
    rw [hpart]
    exact .failure fixed part rfl

theorem length_encode_le (answer : Answer) (source : UInt16) :
    (answer.encode source).length ≤ 15 := by
  cases answer <;> simp [encode, variablePart]

end Answer

/-- The client accepts a payload exactly if the grammar gives it a meaning, and then as that;
every answer of a server that keeps to the document is split off its frame whatever follows
it, and is read as what the server meant; and the code of a refusal can be told from the name the
client gives it. -/
theorem confirm_understood :
    (∀ payload negotiation, parseConnectionConfirm payload = .ok ⟨negotiation⟩ ↔
      IsConfirm payload negotiation) ∧
    (∀ (answer : Answer) (source : UInt16) (trailing : Bytes), ∃ frame,
      tpkt (answer.encode source) = .ok frame ∧
        parseTpkt (frame ++ trailing) = .ok (frame.length, answer.encode source) ∧
        parseConnectionConfirm (answer.encode source) = .ok ⟨answer.meaning⟩) ∧
    (∀ (code code' : UInt32), Answer.meaning (.failure code) = Answer.meaning (.failure code') →
      code = code') := by
  refine ⟨fun _ _ => parseConnectionConfirm_eq_ok, fun answer source trailing => ?_,
    fun code code' h => ?_⟩
  · have hle := answer.length_encode_le source
    have hframe : tpkt (answer.encode source) = _ := tpkt_of_le (by omega)
    exact ⟨_, hframe, parseTpkt_tpkt hframe trailing,
      parseConnectionConfirm_eq_ok.mpr (answer.isConfirm source)⟩
  · have hname : NegotiationFailure.fromCode code = NegotiationFailure.fromCode code' :=
      Negotiation.refused.inj h
    rw [← NegotiationFailure.code_fromCode code, hname, NegotiationFailure.code_fromCode]

end Rdp

end RdEngine
