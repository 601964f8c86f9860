/-
RdEngine/Tcp.lean

`Encrypt` and `FramedStream` of `tcp.rs`: the cipher state of one end of a
connection, with a counter for each direction, and the framed stream that
owns it before the connection is split.
-/
import RdEngine.BytesCodec
import RdEngine.Sodium

namespace RdEngine

/-! ### The cipher -/

/-- `FramedStream::get_nonce`: the sequence number in the first eight bytes,
least significant first. -/
def getNonce (seqnum : UInt64) : Nonce :=
  ⟨Words.le 8 seqnum.toNat ++ List.replicate 16 0, by simp⟩

theorem getNonce_injective : Function.Injective getNonce := by
  intro a b h
  have hbytes := List.append_cancel_right (Subtype.mk.inj h)
  have ha : a.toNat < 256 ^ 8 := a.toNat_lt
  have hb : b.toNat < 256 ^ 8 := b.toNat_lt
  exact UInt64.toNat_inj.mp ((Words.le_inj ha hb).mp hbytes)

/-- The key, and the number of frames sealed and opened so far.  The counters
are `u64` and wrap, as they do in a release build. -/
structure Encrypt where
  key : Key
  sealedFrames : UInt64
  openedFrames : UInt64
  deriving DecidableEq

namespace Encrypt

/-- `Encrypt::new`: nothing was sealed or opened yet. -/
def new (key : Key) : Encrypt := ⟨key, 0, 0⟩

/-- Open a frame.  A frame of at most one byte is passed as it is. -/
def dec (box : SecretBox) (cipher : Encrypt) (bytes : Bytes) : Except IoError (Bytes × Encrypt) :=
  if bytes.length ≤ 1 then .ok (bytes, cipher)
  else
    let cipher := { cipher with openedFrames := cipher.openedFrames + 1 }
    match box.opened bytes (getNonce cipher.openedFrames) cipher.key with
    | some res => .ok (res, cipher)
    | none => .error ⟨.other, "decryption error"⟩

/-- The cipher with one more frame sealed. -/
def sealedOne (cipher : Encrypt) : Encrypt :=
  { cipher with sealedFrames := cipher.sealedFrames + 1 }

/-- The nonce of the next frame sealed. -/
def nextNonce (cipher : Encrypt) : Nonce := getNonce (cipher.sealedFrames + 1)

/-- `enc`: the next frame is sealed, under the next nonce. -/
def enc (box : SecretBox) (cipher : Encrypt) (data : Bytes) : Bytes × Encrypt :=
  let cipher := { cipher with sealedFrames := cipher.sealedFrames + 1 }
  (box.sealed data (getNonce cipher.sealedFrames) cipher.key, cipher)

/-- The cipher with `n` more frames sealed. -/
def after (cipher : Encrypt) (n : Nat) : Encrypt :=
  { cipher with sealedFrames := cipher.sealedFrames + UInt64.ofNat n }

/-- The nonce of the frame sealed when `i` others have been. -/
def nonceAt (cipher : Encrypt) (i : Nat) : Nonce :=
  getNonce (cipher.sealedFrames + UInt64.ofNat (i + 1))

@[simp] theorem after_zero (cipher : Encrypt) : cipher.after 0 = cipher := by simp [after]

@[simp] theorem sealedOne_after (cipher : Encrypt) (n : Nat) :
    (cipher.after n).sealedOne = cipher.after (n + 1) := by
  simp [after, sealedOne, UInt64.ofNat_add, UInt64.add_assoc]

@[simp] theorem nextNonce_after (cipher : Encrypt) (n : Nat) :
    (cipher.after n).nextNonce = cipher.nonceAt n := by
  simp [after, nextNonce, nonceAt, UInt64.ofNat_add, UInt64.add_assoc]

/-- What one end seals with its next nonce, the other opens when its counter
stands at the same number. -/
theorem dec_enc {box : SecretBox} (hbox : box.Ideal) {sender receiver : Encrypt}
    (hkey : receiver.key = sender.key) (hseq : receiver.openedFrames = sender.sealedFrames)
    (data : Bytes) :
    dec box receiver (enc box sender data).1 =
      .ok (data, { receiver with openedFrames := (enc box sender data).2.sealedFrames }) := by
  have hlen : ¬ (enc box sender data).1.length ≤ 1 := by
    rw [enc, hbox.length_sealed, macBytes]; omega
  rw [dec, if_neg hlen, enc, hkey, hseq]
  simp only [hbox.opened_sealed]

/-- `Encrypt::decode`: the symmetric key in a public-key box, when it and the
sender's public key have the right length. -/
def decode (sodium : Sodium) (symmetricData theirPk : Bytes) (ourSk : BoxSecretKey) : Option Key :=
  match FixedBytes.fromSlice 32 theirPk with
  | none => none
  | some theirPk =>
    match sodium.boxOpen symmetricData zeroNonce theirPk ourSk with
    | none => none
    | some symmetricKey => FixedBytes.fromSlice 32 symmetricKey

end Encrypt

/-! ### With or without a cipher -/

/-- Bytes through the cipher, when there is one. -/
def decipher (box : SecretBox) (cipher : Option Encrypt) (bytes : Bytes) :
    Except IoError (Bytes × Option Encrypt) :=
  match cipher with
  | none => .ok (bytes, none)
  | some cipher => (cipher.dec box bytes).map fun r => (r.1, some r.2)

/-- Bytes through the cipher, when there is one, with the nonce used. -/
def encipher (box : SecretBox) (cipher : Option Encrypt) (bytes : Bytes) :
    Bytes × Option Nonce × Option Encrypt :=
  match cipher with
  | none => (bytes, none, none)
  | some cipher =>
    let (bytes, next) := cipher.enc box bytes
    (bytes, some cipher.nextNonce, some next)

/-- The same key, and the opening counter at the sealing counter. -/
def CiphersAgree : Option Encrypt → Option Encrypt → Prop
  | none, none => True
  | some receiver, some sender =>
    receiver.key = sender.key ∧ receiver.openedFrames = sender.sealedFrames
  | _, _ => False

theorem encipher_length {box : SecretBox} (hbox : box.Ideal) (cipher : Option Encrypt)
    (bytes : Bytes) : (encipher box cipher bytes).1.length ≤ bytes.length + macBytes := by
  cases cipher with
  | none => exact Nat.le_add_right _ _
  | some cipher => exact (hbox.length_sealed _ _ _).le

theorem decipher_encipher {box : SecretBox} (hbox : box.Ideal) {receiver sender : Option Encrypt}
    (h : CiphersAgree receiver sender) (bytes : Bytes) :
    ∃ receiver', decipher box receiver (encipher box sender bytes).1 = .ok (bytes, receiver') ∧
      CiphersAgree receiver' (encipher box sender bytes).2.2 := by
  rcases receiver with - | receiver <;> rcases sender with - | sender
  · exact ⟨none, rfl, trivial⟩
  · exact h.elim
  · exact h.elim
  · obtain ⟨hkey, hseq⟩ := h
    refine ⟨some { receiver with openedFrames := (sender.enc box bytes).2.sealedFrames }, ?_,
      hkey, rfl⟩
    simp only [decipher, encipher, Encrypt.dec_enc hbox hkey hseq bytes]
    rfl

theorem encipher_nonce (box : SecretBox) (cipher : Option Encrypt) (bytes : Bytes) :
    (encipher box cipher bytes).2 =
      (cipher.map Encrypt.nextNonce, cipher.map Encrypt.sealedOne) := by
  cases cipher <;> rfl

/-! ### The framed stream -/

/-- One end of a connection: the framing with the bytes received and not yet
decoded, the cipher once a key is set, and the send timeout in milliseconds,
zero for none.  The local address is left out. -/
structure FramedStream where
  codec : BytesCodec
  buffer : Bytes
  cipher : Option Encrypt
  sendTimeout : Nat

namespace FramedStream

/-- `FramedStream::from`, a stream just connected. -/
def fromStream : FramedStream := ⟨.new, [], none, 0⟩

def setSendTimeout (stream : FramedStream) (ms : Nat) : FramedStream :=
  { stream with sendTimeout := ms }

/-- `set_key`: from here on every frame is sealed. -/
def setKey (stream : FramedStream) (key : Key) : FramedStream :=
  { stream with cipher := some (.new key) }

end FramedStream

end RdEngine
