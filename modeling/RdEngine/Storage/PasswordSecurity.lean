/-
RdEngine/Storage/PasswordSecurity.lean

Encryption of what `hbb_common` writes to its files (`password_security.rs`).

A value is sealed under a key made of the machine's identifier, or of the public key of
the stored key pair where there is no identifier, and is written as a version and the
base64 of the box with its nonce.  Reading tries the identifier's key and then the key
pair's, so what was written under the key pair's can be read whenever that pair is there,
and what was written under the identifier's only while the identifier is
(`Device.symmetricDecrypt_pk`, `Device.symmetricDecrypt_uid`).  What cannot be read is
handed back as it is written, and is not written again (`decryptStr_boxed`).
-/
import RdEngine.Sodium
import RdEngine.TextBytes
import RdEngine.Lib.Base64

namespace RdEngine

namespace Storage

/-! ### Base64 -/

/-- `base64::encode(_, Variant::Original)`. -/
def base64Encode (bytes : Bytes) : List Char := Base64.encode Base64.original bytes

/-- `base64::decode(_, Variant::Original)`, of the bytes of a text. -/
def base64Decode (bytes : Bytes) : Option Bytes :=
  Base64.decode Base64.original (bytes.map fun b => Char.ofNat b.toNat)

/-! ### `symmetric_crypt` -/

/-- The first byte of a payload in the current format. -/
def formatV1 : UInt8 := 1

/-- What the key is made of: `get_uuid` and the public key of
`Config::get_existing_key_pair`. -/
structure Machine where
  box : SecretBox
  uuid : Bytes
  existingPk : Option Bytes

/-- The bytes resized to `secretbox::KEYBYTES`. -/
def keyOf (keybuf : Bytes) : Key :=
  ⟨(keybuf ++ List.replicate 32 0).take 32, by
    rw [List.length_take, List.length_append, List.length_replicate]
    omega⟩

/-- `open_secretbox_payload`: the current format, and the one before it. -/
def openSecretboxPayload (box : SecretBox) (data : Bytes) (key : Key) : Option Bytes :=
  let current :=
    if data.head? = some formatV1 ∧ 1 + 24 + macBytes ≤ data.length then
      (FixedBytes.fromSlice 24 ((data.drop 1).take 24)).bind fun nonce =>
        box.opened (data.drop (1 + 24)) nonce key
    else none
  current.or (box.opened data zeroNonce key)

/-- A box behind its nonce. -/
def payload (box : SecretBox) (key : Key) (nonce : Nonce) (data : Bytes) : Bytes :=
  formatV1 :: (nonce.1 ++ box.sealed data nonce key)

/-- `symmetric_crypt(_, true)`. -/
def symmetricEncrypt (m : Machine) (nonce : Nonce) (data : Bytes) : Bytes :=
  payload m.box (keyOf m.uuid) nonce data

/-- `symmetric_crypt(_, false)`. -/
def symmetricDecrypt (m : Machine) (data : Bytes) : Option Bytes :=
  match openSecretboxPayload m.box data (keyOf m.uuid), m.existingPk with
  | some bytes, _ => some bytes
  | none, some pk => if pk ≠ m.uuid then openSecretboxPayload m.box data (keyOf pk) else none
  | none, none => none

/-! ### Values and what is written of them -/

/-- The mark of an encrypted value. -/
def version00 : List Char := ['0', '0']

/-- The version in front of a box that may be there or not. -/
def isEncrypted (v : Bytes) : Bool :=
  if v.length ≤ 2 ∨ ¬ Text.asBytes version00 <+: v then false
  else
    match base64Decode (v.drop 2) with
    | some decoded => decide (macBytes ≤ decoded.length)
    | none => false

/-- `encrypt`; nothing is made of an empty value. -/
def encrypt (m : Machine) (nonce : Nonce) (v : Bytes) : Option (List Char) :=
  if v ≠ [] then some (base64Encode (symmetricEncrypt m nonce v)) else none

def decrypt (m : Machine) (v : Bytes) : Option Bytes :=
  if v ≠ [] then (base64Decode v).bind (symmetricDecrypt m) else none

/-- `encrypt_str_or_original`; a value that is too long is lost. -/
def encryptStrOrOriginal (m : Machine) (nonce : Nonce) (s version : List Char) (maxLen : Nat) :
    List Char :=
  if isEncrypted (Text.asBytes s) then s
  else if maxLen < s.length then []
  else if version = version00 then
    match encrypt m nonce (Text.asBytes s) with
    | some encrypted => version ++ encrypted
    | none => s
  else s

/-- The value, whether it was decrypted, and whether it should be stored again. -/
def decryptStrOrOriginal (m : Machine) (s currentVersion : List Char) : List Char × Bool × Bool :=
  let decrypted :=
    if 2 < Text.size s ∧ version00 <+: s then decrypt m (Text.asBytes (s.drop 2)) else none
  match decrypted with
  | some v => (Text.fromUtf8Lossy v, true, version00 ≠ currentVersion)
  | none => (s, false, s ≠ [] ∧ ¬ isEncrypted (Text.asBytes s))

def encryptVecOrOriginal (m : Machine) (nonce : Nonce) (v : Bytes) (version : List Char)
    (maxLen : Nat) : Bytes :=
  if isEncrypted v then v
  else if maxLen < v.length then []
  else if version = version00 then
    match encrypt m nonce v with
    | some encrypted => Text.asBytes version ++ Text.asBytes encrypted
    | none => v
  else v

/-- `decrypt_vec_or_original`: the value, whether it was encrypted, and whether it should be
stored again. -/
def decryptVecOrOriginal (m : Machine) (v : Bytes) (currentVersion : List Char) :
    Bytes × Bool × Bool :=
  let decrypted :=
    if 2 < v.length ∧ Text.fromUtf8Lossy (v.take 2) = version00 then decrypt m (v.drop 2) else none
  match decrypted with
  | some bytes => (bytes, true, version00 ≠ currentVersion)
  | none => (v, false, v ≠ [] ∧ ¬ isEncrypted v)

/-! ### Base64 of a text -/

theorem ofNat_ascii {c : Char} (h : c.toNat < 128) :
    Char.ofNat (UInt8.ofNat c.toNat).toNat = c := by
  rw [Text.toNat_ofNat_byte (by omega), Char.ofNat_toNat]

/-- The bytes of a text are decoded exactly if the text is an encoding. -/
theorem base64Decode_asBytes {text : List Char} {bytes : Bytes} :
    base64Decode (Text.asBytes text) = some bytes ↔ text = base64Encode bytes := by
  unfold base64Decode base64Encode
  rw [Base64.decode_eq_some_iff]
  constructor
  · intro h
    have hascii : ∀ b ∈ Text.asBytes text, b < 0x80 := by
      intro b hb
      have hmem : Char.ofNat b.toNat ∈ Base64.encode Base64.original bytes :=
        h ▸ List.mem_map_of_mem hb
      have hlt := Base64.original_ascii _ hmem
      have hbyte := b.toNat_lt
      rw [Text.toNat_ofNat_char (by omega)] at hlt
      exact UInt8.lt_iff_toNat_lt.mpr hlt
    rw [← h, ← Text.fromUtf8Lossy_ascii hascii, Text.fromUtf8Lossy_asBytes]
  · rintro rfl
    rw [Text.asBytes_ascii Base64.original_ascii, List.map_map]
    refine List.map_congr_left (g := id) (fun c hc => ?_) |>.trans (List.map_id _)
    exact ofNat_ascii (Base64.original_ascii c hc)

theorem base64Decode_encode (bytes : Bytes) :
    base64Decode (Text.asBytes (base64Encode bytes)) = some bytes :=
  base64Decode_asBytes.mpr rfl

theorem base64Encode_ne_nil {bytes : Bytes} (h : bytes ≠ []) : base64Encode bytes ≠ [] := by
  intro hnil
  have hlen : (base64Encode bytes).length = (bytes.length + 2) / 3 * 4 := Base64.length_encode bytes
  have hpos := List.length_pos_iff.mpr h
  rw [hnil, List.length_nil] at hlen
  omega

/-! ### Boxes -/

theorem payload_ne_nil (box : SecretBox) (key : Key) (nonce : Nonce) (data : Bytes) :
    payload box key nonce data ≠ [] :=
  List.cons_ne_nil _ _

theorem length_payload {box : SecretBox} (hbox : box.Ideal) (key : Key) (nonce : Nonce)
    (data : Bytes) : (payload box key nonce data).length = 41 + data.length := by
  rw [payload, List.length_cons, List.length_append, nonce.2, hbox.length_sealed, macBytes]
  omega

/-- A box is opened with its own nonce. -/
theorem openSecretboxPayload_payload {box : SecretBox} (hbox : box.Ideal) (key : Key) (nonce : Nonce)
    (data : Bytes) : openSecretboxPayload box (payload box key nonce data) key = some data := by
  have hlen : 1 + 24 + macBytes ≤ (payload box key nonce data).length := by
    rw [length_payload hbox, macBytes]
    omega
  have hnonce : ((payload box key nonce data).drop 1).take 24 = nonce.1 := by
    rw [payload, List.drop_succ_cons, List.drop_zero, List.take_left' nonce.2]
  have hbehind : (payload box key nonce data).drop (1 + 24) = box.sealed data nonce key := by
    rw [← List.drop_drop, payload, List.drop_succ_cons, List.drop_zero, List.drop_left' nonce.2]
  unfold openSecretboxPayload
  dsimp only
  rw [if_pos ⟨rfl, hlen⟩, hnonce, FixedBytes.fromSlice_val, Option.bind_some, hbehind,
    hbox.opened_sealed, Option.some_or]

/-! ### The keys of one device -/

/-- A device: its boxes, the identifier of the machine and the public key of its key
pair. -/
structure Device where
  box : SecretBox
  uid : Bytes
  pk : Bytes

namespace Device

/-- What `symmetric_crypt` finds while the identifier can be had or not, and the key pair
is there or not. -/
def machine (d : Device) (uidKnown pairThere : Bool) : Machine where
  box := d.box
  uuid := if uidKnown then d.uid else d.pk
  existingPk := if pairThere then some d.pk else none

/-- The boxes of one key are not opened with the other, unless they are the same key. -/
structure Sound (d : Device) : Prop where
  ideal : d.box.Ideal
  apart : keyOf d.uid = keyOf d.pk ∨ ∀ (nonce : Nonce) (data : Bytes),
    openSecretboxPayload d.box (payload d.box (keyOf d.uid) nonce data) (keyOf d.pk) = none ∧
      openSecretboxPayload d.box (payload d.box (keyOf d.pk) nonce data) (keyOf d.uid) = none

variable {d : Device} {uidKnown pairThere : Bool} {nonce : Nonce} {data : Bytes}

/-- What was written under the identifier's key is read while the identifier is known. -/
theorem symmetricDecrypt_uid (hd : d.Sound) (pairThere : Bool) (nonce : Nonce) (data : Bytes) :
    symmetricDecrypt (d.machine true pairThere) (payload d.box (keyOf d.uid) nonce data) =
      some data := by
  unfold symmetricDecrypt machine
  simp only [if_true]
  rw [openSecretboxPayload_payload hd.ideal]

/-- What was written under the key pair's is read whenever the key pair is there, or where
it is all there is to make a key of. -/
theorem symmetricDecrypt_pk (hd : d.Sound) (h : uidKnown = false ∨ pairThere = true) (nonce : Nonce)
    (data : Bytes) :
    symmetricDecrypt (d.machine uidKnown pairThere) (payload d.box (keyOf d.pk) nonce data) =
      some data := by
  unfold symmetricDecrypt machine
  cases uidKnown with
  | false =>
    simp only [Bool.false_eq_true, if_false]
    rw [openSecretboxPayload_payload hd.ideal]
  | true =>
    obtain rfl : pairThere = true := h.resolve_left (by decide)
    simp only [if_true]
    rcases hd.apart with heq | hapart
    · rw [heq, openSecretboxPayload_payload hd.ideal]
    · rw [(hapart nonce data).2]
      have hne : d.pk ≠ d.uid := by
        intro heq
        have hopen := (hapart nonce data).2
        rw [← heq, openSecretboxPayload_payload hd.ideal] at hopen
        cases hopen
      simp only [ne_eq, hne, not_false_eq_true, if_true]
      exact openSecretboxPayload_payload hd.ideal _ nonce data

/-- What was written under the identifier's key is lost while the identifier is. -/
theorem symmetricDecrypt_uid_lost (hd : d.Sound) (hkey : keyOf d.uid ≠ keyOf d.pk) (pairThere : Bool)
    (nonce : Nonce) (data : Bytes) :
    symmetricDecrypt (d.machine false pairThere) (payload d.box (keyOf d.uid) nonce data) = none := by
  have hapart := (hd.apart.resolve_left hkey nonce data).1
  unfold symmetricDecrypt machine
  simp only [Bool.false_eq_true, if_false]
  rw [hapart]
  cases pairThere with
  | false => rfl
  | true => exact if_neg (not_not_intro rfl)

/-- What was written under the key pair's is lost while the identifier is known and the key
pair is not there. -/
theorem symmetricDecrypt_pk_lost (hd : d.Sound) (hkey : keyOf d.uid ≠ keyOf d.pk) (nonce : Nonce)
    (data : Bytes) :
    symmetricDecrypt (d.machine true false) (payload d.box (keyOf d.pk) nonce data) = none := by
  have hapart := (hd.apart.resolve_left hkey nonce data).2
  unfold symmetricDecrypt machine
  simp only [if_true]
  rw [hapart]
  rfl

end Device

/-! ### Values read and written -/

/-- What is written of a value under a key. -/
def boxed (box : SecretBox) (key : Key) (nonce : Nonce) (v : List Char) : List Char :=
  version00 ++ base64Encode (payload box key nonce (Text.asBytes v))

section Boxed

variable {m : Machine} {box : SecretBox} {key : Key} {nonce : Nonce} {v : List Char}

theorem asBytes_boxed : Text.asBytes (boxed box key nonce v) =
    Text.asBytes version00 ++ Text.asBytes (base64Encode (payload box key nonce (Text.asBytes v))) :=
  Text.asBytes_append _ _

theorem asBytes_base64_ne_nil {bytes : Bytes} (h : bytes ≠ []) :
    Text.asBytes (base64Encode bytes) ≠ [] := by
  intro hnil
  have hdecode := base64Decode_encode bytes
  rw [hnil] at hdecode
  exact h (Option.some.inj hdecode).symm

theorem size_version00 : Text.size version00 = 2 := by decide

theorem length_version00 : (Text.asBytes version00).length = 2 := Text.length_asBytes version00

theorem size_boxed : 2 < Text.size (boxed box key nonce v) := by
  have hpos := List.length_pos_iff.mpr
    (asBytes_base64_ne_nil (payload_ne_nil box key nonce (Text.asBytes v)))
  rw [Text.length_asBytes] at hpos
  rw [boxed, Text.size_append, size_version00]
  omega

theorem drop_boxed :
    (boxed box key nonce v).drop 2 = base64Encode (payload box key nonce (Text.asBytes v)) := rfl

theorem isEncrypted_boxed (hbox : box.Ideal) : isEncrypted (Text.asBytes (boxed box key nonce v)) = true := by
  have hlen : ¬ (Text.asBytes (boxed box key nonce v)).length ≤ 2 := by
    rw [Text.length_asBytes]
    exact Nat.not_le.mpr size_boxed
  unfold isEncrypted
  rw [if_neg (not_or.mpr ⟨hlen, not_not_intro ?_⟩)]
  · rw [asBytes_boxed, List.drop_left' length_version00, base64Decode_encode]
    refine decide_eq_true ?_
    rw [length_payload hbox, macBytes]
    omega
  · rw [asBytes_boxed]
    exact List.prefix_append _ _

/-- What is read of a box is what opens of it; a box that does not open is what is read,
and is not stored again. -/
theorem decryptStr_boxed (hbox : box.Ideal) (m : Machine) (nonce : Nonce) (v current : List Char) :
    decryptStrOrOriginal m (boxed box key nonce v) current =
      match symmetricDecrypt m (payload box key nonce (Text.asBytes v)) with
      | some bytes => (Text.fromUtf8Lossy bytes, true, version00 ≠ current)
      | none => (boxed box key nonce v, false, false) := by
  have hdecrypt : decrypt m (Text.asBytes ((boxed box key nonce v).drop 2)) =
      symmetricDecrypt m (payload box key nonce (Text.asBytes v)) := by
    rw [drop_boxed, decrypt, if_pos (asBytes_base64_ne_nil (payload_ne_nil _ _ _ _)),
      base64Decode_encode, Option.bind_some]
  have hread : (if 2 < Text.size (boxed box key nonce v) ∧ version00 <+: boxed box key nonce v then
      decrypt m (Text.asBytes ((boxed box key nonce v).drop 2)) else none) =
      symmetricDecrypt m (payload box key nonce (Text.asBytes v)) := by
    rw [if_pos ⟨size_boxed, List.prefix_append _ _⟩, hdecrypt]
  unfold decryptStrOrOriginal
  dsimp only
  rw [hread]
  cases symmetricDecrypt m (payload box key nonce (Text.asBytes v)) with
  | some bytes => rfl
  | none =>
    simp only [isEncrypted_boxed hbox, not_true, and_false, decide_false]

/-- A value is written as a box, if it is one: it has to be there, to be short enough and
not to look like a box already. -/
theorem encryptStr_eq_boxed {maxLen : Nat} (h : v ≠ []) (hplain : isEncrypted (Text.asBytes v) = false)
    (hlen : v.length ≤ maxLen) (m : Machine) (nonce : Nonce) :
    encryptStrOrOriginal m nonce v version00 maxLen = boxed m.box (keyOf m.uuid) nonce v := by
  have hne : Text.asBytes v ≠ [] := by
    intro hnil
    exact h (Text.asBytes_injective (hnil.trans Text.asBytes_nil.symm))
  unfold encryptStrOrOriginal
  rw [hplain, if_neg Bool.false_ne_true, if_neg (Nat.not_lt.mpr hlen), if_pos rfl, encrypt, if_pos hne]
  rfl

theorem encryptStr_nil (m : Machine) (nonce : Nonce) (version : List Char) (maxLen : Nat) :
    encryptStrOrOriginal m nonce [] version maxLen = [] := by
  unfold encryptStrOrOriginal
  rw [show isEncrypted (Text.asBytes []) = false from rfl, if_neg Bool.false_ne_true,
    if_neg (show ¬ maxLen < ([] : List Char).length from Nat.not_lt_zero maxLen)]
  split_ifs
  · rfl
  · rfl

/-- A text without the version is no box: it is read as it is. -/
theorem decryptStr_of_unversioned (h : ¬ version00 <+: v) (m : Machine) (current : List Char) :
    decryptStrOrOriginal m v current = (v, false, decide (v ≠ [] ∧ ¬ isEncrypted (Text.asBytes v))) := by
  unfold decryptStrOrOriginal
  dsimp only
  rw [if_neg fun hand => h hand.2]

end Boxed

end Storage

end RdEngine
