/-
RdEngine/Sodium.lean

The functions of `sodiumoxide` the engine uses.  The library is outside the
repository, so they are parameters; what is relied on is stated beside them.

* `secretbox` is ideal when a box opens exactly if it is the sealing of what
  it opens to, under the same nonce and key, and sealing adds `MACBYTES`.
* `sign::sign` is the combined form, the signature in front of the data, so
  what verifies is what was signed whatever the signature scheme does.
* `box_` opens what the other key pair sealed.
-/
import RdEngine.Message

namespace RdEngine

/-- A byte string of a fixed length. -/
abbrev FixedBytes (n : Nat) : Type := { bytes : Bytes // bytes.length = n }

/-- `PublicKey::from_slice`: the bytes, when their number is right. -/
def FixedBytes.fromSlice (n : Nat) (bytes : Bytes) : Option (FixedBytes n) :=
  if h : bytes.length = n then some ⟨bytes, h⟩ else none

theorem FixedBytes.fromSlice_val {n : Nat} (bytes : FixedBytes n) :
    fromSlice n bytes.1 = some bytes := by
  rw [fromSlice, dif_pos bytes.2]

/-- `secretbox::Key`. -/
abbrev Key : Type := FixedBytes 32

/-- `secretbox::Nonce`, and `box_::Nonce` of the same length. -/
abbrev Nonce : Type := FixedBytes 24

/-- The all-zero nonce of a key exchange, whose keys are used once. -/
def zeroNonce : Nonce := ⟨List.replicate 24 0, rfl⟩

/-- `secretbox::MACBYTES`. -/
def macBytes : Nat := 16

/-! ### Secret-key boxes -/

/-- `secretbox::seal` and `secretbox::open`. -/
structure SecretBox where
  sealed : Bytes → Nonce → Key → Bytes
  opened : Bytes → Nonce → Key → Option Bytes

namespace SecretBox

/-- A secret box that opens exactly what it seals, and adds no more than its mark. -/
structure Ideal (box : SecretBox) : Prop where
  opened_eq_some : ∀ {data bytes : Bytes} {nonce : Nonce} {key : Key},
    box.opened bytes nonce key = some data ↔ box.sealed data nonce key = bytes
  length_sealed : ∀ (data : Bytes) (nonce : Nonce) (key : Key),
    (box.sealed data nonce key).length = data.length + macBytes

theorem Ideal.opened_sealed {box : SecretBox} (hbox : box.Ideal) (data : Bytes) (nonce : Nonce)
    (key : Key) : box.opened (box.sealed data nonce key) nonce key = some data :=
  hbox.opened_eq_some.mpr rfl

/-- A box that pads and checks the padding: the laws hold of it, and no secret
is kept. -/
def padding : SecretBox where
  sealed data _ _ := List.replicate macBytes 0 ++ data
  opened bytes _ _ :=
    if bytes.take macBytes = List.replicate macBytes 0 then some (bytes.drop macBytes) else none

theorem padding_ideal : padding.Ideal where
  opened_eq_some := by
    intro data bytes nonce key
    simp only [padding]
    constructor
    · intro h
      split_ifs at h with htag
      obtain rfl := Option.some.inj h
      rw [← htag, List.take_append_drop]
    · rintro rfl
      rw [if_pos (List.take_left' List.length_replicate), List.drop_left' List.length_replicate]
  length_sealed data nonce key := by
    simp only [padding, List.length_append, List.length_replicate]
    exact Nat.add_comm _ _

end SecretBox

/-! ### Signatures and public-key boxes -/

/-- `sign::PublicKey`. -/
abbrev SignPublicKey : Type := FixedBytes 32

/-- `sign::SecretKey`. -/
abbrev SignSecretKey : Type := FixedBytes 64

/-- `box_::PublicKey`. -/
abbrev BoxPublicKey : Type := FixedBytes 32

/-- `box_::SecretKey`. -/
abbrev BoxSecretKey : Type := FixedBytes 32

/-- The library: whether it initialises, the detached signature and its check,
the public key of a box's secret key, and the two kinds of box. -/
structure Sodium where
  init : Bool
  signature : Bytes → SignSecretKey → FixedBytes 64
  signed : FixedBytes 64 → Bytes → SignPublicKey → Bool
  boxPublic : BoxSecretKey → BoxPublicKey
  boxSeal : Bytes → Nonce → BoxPublicKey → BoxSecretKey → Bytes
  boxOpen : Bytes → Nonce → BoxPublicKey → BoxSecretKey → Option Bytes
  secretbox : SecretBox

namespace Sodium

/-- `sign::sign`. -/
def sign (sodium : Sodium) (data : Bytes) (key : SignSecretKey) : Bytes :=
  (sodium.signature data key).1 ++ data

/-- `sign::verify`. -/
def verify (sodium : Sodium) (bytes : Bytes) (key : SignPublicKey) : Option Bytes :=
  match FixedBytes.fromSlice 64 (bytes.take 64) with
  | none => none
  | some signature =>
    if sodium.signed signature (bytes.drop 64) key then some (bytes.drop 64) else none

/-- The primitives open what they have sealed. -/
structure Ideal (sodium : Sodium) : Prop where
  boxOpen_seal : ∀ (data : Bytes) (nonce : Nonce) (ours theirs : BoxSecretKey),
    sodium.boxOpen (sodium.boxSeal data nonce (sodium.boxPublic theirs) ours) nonce
      (sodium.boxPublic ours) theirs = some data
  secretbox : sodium.secretbox.Ideal

/-- A library that hides nothing and signs with zeros: the laws hold of it. -/
def transparent : Sodium where
  init := true
  signature _ _ := ⟨List.replicate 64 0, rfl⟩
  signed _ _ _ := true
  boxPublic secret := secret
  boxSeal data _ _ _ := data
  boxOpen bytes _ _ _ := some bytes
  secretbox := .padding

theorem transparent_ideal : transparent.Ideal where
  boxOpen_seal _ _ _ _ := rfl
  secretbox := SecretBox.padding_ideal

/-- What verifies is what was signed, whoever signed it. -/
theorem verify_sign {sodium : Sodium} {data data' : Bytes} {key : SignSecretKey}
    {key' : SignPublicKey} (h : sodium.verify (sodium.sign data key) key' = some data') :
    data' = data := by
  have hdrop : (sodium.sign data key).drop 64 = data :=
    List.drop_left' (sodium.signature data key).2
  unfold verify at h
  rw [hdrop] at h
  split at h
  · cases h
  · split_ifs at h
    exact (Option.some.inj h).symm

end Sodium

end RdEngine
