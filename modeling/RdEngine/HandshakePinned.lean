/-
RdEngine/HandshakePinned.lean

A viewer with a pinned identity fails closed.  Whatever the peer sends and
whenever the connection is lost, the viewer writes at most one record, the
sealed key, and that only after the first record proved the pinned identity.
-/
import RdEngine.HandshakeAgreement

namespace RdEngine

open Dialogue Dialogue.Prog

namespace Handshake

variable {sodium : Sodium} {codecs : Codecs}

/-- The signed bytes verify under the key and state the id. -/
def Proves (sodium : Sodium) (codecs : Codecs) (key : SignPublicKey) (id : String)
    (signed : Bytes) : Prop :=
  ∃ data identity, sodium.verify signed key = some data ∧
    codecs.idPk.parseFromBytes data = .ok identity ∧ identity.id = id

/-- The first record is a signed identity that verifies under the key and
states the id. -/
def Certified (sodium : Sodium) (codecs : Codecs) (key : SignPublicKey) (id : String)
    (reads : List Bytes) : Prop :=
  ∃ frame rest message signed, reads = frame :: rest ∧
    codecs.message.parseFromBytes frame = .ok message ∧
    message.union = some (.signedId signed) ∧ Proves sodium codecs key id signed.id

theorem idPk_ok {signed : Bytes} {key : SignPublicKey} {identity : IdPk}
    (h : idPk sodium codecs signed key = .ok identity) :
    Proves sodium codecs key identity.id signed ∧ identity.pk.length = 32 := by
  unfold idPk at h
  rcases hverify : sodium.verify signed key with - | data
  · rw [hverify] at h; cases h
  rcases hparse : codecs.idPk.parseFromBytes data with e | value
  · simp only [hverify, hparse] at h; cases h
  · simp only [hverify, hparse] at h
    split_ifs at h with hlen
    cases h
    exact ⟨⟨data, identity, hverify, hparse, rfl⟩, not_not.mp hlen⟩

/-- A strict viewer goes on only with a public key that was proved. -/
theorem viewerDecision_strict (expectedId : String) (key : SignPublicKey) (message : Message) :
    (∃ e, viewerDecision sodium codecs true expectedId key message = .refuse e) ∨
    ∃ theirPk signed, viewerDecision sodium codecs true expectedId key message =
        .exchange theirPk ∧
      message.union = some (.signedId signed) ∧ Proves sodium codecs key expectedId signed.id := by
  unfold viewerDecision
  split
  · next signed hunion =>
    rcases hid : idPk sodium codecs signed.id key with e | identity
    · exact .inl ⟨_, rfl⟩
    · obtain ⟨hproves, hlen⟩ := idPk_ok hid
      by_cases hexpected : identity.id = expectedId
      · subst hexpected
        simp only [if_true, FixedBytes.fromSlice, dif_pos hlen]
        exact .inr ⟨_, signed, rfl, hunion, hproves⟩
      · simp only [if_neg hexpected]
        exact .inl ⟨_, rfl⟩
  · exact .inl ⟨_, rfl⟩

/-- What a pinned viewer has done when it stops. -/
inductive PinnedOutcome (sodium : Sodium) (codecs : Codecs) (keys : ViewerKeys)
    (wire : FramedStream) (key : SignPublicKey) (id : String) (reads : List Bytes) :
    List Bytes → Except IoError Established → Prop
  | refused (e : IoError) : PinnedOutcome sodium codecs keys wire key id reads [] (.error e)
  | cut {writes : List Bytes} {theirPk : BoxPublicKey} {w : Bytes} (e : IoError) :
      Certified sodium codecs key id reads →
      codecs.message.writeToBytes (publicKeyReply sodium keys theirPk) = .ok w →
      writes = [] ∨ writes = [w] →
      PinnedOutcome sodium codecs keys wire key id reads writes (.error e)
  | encrypted {theirPk : BoxPublicKey} {w : Bytes} :
      Certified sodium codecs key id reads →
      codecs.message.writeToBytes (publicKeyReply sodium keys theirPk) = .ok w →
      PinnedOutcome sodium codecs keys wire key id reads [w]
        (.ok ⟨(prepared wire).setKey keys.key, .encrypted (some id), none⟩)

/-- Sending the sealed key is all that is left after the decision. -/
theorem reply_outcome {keys : ViewerKeys} {wire : FramedStream} {key : SignPublicKey} {id : String}
    {theirPk : BoxPublicKey} {reads rest writes : List Bytes} {r : Except IoError Established}
    (hplain : wire.cipher = none) (hcertified : Certified sodium codecs key id reads)
    (h : Exec (send sodium codecs (prepared wire) (publicKeyReply sodium keys theirPk) >>=
      fun wire => pure ⟨wire.setKey keys.key, .encrypted (some id), none⟩) rest writes r) :
    PinnedOutcome sodium codecs keys wire key id reads writes r := by
  unfold send at h
  split at h
  · cases h
    exact .refused _
  · next frame wire' hseal =>
    have hprepared : (prepared wire).cipher = none := hplain
    obtain ⟨hwrite, rfl⟩ := sealMessage_plain hprepared hseal
    rw [write_bind, done_bind] at h
    cases h with
    | write hdone =>
      cases hdone
      exact .encrypted hcertified hwrite
    | cutWrite e os hos => exact .cut e hcertified hwrite hos

/-- Every execution of a pinned viewer ends in one of three ways. -/
theorem viewer_pinned {keys : ViewerKeys} {wire : FramedStream} {key : SignPublicKey} {id : String}
    {reads writes : List Bytes} {r : Except IoError Established}
    (h : Exec (viewer sodium codecs keys wire (.pinnedHost id key)) reads writes r) :
    PinnedOutcome sodium codecs keys wire key id reads writes r := by
  unfold viewer init at h
  split at h
  case isFalse => cases h; exact .refused _
  unfold prepare at h
  split at h
  case isTrue => cases h; exact .refused _
  next hplain =>
  by_cases hid : id = "" ∨ (utf8 id).length > 512
  · -- an id that no host can state
    have hexpected : expected sodium codecs (.pinnedHost id key) =
        .error (invalid "Invalid pinned identity") := if_pos hid
    rw [done_bind, done_bind, hexpected] at h
    cases h
    exact .refused _
  have hexpected : expected sodium codecs (.pinnedHost id key) = .ok (some (id, key)) := if_neg hid
  rw [done_bind, done_bind, hexpected] at h
  simp only [recv, read_bind] at h
  cases h with
  | cutRead e => exact .refused e
  | @read _ frame rest _ _ h =>
  -- the first record is here, and nothing has been written
  rcases hnext : FramedStream.next sodium.secretbox (prepared wire) frame with e | ⟨bytes, wire'⟩
  · rw [prepared] at hnext
    simp only [hnext, fail_bind] at h
    cases h
    exact .refused e
  have hplain : wire.cipher = none := by simpa using hplain
  have hnone : (prepared wire).cipher = none := hplain
  obtain ⟨rfl, rfl, -⟩ := next_plain hnone hnext
  rw [prepared] at hnext
  rcases hparse : codecs.message.parseFromBytes bytes with e | message
  · simp only [hnext, hparse, fail_bind] at h
    cases h
    exact .refused _
  simp only [hnext, hparse, done_bind] at h
  rcases @viewerDecision_strict sodium codecs id key message with
    ⟨e, hdecision⟩ | ⟨theirPk, signed, hdecision, hunion, hproves⟩
  · simp only [ViewerIdentity.strict, hdecision] at h
    cases h
    exact .refused e
  · simp only [ViewerIdentity.strict, hdecision] at h
    exact reply_outcome hplain ⟨bytes, rest, message, signed, rfl, hparse, hunion, hproves⟩ h

end Handshake

end RdEngine
