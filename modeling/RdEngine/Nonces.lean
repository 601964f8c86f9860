/-
RdEngine/Nonces.lean

Which nonces two peers use under the key they share.

Each end numbers the frames it seals from one, and both ends install the same
key.  So the `i`-th frame of either direction is sealed with the same nonce:
a pair of key and nonce is met once in each direction (`sealed_twice`), and
again only when a counter has gone all the way round.  The exact statement,
over every run of the two peers, is `nonce_shared_iff`.
-/
import RdEngine.Lib.Runs
import RdEngine.Tcp

namespace RdEngine

/-- The two ends of a connection. -/
inductive Side where
  | viewer
  | host
  deriving DecidableEq, Repr

/-- A frame sealed: by whom, under which key and nonce, and from what. -/
structure SealedFrame where
  side : Side
  key : Key
  nonce : Nonce
  data : Bytes
  deriving DecidableEq

/-- The ciphers of both ends, and the frames sealed so far. -/
structure Peers where
  viewer : Encrypt
  host : Encrypt
  log : List SealedFrame

/-- One end seals data, or opens bytes that have arrived, whatever they are. -/
inductive PeerAction where
  | send (side : Side) (data : Bytes)
  | open_ (side : Side) (bytes : Bytes)

namespace Peers

/-- Both ends right after the key was installed. -/
def keyed (key : Key) : Peers := ⟨.new key, .new key, []⟩

/-- The cipher of one end. -/
def cipher (peers : Peers) : Side → Encrypt
  | .viewer => peers.viewer
  | .host => peers.host

def setCipher (peers : Peers) (side : Side) (cipher : Encrypt) : Peers :=
  match side with
  | .viewer => { peers with viewer := cipher }
  | .host => { peers with host := cipher }

@[simp] theorem cipher_setCipher (peers : Peers) (side other : Side) (cipher : Encrypt) :
    (peers.setCipher side cipher).cipher other =
      if other = side then cipher else peers.cipher other := by
  cases side <;> cases other <;> rfl

@[simp] theorem log_setCipher (peers : Peers) (side : Side) (cipher : Encrypt) :
    (peers.setCipher side cipher).log = peers.log := by
  cases side <;> rfl

/-- An action of one end, and what it seals in the log. -/
def step (box : SecretBox) (peers : Peers) : PeerAction → Peers
  | .send side data =>
    let cipher := peers.cipher side
    { peers.setCipher side (cipher.enc box data).2 with
      log := peers.log ++ [⟨side, cipher.key, cipher.nextNonce, data⟩] }
  | .open_ side bytes =>
    match (peers.cipher side).dec box bytes with
    | .ok (_, cipher) => peers.setCipher side cipher
    | .error _ => peers

/-- Any number of actions after the key was agreed on. -/
def run (box : SecretBox) (key : Key) (actions : List PeerAction) : Peers :=
  actions.foldl (step box) (keyed key)

end Peers

/-- How many frames one end has sealed. -/
def sealedBy (side : Side) (log : List SealedFrame) : Nat :=
  log.countP fun frame => frame.side = side

/-- The position of a frame among those of its own direction. -/
def position (log : List SealedFrame) (i : Nat) (frame : SealedFrame) : Nat :=
  sealedBy frame.side (log.take i)

/-- No pair of key and nonce seals two different plaintexts. -/
def NoncesUnique (log : List SealedFrame) : Prop :=
  log.Pairwise fun a b => a.key = b.key → a.nonce = b.nonce → a.data = b.data

/-- The first frame of the viewer and the first frame of the host share the
nonce one. -/
theorem sealed_twice :
    ¬ ∀ (box : SecretBox) (key : Key) (actions : List PeerAction),
      NoncesUnique (Peers.run box key actions).log := by
  intro h
  have hpair := h .padding ⟨List.replicate 32 7, rfl⟩ [.send .viewer [1], .send .host [2]]
  have hdata := List.rel_of_pairwise_cons hpair (List.mem_singleton.mpr rfl) rfl rfl
  exact absurd hdata (by decide)

/-! ### The counters -/

/-- Each end's counter is the number of frames it sealed, and each frame was
sealed with the number of those before it in its direction. -/
structure Counted (key : Key) (peers : Peers) : Prop where
  keys : ∀ side, (peers.cipher side).key = key
  counts : ∀ side, (peers.cipher side).sealedFrames = UInt64.ofNat (sealedBy side peers.log)
  frames : ∀ i (frame : SealedFrame), peers.log[i]? = some frame →
    frame.key = key ∧ frame.nonce = (Encrypt.new key).nonceAt (position peers.log i frame)

theorem dec_keeps {box : SecretBox} {cipher cipher' : Encrypt} {bytes res : Bytes}
    (h : cipher.dec box bytes = .ok (res, cipher')) :
    cipher'.key = cipher.key ∧ cipher'.sealedFrames = cipher.sealedFrames := by
  unfold Encrypt.dec at h
  split at h
  · cases h; exact ⟨rfl, rfl⟩
  · dsimp only at h
    split at h
    · cases h; exact ⟨rfl, rfl⟩
    · cases h

theorem sealedBy_append_singleton (side : Side) (log : List SealedFrame) (frame : SealedFrame) :
    sealedBy side (log ++ [frame]) =
      sealedBy side log + if side = frame.side then 1 else 0 := by
  by_cases h : side = frame.side <;> simp [sealedBy, List.countP_append, h, Ne.symm]

theorem position_append {log : List SealedFrame} {i : Nat} (h : i ≤ log.length)
    (more : List SealedFrame) (frame : SealedFrame) :
    position (log ++ more) i frame = position log i frame := by
  rw [position, position, List.take_append_of_le_length h]

theorem Counted.step {box : SecretBox} {key : Key} {peers : Peers} (h : Counted key peers)
    (action : PeerAction) : Counted key (peers.step box action) := by
  cases action with
  | send side data =>
    -- one frame more for this side: its counter and the log grow together
    refine ⟨fun other => ?_, fun other => ?_, fun i frame hframe => ?_⟩
    · change ((peers.setCipher side _).cipher other).key = key
      rw [Peers.cipher_setCipher]
      split
      · exact h.keys side
      · exact h.keys other
    · change ((peers.setCipher side _).cipher other).sealedFrames = _
      rw [Peers.cipher_setCipher]
      simp only [Peers.step, sealedBy_append_singleton]
      split
      · next heq =>
        rw [Encrypt.enc, h.counts side, heq, UInt64.ofNat_add]
        rfl
      · exact h.counts other
    · simp only [Peers.step] at hframe ⊢
      rcases Nat.lt_trichotomy i peers.log.length with hlt | heq | hgt
      · rw [List.getElem?_append_left hlt] at hframe
        rw [position_append hlt.le]
        exact h.frames i frame hframe
      · -- the frame just sealed: every earlier one of its direction counts
        subst heq
        rw [List.getElem?_concat_length] at hframe
        obtain rfl := Option.some.inj hframe
        rw [position_append le_rfl, position, List.take_length]
        refine ⟨h.keys side, ?_⟩
        simp only [Encrypt.nextNonce, Encrypt.nonceAt, h.counts side, Encrypt.new,
          UInt64.ofNat_add, UInt64.zero_add]
        rfl
      · rw [List.getElem?_eq_none (by simp; omega)] at hframe
        cases hframe
  | open_ side bytes =>
    -- opening moves no counter of the sealing side
    simp only [Peers.step]
    rcases hdec : (peers.cipher side).dec box bytes with e | ⟨res, cipher'⟩
    · exact h
    · obtain ⟨hkey, hcount⟩ := dec_keeps hdec
      refine ⟨fun other => ?_, fun other => ?_, fun i frame hframe => ?_⟩
      · rw [Peers.cipher_setCipher]
        split
        · rw [hkey, h.keys side]
        · exact h.keys other
      · rw [Peers.cipher_setCipher, Peers.log_setCipher]
        split
        · next heq => rw [hcount, h.counts side, heq]
        · exact h.counts other
      · rw [Peers.log_setCipher] at hframe ⊢
        exact h.frames i frame hframe

theorem run_counted (box : SecretBox) (key : Key) (actions : List PeerAction) :
    Counted key (Peers.run box key actions) := by
  refine Lts.foldl_invariant ?_ (fun peers action h => h.step action) actions
  refine ⟨fun side => by cases side <;> rfl, fun side => by cases side <;> rfl, ?_⟩
  intro i frame hframe
  cases hframe

/-! ### When two frames share a nonce -/

theorem nonceAt_eq_iff (key : Key) (m n : Nat) :
    (Encrypt.new key).nonceAt m = (Encrypt.new key).nonceAt n ↔ m % 2 ^ 64 = n % 2 ^ 64 := by
  rw [Encrypt.nonceAt, Encrypt.nonceAt, getNonce_injective.eq_iff, ← UInt64.toNat_inj]
  simp only [Encrypt.new, UInt64.zero_add, UInt64.toNat_ofNat']
  omega

/-- Of two frames of one direction the later one has the higher position. -/
theorem position_lt {log : List SealedFrame} {i j : Nat} {a b : SealedFrame}
    (ha : log[i]? = some a) (hij : i < j) (hside : a.side = b.side) :
    position log i a < position log j b := by
  obtain ⟨hi, hget⟩ := List.getElem?_eq_some_iff.mp ha
  have hlen : i < (log.take j).length := by rw [List.length_take]; omega
  have hsplit : log.take j = log.take i ++ a :: (log.take j).drop (i + 1) := by
    calc log.take j = (log.take j).take i ++ (log.take j).drop i := (List.take_append_drop _ _).symm
      _ = log.take i ++ a :: (log.take j).drop (i + 1) := by
        rw [List.take_take, Nat.min_eq_left hij.le, List.drop_eq_getElem_cons hlen,
          List.getElem_take, hget]
  rw [position, position, hsplit, sealedBy, sealedBy, List.countP_append, List.countP_cons]
  simp [hside]

/-- **Nonces under the shared key**: two frames share a nonce exactly when
their positions in their own directions agree modulo `2 ^ 64`.  So within one
direction a nonce comes back only after `2 ^ 64` frames. -/
theorem nonce_shared_iff (box : SecretBox) (key : Key) (actions : List PeerAction) {i j : Nat}
    {a b : SealedFrame} (ha : (Peers.run box key actions).log[i]? = some a)
    (hb : (Peers.run box key actions).log[j]? = some b) :
    a.key = b.key ∧
    (a.nonce = b.nonce ↔ position (Peers.run box key actions).log i a % 2 ^ 64 =
      position (Peers.run box key actions).log j b % 2 ^ 64) ∧
    (a.side = b.side → i < j → a.nonce = b.nonce →
      position (Peers.run box key actions).log i a + 2 ^ 64 ≤
        position (Peers.run box key actions).log j b) := by
  have hcounted := run_counted box key actions
  obtain ⟨hakey, hanonce⟩ := hcounted.frames i a ha
  obtain ⟨hbkey, hbnonce⟩ := hcounted.frames j b hb
  have hiff : a.nonce = b.nonce ↔ position (Peers.run box key actions).log i a % 2 ^ 64 =
      position (Peers.run box key actions).log j b % 2 ^ 64 := by
    rw [hanonce, hbnonce, nonceAt_eq_iff]
  refine ⟨hakey.trans hbkey.symm, hiff, fun hside hij hnonce => ?_⟩
  have hlt := position_lt ha hij hside
  have hmod := hiff.mp hnonce
  omega

/-- The first two frames of one direction, with a frame of the other between
them. -/
theorem nonce_shared_iff_three :
    ∃ a b, (Peers.run .padding ⟨List.replicate 32 7, rfl⟩
        [.send .viewer [1], .send .host [2], .send .viewer [3]]).log[0]? = some a ∧
      (Peers.run .padding ⟨List.replicate 32 7, rfl⟩
        [.send .viewer [1], .send .host [2], .send .viewer [3]]).log[2]? = some b ∧
      a.nonce ≠ b.nonce := by
  refine ⟨_, _, rfl, rfl, ?_⟩
  rw [Ne, (nonce_shared_iff .padding ⟨List.replicate 32 7, rfl⟩
    [.send .viewer [1], .send .host [2], .send .viewer [3]] (i := 0) (j := 2) rfl rfl).2.1]
  decide

end RdEngine
