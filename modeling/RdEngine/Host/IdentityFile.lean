/-
RdEngine/Host/IdentityFile.lean

The key pair of the Windows host (`bin/rd-engine-windows-host.rs`), read from its file or
made and written to it.

Several hosts may be started at once, and each may be stopped at any point, also halfway
through a write.  The file is made by one of them alone (`create_new`), and only that one
writes to it, a piece at a time and always at the end.  So what is in the file is always
the beginning of what its maker set out to write, and whoever reads all of it reads the
same (`Kept`): a pair that one host has begun to use is the only one that any host will
ever use, and the file stays as it is (`identity_unique`).
-/
import RdEngine.Lib.Threads
import RdEngine.Sodium

namespace RdEngine

namespace IdentityFile

open Lts Threads

abbrev KeyPair : Type := SignPublicKey × SignSecretKey

/-- The file begins with this. -/
def identityMagic : Bytes := "RDEID001".toList.map fun c => .ofNat c.toNat

def encode (pair : KeyPair) : Bytes := identityMagic ++ pair.1.1 ++ pair.2.1

/-- What is made of the bytes of a file that has no others. -/
def parseIdentity (bytes : Bytes) : Except String KeyPair :=
  if bytes.take 8 ≠ identityMagic then .error "identity file has an invalid format"
  else
    match FixedBytes.fromSlice 32 ((bytes.drop 8).take 32) with
    | none => .error "identity public key has an invalid length"
    | some publicKey =>
      match FixedBytes.fromSlice 64 ((bytes.drop 40).take 64) with
      | none => .error "identity secret key has an invalid length"
      | some secret =>
        if secret.1.drop 32 ≠ publicKey.1 then .error "identity key pair is inconsistent"
        else .ok (publicKey, secret)

/-! ### Accesses -/

/-- What opening the file comes to. -/
inductive Opened where
  | file | notFound | failed

/-- `createNew` says what its caller is about to write, which the file system is not
told. -/
inductive Access where
  | openFile
  | read (offset count : Nat)
  | createDirs
  | genKeypair
  | createNew (whole : Bytes)
  | write (bytes : Bytes)
  | syncAll

@[reducible]
def Access.Answer : Access → Type
  | .openFile => Opened
  | .read _ _ => Option Bytes
  | .createDirs | .createNew _ | .syncAll => Bool
  | .genKeypair => KeyPair
  | .write _ => Option Nat

/-- The file, and what its maker set out to write: no access reads that. -/
structure Disk where
  file : Option Bytes
  intended : Option Bytes

/-- What an access does and may answer.  A read and a write may come to fewer bytes than
were asked for, and any access may fail. -/
def perform {ι : Type} (_ : ι) (s : Disk) (a : Access) (answer : a.Answer) (s' : Disk) : Prop :=
  match a, answer with
  | .openFile, .file => s.file.isSome ∧ s' = s
  | .openFile, .notFound => s.file = none ∧ s' = s
  | .openFile, .failed => s' = s
  | .read _ _, none => s' = s
  | .read offset count, some chunk =>
      (∃ content, s.file = some content ∧ chunk <+: content.drop offset ∧ chunk.length ≤ count ∧
        (chunk = [] → content.length ≤ offset ∨ count = 0)) ∧ s' = s
  | .createDirs, _ | .syncAll, _ => s' = s
  | .genKeypair, pair => pair.2.1.drop 32 = pair.1.1 ∧ s' = s
  | .createNew whole, true => s.file = none ∧ s' = ⟨some [], some whole⟩
  | .createNew _, false => s' = s
  | .write _, none => s' = s
  | .write bytes, some n =>
      n ≤ bytes.length ∧ s' = { s with file := s.file.map (· ++ bytes.take n) }

/-! ### `load_or_create_identity` -/

abbrev Program : Type := Prog Access.Answer (Except String KeyPair)

/-- The program ends here, with this error. -/
def refuse (error : String) : Program := .ret (.error error)

/-- `read_exact`: `count` bytes more. -/
def readExact (k : Bytes → Program) (count : Nat) (got : Bytes) : Program :=
  if count = 0 then k got
  else
    .access (.read got.length count) fun
      | none => refuse "cannot read identity file"
      | some chunk =>
        if chunk = [] then refuse "cannot read identity file"
        else readExact k (count - chunk.length) (got ++ chunk)
termination_by count
decreasing_by
  have hpos := List.length_pos_iff.mpr ‹chunk ≠ []›
  omega

/-- `write_all`. -/
def writeAll (k : Program) (bytes : Bytes) : Program :=
  if bytes = [] then k
  else
    .access (.write bytes) fun
      | none => refuse "cannot persist identity file"
      | some n =>
        if n = 0 then refuse "cannot persist identity file" else writeAll k (bytes.drop n)
termination_by bytes.length
decreasing_by
  have hpos := List.length_pos_iff.mpr ‹bytes ≠ []›
  rw [List.length_drop]
  omega

/-- There is to be nothing behind what was read. -/
def validateIdentity (bytes : Bytes) : Program :=
  .access (.read bytes.length 1) fun
    | none => refuse "cannot validate identity file"
    | some extra =>
      if extra ≠ [] then refuse "identity file has an invalid format"
      else .ret (parseIdentity bytes)

/-- The file is read in whole, and checked. -/
def readIdentity : Program := readExact validateIdentity 104 []

/-- A new identity is written to a file that did not exist. -/
def createIdentity : Program :=
  .access .createDirs fun made =>
    if !made then refuse "cannot create identity directory"
    else
      .access .genKeypair fun pair =>
      .access (.createNew (encode pair)) fun created =>
        if !created then refuse "cannot create identity file"
        else
          writeAll (writeAll (writeAll
            (.access .syncAll fun synced =>
              if synced then .ret (.ok pair) else refuse "cannot persist identity file")
            pair.2.1) pair.1.1) identityMagic

/-- `load_or_create_identity`; a file that is there is never replaced. -/
def loadOrCreateIdentity : Program :=
  .access .openFile fun
    | .file => readIdentity
    | .notFound => createIdentity
    | .failed => refuse "cannot open identity file"

/-- Any number of hosts, each started again when it has come to an end. -/
def hosts (ι : Type) : Machine Access.Answer (Except String KeyPair) Disk ι where
  perform := perform
  start _ _ _ program := program = loadOrCreateIdentity

/-- There is a file with any content, or none. -/
def start (ι : Type) (file : Option Bytes) :
    Config Access.Answer (Except String KeyPair) Disk ι where
  shared := ⟨file, file⟩
  threads _ := refuse "not started"

/-! ### What is written is what is read -/

theorem length_identityMagic : identityMagic.length = 8 := rfl

theorem length_encode (pair : KeyPair) : (encode pair).length = 104 := by
  rw [encode, List.length_append, List.length_append, length_identityMagic, pair.1.2, pair.2.2]

theorem parseIdentity_encode {pair : KeyPair} (h : pair.2.1.drop 32 = pair.1.1) :
    parseIdentity (encode pair) = .ok pair := by
  obtain ⟨publicKey, secret⟩ := pair
  have hmagic : (encode (publicKey, secret)).take 8 = identityMagic := by
    rw [encode, List.append_assoc]
    exact List.take_left' length_identityMagic
  have hpublic : ((encode (publicKey, secret)).drop 8).take 32 = publicKey.1 := by
    rw [encode, List.append_assoc, List.drop_left' length_identityMagic]
    exact List.take_left' publicKey.2
  have hsecret : ((encode (publicKey, secret)).drop 40).take 64 = secret.1 := by
    have hlength : (identityMagic ++ publicKey.1).length = 40 := by
      rw [List.length_append, length_identityMagic, publicKey.2]
    rw [encode, List.drop_left' hlength]
    exact List.take_of_length_le secret.2.le
  unfold parseIdentity
  rw [if_neg (not_not_intro hmagic), hpublic, FixedBytes.fromSlice_val, hsecret]
  dsimp only
  rw [FixedBytes.fromSlice_val]
  exact if_neg (not_not_intro h)

/-! ### What a host knows -/

/-- What it has read so far, what it knows to be all of the file, the pair it has made, what
it set out to write and what is left of that. -/
structure Knows where
  got : Option Bytes := none
  whole : Option Bytes := none
  pair : Option KeyPair := none
  made : Option Bytes := none
  rest : Option Bytes := none

/-- What a program knows after an answer. -/
def learn (k : Knows) (a : Access) (answer : a.Answer) : Knows :=
  match a, answer with
  | .openFile, .file => { k with got := some [] }
  | .read offset _, some chunk =>
    if chunk = [] then if 104 ≤ offset then { k with whole := k.got } else k
    else { k with got := k.got.map (· ++ chunk) }
  | .genKeypair, pair => { k with pair := some pair }
  | .createNew whole, true => { k with made := some whole, rest := some whole }
  | .write bytes, some n =>
    { k with rest := k.rest.map fun rest => bytes.drop n ++ rest.drop bytes.length }
  | _, _ => k

/-- What a program may do with what it knows. -/
def admits (k : Knows) : Access → Prop
  | .read offset count => 0 < count ∧ ∃ got, k.got = some got ∧ got.length = offset
  | .createNew whole => whole.length = 104
  | .write bytes => ∃ tail, k.rest = some (bytes ++ tail)
  | _ => True

/-- A pair that is used is that of the whole file. -/
def Justified (k : Knows) : Except String KeyPair → Prop
  | .ok pair => (∃ whole, k.whole = some whole ∧ parseIdentity whole = .ok pair) ∨
      k.pair = some pair ∧ k.made = some (encode pair) ∧ k.rest = some []
  | .error _ => True

/-- Both, for the programs of this module. -/
def ghost : Ghost Access.Answer Knows := ⟨learn, admits⟩

/-- The program does no more than it may. -/
abbrev Follows (k : Knows) (p : Program) : Prop := Threads.Follows ghost Justified k p

theorem follows_refuse (k : Knows) (error : String) : Follows k (refuse error) := trivial

theorem follows_readExact {p : Bytes → Program} {count : Nat} {got : Bytes} {k : Knows}
    (hk : k.got = some got)
    (hp : ∀ (k : Knows) (bytes : Bytes), k.got = some bytes →
      got.length + count ≤ bytes.length → Follows k (p bytes)) :
    Follows k (readExact p count got) := by
  induction count using Nat.strongRecOn generalizing got k with
  | _ count ih =>
    rw [readExact]
    split_ifs with hcount
    · exact hp k got hk (by omega)
    · refine ⟨⟨Nat.pos_of_ne_zero hcount, got, hk, rfl⟩, fun answer => ?_⟩
      cases answer with
      | none => exact follows_refuse _ _
      | some chunk =>
        dsimp only
        split_ifs with hchunk
        · exact follows_refuse _ _
        · have hpos := List.length_pos_iff.mpr hchunk
          have hgot : (ghost.next k (.read got.length count) (some chunk)).got =
              some (got ++ chunk) := by
            show (if chunk = [] then _ else _ : Knows).got = _
            rw [if_neg hchunk, hk]
            rfl
          refine ih (count - chunk.length) (by omega) hgot fun k bytes hbytes hle => ?_
          rw [List.length_append] at hle
          exact hp k bytes hbytes (by omega)

theorem follows_readIdentity {k : Knows} (hk : k.got = some []) : Follows k readIdentity := by
  refine follows_readExact hk fun k bytes hbytes hle => ⟨⟨Nat.one_pos, bytes, hbytes, rfl⟩, ?_⟩
  rintro (_ | extra)
  · exact follows_refuse _ _
  · dsimp only
    split_ifs with hextra
    · exact follows_refuse _ _
    · have hwhole : (ghost.next k (.read bytes.length 1) (some extra)).whole = some bytes := by
        show (if extra = [] then if 104 ≤ bytes.length then _ else _ else _ : Knows).whole = _
        have hle' : 104 ≤ bytes.length := by
          rw [List.length_nil] at hle
          omega
        rw [if_pos (not_not.mp hextra), if_pos hle']
        exact hbytes
      show Justified _ (parseIdentity bytes)
      cases hparse : parseIdentity bytes with
      | error error => trivial
      | ok pair => exact .inl ⟨bytes, hwhole, hparse⟩

theorem follows_writeAll {p : Program} {bytes tail : Bytes} {k : Knows}
    (hk : k.rest = some (bytes ++ tail))
    (hp : ∀ k' : Knows, k'.rest = some tail → k'.made = k.made → k'.pair = k.pair →
      Follows k' p) :
    Follows k (writeAll p bytes) := by
  induction hlength : bytes.length using Nat.strongRecOn generalizing bytes k with
  | _ length ih =>
    rw [writeAll]
    split_ifs with hbytes
    · refine hp k ?_ rfl rfl
      rw [hk, hbytes, List.nil_append]
    · refine ⟨⟨tail, hk⟩, ?_⟩
      rintro (_ | n)
      · exact follows_refuse _ _
      · dsimp only
        split_ifs with hn
        · exact follows_refuse _ _
        · have hpos := List.length_pos_iff.mpr hbytes
          have hrest : (ghost.next k (.write bytes) (some n)).rest = some (bytes.drop n ++ tail) := by
            show k.rest.map _ = _
            rw [hk, Option.map_some, List.drop_left' rfl]
          exact ih (bytes.drop n).length (by rw [List.length_drop]; omega) hrest hp rfl

theorem follows_createIdentity (k : Knows) : Follows k createIdentity := by
  refine ⟨trivial, fun made => ?_⟩
  cases made with
  | false => exact follows_refuse _ _
  | true =>
    refine ⟨trivial, fun pair => ⟨length_encode pair, fun created => ?_⟩⟩
    cases created with
    | false => exact follows_refuse _ _
    | true =>
      have hencode : encode pair = identityMagic ++ (pair.1.1 ++ (pair.2.1 ++ [])) := by
        rw [encode, List.append_nil, List.append_assoc]
      refine follows_writeAll (congrArg some hencode) fun k₁ hrest₁ hmade₁ hpair₁ =>
        follows_writeAll hrest₁ fun k₂ hrest₂ hmade₂ hpair₂ =>
          follows_writeAll hrest₂ fun k₃ hrest₃ hmade₃ hpair₃ => ⟨trivial, fun synced => ?_⟩
      cases synced with
      | false => exact follows_refuse _ _
      | true =>
        exact .inr ⟨hpair₃.trans (hpair₂.trans hpair₁), hmade₃.trans (hmade₂.trans hmade₁), hrest₃⟩

theorem follows_load (k : Knows) : Follows k loadOrCreateIdentity := by
  refine ⟨trivial, fun opened => ?_⟩
  cases opened with
  | file => exact follows_readIdentity rfl
  | notFound => exact follows_createIdentity _
  | failed => exact follows_refuse _ _

/-! ### What is kept -/

section Kept

variable {ι : Type} {g : ι → Knows} {s s' : Disk} {i : ι} {k : Knows}

/-- The file is the beginning of what its maker set out to write, and all of it where it was
there from the start; and how what the hosts know bears on it. -/
structure Kept (g : ι → Knows) (s : Disk) : Prop where
  blank : s.file = none → s.intended = none
  shape : ∀ content, s.file = some content → ∃ whole, s.intended = some whole ∧
    content <+: whole ∧ (content = whole ∨ whole.length = 104)
  got : ∀ i bytes, (g i).got = some bytes → ∃ content, s.file = some content ∧ bytes <+: content
  whole : ∀ i whole, (g i).whole = some whole → s.file = some whole ∧ s.intended = some whole
  pair : ∀ i pair, (g i).pair = some pair → pair.2.1.drop 32 = pair.1.1
  made : ∀ i whole, (g i).made = some whole → s.intended = some whole
  rest : ∀ i rest, (g i).rest = some rest →
    ∃ content, s.file = some content ∧ s.intended = some (content ++ rest)
  alone : ∀ i j, (g i).rest.isSome → (g j).rest.isSome → i = j

theorem forall_update [DecidableEq ι] {P : Knows → Prop} (hk : P k) (hg : ∀ j, j ≠ i → P (g j))
    (j : ι) : P (Function.update g i k j) := by
  by_cases hj : j = i
  · subst hj
    rw [Function.update_self]
    exact hk
  · rw [Function.update_of_ne hj]
    exact hg j hj

variable [DecidableEq ι]

theorem Kept.learn (h : Kept g s)
    (hgot : ∀ bytes, k.got = some bytes → ∃ content, s.file = some content ∧ bytes <+: content)
    (hwhole : ∀ whole, k.whole = some whole → s.file = some whole ∧ s.intended = some whole)
    (hpair : ∀ pair, k.pair = some pair → pair.2.1.drop 32 = pair.1.1)
    (hmade : ∀ whole, k.made = some whole → s.intended = some whole)
    (hrest : ∀ rest, k.rest = some rest →
      ∃ content, s.file = some content ∧ s.intended = some (content ++ rest))
    (halone : k.rest.isSome → ∀ j, j ≠ i → (g j).rest = none) :
    Kept (Function.update g i k) s := by
  refine ⟨h.blank, h.shape,
    forall_update (P := fun k => ∀ bytes, k.got = some bytes → ∃ content,
      s.file = some content ∧ bytes <+: content) hgot fun j _ => h.got j,
    forall_update (P := fun k => ∀ whole, k.whole = some whole → s.file = some whole ∧
      s.intended = some whole) hwhole fun j _ => h.whole j,
    forall_update (P := fun k => ∀ pair, k.pair = some pair → pair.2.1.drop 32 = pair.1.1) hpair
      fun j _ => h.pair j,
    forall_update (P := fun k => ∀ whole, k.made = some whole → s.intended = some whole) hmade
      fun j _ => h.made j,
    forall_update (P := fun k => ∀ rest, k.rest = some rest → ∃ content,
      s.file = some content ∧ s.intended = some (content ++ rest)) hrest fun j _ => h.rest j, ?_⟩
  intro j j' hj hj'
  by_cases hji : j = i
  · by_cases hj'i : j' = i
    · exact hji.trans hj'i.symm
    · rw [hji, Function.update_self] at hj
      rw [Function.update_of_ne hj'i, halone hj j' hj'i] at hj'
      cases hj'
  · rw [Function.update_of_ne hji] at hj
    by_cases hj'i : j' = i
    · rw [hj'i, Function.update_self] at hj'
      rw [halone hj' j hji] at hj
      cases hj
    · rw [Function.update_of_ne hj'i] at hj'
      exact h.alone j j' hj hj'

omit [DecidableEq ι] in
theorem Kept.others (h : Kept g s) (hk : (g i).rest.isSome) (j : ι) (hj : j ≠ i) :
    (g j).rest = none := by
  cases hrest : (g j).rest with
  | none => rfl
  | some rest => exact absurd (h.alone j i (hrest ▸ rfl) hk) hj

theorem Kept.forget (h : Kept g s) (i : ι) : Kept (Function.update g i {}) s := by
  refine h.learn ?_ ?_ ?_ ?_ ?_ ?_
  · exact fun _ hk => nomatch hk
  · exact fun _ hk => nomatch hk
  · exact fun _ hk => nomatch hk
  · exact fun _ hk => nomatch hk
  · exact fun _ hk => nomatch hk
  · exact fun hk => nomatch hk

/-- What an access comes to: everything is kept, and a file that is all there stays as it
is. -/
def Keeps (g : ι → Knows) (s : Disk) (i : ι) (k : Knows) (s' : Disk) : Prop :=
  Kept (Function.update g i k) s' ∧
    ∀ whole, s.file = some whole → s.intended = some whole → s' = s

theorem keeps_idle (h : Kept g s) : Keeps g s i (g i) s := by
  refine ⟨?_, fun _ _ _ => rfl⟩
  rw [Function.update_eq_self]
  exact h

omit [DecidableEq ι] in
/-- A host that reads to the end of the file has all of it. -/
theorem whole_of_end (h : Kept g s) {got content : Bytes} (hgot : (g i).got = some got)
    (hfile : s.file = some content) (hend : content.length ≤ got.length)
    (hlong : 104 ≤ got.length) : s.file = some got ∧ s.intended = some got := by
  obtain ⟨content', hfile', hprefix⟩ := h.got i got hgot
  obtain rfl : content = content' := Option.some.inj (hfile.symm.trans hfile')
  obtain rfl : got = content := hprefix.eq_of_length (by have := hprefix.length_le; omega)
  obtain ⟨whole, hintended, hprefix', hall⟩ := h.shape got hfile
  rcases hall with rfl | hlength
  · exact ⟨hfile, hintended⟩
  · have heq : got = whole := hprefix'.eq_of_length (by have := hprefix'.length_le; omega)
    exact ⟨hfile, heq ▸ hintended⟩

theorem keeps_read (h : Kept g s) {offset count : Nat} {answer : Option Bytes}
    (hadmits : admits (g i) (.read offset count)) (hperform : perform i s (.read offset count) answer s') :
    Keeps g s i (learn (g i) (.read offset count) answer) s' := by
  obtain ⟨hcount, got, hgot, rfl⟩ := hadmits
  cases answer with
  | none =>
    obtain rfl := hperform
    exact keeps_idle h
  | some chunk =>
    obtain ⟨⟨content, hfile, hprefix, -, hend⟩, rfl⟩ := hperform
    refine ⟨?_, fun _ _ _ => rfl⟩
    show Kept (Function.update g i (if chunk = [] then if 104 ≤ got.length then _ else _ else _)) _
    split_ifs with hchunk hlong
    · refine h.learn (h.got i) (fun whole hwhole => ?_) (h.pair i) (h.made i) (h.rest i) fun hk j hj =>
        h.others hk j hj
      obtain rfl : got = whole := Option.some.inj (hgot.symm.trans hwhole)
      exact whole_of_end h hgot hfile ((hend hchunk).resolve_right hcount.ne') hlong
    · rw [Function.update_eq_self]
      exact h
    · refine h.learn (fun bytes hbytes => ?_) (h.whole i) (h.pair i) (h.made i) (h.rest i)
        fun hk j hj => h.others hk j hj
      have hbytes : (g i).got.map (· ++ chunk) = some bytes := hbytes
      rw [hgot] at hbytes
      obtain rfl := Option.some.inj hbytes
      obtain ⟨content', hfile', ⟨tail, rfl⟩⟩ := h.got i got hgot
      obtain rfl : content = got ++ tail := Option.some.inj (hfile.symm.trans hfile')
      rw [List.drop_left' rfl] at hprefix
      exact ⟨_, hfile, (List.prefix_append_right_inj got).mpr hprefix⟩

/-- The file is made by one host alone. -/
theorem keeps_createNew (h : Kept g s) {whole : Bytes} {answer : Bool}
    (hadmits : whole.length = 104) (hperform : perform i s (.createNew whole) answer s') :
    Keeps g s i (learn (g i) (.createNew whole) answer) s' := by
  cases answer with
  | false =>
    obtain rfl := hperform
    exact keeps_idle h
  | true =>
    obtain ⟨hfile, rfl⟩ := hperform
    refine ⟨?_, fun w hw _ => by rw [hfile] at hw; cases hw⟩
    -- without a file nobody knows anything of one
    have hgot : ∀ j bytes, (g j).got = some bytes → False := by
      intro j bytes hj
      obtain ⟨content, hcontent, -⟩ := h.got j bytes hj
      rw [hfile] at hcontent
      cases hcontent
    have hwhole : ∀ j w, (g j).whole = some w → False := by
      intro j w hj
      have hcontent := (h.whole j w hj).1
      rw [hfile] at hcontent
      cases hcontent
    have hmade : ∀ j w, (g j).made = some w → False := by
      intro j w hj
      have hintended := h.made j w hj
      rw [h.blank hfile] at hintended
      cases hintended
    have hrest : ∀ j r, (g j).rest = some r → False := by
      intro j r hj
      obtain ⟨content, hcontent, -⟩ := h.rest j r hj
      rw [hfile] at hcontent
      cases hcontent
    have hkept : Kept g ⟨some [], some whole⟩ := by
      refine ⟨nofun, fun content hcontent => ?_, fun j b hj => (hgot j b hj).elim,
        fun j w hj => (hwhole j w hj).elim, h.pair, fun j w hj => (hmade j w hj).elim,
        fun j r hj => (hrest j r hj).elim, h.alone⟩
      obtain rfl := Option.some.inj hcontent
      exact ⟨whole, rfl, List.nil_prefix, .inr hadmits⟩
    refine hkept.learn (fun b hb => (hgot i b hb).elim) (fun w hw => (hwhole i w hw).elim) (h.pair i)
      (fun w hw => hw) (fun r hr => ⟨[], rfl, hr⟩) fun _ j _ => ?_
    cases hj : (g j).rest with
    | none => rfl
    | some r => exact (hrest j r hj).elim

omit [DecidableEq ι] in
/-- The file grows towards what was set out to be written. -/
theorem Kept.extend (h : Kept g s) {content bytes tail : Bytes} (hnobody : ∀ j, (g j).rest = none)
    (hfile : s.file = some content) (hintended : s.intended = some (content ++ (bytes ++ tail))) :
    Kept g { s with file := some (content ++ bytes) } := by
  have hdone : ∀ whole, s.file = some whole → s.intended = some whole → bytes = [] := by
    intro whole hfile' hintended'
    obtain rfl : content = whole := Option.some.inj (hfile.symm.trans hfile')
    have hnil := List.self_eq_append_right.mp (Option.some.inj (hintended'.symm.trans hintended))
    exact (List.append_eq_nil_iff.mp hnil).1
  refine ⟨nofun, fun content' hcontent' => ?_, fun j b hj => ?_, fun j w hj => ?_, h.pair, h.made,
    fun j r hj => ?_, h.alone⟩
  · obtain rfl := Option.some.inj hcontent'
    refine ⟨_, hintended, ⟨tail, List.append_assoc ..⟩, ?_⟩
    obtain ⟨whole, hintended', -, hall⟩ := h.shape content hfile
    obtain rfl := Option.some.inj (hintended.symm.trans hintended')
    rcases hall with heq | hlength
    · have hnil := List.self_eq_append_right.mp heq
      obtain ⟨rfl, rfl⟩ := List.append_eq_nil_iff.mp hnil
      exact .inl rfl
    · exact .inr hlength
  · obtain ⟨content', hfile', hprefix⟩ := h.got j b hj
    obtain rfl : content = content' := Option.some.inj (hfile.symm.trans hfile')
    exact ⟨_, rfl, hprefix.trans (List.prefix_append _ _)⟩
  · obtain ⟨hfile', hintended'⟩ := h.whole j w hj
    obtain rfl := hdone w hfile' hintended'
    refine ⟨?_, hintended'⟩
    show some (content ++ []) = some w
    rw [List.append_nil]
    exact hfile.symm.trans hfile'
  · rw [hnobody j] at hj
    cases hj

theorem keeps_write (h : Kept g s) {bytes : Bytes} {answer : Option Nat}
    (hadmits : admits (g i) (.write bytes)) (hperform : perform i s (.write bytes) answer s') :
    Keeps g s i (learn (g i) (.write bytes) answer) s' := by
  cases answer with
  | none =>
    obtain rfl := hperform
    exact keeps_idle h
  | some n =>
    obtain ⟨hn, rfl⟩ := hperform
    obtain ⟨tail, hrest⟩ := hadmits
    obtain ⟨content, hfile, hintended⟩ := h.rest i _ hrest
    -- the file grows by what the disk took of the bytes
    have hgrown : ({ s with file := s.file.map (· ++ bytes.take n) } : Disk) =
        { s with file := some (content ++ bytes.take n) } := by
      rw [hfile]
      rfl
    have hsplit : bytes ++ tail = bytes.take n ++ (bytes.drop n ++ tail) := by
      rw [← List.append_assoc, List.take_append_drop]
    rw [hgrown]
    constructor
    · -- for the moment of the write nobody has anything left to write
      have hfree : Kept (Function.update g i { g i with rest := none }) s :=
        h.learn (h.got i) (h.whole i) (h.pair i) (h.made i) (fun _ hk => nomatch hk)
          fun hk => nomatch hk
      have hnobody : ∀ j, (Function.update g i { g i with rest := none } j).rest = none :=
        forall_update (P := fun k => k.rest = none) rfl fun j hj => h.others (by rw [hrest]; rfl) j hj
      rw [hsplit] at hintended
      have hextend := hfree.extend hnobody hfile hintended
      have hlearn := hextend.learn (i := i) (k := learn (g i) (.write bytes) (some n))
        ?_ ?_ (h.pair i) (h.made i) ?_ fun _ j _ => hnobody j
      · rw [Function.update_idem] at hlearn
        exact hlearn
      · have hgot := hextend.got i
        rw [Function.update_self] at hgot
        exact hgot
      · have hwhole := hextend.whole i
        rw [Function.update_self] at hwhole
        exact hwhole
      · intro rest hk
        have hk : (g i).rest.map _ = some rest := hk
        rw [hrest, Option.map_some, List.drop_left' rfl] at hk
        obtain rfl := Option.some.inj hk
        refine ⟨_, rfl, ?_⟩
        rw [List.append_assoc]
        exact hintended
    -- a file that is whole has nothing left to write
    · intro whole hfile' hintended'
      obtain rfl : content = whole := Option.some.inj (hfile.symm.trans hfile')
      have hnil := List.self_eq_append_right.mp (Option.some.inj (hintended'.symm.trans hintended))
      obtain ⟨rfl, -⟩ := List.append_eq_nil_iff.mp hnil
      rw [List.take_nil, List.append_nil, ← hfile]

/-- Everything is kept by every access that what its host knows admits. -/
theorem keeps (h : Kept g s) {a : Access} {answer : a.Answer} (hadmits : admits (g i) a)
    (hperform : perform i s a answer s') : Keeps g s i (learn (g i) a answer) s' := by
  cases a with
  | openFile =>
    cases answer with
    | file =>
      obtain ⟨hfile, rfl⟩ := hperform
      refine ⟨h.learn (fun bytes hbytes => ?_) (h.whole i) (h.pair i) (h.made i) (h.rest i)
        fun hk j hj => h.others hk j hj, fun _ _ _ => rfl⟩
      obtain ⟨content, hcontent⟩ := Option.isSome_iff_exists.mp hfile
      obtain rfl := Option.some.inj hbytes
      exact ⟨content, hcontent, List.nil_prefix⟩
    | notFound =>
      obtain ⟨-, rfl⟩ := hperform
      exact keeps_idle h
    | failed =>
      obtain rfl := hperform
      exact keeps_idle h
  | read offset count => exact keeps_read h hadmits hperform
  | createDirs =>
    obtain rfl := hperform
    exact keeps_idle h
  | genKeypair =>
    obtain ⟨hpair, rfl⟩ := hperform
    refine ⟨h.learn (h.got i) (h.whole i) (fun pair hk => ?_) (h.made i) (h.rest i)
      fun hk j hj => h.others hk j hj, fun _ _ _ => rfl⟩
    obtain rfl := Option.some.inj hk
    exact hpair
  | createNew whole => exact keeps_createNew h hadmits hperform
  | write bytes => exact keeps_write h hadmits hperform
  | syncAll =>
    obtain rfl := hperform
    exact keeps_idle h

end Kept

/-! ### Runs -/

section Runs

variable {ι : Type} [DecidableEq ι] {c d : Config Access.Answer (Except String KeyPair) Disk ι}
  {l : Label Access.Answer ι} {ls ls' : List (Label Access.Answer ι)}

/-- A configuration that such programs reach. -/
abbrev Reached (c : Config Access.Answer (Except String KeyPair) Disk ι) : Prop :=
  Followed (fun _ => ghost) (fun _ => Justified) Kept c

omit [DecidableEq ι] in
theorem reached_start (file : Option Bytes) : Reached (start ι file) := by
  refine ⟨fun _ => {}, fun _ => trivial, ⟨fun h => h, fun content h => ?_, ?_, ?_, ?_, ?_, ?_, ?_⟩⟩
  · exact ⟨content, h, List.prefix_refl _, .inl rfl⟩
  · exact fun _ _ h => nomatch h
  · exact fun _ _ h => nomatch h
  · exact fun _ _ h => nomatch h
  · exact fun _ _ h => nomatch h
  · exact fun _ _ h => nomatch h
  · exact fun _ _ h => nomatch h

theorem tracked : Tracked (hosts ι) (fun _ _ => True) (fun _ => ghost) (fun _ => Justified) Kept where
  access _ _ _ hkept hadmits hperform := (keeps hkept hadmits hperform).1
  start := by
    rintro g s i result program hkept - rfl
    exact ⟨{}, follows_load {}, hkept.forget i⟩

/-- The file is all there. -/
def Disk.Complete (s : Disk) (whole : Bytes) : Prop := s.file = some whole ∧ s.intended = some whole

theorem complete_step {whole : Bytes} (hc : Reached c) (hstep : Step (hosts ι) c l d)
    (hwhole : c.shared.Complete whole) : Reached d ∧ d.shared.Complete whole := by
  refine ⟨tracked.step hc trivial hstep, ?_⟩
  cases hstep with
  | start => exact hwhole
  | @access i a rest answer s' hi hperform =>
    obtain ⟨g, hfollows, hkept⟩ := hc
    have hprogram := hfollows i
    rw [hi, follows_access] at hprogram
    obtain rfl := (keeps hkept hprogram.1 hperform).2 whole hwhole.1 hwhole.2
    exact hwhole

omit [DecidableEq ι] in
/-- Whoever uses a pair uses that of a file that is all there. -/
theorem complete_of_ok (hc : Reached c) {i : ι} {pair : KeyPair}
    (hi : c.threads i = .ret (.ok pair)) :
    ∃ whole, c.shared.Complete whole ∧ parseIdentity whole = .ok pair := by
  obtain ⟨g, hfollows, hkept⟩ := hc
  have hjustified := hfollows i
  rw [hi, follows_ret] at hjustified
  rcases hjustified with ⟨whole, hwhole, hparse⟩ | ⟨hpair, hmade, hrest⟩
  · exact ⟨whole, hkept.whole i whole hwhole, hparse⟩
  · refine ⟨encode pair, ?_, parseIdentity_encode (hkept.pair i pair hpair)⟩
    obtain ⟨content, hfile, hintended⟩ := hkept.rest i [] hrest
    rw [List.append_nil] at hintended
    have heq : content = encode pair :=
      Option.some.inj (hintended.symm.trans (hkept.made i _ hmade))
    exact ⟨heq ▸ hfile, heq ▸ hintended⟩

/-! ### A host that is started twice -/

theorem length_samplePk : (List.replicate 32 (0 : UInt8)).length = 32 := List.length_replicate

theorem length_sampleSk : (List.replicate 64 (0 : UInt8)).length = 64 := List.length_replicate

def samplePair : KeyPair := ⟨⟨_, length_samplePk⟩, ⟨_, length_sampleSk⟩⟩

variable {p q : Program} {content bytes : Bytes} {intended : Option Bytes} {t : Disk}

/-- All is written at once. -/
theorem alone_writeAll (hbytes : bytes ≠ [])
    (h : Alone (hosts Unit) (fun _ => True) () ⟨some (content ++ bytes), intended⟩ p t q) :
    Alone (hosts Unit) (fun _ => True) () ⟨some content, intended⟩ (writeAll p bytes) t q := by
  have hpos := List.length_pos_iff.mpr hbytes
  have hend : writeAll p (bytes.drop bytes.length) = p := by
    rw [List.drop_length, writeAll, if_pos rfl]
  rw [writeAll, if_neg hbytes]
  refine .access (some bytes.length) ⟨le_rfl, rfl⟩ trivial ?_
  dsimp only
  rw [if_neg hpos.ne', hend, Option.map_some, List.take_length]
  exact h

/-- All is read at once. -/
theorem alone_readExact {k : Bytes → Program} (hbytes : bytes ≠ [])
    (h : Alone (hosts Unit) (fun _ => True) () ⟨some bytes, intended⟩ (k bytes) t q) :
    Alone (hosts Unit) (fun _ => True) () ⟨some bytes, intended⟩ (readExact k bytes.length []) t
      q := by
  have hpos := List.length_pos_iff.mpr hbytes
  rw [readExact, if_neg hpos.ne']
  refine .access (some bytes) ⟨⟨bytes, rfl, List.prefix_refl _, le_rfl, fun hnil =>
    absurd hnil hbytes⟩, rfl⟩ trivial ?_
  dsimp only
  rw [if_neg hbytes, Nat.sub_self, readExact, if_pos rfl, List.nil_append]
  exact h

def written : Disk := ⟨some (encode samplePair), some (encode samplePair)⟩

theorem alone_created : Alone (hosts Unit) (fun _ => True) () ⟨none, none⟩ loadOrCreateIdentity
    written (.ret (.ok samplePair)) := by
  refine .access .notFound ⟨rfl, rfl⟩ trivial <| .access true rfl trivial <|
    .access samplePair ⟨rfl, rfl⟩ trivial <| .access true ⟨rfl, rfl⟩ trivial ?_
  refine alone_writeAll (by decide) <| alone_writeAll (by decide) <| alone_writeAll (by decide) ?_
  exact .access true rfl trivial (.refl _ _)

theorem alone_loaded : Alone (hosts Unit) (fun _ => True) () written loadOrCreateIdentity written
    (.ret (.ok samplePair)) := by
  have hend : Alone (hosts Unit) (fun _ => True) () written (validateIdentity (encode samplePair))
      written (.ret (.ok samplePair)) := by
    refine .access (some []) ⟨⟨_, rfl, List.nil_prefix, Nat.zero_le _, fun _ => .inl le_rfl⟩, rfl⟩
      trivial ?_
    show Alone _ _ _ _ (.ret (parseIdentity (encode samplePair))) _ _
    rw [parseIdentity_encode rfl]
    exact .refl _ _
  have hread := alone_readExact (by decide) hend
  rw [length_encode] at hread
  exact .access .file ⟨rfl, rfl⟩ trivial hread

/-! ### One pair -/

/-- However many hosts are started at once, whatever is in the file at first, and wherever any
of them is stopped: a pair that one of them has begun to use is the pair of the file, the file
is never changed again, and no host ever uses another. -/
theorem identity_unique {file : Option Bytes} {i : ι} {pair : KeyPair}
    (hrun : Run (Step (hosts ι)) (start ι file) ls c) (hi : c.threads i = .ret (.ok pair))
    (hrun' : Run (Step (hosts ι)) c ls' d) :
    (∀ j pair', d.threads j = .ret (.ok pair') → pair' = pair) ∧
      ∃ whole, c.shared.file = some whole ∧ d.shared.file = some whole ∧
        parseIdentity whole = .ok pair := by
  have hc : Reached c := by
    refine tracked.run (hrun.mono fun _ _ _ hstep => ⟨trivial, hstep⟩) (reached_start file)
  obtain ⟨whole, hcomplete, hparse⟩ := complete_of_ok hc hi
  obtain ⟨hd, hcomplete'⟩ := hrun'.invariant (I := fun d => Reached d ∧ d.shared.Complete whole)
    (fun _ _ _ h hstep => complete_step h.1 hstep h.2) ⟨hc, hcomplete⟩
  refine ⟨fun j pair' hj => ?_, whole, hcomplete.1, hcomplete'.1, hparse⟩
  obtain ⟨whole', hwhole', hparse'⟩ := complete_of_ok hd hj
  obtain rfl : whole = whole' := Option.some.inj (hcomplete'.1.symm.trans hwhole'.1)
  exact Except.ok.inj (hparse'.symm.trans hparse)

/-- A host makes the pair, is started again and reads it. -/
theorem identity_unique_again : ∃ ls ls' d,
    Run (Step (hosts Unit)) (start Unit none) ls
      ((start Unit none).set () written (.ret (.ok samplePair))) ∧
    Run (Step (hosts Unit)) ((start Unit none).set () written (.ret (.ok samplePair))) ls' d ∧
    d.threads () = .ret (.ok samplePair) ∧ d.shared.file = some (encode samplePair) := by
  obtain ⟨ls, hrun⟩ := Alone.extend (d := start Unit none) alone_created (.nil _) rfl rfl
  obtain ⟨ls', hrun'⟩ := Alone.extend (d := (start Unit none).set () written (.ret (.ok samplePair)))
    alone_loaded (.nil _) rfl rfl
  have hgot : ((start Unit none).set () written (.ret (.ok samplePair))).threads () =
      .ret (.ok samplePair) := rfl
  obtain ⟨-, whole, hfile, hfile', -⟩ := identity_unique hrun hgot hrun'
  have hwhole : whole = encode samplePair := (Option.some.inj hfile).symm
  exact ⟨ls, ls', _, hrun, hrun', rfl, hwhole ▸ hfile'⟩

end Runs

end IdentityFile

end RdEngine
