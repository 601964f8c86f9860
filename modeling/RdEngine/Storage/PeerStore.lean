/-
RdEngine/Storage/PeerStore.lean

The settings of the peers: `PeerConfig::load` and `store` (`config.rs`) under the calls of
`flutter_state.rs`.

Every call reads the file of a peer and most write it back as a whole, so whatever is not
the business of a call goes through a reading and a writing.  Three options are secrets:
writing makes a box of them and reading opens it, under a key that depends on what the
machine knows at that time.  A box that does not open is read as the text that it is, and
this text is written again as it is (`encrypt_of_seals`); so a setting is not lost by what
is done while its key is missing, and is there again when the key is (`seals_run`,
`peerOption_survives`).  A file that cannot be read counts as one with the default settings,
and what is written over it loses the rest; this is why the reading has to go through.
What is in the files in place of a secret is empty or a box at any time (`secrets_boxed`).
-/
import Mathlib
import RdEngine.Storage.PeerFiles

namespace RdEngine

namespace Storage

namespace PeerStore

open Std

/-! ### The record and its file -/

/-- A map of options; its order is that of the keys. -/
abbrev Options := ExtTreeMap String (List Char)

/-- What the calls use of `PeerConfig`; `hostname` is that of its `info`. -/
structure PeerConfig where
  password : Bytes := []
  options : Options := ∅
  hostname : List Char := []

/-- The options that are written as boxes. -/
def secretOptions : List String := ["rdp_password", "os-username", "os-password"]

def encryptMaxLen : Nat := 128

/-- The nonces of one writing. -/
structure Nonces where
  password : Nonce
  option : String → Nonce

/-- What a call finds: the keys, the defaults of the user, whether the file can be read, and
for the writing that reading may ask for and for its own the nonces and whether it goes
through. -/
structure Env where
  machine : Machine
  userDefault : String → List Char
  readable : Bool
  restored : Bool
  restoreNonces : Nonces
  stored : Bool
  nonces : Nonces

namespace PeerConfig

variable (m : Machine)

def defaultOptions (userDefault : String → List Char) : Options :=
  ["codec-preference", "custom-fps", "zoom-cursor", "i444", "swap-left-right-mouse",
    "collapse_toolbar"].foldl (fun options key => options.insert key (userDefault key)) ∅

/-- `Default::default`. -/
def default (userDefault : String → List Char) : PeerConfig :=
  { options := defaultOptions userDefault }

/-- One secret option is opened in place. -/
def decryptOption (state : PeerConfig × Bool) (opt : String) : PeerConfig × Bool :=
  match state.1.options[opt]? with
  | some v =>
    let (v, _, store) := decryptStrOrOriginal m v version00
    ({ state.1 with options := state.1.options.insert opt v }, state.2 || store)
  | none => state

/-- What is read of a record, and whether it should be written again. -/
def decrypted (config : PeerConfig) : PeerConfig × Bool :=
  let (password, _, store) := decryptVecOrOriginal m config.password version00
  secretOptions.foldl (decryptOption m) ({ config with password }, store)

/-- One secret option is made a box in place. -/
def encryptOption (nonces : Nonces) (config : PeerConfig) (opt : String) : PeerConfig :=
  match config.options[opt]? with
  | some v =>
    let v := encryptStrOrOriginal m (nonces.option opt) v version00 encryptMaxLen
    { config with options := config.options.insert opt v }
  | none => config

/-- What is written of a record. -/
def encrypted (nonces : Nonces) (config : PeerConfig) : PeerConfig :=
  secretOptions.foldl (encryptOption m nonces)
    { config with
      password := encryptVecOrOriginal m nonces.password config.password version00 encryptMaxLen }

end PeerConfig

/-- The files of the peers, by their paths. -/
abbrev Peers := List Char → Option PeerConfig

/-- `store_`: the record is written, if that goes through. -/
def store_ (m : Machine) (nonces : Nonces) (goes : Bool) (file : List Char) (config : PeerConfig)
    (peers : Peers) : Peers :=
  if goes then Function.update peers file (some (config.encrypted m nonces)) else peers

/-- `PeerConfig::load`; secrets that were kept in an old form are stored again. -/
def load (env : Env) (file : List Char) (peers : Peers) : PeerConfig × Peers :=
  match peers file with
  | none => (.default env.userDefault, peers)
  | some config =>
    if env.readable then
      let (config, store) := config.decrypted env.machine
      (config, if store then store_ env.machine env.restoreNonces env.restored file config peers
        else peers)
    else (.default env.userDefault, peers)

def store (env : Env) (file : List Char) (config : PeerConfig) (peers : Peers) : Peers :=
  store_ env.machine env.nonces env.stored file config peers

/-! ### The calls of the frontend -/

section Calls

variable (env : Env) (dir id : List Char) (key : String) (value : List Char) (peers : Peers)

def peerOption : List Char × Peers :=
  let (config, peers) := load env (path dir id) peers
  (config.options[key]?.getD [], peers)

def setPeerOption : Peers :=
  if id = [] ∨ key = "" ∨ 4096 < Text.size value then peers
  else
    let (config, peers) := load env (path dir id) peers
    store env (path dir id) { config with options := config.options.insert key value } peers

/-- `peer_flutter_option`: the same under a prefix. -/
def peerFlutterOption : List Char × Peers :=
  let (config, peers) := load env (path dir id) peers
  (config.options["flutter-" ++ key]?.getD [], peers)

def setPeerFlutterOption : Peers :=
  if id = [] ∨ key = "" ∨ 4096 < Text.size value then peers
  else
    let (config, peers) := load env (path dir id) peers
    store env (path dir id)
      { config with options := config.options.insert ("flutter-" ++ key) value } peers

def forgetPassword : Peers :=
  let (config, peers) := load env (path dir id) peers
  store env (path dir id) { config with password := [] } peers

def peerHasPassword : Bool × Peers :=
  let (config, peers) := load env (path dir id) peers
  (config.password ≠ [], peers)

/-- `peer_exists`: something was stored for the peer. -/
def peerExists : Bool × Peers :=
  let (config, peers) := load env (path dir id) peers
  (!config.options.isEmpty || config.hostname ≠ [], peers)

def setPeerAlias : Peers :=
  if id = [] ∨ 4096 < Text.size value then peers else setPeerOption env dir id "alias" value peers

/-- `PeerConfig::remove`. -/
def remove : Peers :=
  if env.stored then Function.update peers (path dir id) none else peers

def removePeer : Peers :=
  if id = [] ∨ 256 < Text.size id then peers else remove env dir id peers

end Calls

/-- What the frontend calls. -/
inductive Call where
  | peerOption (id : List Char) (key : String)
  | setPeerOption (id : List Char) (key : String) (value : List Char)
  | peerFlutterOption (id : List Char) (key : String)
  | setPeerFlutterOption (id : List Char) (key : String) (value : List Char)
  | forgetPassword (id : List Char)
  | peerHasPassword (id : List Char)
  | peerExists (id : List Char)
  | setPeerAlias (id : List Char) (value : List Char)
  | removePeer (id : List Char)

/-- The files behind a call. -/
def perform (dir : List Char) (env : Env) (peers : Peers) : Call → Peers
  | .peerOption id key => (peerOption env dir id key peers).2
  | .setPeerOption id key value => setPeerOption env dir id key value peers
  | .peerFlutterOption id key => (peerFlutterOption env dir id key peers).2
  | .setPeerFlutterOption id key value => setPeerFlutterOption env dir id key value peers
  | .forgetPassword id => forgetPassword env dir id peers
  | .peerHasPassword id => (peerHasPassword env dir id peers).2
  | .peerExists id => (peerExists env dir id peers).2
  | .setPeerAlias id value => setPeerAlias env dir id value peers
  | .removePeer id => removePeer env dir id peers

/-- Calls one after the other, each with what it finds. -/
def run (dir : List Char) (peers : Peers) (calls : List (Env × Call)) : Peers :=
  calls.foldl (fun peers (env, call) => perform dir env peers call) peers

/-! ### One option through a reading and a writing -/

section Options

variable {m : Machine} {nonces : Nonces} {k : String}

theorem getElem?_insert (options : Options) (k : String) (v : List Char) (k' : String) :
    (options.insert k v)[k']? = if k' = k then some v else options[k']? := by
  have hiff : compare k k' = .eq ↔ k' = k := LawfulEqCmp.compare_eq_iff_eq.trans eq_comm
  rw [ExtTreeMap.getElem?_insert]
  simp only [hiff]

/-- Options that are changed in place, one after the other. -/
theorem options_foldl {σ : Type} (optionsOf : σ → Options) (change : σ → String → σ)
    (f : String → List Char → List Char)
    (hchange : ∀ s opt k, (optionsOf (change s opt))[k]? =
      if k = opt then (optionsOf s)[k]?.map (f k) else (optionsOf s)[k]?)
    {opts : List String} (hopts : opts.Nodup) (s : σ) (k : String) :
    (optionsOf (opts.foldl change s))[k]? =
      if k ∈ opts then (optionsOf s)[k]?.map (f k) else (optionsOf s)[k]? := by
  induction opts generalizing s with
  | nil => rfl
  | cons opt opts ih =>
    obtain ⟨hnot, hnodup⟩ := List.nodup_cons.mp hopts
    rw [List.foldl_cons, ih hnodup, hchange]
    by_cases hk : k = opt
    · subst hk
      rw [if_neg hnot, if_pos rfl, if_pos List.mem_cons_self]
    · rw [if_neg hk]
      simp only [List.mem_cons, hk, false_or]

theorem options_decryptOption (state : PeerConfig × Bool) (opt : String) :
    (PeerConfig.decryptOption m state opt).1.options[k]? =
      if k = opt then state.1.options[k]?.map fun v => (decryptStrOrOriginal m v version00).1
      else state.1.options[k]? := by
  unfold PeerConfig.decryptOption
  by_cases hk : k = opt
  · subst hk
    rw [if_pos rfl]
    rcases hv : state.1.options[k]? with - | v
    · exact hv
    · show (state.1.options.insert k _)[k]? = _
      rw [getElem?_insert, if_pos rfl, Option.map_some]
  · rw [if_neg hk]
    rcases hv : state.1.options[opt]? with - | v
    · rfl
    · show (state.1.options.insert opt _)[k]? = _
      rw [getElem?_insert, if_neg hk]

theorem secretOptions_nodup : secretOptions.Nodup := by decide

/-- Reading opens the secrets and leaves the other options. -/
theorem options_decrypted (config : PeerConfig) :
    (config.decrypted m).1.options[k]? =
      if k ∈ secretOptions then config.options[k]?.map fun v => (decryptStrOrOriginal m v version00).1
      else config.options[k]? :=
  options_foldl (fun state => state.1.options) _ (fun _ v => (decryptStrOrOriginal m v version00).1)
    (fun state opt _ => options_decryptOption state opt) secretOptions_nodup _ k

theorem options_encryptOption (config : PeerConfig) (opt : String) :
    (PeerConfig.encryptOption m nonces config opt).options[k]? =
      if k = opt then config.options[k]?.map fun v =>
        encryptStrOrOriginal m (nonces.option k) v version00 encryptMaxLen
      else config.options[k]? := by
  unfold PeerConfig.encryptOption
  by_cases hk : k = opt
  · subst hk
    rw [if_pos rfl]
    rcases hv : config.options[k]? with - | v
    · exact hv
    · show (config.options.insert k _)[k]? = _
      rw [getElem?_insert, if_pos rfl, Option.map_some]
  · rw [if_neg hk]
    rcases hv : config.options[opt]? with - | v
    · rfl
    · show (config.options.insert opt _)[k]? = _
      rw [getElem?_insert, if_neg hk]

/-- Writing makes boxes of the secrets and leaves the other options. -/
theorem options_encrypted (config : PeerConfig) :
    (config.encrypted m nonces).options[k]? =
      if k ∈ secretOptions then config.options[k]?.map fun v =>
        encryptStrOrOriginal m (nonces.option k) v version00 encryptMaxLen
      else config.options[k]? :=
  options_foldl PeerConfig.options _
    (fun k v => encryptStrOrOriginal m (nonces.option k) v version00 encryptMaxLen)
    (fun config opt _ => options_encryptOption config opt) secretOptions_nodup _ k

end Options

/-! ### What is written of a value -/

/-- What the calls find of one device: its boxes, the identifier and the key pair as they
are at that time. -/
def Env.Of (env : Env) (d : Device) (uidKnown pairThere : Bool) : Prop :=
  env.machine = d.machine uidKnown pairThere

/-- A text that stands for a value: both are empty, or it is a box of the value under one of
the device's keys. -/
inductive Seals (d : Device) : List Char → List Char → Prop
  | nil : Seals d [] []
  | box {key : Key} (hkey : key = keyOf d.uid ∨ key = keyOf d.pk) (nonce : Nonce) {v : List Char}
      (hne : v ≠ []) (hplain : isEncrypted (Text.asBytes v) = false) (hlen : v.length ≤ encryptMaxLen) :
      Seals d v (boxed d.box key nonce v)

section Seals

variable {d : Device} {uidKnown pairThere : Bool} {nonce : Nonce} {v text : List Char}

theorem keyOf_machine (d : Device) (uidKnown pairThere : Bool) :
    keyOf (d.machine uidKnown pairThere).uuid = keyOf d.uid ∨
      keyOf (d.machine uidKnown pairThere).uuid = keyOf d.pk := by
  cases uidKnown with
  | false => exact .inr rfl
  | true => exact .inl rfl

/-- What is kept of a secret. -/
def keptSecret (v : List Char) : List Char := if encryptMaxLen < v.length then [] else v

/-- A value that is written stands for what is kept of it. -/
theorem seals_encrypt (hplain : isEncrypted (Text.asBytes v) = false) (nonce : Nonce) :
    Seals d (keptSecret v)
      (encryptStrOrOriginal (d.machine uidKnown pairThere) nonce v version00 encryptMaxLen) := by
  by_cases hlen : encryptMaxLen < v.length
  · have hempty : encryptStrOrOriginal (d.machine uidKnown pairThere) nonce v version00
        encryptMaxLen = [] := by
      unfold encryptStrOrOriginal
      rw [hplain, if_neg Bool.false_ne_true, if_pos hlen]
    rw [keptSecret, if_pos hlen, hempty]
    exact .nil
  · rw [keptSecret, if_neg hlen]
    by_cases hnil : v = []
    · rw [hnil, encryptStr_nil]
      exact .nil
    · rw [encryptStr_eq_boxed hnil hplain (Nat.not_lt.mp hlen)]
      exact .box (keyOf_machine d uidKnown pairThere) nonce hnil hplain (Nat.not_lt.mp hlen)

/-- A text that stands for a value is written as it is. -/
theorem encrypt_of_seals (hd : d.Sound) (h : Seals d v text) (m : Machine) (nonce : Nonce) :
    encryptStrOrOriginal m nonce text version00 encryptMaxLen = text := by
  cases h with
  | nil => exact encryptStr_nil m nonce version00 encryptMaxLen
  | box hkey nonce' hne hplain hlen =>
    unfold encryptStrOrOriginal
    rw [isEncrypted_boxed hd.ideal, if_pos rfl]

/-- A box of the device opens to what is in it or does not open. -/
theorem symmetricDecrypt_own (hd : d.Sound) {key : Key} (hkey : key = keyOf d.uid ∨ key = keyOf d.pk)
    (uidKnown pairThere : Bool) (nonce : Nonce) (data : Bytes) :
    symmetricDecrypt (d.machine uidKnown pairThere) (payload d.box key nonce data) = some data ∨
      ((uidKnown = false ∨ pairThere = false) ∧
        symmetricDecrypt (d.machine uidKnown pairThere) (payload d.box key nonce data) = none) := by
  by_cases heq : keyOf d.uid = keyOf d.pk
  · -- With one key for both there is nothing to lose.
    obtain rfl : key = keyOf d.pk := hkey.elim (fun h => h.trans heq) id
    cases uidKnown with
    | false => exact .inl (Device.symmetricDecrypt_pk hd (.inl rfl) nonce data)
    | true =>
      rw [← heq]
      exact .inl (Device.symmetricDecrypt_uid hd pairThere nonce data)
  · rcases hkey with rfl | rfl
    · cases uidKnown with
      | true => exact .inl (Device.symmetricDecrypt_uid hd pairThere nonce data)
      | false => exact .inr ⟨.inl rfl, Device.symmetricDecrypt_uid_lost hd heq pairThere nonce data⟩
    · cases pairThere with
      | true => exact .inl (Device.symmetricDecrypt_pk hd (.inr rfl) nonce data)
      | false =>
        cases uidKnown with
        | false => exact .inl (Device.symmetricDecrypt_pk hd (.inl rfl) nonce data)
        | true => exact .inr ⟨.inr rfl, Device.symmetricDecrypt_pk_lost hd heq nonce data⟩

/-- A text that stands for a value is read as the value, or as it is while a key is missing; it
is not to be written again either way. -/
theorem decrypt_of_seals (hd : d.Sound) (h : Seals d v text) (uidKnown pairThere : Bool) :
    (decryptStrOrOriginal (d.machine uidKnown pairThere) text version00).2.2 = false ∧
      ((decryptStrOrOriginal (d.machine uidKnown pairThere) text version00).1 = v ∨
        ((uidKnown = false ∨ pairThere = false) ∧ isEncrypted (Text.asBytes text) = true ∧
          (decryptStrOrOriginal (d.machine uidKnown pairThere) text version00).1 = text)) := by
  cases h with
  | nil =>
    rw [decryptStr_of_unversioned (by decide)]
    exact ⟨rfl, .inl rfl⟩
  | box hkey nonce hne hplain hlen =>
    rw [decryptStr_boxed hd.ideal]
    rcases symmetricDecrypt_own hd hkey uidKnown pairThere nonce (Text.asBytes v) with hopen | ⟨hlost, hnone⟩
    · rw [hopen]
      exact ⟨show decide (version00 ≠ version00) = false by decide,
        .inl (Text.fromUtf8Lossy_asBytes v)⟩
    · rw [hnone]
      exact ⟨rfl, .inr ⟨hlost, isEncrypted_boxed hd.ideal, rfl⟩⟩

/-- What stands for a value still does behind a reading and a writing, whatever the keys are
at the time of either. -/
theorem seals_reencrypt (hd : d.Sound) (h : Seals d v text) (uidKnown pairThere uidKnown' pairThere' : Bool)
    (nonce : Nonce) :
    Seals d v (encryptStrOrOriginal (d.machine uidKnown' pairThere') nonce
      (decryptStrOrOriginal (d.machine uidKnown pairThere) text version00).1 version00 encryptMaxLen) := by
  rcases (decrypt_of_seals hd h uidKnown pairThere).2 with hread | ⟨-, -, hread⟩
  · rw [hread]
    cases h with
    | nil =>
      rw [encryptStr_nil]
      exact .nil
    | box hkey nonce' hne hplain hlen =>
      have hseals := @seals_encrypt d uidKnown' pairThere' _ hplain nonce
      rwa [keptSecret, if_neg (Nat.not_lt.mpr hlen)] at hseals
  · rw [hread, encrypt_of_seals hd h]
    exact h

end Seals

/-! ### A setting in its file -/

/-- What is kept of the value of an option. -/
def kept (k : String) (v : List Char) : List Char := if k ∈ secretOptions then keptSecret v else v

/-- What is written where the option has the value. -/
def Stands (d : Device) (k : String) (v text : List Char) : Prop :=
  if k ∈ secretOptions then Seals d v text else text = v

/-- What is read of a text that is written for an option. -/
def readAs (m : Machine) (k : String) (text : List Char) : List Char :=
  if k ∈ secretOptions then (decryptStrOrOriginal m text version00).1 else text

/-- The file has the option, and it stands for the value. -/
def Holds (d : Device) (peers : Peers) (file : List Char) (k : String) (v : List Char) : Prop :=
  ∃ config text, peers file = some config ∧ config.options[k]? = some text ∧ Stands d k v text

section Holds

variable {d : Device} {uidKnown pairThere : Bool} {env : Env} {peers : Peers}
  {file file' : List Char} {k : String} {v text : List Char} {config : PeerConfig} {m : Machine}

theorem options_decrypted_of (h : config.options[k]? = some text) :
    (config.decrypted m).1.options[k]? = some (readAs m k text) := by
  rw [options_decrypted, h, readAs]
  split_ifs
  · rfl
  · rfl

/-- A record whose option was read from what stands for the value stands for it again when it
is written. -/
theorem stands_encrypted (hd : d.Sound) (hstands : Stands d k v text) (hof : env.Of d uidKnown pairThere)
    (h : config.options[k]? = some (readAs env.machine k text)) (nonces : Nonces) :
    ∃ text', (config.encrypted env.machine nonces).options[k]? = some text' ∧ Stands d k v text' := by
  rw [options_encrypted, h]
  unfold Stands readAs at *
  split_ifs at hstands with hsecret
  · refine ⟨_, by rw [if_pos hsecret]; rfl, ?_⟩
    rw [if_pos hsecret, if_pos hsecret, hof]
    exact seals_reencrypt hd hstands uidKnown pairThere uidKnown pairThere _
  · refine ⟨_, by rw [if_neg hsecret], ?_⟩
    rw [if_neg hsecret, if_neg hsecret]
    exact hstands

theorem holds_store_ (hd : d.Sound) (hof : env.Of d uidKnown pairThere) (h : Holds d peers file k v)
    (hconfig : file' = file → ∃ text, config.options[k]? = some (readAs env.machine k text) ∧
      Stands d k v text) (nonces : Nonces) (goes : Bool) :
    Holds d (store_ env.machine nonces goes file' config peers) file k v := by
  unfold store_
  split_ifs
  · by_cases hfile : file' = file
    · obtain ⟨text, hread, hstands⟩ := hconfig hfile
      obtain ⟨text', hwritten, hstands'⟩ := stands_encrypted hd hstands hof hread nonces
      exact ⟨_, text', by rw [hfile, Function.update_self], hwritten, hstands'⟩
    · obtain ⟨config', text, hpeers, hread, hstands⟩ := h
      exact ⟨config', text, by rw [Function.update_of_ne (Ne.symm hfile), hpeers], hread, hstands⟩
  · exact h

/-- Reading keeps what stands for the value, and reads it of that file. -/
theorem holds_load (hd : d.Sound) (hof : env.Of d uidKnown pairThere) (hreadable : env.readable = true)
    (h : Holds d peers file k v) (file' : List Char) :
    Holds d (load env file' peers).2 file k v ∧
      (file' = file → ∃ text, (load env file' peers).1.options[k]? = some (readAs env.machine k text) ∧
        Stands d k v text) := by
  have hconfig : ∀ config', peers file' = some config' → file' = file →
      ∃ text, (config'.decrypted env.machine).1.options[k]? = some (readAs env.machine k text) ∧
        Stands d k v text := by
    rintro config' hpeers' rfl
    obtain ⟨config, text, hpeers, hread, hstands⟩ := h
    obtain rfl : config' = config := Option.some.inj (hpeers'.symm.trans hpeers)
    exact ⟨text, options_decrypted_of hread, hstands⟩
  unfold load
  rcases hpeers' : peers file' with - | config'
  · refine ⟨h, fun hfile => ?_⟩
    obtain ⟨config, text, hpeers, -⟩ := h
    rw [hfile, hpeers] at hpeers'
    cases hpeers'
  · dsimp only
    rw [if_pos hreadable]
    refine ⟨?_, hconfig config' hpeers'⟩
    dsimp only
    split_ifs
    · exact holds_store_ hd hof h (hconfig config' hpeers') _ _
    · exact h

/-- A reading with a writing behind it, in which the option is left alone. -/
theorem holds_change (hd : d.Sound) (hof : env.Of d uidKnown pairThere) (hreadable : env.readable = true)
    (h : Holds d peers file k v) (change : PeerConfig → PeerConfig)
    (hchange : file' = file → ∀ config, (change config).options[k]? = config.options[k]?) :
    Holds d (store env file' (change (load env file' peers).1) (load env file' peers).2) file k v := by
  obtain ⟨hload, hconfig⟩ := holds_load hd hof hreadable h file'
  refine holds_store_ hd hof hload (fun hfile => ?_) _ _
  obtain ⟨text, hread, hstands⟩ := hconfig hfile
  exact ⟨text, (hchange hfile _).trans hread, hstands⟩

end Holds

/-- The calls whose business an option of a file is. -/
def Touches (dir file : List Char) (k : String) : Call → Prop
  | .setPeerOption id key _ => path dir id = file ∧ key = k
  | .setPeerFlutterOption id key _ => path dir id = file ∧ "flutter-" ++ key = k
  | .setPeerAlias id _ => path dir id = file ∧ "alias" = k
  | .removePeer id => path dir id = file
  | .peerOption .. | .peerFlutterOption .. | .forgetPassword _ | .peerHasPassword _
  | .peerExists _ => False

section Run

variable {d : Device} {uidKnown pairThere : Bool} {env : Env} {peers : Peers}
  {dir file : List Char} {k : String} {v : List Char}

theorem holds_setPeerOption (hd : d.Sound) (hof : env.Of d uidKnown pairThere)
    (hreadable : env.readable = true) (h : Holds d peers file k v) {id : List Char} {key : String}
    (value : List Char) (htouches : ¬ (path dir id = file ∧ key = k)) :
    Holds d (setPeerOption env dir id key value peers) file k v := by
  unfold setPeerOption
  split_ifs
  · exact h
  · refine holds_change hd hof hreadable h
      (fun config => { config with options := config.options.insert key value })
      fun hfile config => ?_
    show (config.options.insert key value)[k]? = _
    rw [getElem?_insert, if_neg fun hkey => htouches ⟨hfile, hkey.symm⟩]

/-- A call keeps every setting that is not its business. -/
theorem holds_perform (hd : d.Sound) (hof : env.Of d uidKnown pairThere)
    (hreadable : env.readable = true) (h : Holds d peers file k v) {call : Call}
    (htouches : ¬ Touches dir file k call) : Holds d (perform dir env peers call) file k v := by
  -- a call that does not touch the entry leaves its file or writes it back with the entry
  cases call with
  | peerOption id key => exact (holds_load hd hof hreadable h _).1
  | setPeerOption id key value => exact holds_setPeerOption hd hof hreadable h value htouches
  | peerFlutterOption id key => exact (holds_load hd hof hreadable h _).1
  | setPeerFlutterOption id key value =>
    show Holds d (setPeerFlutterOption env dir id key value peers) file k v
    unfold setPeerFlutterOption
    split_ifs
    · exact h
    · refine holds_change hd hof hreadable h
        (fun config => { config with options := config.options.insert ("flutter-" ++ key) value })
        fun hfile config => ?_
      show (config.options.insert ("flutter-" ++ key) value)[k]? = _
      rw [getElem?_insert, if_neg fun hkey => htouches ⟨hfile, hkey.symm⟩]
  | forgetPassword id =>
    exact holds_change hd hof hreadable h (fun config => { config with password := [] })
      fun _ _ => rfl
  | peerHasPassword id => exact (holds_load hd hof hreadable h _).1
  | peerExists id => exact (holds_load hd hof hreadable h _).1
  | setPeerAlias id value =>
    show Holds d (setPeerAlias env dir id value peers) file k v
    unfold setPeerAlias
    split_ifs
    · exact h
    · exact holds_setPeerOption hd hof hreadable h value htouches
  | removePeer id =>
    show Holds d (removePeer env dir id peers) file k v
    unfold removePeer remove
    split_ifs
    · exact h
    · obtain ⟨config, text, hpeers, hread, hstands⟩ := h
      exact ⟨config, text, by rw [Function.update_of_ne (Ne.symm htouches), hpeers], hread, hstands⟩
    · exact h

/-- What a call of a run finds: the keys of the device as they are then, and a file that can
be read; and the setting is not its business. -/
def Leaves (d : Device) (dir file : List Char) (k : String) (x : Env × Call) : Prop :=
  (∃ uidKnown pairThere, x.1.Of d uidKnown pairThere) ∧ x.1.readable = true ∧
    ¬ Touches dir file k x.2

/-- So does a run of them. -/
theorem holds_run (hd : d.Sound) (h : Holds d peers file k v) {calls : List (Env × Call)}
    (hcalls : ∀ x ∈ calls, Leaves d dir file k x) : Holds d (run dir peers calls) file k v := by
  induction calls generalizing peers with
  | nil => exact h
  | cons x calls ih =>
    obtain ⟨⟨uidKnown, pairThere, hof⟩, hreadable, htouches⟩ := hcalls x List.mem_cons_self
    exact ih (holds_perform hd hof hreadable h htouches)
      fun y hy => hcalls y (List.mem_cons_of_mem _ hy)

/-- Setting an option leaves a file that has it. -/
theorem holds_of_setPeerOption (hof : env.Of d uidKnown pairThere)
    (hstored : env.stored = true) {id : List Char} {key : String} {value : List Char} (hid : id ≠ [])
    (hkey : key ≠ "") (hsize : Text.size value ≤ 4096)
    (hplain : key ∈ secretOptions → isEncrypted (Text.asBytes value) = false) :
    Holds d (setPeerOption env dir id key value peers) (path dir id) key (kept key value) := by
  unfold setPeerOption
  rw [if_neg (not_or.mpr ⟨hid, not_or.mpr ⟨hkey, Nat.not_lt.mpr hsize⟩⟩)]
  dsimp only [store, store_]
  rw [if_pos hstored]
  refine ⟨_, (if key ∈ secretOptions then
    encryptStrOrOriginal env.machine (env.nonces.option key) value version00 encryptMaxLen else value),
    Function.update_self .., ?_, ?_⟩
  · rw [options_encrypted, getElem?_insert, if_pos rfl]
    split_ifs
    · rfl
    · rfl
  · unfold Stands kept
    split_ifs with hsecret
    · rw [hof]
      exact seals_encrypt (hplain hsecret) _
    · rfl

/-- An option that was set is read back, whatever else was set, read or forgotten in between,
for this peer or another and with whatever keys the machine had: it is the value as it is
kept, and only a secret whose key is missing is read as the box that it is. -/
theorem peerOption_survives (hd : d.Sound) (hof : env.Of d uidKnown pairThere)
    (hstored : env.stored = true) {id : List Char} {key : String} {value : List Char} (hid : id ≠ [])
    (hkey : key ≠ "") (hsize : Text.size value ≤ 4096)
    (hplain : key ∈ secretOptions → isEncrypted (Text.asBytes value) = false)
    {calls : List (Env × Call)} (hcalls : ∀ x ∈ calls, Leaves d dir (path dir id) key x)
    {env' : Env} {uidKnown' pairThere' : Bool} (hof' : env'.Of d uidKnown' pairThere')
    (hreadable' : env'.readable = true) {id' : List Char} (hid' : path dir id' = path dir id) :
    (peerOption env' dir id' key (run dir (setPeerOption env dir id key value peers) calls)).1 =
        kept key value ∨
      key ∈ secretOptions ∧ (uidKnown' = false ∨ pairThere' = false) ∧
        isEncrypted (Text.asBytes (peerOption env' dir id' key
          (run dir (setPeerOption env dir id key value peers) calls)).1) = true := by
  have hset : Holds d (setPeerOption env dir id key value peers) (path dir id) key (kept key value) :=
    holds_of_setPeerOption hof hstored hid hkey hsize hplain
  obtain ⟨text, hread, hstands⟩ :=
    (holds_load hd hof' hreadable' (holds_run hd hset hcalls) (path dir id')).2 hid'
  unfold peerOption
  dsimp only
  rw [hread, Option.getD_some]
  unfold Stands at hstands
  unfold readAs
  split_ifs at hstands ⊢ with hsecret
  · rw [hof']
    rcases (decrypt_of_seals hd hstands uidKnown' pairThere').2 with hvalue | ⟨hlost, hbox, htext⟩
    · exact .inl hvalue
    · rw [htext]
      exact .inr ⟨hsecret, hlost, hbox⟩
  · exact .inl hstands

end Run

/-! ### A password that is set while another is forgotten -/

/-- A device with one key for everything. -/
def sampleDevice : Device := ⟨SecretBox.padding, [], []⟩

theorem sampleDevice_sound : sampleDevice.Sound := ⟨SecretBox.padding_ideal, .inl rfl⟩

def sampleNonces : Nonces := ⟨zeroNonce, fun _ => zeroNonce⟩

/-- A machine for runs, whose files can be read and written. -/
def sampleEnv (uidKnown : Bool) : Env where
  machine := sampleDevice.machine uidKnown true
  userDefault _ := []
  readable := true
  restored := true
  restoreNonces := sampleNonces
  stored := true
  nonces := sampleNonces

/-- The file of a peer whose password was set. -/
def sampleSet : Peers := setPeerOption (sampleEnv true) [] ['1'] "os-password" ['a'] fun _ => none

/-- What is read of it behind the loss of another. -/
def sampleAnswer : List Char :=
  (peerOption (sampleEnv true) [] ['1'] "os-password"
    (run [] sampleSet [(sampleEnv false, .forgetPassword ['1'])])).1

/-- The password is set, the identifier of the machine is lost and another password is
forgotten; with the identifier the password is there again. -/
theorem peerOption_survives_forgetting : sampleAnswer = ['a'] := by
  have hof : (sampleEnv true).Of sampleDevice true true := rfl
  have hplain : "os-password" ∈ secretOptions → isEncrypted (Text.asBytes ['a']) = false :=
    fun _ => by decide
  have hcalls : ∀ x ∈ [(sampleEnv false, Call.forgetPassword ['1'])],
      Leaves sampleDevice [] (path [] ['1']) "os-password" x := by
    intro x hx
    rw [List.mem_singleton.mp hx]
    exact ⟨⟨false, true, rfl⟩, rfl, id⟩
  have hanswer : sampleAnswer = kept "os-password" ['a'] ∨ "os-password" ∈ secretOptions ∧
      (true = false ∨ true = false) ∧ isEncrypted (Text.asBytes sampleAnswer) = true :=
    peerOption_survives sampleDevice_sound hof rfl (List.cons_ne_nil _ _) (by decide) (by decide)
      hplain hcalls hof rfl rfl
  rcases hanswer with h | ⟨-, h, -⟩
  · exact h
  · exact absurd h (by decide)

/-! ### What is in the files in place of a secret -/

/-- A text that shows no secret. -/
def Closed (text : List Char) : Prop := text = [] ∨ isEncrypted (Text.asBytes text) = true

/-- The secrets of a record are empty or boxes. -/
def PeerConfig.Boxed (config : PeerConfig) : Prop :=
  ∀ k ∈ secretOptions, ∀ text, config.options[k]? = some text → Closed text

/-- So are those of a file. -/
def BoxedAt (file : List Char) (peers : Peers) : Prop :=
  ∀ config, peers file = some config → config.Boxed

section Boxed

variable {m : Machine} {env : Env} {peers : Peers} {dir file : List Char} {text : List Char}

theorem closed_encrypt (hm : m.box.Ideal) (nonce : Nonce) (v : List Char) :
    Closed (encryptStrOrOriginal m nonce v version00 encryptMaxLen) := by
  cases hplain : isEncrypted (Text.asBytes v) with
  | true =>
    refine .inr ?_
    unfold encryptStrOrOriginal
    rw [hplain, if_pos rfl, hplain]
  | false =>
    by_cases hlen : encryptMaxLen < v.length
    · refine .inl ?_
      unfold encryptStrOrOriginal
      rw [hplain, if_neg Bool.false_ne_true, if_pos hlen]
    · by_cases hnil : v = []
      · rw [hnil, encryptStr_nil]
        exact .inl rfl
      · rw [encryptStr_eq_boxed hnil hplain (Nat.not_lt.mp hlen)]
        exact .inr (isEncrypted_boxed hm)

theorem boxed_encrypted (hm : m.box.Ideal) (nonces : Nonces) (config : PeerConfig) :
    (config.encrypted m nonces).Boxed := by
  intro k hk text h
  rw [options_encrypted, if_pos hk] at h
  obtain ⟨v, -, rfl⟩ := Option.map_eq_some_iff.mp h
  exact closed_encrypt hm _ v

/-- What opens is as long as the tag of a box. -/
theorem macBytes_le_of_opened {box : SecretBox} (hbox : box.Ideal) {data bytes : Bytes} {key : Key}
    (h : openSecretboxPayload box bytes key = some data) : macBytes ≤ bytes.length := by
  unfold openSecretboxPayload at h
  rcases Option.or_eq_some_iff.mp h with h | ⟨-, h⟩
  · split_ifs at h with hcurrent
    omega
  · have hsealed := congrArg List.length (hbox.opened_eq_some.mp h)
    rw [hbox.length_sealed] at hsealed
    omega

/-- Only what shows no secret is not to be written again. -/
theorem closed_of_flag (hm : m.box.Ideal) (h : (decryptStrOrOriginal m text version00).2.2 = false) :
    Closed text := by
  unfold decryptStrOrOriginal at h
  dsimp only at h
  split at h
  · next v hv =>
    split_ifs at hv with hversion
    obtain ⟨hsize, rest, rfl⟩ := hversion
    refine .inr ?_
    unfold decrypt at hv
    split_ifs at hv with hne
    obtain ⟨bytes, hdecode, hopen⟩ := Option.bind_eq_some_iff.mp hv
    have hlen : macBytes ≤ bytes.length := by
      unfold symmetricDecrypt at hopen
      split at hopen
      · next hopened => exact macBytes_le_of_opened hm hopened
      · split_ifs at hopen
        exact macBytes_le_of_opened hm hopen
      · cases hopen
    rw [List.drop_left' (show version00.length = 2 from rfl)] at hdecode
    unfold isEncrypted
    rw [Text.asBytes_append, if_neg, List.drop_left' length_version00, hdecode]
    · exact decide_eq_true hlen
    · rw [not_or, not_not]
      refine ⟨?_, List.prefix_append _ _⟩
      rw [← Text.asBytes_append, Text.length_asBytes]
      omega
  · have hnot := of_decide_eq_false h
    by_cases hnil : text = []
    · exact .inl hnil
    · refine .inr ?_
      by_contra hplain
      exact hnot ⟨hnil, hplain⟩

theorem flag_foldl {opts : List String} (hopts : opts.Nodup) {state : PeerConfig × Bool}
    (h : (opts.foldl (PeerConfig.decryptOption m) state).2 = false) :
    state.2 = false ∧ ∀ opt ∈ opts, ∀ text, state.1.options[opt]? = some text →
      (decryptStrOrOriginal m text version00).2.2 = false := by
  induction opts generalizing state with
  | nil => exact ⟨h, fun _ hopt => absurd hopt List.not_mem_nil⟩
  | cons opt opts ih =>
    obtain ⟨hnot, hnodup⟩ := List.nodup_cons.mp hopts
    obtain ⟨hflag, hrest⟩ := ih hnodup h
    have hone : state.2 = false ∧ ∀ text, state.1.options[opt]? = some text →
        (decryptStrOrOriginal m text version00).2.2 = false := by
      unfold PeerConfig.decryptOption at hflag
      rcases hv : state.1.options[opt]? with - | v
      · rw [hv] at hflag
        exact ⟨hflag, fun _ htext => nomatch htext⟩
      · rw [hv] at hflag
        obtain ⟨hstate, hstore⟩ := Bool.or_eq_false_iff.mp hflag
        exact ⟨hstate, fun text htext => (Option.some.inj htext) ▸ hstore⟩
    refine ⟨hone.1, fun opt' hopt' text htext => ?_⟩
    rcases List.mem_cons.mp hopt' with rfl | hopt'
    · exact hone.2 text htext
    · refine hrest opt' hopt' text ?_
      have hne : opt' ≠ opt := fun heq => hnot (heq ▸ hopt')
      rw [options_decryptOption, if_neg hne, htext]

theorem boxedAt_store_ (hm : m.box.Ideal) (h : BoxedAt file peers) (nonces : Nonces) (goes : Bool)
    (file' : List Char) (config : PeerConfig) :
    BoxedAt file (store_ m nonces goes file' config peers) := by
  intro config' hconfig'
  unfold store_ at hconfig'
  split_ifs at hconfig'
  · by_cases hfile : file = file'
    · rw [hfile, Function.update_self] at hconfig'
      exact (Option.some.inj hconfig') ▸ boxed_encrypted hm nonces config
    · rw [Function.update_of_ne hfile] at hconfig'
      exact h config' hconfig'
  · exact h config' hconfig'

theorem boxedAt_load (hm : env.machine.box.Ideal) (h : BoxedAt file peers) (file' : List Char) :
    BoxedAt file (load env file' peers).2 := by
  unfold load
  split
  · exact h
  · split_ifs
    · dsimp only
      split_ifs
      · exact boxedAt_store_ hm h _ _ _ _
      · exact h
    · exact h

/-- A file that is read is written again if it shows a secret. -/
theorem boxedAt_of_load (hm : env.machine.box.Ideal) (hreadable : env.readable = true)
    (hrestored : env.restored = true) (file : List Char) (peers : Peers) :
    BoxedAt file (load env file peers).2 := by
  unfold load
  rcases hpeers : peers file with - | config
  · intro config' hconfig'
    exact absurd (hpeers.symm.trans hconfig') (fun h => nomatch h)
  · dsimp only
    rw [if_pos hreadable]
    dsimp only
    split_ifs with hflag
    · intro config' hconfig'
      unfold store_ at hconfig'
      rw [if_pos hrestored, Function.update_self] at hconfig'
      exact (Option.some.inj hconfig') ▸ boxed_encrypted hm _ _
    · intro config' hconfig'
      obtain rfl : config = config' := Option.some.inj (hpeers.symm.trans hconfig')
      intro k hk text htext
      have hflags := (flag_foldl secretOptions_nodup (Bool.eq_false_iff.mpr hflag)).2 k hk text htext
      exact closed_of_flag hm hflags

theorem boxedAt_setPeerOption (hm : env.machine.box.Ideal) (h : BoxedAt file peers)
    (id : List Char) (key : String) (value : List Char) :
    BoxedAt file (setPeerOption env dir id key value peers) := by
  unfold setPeerOption
  split_ifs
  · exact h
  · exact boxedAt_store_ hm (boxedAt_load hm h _) _ _ _ _

/-- No call shows a secret in a file that shows none. -/
theorem boxedAt_perform (hm : env.machine.box.Ideal) (h : BoxedAt file peers) (call : Call) :
    BoxedAt file (perform dir env peers call) := by
  cases call with
  | peerOption id key => exact boxedAt_load hm h _
  | setPeerOption id key value => exact boxedAt_setPeerOption hm h id key value
  | peerFlutterOption id key => exact boxedAt_load hm h _
  | setPeerFlutterOption id key value =>
    show BoxedAt file (setPeerFlutterOption env dir id key value peers)
    unfold setPeerFlutterOption
    split_ifs
    · exact h
    · exact boxedAt_store_ hm (boxedAt_load hm h _) _ _ _ _
  | forgetPassword id => exact boxedAt_store_ hm (boxedAt_load hm h _) _ _ _ _
  | peerHasPassword id => exact boxedAt_load hm h _
  | peerExists id => exact boxedAt_load hm h _
  | setPeerAlias id value =>
    show BoxedAt file (setPeerAlias env dir id value peers)
    unfold setPeerAlias
    split_ifs
    · exact h
    · exact boxedAt_setPeerOption hm h id _ value
  | removePeer id =>
    show BoxedAt file (removePeer env dir id peers)
    unfold removePeer remove
    split_ifs
    · exact h
    · intro config hconfig
      by_cases hfile : file = path dir id
      · rw [hfile, Function.update_self] at hconfig
        cases hconfig
      · rw [Function.update_of_ne hfile] at hconfig
        exact h config hconfig
    · exact h

theorem boxedAt_run {calls : List (Env × Call)} (hcalls : ∀ x ∈ calls, x.1.machine.box.Ideal)
    (h : BoxedAt file peers) : BoxedAt file (run dir peers calls) := by
  induction calls generalizing peers with
  | nil => exact h
  | cons x calls ih =>
    exact ih (fun y hy => hcalls y (List.mem_cons_of_mem _ hy))
      (boxedAt_perform (hcalls x List.mem_cons_self) h x.2)

end Boxed

/-- Whatever is in the file of a peer: once it has been read, and written again where that was
called for, no call shows a secret in it, whatever is set or forgotten, with whatever keys, and
whichever of the readings and writings fail. -/
theorem secrets_boxed {env : Env} (hm : env.machine.box.Ideal) (hreadable : env.readable = true)
    (hrestored : env.restored = true) (dir id : List Char) (key : String) (peers : Peers)
    {calls : List (Env × Call)} (hcalls : ∀ x ∈ calls, x.1.machine.box.Ideal) :
    ∀ config k text,
      run dir (peerOption env dir id key peers).2 calls (path dir id) = some config →
      k ∈ secretOptions → config.options[k]? = some text →
      text = [] ∨ isEncrypted (Text.asBytes text) = true := by
  intro config k text hconfig hk htext
  exact boxedAt_run hcalls (boxedAt_of_load hm hreadable hrestored _ peers) config hconfig k hk text htext

/-- The files behind a reading. -/
def sampleRead : Peers := (peerOption (sampleEnv true) [] ['1'] "alias" fun _ => none).2

/-- A password that is set in the file of a peer that was read. -/
theorem secrets_boxed_set : ∃ config text,
    run [] sampleRead [(sampleEnv false, .setPeerOption ['1'] "os-password" ['a'])] (path [] ['1']) =
      some config ∧
    config.options["os-password"]? = some text ∧
    (text = [] ∨ isEncrypted (Text.asBytes text) = true) := by
  have hof : (sampleEnv false).Of sampleDevice false true := rfl
  have hplain : "os-password" ∈ secretOptions → isEncrypted (Text.asBytes ['a']) = false :=
    fun _ => by decide
  have hset : Holds sampleDevice
      (setPeerOption (sampleEnv false) [] ['1'] "os-password" ['a'] sampleRead) (path [] ['1'])
      "os-password" (kept "os-password" ['a']) :=
    holds_of_setPeerOption hof rfl (List.cons_ne_nil _ _) (by decide) (by decide) hplain
  obtain ⟨config, text, hconfig, htext, -⟩ := hset
  have hcalls : ∀ x ∈ [(sampleEnv false, Call.setPeerOption ['1'] "os-password" ['a'])],
      x.1.machine.box.Ideal := by
    intro x hx
    rw [List.mem_singleton.mp hx]
    exact SecretBox.padding_ideal
  have hideal : (sampleEnv true).machine.box.Ideal := SecretBox.padding_ideal
  exact ⟨config, text, hconfig, htext,
    secrets_boxed hideal rfl rfl [] ['1'] "alias" (fun _ => none) hcalls config "os-password" text
      hconfig (by decide) htext⟩

end PeerStore

end Storage

end RdEngine
