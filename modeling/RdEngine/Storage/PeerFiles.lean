/-
RdEngine/Storage/PeerFiles.lean

The files of the peers (`PeerConfig::path` and the listing of
`get_vec_id_modified_time_path`, `config.rs`).

An identifier with a character that file names must not have is written in base64 behind
a mark.  Base64 has the slash among its symbols: where it stands in the middle of the
encoding the file is in a directory of its own, and where it stands at the end it is lost
when the extension is set.  Two identifiers still have two files, since an encoding ends
with one slash at most (`mem_of_slashes`) and its length tells whether it did; only an
identifier that is itself written like an encoding shares the file of what it encodes
(`path_eq_iff`).  The listing finds a peer under its identifier exactly if its file is in
the directory and its name is not mistaken (`peer_files_listed`).
-/
import RdEngine.Lib.UnixPath
import RdEngine.Storage.PasswordSecurity

namespace RdEngine

namespace Storage

open UnixPath

/-! ### The functions -/

/-- What the expression of `PeerConfig::path` looks for. -/
def isForbidden (c : Char) : Bool := c ∈ ['<', '>', ':', '/', '\\', '|', '?', '*']

/-- What an encoded name begins with. -/
def base64Mark : List Char := ['b', 'a', 's', 'e', '6', '4', '_']

/-- The id as a name: as it is, or encoded where a character of it is forbidden. -/
def idEncoded (id : List Char) : List Char :=
  if id.any isForbidden then base64Mark ++ base64Encode (Text.asBytes id) else id

def toml : List Char := ['t', 'o', 'm', 'l']

def peersDir : List Char := ['p', 'e', 'e', 'r', 's']

/-- `Config::with_extension`. -/
def configWithExtension (path : List Char) : List Char :=
  match (fileName path).bind extension with
  | some ext => withExtension path (ext ++ '.' :: toml)
  | none => withExtension path toml

/-- `PeerConfig::path`, in the directory of the configuration. -/
def path (dir id : List Char) : List Char :=
  configWithExtension (push dir (push (push [] peersDir) (idEncoded id)))

/-- The identifier a file of the peers' directory is listed under, if it is one. -/
def listedId (file : Name) : Option (List Char) :=
  if extension file = some toml then
    let id := stem file
    if base64Mark <+: id ∧ Text.size id ≠ 7 then
      some (Text.fromUtf8Lossy ((base64Decode (Text.asBytes (id.drop 7))).getD []))
    else some id
  else none

/-! ### Bytes and symbols -/

/-- No text has the byte 255. -/
theorem notMem_asBytes (text : List Char) : (255 : UInt8) ∉ Text.asBytes text := by
  intro h
  obtain ⟨c, -, hc⟩ := List.mem_flatMap.mp h
  unfold String.utf8EncodeChar at hc
  dsimp only at hc
  have hbyte : ∀ n, n < 255 → (255 : UInt8) ≠ UInt8.ofNat n := by
    intro n hn heq
    have := congrArg UInt8.toNat heq
    rw [Text.toNat_ofNat_byte (by omega)] at this
    simp at this
    omega
  have hlt : c.val.toNat < 0x110000 := by
    rcases c.valid with h | h
    · exact h.trans (by decide)
    · exact h.2
  generalize c.val.toNat = v at *
  split_ifs at hc with h1 h2 h3
  · simp only [List.mem_cons, List.not_mem_nil, or_false] at hc
    exact hbyte _ (by omega) hc
  · simp only [List.mem_cons, List.not_mem_nil, or_false] at hc
    rcases hc with hc | hc
    · exact hbyte _ (by omega) hc
    · exact hbyte _ (by omega) hc
  · simp only [List.mem_cons, List.not_mem_nil, or_false] at hc
    rcases hc with hc | hc | hc
    · exact hbyte _ (by omega) hc
    · exact hbyte _ (by omega) hc
    · exact hbyte _ (by omega) hc
  · simp only [List.mem_cons, List.not_mem_nil, or_false] at hc
    rcases hc with hc | hc | hc | hc
    · exact hbyte _ (by omega) hc
    · exact hbyte _ (by omega) hc
    · exact hbyte _ (by omega) hc
    · exact hbyte _ (by omega) hc

theorem dot_notMem_base64Encode (bytes : Bytes) : '.' ∉ base64Encode bytes := by
  intro h
  have hall : Base64.original.symbols.all (fun c => c != '.') = true := rfl
  rcases Base64.mem_encode h with h | h
  · simpa using List.all_eq_true.mp hall _ h
  · exact absurd (show '.' = '=' from h) (by decide)

/-- The slash is the symbol of 63 alone. -/
theorem eq_of_symbol_eq_slash {n : Nat} (hn : n < 64) (h : Base64.original.symbol n = '/') :
    n = 63 := by
  have hvalue := Base64.Alphabet.value_eq_some_iff.mpr ⟨hn, h⟩
  have hslash : Base64.original.value '/' = some 63 :=
    Base64.Alphabet.value_eq_some_iff.mpr ⟨by omega, rfl⟩
  exact Option.some.inj (hvalue.symm.trans hslash)

theorem pad_notMem_slashes : Base64.original.pad ∉ ['/', '/'] := by
  show '=' ∉ ['/', '/']
  decide

/-- A text with padding at its end and two slashes at its end has the padding there. -/
theorem pad_mem_of_suffix {text : List Char} (hpad : [Base64.original.pad] <:+ text)
    (h : ['/', '/'] <:+ text) : Base64.original.pad ∈ ['/', '/'] :=
  (List.suffix_of_suffix_length_le hpad h (by decide)).subset List.mem_cons_self

/-- An encoding that ends with two slashes is one of the byte 255. -/
theorem mem_of_slashes {bytes : Bytes} (h : ['/', '/'] <:+ base64Encode bytes) :
    (255 : UInt8) ∈ bytes := by
  unfold base64Encode at h
  induction bytes using Base64.encode.induct with
  | case1 => exact absurd (List.suffix_nil.mp h) (List.cons_ne_nil _ _)
  | case2 a =>
    exact absurd (pad_mem_of_suffix ⟨[_, _, _], rfl⟩ h) pad_notMem_slashes
  | case3 a b =>
    exact absurd (pad_mem_of_suffix ⟨[_, _, _], rfl⟩ h) pad_notMem_slashes
  | case4 a b c rest ih =>
    cases rest with
    | nil =>
      have hb := b.toNat_lt
      have hc := c.toNat_lt
      have hlast : ['/', '/'] <:+ [Base64.original.symbol (b.toNat % 16 * 4 + c.toNat / 64),
          Base64.original.symbol (c.toNat % 64)] :=
        List.suffix_of_suffix_length_le h ⟨[_, _], rfl⟩ (le_refl 2)
      have heq := hlast.eq_of_length rfl
      simp only [List.cons.injEq, and_true] at heq
      -- The last two symbols hold the eight bits of the last byte, all of them set.
      have hhigh := eq_of_symbol_eq_slash (by omega) heq.1.symm
      have hlow := eq_of_symbol_eq_slash (by omega) heq.2.symm
      have hbyte : c = 255 := UInt8.toNat_inj.mp (show c.toNat = 255 by omega)
      simp [hbyte]
    | cons d rest =>
      have hlen : 2 ≤ (Base64.encode Base64.original (d :: rest)).length := by
        rw [Base64.length_encode, List.length_cons]
        omega
      have hsuffix : ['/', '/'] <:+ Base64.encode Base64.original (d :: rest) :=
        List.suffix_of_suffix_length_le h ⟨[_, _, _, _], rfl⟩ hlen
      exact List.mem_cons_of_mem _ (List.mem_cons_of_mem _ (List.mem_cons_of_mem _ (ih hsuffix)))

/-! ### The file of a peer -/

/-- The name of a peer's file without its extension, in the directory of the peers. -/
def fileStem (id : List Char) : List Char := (idEncoded id).rdropWhile (· = '/')

/-- An identifier that names a file. -/
def Nameable (id : List Char) : Prop := isBlank id = false ∧ id ≠ dotDot

variable {dir id id' : List Char}

theorem idEncoded_plain (h : id.any isForbidden = false) : idEncoded id = id := by
  rw [idEncoded, h, if_neg Bool.false_ne_true]

theorem idEncoded_forbidden (h : id.any isForbidden = true) :
    idEncoded id = base64Mark ++ base64Encode (Text.asBytes id) := by
  rw [idEncoded, if_pos h]

theorem slash_notMem_plain (h : id.any isForbidden = false) : '/' ∉ id := by
  intro hmem
  have := List.any_eq_false.mp h _ hmem
  exact this (by decide)

/-- What is encoded ends with the slashes that its file's name lacks. -/
theorem exists_slashes (id : List Char) :
    ∃ k, idEncoded id = fileStem id ++ List.replicate k '/' := by
  refine ⟨((idEncoded id).rtakeWhile (· = '/')).length, ?_⟩
  calc idEncoded id = fileStem id ++ (idEncoded id).rtakeWhile (· = '/') :=
        List.rdropWhile_append_rtakeWhile.symm
    _ = _ := congrArg _ (List.eq_replicate_of_mem fun c hc => by
        simpa using List.mem_rtakeWhile_imp hc)

theorem fileStem_plain (h : id.any isForbidden = false) : fileStem id = id := by
  unfold fileStem
  rw [idEncoded_plain h, List.rdropWhile_eq_self_iff]
  intro hne hlast
  exact slash_notMem_plain h ((of_decide_eq_true hlast) ▸ List.getLast_mem hne)

/-- The name of a peer's file ends with a name, and no slash. -/
theorem exists_name (h : Nameable id) : ∃ before name, fileStem id = before ++ name ∧
    '/' ∉ name ∧ Nameable name ∧ (before = [] ∨ ∃ up, before = up ++ ['/']) := by
  refine ⟨(fileStem id).rdropWhile (· ≠ '/'), (fileStem id).rtakeWhile (· ≠ '/'),
    List.rdropWhile_append_rtakeWhile.symm, ?_, ?_, ?_⟩
  · intro hmem
    simpa using List.mem_rtakeWhile_imp hmem
  · cases hplain : id.any isForbidden with
    | false =>
      rw [fileStem_plain hplain, List.rtakeWhile_eq_self_iff.mpr]
      · exact h
      · intro c hc
        exact decide_eq_true fun heq => slash_notMem_plain hplain (heq ▸ hc)
    | true =>
      -- There is no dot among the symbols, and the mark in front keeps the name from being
      -- empty.
      have hdot : '.' ∉ (fileStem id).rtakeWhile (· ≠ '/') := by
        intro hmem
        have hmem' := (List.rdropWhile_prefix _ _).subset ((List.rtakeWhile_suffix _ _).subset hmem)
        rw [idEncoded_forbidden hplain] at hmem'
        rcases List.mem_append.mp hmem' with hmem' | hmem'
        · exact absurd hmem' (by decide)
        · exact dot_notMem_base64Encode _ hmem'
      have hne : fileStem id ≠ [] := by
        intro hnil
        have hall := List.rdropWhile_eq_nil_iff.mp hnil 'b'
          (by rw [idEncoded_forbidden hplain]; exact List.mem_cons_self)
        exact absurd hall (by decide)
      have hnil : (fileStem id).rtakeWhile (· ≠ '/') ≠ [] := by
        intro hnil
        have hlast := List.rdropWhile_last_not _ _ hne
        rw [List.rtakeWhile_eq_nil_iff] at hnil
        exact hnil hne (decide_eq_true fun heq => hlast (decide_eq_true heq))
      refine ⟨?_, fun heq => hdot (heq ▸ List.mem_cons_self)⟩
      rw [isBlank, decide_eq_false_iff_not, not_or]
      exact ⟨hnil, fun heq => hdot (heq ▸ List.mem_cons_self)⟩
  · by_cases hbefore : (fileStem id).rdropWhile (· ≠ '/') = []
    · exact .inl hbefore
    · have hlast := List.rdropWhile_last_not _ _ hbefore
      have hdrop := List.dropLast_append_getLast hbefore
      rw [show List.getLast _ hbefore = '/' by simpa using hlast] at hdrop
      exact .inr ⟨_, hdrop.symm⟩

/-- The extension is put behind the last name of a path, and what is blank behind that name
is lost. -/
theorem configWithExtension_of_named {path : List Char} {texts : List Name} {name : Name}
    (hdots : name ≠ dotDot) (h : named path = texts ++ [name]) :
    configWithExtension path = ['/'].intercalate (texts ++ [name]) ++ '.' :: toml := by
  have hname := stem_extension name
  rw [← intercalate_concat_append]
  unfold configWithExtension
  rw [fileName_of_named hdots h, Option.bind_some]
  rcases hext : extension name with - | ext
  · rw [hext, Option.elim_none, List.append_nil] at hname
    show withExtension path toml = _
    rw [withExtension_of_named hdots h, if_neg (show toml ≠ [] from List.cons_ne_nil _ _),
      ← hname]
  · -- The old extension stays in front of the new one.
    rw [hext, Option.elim_some] at hname
    show withExtension path (ext ++ '.' :: toml) = _
    rw [withExtension_of_named hdots h, if_neg (by simp)]
    conv_rhs => rw [hname]
    simp

theorem head?_idEncoded (id : List Char) : (idEncoded id).head? ≠ some '/' := by
  cases hplain : id.any isForbidden with
  | false =>
    rw [idEncoded_plain hplain]
    intro hhead
    exact slash_notMem_plain hplain (List.mem_of_mem_head? hhead)
  | true =>
    rw [idEncoded_forbidden hplain]
    exact fun h => absurd (Option.some.inj h) (by decide)

theorem push_peers (dir id : List Char) : push dir (push (push [] peersDir) (idEncoded id)) =
    push dir peersDir ++ '/' :: idEncoded id := by
  have hpeers : push (push [] peersDir) (idEncoded id) = peersDir ++ '/' :: idEncoded id := by
    rw [push, if_neg (head?_idEncoded id), show push [] peersDir = peersDir from rfl,
      if_pos (by decide)]
  have hrelative : (peersDir ++ '/' :: idEncoded id).head? ≠ some '/' :=
    fun h => absurd (Option.some.inj h) (by decide)
  rw [hpeers, push, push, if_neg hrelative, if_neg (show peersDir.head? ≠ some '/' by decide)]
  split
  · simp
  · simp

/-- The file of a peer is in the directory of the peers, under its name. -/
theorem path_eq (h : Nameable id) (dir : List Char) :
    path dir id = push dir peersDir ++ '/' :: (fileStem id ++ '.' :: toml) := by
  obtain ⟨k, hk⟩ := exists_slashes id
  obtain ⟨before, name, hstem, hslash, ⟨hblank, hdots⟩, hbefore⟩ := exists_name h
  have hnamed : named (push dir peersDir ++ '/' :: idEncoded id) =
      named (push dir peersDir ++ '/' :: fileStem id) := by
    rw [hk, ← List.cons_append, ← List.append_assoc, named_append_slashes]
  rw [path, push_peers, hstem]
  rw [hstem] at hnamed
  rcases hbefore with rfl | ⟨up, rfl⟩
  · rw [List.nil_append, named_of_name hslash hblank] at hnamed
    rw [configWithExtension_of_named hdots hnamed, intercalate_pieces_concat]
    simp
  · have hup : push dir peersDir ++ '/' :: (up ++ ['/'] ++ name) =
        (push dir peersDir ++ '/' :: up) ++ '/' :: name := by simp
    rw [hup, named_of_name hslash hblank] at hnamed
    rw [configWithExtension_of_named hdots hnamed, intercalate_pieces_concat]
    simp

/-- An identifier that is blank has the file of the directory's own name. -/
theorem path_blank (h : isBlank id = true) (dir : List Char) :
    path dir id = push dir peersDir ++ '.' :: toml := by
  have hplain : id.any isForbidden = false := by
    rcases of_decide_eq_true h with rfl | rfl
    · rfl
    · decide
  obtain ⟨texts, htexts⟩ : ∃ texts, pieces (push dir peersDir) = texts ++ [peersDir] :=
    exists_pieces_push (by decide) dir
  have hnamed : named (push dir peersDir ++ '/' :: id) = texts ++ [peersDir] := by
    rw [named_append_blank h, named, htexts, named_concat (by decide)]
  rw [path, push_peers, idEncoded_plain hplain, configWithExtension_of_named (by decide) hnamed,
    ← htexts, intercalate_pieces]

/-- Two dots stay as they are, since they name no file. -/
theorem path_dotDot (dir : List Char) :
    path dir dotDot = push dir peersDir ++ '/' :: dotDot := by
  have hnamed : named (push dir peersDir ++ '/' :: dotDot) = pieces (push dir peersDir) ++ [dotDot] :=
    named_of_name (by decide) (by decide)
  have hnone := fileName_of_dotDot hnamed
  rw [path, push_peers, idEncoded_plain (by decide), configWithExtension, hnone, Option.bind_none]
  show withExtension _ toml = _
  rw [withExtension, hnone]

/-! ### Two peers -/

theorem base64Encode_injective : Function.Injective base64Encode := fun bytes bytes' h => by
  have hdecode := base64Decode_encode bytes
  rw [h, base64Decode_encode] at hdecode
  exact (Option.some.inj hdecode).symm

/-- At most one slash is lost. -/
theorem slashes_le_one {k : Nat} (h : id.any isForbidden = true)
    (hk : idEncoded id = fileStem id ++ List.replicate k '/') : k ≤ 1 := by
  by_contra hlt
  obtain ⟨k, rfl⟩ : ∃ j, k = j + 2 := ⟨k - 2, by omega⟩
  have hne : Text.asBytes id ≠ [] := by
    intro hnil
    obtain rfl : id = [] := Text.asBytes_injective (hnil.trans Text.asBytes_nil.symm)
    cases h
  have hlen : 2 ≤ (base64Encode (Text.asBytes id)).length := by
    have hpos := List.length_pos_iff.mpr hne
    rw [base64Encode, Base64.length_encode]
    omega
  have hslashes : ['/', '/'] <:+ idEncoded id :=
    hk ▸ ⟨fileStem id ++ List.replicate k '/', by
      rw [List.append_assoc, show ['/', '/'] = List.replicate 2 '/' from rfl,
        List.replicate_append_replicate]⟩
  rw [idEncoded_forbidden h] at hslashes
  have hsuffix := List.suffix_of_suffix_length_le hslashes (List.suffix_append _ _) hlen
  exact notMem_asBytes id (mem_of_slashes hsuffix)

/-- Encodings that differ in slashes at the end at most are the same. -/
theorem eq_of_fileStem (h : id.any isForbidden = true) (h' : id'.any isForbidden = true)
    (hstem : fileStem id = fileStem id') : id = id' := by
  obtain ⟨k, hk⟩ := exists_slashes id
  obtain ⟨k', hk'⟩ := exists_slashes id'
  have hle := slashes_le_one h hk
  have hle' := slashes_le_one h' hk'
  have hlen := congrArg List.length hk
  have hlen' := congrArg List.length hk'
  rw [idEncoded_forbidden h, List.length_append, List.length_append, List.length_replicate,
    base64Encode, Base64.length_encode] at hlen
  rw [idEncoded_forbidden h', List.length_append, List.length_append, List.length_replicate,
    base64Encode, Base64.length_encode, ← hstem] at hlen'
  obtain rfl : k = k' := by omega
  have hencoded : idEncoded id = idEncoded id' := by rw [hk, hk', hstem]
  rw [idEncoded_forbidden h, idEncoded_forbidden h'] at hencoded
  exact Text.asBytes_injective (base64Encode_injective (List.append_cancel_left hencoded))

/-- An identifier that is written like the encoding of another. -/
def Alias (id id' : List Char) : Prop :=
  id.any isForbidden = false ∧ id'.any isForbidden = true ∧ id = fileStem id'

theorem fileStem_eq_iff : fileStem id = fileStem id' ↔ id = id' ∨ Alias id id' ∨ Alias id' id := by
  constructor
  · intro h
    cases hid : id.any isForbidden with
    | false =>
      cases hid' : id'.any isForbidden with
      | false =>
        rw [fileStem_plain hid, fileStem_plain hid'] at h
        exact .inl h
      | true =>
        rw [fileStem_plain hid] at h
        exact .inr (.inl ⟨hid, hid', h⟩)
    | true =>
      cases hid' : id'.any isForbidden with
      | false =>
        rw [fileStem_plain hid'] at h
        exact .inr (.inr ⟨hid', hid, h.symm⟩)
      | true => exact .inl (eq_of_fileStem hid hid' h)
  · rintro (rfl | ⟨hid, -, h⟩ | ⟨hid', -, h⟩)
    · rfl
    · rw [fileStem_plain hid, h]
    · rw [fileStem_plain hid', h]

/-- The name of what is encoded begins with the mark. -/
theorem head?_fileStem (h : id.any isForbidden = true) : (fileStem id).head? = some 'b' := by
  obtain ⟨k, hk⟩ := exists_slashes id
  have hmark : (idEncoded id).head? = some 'b' := by
    rw [idEncoded_forbidden h]
    rfl
  rcases hstem : fileStem id with - | ⟨c, stem⟩
  · -- Slashes alone do not begin with the mark.
    rw [hk, hstem, List.nil_append] at hmark
    have hmem := List.mem_of_mem_head? hmark
    exact absurd (List.eq_of_mem_replicate hmem) (by decide)
  · rw [hk, hstem, List.cons_append, List.head?_cons] at hmark
    exact hmark

theorem isBlank_fileStem (id : List Char) : isBlank (fileStem id) = isBlank id := by
  cases hplain : id.any isForbidden with
  | false => rw [fileStem_plain hplain]
  | true =>
    have hid : isBlank id = false := by
      rw [Bool.eq_false_iff]
      intro hblank
      rcases of_decide_eq_true hblank with rfl | rfl
      · cases hplain
      · exact absurd hplain (by decide)
    rw [hid, Bool.eq_false_iff]
    intro hblank
    have hhead := head?_fileStem hplain
    rcases of_decide_eq_true hblank with hstem | hstem
    · rw [hstem] at hhead
      cases hhead
    · rw [hstem] at hhead
      exact absurd hhead (by decide)

theorem fileStem_eq_dotDot (h : fileStem id = dotDot) : id = dotDot := by
  cases hplain : id.any isForbidden with
  | false => exact (fileStem_plain hplain).symm.trans h
  | true =>
    have hhead := head?_fileStem hplain
    rw [h] at hhead
    exact absurd hhead (by decide)

/-- The file of an identifier that is not blank is in the directory of the peers. -/
theorem exists_file (h : isBlank id = false) (dir : List Char) :
    ∃ file, path dir id = push dir peersDir ++ '/' :: file := by
  by_cases hdots : id = dotDot
  · exact ⟨_, hdots ▸ path_dotDot dir⟩
  · exact ⟨_, path_eq ⟨h, hdots⟩ dir⟩

theorem path_ne_blank (h : isBlank id = false) (h' : isBlank id' = true) (dir : List Char) :
    path dir id ≠ path dir id' := by
  obtain ⟨file, hfile⟩ := exists_file h dir
  rw [hfile, path_blank h']
  intro heq
  have hslash := (List.cons.inj (List.append_cancel_left heq)).1
  exact absurd hslash (by decide)

theorem path_ne_dotDot (h : Nameable id) (dir : List Char) :
    path dir id ≠ path dir dotDot := by
  rw [path_eq h, path_dotDot]
  intro heq
  have hfile := (List.cons.inj (List.append_cancel_left heq)).2
  have hlast := congrArg List.getLast? hfile
  rw [List.getLast?_append] at hlast
  exact absurd (Option.some.inj hlast) (by decide)

/-- Two peers share a file where their names do, and where both identifiers are blank. -/
theorem path_eq_iff (dir id id' : List Char) : path dir id = path dir id' ↔
    fileStem id = fileStem id' ∨ (isBlank id = true ∧ isBlank id' = true) := by
  have hsame : fileStem id = fileStem id' → isBlank id = isBlank id' := fun hstem => by
    rw [← isBlank_fileStem id, hstem, isBlank_fileStem]
  cases hid : isBlank id with
  | true =>
    cases hid' : isBlank id' with
    | true => exact iff_of_true (by rw [path_blank hid, path_blank hid']) (.inr ⟨rfl, rfl⟩)
    | false =>
      refine iff_of_false (path_ne_blank hid' hid dir).symm ?_
      rintro (hstem | ⟨-, hblank⟩)
      · exact absurd (hid.symm.trans ((hsame hstem).trans hid')) (by decide)
      · cases hblank
  | false =>
    cases hid' : isBlank id' with
    | true =>
      refine iff_of_false (path_ne_blank hid hid' dir) ?_
      rintro (hstem | ⟨hblank, -⟩)
      · exact absurd (hid.symm.trans ((hsame hstem).trans hid')) (by decide)
      · cases hblank
    | false =>
      rw [or_iff_left (fun hblank => absurd hblank.1 Bool.false_ne_true)]
      -- Neither is blank: what is left is whether one of them goes up.
      by_cases hdots : id = dotDot
      · by_cases hdots' : id' = dotDot
        · rw [hdots, hdots']
          exact iff_of_true rfl rfl
        · refine iff_of_false (hdots ▸ (path_ne_dotDot ⟨hid', hdots'⟩ dir).symm) ?_
          intro hstem
          rw [hdots, fileStem_plain (by decide)] at hstem
          exact hdots' (fileStem_eq_dotDot hstem.symm)
      · by_cases hdots' : id' = dotDot
        · refine iff_of_false (hdots' ▸ path_ne_dotDot ⟨hid, hdots⟩ dir) ?_
          intro hstem
          rw [hdots', show fileStem dotDot = dotDot from fileStem_plain (by decide)] at hstem
          exact hdots (fileStem_eq_dotDot hstem)
        · rw [path_eq ⟨hid, hdots⟩, path_eq ⟨hid', hdots'⟩]
          constructor
          · intro heq
            have hcons := List.append_cancel_left heq
            exact List.append_cancel_right (List.cons.inj hcons).2
          · intro heq
            rw [heq]

/-! ### The listing -/

theorem splitAtDot_toml {name : Name} (hne : name ≠ []) :
    splitAtDot (name ++ '.' :: toml) = some (name, toml) := by
  have hdrop : (name ++ '.' :: toml).rdropWhile (· ≠ '.') = name ++ ['.'] := by
    rw [show name ++ '.' :: toml = name ++ ['.'] ++ ['t'] ++ ['o'] ++ ['m'] ++ ['l'] by simp [toml],
      List.rdropWhile_concat_pos _ _ _ (by decide), List.rdropWhile_concat_pos _ _ _ (by decide),
      List.rdropWhile_concat_pos _ _ _ (by decide), List.rdropWhile_concat_pos _ _ _ (by decide),
      List.rdropWhile_concat_neg _ _ _ (by decide)]
  have htake : (name ++ '.' :: toml).rtakeWhile (· ≠ '.') = toml := by
    have hboth := List.rdropWhile_append_rtakeWhile (p := (· ≠ '.')) (l := name ++ '.' :: toml)
    rw [hdrop, List.append_assoc] at hboth
    exact (List.cons.inj (List.append_cancel_left hboth)).2
  obtain ⟨c, name, rfl⟩ := List.exists_cons_of_ne_nil hne
  unfold splitAtDot
  rw [hdrop, htake]
  cases name with
  | nil => rfl
  | cons c' name =>
    show some ((c :: c' :: name ++ ['.']).dropLast, toml) = _
    rw [List.dropLast_concat]

/-- A file is listed under its name, or what the name encodes behind the mark. -/
theorem listedId_toml {name : Name} (hne : name ≠ []) : listedId (name ++ '.' :: toml) =
    if base64Mark <+: name ∧ Text.size name ≠ 7 then
      some (Text.fromUtf8Lossy ((base64Decode (Text.asBytes (name.drop 7))).getD []))
    else some name := by
  unfold listedId extension stem
  rw [splitAtDot_toml hne]
  exact if_pos rfl

/-- Decoding makes no text longer than the bytes. -/
theorem length_lossyAmong_le (n : Nat) (bytes : Bytes) : (Text.lossyAmong n bytes).length ≤ n := by
  induction n generalizing bytes with
  | zero =>
    cases bytes with
    | nil => exact Nat.le_refl _
    | cons b bytes => exact Nat.le_refl _
  | succ n ih =>
    cases bytes with
    | nil => exact Nat.zero_le _
    | cons b bytes =>
      rw [Text.lossyAmong, List.length_cons]
      exact Nat.succ_le_succ (ih _)

theorem length_decoded_le (text : List Char) :
    (Text.fromUtf8Lossy ((base64Decode (Text.asBytes text)).getD [])).length ≤ text.length := by
  refine (length_lossyAmong_le _ _).trans ?_
  rcases hdecode : base64Decode (Text.asBytes text) with - | bytes
  · exact Nat.zero_le _
  · rw [base64Decode_asBytes.mp hdecode, base64Encode, Base64.length_encode]
    show bytes.length ≤ _
    omega

theorem size_base64Mark : Text.size base64Mark = 7 := by decide

theorem size_eq_seven {text : List Char} : Text.size (base64Mark ++ text) = 7 ↔ text = [] := by
  rw [Text.size_append, size_base64Mark]
  cases text with
  | nil => simp
  | cons c text =>
    have hpos := c.utf8Size_pos
    rw [Text.size_cons]
    simp only [reduceCtorEq, iff_false]
    omega

/-- What is written with a slash at its end is not listed under its identifier. -/
theorem not_listed_of_slash (hnil : id ≠ []) (h : id.any isForbidden = true)
    (hslash : idEncoded id = fileStem id ++ ['/']) :
    listedId (fileStem id ++ '.' :: toml) ≠ some id := by
  have hencoded := idEncoded_forbidden h
  have hlen : (base64Encode (Text.asBytes id)).length % 4 = 0 := by
    rw [base64Encode, Base64.length_encode]
    omega
  have hne : base64Encode (Text.asBytes id) ≠ [] :=
    base64Encode_ne_nil fun hbytes => hnil (Text.asBytes_injective (hbytes.trans Text.asBytes_nil.symm))
  obtain ⟨text, hlast⟩ : ∃ text, base64Encode (Text.asBytes id) = text ++ ['/'] := by
    have hdrop := List.dropLast_append_getLast hne
    have hsuffix : [(base64Encode (Text.asBytes id)).getLast hne] <:+ idEncoded id := by
      rw [hencoded]
      refine ⟨base64Mark ++ (base64Encode (Text.asBytes id)).dropLast, ?_⟩
      rw [List.append_assoc, hdrop]
    have hend := List.suffix_of_suffix_length_le hsuffix (hslash ▸ List.suffix_append _ _) (le_refl 1)
    exact ⟨_, (hend.eq_of_length rfl) ▸ hdrop.symm⟩
  have hstem : fileStem id = base64Mark ++ text := by
    rw [hencoded, hlast, ← List.append_assoc] at hslash
    exact (List.append_cancel_right hslash).symm
  rw [hlast, List.length_append, List.length_singleton] at hlen
  have htext : text ≠ [] := by
    rintro rfl
    simp at hlen
  -- One symbol is missing, so nothing is decoded.
  have hdecode : base64Decode (Text.asBytes text) = none := by
    rcases hdecode : base64Decode (Text.asBytes text) with - | bytes
    · rfl
    · have htext := base64Decode_asBytes.mp hdecode
      rw [htext, base64Encode, Base64.length_encode] at hlen
      omega
  rw [hstem, listedId_toml (by simp [base64Mark]), if_pos ⟨List.prefix_append _ _,
    fun hsize => htext (size_eq_seven.mp hsize)⟩, List.drop_left' (by decide), hdecode]
  exact fun heq => hnil (Option.some.inj heq).symm

/-- Only an identifier that names a file is listed. -/
theorem nameable_of_listed {file : Name} (hpath : path dir id = push dir peersDir ++ '/' :: file)
    (h : listedId file = some id) : Nameable id := by
  refine ⟨?_, ?_⟩
  · rw [Bool.eq_false_iff]
    intro hblank
    rw [path_blank hblank] at hpath
    have hdot := (List.cons.inj (List.append_cancel_left hpath)).1
    exact absurd hdot (by decide)
  · rintro rfl
    rw [path_dotDot] at hpath
    obtain rfl := (List.cons.inj (List.append_cancel_left hpath)).2
    exact absurd h (by decide)

/-- A file in the directory of the peers is listed under the identifier it is of exactly if
the encoding has no slash and the identifier does not look like an encoding. -/
theorem listed_iff (h : Nameable id) (dir : List Char) :
    (∃ file, path dir id = push dir peersDir ++ '/' :: file ∧ '/' ∉ file ∧
        listedId file = some id) ↔
      '/' ∉ idEncoded id ∧ (id.any isForbidden = true ∨ ¬ base64Mark <+: id ∨ id = base64Mark) := by
  have hnil : id ≠ [] := by
    rintro rfl
    exact absurd h.1 (by decide)
  obtain ⟨before, name, hstem, -, hname, -⟩ := exists_name h
  have hne : fileStem id ≠ [] := by
    intro heq
    rw [heq] at hstem
    rw [(List.append_eq_nil_iff.mp hstem.symm).2] at hname
    exact absurd hname.1 (by decide)
  obtain ⟨k, hk⟩ := exists_slashes id
  constructor
  -- the listing splits on how the id was written: plainly or encoded
  · rintro ⟨file, hpath, hslash, hlisted⟩
    rw [path_eq h] at hpath
    obtain rfl := (List.cons.inj (List.append_cancel_left hpath)).2
    have hstemslash : '/' ∉ fileStem id := fun hmem => hslash (List.mem_append_left _ hmem)
    cases hplain : id.any isForbidden with
    | false =>
      rw [idEncoded_plain hplain]
      refine ⟨slash_notMem_plain hplain, .inr ?_⟩
      -- what follows the mark is decoded, to a text that is no longer than it
      by_contra hmark
      rw [not_or, not_not] at hmark
      obtain ⟨text, rfl⟩ := hmark.1
      have htext : text ≠ [] := fun heq => hmark.2 (by rw [heq, List.append_nil])
      rw [fileStem_plain hplain, listedId_toml hnil, if_pos ⟨List.prefix_append _ _,
        fun hsize => htext (size_eq_seven.mp hsize)⟩, List.drop_left' (by decide)] at hlisted
      have hlen := length_decoded_le text
      rw [Option.some.inj hlisted, List.length_append] at hlen
      have hseven : base64Mark.length = 7 := by decide
      omega
    | true =>
      refine ⟨?_, .inl rfl⟩
      have hle := slashes_le_one hplain hk
      obtain rfl | rfl : k = 0 ∨ k = 1 := by omega
      · rw [hk, List.replicate_zero, List.append_nil]
        exact hstemslash
      -- a slash at the end of the encoding puts the file into a directory
      · exact absurd hlisted (not_listed_of_slash hnil hplain hk)
  · rintro ⟨hslash, hmark⟩
    -- without a slash the file is the stem and its suffix
    obtain rfl : k = 0 := by
      by_contra hpos
      refine hslash (hk ▸ List.mem_append_right _ ?_)
      exact List.mem_replicate.mpr ⟨hpos, rfl⟩
    rw [List.replicate_zero, List.append_nil] at hk
    refine ⟨_, path_eq h dir, ?_, ?_⟩
    · intro hmem
      rcases List.mem_append.mp hmem with hmem | hmem
      · exact hslash (hk ▸ hmem)
      · exact absurd hmem (by decide)
    · rw [listedId_toml hne, ← hk]
      cases hplain : id.any isForbidden with
      | false =>
        rw [idEncoded_plain hplain, if_neg]
        rintro ⟨hstarts, hsize⟩
        rw [hplain] at hmark
        rcases hmark with hmark | hmark | rfl
        · cases hmark
        · exact hmark hstarts
        · exact hsize size_base64Mark
      | true =>
        have hbytes : Text.asBytes id ≠ [] := fun hbytes =>
          hnil (Text.asBytes_injective (hbytes.trans Text.asBytes_nil.symm))
        rw [idEncoded_forbidden hplain, if_pos ⟨List.prefix_append _ _,
          fun hsize => base64Encode_ne_nil hbytes (size_eq_seven.mp hsize)⟩,
          List.drop_left' (by decide), base64Decode_encode]
        exact congrArg some (Text.fromUtf8Lossy_asBytes id)

/-- Two identifiers have the same file only if one of them is written like the encoding of
the other, or if both are blank: these have the file beside the directory of the peers.  A
listing of that directory finds the file under the identifier exactly if the identifier
names a file, its encoding has no slash and it does not look like an encoding itself. -/
theorem peer_files (dir : List Char) :
    (∀ id id', path dir id = path dir id' ↔
      id = id' ∨ Alias id id' ∨ Alias id' id ∨ (isBlank id = true ∧ isBlank id' = true)) ∧
    ∀ id, (∃ file, path dir id = push dir peersDir ++ '/' :: file ∧ '/' ∉ file ∧
        listedId file = some id) ↔
      Nameable id ∧ '/' ∉ idEncoded id ∧
        (id.any isForbidden = true ∨ ¬ base64Mark <+: id ∨ id = base64Mark) := by
  refine ⟨fun id id' => ?_, fun id => ⟨?_, ?_⟩⟩
  · rw [path_eq_iff, fileStem_eq_iff, or_assoc, or_assoc]
  · rintro ⟨file, hpath, hslash, hlisted⟩
    have hnameable := nameable_of_listed hpath hlisted
    exact ⟨hnameable, (listed_iff hnameable dir).mp ⟨file, hpath, hslash, hlisted⟩⟩
  · rintro ⟨hnameable, hencoded⟩
    exact (listed_iff hnameable dir).mpr hencoded

/-- The text `a:b` has the file of its own encoding, which is listed under it, and the empty
text has the file of a dot. -/
theorem peer_files_colon :
    path [] ("base64_YTpi".toList) = path [] ("a:b".toList) ∧ path [] [] = path [] ['.'] ∧
      ∃ file, path [] ("a:b".toList) = push [] peersDir ++ '/' :: file ∧ '/' ∉ file ∧
        listedId file = some "a:b".toList :=
  ⟨((peer_files []).1 _ _).mpr (.inr (.inl ⟨by decide, by decide, by decide⟩)),
    ((peer_files []).1 _ _).mpr (.inr (.inr (.inr (by decide)))),
    ((peer_files []).2 _).mpr ⟨⟨by decide, by decide⟩, by decide, .inl (by decide)⟩⟩

end Storage

end RdEngine
