/-
RdEngine/Lib/UnixPath.lean

Paths as texts, the way they are put together and taken apart where the separator is the
slash and nothing else is.

A path is what stands between its slashes, its pieces.  Empty pieces and single dots name
nothing: at the end of a path they are passed over to find its last name.  A path whose
last piece is a name is what stands in front of it and the name, and whatever slashes are
behind them (`named_of_name`, `named_append_slashes`), and these are lost when the
extension is replaced (`withExtension_of_named`).
-/
import Mathlib.Data.List.DropRight

namespace RdEngine

namespace UnixPath

abbrev Name := List Char

/-- What stands between the slashes. -/
def pieces (path : List Char) : List Name := path.splitOn '/'

/-- A piece that names nothing. -/
def isBlank (piece : Name) : Bool := piece = [] ∨ piece = ['.']

/-- The directory above. -/
def dotDot : Name := ['.', '.']

/-- A path pushed onto a path: an absolute one replaces it. -/
def push (path more : List Char) : List Char :=
  if more.head? = some '/' then more
  else if path.getLast?.any (· ≠ '/') then path ++ '/' :: more
  else path ++ more

/-- The pieces up to the last that is not blank. -/
def named (path : List Char) : List Name := (pieces path).rdropWhile isBlank

/-- The last name of a path, if it ends with one. -/
def fileName (path : List Char) : Option Name := (named path).getLast?.filter (· ≠ dotDot)

/-- A name around its last dot, unless the dot comes first. -/
def splitAtDot (name : Name) : Option (Name × Name) :=
  match name.rdropWhile (· ≠ '.') with
  | [] => none
  | [_] => none
  | before => some (before.dropLast, name.rtakeWhile (· ≠ '.'))

/-- The part in front of the last dot that is not the first character. -/
def stem (name : Name) : Name := (splitAtDot name).elim name (·.1)

/-- The part behind it. -/
def extension (name : Name) : Option Name := (splitAtDot name).map (·.2)

/-- A path with the extension of its last name replaced, and nothing behind it. -/
def withExtension (path ext : List Char) : List Char :=
  match fileName path with
  | none => path
  | some name => ['/'].intercalate
      ((named path).dropLast ++ [stem name ++ if ext = [] then [] else '.' :: ext])

/-! ### Pieces -/

variable {path front : List Char} {name : Name}

theorem pieces_ne_nil (path : List Char) : pieces path ≠ [] := List.splitOn_ne_nil '/' path

theorem intercalate_pieces (path : List Char) : ['/'].intercalate (pieces path) = path :=
  List.intercalate_splitOn '/'

theorem pieces_of_notMem (h : '/' ∉ name) : pieces name = [name] := List.splitOn_eq_singleton h

theorem pieces_append (front path : List Char) :
    pieces (front ++ '/' :: path) = pieces front ++ pieces path :=
  List.splitOn_append_cons_self front path

/-- Texts joined by a slash, the last of them apart. -/
theorem intercalate_concat {texts : List (List Char)} (h : texts ≠ []) (last : List Char) :
    ['/'].intercalate (texts ++ [last]) = ['/'].intercalate texts ++ '/' :: last := by
  induction texts with
  | nil => exact absurd rfl h
  | cons text texts ih =>
    cases texts with
    | nil => simp
    | cons text' texts =>
      rw [List.cons_append, List.cons_append, List.intercalate_cons_cons, ← List.cons_append,
        ih (List.cons_ne_nil _ _), List.intercalate_cons_cons]
      simp

theorem intercalate_pieces_concat (front : List Char) (last : Name) :
    ['/'].intercalate (pieces front ++ [last]) = front ++ '/' :: last := by
  rw [intercalate_concat (pieces_ne_nil front), intercalate_pieces]

/-- What is behind the last of the texts is behind all of them. -/
theorem intercalate_concat_append (texts : List (List Char)) (last more : List Char) :
    ['/'].intercalate (texts ++ [last ++ more]) = ['/'].intercalate (texts ++ [last]) ++ more := by
  by_cases h : texts = []
  · rw [h, List.nil_append, List.nil_append, List.intercalate_singleton,
      List.intercalate_singleton]
  · rw [intercalate_concat h, intercalate_concat h, List.append_assoc, List.cons_append]

/-- A name that is pushed onto a path is its last piece. -/
theorem exists_pieces_push (hslash : '/' ∉ name) (path : List Char) :
    ∃ texts, pieces (push path name) = texts ++ [name] := by
  have hrelative : name.head? ≠ some '/' := fun h => hslash (List.mem_of_mem_head? h)
  rw [push, if_neg hrelative]
  split
  · rw [pieces_append, pieces_of_notMem hslash]
    exact ⟨_, rfl⟩
  · next hlast =>
    -- Nothing is put between them where the path is empty or ends with a slash.
    rcases List.eq_nil_or_concat path with rfl | ⟨front, c, rfl⟩
    · exact ⟨[], pieces_of_notMem hslash⟩
    · obtain rfl : c = '/' := by simpa using hlast
      rw [List.concat_eq_append, List.append_assoc, List.singleton_append, pieces_append,
        pieces_of_notMem hslash]
      exact ⟨_, rfl⟩

/-! ### Names and extensions -/

theorem named_concat (h : isBlank name = false) {texts : List Name} :
    (texts ++ [name]).rdropWhile isBlank = texts ++ [name] :=
  List.rdropWhile_concat_neg _ _ _ (by rw [h]; exact Bool.false_ne_true)

/-- A name is what is in front of its last dot, the dot and what is behind it. -/
theorem eq_of_splitAtDot {before after : Name} (h : splitAtDot name = some (before, after)) :
    name = before ++ '.' :: after := by
  unfold splitAtDot at h
  split at h
  · cases h
  · cases h
  · next hnil hone =>
    cases h
    have hne : name.rdropWhile (· ≠ '.') ≠ [] := hnil
    have hlast := List.rdropWhile_last_not _ _ hne
    have hdot := List.dropLast_append_getLast hne
    rw [show (name.rdropWhile (· ≠ '.')).getLast hne = '.' by simpa using hlast] at hdot
    calc name = name.rdropWhile (· ≠ '.') ++ name.rtakeWhile (· ≠ '.') :=
          List.rdropWhile_append_rtakeWhile.symm
      _ = (name.rdropWhile (· ≠ '.')).dropLast ++ ['.'] ++ name.rtakeWhile (· ≠ '.') := by
          rw [hdot]
      _ = _ := by rw [List.append_assoc, List.singleton_append]

/-- A name is its stem and its extension. -/
theorem stem_extension (name : Name) :
    name = stem name ++ ((extension name).elim [] fun ext => '.' :: ext) := by
  unfold stem extension
  rcases h : splitAtDot name with - | ⟨before, after⟩
  · simp
  · simpa using eq_of_splitAtDot h

/-- A path that ends with a name has its pieces in front of it. -/
theorem named_of_name (hslash : '/' ∉ name) (hblank : isBlank name = false) :
    named (front ++ '/' :: name) = pieces front ++ [name] := by
  rw [named, pieces_append, pieces_of_notMem hslash, named_concat hblank]

theorem slash_notMem_blank {piece : Name} (h : isBlank piece = true) : '/' ∉ piece := by
  rcases of_decide_eq_true h with rfl | rfl
  · exact List.not_mem_nil
  · decide

/-- A piece that names nothing is passed over. -/
theorem named_append_blank {piece : Name} (h : isBlank piece = true) (path : List Char) :
    named (path ++ '/' :: piece) = named path := by
  rw [named, pieces_append, pieces_of_notMem (slash_notMem_blank h),
    List.rdropWhile_concat_pos _ _ _ h, named]

theorem named_append_slashes (path : List Char) (k : Nat) :
    named (path ++ List.replicate k '/') = named path := by
  induction k with
  | zero => rw [List.replicate_zero, List.append_nil]
  | succ k ih =>
    rw [List.replicate_succ', ← List.append_assoc, named_append_blank rfl, ih]

variable {texts : List Name}

theorem fileName_of_named (hdots : name ≠ dotDot) (h : named path = texts ++ [name]) :
    fileName path = some name := by
  rw [fileName, h, List.getLast?_concat, Option.filter_some, if_pos (by simpa using hdots)]

/-- A path that goes up at its end has no name. -/
theorem fileName_of_dotDot (h : named path = texts ++ [dotDot]) : fileName path = none := by
  rw [fileName, h, List.getLast?_concat]
  rfl

/-- The extension of the last name is replaced, in front of it the path stays. -/
theorem withExtension_of_named (hdots : name ≠ dotDot) (h : named path = texts ++ [name])
    (ext : List Char) :
    withExtension path ext =
      ['/'].intercalate (texts ++ [stem name ++ if ext = [] then [] else '.' :: ext]) := by
  rw [withExtension, fileName_of_named hdots h, h, List.dropLast_concat]

end UnixPath

end RdEngine
