/-
RdEngine/Vnc/CutText.lean

The character set of clipboard text (`encode_client_cut_text` and
`decode_server_cut_text` of `vnc/protocol.rs`).

The protocol has ISO 8859-1 on the wire, one byte a character.  The client writes
UTF-8 and reads it, lossily.  The two are one on ASCII and on nothing else that
is ISO 8859-1; and a text that is not is refused only when it is too long
(`cutText_latin1_iff`).
-/
import RdEngine.Utf8
import RdEngine.Vnc.Frontend
import RdEngine.Vnc.FormatInEffect

namespace RdEngine

open Dialogue

namespace Vnc

open Text
open Words (be ofBe)

/-! ### ISO 8859-1 -/

/-- Every character is one of Latin-1. -/
def Latin1 (text : String) : Prop := ∀ c ∈ text.toList, c.toNat < 256

/-- Every character is one of ASCII. -/
def Ascii (text : String) : Prop := ∀ c ∈ text.toList, c.toNat < 128

/-- A text on the wire: its length, and one byte a character. -/
def cutTextBody (text : String) : Bytes :=
  be 4 text.length ++ text.toList.map fun c => UInt8.ofNat c.toNat

/-- Clipboard text as the protocol has it. -/
structure Latin1OnTheWire (text : String) : Prop where
  encodes : Latin1 text → encodeClientCutText text = .ok ([6, 0, 0, 0] ++ cutTextBody text)
  decodes : Latin1 text → text.length ≤ maxCutText → ∀ rest : List (Option UInt8),
    decodeServerCutText.drive ((cutTextBody text).map some ++ rest) = ⟨.done text, rest, []⟩
  refuses : ¬ Latin1 text → ∃ e, encodeClientCutText text = .error e
  -- refused at the length, of the body nothing is asked for
  bounded : ∀ (length : FixedBytes 4) (rest : List (Option UInt8)), maxCutText < ofBe length.1 →
    decodeServerCutText.drive (length.1.map some ++ rest) =
      ⟨.fail (.error (.protocol (.cutTextTooLong (ofBe length.1)))), rest, []⟩

/-- The texts for which it is so. -/
def CutTextFits (text : String) : Prop :=
  (Ascii text ∧ text.length < 2 ^ 32) ∨ (¬ Latin1 text ∧ 2 ^ 32 ≤ text.utf8ByteSize)

/-! ### Encoding -/

theorem Ascii.latin1 {text : String} (h : Ascii text) : Latin1 text :=
  fun c hc => Nat.lt_trans (h c hc) (by decide)

theorem ascii_iff (text : String) : Ascii text ↔ text.utf8ByteSize = text.length := by
  rw [utf8ByteSize_eq, ← String.length_toList]
  exact size_eq_length_iff.symm

theorem encodeClientCutText_ascii {text : String} (h : Ascii text) (hlength : text.length < 2 ^ 32) :
    encodeClientCutText text = .ok ([6, 0, 0, 0] ++ cutTextBody text) := by
  have hsize := (ascii_iff text).mp h
  rw [encodeClientCutText, hsize, if_pos hlength, toUTF8_ascii h, cutTextBody, List.append_assoc]

theorem encodeClientCutText_error_iff (text : String) :
    (∃ e, encodeClientCutText text = .error e) ↔ 2 ^ 32 ≤ text.utf8ByteSize := by
  unfold encodeClientCutText
  split_ifs with h
  · exact iff_of_false (fun h => by obtain ⟨e, he⟩ := h; cases he) (Nat.not_le_of_lt h)
  · exact iff_of_true ⟨_, rfl⟩ (Nat.le_of_not_lt h)

/-- What is encoded as ISO 8859-1 is ASCII: the lengths say so. -/
theorem ascii_of_encodes {text : String}
    (h : encodeClientCutText text = .ok ([6, 0, 0, 0] ++ cutTextBody text)) :
    Ascii text ∧ text.length < 2 ^ 32 := by
  unfold encodeClientCutText at h
  split_ifs at h with hsize
  have hlength := congrArg List.length (Except.ok.inj h)
  simp only [cutTextBody, List.length_append, Words.be_length, length_toUTF8, List.length_map,
    String.length_toList, List.length_cons, List.length_nil] at hlength
  refine ⟨(ascii_iff text).mpr (by omega), by omega⟩

/-! ### Decoding -/

theorem decodeServerCutText_bounded (length : FixedBytes 4) (rest : List (Option UInt8))
    (h : maxCutText < ofBe length.1) :
    decodeServerCutText.drive (length.1.map some ++ rest) =
      ⟨.fail (.error (.protocol (.cutTextTooLong (ofBe length.1)))), rest, []⟩ := by
  rw [decodeServerCutText, drive_readExact _ length.2.symm]
  dsimp only
  rw [if_pos h]
  exact Prog.drive_fail _ rest

theorem decodeServerCutText_ascii {text : String} (h : Ascii text)
    (hlength : text.length ≤ maxCutText) (rest : List (Option UInt8)) :
    decodeServerCutText.drive ((cutTextBody text).map some ++ rest) = ⟨.done text, rest, []⟩ := by
  have hlt : text.length < 256 ^ 4 := Nat.lt_of_le_of_lt hlength (by decide)
  have hbody : fromUtf8Lossy (text.toList.map fun c => UInt8.ofNat c.toNat) = text.toList := by
    rw [fromUtf8Lossy_ascii]
    · rw [List.map_map]
      refine (List.map_congr_left fun c hc => ?_).trans (List.map_id text.toList)
      have hc := h c hc
      show Char.ofNat (UInt8.ofNat c.toNat).toNat = c
      rw [UInt8.toNat_ofNat', Nat.mod_eq_of_lt (by omega), Char.ofNat_toNat]
    · intro b hb
      obtain ⟨c, hc, rfl⟩ := List.mem_map.mp hb
      have hc := h c hc
      rw [UInt8.lt_iff_toNat_lt, UInt8.toNat_ofNat', Nat.mod_eq_of_lt (by omega)]
      exact hc
  rw [cutTextBody, List.map_append, List.append_assoc, decodeServerCutText,
    drive_readExact _ (Words.be_length 4 text.length).symm]
  dsimp only
  rw [Words.ofBe_be_of_lt hlt, if_neg (Nat.not_lt.mpr hlength),
    drive_readExact _ (by rw [List.length_map, String.length_toList]), hbody, String.ofList_toList]
  exact Prog.drive_done _ rest

/-! ### The character set -/

/-- **Clipboard text is ISO 8859-1 on the wire exactly for these texts.** -/
theorem cutText_latin1_iff (text : String) : Latin1OnTheWire text ↔ CutTextFits text := by
  constructor
  · intro h
    by_cases hlatin : Latin1 text
    · exact .inl (ascii_of_encodes (h.encodes hlatin))
    · exact .inr ⟨hlatin, (encodeClientCutText_error_iff text).mp (h.refuses hlatin)⟩
  · rintro (⟨hascii, hlength⟩ | ⟨hlatin, hsize⟩)
    · exact {
        encodes := fun _ => encodeClientCutText_ascii hascii hlength
        decodes := fun _ => decodeServerCutText_ascii hascii
        refuses := fun hlatin => absurd hascii.latin1 hlatin
        bounded := decodeServerCutText_bounded }
    · exact {
        encodes := fun h => absurd h hlatin
        decodes := fun h => absurd h hlatin
        refuses := fun _ => (encodeClientCutText_error_iff text).mpr hsize
        bounded := decodeServerCutText_bounded }

/-- One character of ISO 8859-1, in two bytes. -/
theorem accented_text_is_not_latin1 : ¬ ∀ text : String, Latin1OnTheWire text := by
  intro h
  have htext : "é".toList = ['é'] := rfl
  have hlatin : Latin1 "é" := by
    intro c hc
    rw [htext, List.mem_singleton] at hc
    rw [hc]
    decide
  have hascii : ¬ Ascii "é" := by
    intro h
    have hsmall := h 'é' (by rw [htext]; exact List.mem_singleton_self _)
    revert hsmall
    decide
  exact hascii (ascii_of_encodes ((h "é").encodes hlatin)).1

end Vnc

end RdEngine
