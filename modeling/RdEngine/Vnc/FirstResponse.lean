/-
RdEngine/Vnc/FirstResponse.lean

What the client answers to the challenge of a VNC server that asks for a
password: the response to the password it was given, whatever else the server
says, and wherever the connection fails (`responds`).
-/
import RdEngine.Vnc.FormatInEffect
import RdEngine.Vnc.Security

namespace RdEngine

open Dialogue Dialogue.Prog

namespace Vnc

open Words (be ofBe)

/-- What a server says up to the challenge when a password is asked for, and what
the client has said up to then. -/
inductive Greeting : Bytes → Bytes → Prop
  /-- before 3.7 the server decides -/
  | decided {bytes : Bytes} {version : List Char} {minor : Nat} (hlength : bytes.length = 12)
      (hbanner : parseBanner bytes = .ok (version, minor)) (hminor : minor < 7) :
      Greeting (bytes ++ be 4 2) (versionAnswer minor)
  | offered {bytes types : Bytes} {version : List Char} {minor : Nat} (hlength : bytes.length = 12)
      (hbanner : parseBanner bytes = .ok (version, minor)) (hminor : 7 ≤ minor)
      (hcount : types.length < 256) (htwo : 2 ∈ types) :
      Greeting (bytes ++ (be 1 types.length ++ types)) (versionAnswer minor ++ [2])

section Drive

variable {α : Type}

theorem drive_vncAuthenticate (password : Option Bytes) (challenge : FixedBytes 16)
    (g : Unit → VncProg α) (rest : List (Option UInt8)) :
    (vncAuthenticate password >>= g).drive (challenge.1.map some ++ rest)
      = ((readSecurityResult >>= g).drive rest).after
          (Auth.answerChallenge (password.getD []) challenge) := by
  rw [vncAuthenticate, Prog.bind_assoc, drive_readExact _ challenge.2.symm]
  simp only [FixedBytes.fromSlice_val, writeAll, Prog.writeAll_bind, Prog.done_bind,
    Prog.drive_writeAll]

theorem drive_negotiate {bytes : Bytes} {version : List Char} {minor : Nat}
    (hlength : bytes.length = 12) (hbanner : parseBanner bytes = .ok (version, minor))
    (password : Option Bytes) (g : List Char × Nat × SecurityType → VncProg α)
    (rest : List (Option UInt8)) :
    (negotiate password >>= g).drive (bytes.map some ++ rest)
      = ((negotiateSecurity minor password >>= fun security => g (version, minor, security)).drive
          rest).after (versionAnswer minor) := by
  rw [negotiate, Prog.bind_assoc, drive_readExact _ hlength.symm, hbanner]
  simp only [writeAll, Prog.writeAll_bind, Prog.done_bind, Prog.drive_writeAll, Prog.bind_assoc,
    Prog.pure_eq]

theorem drive_decided {minor : Nat} (hminor : minor < 7) (password : Option Bytes)
    (challenge : FixedBytes 16) (g : SecurityType → VncProg α) (rest : List (Option UInt8)) :
    (negotiateSecurity minor password >>= g).drive
        ((be 4 2).map some ++ (challenge.1.map some ++ rest))
      = ((readSecurityResult >>= fun _ => g .vncAuthentication).drive rest).after
          (Auth.answerChallenge (password.getD []) challenge) := by
  have hdecided : decidedSecurity password 2
      = vncAuthenticate password >>= fun _ => .done .vncAuthentication := rfl
  rw [negotiateSecurity, if_pos hminor, Prog.bind_assoc,
    drive_readExact _ (Words.be_length _ _).symm, Words.ofBe_be_of_lt (by decide), hdecided,
    Prog.bind_assoc, drive_vncAuthenticate]
  rfl

theorem drive_offered {minor : Nat} (hminor : 7 ≤ minor) {types : Bytes}
    (hcount : types.length < 256) (htwo : 2 ∈ types) (secret : Bytes) (challenge : FixedBytes 16)
    (g : SecurityType → VncProg α) (rest : List (Option UInt8)) :
    (negotiateSecurity minor (some secret) >>= g).drive
        ((be 1 types.length).map some ++ (types.map some ++ (challenge.1.map some ++ rest)))
      = ((readSecurityResult >>= fun _ => g .vncAuthentication).drive rest).after
          ([2] ++ Auth.answerChallenge secret challenge) := by
  have hchosen : offeredSecurity (some secret) types = (do
      writeAll [2]
      vncAuthenticate (some secret)
      return .vncAuthentication) := by
    rw [offeredSecurity, chosenType_offered]
    simp only [Option.isSome_some, if_true, if_pos htwo]
    rfl
  have hne : types.length ≠ 0 := List.length_pos_iff.mpr (List.ne_nil_of_mem htwo) |>.ne'
  rw [negotiateSecurity, if_neg (Nat.not_lt.mpr hminor), Prog.bind_assoc,
    drive_readExact _ (Words.be_length _ _).symm, Words.ofBe_be_of_lt hcount, securityList,
    if_neg hne, Prog.bind_assoc, drive_readExact types rfl, hchosen]
  simp only [writeAll, Prog.writeAll_bind, Prog.done_bind, Prog.drive_writeAll, Prog.bind_assoc,
    Prog.pure_eq]
  rw [drive_vncAuthenticate, Prog.Stop.after_after]
  rfl

/-- What a handshake does after its security phase. -/
def afterSecurity (negotiated : List Char × Nat × SecurityType) : VncProg ServerInfo := do
  let init ← initialise
  return { version := negotiated.1, negotiatedVersion := negotiatedVersion negotiated.2.1,
           security := negotiated.2.2, width := init.width, height := init.height,
           name := init.name, format := init.format }

theorem handshake_eq (password : Option Bytes) :
    handshake password = negotiate password >>= afterSecurity := rfl

/-- **A client with a password answers the challenge with the response to it**, and
then waits for the result. -/
theorem drive_greeted {greeting answer : Bytes} (h : Greeting greeting answer) (secret : Bytes)
    (challenge : FixedBytes 16) (rest : List (Option UInt8)) :
    ∃ g : Unit → VncProg ServerInfo,
      (handshake (some secret)).drive ((greeting ++ challenge.1).map some ++ rest)
        = ((readSecurityResult >>= g).drive rest).after
            (answer ++ Auth.answerChallenge secret challenge) := by
  rw [handshake_eq]
  cases h with
  | @decided _ version minor hlength hbanner hminor =>
    refine ⟨fun _ => afterSecurity (version, minor, .vncAuthentication), ?_⟩
    simp only [List.map_append, List.append_assoc]
    rw [drive_negotiate hlength hbanner, drive_decided hminor, Prog.Stop.after_after]
    rfl
  | @offered _ _ version minor hlength hbanner hminor hcount htwo =>
    refine ⟨fun _ => afterSecurity (version, minor, .vncAuthentication), ?_⟩
    simp only [List.map_append, List.append_assoc]
    rw [drive_negotiate hlength hbanner, drive_offered hminor hcount htwo,
      Prog.Stop.after_after, ← List.append_assoc]

end Drive

/-- **The response that goes out is the one to the password**, wherever the connection
fails. -/
theorem responds {greeting answer : Bytes} (h : Greeting greeting answer) {secret : Bytes}
    {challenge : FixedBytes 16} {rest : List (Option UInt8)} {response more : Bytes}
    {result : Except VncFault ServerInfo}
    (hexec : Exec (handshake (some secret)) ((greeting ++ challenge.1).map some ++ rest)
      (answer ++ response ++ more) result) (hlength : response.length = 16) :
    response = Auth.answerChallenge secret challenge := by
  obtain ⟨g, hdrive⟩ := drive_greeted h secret challenge rest
  obtain ⟨unsent, hsent⟩ := hexec.sent_drive
  rw [hdrive] at hsent
  simp only [Prog.Stop.after, List.append_assoc] at hsent
  have hsame := List.append_cancel_left hsent
  exact (List.append_inj_left hsame
    ((Auth.length_answerChallenge _ _).trans hlength.symm)).symm

/-- A response goes out where the server asks for a password. -/
theorem exec_responds {greeting answer : Bytes} (h : Greeting greeting answer) (secret : Bytes)
    (challenge : FixedBytes 16) (fault : VncFault) :
    Exec (handshake (some secret)) ((greeting ++ challenge.1).map some)
      (answer ++ Auth.answerChallenge secret challenge) (.error fault) := by
  obtain ⟨g, hdrive⟩ := drive_greeted h secret challenge []
  obtain ⟨k, hk⟩ := @drive_readExact_short _ "security result"
    (fun code => securityResult code >>= g) 4 [] (by decide)
  have hwaits : (readSecurityResult >>= g).drive [] = ⟨.read k, [], []⟩ := by
    rw [readSecurityResult, Prog.bind_assoc]
    exact hk
  rw [hwaits, Prog.Stop.after_mk, List.append_nil, List.append_nil] at hdrive
  exact exec_of_drive_read hdrive fault

end Vnc

end RdEngine
