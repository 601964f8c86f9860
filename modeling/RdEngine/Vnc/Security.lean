/-
RdEngine/Vnc/Security.lean

The version and security phases of the RFB client against the server of the
document.  Both sides go through the phases in lockstep, one message after the
other, so each case is a chain of exchanges; where the client ends with an
error it is enough to follow the run up to there.

The one case without agreement is version 3.7 without authentication: the
client waits for a result, as in 3.8, and the server sends none.
-/
import RdEngine.Vnc.Server

namespace RdEngine

open Dialogue Dialogue.Prog

namespace Vnc

open Words (be ofBe)

/-! ### The banner -/

theorem digit_facts {d : Nat} (h : d < 10) :
    (Char.ofNat (48 + d)).utf8Size = 1 ∧ Text.isDigit (Char.ofNat (48 + d)) = true ∧
      (Char.ofNat (48 + d)).toNat - '0'.toNat = d ∧ Char.ofNat (48 + d) ≠ '+' := by
  have hall : ∀ d : Fin 10, (Char.ofNat (48 + d)).utf8Size = 1 ∧
      Text.isDigit (Char.ofNat (48 + d)) = true ∧
      (Char.ofNat (48 + d)).toNat - '0'.toNat = d ∧ Char.ofNat (48 + d) ≠ '+' := by decide
  exact hall ⟨d, h⟩

theorem parseU32_digits {a b c : Nat} (ha : a < 10) (hb : b < 10) (hc : c < 10) :
    Text.parseU32 [Char.ofNat (48 + a), Char.ofNat (48 + b), Char.ofNat (48 + c)] =
      some (100 * a + 10 * b + c) := by
  obtain ⟨-, hda, hva, hplus⟩ := digit_facts ha
  obtain ⟨-, hdb, hvb, -⟩ := digit_facts hb
  obtain ⟨-, hdc, hvc, -⟩ := digit_facts hc
  have hdecimal : Text.decimal [Char.ofNat (48 + a), Char.ofNat (48 + b), Char.ofNat (48 + c)] =
      100 * a + 10 * b + c := by
    simp only [Text.decimal, List.foldl_cons, List.foldl_nil, hva, hvb, hvc]
    omega
  have hhead : ¬ [Char.ofNat (48 + a), Char.ofNat (48 + b), Char.ofNat (48 + c)].head? = some '+' :=
    fun h => hplus (Option.some.inj h)
  have hall : [Char.ofNat (48 + a), Char.ofNat (48 + b), Char.ofNat (48 + c)].all Text.isDigit =
      true := by
    simp only [List.all_cons, List.all_nil, hda, hdb, hdc, Bool.and_self]
  simp only [Text.parseU32, if_neg hhead, hall, hdecimal]
  rw [if_neg]
  rintro (h | h | h)
  · cases h
  · cases h
  · omega

/-- The client reads the banner of a server as it is meant. -/
theorem parseBanner_banner {minor : Nat} (h : minor < 1000) :
    ∃ version, parseBanner (banner (SecurityServer.minorDigits minor)) = .ok (version, minor) := by
  -- the banner is ASCII, so the slices of the source fall between characters
  obtain ⟨a, b, c, hm, ha, hb, hc⟩ : ∃ a b c, minor = 100 * a + 10 * b + c ∧ a < 10 ∧ b < 10 ∧
      c < 10 := ⟨minor / 100, minor / 10 % 10, minor % 10, by omega, by omega, by omega, by omega⟩
  have hdigits : SecurityServer.minorDigits minor = [.ofNat (48 + a), .ofNat (48 + b),
      .ofNat (48 + c)] := by
    rw [SecurityServer.minorDigits, show minor / 100 = a by omega,
      show minor / 10 % 10 = b by omega, show minor % 10 = c by omega]
  have hdigit : ∀ {d : Nat}, d < 10 → (UInt8.ofNat (48 + d)).toNat = 48 + d := by
    intro d hd
    rw [UInt8.toNat_ofNat', Nat.mod_eq_of_lt (by omega)]
  have hascii : ∀ {d : Nat}, d < 10 → UInt8.ofNat (48 + d) < 0x80 := by
    intro d hd
    rw [UInt8.lt_iff_toNat_lt, hdigit hd]
    show 48 + d < 128
    omega
  have htext : Text.fromUtf8Lossy (banner (SecurityServer.minorDigits minor)) =
      ['R', 'F', 'B', ' '] ++ (['0', '0', '3', '.', Char.ofNat (48 + a), Char.ofNat (48 + b),
        Char.ofNat (48 + c)] ++ ['\n']) := by
    rw [hdigits, Text.fromUtf8Lossy_ascii]
    · simp only [banner, List.map_append, List.map_cons, List.map_nil, hdigit ha, hdigit hb,
        hdigit hc]
      rfl
    · intro x hx
      simp only [banner, List.mem_append, List.mem_cons, List.not_mem_nil, or_false] at hx
      rcases hx with ((rfl | rfl | rfl | rfl | rfl | rfl | rfl | rfl) | (rfl | rfl | rfl)) | rfl <;>
        first
          | exact hascii ha
          | exact hascii hb
          | exact hascii hc
          | decide
  obtain ⟨hsa, -⟩ := digit_facts ha
  obtain ⟨hsb, -⟩ := digit_facts hb
  obtain ⟨hsc, -⟩ := digit_facts hc
  have hsize : ∀ x ∈ [Char.ofNat (48 + a), Char.ofNat (48 + b), Char.ofNat (48 + c)],
      x.utf8Size = 1 := by
    simp only [List.mem_cons, List.not_mem_nil, or_false]
    rintro x (rfl | rfl | rfl)
    · exact hsa
    · exact hsb
    · exact hsc
  have hmajor : ∀ x ∈ ['0', '0', '3', '.'], x.utf8Size = 1 := Text.utf8Size_of_all rfl
  -- "003.ddd" from byte 4 on, then its two numbers
  have hversion : Text.slice (['R', 'F', 'B', ' '] ++ (['0', '0', '3', '.', Char.ofNat (48 + a),
      Char.ofNat (48 + b), Char.ofNat (48 + c)] ++ ['\n'])) 4 11 = some (['0', '0', '3', '.'] ++
        [Char.ofNat (48 + a), Char.ofNat (48 + b), Char.ofNat (48 + c)]) :=
    Text.slice_ascii _ _ _ (Text.utf8Size_of_all rfl)
      fun x hx => (List.mem_append.mp hx).elim (hmajor x) (hsize x)
  have hfirst : Text.slice (['0', '0', '3', '.'] ++ [Char.ofNat (48 + a), Char.ofNat (48 + b),
      Char.ofNat (48 + c)]) 0 3 = some ['0', '0', '3'] :=
    Text.slice_ascii [] ['0', '0', '3'] _ (Text.utf8Size_of_all rfl) (Text.utf8Size_of_all rfl)
  have hsecond : Text.slice (['0', '0', '3', '.'] ++ [Char.ofNat (48 + a), Char.ofNat (48 + b),
      Char.ofNat (48 + c)]) 4 7 = some [Char.ofNat (48 + a), Char.ofNat (48 + b),
        Char.ofNat (48 + c)] :=
    Text.slice_ascii ['0', '0', '3', '.'] _ [] hmajor hsize
  have hthree : Text.parseU32 ['0', '0', '3'] = some 3 := by decide
  refine ⟨['0', '0', '3', '.'] ++ [Char.ofNat (48 + a), Char.ofNat (48 + b), Char.ofNat (48 + c)],
    ?_⟩
  rw [parseBanner, htext]
  simp only [hversion, hfirst, hsecond, hthree, parseU32_digits ha hb hc, ← hm]
  rfl

theorem ofAnswer_versionAnswer (minor : Nat) :
    RfbVersion.ofAnswer (versionAnswer minor) =
      if minor ≥ 8 then .v38 else if minor = 7 then .v37 else .v33 := by
  unfold versionAnswer
  split_ifs <;> rfl

/-! ### Reasons and results -/

section Phase

variable {α β γ : Type}

/-- The client reads a reason that the server sends, or gives up on it. -/
theorem readReason_text (text : Bytes) (g : Unit → ServerProg β) :
    ∃ p is, Duo.Ended p ∧
      Duo.Reaches ⟨readReason, sendText text >>= g, [], []⟩ ⟨p, g (), is, []⟩ := by
  have hsend := reaches_sendBytes (be 4 text.length ++ text) g readReason [] []
  rw [List.nil_append, List.map_append] at hsend
  have hhead : Duo.Reaches _ (⟨if ofBe (be 4 text.length) > 4096 then
      failWith (.protocol (.reasonTooLong (ofBe (be 4 text.length))))
    else do
      let body ← readExact "reason body" (ofBe (be 4 text.length))
      return String.ofList (Text.fromUtf8Lossy body), g (), text.map some, []⟩ :
      Exchange String β) :=
    hsend.trans (reaches_readExact (be 4 text.length) (Words.be_length _ _).symm _ _ _ _)
  split_ifs at hhead with hsize
  · refine ⟨_, _, ?_, hhead⟩
    trivial
  · -- the length states at most what there is
    have hle : ofBe (be 4 text.length) ≤ text.length := by
      rw [Words.ofBe_be]
      exact Nat.mod_le _ _
    rw [← List.take_append_drop (ofBe (be 4 text.length)) text, List.map_append,
      List.take_append_drop] at hhead
    refine ⟨_, _, ?_, hhead.trans (reaches_readExact _ ?_ _ _ _ _)⟩
    · trivial
    · rw [List.length_take, min_eq_left hle]

theorem readReason_close (g : Unit → ServerProg β) :
    ∃ p is, Duo.Ended p ∧
      Duo.Reaches ⟨readReason, close >>= g, [], []⟩ ⟨p, g (), is, []⟩ := by
  refine ⟨failWith (.io "reason length"), [], trivial, ?_⟩
  exact Duo.Reaches.head .rightWrite (Duo.Reaches.head .leftRead .rfl)

/-- Whatever became of the reason, the client is refused. -/
theorem reaches_rejected {r r' : ServerProg β} {p : VncProg String} {is is' : List (Option UInt8)}
    {os os' : Bytes} (hp : Duo.Ended p)
    (h : Duo.Reaches ⟨readReason, r, is, os⟩ ⟨p, r', is', os'⟩) (otherwise : String)
    (f : α → VncProg γ) :
    ∃ e, Duo.Reaches ⟨rejected otherwise >>= f, r, is, os⟩ ⟨.fail e, r', is', os'⟩ := by
  have hrun := (h.attempt.bind fun reason =>
    (failWith (.authenticationRejected (reason.toOption.getD otherwise)) : VncProg α)).bind f
  cases p with
  | done reason => exact ⟨_, hrun⟩
  | fail e => exact ⟨_, hrun⟩
  | read k => exact hp.elim
  | write o k => exact hp.elim

/-- What the client makes of the result: it goes on, or it is refused, perhaps
after a reason. -/
theorem reaches_securityResult (status : UInt32) (g : Unit → ServerProg β) :
    ∃ p, Duo.Reaches ⟨readSecurityResult, sendBytes (be 4 status.toNat) >>= g, [], []⟩
        ⟨p, g (), [], []⟩ ∧
      (status = 0 → p = .done ()) ∧
      (status ≠ 0 → p = rejected "too many attempts" ∨ ∃ e, p = .fail e) := by
  have hrun : Duo.Reaches ⟨readSecurityResult, sendBytes (be 4 status.toNat) >>= g, [], []⟩
      ⟨securityResult (be 4 status.toNat), g (), [], []⟩ :=
    reaches_serverSends (be 4 status.toNat) securityResult g (Words.be_length _ _).symm
  have hvalue : ofBe (be 4 status.toNat) = status.toNat := Words.ofBe_be_of_lt status.toNat_lt
  refine ⟨_, hrun, ?_, ?_⟩
  · rintro rfl
    rfl
  · intro hstatus
    have hne : status.toNat ≠ 0 := fun h => hstatus (UInt32.toNat_inj.mp h)
    by_cases hcode : be 4 status.toNat = [1, 0, 0, 0]
    · simp only [securityResult, if_pos hcode]
      exact .inr ⟨_, rfl⟩
    · simp only [securityResult, if_neg hcode, hvalue]
      rw [if_neg (show ¬ status.toNat = securityResultOk from hne)]
      split_ifs
      · exact .inr ⟨_, rfl⟩
      · exact .inl rfl
      · exact .inr ⟨_, rfl⟩

/-- The challenge-response exchange: the client goes on when the server lets it
in, and fails otherwise. -/
theorem reaches_authenticate (server : SecurityServer) (version : RfbVersion)
    (password : Option Bytes) :
    let response := Auth.answerChallenge (password.getD []) server.challenge
    (server.status response = 0 →
      Duo.Reaches ⟨vncAuthenticate password, server.authenticate version, [], []⟩
        ⟨.done (), .done ⟨2, some response, true⟩, [], []⟩) ∧
    (server.status response ≠ 0 → ∃ e r is os,
      Duo.Reaches ⟨vncAuthenticate password, server.authenticate version, [], []⟩
        ⟨.fail e, r, is, os⟩) := by
  intro response
  have hchallenge : Duo.Reaches ⟨vncAuthenticate password, server.authenticate version, [], []⟩
      _ := reaches_serverSends server.challenge.1 _ _ server.challenge.2.symm
  simp only [FixedBytes.fromSlice_val] at hchallenge
  have hresponse := hchallenge.trans
    (reaches_clientSends response _ _ (Auth.length_answerChallenge _ _).symm)
  obtain ⟨p, hresult, hok, hfailed⟩ := reaches_securityResult (server.status response) fun _ =>
    (if server.status response = 0 then return ⟨2, some response, true⟩
    else do
      if version = .v38 then sendText server.reason
      close
      return ⟨2, some response, false⟩ : ServerProg SecurityOutcome)
  -- challenge, response, result: the two sides in step
  have hrun := hresponse.trans hresult
  constructor
  · intro hstatus
    rw [hok hstatus, if_pos hstatus] at hrun
    exact hrun
  · intro hstatus
    rw [if_neg hstatus] at hrun
    rcases hfailed hstatus with rfl | ⟨e, rfl⟩
    · -- a reason follows in 3.8 only; before that the connection is closed
      obtain ⟨p, is, hp, hreason⟩ : ∃ p is, Duo.Ended p ∧ ∃ r, Duo.Reaches ⟨readReason, (do
          if version = .v38 then sendText server.reason
          close
          return ⟨2, some response, false⟩ : ServerProg SecurityOutcome), [], []⟩
            ⟨p, r, is, []⟩ := by
        by_cases hversion : version = .v38
        · obtain ⟨p, is, hp, hreason⟩ := readReason_text server.reason fun _ => (do
            close
            return ⟨2, some response, false⟩ : ServerProg SecurityOutcome)
          rw [if_pos hversion]
          exact ⟨p, is, hp, _, hreason⟩
        · obtain ⟨p, is, hp, hreason⟩ := readReason_close fun _ =>
            (return ⟨2, some response, false⟩ : ServerProg SecurityOutcome)
          rw [if_neg hversion]
          exact ⟨p, is, hp, _, hreason⟩
      obtain ⟨r, hreason⟩ := hreason
      obtain ⟨e, hrefused⟩ := reaches_rejected hp hreason "too many attempts"
        (fun _ => (.done () : VncProg Unit))
      rw [bind_done] at hrefused
      exact ⟨e, _, _, _, hrun.trans hrefused⟩
    · exact ⟨e, _, _, _, hrun⟩

/-! ### The phases -/

/-- The outcome for the server when the client has used a type. -/
def expectedOutcome (server : SecurityServer) (password : Option Bytes) (security : SecurityType) :
    SecurityOutcome :=
  ⟨security.code.toNat, if security = .vncAuthentication then
    some (Auth.answerChallenge (password.getD []) server.challenge) else none, true⟩

/-- Some run ends with both sides agreed, or with the client failed. -/
def Settles (server : SecurityServer) (password : Option Bytes)
    (c : Exchange SecurityType SecurityOutcome) : Prop :=
  (∃ security, Duo.Reaches c
    ⟨.done security, .done (expectedOutcome server password security), [], []⟩) ∨
  ∃ e r is os, Duo.Reaches c ⟨.fail e, r, is, os⟩

theorem Settles.of_reaches {server : SecurityServer} {password : Option Bytes}
    {c d : Exchange SecurityType SecurityOutcome} (h : Duo.Reaches c d)
    (hd : Settles server password d) : Settles server password c := by
  rcases hd with ⟨security, hd⟩ | ⟨e, r, is, os, hd⟩
  · exact .inl ⟨security, h.trans hd⟩
  · exact .inr ⟨e, r, is, os, h.trans hd⟩

theorem authenticate_settles (server : SecurityServer) (version : RfbVersion)
    (password : Option Bytes) :
    Settles server password ⟨vncAuthenticate password >>= fun _ => .done .vncAuthentication,
      server.authenticate version, [], []⟩ := by
  obtain ⟨hok, hfailed⟩ := reaches_authenticate server version password
  by_cases hstatus :
      server.status (Auth.answerChallenge (password.getD []) server.challenge) = 0
  · exact .inl ⟨.vncAuthentication, (hok hstatus).bind _⟩
  · obtain ⟨e, r, is, os, hrun⟩ := hfailed hstatus
    exact .inr ⟨e, r, is, os, hrun.bind _⟩

/-- A type the server of 3.3 decides on that is neither of the two. -/
theorem decidedSecurity_other {raw : Nat} (hone : raw ≠ 1) (htwo : raw ≠ 2)
    (password : Option Bytes) : ∃ e, decidedSecurity password raw = .fail e := by
  simp only [decidedSecurity]
  split_ifs with hcode hsupported
  · exact ⟨_, rfl⟩
  · exact ⟨_, rfl⟩
  all_goals
    -- a supported type has one of the two codes
    rw [not_not] at hcode
    rcases hsecurity : SecurityType.fromCode (.ofNat raw) <;> rw [hsecurity] at hcode hsupported
    · exact absurd hcode hone
    · exact absurd hcode htwo
    all_goals exact absurd rfl hsupported

theorem decided_settles (server : SecurityServer) {minor : Nat} (hminor : minor < 7)
    (password : Option Bytes) :
    Settles server password ⟨negotiateSecurity minor password, server.decided, [], []⟩ := by
  rw [negotiateSecurity, if_pos hminor]
  refine Settles.of_reaches
    (reaches_serverSends (be 4 server.securityType.toNat) _ _ (Words.be_length _ _).symm) ?_
  rw [Words.ofBe_be_of_lt server.securityType.toNat_lt]
  by_cases hone : server.securityType = 1
  · rw [if_pos hone, hone]
    exact .inl ⟨.none, .rfl⟩
  rw [if_neg hone]
  by_cases htwo : server.securityType = 2
  · rw [if_pos htwo, htwo]
    exact authenticate_settles server .v33 password
  · obtain ⟨e, he⟩ := decidedSecurity_other (fun h => hone (UInt32.toNat_inj.mp h))
      (fun h => htwo (UInt32.toNat_inj.mp h)) password
    rw [he]
    exact .inr ⟨e, _, _, _, .rfl⟩

theorem find?_eq {τ : Type} [DecidableEq τ] (want : τ) (xs : List τ) :
    xs.find? (fun x => decide (x = want)) = if want ∈ xs then some want else none := by
  induction xs with
  | nil => rfl
  | cons x xs ih =>
    by_cases hx : x = want
    · simp [hx]
    · simp [hx, ih, Ne.symm hx]

/-- The client finds its type exactly when the server offers the code. -/
theorem chosenType_offered (password : Option Bytes) (types : List UInt8) :
    chosenType password (types.map SecurityType.fromCode) =
      if password.isSome then if 2 ∈ types then some .vncAuthentication else none
      else if 1 ∈ types then some .none else none := by
  have hnone : SecurityType.none ∈ types.map SecurityType.fromCode ↔ 1 ∈ types := by
    simp [SecurityType.fromCode_eq_none_iff]
  have hvnc : SecurityType.vncAuthentication ∈ types.map SecurityType.fromCode ↔ 2 ∈ types := by
    simp [SecurityType.fromCode_eq_vncAuthentication_iff]
  rw [chosenType, find?_eq]
  cases password.isSome
  · simp only [Bool.false_eq_true, if_false, hnone]
  · simp only [if_true, hvnc]

/-- Up to the client's choice, when there are types to choose from. -/
theorem reaches_offered (server : SecurityServer) {minor : Nat} (hminor : ¬ minor < 7)
    (version : RfbVersion) (password : Option Bytes) (hne : server.types ≠ []) :
    Duo.Reaches ⟨negotiateSecurity minor password, server.offered version, [], []⟩
      ⟨offeredSecurity password server.types, readN 1 >>= server.chosen version, [], []⟩ := by
  rw [negotiateSecurity, if_neg hminor]
  have hcount : ofBe (be 1 server.types.length) = server.types.length :=
    Words.ofBe_be_of_lt server.length_types
  have hlength : server.types.length ≠ 0 := fun h => hne (List.length_eq_zero_iff.mp h)
  refine Duo.Reaches.trans
    (reaches_serverSends (be 1 server.types.length) _ _ (Words.be_length _ _).symm) ?_
  rw [if_neg hne, hcount, securityList, if_neg hlength]
  exact reaches_serverSends server.types _ _ rfl

theorem offered_settles (server : SecurityServer) {minor : Nat} (hminor : ¬ minor < 7)
    (version : RfbVersion) (password : Option Bytes)
    (h : version = .v38 ∨ ¬ (password = none ∧ 1 ∈ server.types)) :
    Settles server password
      ⟨negotiateSecurity minor password, server.offered version, [], []⟩ := by
  by_cases hne : server.types = []
  · -- nothing to choose from: a refusal with its reason
    rw [negotiateSecurity, if_neg hminor]
    refine Settles.of_reaches
      (reaches_serverSends (be 1 server.types.length) _ _ (Words.be_length _ _).symm) ?_
    rw [if_pos hne, hne]
    obtain ⟨p, is, hp, hreason⟩ := readReason_text server.refusal fun _ => SecurityServer.refuse
    obtain ⟨e, hrefused⟩ := reaches_rejected hp hreason "server refused the connection"
      (fun security => (.done security : VncProg SecurityType))
    rw [bind_done] at hrefused
    exact .inr ⟨e, _, _, _, hrefused⟩
  refine Settles.of_reaches (reaches_offered server hminor version password hne) ?_
  simp only [offeredSecurity, chosenType_offered]
  cases password with
  | some secret =>
    -- with a password only type 2 is taken
    by_cases htwo : 2 ∈ server.types
    · simp only [Option.isSome_some, if_true, if_pos htwo]
      have hchosen : server.chosen version [2] = server.authenticate version := by
        rw [SecurityServer.chosen, if_neg (by rintro ⟨hchoice, -⟩; cases hchoice),
          if_pos ⟨rfl, htwo⟩]
      refine Settles.of_reaches (reaches_clientSends [2] _ _ rfl) ?_
      rw [hchosen]
      exact authenticate_settles server version (some secret)
    · simp only [Option.isSome_some, if_true, if_neg htwo]
      exact .inr ⟨_, _, _, _, .rfl⟩
  | none =>
    -- without one only type 1
    by_cases hone : 1 ∈ server.types
    · simp only [Option.isSome_none, Bool.false_eq_true, if_false, if_pos hone]
      have hversion : version = .v38 := h.resolve_right fun hnot => hnot ⟨rfl, hone⟩
      have hchosen : server.chosen version [1] = (do
          sendBytes (be 4 0)
          return ⟨1, none, true⟩) := by
        rw [SecurityServer.chosen, if_pos ⟨rfl, hone⟩, if_pos hversion]
      refine Settles.of_reaches (reaches_clientSends [1] _ _ rfl) ?_
      rw [hchosen]
      obtain ⟨p, hresult, hok, -⟩ := reaches_securityResult 0 fun _ =>
        (return ⟨1, none, true⟩ : ServerProg SecurityOutcome)
      rw [hok rfl] at hresult
      exact .inl ⟨.none, hresult.bind fun _ => .done SecurityType.none⟩
    · simp only [Option.isSome_none, Bool.false_eq_true, if_false, if_neg hone]
      exact .inr ⟨_, _, _, _, .rfl⟩

/-- Version 3.7 without authentication: the server has ended its phase, and the
client waits for a result. -/
theorem offered_waits (server : SecurityServer) {minor : Nat} (hminor : ¬ minor < 7)
    (hone : 1 ∈ server.types) :
    Duo.Reaches ⟨negotiateSecurity minor none, server.offered .v37, [], []⟩
      ⟨readSecurityResult >>= fun _ => .done .none, .done ⟨1, none, true⟩, [], []⟩ := by
  have hne : server.types ≠ [] := List.ne_nil_of_mem hone
  have hoffered := reaches_offered server hminor .v37 none hne
  simp only [offeredSecurity, chosenType_offered, Option.isSome_none, Bool.false_eq_true, if_false,
    if_pos hone] at hoffered
  have hchosen : server.chosen .v37 [1] = .done ⟨1, none, true⟩ := by
    rw [SecurityServer.chosen, if_pos ⟨rfl, hone⟩]
    rfl
  have hrun := hoffered.trans (reaches_clientSends [1] _ _ rfl)
  rw [hchosen] at hrun
  exact hrun

end Phase

/-! ### Agreement -/

/-- The client in its version and security phases against the server. -/
def securityStart (server : SecurityServer) (password : Option Bytes) :
    Exchange (List Char × Nat × SecurityType) SecurityOutcome :=
  ⟨negotiate password, server.securityPhase, [], []⟩

/-- How a complete run has to end: the client does not wait for bytes that do
not come; and if it returns a type, the server has ended its phase with that
type, has got the response that goes with it and has let the client in, every
byte of its phase has been read, and every byte the client wrote. -/
def SecurityAgreed (server : SecurityServer) (password : Option Bytes)
    (c : Exchange (List Char × Nat × SecurityType) SecurityOutcome) : Prop :=
  Duo.Ended c.left ∧
  ∀ version minor security, c.left = .done (version, minor, security) →
    minor = server.minor ∧ c.right = .done (expectedOutcome server password security) ∧
    c.toLeft = [] ∧ c.toRight = []

/-- Every complete run ends so. -/
def SecurityAgrees (server : SecurityServer) (password : Option Bytes) : Prop :=
  ∀ c, Duo.Reaches (securityStart server password) c → Duo.Stuck c →
    SecurityAgreed server password c

/-- The version exchange. -/
theorem reaches_version (server : SecurityServer) (password : Option Bytes) :
    ∃ version, Duo.Reaches (securityStart server password)
      ⟨negotiateSecurity server.minor password >>= fun security =>
          .done (version, server.minor, security),
        server.afterVersion (.ofAnswer (versionAnswer server.minor)), [], []⟩ := by
  obtain ⟨version, hbanner⟩ := parseBanner_banner server.minor_lt
  have hsend : Duo.Reaches (securityStart server password) _ :=
    reaches_serverSends (n := 12) (banner (SecurityServer.minorDigits server.minor)) _ _ rfl
  simp only [hbanner] at hsend
  have hlength : 12 = (versionAnswer server.minor).length := by
    unfold versionAnswer
    split_ifs <;> rfl
  exact ⟨version, hsend.trans (reaches_clientSends (versionAnswer server.minor) _ _ hlength)⟩

/-- A run that settles is a run that agrees. -/
theorem agrees_of_settles {server : SecurityServer} {password : Option Bytes}
    (h : Settles server password ⟨negotiateSecurity server.minor password,
      server.afterVersion (.ofAnswer (versionAnswer server.minor)), [], []⟩) :
    SecurityAgrees server password := by
  obtain ⟨version, hversion⟩ := reaches_version server password
  rcases h with ⟨security, hrun⟩ | ⟨e, r, is, os, hrun⟩
  · have hend := hversion.trans (hrun.bind _)
    refine (Duo.forall_stuck_iff hend (Duo.stuck_of_idle trivial trivial) _).mpr ⟨trivial, ?_⟩
    rintro version' minor security' heq
    cases heq
    exact ⟨rfl, rfl, rfl, rfl⟩
  · have hend := hversion.trans (hrun.bind _)
    intro c hc hstuck
    have hfail := Duo.forall_stuck_of_left_fail hend rfl c hc hstuck
    refine ⟨by rw [hfail]; trivial, fun version' minor security heq => ?_⟩
    rw [hfail] at heq
    cases heq

/-- **Security phase agreement**: against every server of the document and for
every password choice, the client agrees with the server on the security phase
unless it goes without a password to a server of version 3.7 that offers no
authentication. -/
theorem security_agrees_iff (server : SecurityServer) (password : Option Bytes) :
    SecurityAgrees server password ↔
      ¬ (server.minor = 7 ∧ password = none ∧ 1 ∈ server.types) := by
  constructor
  · rintro h ⟨hminor, rfl, hone⟩
    obtain ⟨version, hversion⟩ := reaches_version server none
    rw [ofAnswer_versionAnswer, if_neg (by omega), if_pos hminor] at hversion
    have hrun := hversion.trans ((offered_waits server (by omega) hone).bind _)
    exact (h _ hrun (Duo.stuck_of_idle rfl trivial)).1
  · intro h
    apply agrees_of_settles
    rw [ofAnswer_versionAnswer]
    split_ifs with h38 h37
    · exact offered_settles server (by omega) .v38 password (.inl rfl)
    · exact offered_settles server (by omega) .v37 password
        (.inr fun hnone => h ⟨h37, hnone⟩)
    · exact decided_settles server (by omega) password

/-- A server of version 3.7 that asks for no authentication. -/
def openServer37 : SecurityServer where
  minor := 7
  securityType := 1
  types := [1]
  challenge := ⟨List.replicate 16 0, rfl⟩
  status _ := 0
  refusal := []
  reason := []
  minor_lt := by decide
  length_types := by decide

theorem security_disagrees : ¬ SecurityAgrees openServer37 none := by
  intro h
  obtain ⟨version, hversion⟩ := reaches_version openServer37 none
  have hwaits := offered_waits openServer37 (show ¬ 7 < 7 by decide) (List.mem_singleton.mpr rfl)
  exact (h _ (hversion.trans (hwaits.bind _)) (Duo.stuck_of_idle rfl trivial)).1

end Vnc

end RdEngine
