/-
RdEngine/AttemptBracketing.lean

What the attempt policy is told, over whole runs of the authentication machine.

The policy may limit how often a viewer tries only if it hears of every attempt.  Each
entry point of the machine writes whole blocks into the log: a verification behind the
permission to try and in front of its outcome, or an event that is neither
(`word_call`).  So in every run a verification stands between the two (`bracketed`).

A second factor that its provider cannot verify has no outcome, which the machine does
not make up (`unsupported_unreported`).
-/
import RdEngine.AuthenticationSafety
import RdEngine.Lib.Brackets

namespace RdEngine

open Brackets

/-! ### Verifications -/

/-- Whether the response was accepted, where the provider decided on it. -/
def FactorResult.accepted? : FactorResult → Option Bool
  | .verified => some true
  | .wrong => some false
  | .unsupported => none

/-- The kind of a verification (of a second factor or not), with what it decided. -/
def AuthEvent.verification? : AuthEvent → Option (Bool × Option Bool)
  | .passwordVerified _ valid => some (false, some valid)
  | .factorVerified _ result => some (true, result.accepted?)
  | _ => none

/-- An event that belongs to no verification. -/
def AuthEvent.Plain : AuthEvent → Prop
  | .allow _ ok => ok = false
  | .latched _ | .approvalChecked _ _ _ | .required _ => True
  | .passwordVerified _ _ | .factorVerified _ _ | .outcome _ _ => False

/-- What an entry point writes down in one piece. -/
inductive AttemptBlock : List AuthEvent → Prop
  | decided {e : AuthEvent} {kind accepted : Bool} :
      e.verification? = some (kind, some accepted) →
      AttemptBlock [.allow kind true, e, .outcome kind accepted]
  | undecided {e : AuthEvent} {kind : Bool} :
      e.verification? = some (kind, none) → AttemptBlock [.allow kind true, e]
  | plain {e : AuthEvent} : e.Plain → AttemptBlock [e]

/-- Every verification is allowed just before it, and its outcome reported just behind
it, once; an outcome is of a verification. -/
structure Bracketed (log : List AuthEvent) : Prop where
  allowed : ∀ pre e post kind decided, log = pre ++ e :: post →
    e.verification? = some (kind, decided) → pre.getLast? = some (.allow kind true)
  reported : ∀ pre e post kind accepted, log = pre ++ e :: post →
    e.verification? = some (kind, some accepted) → post.head? = some (.outcome kind accepted)
  once : ∀ pre e mid kind accepted post, log = pre ++ e :: mid ++ .outcome kind accepted :: post →
    e.verification?.isSome = true → (∀ e' ∈ mid, e'.verification? = none) → mid = []
  /-- what was not decided on is not reported -/
  unreported : ∀ pre e post kind, log = pre ++ e :: post →
    e.verification? = some (kind, none) → ∀ kind' accepted, post.head? ≠ some (.outcome kind' accepted)
  verified : ∀ pre post kind accepted, log = pre ++ .outcome kind accepted :: post →
    ∃ e, pre.getLast? = some e ∧ e.verification? = some (kind, some accepted)

/-! ### Blocks -/

section

variable {e : AuthEvent} {p q pre post log : List AuthEvent} {kind accepted : Bool}

theorem verification?_of_plain (h : e.Plain) : e.verification? = none := by
  cases e with
  | passwordVerified | factorVerified => exact absurd h id
  | allow | latched | approvalChecked | required | outcome => rfl

theorem AttemptBlock.around {decided : Option Bool} (h : AttemptBlock (p ++ e :: q))
    (he : e.verification? = some (kind, decided)) :
    p = [.allow kind true] ∧ q = (decided.map (AuthEvent.outcome kind)).toList := by
  generalize hb : p ++ e :: q = b at h
  -- an event of a block that is no verification is not `e`
  have hne : ∀ e' : AuthEvent, e'.verification? = none → e ≠ e' := by
    rintro e' hnone rfl
    rw [hnone] at he
    cases he
  have hallow : ∀ k ok, e ≠ .allow k ok := fun k ok => hne _ rfl
  have houtcome : ∀ k a, e ≠ .outcome k a := fun k a => hne _ rfl
  cases h with
  | decided hv =>
    rcases p with - | ⟨x, - | ⟨y, - | ⟨z, p⟩⟩⟩
    · exact absurd (List.cons.inj hb).1 (hallow _ _)
    · simp only [List.cons_append, List.nil_append, List.cons.injEq] at hb
      obtain ⟨rfl, rfl, rfl⟩ := hb
      rw [he] at hv
      cases hv
      exact ⟨rfl, rfl⟩
    · simp only [List.cons_append, List.nil_append, List.cons.injEq] at hb
      exact absurd hb.2.2.1 (houtcome _ _)
    · simp at hb
  | undecided hv =>
    rcases p with - | ⟨x, - | ⟨y, p⟩⟩
    · exact absurd (List.cons.inj hb).1 (hallow _ _)
    · simp only [List.cons_append, List.nil_append, List.cons.injEq] at hb
      obtain ⟨rfl, rfl, rfl⟩ := hb
      rw [he] at hv
      cases hv
      exact ⟨rfl, rfl⟩
    · simp at hb
  | plain hplain =>
    rcases p with - | ⟨x, p⟩
    · obtain ⟨rfl, rfl⟩ := List.cons.inj hb
      rw [verification?_of_plain hplain] at he
      cases he
    · simp at hb

theorem AttemptBlock.before (h : AttemptBlock (p ++ .outcome kind accepted :: q)) :
    ∃ e, p = [.allow kind true, e] ∧ e.verification? = some (kind, some accepted) := by
  generalize hb : p ++ .outcome kind accepted :: q = b at h
  cases h with
  | @decided e kind' accepted' hv =>
    rcases p with - | ⟨x, - | ⟨y, - | ⟨z, p⟩⟩⟩
    · cases (List.cons.inj hb).1
    · simp only [List.cons_append, List.nil_append, List.cons.injEq] at hb
      rw [← hb.2.1] at hv
      cases hv
    · simp only [List.cons_append, List.nil_append, List.cons.injEq, AuthEvent.outcome.injEq] at hb
      obtain ⟨rfl, rfl, ⟨rfl, rfl⟩, -⟩ := hb
      exact ⟨_, rfl, hv⟩
    · simp at hb
  | undecided hv =>
    rcases p with - | ⟨x, - | ⟨y, p⟩⟩
    · cases (List.cons.inj hb).1
    · simp only [List.cons_append, List.nil_append, List.cons.injEq] at hb
      rw [← hb.2.1] at hv
      cases hv
    · simp at hb
  | plain hplain =>
    rcases p with - | ⟨x, p⟩
    · rw [← (List.cons.inj hb).1] at hplain
      exact absurd hplain id
    · simp at hb

/-- No block begins with an outcome. -/
theorem AttemptBlock.head {b : List AuthEvent} (h : AttemptBlock b) :
    ∃ a rest, b = a :: rest ∧ ∀ kind accepted, a ≠ .outcome kind accepted := by
  cases h with
  | decided | undecided => exact ⟨_, _, rfl, fun kind accepted heq => by cases heq⟩
  | plain hplain =>
    refine ⟨_, _, rfl, ?_⟩
    rintro kind accepted rfl
    exact hplain

/-- **A log of whole blocks is bracketed.** -/
theorem bracketed_of_word (h : Word AttemptBlock log) : Bracketed log := by
  -- an outcome stands behind its verification in the same block
  have hverified : ∀ pre post kind accepted, log = pre ++ .outcome kind accepted :: post →
      ∃ e, pre.getLast? = some e ∧ e.verification? = some (kind, some accepted) := by
    intro pre post kind accepted hlog
    rw [hlog] at h
    obtain ⟨before, p, q, after, hblock, rfl, -, -, -⟩ := h.split
    obtain ⟨e, rfl, he⟩ := hblock.before
    exact ⟨e, by simp, he⟩
  refine ⟨?_, ?_, ?_, ?_, hverified⟩
  · intro pre e post kind decided hlog he
    rw [hlog] at h
    obtain ⟨before, p, q, after, hblock, rfl, -, -, -⟩ := h.split
    obtain ⟨rfl, -⟩ := hblock.around he
    simp
  · intro pre e post kind accepted hlog he
    rw [hlog] at h
    obtain ⟨before, p, q, after, hblock, -, rfl, -, -⟩ := h.split
    obtain ⟨-, rfl⟩ := hblock.around he
    rfl
  · -- the last event before an outcome is its verification
    intro pre e mid kind accepted post hlog he hmid
    obtain ⟨e', hlast, hverification⟩ := hverified (pre ++ e :: mid) post kind accepted hlog
    rcases List.eq_nil_or_concat mid with rfl | ⟨init, last, rfl⟩
    · rfl
    · have hnone := hmid last (by simp)
      have hend : pre ++ e :: init.concat last = (pre ++ e :: init) ++ [last] := by simp
      rw [hend, List.getLast?_concat] at hlast
      cases hlast
      rw [hverification] at hnone
      cases hnone
  · intro pre e post kind hlog he kind' accepted
    rw [hlog] at h
    obtain ⟨before, p, q, after, hblock, -, rfl, -, hafter⟩ := h.split
    obtain ⟨-, rfl⟩ := hblock.around he
    intro hhead
    exact hafter.head (P := fun a => ∀ kind accepted, a ≠ AuthEvent.outcome kind accepted)
      (fun b hb => hb.head) _ hhead kind' accepted rfl

end

/-! ### Entry points -/

section

variable (sha256 : Bytes → Bytes) (self : HostAuthentication) (env : Answers)

theorem Word.plain {e : AuthEvent} {rest : List AuthEvent} (he : e.Plain)
    (h : Word AttemptBlock rest) : Word AttemptBlock (e :: rest) :=
  .cons (.plain he) h

theorem word_afterPrimary : Word AttemptBlock (self.afterPrimary env).events := by
  unfold HostAuthentication.afterPrimary
  split
  · exact Word.plain trivial .nil
  · exact Word.plain trivial .nil

theorem word_pollApproval : Word AttemptBlock (self.pollApproval env).events := by
  unfold HostAuthentication.pollApproval
  split
  · exact .nil
  · split
    · exact .nil
    · split
      · exact Word.plain trivial .nil
      · exact Word.plain trivial .nil
      · exact Word.plain trivial (word_afterPrimary _ env)

theorem word_loginPrimary (request : LoginRequest) (nonempty valid : Bool) :
    Word AttemptBlock (self.loginPrimary env request nonempty valid).events := by
  unfold HostAuthentication.loginPrimary
  refine Word.plain trivial ?_
  dsimp only
  split
  · exact word_afterPrimary _ env
  · split
    · exact .nil
    · split
      · rw [AuthTurn.after_events, HostAuthentication.error_events, List.append_nil]
        exact word_pollApproval _ env
      · exact word_pollApproval _ env

theorem word_loginAccepted (request : LoginRequest) :
    Word AttemptBlock (self.loginAccepted sha256 env request).events := by
  unfold HostAuthentication.loginAccepted
  split
  · split
    · exact Word.plain rfl .nil
    · -- allowed, verified, reported
      exact Word.cons (.decided rfl) (word_loginPrimary self env request true _)
  · exact word_loginPrimary self env request _ false

theorem word_login (request : LoginRequest) :
    Word AttemptBlock (self.login sha256 env request).events := by
  unfold HostAuthentication.login
  split
  · exact .nil
  split
  · exact .nil
  split
  · exact .nil
  split
  · exact .nil
  split
  · exact .nil
  split
  · exact .nil
  split
  · exact .nil
  · exact word_loginAccepted sha256 _ env request

theorem word_secondFactor (code : Auth2FA) :
    Word AttemptBlock (self.secondFactor env code).events := by
  unfold HostAuthentication.secondFactor
  split
  · exact .nil
  · split
    · exact Word.plain rfl .nil
    · split
      · exact Word.single (.decided rfl)
      · exact Word.single (.decided rfl)
      · exact Word.single (.undecided rfl)

/-- Each call writes whole blocks. -/
theorem word_call (call : AuthCall) : Word AttemptBlock (self.call sha256 env call).events := by
  cases call with
  | login request => exact word_login sha256 self env request
  | pollApproval => exact word_pollApproval self env
  | secondFactor code => exact word_secondFactor self env code
  | close => exact .nil

/-- **Attempts are bracketed in every run**, whatever is called and answered. -/
theorem bracketed (auth : HostAuthentication) (calls : List (AuthCall × Answers)) :
    Bracketed (auth.observe sha256 calls).log := by
  apply bracketed_of_word
  refine Lts.foldl_invariant (I := fun o : ObservedAuth => Word AttemptBlock o.log) .nil ?_ calls
  intro o c ho
  exact ho.append (word_call sha256 o.auth c.2 c.1)

end

/-! ### A factor that cannot be verified -/

/-- Be approved, then send a code that the provider does not support. -/
def unsupportedCalls : List (AuthCall × Answers) :=
  let env : Answers :=
    { allow := .ok (), approval := .approved { keyboard := true }, required := true
      factor := .unsupported }
  [(.login { username := "desk", myId := "viewer" }, env), (.secondFactor { code := "123456" }, env)]

/-- The code is tried with permission, and no outcome follows. -/
theorem unsupported_unreported :
    ¬ ∀ config challenge auth calls pre e post kind decided,
      HostAuthentication.new config challenge = .ok auth →
      (auth.observe id calls).log = pre ++ e :: post → e.verification? = some (kind, decided) →
      ∃ accepted, .outcome kind accepted ∈ post := by
  intro h
  have hlog : (clickHost.observe id unsupportedCalls).log =
      (clickHost.observe id unsupportedCalls).log.dropLast ++
        .factorVerified { code := "123456" } .unsupported :: [] := by decide
  obtain ⟨accepted, hmem⟩ := h clickConfig "c0ffee" clickHost unsupportedCalls _ _ _ true none rfl
    hlog rfl
  cases hmem

end RdEngine
