/-
RdEngine/Lib/Decoder.lean

Incremental decoders: functions that take items off the front of a buffer
that grows as input arrives.

A `Decoder` carries the law that makes the arrival of input irrelevant:
decoding a longer buffer is decoding the shorter one and then going on
(`decode_append`).  The law is asked for the states the decoder is meant to
be in (`ready`), which decoding keeps.  From it come the rules a reader's correctness needs,
stated for `Yields s bs xs t left` — fed `bs`, the decoder gives exactly the
items `xs`, and then waits in state `t` with `left` undecoded:

* `Yields.append` — what arrives later is decoded from where it stopped;
* `Yields.of_wait`, `Yields.of_item` — a poll on any part of the input that
  has arrived takes the next item or none;
* `Yields.cut` — input that ends inside an item gives no item.

A decoder whose items are passed through a function that keeps a state of its
own (a cipher, a parser) is again a decoder (`Decoder.through`).

A reader that owns the buffer polls until nothing more comes (`drain`) each
time a chunk arrives (`feed`).  For a decoder that takes something off the
buffer with every item (`Progress`) the polling ends, and what `feed` returns
is what the whole input yields, whatever the chunks are (`Progress.feed`).
-/
import Mathlib.Data.List.Basic

namespace Incremental

/-- What one poll of a decoder gives: an error, nothing yet, or an item; with
the decoder's next state and what is left of the buffer. -/
inductive Poll (σ β φ ε : Type) where
  | fail (e : ε)
  | wait (s : σ) (rest : List β)
  | item (x : φ) (s : σ) (rest : List β)

variable {σ τ β φ ψ ε : Type}

/-- The poll, had `more` been in the buffer as well. -/
def Poll.extend (decode : σ → List β → Poll σ β φ ε) (more : List β) :
    Poll σ β φ ε → Poll σ β φ ε
  | .fail e => .fail e
  | .wait s rest => decode s (rest ++ more)
  | .item x s rest => .item x s (rest ++ more)

/-- The decoder's next state. -/
def Poll.next : Poll σ β φ ε → Option σ
  | .fail _ => none
  | .wait s _ => some s
  | .item _ s _ => some s

/-- A decoder, indifferent to how its input is cut into chunks. -/
structure Decoder (σ β φ ε : Type) where
  decode : σ → List β → Poll σ β φ ε
  ready : σ → Prop
  ready_next : ∀ {s buf t}, ready s → (decode s buf).next = some t → ready t
  decode_append : ∀ s buf more, ready s →
    decode s (buf ++ more) = (decode s buf).extend decode more

namespace Decoder

variable (D : Decoder σ β φ ε)

/-! ### What an input yields -/

/-- What a decoder yields out of the items it is fed, and what it is left with. -/
inductive Yields : σ → List β → List φ → σ → List β → Prop
  | wait {s t : σ} {bs left : List β} : D.ready s →
      D.decode s bs = .wait t left → Yields s bs [] t left
  | item {s t u : σ} {bs rest left : List β} {x : φ} {xs : List φ} : D.ready s →
      D.decode s bs = .item x t rest → Yields t rest xs u left → Yields s bs (x :: xs) u left

variable {D}

theorem Yields.ready {s t : σ} {bs left : List β} {xs : List φ} (h : D.Yields s bs xs t left) :
    D.ready s := by
  cases h with
  | wait hr _ => exact hr
  | item hr _ _ => exact hr

/-- Only the poll matters. -/
theorem Yields.congr {s s' t : σ} {bs bs' left : List β} {xs : List φ}
    (h : D.Yields s bs xs t left) (hr : D.ready s') (heq : D.decode s' bs' = D.decode s bs) :
    D.Yields s' bs' xs t left := by
  cases h with
  | wait _ hw => exact .wait hr (heq.trans hw)
  | item _ hi hrest => exact .item hr (heq.trans hi) hrest

theorem Yields.append {s t u : σ} {bs cs left left' : List β} {xs ys : List φ}
    (h : D.Yields s bs xs t left) (h' : D.Yields t (left ++ cs) ys u left') :
    D.Yields s (bs ++ cs) (xs ++ ys) u left' := by
  induction h with
  | wait hr hw => exact h'.congr hr (by rw [D.decode_append _ _ _ hr, hw]; rfl)
  | item hr hi _ ih => exact .item hr (by rw [D.decode_append _ _ _ hr, hi]; rfl) (ih h')

/-- A poll that gives nothing leaves what is to come unchanged. -/
theorem Yields.of_wait {s s' t : σ} {buf rest more left : List β} {xs : List φ}
    (h : D.Yields s (buf ++ more) xs t left) (hw : D.decode s buf = .wait s' rest) :
    D.Yields s' (rest ++ more) xs t left :=
  h.congr (D.ready_next h.ready (by rw [hw]; rfl)) (by rw [D.decode_append s buf more h.ready, hw]; rfl)

/-- A poll that gives an item gives the next one. -/
theorem Yields.of_item {s s' t : σ} {buf rest more left : List β} {x : φ} {xs : List φ}
    (h : D.Yields s (buf ++ more) xs t left) (hi : D.decode s buf = .item x s' rest) :
    ∃ xs', xs = x :: xs' ∧ D.Yields s' (rest ++ more) xs' t left := by
  have heq : D.decode s (buf ++ more) = .item x s' (rest ++ more) := by
    rw [D.decode_append _ _ _ h.ready, hi]; rfl
  cases h with
  | wait _ hw => rw [heq] at hw; cases hw
  | item _ hi' hrest =>
    rw [heq] at hi'
    cases hi'
    exact ⟨_, rfl, hrest⟩

theorem Yields.not_fail {s t : σ} {buf more left : List β} {xs : List φ} {e : ε}
    (h : D.Yields s (buf ++ more) xs t left) : D.decode s buf ≠ .fail e := by
  intro hf
  have heq : D.decode s (buf ++ more) = .fail e := by
    rw [D.decode_append _ _ _ h.ready, hf]; rfl
  cases h with
  | wait _ hw => rw [heq] at hw; cases hw
  | item _ hi _ => rw [heq] at hi; cases hi

/-- When everything has arrived and the decoder waits, nothing is left. -/
theorem Yields.eq_nil_of_wait {s s' t : σ} {bs rest left : List β} {xs : List φ}
    (h : D.Yields s bs xs t left) (hw : D.decode s bs = .wait s' rest) : xs = [] := by
  cases h with
  | wait _ _ => rfl
  | item _ hi _ => rw [hw] at hi; cases hi

/-- Input that ends inside an item gives no item. -/
theorem Yields.cut {s t : σ} {bs missing : List β} {x : φ} (hr : D.ready s)
    (h : D.decode s (bs ++ missing) = .item x t []) (hm : missing ≠ []) :
    ∃ u left, D.Yields s bs [] u left := by
  rw [D.decode_append _ _ _ hr] at h
  rcases hb : D.decode s bs with e | ⟨u, left⟩ | ⟨y, u, left⟩
  · rw [hb] at h; cases h
  · exact ⟨u, left, .wait hr hb⟩
  · rw [hb] at h
    injection h with _ _ hnil
    exact absurd (List.append_eq_nil_iff.mp hnil).2 hm

/-! ### Passing the items on -/

/-- One poll, its item passed through `g`. -/
def throughDecode (D : Decoder σ β φ ε) (g : τ → φ → Except ε (ψ × τ)) (s : σ × τ)
    (buf : List β) : Poll (σ × τ) β ψ ε :=
  match D.decode s.1 buf with
  | .fail e => .fail e
  | .wait s' rest => .wait (s', s.2) rest
  | .item x s' rest =>
    match g s.2 x with
    | .error e => .fail e
    | .ok (y, t') => .item y (s', t') rest

theorem throughDecode_next {D : Decoder σ β φ ε} {g : τ → φ → Except ε (ψ × τ)} {s u : σ × τ}
    {buf : List β} (h : (D.throughDecode g s buf).next = some u) :
    (D.decode s.1 buf).next = some u.1 := by
  unfold throughDecode at h
  rcases hd : D.decode s.1 buf with e | ⟨s', rest'⟩ | ⟨x, s', rest'⟩
  · rw [hd] at h; cases h
  · rw [hd] at h; cases h; rfl
  · rw [hd] at h
    rcases hg : g s.2 x with e | ⟨y, t'⟩
    · simp only [hg] at h; cases h
    · simp only [hg] at h; cases h; rfl

/-- A decoder with its items passed through a stateful function. -/
def through (D : Decoder σ β φ ε) (g : τ → φ → Except ε (ψ × τ)) : Decoder (σ × τ) β ψ ε where
  decode := D.throughDecode g
  ready s := D.ready s.1
  ready_next hr h := D.ready_next hr (throughDecode_next h)
  decode_append := by
    rintro ⟨s, t⟩ buf more hr
    simp only [throughDecode]
    rw [D.decode_append _ _ _ hr]
    rcases D.decode s buf with e | ⟨s', rest⟩ | ⟨x, s', rest⟩
    · rfl
    · rfl
    · simp only [Poll.extend]
      rcases g t x with e | ⟨y, t'⟩ <;> rfl

theorem through_item {D : Decoder σ β φ ε} {g : τ → φ → Except ε (ψ × τ)} {s s' : σ} {t t' : τ}
    {buf rest : List β} {x : φ} {y : ψ} (hi : D.decode s buf = .item x s' rest)
    (hg : g t x = .ok (y, t')) : (D.through g).decode (s, t) buf = .item y (s', t') rest := by
  show D.throughDecode g (s, t) buf = _
  simp only [throughDecode, hi, hg]

end Decoder

/-! ### Reading in place -/

/-- The poll as a function that updates the decoder and the buffer: what it
returns, and both as it leaves them.  A failure leaves them as they were. -/
def Poll.inPlace (s : σ) (buf : List β) : Poll σ β φ ε → Except ε (Option φ) × σ × List β
  | .fail e => (.error e, s, buf)
  | .wait t rest => (.ok none, t, rest)
  | .item x t rest => (.ok (some x), t, rest)

/-- What a reader has seen: the items, the error that ended the reading if
there was one, and the decoder and the buffer as they stand. -/
abbrev Reading (σ β φ ε : Type) := List φ × Except ε Unit × σ × List β

/-- Polls until a poll returns no item, `fuel` times at most. -/
def drain (poll : σ → List β → Except ε (Option φ) × σ × List β) :
    Nat → σ → List β → Reading σ β φ ε
  | 0, s, buf => ([], .ok (), s, buf)
  | fuel + 1, s, buf =>
    match poll s buf with
    | (.error e, t, rest) => ([], .error e, t, rest)
    | (.ok none, t, rest) => ([], .ok (), t, rest)
    | (.ok (some x), t, rest) =>
      let later := drain poll fuel t rest
      (x :: later.1, later.2)

/-- The chunks arrive one by one, and the reader drains the buffer after each.
An error ends the reading. -/
def feed (poll : σ → List β → Except ε (Option φ) × σ × List β) :
    List (List β) → σ → List β → Reading σ β φ ε
  | [], s, buf => ([], .ok (), s, buf)
  | chunk :: chunks, s, buf =>
    match drain poll ((buf ++ chunk).length + 1) s (buf ++ chunk) with
    | (xs, .error e, t, rest) => (xs, .error e, t, rest)
    | (xs, .ok (), t, rest) =>
      let later := feed poll chunks t rest
      (xs ++ later.1, later.2)

/-- Whatever has arrived, the polling ends: with an error, or where a poll gives
nothing and changes nothing. -/
theorem drain_ends {poll : σ → List β → Except ε (Option φ) × σ × List β} {I : σ → Prop}
    (hkeeps : ∀ s buf, I s → I (poll s buf).2.1)
    (hshorter : ∀ {s buf x t rest}, I s → poll s buf = (.ok (some x), t, rest) →
      rest.length < buf.length)
    (hwaits : ∀ {s buf t rest}, I s → poll s buf = (.ok none, t, rest) →
      poll t rest = (.ok none, t, rest))
    (fuel : Nat) : ∀ {s t : σ} {buf rest : List β} {xs : List φ}, I s → buf.length < fuel →
      drain poll fuel s buf = (xs, .ok (), t, rest) → poll t rest = (.ok none, t, rest) := by
  induction fuel with
  | zero => exact fun _ hlen => absurd hlen (Nat.not_lt_zero _)
  | succ fuel ih =>
    intro s t buf rest xs hs hlen h
    have hnext := hkeeps s buf hs
    rcases hp : poll s buf with ⟨e | - | x, s', rest'⟩
    · simp only [drain, hp] at h
      cases h
    · simp only [drain, hp] at h
      cases h
      exact hwaits hs hp
    · have hshort := hshorter hs hp
      rw [hp] at hnext
      simp only [drain, hp] at h
      rcases hlater : drain poll fuel s' rest' with ⟨ys, r, u, left⟩
      rw [hlater] at h
      cases h
      exact ih hnext (by omega) hlater

namespace Decoder

variable {D : Decoder σ β φ ε} {I : σ → Prop}

/-- In the states where `I` holds, which polling keeps, every item takes
something off the buffer. -/
structure Progress (D : Decoder σ β φ ε) (I : σ → Prop) : Prop where
  keeps : ∀ {s buf t}, I s → (D.decode s buf).next = some t → I t
  shorter : ∀ {s buf x t rest}, I s → D.decode s buf = .item x t rest → rest.length < buf.length

/-- A poll that gives nothing gives nothing again. -/
theorem decode_of_wait {s t : σ} {buf rest : List β} (hr : D.ready s)
    (hw : D.decode s buf = .wait t rest) : D.decode t rest = .wait t rest := by
  have happ := D.decode_append s buf [] hr
  rw [hw, List.append_nil, hw] at happ
  simp only [Poll.extend, List.append_nil] at happ
  exact happ.symm

/-- Draining takes the items that have arrived and stops where the decoder waits. -/
theorem Progress.drain {poll : σ → List β → Except ε (Option φ) × σ × List β} (hD : D.Progress I)
    (hpoll : ∀ s buf, poll s buf = (D.decode s buf).inPlace s buf) {t : σ} {more left : List β}
    (fuel : Nat) : ∀ {s : σ} {buf : List β} {xs : List φ}, I s → buf.length < fuel →
      D.Yields s (buf ++ more) xs t left →
      ∃ taken later s' rest, drain poll fuel s buf = (taken, .ok (), s', rest) ∧
        xs = taken ++ later ∧ I s' ∧ D.decode s' rest = .wait s' rest ∧
        D.Yields s' (rest ++ more) later t left := by
  induction fuel with
  | zero => exact fun _ hlen _ => absurd hlen (Nat.not_lt_zero _)
  | succ fuel ih =>
    intro s buf xs hs hlen h
    rcases hd : D.decode s buf with e | ⟨s', rest⟩ | ⟨x, s', rest⟩
    · exact absurd hd h.not_fail
    · refine ⟨[], xs, s', rest, ?_, rfl, hD.keeps hs (by rw [hd]; rfl), ?_, h.of_wait hd⟩
      · simp only [Incremental.drain, hpoll, hd, Poll.inPlace]
      · exact decode_of_wait h.ready hd
    · obtain ⟨xs', rfl, hrest⟩ := h.of_item hd
      have hshort := hD.shorter hs hd
      obtain ⟨taken, later, s'', rest', hdrain, rfl, hs'', hwait, hlater⟩ :=
        ih (hD.keeps hs (by rw [hd]; rfl)) (by omega) hrest
      refine ⟨x :: taken, later, s'', rest', ?_, rfl, hs'', hwait, hlater⟩
      simp only [Incremental.drain, hpoll, hd, Poll.inPlace, hdrain]

/-- **The chunks do not matter**: a reader that has nothing left to take, fed
what yields `xs`, takes exactly `xs`. -/
theorem Progress.feed {poll : σ → List β → Except ε (Option φ) × σ × List β} (hD : D.Progress I)
    (hpoll : ∀ s buf, poll s buf = (D.decode s buf).inPlace s buf) {t : σ} {left : List β}
    (chunks : List (List β)) : ∀ {s : σ} {buf : List β} {xs : List φ}, I s →
      D.decode s buf = .wait s buf → D.Yields s (buf ++ chunks.flatten) xs t left →
      feed poll chunks s buf = (xs, .ok (), t, left) := by
  induction chunks with
  | nil =>
    intro s buf xs _ hw h
    rw [List.flatten_nil, List.append_nil] at h
    cases h with
    | wait _ hw' =>
      rw [hw] at hw'
      cases hw'
      rfl
    | item _ hi _ => rw [hw] at hi; cases hi
  | cons chunk chunks ih =>
    intro s buf xs hs _ h
    rw [List.flatten_cons, ← List.append_assoc] at h
    obtain ⟨taken, later, s', rest, hdrain, rfl, hs', hwait, hlater⟩ :=
      hD.drain hpoll ((buf ++ chunk).length + 1) hs (Nat.lt_succ_self _) h
    simp only [Incremental.feed, hdrain, ih hs' hwait hlater]

end Decoder

end Incremental
